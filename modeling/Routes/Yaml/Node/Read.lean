import Routes.Yaml.Layout
import Routes.Yaml.Node
/-!
From tokens to a document. Where a key, a value or an item is missing an empty node stands.
-/
namespace Routes.Yaml

/-- Tokens that have not been read, and the numbers of the anchors so far. -/
structure Input where
  tokens : List Token
  anchors : List (String × Nat)

namespace Input

def goOn (i : Input) (tokens : List Token) : Input := { i with tokens }

def number? (i : Input) (name : String) : Option Nat := (i.anchors.find? (·.1 == name)).map (·.2)

/-- An anchor is numbered by how many names there are before it. -/
def bind (i : Input) (name : String) (tokens : List Token) : Nat × Input :=
  let n := i.anchors.length
  (n, ⟨tokens, (name, n) :: i.anchors.filter (·.1 != name)⟩)

def stands (i : Input) (p : Token → Bool) : Bool := i.tokens.head?.any p

end Input

/-- The meanings of tag handles. -/
abbrev Handles := List (String × String)

def Handles.standard : Handles := [("!", "!"), ("!!", "tag:yaml.org,2002:")]

def Handles.tag? (hs : Handles) (handle suffix : String) : Option String :=
  if handle.isEmpty then some suffix
  else (hs.find? (·.1 == handle)).map (·.2 ++ suffix)

namespace Node

/-- An anchor and a tag in any order, each at most once. -/
def readProps (hs : Handles) (i : Input) : Option (Props × Input) :=
  match i.tokens with
  | .anchor name :: .tag h s :: ts =>
    let (n, i) := i.bind name ts
    (hs.tag? h s).map fun t => (⟨some n, some t⟩, i)
  | .tag h s :: .anchor name :: ts =>
    let (n, i) := i.bind name ts
    (hs.tag? h s).map fun t => (⟨some n, some t⟩, i)
  | .anchor name :: ts =>
    let (n, i) := i.bind name ts
    some (⟨some n, none⟩, i)
  | .tag h s :: ts => (hs.tag? h s).map fun t => (⟨none, some t⟩, i.goOn ts)
  | _ => some (.none, i)

/-- Where a node stands: inside a flow collection, in a block, or as a key or value of a block
mapping, where a sequence need not be indented. -/
inductive Context where
  | flow
  | block
  | entry
deriving DecidableEq, Repr

def endsItem : Token → Bool
  | .blockEntry | .blockEnd => true
  | _ => false

def endsEntry : Token → Bool
  | .key | .value | .blockEnd => true
  | _ => false

def endsFlowItem : Token → Bool
  | .flowEntry | .flowSequenceEnd => true
  | _ => false

def endsFlowEntry : Token → Bool
  | .flowEntry | .flowMappingEnd => true
  | _ => false

mutual

/-- One node. The number bounds the nodes and the places between them that are still read. -/
def read (hs : Handles) : Nat → Context → Input → Option (Node × Input)
  | 0, _, _ => none
  | fuel + 1, context, i =>
    match i.tokens with
    | .reference name :: ts => (i.number? name).map fun n => (.reference n, i.goOn ts)
    | _ =>
      match readProps hs i with
      | none => none
      | some (props, i) =>
        match i.tokens, context with
        | .scalar plain text :: ts, _ => some (.scalar props plain text, i.goOn ts)
        | .flowSequenceStart :: ts, _ =>
          (readFlowItems hs fuel true (i.goOn ts)).map fun (xs, i) => (.sequence props xs, i)
        | .flowMappingStart :: ts, _ =>
          (readFlowEntries hs fuel true (i.goOn ts)).map fun (es, i) => (.mapping props es, i)
        | .blockSequenceStart :: ts, .block | .blockSequenceStart :: ts, .entry =>
          (readItems hs fuel (i.goOn ts)).map fun (xs, i) => (.sequence props xs, i)
        | .blockMappingStart :: ts, .block | .blockMappingStart :: ts, .entry =>
          (readEntries hs fuel (i.goOn ts)).map fun (es, i) => (.mapping props es, i)
        | .blockEntry :: _, .entry =>
          (readFlatItems hs fuel i).map fun (xs, i) => (.sequence props xs, i)
        | _, _ => if props = .none then none else some (.scalar props true "", i)

/-- A node unless a token shows that none is written. -/
def readUnless (hs : Handles) : Nat → (Token → Bool) → Context → Input → Option (Node × Input)
  | 0, _, _, _ => none
  | fuel + 1, missing, context, i =>
    if i.stands missing then some (.empty, i) else read hs fuel context i

/-- The items of a block sequence to its end. -/
def readItems (hs : Handles) : Nat → Input → Option (List Node × Input)
  | 0, _ => none
  | fuel + 1, i =>
    match i.tokens with
    | .blockEntry :: ts =>
      match readUnless hs fuel endsItem .block (i.goOn ts) with
      | none => none
      | some (x, i) => (readItems hs fuel i).map fun (xs, i) => (x :: xs, i)
    | .blockEnd :: ts => some ([], i.goOn ts)
    | _ => none

/-- The items of a sequence that is not indented; it ends where no item follows. -/
def readFlatItems (hs : Handles) : Nat → Input → Option (List Node × Input)
  | 0, _ => none
  | fuel + 1, i =>
    match i.tokens with
    | .blockEntry :: ts =>
      match readUnless hs fuel (fun t => endsItem t || endsEntry t) .block (i.goOn ts) with
      | none => none
      | some (x, i) => (readFlatItems hs fuel i).map fun (xs, i) => (x :: xs, i)
    | _ => some ([], i)

/-- The entries of a block mapping to its end. -/
def readEntries (hs : Handles) : Nat → Input → Option (List (Node × Node) × Input)
  | 0, _ => none
  | fuel + 1, i =>
    match i.tokens with
    | .key :: ts =>
      match readUnless hs fuel endsEntry .entry (i.goOn ts) with
      | none => none
      | some (k, i) =>
        match readValue hs fuel endsEntry .entry i with
        | none => none
        | some (v, i) => (readEntries hs fuel i).map fun (es, i) => ((k, v) :: es, i)
    | .blockEnd :: ts => some ([], i.goOn ts)
    | _ => none

/-- A value behind its colon; where no colon stands the value is empty. -/
def readValue (hs : Handles) : Nat → (Token → Bool) → Context → Input → Option (Node × Input)
  | 0, _, _, _ => none
  | fuel + 1, missing, context, i =>
    match i.tokens with
    | .value :: ts => readUnless hs fuel missing context (i.goOn ts)
    | _ => some (.empty, i)

/-- The items of a flow sequence to its end; a comma stands before each but the first. An item can
be a mapping with one entry. -/
def readFlowItems (hs : Handles) : Nat → Bool → Input → Option (List Node × Input)
  | 0, _, _ => none
  | fuel + 1, first, i =>
    match i.tokens with
    | .flowSequenceEnd :: ts => some ([], i.goOn ts)
    | _ =>
      match if first then some i.tokens else Token.afterComma? i.tokens with
      | none => none
      | some (.flowSequenceEnd :: ts) => some ([], i.goOn ts)
      | some (.key :: ts) =>
        match readPairKey hs fuel (i.goOn ts) with
        | none => none
        | some (k, i) =>
          match readValue hs fuel endsFlowItem .flow i with
          | none => none
          | some (v, i) =>
            (readFlowItems hs fuel false i).map fun (xs, i) => (.mapping .none [(k, v)] :: xs, i)
      | some ts =>
        match read hs fuel .flow (i.goOn ts) with
        | none => none
        | some (x, i) => (readFlowItems hs fuel false i).map fun (xs, i) => (x :: xs, i)

/-- The key of a mapping with one entry. Where it is missing the token that shows it is dropped. -/
def readPairKey (hs : Handles) : Nat → Input → Option (Node × Input)
  | 0, _ => none
  | fuel + 1, i =>
    match i.tokens with
    | .value :: ts | .flowEntry :: ts | .flowSequenceEnd :: ts => some (.empty, i.goOn ts)
    | _ => read hs fuel .flow i

/-- The entries of a flow mapping to its end; a comma stands before each but the first. -/
def readFlowEntries (hs : Handles) : Nat → Bool → Input → Option (List (Node × Node) × Input)
  | 0, _, _ => none
  | fuel + 1, first, i =>
    match i.tokens with
    | .flowMappingEnd :: ts => some ([], i.goOn ts)
    | _ =>
      match if first then some i.tokens else Token.afterComma? i.tokens with
      | none => none
      | some (.flowMappingEnd :: ts) => some ([], i.goOn ts)
      | some (.key :: ts) =>
        match readUnless hs fuel (fun t => t = .value || endsFlowEntry t) .flow (i.goOn ts) with
        | none => none
        | some (k, i) =>
          match readValue hs fuel endsFlowEntry .flow i with
          | none => none
          | some (v, i) => (readFlowEntries hs fuel false i).map fun (es, i) => ((k, v) :: es, i)
      | some ts =>
        match read hs fuel .flow (i.goOn ts) with
        | none => none
        | some (k, i) =>
          (readFlowEntries hs fuel false i).map fun (es, i) => ((k, .empty) :: es, i)

end

def isDirective : Token → Bool
  | .version .. | .tagHandle .. => true
  | _ => false

/-- The tag handles of a document: at most one version is given, and no handle twice. -/
def handles? (directives : List Token) : Option Handles :=
  let versions := directives.filterMap fun
    | .version major minor => some (major, minor)
    | _ => none
  let given := directives.filterMap fun
    | .tagHandle h meaning => some (h, meaning)
    | _ => none
  if versions.length ≤ 1 && versions.all (fun v => v == (1, 1) || v == (1, 2)) &&
      (given.map (·.1)).eraseDups.length == given.length then
    some (given ++ .standard)
  else none

def endsDocument (t : Token) : Bool := isDirective t || t = .documentStart || t = .documentEnd

/-- The only document of a text. A text without one stands for an empty node. -/
def ofTokens? (ts : List Token) : Option Node :=
  let fuel := 4 * ts.length + 4
  let whole : Node × Input → Option Node := fun (node, i) =>
    if i.tokens.all (· = .documentEnd) then some node else none
  match ts.takeWhile isDirective, ts.dropWhile isDirective with
  | [], [] => some .empty
  | directives, .documentStart :: content =>
    match handles? directives with
    | none => none
    | some hs =>
      if content.head?.all endsDocument then whole (.empty, ⟨content, []⟩)
      else (read hs fuel .block ⟨content, []⟩).bind whole
  | [], content => (read .standard fuel .block ⟨content, []⟩).bind whole
  | _, _ => none

def ofText? (s : String) : Option Node := (Token.scan? s.toList).bind ofTokens?

end Node
end Routes.Yaml
