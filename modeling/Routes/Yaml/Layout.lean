import Routes.Yaml.Property
import Routes.Yaml.Scalar
/-!
Cutting a YAML text into tokens. What a token means depends on its column: blocks begin where the
indentation grows and end where it shrinks. That a scalar is a key shows only at the colon behind
it, so each collection remembers its last token that could be one, and tokens are put in front of
that token afterwards.
-/
namespace Routes.Yaml

/-- A token that may turn out to be a key: it must when it stands where its block is indented. -/
structure Candidate where
  required : Bool
  number : Nat
  place : Place

/-- What is known at a place of a text. `indents` are the columns of the open blocks, the innermost
first; `candidate` belongs to the innermost flow collection, and `outer` to those around it;
`tokens` are those so far, the latest first. -/
structure Layout where
  rest : List Char
  place : Place
  indents : List Nat
  keyAllowed : Bool
  candidate : Option Candidate
  outer : List (Option Candidate)
  tokens : List Token

namespace Layout

/-- The beginning of a text; a byte order mark counts as its first column. -/
def start : List Char → Layout
  | '\ufeff' :: cs => ⟨cs, ⟨1, 0, 1⟩, [], true, none, [], []⟩
  | cs => ⟨cs, ⟨0, 0, 0⟩, [], true, none, [], []⟩

def inFlow (l : Layout) : Bool := !l.outer.isEmpty

def push (l : Layout) (t : Token) : Layout := { l with tokens := t :: l.tokens }

/-- Puts a token in front of the one with a number. -/
def pushBefore (l : Layout) (number : Nat) (t : Token) : Layout :=
  { l with tokens := l.tokens.insertIdx (l.tokens.length - number) t }

/-- Goes on to the rest of the text. -/
def moveTo (l : Layout) (rest : List Char) : Layout :=
  { l with
    rest := rest
    place := l.place.advance (l.rest.take (l.rest.length - rest.length)) }

/-- Ends the blocks that are deeper than a column. -/
def unroll (column : Nat) : List Nat → List Token → List Nat × List Token
  | [], ts => ([], ts)
  | i :: is, ts => if column < i then unroll column is (.blockEnd :: ts) else (i :: is, ts)

def closeBlocks (l : Layout) (column : Nat) : Layout :=
  if l.inFlow then l
  else
    let (indents, tokens) := unroll column l.indents l.tokens
    { l with indents, tokens }

def closeAllBlocks (l : Layout) : Layout :=
  if l.inFlow then l
  else { l with indents := [], tokens := l.indents.map (fun _ => .blockEnd) ++ l.tokens }

/-- Opens a block at a column unless one is open there; its token stands in front of the token
with a number. -/
def openBlock (l : Layout) (column number : Nat) (t : Token) : Layout :=
  if l.inFlow || l.indents.head?.any (column ≤ ·) then l
  else { l.pushBefore number t with indents := column :: l.indents }

/-- Gives up the candidate of the innermost collection. -/
def dropCandidate (l : Layout) : Option Layout :=
  if l.candidate.any (·.required) then none else some { l with candidate := none }

/-- Remembers the next token as a candidate where a key may stand. -/
def saveCandidate (l : Layout) : Option Layout :=
  if l.keyAllowed then
    let required := !l.inFlow && l.indents.head? == some l.place.column
    l.dropCandidate.map fun l =>
      { l with candidate := some ⟨required, l.tokens.length, l.place⟩ }
  else some l

/-- A key ends on the line on which it begins and is not longer than 1024 characters. -/
def isStale (place : Place) (c : Candidate) : Bool :=
  c.place.line < place.line || c.place.index + 1024 < place.index

def expire (place : Place) (c : Option Candidate) : Option (Option Candidate) :=
  match c with
  | some k => if isStale place k then if k.required then none else some none else some (some k)
  | none => some none

def expireCandidates (l : Layout) : Option Layout := do
  let candidate ← expire l.place l.candidate
  let outer ← l.outer.mapM (expire l.place)
  return { l with candidate, outer }

/-- Passes over blanks, breaks and comments. Outside of flow collections a new line allows a key,
and a tab does not count as a blank where a key may stand. -/
def skipSpace (flow allowed comment : Bool) : List Char → Bool × List Char
  | [] => (allowed, [])
  | c :: cs =>
    if isBreak c then skipSpace flow (allowed || !flow) false cs
    else if comment || c == ' ' || (c == '\t' && (flow || !allowed)) then
      skipSpace flow allowed comment cs
    else if c == '#' then skipSpace flow allowed true cs
    else (allowed, c :: cs)

def toNextToken (l : Layout) : Layout :=
  let (allowed, rest) := skipSpace l.inFlow l.keyAllowed false l.rest
  { l.moveTo rest with keyAllowed := allowed }

/-- A token of `n` characters. -/
def take (l : Layout) (n : Nat) (t : Token) : Layout := (l.moveTo (l.rest.drop n)).push t

def directive (l : Layout) : Option Layout := do
  let l ← l.closeAllBlocks.dropCandidate
  let (t, rest) ← readDirective (l.rest.drop 1)
  return { (l.moveTo rest).push t with keyAllowed := false }

def documentMark (l : Layout) (t : Token) : Option Layout := do
  let l ← l.closeAllBlocks.dropCandidate
  return { l.take 3 t with keyAllowed := false }

def openFlow (l : Layout) (t : Token) : Option Layout := do
  let l ← l.saveCandidate
  return { l.take 1 t with keyAllowed := true, candidate := none, outer := l.candidate :: l.outer }

def closeFlow (l : Layout) (t : Token) : Option Layout := do
  let l ← l.dropCandidate
  match l.outer with
  | [] => return { l.take 1 t with keyAllowed := false }
  | c :: outer => return { l.take 1 t with keyAllowed := false, candidate := c, outer := outer }

def flowEntry (l : Layout) : Option Layout := do
  let l ← l.dropCandidate
  return { l.take 1 .flowEntry with keyAllowed := true }

def blockEntry (l : Layout) : Option Layout := do
  if !l.inFlow && !l.keyAllowed then none
  else
    let l ← (l.openBlock l.place.column l.tokens.length .blockSequenceStart).dropCandidate
    return { l.take 1 .blockEntry with keyAllowed := true }

def explicitKey (l : Layout) : Option Layout := do
  if !l.inFlow && !l.keyAllowed then none
  else
    let l ← (l.openBlock l.place.column l.tokens.length .blockMappingStart).dropCandidate
    return { l.take 1 .key with keyAllowed := !l.inFlow }

/-- A colon makes the candidate a key; where there is none the key is empty. -/
def value (l : Layout) : Option Layout :=
  match l.candidate with
  | some k =>
    let l := (l.pushBefore k.number .key).openBlock k.place.column k.number .blockMappingStart
    some { l.take 1 .value with keyAllowed := false, candidate := none }
  | none =>
    if !l.inFlow && !l.keyAllowed then none
    else
      let l := l.openBlock l.place.column l.tokens.length .blockMappingStart
      some { l.take 1 .value with keyAllowed := !l.inFlow }

/-- A token that may be a key or the beginning of one. -/
def keyLike (l : Layout) (read : List Char → Option (Token × List Char)) : Option Layout := do
  let l ← l.saveCandidate
  let (t, rest) ← read l.rest
  return { (l.moveTo rest).push t with keyAllowed := false }

def quoted (l : Layout) (read : List Char → Option (List Char × List Char)) : Option Layout :=
  l.keyLike fun cs => (read (cs.drop 1)).map fun (t, r) => (.scalar false (String.ofList t), r)

def block (l : Layout) (literal : Bool) : Option Layout := do
  let l ← l.dropCandidate
  let (text, rest) ← readBlock literal l.indents.head? (l.rest.drop 1)
  return { (l.moveTo rest).push (.scalar false (String.ofList text)) with keyAllowed := true }

def plain (l : Layout) : Option Layout := do
  let l ← l.saveCandidate
  let p ← readPlain l.inFlow (l.indents.head?.elim 0 (· + 1)) l.place.column [] l.rest
  let l := (l.moveTo p.rest).push (.scalar true (String.ofList p.text))
  return { l with keyAllowed := p.broken }

def isIndicator (c : Char) : Bool :=
  ['-', '?', ':', ',', '[', ']', '\x7b', '\x7d', '#', '&', '*', '!', '|', '>', '\'', '"', '%', '@',
    '\x60'].contains c

/-- A plain scalar may begin with three of the indicators if no white space follows. -/
def startsPlain (flow : Bool) (c : Char) (cs : List Char) : Bool :=
  if c == '-' then !cs.head?.any isBlank
  else if c == '?' || c == ':' then !flow && !atSpace cs
  else !isSpace c && !isIndicator c

/-- The token whose first character is given, at a place where no white space stands. -/
def token (l : Layout) (c : Char) (cs : List Char) : Option Layout :=
  let flow := l.inFlow
  if l.place.column == 0 && c == '%' then l.directive
  else if l.place.column == 0 && atDocumentMark (c :: cs) then
    l.documentMark (if c == '-' then .documentStart else .documentEnd)
  else if c == '[' then l.openFlow .flowSequenceStart
  else if c == '\x7b' then l.openFlow .flowMappingStart
  else if c == ']' then l.closeFlow .flowSequenceEnd
  else if c == '\x7d' then l.closeFlow .flowMappingEnd
  else if c == ',' then l.flowEntry
  else if c == '-' && atSpace cs then l.blockEntry
  else if c == '?' && (flow || atSpace cs) then l.explicitKey
  else if c == ':' && (flow || atSpace cs) then l.value
  else if c == '*' then
    l.keyLike fun cs => (readName (cs.drop 1)).map fun (n, r) => (.reference n, r)
  else if c == '&' then
    l.keyLike fun cs => (readName (cs.drop 1)).map fun (n, r) => (.anchor n, r)
  else if c == '!' then l.keyLike (readTag flow)
  else if c == '|' && !flow then l.block true
  else if c == '>' && !flow then l.block false
  else if c == '\'' then l.quoted (readSingle .empty)
  else if c == '"' then l.quoted (readDouble .empty 0 0)
  else if startsPlain flow c cs then l.plain
  else none

/-- The tokens up to the end of the text. Each step takes at least one character. -/
def run : Nat → Layout → Option (List Token)
  | 0, _ => none
  | fuel + 1, l =>
    match l.toNextToken.expireCandidates with
    | none => none
    | some l =>
      match l.rest with
      | [] => l.closeAllBlocks.dropCandidate.map (·.tokens.reverse)
      | c :: cs => ((l.closeBlocks l.place.column).token c cs).bind (run fuel)

end Layout

/-- The tokens of a text. -/
def Token.scan? (cs : List Char) : Option (List Token) :=
  if cs.all isAllowed then Layout.run (cs.length + 1) (.start cs) else none

end Routes.Yaml
