import Routes.Text.Percent
import Routes.Text.Utf8
import Routes.Yaml.Character
import Routes.Yaml.Token
/-!
Reading what stands in front of nodes and documents: anchors, aliases, tags and directives.
-/
namespace Routes.Yaml

/-- A run of characters that is not empty. -/
def readRun (p : Char → Bool) (cs : List Char) : Option (List Char × List Char) :=
  match cs.takeWhile p with
  | [] => none
  | run => some (run, cs.dropWhile p)

/-- The name behind `&` or `*`. -/
def readName (cs : List Char) : Option (String × List Char) :=
  match readRun isWordChar cs with
  | none => none
  | some (name, rest) =>
    if atSpace rest || rest.head?.any ['?', ':', ',', ']', '\x7d', '%', '@', '\x60'].contains then
      some (String.ofList name, rest)
    else none

def isTagChar (c : Char) : Bool :=
  isWordChar c || [';', '/', '?', ':', '@', '&', '=', '+', '$', '.', '!', '~', '*', '\'', '(',
    ')'].contains c

/-- A character of tags that are written out in full. -/
def isFullTagChar (c : Char) : Bool := isTagChar c || [',', '[', ']'].contains c

/-- How many bytes a character has whose first byte is given. -/
def byteCount? (b : UInt8) : Option Nat :=
  if b < 0x80 then some 1
  else if 0xC0 ≤ b && b < 0xE0 then some 2
  else if 0xE0 ≤ b && b < 0xF0 then some 3
  else if 0xF0 ≤ b && b < 0xF8 then some 4
  else none

/-- The bytes of the text of a tag, and the rest. The bytes of a character that is escaped stand
side by side; `due` of them are still to come. -/
def readTagBytes (p : Char → Bool) (due : Nat) : List Char → Option (List UInt8 × List Char)
  | '%' :: a :: b :: cs =>
    match Text.Percent.hexValue? a, Text.Percent.hexValue? b with
    | some x, some y =>
      let byte := UInt8.ofNat (16 * x + y)
      let due? := if due == 0 then (byteCount? byte).map (· - 1)
        else if 0x80 ≤ byte && byte < 0xC0 then some (due - 1)
        else none
      due?.bind fun d => (readTagBytes p d cs).map fun (bs, r) => (byte :: bs, r)
    | _, _ => none
  | c :: cs =>
    if due ≠ 0 || c == '%' then none
    else if p c then
      (readTagBytes p 0 cs).map fun (bs, r) => (Text.Utf8.encode [c] ++ bs, r)
    else some ([], c :: cs)
  | [] => if due ≠ 0 then none else some ([], [])

def readTagText (p : Char → Bool) (cs : List Char) : Option (List Char × List Char) :=
  (readTagBytes p 0 cs).map fun (bs, r) => (Text.Utf8.decodeLossy bs, r)

/-- A tag handle: a mark, or a word between two; and whether it has its second mark. -/
def readHandle : List Char → Option (List Char × Bool × List Char)
  | '!' :: cs =>
    match cs.dropWhile isWordChar with
    | '!' :: rest => some ('!' :: (cs.takeWhile isWordChar ++ ['!']), true, rest)
    | rest => some ('!' :: cs.takeWhile isWordChar, false, rest)
  | _ => none

/-- A tag written in full, or a suffix behind a handle. -/
def readTag (flow : Bool) (cs : List Char) : Option (Token × List Char) := do
  let (tag, rest) ← match cs with
    | '!' :: '<' :: full =>
      match readTagText isFullTagChar full with
      | some (text@(_ :: _), '>' :: rest) => some (Token.tag "" (String.ofList text), rest)
      | _ => none
    | _ => do
      let (handle, closed, rest) ← readHandle cs
      let (text, rest) ← readTagText isTagChar rest
      if closed then
        if text.isEmpty then none
        else some (Token.tag (String.ofList handle) (String.ofList text), rest)
      else
        match handle.drop 1 ++ text with
        | [] => some (Token.tag "" "!", rest)
        | suffix => some (Token.tag "!" (String.ofList suffix), rest)
  if atSpace rest || (flow && rest.head? == some ',') then some (tag, rest) else none

/-- A number of a version, of at most nine digits. -/
def readVersionNumber (cs : List Char) : Option (Nat × List Char) :=
  match readRun Char.isDigit cs with
  | some (ds, rest) =>
    if ds.length ≤ 9 then some (ds.foldl (fun n d => 10 * n + (d.toNat - 48)) 0, rest) else none
  | none => none

/-- What the directive of a name says. -/
def readDirectiveValue (name : String) (cs : List Char) : Option (Token × List Char) :=
  let cs := cs.dropWhile isBlank
  match name with
  | "YAML" => do
    let (major, rest) ← readVersionNumber cs
    match rest with
    | '.' :: rest =>
      let (minor, rest) ← readVersionNumber rest
      return (.version major minor, rest)
    | _ => none
  | "TAG" => do
    let (handle, closed, rest) ← readHandle cs
    if !closed && handle != ['!'] then none
    else
      match rest with
      | b :: rest' =>
        if isBlank b then
          let (meaning, rest) ← readTagText isFullTagChar (rest'.dropWhile isBlank)
          if meaning.isEmpty || !atSpace rest then none
          else some (.tagHandle (String.ofList handle) (String.ofList meaning), rest)
        else none
      | [] => none
  | _ => none

/-- A directive behind its percent sign, to the end of its line. -/
def readDirective (cs : List Char) : Option (Token × List Char) := do
  let (name, rest) ← readRun isWordChar cs
  if !atSpace rest then none
  else
    let (directive, rest) ← readDirectiveValue (String.ofList name) rest
    let rest := rest.dropWhile isBlank
    let rest := if rest.head? == some '#' then rest.dropWhile (!isBreak ·) else rest
    if rest.head?.any (!isBreak ·) then none else some (directive, rest)

end Routes.Yaml
