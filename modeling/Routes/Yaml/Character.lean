/-!
The characters of YAML texts: which are allowed, and which of them are blanks and line breaks.
-/
namespace Routes.Yaml

def isAllowed (c : Char) : Bool :=
  let n := c.toNat
  n == 0x09 || n == 0x0A || n == 0x0D || (0x20 ≤ n && n ≤ 0x7E) || n == 0x85 ||
    (0xA0 ≤ n && n ≤ 0xFFFD) || 0x10000 ≤ n

def isBlank (c : Char) : Bool := c == ' ' || c == '\t'

def isBreak (c : Char) : Bool :=
  c == '\n' || c == '\r' || c == '\x85' || c == '\u2028' || c == '\u2029'

def isSpace (c : Char) : Bool := isBlank c || isBreak c

/-- White space or the end stands at the front of a text. -/
def atSpace (cs : List Char) : Bool := cs.head?.all isSpace

/-- A character of anchors, tag handles and names of directives. -/
def isWordChar (c : Char) : Bool := c.isAlphanum || c == '_' || c == '-'

/-- A mark between documents stands at the front of a text. -/
def atDocumentMark : List Char → Bool
  | a :: b :: c :: cs => (a == '-' || a == '.') && b == a && c == a && atSpace cs
  | _ => false

/-- The line breaks of a text. All but the separators of lines and of paragraphs count as line
feeds, and a carriage return together with a line feed is one break. -/
def breaksOf : List Char → List Char
  | [] => []
  | '\r' :: '\n' :: cs => '\n' :: breaksOf cs
  | c :: cs =>
    if c == '\u2028' || c == '\u2029' then c :: breaksOf cs
    else if isBreak c then '\n' :: breaksOf cs
    else breaksOf cs

/-- A place in a text: the characters before it, the lines before it, and the characters before
it on its line. -/
structure Place where
  index : Nat
  line : Nat
  column : Nat
deriving DecidableEq, Repr

/-- The place behind a text that begins at a place. -/
def Place.advance (p : Place) : List Char → Place
  | [] => p
  | '\r' :: '\n' :: cs => Place.advance ⟨p.index + 2, p.line + 1, 0⟩ cs
  | c :: cs =>
    if isBreak c then Place.advance ⟨p.index + 1, p.line + 1, 0⟩ cs
    else Place.advance ⟨p.index + 1, p.line, p.column + 1⟩ cs

end Routes.Yaml
