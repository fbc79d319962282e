import Routes.Declaration
/-!
Path patterns: a list of segments, each a literal or a capture. A pattern is shown in two ways, as
a template with the names of its parameters and as an anchored regular expression.
-/
namespace Routes

inductive Segment where
  | literal (text : String)
  | capture (kind : ParamKind)
deriving DecidableEq, Repr

abbrev Pattern := List Segment

def Segment.isCapture : Segment → Bool
  | literal _ => false
  | capture _ => true

namespace Pattern

def captureCount (p : Pattern) : Nat := p.countP Segment.isCapture

/-- Each segment after a slash; a capture takes the next name, or `?` when there is none left. -/
def templateParts : Pattern → List String → List Char
  | [], _ => []
  | .literal text :: p, names => '/' :: (text.toList ++ templateParts p names)
  | .capture kind :: p, names =>
    '/' :: '<' :: ((names.head?.getD "?").toList ++
      ':' :: (kind.name.toList ++ '>' :: templateParts p names.tail))

/-- The empty pattern is shown as a slash, and so is one with nothing to show. -/
def template (p : Pattern) (names : List String) : String :=
  match templateParts p names with
  | [] => "/"
  | cs => String.ofList cs

/-- The non-empty pieces of a base URL. -/
def basePieces (base : String) : List (List Char) :=
  (Text.pieces '/' base.toList).filter (!·.isEmpty)

/-- The characters that have a meaning in a regular expression. -/
def isMeta (c : Char) : Bool :=
  ['\\', '.', '+', '*', '?', '(', ')', '|', '[', ']', '\x7b', '\x7d', '^', '$', '#', '&', '-',
    '~'].contains c

def escape (cs : List Char) : List Char := cs.flatMap fun c => if isMeta c then ['\\', c] else [c]

def Segment.expression : Segment → List Char
  | .literal text => escape text.toList
  | .capture .int => "([0-9]+)".toList
  | .capture .text => "([^/]+)".toList

/-- The regular expression of a pattern under a base URL. A slash in front and one behind are
optional. -/
def expression (p : Pattern) (base : String) : String :=
  let parts := (basePieces base).map escape ++ p.map Segment.expression
  String.ofList ("^/?".toList ++ Text.join '/' parts ++ "/?$".toList)

end Pattern
end Routes
