import Routes.Text.Percent
import Routes.Text.Split
/-!
The path of an absolute URL: its segments are percent coded where they must be, and segments that
are dots are resolved.
-/
namespace Routes.Request.Path

/-- The characters that stand in a path as they are. -/
def keeps (c : Char) : Bool :=
  0x20 < c.toNat && c.toNat < 0x7F &&
    !(['"', '#', '<', '>', '?', '\x60', '\x7b', '\x7d'].contains c)

/-- The characters that stand in a path without segments as they are. -/
def keepsPlain (c : Char) : Bool := 0x20 ≤ c.toNat && c.toNat < 0x7F

/-- A dot or its percent coding, in front of a text. -/
def dropDot? : List Char → Option (List Char)
  | '.' :: cs => some cs
  | '%' :: '2' :: 'e' :: cs => some cs
  | '%' :: '2' :: 'E' :: cs => some cs
  | _ => none

def isSingleDot (s : List Char) : Bool := dropDot? s == some []

def isDoubleDot (s : List Char) : Bool := (dropDot? s).bind dropDot? == some []

/-- A letter and a colon or a bar. -/
def isDriveLetter (s : List Char) : Bool :=
  match s with
  | [c, d] => c.isAlpha && (d == ':' || d == '|')
  | _ => false

/-- Takes the last segment off; a drive letter stays. Segments are in reverse. -/
def shorten : List (List Char) → List (List Char)
  | [] => []
  | s :: done => if isDriveLetter s then s :: done else done

/-- Resolves segments from left to right. Dots at the end leave an empty segment there, so that the
path ends with a slash. -/
def resolve : List (List Char) → List (List Char) → List (List Char)
  | done, [] => done.reverse
  | done, s :: rest =>
    let done' :=
      if isDoubleDot s then if rest.isEmpty then [] :: shorten done else shorten done
      else if isSingleDot s then if rest.isEmpty then [] :: done else done
      else Text.Percent.encode keeps s :: done
    resolve done' rest

/-- Each segment after a slash. -/
def render (segments : List (List Char)) : List Char := segments.flatMap ('/' :: ·)

/-- The pieces between characters that separate segments. -/
def split (separates : Char → Bool) (cs : List Char) : List (List Char) :=
  Text.pieces '/' (cs.map fun c => if separates c then '/' else c)

end Routes.Request.Path
