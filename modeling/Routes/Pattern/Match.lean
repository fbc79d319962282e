import Routes.Pattern
/-!
Matching a path against a pattern under a base URL. The path is read from left to right: a text
must stand as it is, a capture takes everything up to the next slash. `Reads` says what a path is
made of without saying how it is read.
-/
namespace Routes

/-- What stands between two slashes of a path that matches. -/
inductive PathPart where
  | text (cs : List Char)
  | capture (kind : ParamKind)
deriving DecidableEq, Repr

/-- The texts that a capture takes. -/
def ParamKind.accepts : ParamKind → List Char → Bool
  | .text, cs => !cs.isEmpty && !cs.contains '/'
  | .int, cs => !cs.isEmpty && cs.all Char.isDigit

def Segment.pathPart : Segment → PathPart
  | .literal text => .text text.toList
  | .capture kind => .capture kind

namespace PathPart

/-- Texts for the parts and the texts of the captures among them. -/
inductive Reads : List PathPart → List (List Char) → List (List Char) → Prop where
  | nil : Reads [] [] []
  | text {cs ps ts vs} : Reads ps ts vs → Reads (.text cs :: ps) (cs :: ts) vs
  | capture {k v ps ts vs} : ParamKind.accepts k v = true → Reads ps ts vs →
      Reads (.capture k :: ps) (v :: ts) (v :: vs)

/-- What a part takes from the front of a path, if it is a capture, and what it leaves. -/
def take? : PathPart → List Char → Option (List (List Char) × List Char)
  | .text t, cs => (Text.after? t cs).map ([], ·)
  | .capture k, cs =>
    let v := cs.takeWhile (· != '/')
    if k.accepts v then some ([v], cs.dropWhile (· != '/')) else none

/-- The captures of a path that holds the parts with slashes between them, and perhaps one slash
at the end. -/
def captures? : List PathPart → List Char → Option (List (List Char))
  | [], cs => if cs = [] ∨ cs = ['/'] then some [] else none
  | [p], cs =>
    match p.take? cs with
    | some (vs, rest) => if rest = [] ∨ rest = ['/'] then some vs else none
    | none => none
  | p :: ps, cs =>
    match p.take? cs with
    | some (vs, '/' :: rest) => (captures? ps rest).map (vs ++ ·)
    | _ => none

end PathPart

namespace Pattern

def parts (p : Pattern) (base : String) : List PathPart :=
  (basePieces base).map .text ++ p.map Segment.pathPart

/-- The captures of a path, which may have a slash in front. -/
def captures? (p : Pattern) (base : String) (path : List Char) : Option (List (List Char)) :=
  let parts := p.parts base
  match path with
  | '/' :: rest =>
    match PathPart.captures? parts rest with
    | some vs => some vs
    | none => PathPart.captures? parts path
  | _ => PathPart.captures? parts path

/-- A path is the texts of the parts with slashes between them, perhaps with one slash in front
and one behind. -/
def Matches (p : Pattern) (base : String) (path : List Char) (vs : List (List Char)) : Prop :=
  ∃ l t ts, (l = [] ∨ l = ['/']) ∧ (t = [] ∨ t = ['/']) ∧
    PathPart.Reads (p.parts base) ts vs ∧ path = l ++ Text.join '/' ts ++ t

end Pattern
end Routes
