import Routes.Request.Absolute
import Routes.Text.Blank
/-!
The target of a request: a path with perhaps a query, or a whole URL of which path and query are
taken. A fragment is dropped.
-/
namespace Routes.Request

/-- A path that can be matched, and the query as it is written. -/
structure RequestTarget where
  path : List Char
  query : Option (List Char)
deriving DecidableEq, Repr

/-- The text in front of a character, or all of it. -/
def textBefore (c : Char) (cs : List Char) : List Char :=
  match Text.cut? c cs with
  | some (a, _) => a
  | none => cs

def holdsScheme : List Char → Bool
  | [] => false
  | c :: cs => "://".toList.isPrefixOf (c :: cs) || holdsScheme cs

/-- Only a scheme in front of the query makes a target absolute. -/
def isAbsolute (cs : List Char) : Bool := holdsScheme (textBefore '?' cs)

/-- Path and query of a target without a fragment. -/
def splitPath? (cs : List Char) : Option RequestTarget :=
  if isAbsolute cs then (Absolute.parse? cs).map fun (p, q) => ⟨p, q⟩
  else match Text.cut? '?' cs with
    | some (p, q) => some ⟨p, some q⟩
    | none => some ⟨cs, none⟩

def isPathChar (c : Char) : Bool := !Text.isBlank c && !Text.isControl c

/-- No target has white space or controls in its path. -/
def RequestTarget.ofText? (url : String) : Option RequestTarget :=
  match splitPath? (textBefore '#' url.toList) with
  | some t => if t.path.all isPathChar then some t else none
  | none => none

end Routes.Request
