import Routes.Position
/-!
What a source text declares: controllers with their actions, and the default actions, each with
the place where it begins.
-/
namespace Routes

/-- The characters that a parameter takes: any but the separator, or decimal digits. -/
inductive ParamKind where
  | text
  | int
deriving DecidableEq, Repr, Inhabited

def ParamKind.name : ParamKind → String
  | text => "string"
  | int => "int"

/-- The methods that the language has a word for. -/
inductive Verb where
  | get | post | put | delete
deriving DecidableEq, Repr

def Verb.name : Verb → String
  | get => "GET"
  | post => "POST"
  | put => "PUT"
  | delete => "DELETE"

inductive UrlPart where
  | literal (text : String)
  | param (name : String) (kind : ParamKind)
deriving DecidableEq, Repr

/-- `absolute` says whether the URL is written with a slash in front. -/
structure Url where
  absolute : Bool
  parts : List UrlPart
deriving DecidableEq, Repr

structure ActionDecl where
  name : String
  verb : Verb
  url : Url
  isDefault : Bool
  position : Position
deriving DecidableEq, Repr

/-- A controller that is marked as default stands for its first action. -/
structure ControllerDecl where
  name : String
  actions : List ActionDecl
  isDefault : Bool
  position : Position
deriving DecidableEq, Repr

structure DefaultDecl where
  controller : String
  action : String
  position : Position
deriving DecidableEq, Repr

structure Declarations where
  controllers : List ControllerDecl
  defaults : List DefaultDecl
deriving DecidableEq, Repr

def Declarations.empty : Declarations := ⟨[], []⟩

end Routes
