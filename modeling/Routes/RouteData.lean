import Routes.Pattern
import Routes.Text.Blank
/-!
Compiled routes: what a source text means without the places in it. Route data is what tables are
built from, what is stored as JSON or YAML, and what generated modules hold.
-/
namespace Routes

/-- `params` are the names of the captures in their order. -/
structure Action where
  name : String
  method : String
  pattern : Pattern
  params : List String
deriving DecidableEq, Repr

structure Controller where
  name : String
  actions : List Action
deriving DecidableEq, Repr

/-- The controller and the action that a request goes to. -/
structure Target where
  controller : String
  action : String
deriving DecidableEq, Repr

structure RouteData where
  controllers : List Controller
  default : Option Target
deriving DecidableEq, Repr

/-- A fault in declarations, in a route list, or in route data from which a table is built. That an
engine may refuse an expression for its size is no fault of this kind. -/
inductive CompileError where
  | paramCountMismatch (controller action : String) (params captures : Nat)
  | missingParamName (controller action : String)
  | multipleDefaults (first second : String)
  | emptyDefaultController (controller : String)
  | unknownMethod (controller action method : String)
  | invalidDefaultAction (value : String)
  | invalidRouteEntry (entry : String)
deriving DecidableEq, Repr

def CompileError.message : CompileError → String
  | paramCountMismatch c a params captures =>
    "compile error in " ++ c ++ "#" ++ a ++ ": " ++ toString params ++ " parameter names for " ++
      toString captures ++ " captures"
  | missingParamName c a => "compile error in " ++ c ++ "#" ++ a ++ ": url parameter without a name"
  | multipleDefaults first second =>
    "compile error: default action declared twice (" ++ first ++ " and " ++ second ++ ")"
  | emptyDefaultController c => "compile error: default controller " ++ c ++ " declares no actions"
  | unknownMethod c a m =>
    "compile error in " ++ c ++ "#" ++ a ++ ": unknown http method '" ++ m ++ "'"
  | invalidDefaultAction v =>
    "invalid default action '" ++ v ++ "', expected Controller.action or Controller#action"
  | invalidRouteEntry e =>
    "invalid route entry '" ++ e ++ "', expected METHOD /url Controller.action"

namespace Action

/-- The method is kept in upper case. -/
def new (name method : String) (pattern : Pattern) (params : List String) : Action :=
  ⟨name, String.ofList (Text.upper method.toList), pattern, params⟩

def template (a : Action) : String := a.pattern.template a.params

end Action

namespace Target

def hashText (t : Target) : String := t.controller ++ "#" ++ t.action

def dotText (t : Target) : String := t.controller ++ "." ++ t.action

/-- Splits at the first of one separator, or else at the first of another; neither side may be
blank. -/
def split? (first second : Char) (cs : List Char) : Option Target :=
  match (Text.cut? first cs).or (Text.cut? second cs) with
  | none => none
  | some (c, a) =>
    let c := Text.trim c
    let a := Text.trim a
    if c.isEmpty || a.isEmpty then none else some ⟨String.ofList c, String.ofList a⟩

/-- A default action as settings name it. The hash is looked for before the dot. -/
def ofText (value : String) : Except CompileError Target :=
  match split? '#' '.' value.toList with
  | some t => .ok t
  | none => .error (.invalidDefaultAction value)

end Target

namespace RouteData

def empty : RouteData := ⟨[], none⟩

/-- The actions with the names of their controllers, in the order of declaration. -/
def entries (d : RouteData) : List (String × Action) :=
  d.controllers.flatMap fun c => c.actions.map (c.name, ·)

def actionCount (d : RouteData) : Nat := d.entries.length

theorem mem_entries_iff {d : RouteData} {e : String × Action} :
    e ∈ d.entries ↔ ∃ c ∈ d.controllers, ∃ a ∈ c.actions, (c.name, a) = e := by
  simp only [entries, List.mem_flatMap, List.mem_map]

end RouteData
end Routes
