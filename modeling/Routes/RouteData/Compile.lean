import Routes.Declaration.Parse
import Routes.RouteData
/-!
From declarations to route data. The default is the one that is declared; where none is, it is the
only one that is marked.
-/
namespace Routes

/-- A failure on the way from a source text to route data. The reason why a file cannot be read
is the system's. -/
inductive LoadError where
  | unreadable (path : String)
  | scan (e : ScanError)
  | parse (e : ParseError)
  | compile (e : CompileError)
deriving DecidableEq, Repr

def LoadError.message : LoadError → String
  | unreadable path => "failed to read routes from " ++ path
  | scan e => e.message
  | parse e => e.message
  | compile e => e.message

namespace Url

def segments (u : Url) : Pattern :=
  u.parts.map fun
    | .literal text => .literal text
    | .param _ kind => .capture kind

def names (u : Url) : List String :=
  u.parts.filterMap fun
    | .literal _ => none
    | .param name _ => some name

end Url

namespace ActionDecl

def compile (controller : String) (a : ActionDecl) : Except CompileError Action :=
  if a.url.names.contains "" then .error (.missingParamName controller a.name)
  else .ok ⟨a.name, a.verb.name, a.url.segments, a.url.names⟩

end ActionDecl

namespace ControllerDecl

def compile (c : ControllerDecl) : Except CompileError Controller := do
  let actions ← c.actions.mapM (ActionDecl.compile c.name)
  return ⟨c.name, actions⟩

/-- The targets that a controller marks: its first action if it is marked itself, and its marked
actions. -/
def marks (c : ControllerDecl) : Except CompileError (List Target) :=
  let inner := (c.actions.filter (·.isDefault)).map fun a => ⟨c.name, a.name⟩
  if c.isDefault then
    match c.actions with
    | [] => .error (.emptyDefaultController c.name)
    | a :: _ => .ok (⟨c.name, a.name⟩ :: inner)
  else .ok inner

end ControllerDecl

/-- Leaves one of each run of equal neighbours. -/
def dropRepeats : List Target → List Target
  | a :: b :: rest => if a = b then dropRepeats (b :: rest) else a :: dropRepeats (b :: rest)
  | ts => ts

namespace Declarations

def defaultTarget (d : Declarations) : Except CompileError (Option Target) :=
  match d.defaults with
  | [only] => .ok (some ⟨only.controller, only.action⟩)
  | first :: second :: _ =>
    .error (.multipleDefaults (Target.hashText ⟨first.controller, first.action⟩)
      (Target.hashText ⟨second.controller, second.action⟩))
  | [] => do
    let marks ← d.controllers.mapM ControllerDecl.marks
    match dropRepeats marks.flatten with
    | [] => return none
    | [only] => return some only
    | first :: second :: _ => .error (.multipleDefaults first.hashText second.hashText)

def compile (d : Declarations) : Except CompileError RouteData := do
  let controllers ← d.controllers.mapM ControllerDecl.compile
  let default ← d.defaultTarget
  return ⟨controllers, default⟩

/-- The declarations of a source text. -/
def ofSource (source : String) : Except LoadError Declarations := do
  let tokens ← (Token.scan source).mapError .scan
  (ofTokens tokens).mapError .parse

end Declarations

/-- The route data of a source text. -/
def RouteData.ofSource (source : String) : Except LoadError RouteData := do
  let declarations ← Declarations.ofSource source
  declarations.compile.mapError .compile

end Routes
