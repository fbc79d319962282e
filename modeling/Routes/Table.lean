import Routes.Method
import Routes.Pattern.Match
import Routes.Settings
/-!
Tables of routes. A table is built at once from route data and settings, or not at all; it groups
routes by their method and keeps the order of declaration inside each group.
-/
namespace Routes

/-- `controller` is qualified, and `expression` is the pattern under the base URL of the table. -/
structure Route where
  method : Method
  pattern : Pattern
  expression : String
  params : List String
  controller : String
  action : String
  template : String
deriving Repr

/-- Two routes are equal if they agree but for their templates. -/
instance : BEq Route where
  beq a b := a.method == b.method && a.pattern == b.pattern && a.expression == b.expression &&
    a.params == b.params && a.controller == b.controller && a.action == b.action

/-- `groups` holds a method for which there are routes once, in the order of first appearance. -/
structure Table where
  groups : List (Method × List Route)
  default : Target
  baseUrl : String
  nspace : String
deriving Repr, BEq

namespace Route

def display (r : Route) : String :=
  r.method.name ++ " " ++ r.template ++ " -> " ++ r.controller ++ "#" ++ r.action

/-- The route of an action, unless the action has a fault: an unknown method, names that do not
fit the captures, or an empty name. The first fault in this order counts. -/
def ofAction (s : Settings) (controller : String) (a : Action) : Except CompileError Route :=
  match Method.ofName? a.method with
  | none => .error (.unknownMethod controller a.name a.method)
  | some m =>
    if a.params.length ≠ a.pattern.captureCount then
      .error (.paramCountMismatch controller a.name a.params.length a.pattern.captureCount)
    else if a.params.contains "" then .error (.missingParamName controller a.name)
    else .ok ⟨m, a.pattern, a.pattern.expression s.baseUrl, a.params, s.qualify controller, a.name,
      a.template⟩

end Route

namespace Table

/-- Puts a route behind those of its method. -/
def insert (r : Route) : List (Method × List Route) → List (Method × List Route)
  | [] => [(r.method, [r])]
  | (m, rs) :: rest => if m = r.method then (m, rs ++ [r]) :: rest else (m, rs) :: insert r rest

def defaultTarget (d : RouteData) (s : Settings) : Except CompileError Target :=
  match d.default with
  | some t => .ok t
  | none => Target.ofText s.defaultAction

/-- The table of route data. Its expressions are taken to be within what an engine for them accepts:
each is one that can be read, but no limit on the size of an expression is described, so that no
error tells of one. -/
def build (d : RouteData) (s : Settings) : Except CompileError Table := do
  let routes ← d.entries.mapM fun (controller, a) => Route.ofAction s controller a
  let default ← defaultTarget d s
  return ⟨routes.foldl (fun gs r => insert r gs) [], ⟨s.qualify default.controller, default.action⟩,
    s.baseUrl, s.nspace⟩

/-- The routes of all groups, one group after the other. -/
def routes (t : Table) : List Route := t.groups.flatMap (·.2)

def routesFor (t : Table) (m : Method) : List Route :=
  match t.groups.find? (·.1 == m) with
  | some (_, rs) => rs
  | none => []

def size (t : Table) : Nat := t.routes.length

def isEmpty (t : Table) : Bool := t.size == 0

/-- A text without slashes at its ends. -/
def trimSlashes (cs : List Char) : List Char :=
  ((cs.dropWhile (· == '/')).reverse.dropWhile (· == '/')).reverse

/-- A template under the base URL. -/
def fullPath (t : Table) (template : String) : String :=
  match trimSlashes t.baseUrl.toList with
  | [] => template
  | base =>
    if template = "/" then String.ofList ('/' :: base)
    else String.ofList ('/' :: base) ++ template

/-- Every full path once, in the order of first appearance. -/
def pathPatterns (t : Table) : List String :=
  t.routes.foldl (fun seen r =>
    let path := t.fullPath r.template
    if seen.contains path then seen else seen ++ [path]) []

/-- A text filled with spaces up to a width. -/
def pad (width : Nat) (s : String) : String :=
  s ++ String.ofList (List.replicate (width - s.length) ' ')

def headerLine (t : Table) : String :=
  "[routes] base_url=" ++ (if t.baseUrl.isEmpty then "/" else t.baseUrl) ++ " count=" ++
    toString t.size ++ " default=" ++ t.default.hashText ++ "\n"

def routeLine (t : Table) (r : Route) : String :=
  "[route] " ++ pad 7 r.method.name ++ " " ++ t.fullPath r.template ++ " -> " ++ r.controller ++
    "#" ++ r.action ++ "\n"

/-- A line on the table and one on each route. -/
def listing (t : Table) : String :=
  t.headerLine ++ String.join (t.routes.map t.routeLine)

end Table
end Routes
