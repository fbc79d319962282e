import Routes.Request.Query
import Routes.Request.Target
import Routes.RouteData.Compile
import Routes.RouteData.Register
import Routes.Table
/-!
Resolving requests. The first route of the method that matches the path is taken, and the default
of the table where none matches, so every request has an outcome.
-/
namespace Routes

inductive Outcome.Kind where
  | matched (index : Nat)
  | fallback
deriving DecidableEq, Repr

/-- `urlParams` are in the order of the captures; there are none on fallback. -/
structure Outcome where
  controller : String
  action : String
  urlParams : List (String × String)
  query : Request.Query
  kind : Outcome.Kind
deriving DecidableEq, Repr

namespace Outcome

def target (o : Outcome) : String := o.controller ++ "#" ++ o.action

def isFallback (o : Outcome) : Bool := o.kind == .fallback

/-- Of parameters that share a name the last counts. -/
def urlParam? (o : Outcome) (name : String) : Option String :=
  (o.urlParams.reverse.find? (·.1 == name)).map (·.2)

/-- The first value of a key. -/
def queryParam? (o : Outcome) (name : String) : Option String := (o.query.lookup name).head?

/-- Each name once with the value that counts. -/
def urlParamMap (o : Outcome) : List (String × String) :=
  (o.urlParams.map (·.1)).eraseDups.filterMap fun name => (o.urlParam? name).map (name, ·)

end Outcome

namespace Route

/-- The parameters of a path that the route matches, with percent coding resolved. -/
def params? (r : Route) (baseUrl : String) (path : List Char) : Option (List (String × String)) :=
  (r.pattern.captures? baseUrl path).map fun vs =>
    r.params.zip (vs.map fun v => String.ofList (Text.Percent.decodeText v))

end Route

namespace Table

def fallback (t : Table) (query : Request.Query) : Outcome :=
  ⟨t.default.controller, t.default.action, [], query, .fallback⟩

/-- The first route from an index on that matches. -/
def firstMatch (baseUrl : String) (path : List Char) :
    Nat → List Route → Option (Nat × Route × List (String × String))
  | _, [] => none
  | i, r :: rs =>
    match r.params? baseUrl path with
    | some ps => some (i, r, ps)
    | none => firstMatch baseUrl path (i + 1) rs

/-- The outcome of a request whose target is understood. -/
def resolveTarget (t : Table) (method : String) (target : Request.RequestTarget) : Outcome :=
  let query := (target.query.map fun q => Request.Query.ofText (String.ofList q)).getD []
  let routes := ((Method.ofName? method).map t.routesFor).getD []
  match firstMatch t.baseUrl target.path 0 routes with
  | some (i, r, ps) => ⟨r.controller, r.action, ps, query, .matched i⟩
  | none => t.fallback query

/-- A target that is not understood goes to the default without its query. -/
def resolve (t : Table) (method url : String) : Outcome :=
  match Request.RequestTarget.ofText? url with
  | some target => t.resolveTarget method target
  | none => t.fallback []

def ofSource (source : String) (s : Settings) : Except LoadError Table := do
  let data ← RouteData.ofSource source
  (build data s).mapError .compile

def ofRouteList (list : String) (s : Settings) : Except LoadError Table := do
  let data ← (RouteData.ofRouteList list).mapError .compile
  (build data s).mapError .compile

end Table
end Routes
