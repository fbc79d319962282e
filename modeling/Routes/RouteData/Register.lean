import Routes.RouteData
/-!
Registering routes one by one, and reading a whole list of them. An entry of a list names a method,
a path and a target; a segment of the path that begins with a colon captures text.
-/
namespace Routes.RouteData

/-- The segment and perhaps the name that a piece of a path stands for. -/
def segmentOf (piece : List Char) : Segment × Option String :=
  match piece with
  | ':' :: name => (.capture .text, some (String.ofList name))
  | _ => (.literal (String.ofList piece), none)

def routePieces (route : String) : List (List Char) :=
  (Text.pieces '/' route.toList).filter (!·.isEmpty)

/-- Puts an action behind all others. Only the last controller is extended, so that the order of
registration survives. -/
def append (controller : String) (a : Action) : List Controller → List Controller
  | [] => [⟨controller, [a]⟩]
  | [last] =>
    if last.name = controller then [{ last with actions := last.actions ++ [a] }]
    else [last, ⟨controller, [a]⟩]
  | c :: cs => c :: append controller a cs

/-- Adds one route. The dot of a target is looked for before the hash, and the method is not
checked here. -/
def addRoute (d : RouteData) (method route target : String) : Except CompileError RouteData :=
  match Target.split? '.' '#' target.toList with
  | none => .error (.invalidRouteEntry target)
  | some t =>
    let pieces := (routePieces route).map segmentOf
    let names := pieces.filterMap (·.2)
    if names.contains "" then .error (.missingParamName t.controller t.action)
    else
      let a := Action.new t.action method (pieces.map (·.1)) names
      .ok { d with controllers := append t.controller a d.controllers }

/-- Adds the route of one entry of a list; a blank entry adds none. -/
def addEntry (d : RouteData) (entry : List Char) : Except CompileError RouteData :=
  match Text.words entry with
  | [] => .ok d
  | [method, route, target] =>
    d.addRoute (String.ofList method) (String.ofList route) (String.ofList target)
  | _ => .error (.invalidRouteEntry (String.ofList (Text.trim entry)))

/-- The routes of a list whose entries are separated by commas. -/
def ofRouteList (list : String) : Except CompileError RouteData :=
  (Text.pieces ',' list.toList).foldlM addEntry empty

end Routes.RouteData
