import Routes.Json.Read
import Routes.RouteData
/-!
Route data as JSON. A record is an object with a member for each field, or an array of its fields
in order; members that name no field are ignored.
-/
namespace Routes

namespace Json

def string? : Json → Option String
  | string t => t
  | _ => none

def items? : Json → Option (List Json)
  | array items => some items
  | _ => none

def listOf? {α : Type} (f : Json → Option α) (j : Json) : Option (List α) :=
  j.items?.bind fun items => items.mapM f

/-- The only member with a key: `some none` when there is none, and `none` when there are two. -/
def member? (members : List (Option String × Json)) (key : String) : Option (Option Json) :=
  match members.filter (·.1 == some key) with
  | [] => some none
  | [(_, v)] => some (some v)
  | _ => none

/-- The fields of a record, given the keys of all. A field may be absent, and in an array only at
the end; no key may be without a text. -/
def fields? (keys : List String) : Json → Option (List (Option Json))
  | object members =>
    if members.all (·.1.isSome) then keys.mapM (member? members) else none
  | array items =>
    if items.length ≤ keys.length then
      some (items.map some ++ List.replicate (keys.length - items.length) none)
    else none
  | _ => none

end Json

namespace ParamKind

def toJson (k : ParamKind) : Json := .text k.name

def ofName? (s : String) : Option ParamKind :=
  if s == "int" then some .int else if s == "string" || s == "str" then some .text else none

/-- A name, or an object that maps a name to null. -/
def ofJson? : Json → Option ParamKind
  | .string (some s) => ofName? s
  | .object [(some s, .null)] => ofName? s
  | _ => none

end ParamKind

namespace Segment

def toJson : Segment → Json
  | literal t => .ofFields [("literal", .text t)]
  | capture k => .ofFields [("capture", k.toJson)]

def ofJson? : Json → Option Segment
  | .object [(some key, v)] =>
    if key == "literal" then v.string?.map literal
    else if key == "capture" then (ParamKind.ofJson? v).map capture
    else none
  | _ => none

end Segment

namespace Action

def toJson (a : Action) : Json := .ofFields
  [("name", .text a.name), ("http_method", .text a.method),
   ("pattern", .array (a.pattern.map Segment.toJson)), ("param_names", .texts a.params)]

def ofJson? (j : Json) : Option Action :=
  match j.fields? ["name", "http_method", "pattern", "param_names"] with
  | some [some name, some method, some pattern, some params] => do
    return ⟨← name.string?, ← method.string?, ← pattern.listOf? Segment.ofJson?,
      ← params.listOf? Json.string?⟩
  | _ => none

end Action

namespace Controller

def toJson (c : Controller) : Json := .ofFields
  [("name", .text c.name), ("actions", .array (c.actions.map Action.toJson))]

def ofJson? (j : Json) : Option Controller :=
  match j.fields? ["name", "actions"] with
  | some [some name, some actions] => do
    return ⟨← name.string?, ← actions.listOf? Action.ofJson?⟩
  | _ => none

end Controller

namespace Target

def toJson (t : Target) : Json := .ofFields
  [("controller_name", .text t.controller), ("action_name", .text t.action)]

def ofJson? (j : Json) : Option Target :=
  match j.fields? ["controller_name", "action_name"] with
  | some [some controller, some action] => do return ⟨← controller.string?, ← action.string?⟩
  | _ => none

/-- A default may be absent or null. -/
def optionOfJson? : Option Json → Option (Option Target)
  | none => some none
  | some .null => some none
  | some j => (ofJson? j).map some

end Target

namespace RouteData

def toJson (d : RouteData) : Json := .ofFields
  [("controllers", .array (d.controllers.map Controller.toJson)),
   ("default_action", match d.default with
    | some t => t.toJson
    | none => .null)]

def ofJson? (j : Json) : Option RouteData :=
  match j.fields? ["controllers", "default_action"] with
  | some [some controllers, default] => do
    return ⟨← controllers.listOf? Controller.ofJson?, ← Target.optionOfJson? default⟩
  | _ => none

def toJsonText (d : RouteData) : String := d.toJson.toPretty

def ofJsonText? (s : String) : Option RouteData := (Json.ofText? s).bind ofJson?

end RouteData
end Routes
