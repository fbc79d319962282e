import Routes.RouteData
import Routes.Yaml.Kind
import Routes.Yaml.Node.Read
import Routes.Yaml.Tree
/-!
Route data as YAML. A record is a mapping, and a segment is a scalar whose tag tells its kind.
Aliases stand for the nodes that they name in their document, and keys that name no field are
ignored.
-/
namespace Routes

namespace Yaml.Node

def text? (document n : Node) : Option String :=
  match document.resolve n with
  | scalar _ _ t => some t
  | _ => none

/-- Nothing is written where a collection is expected. -/
def isMissing : Node → Bool
  | scalar _ plain t => plain && t.isEmpty
  | _ => false

def items? (document n : Node) : Option (List Node) :=
  match document.resolve n with
  | sequence _ items => some items
  | other => if other.isMissing then some [] else none

def entries? (document n : Node) : Option (List (Node × Node)) :=
  match document.resolve n with
  | mapping _ entries => some entries
  | other => if other.isMissing then some [] else none

def listOf? {α : Type} (document : Node) (f : Node → Option α) (n : Node) : Option (List α) :=
  (document.items? n).bind fun items => items.mapM f

/-- The only value of a key: `some none` when there is none, and `none` when there are two. -/
def member? (members : List (String × Node)) (key : String) : Option (Option Node) :=
  match members.filter (·.1 == key) with
  | [] => some none
  | [(_, v)] => some (some v)
  | _ => none

/-- The fields of a record, given the keys of all. -/
def fields? (document : Node) (keys : List String) (n : Node) : Option (List (Option Node)) := do
  let entries ← document.entries? n
  let members ← entries.mapM fun (k, v) => (document.text? k).map (·, v)
  keys.mapM (member? members)

/-- A value that may be null: a plain scalar that is empty or spells null. One with the tag of null
may not be empty. -/
def optional? {α : Type} (document : Node) (f : Node → Option α) (n : Node) : Option (Option α) :=
  match document.resolve n with
  | scalar ⟨anchor, tag⟩ true t =>
    match tag with
    | none =>
      if t.isEmpty || isNull t then some none else (f (scalar ⟨anchor, none⟩ true t)).map some
    | some tag =>
      if tag == "tag:yaml.org,2002:null" then if isNull t then some none else none
      else (f (scalar ⟨anchor, some tag⟩ true t)).map some
  | other => (f other).map some

/-- The tag of a node without its mark. -/
def localTag? : Node → Option String
  | reference _ => none
  | scalar p _ _ | sequence p _ | mapping p _ =>
    p.tag.map fun t =>
      match t.toList with
      | '!' :: cs => String.ofList cs
      | cs => String.ofList cs

end Yaml.Node

open Yaml (Node Tree)

namespace ParamKind

def ofYaml? : Node → Option ParamKind
  | .scalar _ _ t =>
    if t == "int" then some .int else if t == "string" || t == "str" then some .text else none
  | _ => none

end ParamKind

namespace Segment

def toYaml : Segment → Tree
  | literal t => .text (some "!literal") t
  | capture k => .text (some "!capture") k.name

def ofYaml? (document n : Node) : Option Segment :=
  let n := document.resolve n
  match n.localTag? with
  | some "literal" => (document.text? n).map literal
  | some "capture" => (ParamKind.ofYaml? n).map capture
  | _ => none

end Segment

namespace Action

def toYaml (a : Action) : Tree := .record
  [("name", .text none a.name), ("http_method", .text none a.method),
   ("pattern", .list (a.pattern.map Segment.toYaml)),
   ("param_names", .list (a.params.map (.text none)))]

def ofYaml? (document n : Node) : Option Action :=
  match document.fields? ["name", "http_method", "pattern", "param_names"] n with
  | some [some name, some method, some pattern, some params] => do
    return ⟨← document.text? name, ← document.text? method,
      ← document.listOf? (Segment.ofYaml? document) pattern,
      ← document.listOf? document.text? params⟩
  | _ => none

end Action

namespace Controller

def toYaml (c : Controller) : Tree := .record
  [("name", .text none c.name), ("actions", .list (c.actions.map Action.toYaml))]

def ofYaml? (document n : Node) : Option Controller :=
  match document.fields? ["name", "actions"] n with
  | some [some name, some actions] => do
    return ⟨← document.text? name, ← document.listOf? (Action.ofYaml? document) actions⟩
  | _ => none

end Controller

namespace Target

def toYaml (t : Target) : Tree := .record
  [("controller_name", .text none t.controller), ("action_name", .text none t.action)]

def ofYaml? (document n : Node) : Option Target :=
  match document.fields? ["controller_name", "action_name"] n with
  | some [some controller, some action] => do
    return ⟨← document.text? controller, ← document.text? action⟩
  | _ => none

end Target

namespace RouteData

def toYamlText (d : RouteData) : String := Tree.document
  [("controllers", .list (d.controllers.map Controller.toYaml)),
   ("default_action", match d.default with
    | some t => t.toYaml
    | none => .null)]

def ofYaml? (document : Node) : Option RouteData :=
  match document.fields? ["controllers", "default_action"] document with
  | some [some controllers, default] => do
    return ⟨← document.listOf? (Controller.ofYaml? document) controllers,
      ← match default with
        | some n => document.optional? (Target.ofYaml? document) n
        | none => some none⟩
  | _ => none

def ofYamlText? (s : String) : Option RouteData := (Node.ofText? s).bind ofYaml?

end RouteData
end Routes
