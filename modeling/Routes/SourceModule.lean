import Routes.FileStore
import Routes.RouteData
import Routes.Text.Quoted
/-!
Route data as a module of Rust source text. The module holds an expression that denotes the data,
and its first lines list the routes in a comment.
-/
namespace Routes

/-- `library` is the path of the routing library as the module sees it, and `origin` the name of the
file that the routes come from. -/
structure SourceModule where
  name : String
  library : String
  origin : Option String
  data : RouteData
deriving DecidableEq, Repr

namespace SourceModule

def quote (s : String) : List Char := (Text.Quoted.text s).toList

/-- A line of text, four spaces deeper for each level. -/
def line (depth : Nat) (text : List Char) : List Char :=
  List.replicate (4 * depth) ' ' ++ text ++ ['\n']

def commaList (items : List (List Char)) : List Char := List.intercalate [',', ' '] items

def segment : Segment → List Char
  | .literal t => "Segment::literal(".toList ++ quote t ++ [')']
  | .capture .int => "Segment::Capture(ParamKind::Int)".toList
  | .capture .text => "Segment::Capture(ParamKind::Str)".toList

def action (a : Action) : List Char :=
  line 6 "ActionData::new(".toList ++ line 7 (quote a.name ++ [',']) ++
    line 7 (quote a.method ++ [',']) ++
    line 7 ("MatchPattern::new(vec![".toList ++ commaList (a.pattern.map segment) ++
      "]),".toList) ++
    line 7 ("&[".toList ++ commaList (a.params.map quote) ++ "],".toList) ++ line 6 "),".toList

def controller (c : Controller) : List Char :=
  line 4 "ControllerData \x7b".toList ++
    line 5 ("name: ".toList ++ quote c.name ++ ".to_string(),".toList) ++
    line 5 "actions: vec![".toList ++ c.actions.flatMap action ++ line 5 "],".toList ++
    line 4 "\x7d,".toList

def target : Option Target → List Char
  | some t => "Some(DefaultActionData::new(".toList ++
      commaList [quote t.controller, quote t.action] ++ "))".toList
  | none => "None".toList

/-- The expression that denotes route data. -/
def expression (d : RouteData) : List Char :=
  line 2 "RouterData \x7b".toList ++ line 3 "controllers: vec![".toList ++
    d.controllers.flatMap controller ++ line 3 "],".toList ++
    line 3 ("default_action: ".toList ++ target d.default ++ [',']) ++ line 2 "\x7d".toList

def comment (text : String) : List Char := line 0 ("//".toList ++ text.toList)

/-- The comment at the beginning. -/
def header (m : SourceModule) : List Char :=
  comment (" Generated by routedsl-gen" ++ m.origin.elim "" (" from " ++ ·) ++
      ". Do not edit.") ++
    comment "" ++ comment " Routes:" ++
    m.data.entries.flatMap (fun (c, a) =>
      comment ("   " ++ a.method ++ " " ++ a.template ++ " -> " ++ c ++ "#" ++ a.name)) ++
    (match m.data.default with
      | some t => comment ("   default -> " ++ t.hashText)
      | none => [])

def opening (m : SourceModule) : List Char :=
  line 0 [] ++ line 0 "#[allow(unused_imports)]".toList ++
    line 0 ("use ".toList ++ m.library.toList ++ "::\x7b".toList) ++
    line 1 ("compiler::\x7bActionData, ControllerData, DefaultActionData, MatchPattern, ".toList ++
      "RouterData, Segment\x7d,".toList) ++
    line 1 "config::RouterConfig,".toList ++ line 1 "dsl::ParamKind,".toList ++
    line 1 "error::RoutingError,".toList ++ line 1 "router::RouterTable,".toList ++
    line 0 "\x7d;".toList ++ line 0 [] ++
    line 0 "/// Static routing table compiled from the routing DSL.".toList ++
    line 0 ("pub struct ".toList ++ m.name.toList ++ [';']) ++ line 0 [] ++
    line 0 ("impl ".toList ++ m.name.toList ++ " \x7b".toList) ++
    line 1 "/// Compiled route data, identical to compiling the DSL source.".toList ++
    line 1 "pub fn router_data() -> RouterData \x7b".toList

def closing : List Char :=
  line 1 "\x7d".toList ++ line 0 [] ++
    line 1 "/// Build the live table for the given configuration.".toList ++
    line 1 "pub fn build(config: &RouterConfig) -> Result<RouterTable, RoutingError> \x7b".toList ++
    line 2 "RouterTable::build(&Self::router_data(), config)".toList ++ line 1 "\x7d".toList ++
    "\x7d".toList

def text (m : SourceModule) : String :=
  String.ofList (m.header ++ m.opening ++ expression m.data ++ closing)

/-- A name that can be given to a structure: letters, digits and underscores, no digit first. -/
def isName (s : String) : Bool :=
  match s.toList with
  | [] => false
  | c :: cs => (c.isAlpha || c == '_') && cs.all fun d => d.isAlphanum || d == '_'

/-- Why a module is not written. -/
inductive Error where
  | invalidName (name : String)
  | file (e : FileStore.Error)
deriving DecidableEq, Repr

def Error.message : Error → String
  | invalidName name => "'" ++ name ++ "' is not a valid Rust type name"
  | file e => e.message

/-- The text of a module whose name can be used. -/
def render (m : SourceModule) : Except Error String :=
  if isName m.name then .ok m.text else .error (.invalidName m.name)

/-- Writes a module to a path and says whether it did, with the files as they are afterwards, also
where that fails. What is at the path already is left alone unless `force` is set; the directories
that the path leads through are made. -/
def put (m : SourceModule) (path : String) (force : Bool) (store : FileStore) :
    Except Error Bool × FileStore :=
  if store.contains path && !force then (.ok false, store)
  else
    match m.render with
    | .error e => (.error e, store)
    | .ok text =>
      match store.makeParents path with
      | (.error e, made) => (.error (.file e), made)
      | (.ok (), made) =>
        match made.write path text with
        | .error e => (.error (.file e), made)
        | .ok written => (.ok true, written)

/-- Writes a module to a path where that does not fail. -/
def write (m : SourceModule) (path : String) (force : Bool) (store : FileStore) :
    Except Error (Bool × FileStore) :=
  let (result, store) := m.put path force store
  result.map (·, store)

end SourceModule
end Routes
