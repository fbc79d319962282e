import Routes.FileStore
import Routes.RouteData.Yaml
import Routes.Settings
import Routes.Toml.Read
/-!
Settings from a file. A file whose name ends in `.toml` is read as TOML and any other as YAML; a
setting that it does not name keeps its standard value, and the environment overrides both.
-/
namespace Routes

inductive SettingsError where
  | unreadable (path : String)
  | invalidToml (path : String)
  | invalidYaml (path : String)
deriving DecidableEq, Repr

def SettingsError.message : SettingsError → String
  | unreadable path => "failed to read config " ++ path
  | invalidToml path => "invalid TOML in " ++ path
  | invalidYaml path => "invalid YAML in " ++ path

namespace Settings

def keys : List String := ["controller_namespace", "base_url", "default_controller_action"]

/-- The settings that three optional texts give. -/
def ofTexts (nspace baseUrl defaultAction : Option String) : Settings :=
  standard.override ⟨nspace, baseUrl, defaultAction⟩

/-- Each field that is there has to be a text. -/
def ofFields? {α : Type} (text? : α → Option String) (fields : List (Option α)) :
    Option Settings := do
  let texts ← fields.mapM fun
    | none => some none
    | some v => (text? v).map some
  match texts with
  | [nspace, baseUrl, defaultAction] => some (ofTexts nspace baseUrl defaultAction)
  | _ => none

def ofYamlText? (s : String) : Option Settings := do
  let document ← Yaml.Node.ofText? s
  let fields ← document.fields? keys document
  ofFields? document.text? fields

def ofTomlText? (s : String) : Option Settings := do
  let entries ← Toml.ofText? s
  ofFields? (fun
    | .text t => some t
    | _ => none) (keys.map entries.get?)

/-- The settings of a text in the format that the name of its file tells. -/
def ofContent (path content : String) : Except SettingsError Settings :=
  if FileStore.extension? path = some "toml" then
    match ofTomlText? content with
    | some s => .ok s
    | none => .error (.invalidToml path)
  else
    match ofYamlText? content with
    | some s => .ok s
    | none => .error (.invalidYaml path)

def ofFile (store : FileStore) (path : String) (environment : Overrides) :
    Except SettingsError Settings :=
  match store.read? path with
  | none => .error (.unreadable path)
  | some content => (ofContent path content).map (·.override environment)

end Settings
end Routes
