import Routes.CommandLine
import Routes.Dispatch.Session
import Routes.RouteData.Json
import Routes.Settings.File
import Routes.SourceModule
/-!
Running a command on a store of files. A command prints a text or fails, and may write one file.
-/
namespace Routes

/-- Why a command fails. `build` is a fault that shows only when a table is built. -/
inductive CommandError where
  | load (e : LoadError)
  | compile (routes : String) (e : CompileError)
  | build (e : CompileError)
  | settings (e : SettingsError)
  | output (path : String)
  | module (e : SourceModule.Error)
deriving DecidableEq, Repr

namespace CommandError

/-- The text in front of the first colon and space. -/
def head : List Char → List Char
  | ':' :: ' ' :: _ => []
  | c :: cs => c :: head cs
  | [] => []

def cause (s : String) : String := String.ofList (head s.toList)

/-- A cause is told in full together with the error that it leads to; of an error of the system
only its own text is told. -/
def message : CommandError → String
  | load (.unreadable path) => cause (LoadError.unreadable path).message
  | load e => e.message ++ ": " ++ e.message
  | compile routes e => "failed to compile " ++ routes ++ ": " ++ e.message
  | build e => e.message ++ ": " ++ e.message
  | settings e => cause e.message
  | output path => cause ("failed to write " ++ path)
  | module (.invalidName name) => (SourceModule.Error.invalidName name).message
  | module (.file e) => cause e.message

end CommandError

namespace CommandLine

/-- The settings of an invocation: those of its file, or else the standard ones; then those of the
environment; then those of its options. -/
def Invocation.settings (i : Invocation) (store : FileStore) (environment : Settings.Overrides) :
    Except SettingsError Settings := do
  let base ← match i.settingsFile with
    | some path => Settings.ofFile store path environment
    | none => pure (Settings.standard.override environment)
  return base.override i.overrides

def loadRoutes (store : FileStore) (path : String) : Except CommandError RouteData :=
  match store.read? path with
  | none => .error (.load (.unreadable path))
  | some source => do
    let declarations ← (Declarations.ofSource source).mapError .load
    declarations.compile.mapError (.compile path)

/-- The table of a file under the settings of an invocation. -/
def Invocation.table (i : Invocation) (store : FileStore) (environment : Settings.Overrides)
    (routes : String) : Except CommandError Table := do
  let data ← loadRoutes store routes
  let settings ← (i.settings store environment).mapError .settings
  (Table.build data settings).mapError .build

def sorted {α : Type} (entries : List (String × α)) : List (String × α) :=
  entries.mergeSort fun a b => a.1 ≤ b.1

/-- An outcome as a JSON object with its members in the order of their keys. -/
def report (o : Outcome) : Json := .ofFields
  [("action", .text o.action), ("controller", .text o.controller), ("fallback", .bool o.isFallback),
   ("query_params", .ofFields (sorted (o.query.map fun (k, vs) => (k, .texts vs)))),
   ("url_params", .ofFields (sorted (o.urlParamMap.map fun (n, v) => (n, .text v))))]

def dump (format : DumpFormat) (d : RouteData) : String :=
  let text := match format with
    | .json => d.toJsonText
    | .yaml => d.toYamlText
  if text.endsWith "\n" then text else text ++ "\n"

/-- The text that a command prints, and the files afterwards. -/
def Invocation.run (i : Invocation) (store : FileStore) (environment : Settings.Overrides) :
    Except CommandError (String × FileStore) := do
  match i.command with
  | .generate routes name output library force =>
    let data ← loadRoutes store routes
    match output with
    | none =>
      let text ← (SourceModule.render ⟨name, library, none, data⟩).mapError .module
      return (text, store)
    | some path =>
      let m : SourceModule := ⟨name, library, FileStore.fileName? routes, data⟩
      let (written, store) ← (m.write path force store).mapError .module
      let report := if written then "" else "Skipping existing file " ++ path ++ " (use --force)\n"
      return (report, store)
  | .compile routes format output =>
    let data ← loadRoutes store routes
    match output with
    | none => return (dump format data, store)
    | some path =>
      let store ← (store.write path (dump format data)).mapError fun _ => .output path
      return ("", store)
  | .routes routes | .watch routes =>
    let table ← i.table store environment routes
    return (table.listing, store)
  | .resolve routes method url =>
    let table ← i.table store environment routes
    return ((report (table.resolve method url)).toPretty ++ "\n", store)

end CommandLine
end Routes
