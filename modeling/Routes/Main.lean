import Routes.CommandLine.Parse
import Routes.CommandLine.Run
/-!
The command line program. It gathers the files that an invocation names, runs the invocation on
them, and carries out what has changed.
-/
namespace Routes.CommandLine

def usage : String :=
  "Usage: routedsl-gen [--config FILE] [--namespace NAME] [--base-url URL]\n" ++
  "                    [--default-action TARGET]\n" ++
  "                    generate|compile|routes|match|watch --routes FILE [OPTIONS]\n"

/-- The files at some paths, as far as there are any. -/
def gather (paths : List String) : IO FileStore := do
  let mut files : List (String × FileStore.Content) := []
  for path in paths do
    try
      let bytes ← IO.FS.readBinFile path
      files := files ++ [(path, .bytes bytes.toList)]
    catch _ => pure ()
  return .ofFiles (FileStore.names (← IO.currentDir).toString) files

def Command.paths : Command → List String
  | .generate file _ output _ _ | .compile file _ output => file :: output.toList
  | .routes file | .resolve file _ _ | .watch file => [file]

/-- The directories that a path leads through count as there; whether they are shows when its file
is written. -/
def withWay (s : FileStore) (path : String) : FileStore :=
  { s with directories := s.directories ++ FileStore.way s.working path }

/-- Writes the file at a path if it is not the same in two stores, and makes the directories that
it lies in. -/
def save (path : String) (old new : FileStore) : IO Unit := do
  let l := FileStore.location new.working path
  if old.file? l != new.file? l then
    match new.read? path with
    | some text =>
      let parent := String.ofList (path.toList.reverse.dropWhile (· != '/')).reverse
      if !parent.isEmpty then IO.FS.createDirAll parent
      IO.FS.writeFile path text
    | none => pure ()

/-- Prints the table of a file whenever it has become another one. -/
partial def follow (i : Invocation) (environment : Settings.Overrides) (routes shown : String) :
    IO Unit := do
  IO.sleep 500
  let store ← gather (routes :: i.settingsFile.toList)
  match i.table store environment routes with
  | .ok t =>
    if t.listing != shown then IO.print t.listing
    follow i environment routes t.listing
  | .error _ => follow i environment routes shown

def runInvocation (i : Invocation) (environment : Settings.Overrides) : IO UInt32 := do
  let paths := i.command.paths
  let store ← gather (paths ++ i.settingsFile.toList)
  let store := paths.foldl withWay store
  match i.run store environment with
  | .error e =>
    IO.eprintln ("Error: " ++ e.message)
    return 1
  | .ok (text, changed) =>
    for path in paths do save path store changed
    IO.print text
    match i.command with
    | .watch routes =>
      follow i environment routes text
      return 0
    | _ => return 0

end Routes.CommandLine

def main (args : List String) : IO UInt32 := do
  let environment : Routes.Settings.Overrides :=
    ⟨← IO.getEnv "ROUTEDSL_CONTROLLER_NAMESPACE", ← IO.getEnv "ROUTEDSL_BASE_URL",
      ← IO.getEnv "ROUTEDSL_DEFAULT_ACTION"⟩
  match Routes.CommandLine.Invocation.ofArguments args (← IO.getEnv "ROUTEDSL_CONFIG") with
  | .ok i => Routes.CommandLine.runInvocation i environment
  | .error .displayHelp =>
    IO.print Routes.CommandLine.usage
    return 0
  | .error .displayVersion =>
    IO.println "routedsl-gen 0.1.0-alpha.1"
    return 0
  | .error _ =>
    IO.eprint Routes.CommandLine.usage
    return 2
