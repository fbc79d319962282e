import Routes.Settings
/-!
What the command line can ask for, and how its arguments are laid out.
-/
namespace Routes.CommandLine

inductive DumpFormat where
  | json
  | yaml
deriving DecidableEq, Repr

inductive Command where
  | generate (routes name : String) (output : Option String) (library : String) (force : Bool)
  | compile (routes : String) (format : DumpFormat) (output : Option String)
  | routes (routes : String)
  | resolve (routes method url : String)
  | watch (routes : String)
deriving DecidableEq, Repr

/-- A command, and the settings that are given beside it. -/
structure Invocation where
  command : Command
  settingsFile : Option String
  overrides : Settings.Overrides
deriving DecidableEq, Repr

/-- Why arguments make no invocation. Help and version are asked for in this way too. -/
inductive UsageError where
  | displayHelp
  | displayVersion
  | displayHelpOnMissing
  | missingSubcommand
  | invalidSubcommand
  | unknownArgument
  | invalidValue
  | tooManyValues
  | argumentConflict
  | missingRequired
deriving DecidableEq, Repr

/-- What an option does. Those with a value may restrict it. -/
inductive OptionKind where
  | help
  | version
  | flag
  | text
  | path
  | oneOf (values : List String)
deriving DecidableEq, Repr

namespace OptionKind

def takesValue : OptionKind → Bool
  | help | version | flag => false
  | text | path | oneOf _ => true

def accepts : OptionKind → String → Bool
  | path, v => !v.isEmpty
  | oneOf values, v => values.contains v
  | _, _ => true

end OptionKind

structure OptionSpec where
  long : String
  short : Option Char
  kind : OptionKind
deriving DecidableEq, Repr

/-- The arguments of one level: of the program in front of the subcommand, or of a subcommand. -/
structure Level where
  options : List OptionSpec
  required : List String
  positionals : List String
  subcommands : List String
deriving DecidableEq, Repr

def settingsOption : OptionSpec := ⟨"config", none, .path⟩

/-- Options that may stand in front of the subcommand and behind it. -/
def sharedOptions : List OptionSpec :=
  [settingsOption, ⟨"namespace", none, .text⟩, ⟨"base-url", none, .text⟩,
    ⟨"default-action", none, .text⟩, ⟨"help", some 'h', .help⟩]

def programLevel : Level :=
  ⟨sharedOptions ++ [⟨"version", some 'V', .version⟩], [], [],
    ["generate", "compile", "routes", "match", "watch", "help"]⟩

def routesOption : OptionSpec := ⟨"routes", some 'r', .path⟩

def outputOption : OptionSpec := ⟨"output", some 'o', .path⟩

/-- The arguments of a subcommand. -/
def subcommandLevel (name : String) : Level :=
  let own : List OptionSpec := match name with
    | "generate" =>
      [⟨"name", some 'n', .text⟩, outputOption, ⟨"crate-path", none, .text⟩,
        ⟨"force", some 'f', .flag⟩]
    | "compile" => [⟨"format", none, .oneOf ["json", "yaml"]⟩, outputOption]
    | _ => []
  ⟨routesOption :: own ++ sharedOptions, ["routes"],
    if name = "match" then ["method", "url"] else [], []⟩

end Routes.CommandLine
