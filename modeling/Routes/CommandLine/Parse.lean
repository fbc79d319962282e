import Routes.CommandLine
import Routes.Text.Split
/-!
Reading arguments. An option takes effect when the next one begins or the arguments end, so of two
faults the one that shows first is reported.
-/
namespace Routes.CommandLine

/-- The arguments of a level that have been read. `pending` is an option that has not yet taken
effect, and its value if that has been read. -/
structure Parsed where
  values : List (OptionSpec × String)
  pending : Option (OptionSpec × Option String)
  positionals : List String
deriving DecidableEq, Repr

namespace Parsed

def empty : Parsed := ⟨[], none, []⟩

def value? (p : Parsed) (long : String) : Option String :=
  (p.values.find? (·.1.long == long)).map (·.2)

/-- An option takes effect. None may be given twice. -/
def apply (p : Parsed) (o : OptionSpec) (v : Option String) : Except UsageError Parsed :=
  match o.kind, v with
  | .help, _ => .error .displayHelp
  | .version, _ => .error .displayVersion
  | .flag, _ =>
    if (p.value? o.long).isSome then .error .argumentConflict
    else .ok { p with values := p.values ++ [(o, "true")] }
  | _, none => .error .invalidValue
  | kind, some v =>
    if (p.value? o.long).isSome then .error .argumentConflict
    else if !kind.accepts v then .error .invalidValue
    else .ok { p with values := p.values ++ [(o, v)] }

/-- The pending option takes effect. -/
def settle (p : Parsed) : Except UsageError Parsed :=
  match p.pending with
  | none => .ok p
  | some (o, v) => { p with pending := none }.apply o v

def awaitsValue (p : Parsed) : Bool :=
  match p.pending with
  | some (_, none) => true
  | _ => false

/-- An option with its value attached, or one without a value, takes effect at once; any other
waits for the next argument. -/
def meet (p : Parsed) (o : OptionSpec) (attached : Option String) : Except UsageError Parsed := do
  let p ← p.settle
  if o.kind.takesValue && attached.isNone then return { p with pending := some (o, none) }
  else p.apply o attached

end Parsed

namespace Level

/-- An option by its long name, with a value behind an equals sign. -/
def readLong (l : Level) (p : Parsed) (text : List Char) : Except UsageError Parsed :=
  let (name, attached) := match Text.cut? '=' text with
    | some (n, v) => (n, some (String.ofList v))
    | none => (text, none)
  match l.options.find? (·.long.toList == name) with
  | none => .error .unknownArgument
  | some o =>
    if !o.kind.takesValue && attached.isSome then .error .tooManyValues else p.meet o attached

/-- Options by their letters; what follows the letter of one with a value is its value. -/
def readShort (l : Level) (p : Parsed) : List Char → Except UsageError Parsed
  | [] => .ok p
  | c :: cs =>
    match l.options.find? (·.short == some c) with
    | none => .error .unknownArgument
    | some o =>
      if o.kind.takesValue then
        match cs with
        | [] => p.meet o none
        | '=' :: v => p.meet o (some (String.ofList v))
        | v => p.meet o (some (String.ofList v))
      else
        match p.meet o none with
        | .ok p => readShort l p cs
        | .error e => .error e

/-- An argument that is no option and no value of one. -/
def readPositional (l : Level) (p : Parsed) (arg : String) (onlyPositionals : Bool) :
    Except UsageError Parsed :=
  if p.positionals.length < l.positionals.length then
    p.settle.map fun p => { p with positionals := p.positionals ++ [arg] }
  else if l.subcommands.isEmpty || (onlyPositionals && l.subcommands.contains arg) then
    .error .unknownArgument
  else .error .invalidSubcommand

/-- Help on a subcommand. -/
def readHelp (l : Level) : List String → UsageError
  | [] => .displayHelp
  | [name] => if l.subcommands.contains name then .displayHelp else .invalidSubcommand
  | _ => .invalidSubcommand

/-- Reads the arguments of a level up to a subcommand, which is left with the arguments behind it.
Behind two dashes all arguments are positional. -/
def read (l : Level) (onlyPositionals : Bool) (p : Parsed) :
    List String → Except UsageError (Parsed × Option (String × List String))
  | [] => .ok (p, none)
  | arg :: rest =>
    if onlyPositionals then
      match l.readPositional p arg true with
      | .ok p => read l true p rest
      | .error e => .error e
    else if !p.awaitsValue && l.subcommands.contains arg then
      if arg = "help" then .error (l.readHelp rest) else .ok (p, some (arg, rest))
    else
      match arg.toList with
      | ['-', '-'] => read l true p rest
      | '-' :: '-' :: text =>
        match l.readLong p text with
        | .ok p => read l false p rest
        | .error e => .error e
      | '-' :: c :: cs =>
        match l.readShort p (c :: cs) with
        | .ok p => read l false p rest
        | .error e => .error e
      | _ =>
        match p.pending with
        | some (o, none) => read l false { p with pending := some (o, some arg) } rest
        | _ =>
          match l.readPositional p arg false with
          | .ok p => read l false p rest
          | .error e => .error e

/-- All arguments of a level have been read. The environment names a settings file where no option
does. -/
def finish (l : Level) (p : Parsed) (settingsFile : Option String) : Except UsageError Parsed := do
  let p ← p.settle
  if (p.value? settingsOption.long).isNone && settingsFile.any (!settingsOption.kind.accepts ·) then
    .error .invalidValue
  else if l.required.any (fun long => (p.value? long).isNone) ||
      p.positionals.length < l.positionals.length then
    .error .missingRequired
  else return p

end Level

/-- The invocation of a subcommand from the arguments behind it and those before it. -/
def Invocation.ofParsed? (name : String) (outer inner : Parsed) (settingsFile : Option String) :
    Option Invocation := do
  let shared (long : String) : Option String := (inner.value? long).or (outer.value? long)
  let routes ← inner.value? "routes"
  let output := inner.value? "output"
  let command ← match name, inner.positionals with
    | "generate", _ =>
      some (Command.generate routes ((inner.value? "name").getD "AppRouter") output
        ((inner.value? "crate-path").getD "routedsl") (inner.value? "force").isSome)
    | "compile", _ =>
      some (.compile routes (if inner.value? "format" = some "yaml" then .yaml else .json) output)
    | "routes", _ => some (.routes routes)
    | "match", [method, url] => some (.resolve routes method url)
    | "watch", _ => some (.watch routes)
    | _, _ => none
  return ⟨command, (shared "config").or settingsFile,
    ⟨shared "namespace", shared "base-url", shared "default-action"⟩⟩

/-- The invocation that arguments stand for; the environment may name a settings file. -/
def Invocation.ofArguments (args : List String) (settingsFile : Option String) :
    Except UsageError Invocation := do
  let (outer, rest) ← programLevel.read false .empty args
  match rest with
  | none =>
    let outer ← programLevel.finish outer settingsFile
    if outer.values.isEmpty && settingsFile.isNone then .error .displayHelpOnMissing
    else .error .missingSubcommand
  | some (name, args) =>
    let level := subcommandLevel name
    let (inner, _) ← level.read false .empty args
    let inner ← level.finish inner settingsFile
    let outer ← programLevel.finish outer settingsFile
    match ofParsed? name outer inner settingsFile with
    | some i => return i
    | none => .error .missingRequired

end Routes.CommandLine
