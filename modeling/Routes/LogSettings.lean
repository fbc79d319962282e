import Routes.Text.Blank
import Routes.Text.Decimal
import Routes.Text.Split
/-!
Settings of the log: its level, its format, and the filter that says from which level on each part
of the program is logged.
-/
namespace Routes

/-- How much is logged; a level contains those before it. -/
inductive LogLevel where
  | off
  | error
  | warn
  | info
  | debug
  | trace
deriving DecidableEq, Repr

namespace LogLevel

def name : LogLevel → String
  | off => "off"
  | error => "error"
  | warn => "warn"
  | info => "info"
  | debug => "debug"
  | trace => "trace"

def all : List LogLevel := [off, error, warn, info, debug, trace]

def lower (s : String) : String := String.ofList (Text.lower s.toList)

/-- A level by its name in any case or by its place among the levels. -/
def ofText? (s : String) : Option LogLevel :=
  let digits := match s.toList with
    | '+' :: ds => ds
    | ds => ds
  match Text.natOf? 10 digits with
  | some n => all[n]?
  | none => all.find? (·.name == lower s)

end LogLevel

/-- One entry of a filter: from which level on is logged what comes from a target, and inside of a
span and with fields if these are given. -/
structure LogDirective where
  target : Option String
  span : Option String
  fields : List String
  level : LogLevel
deriving DecidableEq, Repr

namespace LogDirective

/-- Where the reading of an entry stands, with the place where its current part begins. -/
inductive Stage where
  | start
  | levelOrTarget (start : Nat)
  | span (start : Nat)
  | field (start : Nat)
  | fields
  | target
  | level (start : Nat)

/-- Every character outside of ASCII counts as a letter. -/
def startsTarget (c : Char) : Bool := ['-', ':', '_'].contains c || c.isAlphanum || 0x80 ≤ c.toNat

/-- The part of a text between two places. -/
def part (text : List Char) (start stop : Nat) : String :=
  String.ofList ((text.take stop).drop start)

/-- An entry of a text with the character at a place. -/
def next (text : List Char) (i : Nat) (c : Char) (d : LogDirective) :
    Stage → Option (LogDirective × Stage)
  | .start =>
    if c == '[' then some (d, .span (i + 1))
    else if startsTarget c then some (d, .levelOrTarget i)
    else none
  | .levelOrTarget start =>
    if c == '=' then some ({ d with target := some (part text start i) }, .level (i + 1))
    else if c == '[' then some ({ d with target := some (part text start i) }, .span (i + 1))
    else some (d, .levelOrTarget start)
  | .span start =>
    if c == ']' then some ({ d with span := some (part text start i) }, .target)
    else if c == '\x7b' then
      let name := part text start i
      some ({ d with span := if name.isEmpty then none else some name }, .field (i + 1))
    else some (d, .span start)
  | .field start =>
    if c == '\x7d' || c == ',' then
      let name := part text start i
      if name.isEmpty then none
      else
        some ({ d with fields := d.fields ++ [name] },
          if c == ',' then .field (i + 1) else .fields)
    else some (d, .field start)
  | .fields => if c == ']' then some (d, .target) else none
  | .target => if c == '=' then some (d, .level (i + 1)) else none
  | .level start => some (d, .level start)

/-- An entry of a text at whose end the reading stands. A target without a level is logged in
full. -/
def finish (text : List Char) (d : LogDirective) : Stage → Option LogDirective
  | .levelOrTarget start =>
    let name := part text start text.length
    match LogLevel.ofText? name with
    | some l => some { d with level := l }
    | none => some { d with target := some name }
  | .level start =>
    let name := part text start text.length
    if name.isEmpty then some d else (LogLevel.ofText? name).map fun l => { d with level := l }
  | .target => some d
  | _ => none

def readFrom (text : List Char) (i : Nat) (d : LogDirective) (stage : Stage) :
    List Char → Option LogDirective
  | [] => d.finish text stage
  | c :: cs =>
    match next text i c d stage with
    | some (d', stage') => readFrom text (i + 1) d' stage' cs
    | none => none

/-- White space around an entry is not read, but places are counted as if it were not there. -/
def ofText? (s : String) : Option LogDirective :=
  readFrom s.toList 0 ⟨none, none, [], .trace⟩ .start (Text.trim s.toList)

/-- What an entry is about, without its level. -/
def subject (d : LogDirective) : String :=
  let fields := if d.fields.isEmpty then "" else "\x7b" ++ ",".intercalate d.fields ++ "\x7d"
  d.target.getD "" ++
    if d.span.isSome || !d.fields.isEmpty then "[" ++ d.span.getD "" ++ fields ++ "]" else ""

def text (d : LogDirective) : String :=
  if d.subject.isEmpty && d.target.isNone then d.level.name else d.subject ++ "=" ++ d.level.name

end LogDirective

/-- A filter. No two entries are about the same. -/
abbrev LogFilter := List LogDirective

namespace LogFilter

/-- Adds an entry in place of the one about the same. -/
def add (f : LogFilter) (d : LogDirective) : LogFilter :=
  f.filter (fun e => !(e.target == d.target && e.span == d.span && e.fields == d.fields)) ++ [d]

/-- The entries of a text, which commas separate. -/
def ofText? (s : String) : Option LogFilter :=
  (((Text.pieces ',' s.toList).filter (!·.isEmpty)).mapM fun p =>
    LogDirective.ofText? (String.ofList p)).map fun ds => ds.foldl add []

def text (f : LogFilter) : String := ",".intercalate (f.map (·.text))

end LogFilter

inductive LogFormat where
  | json
  | pretty
deriving DecidableEq, Repr

def LogFormat.ofText (s : String) : LogFormat :=
  if LogLevel.lower s == "json" then .json else .pretty

structure LogSettings where
  levelName : String
  format : LogFormat
  targets : Option String
  location : Bool
deriving DecidableEq, Repr

/-- The environment variables that override settings. -/
structure LogSettings.Environment where
  levelName : Option String
  format : Option String
  targets : Option String
  location : Option String
deriving DecidableEq, Repr

namespace LogSettings

def standard : LogSettings := ⟨"info", .pretty, none, false⟩

def ofEnvironment (e : Environment) : LogSettings :=
  ⟨e.levelName.getD standard.levelName, e.format.elim standard.format .ofText, e.targets,
    e.location == some "true"⟩

/-- The level of a name; a name of none stands for information. -/
def level (s : LogSettings) : LogLevel :=
  match LogLevel.lower s.levelName with
  | "trace" => .trace
  | "debug" => .debug
  | "warn" => .warn
  | "error" => .error
  | _ => .info

/-- The filter of the environment, or else the level, and behind it the entries for targets that
can be understood. -/
def filter (s : LogSettings) (environment : Option String) : LogFilter :=
  let base := (environment.bind LogFilter.ofText?).getD [⟨none, none, [], s.level⟩]
  let extra := (s.targets.elim [] fun t => Text.pieces ',' t.toList).filterMap fun p =>
    match Text.trim p with
    | [] => none
    | cs => LogDirective.ofText? (String.ofList cs)
  extra.foldl LogFilter.add base

end LogSettings
end Routes
