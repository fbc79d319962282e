/-!
TOML documents, and the tables in which their keys are defined. A table is defined once: by a
header, by the dotted keys of one other table, or in a line. What only stands before the last dot
of a header can still get a header of its own.
-/
namespace Routes.Toml

/-- What has brought a table about. -/
inductive Origin where
  | header
  | implied
  | dotted
  | inline
deriving DecidableEq, Repr

/-- A literal is a number, a truth value or a time. -/
inductive Value where
  | text (s : String)
  | literal (spelling : String)
  | array (items : List Value)
  | table (origin : Origin) (entries : List (String × Value))
  | tables (rows : List (List (String × Value)))

abbrev Entries := List (String × Value)

namespace Entries

def get? (es : Entries) (key : String) : Option Value := (es.find? (·.1 == key)).map (·.2)

/-- Gives a key that is there another value. -/
def put (es : Entries) (key : String) (v : Value) : Entries :=
  es.map fun (k, old) => if k == key then (k, v) else (k, old)

/-- Changes the entries of the table at a path. Tables on the way are made where there are none;
of an array of tables the last one is meant. -/
def change (dotted : Bool) (f : Origin → Entries → Option Entries) :
    List String → Origin → Entries → Option Entries
  | [], origin, es => f origin es
  | key :: keys, _, es =>
    match es.get? key with
    | none =>
      let made : Origin := if dotted then .dotted else .implied
      (change dotted f keys made []).map fun t => es ++ [(key, .table made t)]
    | some (.table origin t) =>
      if origin = .inline || (dotted && origin = .header) then none
      else (change dotted f keys origin t).map fun t' => es.put key (.table origin t')
    | some (.tables rows) =>
      match rows.getLast? with
      | none => none
      | some row =>
        (change dotted f keys .header row).map fun row' =>
          es.put key (.tables (rows.dropLast ++ [row']))
    | some _ => none

/-- Gives a value to a dotted key that has none. -/
def define (origin : Origin) (path : List String) (key : String) (v : Value) (es : Entries) :
    Option Entries :=
  change true (fun o es =>
    if (o == .dotted) == path.isEmpty || (es.get? key).isSome then none
    else some (es ++ [(key, v)])) path origin es

/-- Opens the table of a header. -/
def openTable (path : List String) (key : String) (es : Entries) : Option Entries :=
  change false (fun _ es =>
    match es.get? key with
    | none => some (es ++ [(key, .table .header [])])
    | some (.table .implied t) => some (es.put key (.table .header t))
    | some _ => none) path .header es

/-- Opens a further table of an array. -/
def openRow (path : List String) (key : String) (es : Entries) : Option Entries :=
  change false (fun _ es =>
    match es.get? key with
    | none => some (es ++ [(key, .tables [[]])])
    | some (.tables rows) => some (es.put key (.tables (rows ++ [[]])))
    | some _ => none) path .header es

end Entries
end Routes.Toml
