import Routes.Dispatch
import Routes.FileStore
/-!
A session of dispatchers. All share one live table, which a swap or a reload replaces as a whole,
and each has a registry of its own; a clone begins with a copy of the registry it is made from.
-/
namespace Routes

/-- The table of a file. -/
def Table.ofFile (store : FileStore) (path : String) (s : Settings) : Except LoadError Table :=
  match store.read? path with
  | none => .error (.unreadable path)
  | some source => Table.ofSource source s

/-- Dispatchers are numbered in the order in which they are made. `runs` holds the numbers of the
handlers that were called, the latest first, and `snapshots` the tables that were taken to be kept
while the live table is replaced. -/
structure Session where
  table : Table
  registries : List Registry
  registered : Nat
  runs : List Nat
  snapshots : List Table

namespace Session

/-- A session with one dispatcher, which has no handlers. -/
def start (t : Table) : Session := ⟨t, [[]], 0, [], []⟩

def registry (s : Session) (on : Nat) : Registry := s.registries.getD on []

def register (s : Session) (on : Nat) (controller action : String) (h : Handler) : Session :=
  { s with
    registries := s.registries.modify on (·.register ⟨controller, action, s.registered, h⟩)
    registered := s.registered + 1 }

def clone (s : Session) (on : Nat) : Session :=
  { s with registries := s.registries ++ [s.registry on] }

def swap (s : Session) (t : Table) : Session := { s with table := t }

/-- Replaces the table by that of a file; on an error the table stays. -/
def reload (s : Session) (store : FileStore) (path : String) (settings : Settings) :
    Except LoadError Session :=
  (Table.ofFile store path settings).map s.swap

/-- Takes a snapshot of the live table. -/
def snapshot (s : Session) : Session := { s with snapshots := s.snapshots ++ [s.table] }

/-- Calls the handler for an outcome, which may come from a table that is no longer live. -/
def answer (s : Session) (on : Nat) (o : Outcome) : Except MissingHandler Response × Session :=
  match (s.registry on).get? o.controller o.action with
  | none => (.error ⟨o.controller, o.action⟩, s)
  | some e =>
    (.ok (.ofResult (e.handler (s.runs.count e.number + 1) o)),
      { s with runs := e.number :: s.runs })

/-- Resolves a request in the live table and calls the handler for its outcome. -/
def dispatch (s : Session) (on : Nat) (method url : String) :
    Except MissingHandler Response × Session :=
  s.answer on (s.table.resolve method url)

def missing (s : Session) (on : Nat) : List String := (s.registry on).missing s.table

/-- One thing that happens in a session. A swap comes with the result of building its table, and
`route` resolves a request without an answer. -/
inductive Step where
  | register (on : Nat) (controller action : String) (h : Handler)
  | clone (on : Nat)
  | swap (built : Except LoadError Table)
  | reload (store : FileStore) (path : String) (settings : Settings)
  | route (method url : String)
  | snapshot
  | dispatch (on : Nat) (method url : String)
  | answer (on : Nat) (o : Outcome)

def step (s : Session) : Step → Session
  | .register on c a h => s.register on c a h
  | .clone on => s.clone on
  | .swap (.ok t) => s.swap t
  | .swap (.error _) => s
  | .reload store path settings =>
    match s.reload store path settings with
    | .ok s' => s'
    | .error _ => s
  | .route _ _ => s
  | .snapshot => s.snapshot
  | .dispatch on method url => (s.dispatch on method url).2
  | .answer on o => (s.answer on o).2

def run : List Step → Session → Session
  | [], s => s
  | step :: steps, s => run steps (s.step step)

end Session
end Routes
