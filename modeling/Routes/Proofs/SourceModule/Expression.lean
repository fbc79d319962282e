import Routes.Proofs.SourceModule.Lexeme
/-!
Expressions of source text: literals, paths, calls, vectors, slices, records with labelled fields,
and calls of a method without arguments. A reader goes from lexeme to lexeme with the expressions
that are open around it. Main statements: what takes the reader to a state takes it on from there,
and items between commas are read into their group.
-/
namespace Routes.SourceText

/-- What brackets hold: the arguments of a path, the items of a vector, or those of a slice. -/
inductive Group where
  | call (path : List String)
  | list
  | slice
deriving DecidableEq, Repr

def Group.closing : Group → Char
  | call _ => ')'
  | list | slice => ']'

inductive Expr where
  | text (value : String)
  | name (path : List String)
  | group (g : Group) (items : List Expr)
  | record (path : List String) (fields : List (String × Expr))
  | method (receiver : Expr) (name : String)
deriving Repr

/-- An expression that is open, with what it holds so far. A record may wait for the value of a
label. -/
inductive Frame where
  | group (g : Group) (items : List Expr)
  | record (path : List String) (fields : List (String × Expr)) (label : Option String)
deriving Repr

/-- What stands behind the last comma or the last opening bracket. -/
inductive Pending where
  | blank
  | name (path : List String)
  | colons (path : List String)
  | bang
  | ampersand
  | value (e : Expr)
  | dot (e : Expr)
  | member (e : Expr) (name : String)
  | arguments (e : Expr) (name : String)
deriving Repr

/-- The innermost of the open expressions comes first. -/
structure State where
  frames : List Frame
  pending : Pending
deriving Repr

def Pending.value? : Pending → Option Expr
  | value e => some e
  | name path => some (.name path)
  | _ => none

namespace Frame

/-- Fields have labels, and items have none. -/
def add? : Frame → Expr → Option Frame
  | group g items, e => some (group g (items ++ [e]))
  | record path fields (some label), e => some (record path (fields ++ [(label, e)]) none)
  | record _ _ none, _ => none

def close? : Frame → Char → Option Expr
  | group g items, c => if c = g.closing then some (.group g items) else none
  | record path fields none, c => if c = '\x7d' then some (.record path fields) else none
  | record _ _ (some _), _ => none

end Frame

namespace State

def enter (s : State) (f : Frame) : State := ⟨f :: s.frames, .blank⟩

/-- A word in front of a colon names a field of the record around it. -/
def label (s : State) (name : String) : Option State :=
  match s.frames with
  | .record path fields none :: fs => some ⟨.record path fields (some name) :: fs, .blank⟩
  | _ => none

def comma (s : State) : Option State :=
  match s.frames, s.pending.value? with
  | f :: fs, some e => (f.add? e).map fun f => ⟨f :: fs, .blank⟩
  | _, _ => none

/-- A closing bracket may follow a comma. -/
def close (s : State) (c : Char) : Option State :=
  match s.frames, s.pending with
  | [], _ => none
  | f :: fs, .blank => (f.close? c).map fun e => ⟨fs, .value e⟩
  | f :: fs, p => ((p.value?.bind f.add?).bind (·.close? c)).map fun e => ⟨fs, .value e⟩

def mark (s : State) (c : Char) : Option State :=
  match s.pending, c with
  | .blank, '&' => some { s with pending := .ampersand }
  | .ampersand, '[' => some (s.enter (.group .slice []))
  | .name ["vec"], '!' => some { s with pending := .bang }
  | .bang, '[' => some (s.enter (.group .list []))
  | .name path, '(' => some (s.enter (.group (.call path) []))
  | .name path, '\x7b' => some (s.enter (.record path [] none))
  | .name [w], ':' => s.label w
  | .value e, '.' => some { s with pending := .dot e }
  | .member e w, '(' => some { s with pending := .arguments e w }
  | .arguments e w, ')' => some { s with pending := .value (.method e w) }
  | _, ',' => s.comma
  | _, c => s.close c

def step (s : State) : Lexeme → Option State
  | .word w =>
    match s.pending with
    | .blank => some { s with pending := .name [w] }
    | .colons path => some { s with pending := .name (path ++ [w]) }
    | .dot e => some { s with pending := .member e w }
    | _ => none
  | .text t =>
    match s.pending with
    | .blank => some { s with pending := .value (.text t) }
    | _ => none
  | .path =>
    match s.pending with
    | .name path => some { s with pending := .colons path }
    | _ => none
  | .mark c => s.mark c

def run : State → List Lexeme → Option State
  | s, [] => some s
  | s, l :: ls => (s.step l).bind (run · ls)

theorem run_append {s s' s'' : State} {ls ls' : List Lexeme} (h : s.run ls = some s')
    (h' : s'.run ls' = some s'') : s.run (ls ++ ls') = some s'' := by
  induction ls generalizing s with
  | nil =>
    cases h
    exact h'
  | cons l ls ih =>
    obtain ⟨next, hstep, hrest⟩ := Option.bind_eq_some_iff.1 h
    exact Option.bind_eq_some_iff.2 ⟨next, hstep, ih hrest⟩

end State

/-- The expression that a text is, if it is one. A line end ends a word that stands last. -/
def Expr.ofText? (cs : List Char) : Option Expr :=
  match scan .gap (cs ++ ['\n']) with
  | some (ls, .gap) =>
    match State.run ⟨[], .blank⟩ ls with
    | some ⟨[], p⟩ => p.value?
    | _ => none
  | _ => none

/-- A text takes the reader from one state to another, between lexemes on both sides. -/
def Reads (cs : List Char) (s s' : State) : Prop :=
  ∃ ls, scan .gap cs = some (ls, .gap) ∧ s.run ls = some s'

/-- A text that is read as an expression wherever one can begin. -/
def Spells (cs : List Char) (e : Expr) : Prop := ∀ fs, Reads cs ⟨fs, .blank⟩ ⟨fs, .value e⟩

variable {cs ds : List Char} {s s' s'' : State} {e : Expr} {g : Group} {fs : List Frame}

theorem Reads.append (h : Reads cs s s') (h' : Reads ds s' s'') : Reads (cs ++ ds) s s'' := by
  obtain ⟨ls, hscan, hrun⟩ := h
  obtain ⟨ls', hscan', hrun'⟩ := h'
  exact ⟨ls ++ ls', scan_append hscan hscan', State.run_append hrun hrun'⟩

theorem scan_spaces (n : Nat) : scan .gap (List.replicate n ' ') = some ([], .gap) := by
  induction n with
  | zero => rfl
  | succ n ih =>
    have hspace : scan .gap [' '] = some ([], .gap) := by decide
    exact scan_append hspace ih

theorem Reads.line (depth : Nat) (h : Reads cs s s') : Reads (SourceModule.line depth cs) s s' := by
  have hspaces : Reads (List.replicate (4 * depth) ' ') s s := ⟨[], scan_spaces _, rfl⟩
  have hend : Reads ['\n'] s' s' := ⟨[], by decide, rfl⟩
  exact (hspaces.append h).append hend

theorem Spells.ofText? (h : Spells cs e) : Expr.ofText? cs = some e := by
  have hend : Reads ['\n'] ⟨[], .value e⟩ ⟨[], .value e⟩ := ⟨[], by decide, rfl⟩
  obtain ⟨ls, hscan, hrun⟩ := (h []).append hend
  simp only [Expr.ofText?, hscan, hrun, Pending.value?]

theorem spells_quote (s : String) : Spells (SourceModule.quote s) (.text s) :=
  fun _ => ⟨[.text s], scan_quote s, rfl⟩

section Group
variable {α : Type} {f : α → List Char} {expr : α → Expr} {done : List Expr}

theorem scan_closing (g : Group) : scan .gap [g.closing] = some ([.mark g.closing], .gap) := by
  cases g with
  | call path =>
    show scan .gap [')'] = some ([.mark ')'], .gap)
    decide
  | list | slice => decide

theorem reads_closing : Reads [g.closing] ⟨.group g done :: fs, .blank⟩
    ⟨fs, .value (.group g done)⟩ := by
  refine ⟨_, scan_closing g, ?_⟩
  cases g <;> rfl

theorem reads_value_closing : Reads [g.closing] ⟨.group g done :: fs, .value e⟩
    ⟨fs, .value (.group g (done ++ [e]))⟩ := by
  refine ⟨_, scan_closing g, ?_⟩
  cases g <;> rfl

theorem reads_comma : Reads [','] ⟨.group g done :: fs, .value e⟩
    ⟨.group g (done ++ [e]) :: fs, .blank⟩ := ⟨[.mark ','], by decide, rfl⟩

/-- Items with commas between them, up to the bracket that closes their group. -/
theorem reads_commaList (h : ∀ a, Spells (f a) (expr a)) (items : List α) :
    Reads (SourceModule.commaList (items.map f) ++ [g.closing]) ⟨.group g done :: fs, .blank⟩
      ⟨fs, .value (.group g (done ++ items.map expr))⟩ := by
  induction items generalizing done with
  | nil => simpa [SourceModule.commaList] using reads_closing
  | cons a items ih =>
    cases items with
    | nil => simpa [SourceModule.commaList] using (h a _).append reads_value_closing
    | cons b items =>
      have hspace : Reads [' '] ⟨.group g (done ++ [expr a]) :: fs, .blank⟩
          ⟨.group g (done ++ [expr a]) :: fs, .blank⟩ := ⟨[], by decide, rfl⟩
      have hitem := (h a _).append (reads_comma.append hspace)
      simpa [SourceModule.commaList, List.intercalate_cons_cons] using hitem.append ih

/-- Items of which each brings its comma. -/
theorem reads_flatMap (h : ∀ a done, Reads (f a) ⟨.group g done :: fs, .blank⟩
      ⟨.group g (done ++ [expr a]) :: fs, .blank⟩) (items : List α) :
    Reads (items.flatMap f) ⟨.group g done :: fs, .blank⟩
      ⟨.group g (done ++ items.map expr) :: fs, .blank⟩ := by
  induction items generalizing done with
  | nil => exact ⟨[], rfl, by rw [List.map_nil, List.append_nil]; rfl⟩
  | cons a items ih => simpa using (h a done).append ih

end Group

/-- Commas stand between items, brackets fit each other, and fields have values. -/
example : ["f(,)", "f(\"a\" \"b\")", "f(\"a\"])", "R \x7b a: \x7d", "vec![\"a", "\"a\"."].all
    (fun text => (Expr.ofText? text.toList).isNone) = true := by decide

end Routes.SourceText
