import Routes.Dispatch.Session
/-!
What the steps of a session say by themselves: which of them make a table live and which fail, which
table is live after them, which handlers the dispatchers have and how often each was called, and
which tables were taken.
-/
namespace Routes

/-- What comes of a file. It is read, scanned, parsed and compiled, and a table is built from it;
the first of these that fails decides the error. -/
inductive Table.Loads (store : FileStore) (path : String) (settings : Settings) :
    Except LoadError Table → Prop
  | unreadable : store.read? path = none → Loads store path settings (.error (.unreadable path))
  | scan {source e} : store.read? path = some source → Token.scan source = .error e →
      Loads store path settings (.error (.scan e))
  | parse {source tokens e} : store.read? path = some source → Token.scan source = .ok tokens →
      Declarations.ofTokens tokens = .error e → Loads store path settings (.error (.parse e))
  | compile {source tokens ds e} : store.read? path = some source →
      Token.scan source = .ok tokens → Declarations.ofTokens tokens = .ok ds →
      ds.compile = .error e → Loads store path settings (.error (.compile e))
  | build {source tokens ds d e} : store.read? path = some source →
      Token.scan source = .ok tokens → Declarations.ofTokens tokens = .ok ds →
      ds.compile = .ok d → Table.build d settings = .error e →
      Loads store path settings (.error (.compile e))
  | ok {source tokens ds d t} : store.read? path = some source → Token.scan source = .ok tokens →
      Declarations.ofTokens tokens = .ok ds → ds.compile = .ok d → Table.build d settings = .ok t →
      Loads store path settings (.ok t)

namespace Session

/-- The steps that make a table live. -/
inductive Step.Installs : Step → Table → Prop
  | swap {t} : Installs (.swap (.ok t)) t
  | reload {store path settings t} : Table.Loads store path settings (.ok t) →
      Installs (.reload store path settings) t

/-- The steps that fail. -/
inductive Step.Fails : Step → LoadError → Prop
  | swap {e} : Fails (.swap (.error e)) e
  | reload {store path settings e} : Table.Loads store path settings (.error e) →
      Fails (.reload store path settings) e

/-- The steps that ask for a table, an outcome or an answer. -/
inductive Step.Asks : Step → Prop
  | route {method url} : Asks (.route method url)
  | snapshot : Asks .snapshot
  | dispatch {on method url} : Asks (.dispatch on method url)
  | answer {on o} : Asks (.answer on o)

def Step.clones : Step → Bool
  | .clone _ => true
  | _ => false

def Step.registers : Step → Bool
  | .register .. => true
  | _ => false

/-- The number of dispatchers after some steps. -/
def members (steps : List Step) : Nat := 1 + steps.countP Step.clones

/-- The number of registrations in some steps, which is the number of the next one. -/
def registrations (steps : List Step) : Nat := steps.countP Step.registers

/-- A table is live after some steps: the last of them that makes a table live makes this one live,
or none of them makes one live and the session began with this one. -/
def IsLive (t₀ : Table) (steps : List Step) (t : Table) : Prop :=
  (t = t₀ ∧ ∀ step ∈ steps, ∀ t', ¬step.Installs t') ∨
    ∃ before step after, steps = before ++ step :: after ∧ step.Installs t ∧
      ∀ later ∈ after, ∀ t', ¬later.Installs t'

/-- The handlers that dispatchers have for a pair after some steps, each with the number of its
registration: the one registered last, on the dispatcher itself or, before it was cloned, on the one
it was cloned from. -/
inductive Holds : List Step → Nat → String → String → Nat → Handler → Prop
  | registered {steps on c a h} : on < members steps →
      Holds (steps ++ [.register on c a h]) on c a (registrations steps) h
  | cloned {steps on c a n h} : Holds steps on c a n h →
      Holds (steps ++ [.clone on]) (members steps) c a n h
  | kept {steps step on c a n h} : Holds steps on c a n h →
      (∀ h', step ≠ .register on c a h') → Holds (steps ++ [step]) on c a n h

def HasHandler (steps : List Step) (on : Nat) (c a : String) (h : Handler) : Prop :=
  ∃ n, Holds steps on c a n h

/-- A step behind others calls the handler of a registration: it asks a dispatcher that has this
handler for the outcome, which may be that of a request in the live table. -/
inductive Step.Calls (t₀ : Table) (steps : List Step) : Step → Nat → Prop
  | dispatch {on method url t n h} : IsLive t₀ steps t →
      Holds steps on (t.resolve method url).controller (t.resolve method url).action n h →
      Calls t₀ steps (.dispatch on method url) n
  | answer {on o n h} : Holds steps on o.controller o.action n h →
      Calls t₀ steps (.answer on o) n

/-- How often the handler of a registration has been called in some steps, by whichever dispatchers
have it. -/
inductive Called (t₀ : Table) (n : Nat) : List Step → Nat → Prop
  | nil : Called t₀ n [] 0
  | called {steps step k} : Called t₀ n steps k → step.Calls t₀ steps n →
      Called t₀ n (steps ++ [step]) (k + 1)
  | kept {steps step k} : Called t₀ n steps k → ¬step.Calls t₀ steps n →
      Called t₀ n (steps ++ [step]) k

/-- The snapshots after some steps: each is of the table that was live when it was taken. -/
inductive Snapshots (t₀ : Table) : List Step → List Table → Prop
  | nil : Snapshots t₀ [] []
  | taken {steps ts t} : Snapshots t₀ steps ts → IsLive t₀ steps t →
      Snapshots t₀ (steps ++ [.snapshot]) (ts ++ [t])
  | kept {steps step ts} : Snapshots t₀ steps ts → step ≠ .snapshot →
      Snapshots t₀ (steps ++ [step]) ts

/-- The answers of a dispatcher to an outcome after some steps: that it has no handler for the pair,
or what its handler makes of the outcome at the call that follows those before. -/
inductive Answers (t₀ : Table) (steps : List Step) (on : Nat) (o : Outcome) :
    Except MissingHandler Response → Prop
  | missing : (∀ h, ¬HasHandler steps on o.controller o.action h) →
      Answers t₀ steps on o (.error ⟨o.controller, o.action⟩)
  | response {n h k r} : Holds steps on o.controller o.action n h → Called t₀ n steps k →
      h (k + 1) o = .ok r → Answers t₀ steps on o (.ok r)
  | failure {n h k f} : Holds steps on o.controller o.action n h → Called t₀ n steps k →
      h (k + 1) o = .error f →
      Answers t₀ steps on o (.ok (.error 500 ("Handler panicked: " ++ f.message)))

end Session

variable {steps : List Session.Step} {step : Session.Step} {on on' : Nat} {c a c' a' path : String}
  {n : Nat} {h h₁ : Handler} {settings : Settings} {store : FileStore} {o : Outcome} {t₀ : Table}

theorem Declarations.ofSource_of_scan {source : String} {tokens : List Token}
    (hscan : Token.scan source = .ok tokens) :
    Declarations.ofSource source = (Declarations.ofTokens tokens).mapError .parse := by
  rw [Declarations.ofSource, hscan]
  rfl

theorem RouteData.ofSource_of_declarations {source : String} {ds : Declarations}
    (hds : Declarations.ofSource source = .ok ds) :
    RouteData.ofSource source = ds.compile.mapError .compile := by
  rw [RouteData.ofSource, hds]
  rfl

namespace Table

theorem ofSource_of_data {source : String} {d : RouteData} (hd : RouteData.ofSource source = .ok d) :
    ofSource source settings = (build d settings).mapError .compile := by
  rw [ofSource, hd]
  rfl

theorem exists_loads (store : FileStore) (path : String) (settings : Settings) :
    ∃ r, Loads store path settings r := by
  cases hread : store.read? path with
  | none => exact ⟨_, .unreadable hread⟩
  | some source =>
    cases hscan : Token.scan source with
    | error e => exact ⟨_, .scan hread hscan⟩
    | ok tokens =>
      cases hparse : Declarations.ofTokens tokens with
      | error e => exact ⟨_, .parse hread hscan hparse⟩
      | ok ds =>
        cases hcompile : ds.compile with
        | error e => exact ⟨_, .compile hread hscan hparse hcompile⟩
        | ok d =>
          cases hbuild : build d settings with
          | error e => exact ⟨_, .build hread hscan hparse hcompile hbuild⟩
          | ok t => exact ⟨_, .ok hread hscan hparse hcompile hbuild⟩

theorem ofFile_of_loads {r : Except LoadError Table} (hr : Loads store path settings r) :
    ofFile store path settings = r := by
  have hfile : ∀ {source}, store.read? path = some source →
      ofFile store path settings = ofSource source settings := by
    intro source hread
    rw [ofFile, hread]
  cases hr with
  | unreadable hread => rw [ofFile, hread]
  | scan hread hscan =>
    rw [hfile hread, ofSource, RouteData.ofSource, Declarations.ofSource, hscan]
    rfl
  | parse hread hscan hparse =>
    have hds := Declarations.ofSource_of_scan hscan
    rw [hparse] at hds
    rw [hfile hread, ofSource, RouteData.ofSource, hds]
    rfl
  | compile hread hscan hparse hcompile =>
    have hds := Declarations.ofSource_of_scan hscan
    rw [hparse] at hds
    have hd := RouteData.ofSource_of_declarations hds
    rw [hcompile] at hd
    rw [hfile hread, ofSource, hd]
    rfl
  | build hread hscan hparse hcompile hbuild | ok hread hscan hparse hcompile hbuild =>
    have hds := Declarations.ofSource_of_scan hscan
    rw [hparse] at hds
    have hd := RouteData.ofSource_of_declarations hds
    rw [hcompile] at hd
    rw [hfile hread, ofSource_of_data hd, hbuild]
    rfl

theorem ofFile_eq_iff {r : Except LoadError Table} :
    ofFile store path settings = r ↔ Loads store path settings r := by
  constructor
  · rintro rfl
    obtain ⟨r, hr⟩ := exists_loads store path settings
    rw [ofFile_of_loads hr]
    exact hr
  · exact ofFile_of_loads

end Table

namespace Session

/-- Every step is of one of these kinds. -/
theorem Step.kinds (step : Step) : (∃ on c a h, step = .register on c a h) ∨
    (∃ on, step = .clone on) ∨ (∃ t, step.Installs t) ∨ (∃ e, step.Fails e) ∨ step.Asks := by
  cases step with
  | register on c a h => exact .inl ⟨on, c, a, h, rfl⟩
  | clone on => exact .inr (.inl ⟨on, rfl⟩)
  | swap built =>
    cases built with
    | ok t => exact .inr (.inr (.inl ⟨t, .swap⟩))
    | error e => exact .inr (.inr (.inr (.inl ⟨e, .swap⟩)))
  | reload store path settings =>
    obtain ⟨r, hr⟩ := Table.exists_loads store path settings
    cases r with
    | ok t => exact .inr (.inr (.inl ⟨t, .reload hr⟩))
    | error e => exact .inr (.inr (.inr (.inl ⟨e, .reload hr⟩)))
  | route => exact .inr (.inr (.inr (.inr .route)))
  | snapshot => exact .inr (.inr (.inr (.inr .snapshot)))
  | dispatch => exact .inr (.inr (.inr (.inr .dispatch)))
  | answer => exact .inr (.inr (.inr (.inr .answer)))

theorem members_concat (steps : List Step) (step : Step) :
    members (steps ++ [step]) = members steps + if step.clones then 1 else 0 := by
  rw [members, List.countP_append, List.countP_singleton, members, Nat.add_assoc]

theorem clones_eq_false (hclone : ∀ on, step ≠ .clone on) : step.clones = false := by
  cases step with
  | clone on => exact absurd rfl (hclone on)
  | _ => rfl

theorem registrations_concat (steps : List Step) (step : Step) :
    registrations (steps ++ [step]) = registrations steps + if step.registers then 1 else 0 := by
  rw [registrations, List.countP_append, List.countP_singleton, registrations]

theorem Holds.lt_members (hh : Holds steps on c a n h) : on < members steps := by
  induction hh with
  | registered hlt =>
    rw [members_concat]
    omega
  | cloned _ _ =>
    rw [members_concat]
    show _ < _ + 1
    omega
  | kept _ _ ih =>
    rw [members_concat]
    omega

theorem not_holds_nil : ¬Holds [] on c a n h := by
  intro hh
  generalize hall : ([] : List Step) = all at hh
  cases hh <;> simp at hall

theorem holds_concat : Holds (steps ++ [step]) on c a n h ↔
    (step = .register on c a h ∧ on < members steps ∧ n = registrations steps) ∨
      (∃ origin, step = .clone origin ∧ on = members steps ∧ Holds steps origin c a n h) ∨
      (Holds steps on c a n h ∧ ∀ h', step ≠ .register on c a h') := by
  constructor
  · intro hh
    generalize hall : steps ++ [step] = all at hh
    cases hh with
    | registered hlt =>
      obtain ⟨rfl, he⟩ := List.append_inj' hall rfl
      cases he
      exact .inl ⟨rfl, hlt, rfl⟩
    | cloned hfrom =>
      obtain ⟨rfl, he⟩ := List.append_inj' hall rfl
      cases he
      exact .inr (.inl ⟨_, rfl, rfl, hfrom⟩)
    | kept hkept hother =>
      obtain ⟨rfl, he⟩ := List.append_inj' hall rfl
      cases he
      exact .inr (.inr ⟨hkept, hother⟩)
  · rintro (⟨rfl, hlt, rfl⟩ | ⟨origin, rfl, rfl, hfrom⟩ | ⟨hkept, hother⟩)
    · exact .registered hlt
    · exact .cloned hfrom
    · exact .kept hkept hother

/-- A registration comes in front of what the steps before it left, for its own dispatcher and pair
alone. -/
theorem holds_register : Holds (steps ++ [.register on' c' a' h₁]) on c a n h ↔
    if on = on' ∧ on' < members steps ∧ c' = c ∧ a' = a then registrations steps = n ∧ h₁ = h
    else Holds steps on c a n h := by
  rw [holds_concat]
  by_cases hsame : on = on' ∧ c' = c ∧ a' = a
  · obtain ⟨rfl, rfl, rfl⟩ := hsame
    by_cases hlt : on < members steps
    · simp [hlt, and_comm, eq_comm]
    · have hnone : ¬Holds steps on c' a' n h := fun hh => hlt hh.lt_members
      simp [hlt, hnone]
  · have hother : ∀ h', Step.register on' c' a' h₁ ≠ .register on c a h' := by
      intro h' he
      cases he
      exact hsame ⟨rfl, rfl, rfl⟩
    rw [if_neg fun hall => hsame ⟨hall.1, hall.2.2⟩]
    simp [hother]

/-- A clone begins with what the dispatcher has that it is made from. -/
theorem holds_clone : Holds (steps ++ [.clone on']) on c a n h ↔
    if on = members steps then Holds steps on' c a n h else Holds steps on c a n h := by
  rw [holds_concat]
  by_cases hon : on = members steps
  · have hnone : ¬Holds steps (members steps) c a n h := by
      intro hh
      have hlt := hh.lt_members
      omega
    simp [hon, hnone]
  · simp [hon]

theorem holds_other (hregister : ∀ on c a h, step ≠ .register on c a h)
    (hclone : ∀ on, step ≠ .clone on) :
    Holds (steps ++ [step]) on c a n h ↔ Holds steps on c a n h := by
  rw [holds_concat]
  simp [hregister, hclone]

theorem called_nil_iff {k : Nat} : Called t₀ n [] k ↔ k = 0 := by
  constructor
  · intro hcalled
    generalize hall : ([] : List Step) = all at hcalled
    cases hcalled <;> simp at hall ⊢
  · rintro rfl
    exact .nil

theorem called_concat {k : Nat} : Called t₀ n (steps ++ [step]) k ↔
    (step.Calls t₀ steps n ∧ ∃ before, k = before + 1 ∧ Called t₀ n steps before) ∨
      (¬step.Calls t₀ steps n ∧ Called t₀ n steps k) := by
  constructor
  · intro hcalled
    generalize hall : steps ++ [step] = all at hcalled
    cases hcalled with
    | nil => simp at hall
    | called hbefore hcalls =>
      obtain ⟨rfl, he⟩ := List.append_inj' hall rfl
      cases he
      exact .inl ⟨hcalls, _, rfl, hbefore⟩
    | kept hbefore hnot =>
      obtain ⟨rfl, he⟩ := List.append_inj' hall rfl
      cases he
      exact .inr ⟨hnot, hbefore⟩
  · rintro (⟨hcalls, before, rfl, hbefore⟩ | ⟨hnot, hbefore⟩)
    · exact .called hbefore hcalls
    · exact .kept hbefore hnot

theorem Answers.eq_error_iff {r : Except MissingHandler Response}
    (hr : Answers t₀ steps on o r) :
    r = .error ⟨o.controller, o.action⟩ ↔ ∀ h, ¬HasHandler steps on o.controller o.action h := by
  cases hr with
  | missing hnone => exact iff_of_true rfl hnone
  | response hh | failure hh =>
    constructor
    · intro he
      cases he
    · intro hnone
      exact absurd ⟨_, hh⟩ (hnone _)

end Session
end Routes
