import Mathlib.Data.List.Induction
import Routes.Proofs.Dispatch.History
import Routes.Proofs.Dispatch.Registry
import Routes.Result
/-!
What a session has come to after any steps, said from the steps alone: which table is live, which
handlers each dispatcher has, how often they were called, and which tables were taken. Main
statement: every run from a session with one dispatcher comes to just that.
-/
namespace Routes

/-- The handler that a dispatcher has for a pair, with the number of its registration. -/
def Session.held? (s : Session) (on : Nat) (c a : String) : Option (Nat × Handler) :=
  ((s.registry on).get? c a).map fun e => (e.number, e.handler)

/-- The handler that a dispatcher has for a pair. -/
def Session.handler? (s : Session) (on : Nat) (c a : String) : Option Handler :=
  ((s.registry on).get? c a).map (·.handler)

variable {s s' : Session} {steps : List Session.Step} {step : Session.Step} {t t' t₀ : Table}
  {on on' n : Nat} {c a c' a' path : String} {h h' : Handler} {settings : Settings}
  {store : FileStore} {o : Outcome} {e : LoadError}

namespace Session

theorem reload_eq_ok : s.reload store path settings = .ok s' ↔
    ∃ t, Table.Loads store path settings (.ok t) ∧ s' = s.swap t := by
  rw [reload, map_eq_ok]
  refine exists_congr fun t => ?_
  rw [Table.ofFile_eq_iff, eq_comm (a := s')]

theorem reload_eq_error : s.reload store path settings = .error e ↔
    Table.Loads store path settings (.error e) := by
  rw [reload, map_eq_error, Table.ofFile_eq_iff]

theorem step_of_installs (hstep : step.Installs t) : s.step step = s.swap t := by
  cases hstep with
  | swap => rfl
  | reload hloads => rw [Session.step, reload_eq_ok.2 ⟨t, hloads, rfl⟩]

theorem step_of_fails (hstep : step.Fails e) : s.step step = s := by
  cases hstep with
  | swap => rfl
  | reload hloads => rw [Session.step, reload_eq_error.2 hloads]

/-- An answer changes nothing but the numbers of calls. -/
theorem answer_snd (s : Session) (on : Nat) (o : Outcome) :
    ∃ runs, (s.answer on o).2 = { s with runs := runs } := by
  unfold answer
  split
  · exact ⟨s.runs, rfl⟩
  · exact ⟨_, rfl⟩

theorem step_of_asks (hstep : step.Asks) : (s.step step).table = s.table ∧
    (s.step step).registries = s.registries ∧ (s.step step).registered = s.registered := by
  cases hstep with
  | route | snapshot => exact ⟨rfl, rfl, rfl⟩
  | @dispatch on method url =>
    obtain ⟨runs, hruns⟩ := s.answer_snd on (s.table.resolve method url)
    rw [Session.step, dispatch, hruns]
    exact ⟨rfl, rfl, rfl⟩
  | @answer on o =>
    obtain ⟨runs, hruns⟩ := s.answer_snd on o
    rw [Session.step, hruns]
    exact ⟨rfl, rfl, rfl⟩

theorem table_step_of_not_installs (hstep : ∀ t, ¬step.Installs t) :
    (s.step step).table = s.table := by
  obtain ⟨on, c, a, h, rfl⟩ | ⟨on, rfl⟩ | ⟨t, ht⟩ | ⟨e, he⟩ | hasks := step.kinds
  · rfl
  · rfl
  · exact absurd ht (hstep t)
  · rw [step_of_fails he]
  · exact (step_of_asks hasks).1

theorem run_concat (steps : List Step) (step : Step) (s : Session) :
    run (steps ++ [step]) s = (run steps s).step step := by
  induction steps generalizing s with
  | nil => rfl
  | cons first steps ih => exact ih (s.step first)

theorem run_append (before after : List Step) (s : Session) :
    run (before ++ after) s = run after (run before s) := by
  induction before generalizing s with
  | nil => rfl
  | cons first before ih => exact ih (s.step first)

theorem table_run_of_not_installs (hsteps : ∀ step ∈ steps, ∀ t, ¬step.Installs t) :
    (run steps s).table = s.table := by
  induction steps generalizing s with
  | nil => rfl
  | cons first steps ih =>
    have hfirst := hsteps first List.mem_cons_self
    have hrest := ih (s := s.step first) fun step hmem =>
      hsteps step (List.mem_cons_of_mem first hmem)
    exact hrest.trans (table_step_of_not_installs hfirst)

theorem isLive_run (t₀ : Table) (steps : List Step) :
    IsLive t₀ steps (run steps (start t₀)).table := by
  induction steps using List.reverseRecOn with
  | nil => exact .inl ⟨rfl, by simp⟩
  | append_singleton steps step ih =>
    rw [run_concat]
    by_cases hstep : ∃ t, step.Installs t
    · obtain ⟨t, ht⟩ := hstep
      rw [step_of_installs ht]
      exact .inr ⟨steps, step, [], rfl, ht, by simp⟩
    · have hnone : ∀ t, ¬step.Installs t := fun t ht => hstep ⟨t, ht⟩
      have hlast : ∀ later ∈ [step], ∀ t, ¬later.Installs t := by
        intro later hlater
        rw [List.mem_singleton.1 hlater]
        exact hnone
      rw [table_step_of_not_installs hnone]
      rcases ih with ⟨hfirst, hsteps⟩ | ⟨before, install, after, hsplit, hinstall, hafter⟩
      · exact .inl ⟨hfirst, List.forall_mem_append.2 ⟨hsteps, hlast⟩⟩
      · refine .inr ⟨before, install, after ++ [step], ?_, hinstall,
          List.forall_mem_append.2 ⟨hafter, hlast⟩⟩
        rw [hsplit, List.append_assoc]
        rfl

/-- No two tables are live at once. -/
theorem table_eq_of_isLive (ht : IsLive t₀ steps t) : (run steps (start t₀)).table = t := by
  rcases ht with ⟨rfl, hsteps⟩ | ⟨before, install, after, rfl, hinstall, hafter⟩
  · exact table_run_of_not_installs hsteps
  · rw [run_append]
    have hrest := table_run_of_not_installs (s := (run before (start t₀)).step install) hafter
    rw [step_of_installs hinstall] at hrest
    show (run after ((run before (start t₀)).step install)).table = t
    rw [step_of_installs hinstall, hrest]
    rfl

theorem table_eq_iff_isLive (t₀ : Table) (steps : List Step) (t : Table) :
    (run steps (start t₀)).table = t ↔ IsLive t₀ steps t := by
  constructor
  · rintro rfl
    exact isLive_run t₀ steps
  · exact table_eq_of_isLive

/-- Only a registration and a clone touch the registries. -/
theorem registries_step (hregister : ∀ on c a h, step ≠ .register on c a h)
    (hclone : ∀ on, step ≠ .clone on) : (s.step step).registries = s.registries := by
  obtain ⟨on, c, a, h, rfl⟩ | ⟨on, rfl⟩ | ⟨t, ht⟩ | ⟨e, he⟩ | hasks := step.kinds
  · exact absurd rfl (hregister on c a h)
  · exact absurd rfl (hclone on)
  · rw [step_of_installs ht]
    rfl
  · rw [step_of_fails he]
  · exact (step_of_asks hasks).2.1

theorem length_registries_step :
    (s.step step).registries.length = s.registries.length + if step.clones then 1 else 0 := by
  by_cases hclone : ∃ on, step = .clone on
  · obtain ⟨on, rfl⟩ := hclone
    exact List.length_append
  · have hnot : ∀ on, step ≠ .clone on := fun on h => hclone ⟨on, h⟩
    rw [clones_eq_false hnot]
    by_cases hregister : ∃ on c a h, step = .register on c a h
    · obtain ⟨on, c, a, h, rfl⟩ := hregister
      exact List.length_modify _ _ _
    · rw [registries_step (fun on c a h he => hregister ⟨on, c, a, h, he⟩) hnot]
      rfl

theorem length_registries_run (t₀ : Table) (steps : List Step) :
    (run steps (start t₀)).registries.length = members steps := by
  induction steps using List.reverseRecOn with
  | nil => rfl
  | append_singleton steps step ih =>
    rw [run_concat, length_registries_step, ih, members_concat]

theorem registry_register_same (hon : on < s.registries.length) :
    (s.register on c a h).registry on =
      (s.registry on).register ⟨c, a, s.registered, h⟩ := by
  simp [register, registry, hon]

theorem registry_register_other (hon : ¬(on' = on ∧ on < s.registries.length)) :
    (s.register on c a h).registry on' = s.registry on' := by
  simp only [register, registry, List.getD_eq_getElem?_getD, List.getElem?_modify]
  by_cases hsame : on = on'
  · have hnone : s.registries[on']? = none := by
      rw [List.getElem?_eq_none_iff]
      omega
    rw [hnone]
    rfl
  · simp [hsame]

theorem registry_clone : (s.clone on).registry on' =
    if on' = s.registries.length then s.registry on else s.registry on' := by
  simp only [clone, registry, List.getD_eq_getElem?_getD]
  split
  · rename_i hnew
    rw [hnew, List.getElem?_concat_length]
    rfl
  · rename_i hold
    by_cases hlt : on' < s.registries.length
    · rw [List.getElem?_append_left hlt]
    · rw [List.getElem?_eq_none_iff.2 (by simp; omega), List.getElem?_eq_none_iff.2 (by omega)]

theorem handler?_eq (s : Session) (on : Nat) (c a : String) :
    s.handler? on c a = (s.held? on c a).map Prod.snd := by
  rw [held?, Option.map_map]
  rfl

theorem held?_register : (s.register on c a h).held? on' c' a' =
    if on' = on ∧ on < s.registries.length ∧ c = c' ∧ a = a' then some (s.registered, h)
    else s.held? on' c' a' := by
  by_cases hon : on' = on ∧ on < s.registries.length
  · obtain ⟨rfl, hlt⟩ := hon
    rw [held?, registry_register_same hlt, Registry.get?_register]
    by_cases hpair : c = c' ∧ a = a'
    · rw [if_pos hpair, if_pos ⟨rfl, hlt, hpair⟩]
      rfl
    · rw [if_neg hpair, if_neg fun hall => hpair hall.2.2]
      rfl
  · rw [held?, registry_register_other hon, if_neg fun hall => hon ⟨hall.1, hall.2.1⟩]
    rfl

theorem held?_clone : (s.clone on).held? on' c a =
    if on' = s.registries.length then s.held? on c a else s.held? on' c a := by
  rw [held?, registry_clone]
  split
  · rfl
  · rfl

theorem held?_step (hregister : ∀ on c a h, step ≠ .register on c a h)
    (hclone : ∀ on, step ≠ .clone on) : (s.step step).held? on c a = s.held? on c a := by
  rw [held?, registry, registries_step hregister hclone]
  rfl

theorem handler?_register : (s.register on c a h).handler? on' c' a' =
    if on' = on ∧ on < s.registries.length ∧ c = c' ∧ a = a' then some h
    else s.handler? on' c' a' := by
  rw [handler?_eq, held?_register, apply_ite (Option.map Prod.snd), ← handler?_eq]
  rfl

theorem handler?_clone : (s.clone on).handler? on' c a =
    if on' = s.registries.length then s.handler? on c a else s.handler? on' c a := by
  rw [handler?_eq, held?_clone, apply_ite (Option.map Prod.snd), ← handler?_eq, ← handler?_eq]

/-- Registrations are numbered in their order. -/
theorem registered_run (t₀ : Table) (steps : List Step) :
    (run steps (start t₀)).registered = registrations steps := by
  induction steps using List.reverseRecOn with
  | nil => rfl
  | append_singleton steps step ih =>
    rw [run_concat, registrations_concat, ← ih]
    generalize run steps (start t₀) = s
    obtain ⟨on, c, a, h, rfl⟩ | ⟨on, rfl⟩ | ⟨t, ht⟩ | ⟨e, he⟩ | hasks := step.kinds
    · rfl
    · rfl
    · rw [step_of_installs ht]
      cases ht <;> rfl
    · rw [step_of_fails he]
      cases he <;> rfl
    · rw [(step_of_asks hasks).2.2]
      cases hasks <;> rfl

/-- The look-ups of a run are those of its steps. -/
theorem held?_run (t₀ : Table) (steps : List Step) : ∀ on c a n h,
    (run steps (start t₀)).held? on c a = some (n, h) ↔ Holds steps on c a n h := by
  induction steps using List.reverseRecOn with
  | nil =>
    intro on c a n h
    have hempty : (start t₀).registry on = [] := by
      cases on <;> rfl
    have hnone : (run [] (start t₀)).held? on c a = none := by
      rw [run, held?, hempty]
      rfl
    simp [hnone, not_holds_nil]
  | append_singleton steps step ih =>
    intro on c a n h
    have hlength := length_registries_run t₀ steps
    have hregistered := registered_run t₀ steps
    rw [run_concat]
    generalize run steps (start t₀) = s at ih hlength hregistered
    by_cases hregister : ∃ on' c' a' h₁, step = .register on' c' a' h₁
    · obtain ⟨on', c', a', h₁, rfl⟩ := hregister
      rw [Session.step, held?_register, hlength, hregistered, holds_register]
      split
      · rw [Option.some_inj, Prod.mk.injEq]
      · exact ih on c a n h
    · by_cases hclone : ∃ on', step = .clone on'
      · obtain ⟨on', rfl⟩ := hclone
        rw [Session.step, held?_clone, hlength, holds_clone]
        split
        · exact ih on' c a n h
        · exact ih on c a n h
      · have hnot : ∀ on c a h, step ≠ .register on c a h :=
          fun on c a h he => hregister ⟨on, c, a, h, he⟩
        have hnot' : ∀ on, step ≠ .clone on := fun on he => hclone ⟨on, he⟩
        rw [held?_step hnot hnot', holds_other hnot hnot']
        exact ih on c a n h

theorem handler?_eq_some_iff (hs : ∀ on c a n h, s.held? on c a = some (n, h) ↔
    Holds steps on c a n h) : s.handler? on c a = some h ↔ HasHandler steps on c a h := by
  rw [handler?_eq, Option.map_eq_some_iff]
  constructor
  · rintro ⟨⟨n, _⟩, hheld, rfl⟩
    exact ⟨n, (hs on c a n _).1 hheld⟩
  · rintro ⟨n, hh⟩
    exact ⟨(n, h), (hs on c a n h).2 hh, rfl⟩

theorem snapshots_step (hstep : step ≠ .snapshot) : (s.step step).snapshots = s.snapshots := by
  cases step with
  | snapshot => exact absurd rfl hstep
  | swap built => cases built <;> rfl
  | reload store path settings =>
    obtain ⟨r, hr⟩ := Table.exists_loads store path settings
    cases r with
    | ok t => rw [step_of_installs (.reload hr)]; rfl
    | error e => rw [step_of_fails (.reload hr)]
  | dispatch on method url =>
    obtain ⟨runs, hruns⟩ := s.answer_snd on (s.table.resolve method url)
    rw [Session.step, dispatch, hruns]
  | answer on o =>
    obtain ⟨runs, hruns⟩ := s.answer_snd on o
    rw [Session.step, hruns]
  | _ => rfl

theorem snapshots_run (t₀ : Table) (steps : List Step) :
    Snapshots t₀ steps (run steps (start t₀)).snapshots := by
  induction steps using List.reverseRecOn with
  | nil => exact .nil
  | append_singleton steps step ih =>
    rw [run_concat]
    by_cases hstep : step = .snapshot
    · subst hstep
      exact .taken ih (isLive_run t₀ steps)
    · rw [snapshots_step hstep]
      exact .kept ih hstep

theorem answer_of_held (hheld : s.held? on o.controller o.action = some (n, h)) : s.answer on o =
    (.ok (.ofResult (h (s.runs.count n + 1) o)), { s with runs := n :: s.runs }) := by
  obtain ⟨e, he, hpair⟩ := Option.map_eq_some_iff.1 hheld
  cases hpair
  rw [answer, he]

theorem answer_of_not_held (hheld : s.held? on o.controller o.action = none) :
    s.answer on o = (.error ⟨o.controller, o.action⟩, s) := by
  rw [answer, Option.map_eq_none_iff.1 hheld]

section Calls

/-! What a session holds is given here, so that one step can be taken from it. -/

variable (hheld : ∀ on c a n h, s.held? on c a = some (n, h) ↔ Holds steps on c a n h)
include hheld

theorem answers_answer (hcalled : ∀ n k, s.runs.count n = k ↔ Called t₀ n steps k) (on : Nat)
    (o : Outcome) : Answers t₀ steps on o (s.answer on o).1 := by
  cases hfound : s.held? on o.controller o.action with
  | none =>
    rw [answer_of_not_held hfound]
    refine .missing ?_
    rintro h ⟨n, hholds⟩
    have hsome := (hheld on o.controller o.action n h).2 hholds
    rw [hfound] at hsome
    cases hsome
  | some found =>
    obtain ⟨n, h⟩ := found
    have hholds := (hheld on o.controller o.action n h).1 hfound
    have hcount := (hcalled n _).1 rfl
    rw [answer_of_held hfound]
    cases hresult : h (s.runs.count n + 1) o with
    | ok r => exact .response hholds hcount hresult
    | error f => exact .failure hholds hcount hresult

variable (hlive : ∀ t, s.table = t ↔ IsLive t₀ steps t)
include hlive

theorem runs_of_calls (hcalls : step.Calls t₀ steps n) : (s.step step).runs = n :: s.runs := by
  cases hcalls with
  | dispatch ht hholds =>
    rw [Session.step, dispatch, (hlive _).2 ht, answer_of_held ((hheld _ _ _ _ _).2 hholds)]
  | answer hholds => rw [Session.step, answer_of_held ((hheld _ _ _ _ _).2 hholds)]

theorem runs_of_not_calls (hcalls : ∀ n, ¬step.Calls t₀ steps n) :
    (s.step step).runs = s.runs := by
  obtain ⟨on, c, a, h, rfl⟩ | ⟨on, rfl⟩ | ⟨t, ht⟩ | ⟨e, he⟩ | hasks := step.kinds
  · rfl
  · rfl
  · rw [step_of_installs ht]
    rfl
  · rw [step_of_fails he]
  · cases hasks with
    | route | snapshot => rfl
    | @dispatch on method url =>
      cases hfound : s.held? on (s.table.resolve method url).controller
          (s.table.resolve method url).action with
      | none => rw [Session.step, dispatch, answer_of_not_held hfound]
      | some found =>
        exact absurd (.dispatch ((hlive _).1 rfl) ((hheld _ _ _ _ _).1 hfound)) (hcalls found.1)
    | @answer on o =>
      cases hfound : s.held? on o.controller o.action with
      | none => rw [Session.step, answer_of_not_held hfound]
      | some found => exact absurd (.answer ((hheld _ _ _ _ _).1 hfound)) (hcalls found.1)

end Calls

/-- A run has called each handler as often as its steps say. -/
theorem count_runs_run (t₀ : Table) (steps : List Step) : ∀ n k,
    (run steps (start t₀)).runs.count n = k ↔ Called t₀ n steps k := by
  induction steps using List.reverseRecOn with
  | nil =>
    intro n k
    rw [called_nil_iff, eq_comm]
    rfl
  | append_singleton steps step ih =>
    intro n k
    have hlive := table_eq_iff_isLive t₀ steps
    have hheld := held?_run t₀ steps
    rw [run_concat, called_concat]
    by_cases hcalls : step.Calls t₀ steps n
    · rw [runs_of_calls hheld hlive hcalls, List.count_cons_self]
      simp only [hcalls, not_true, false_and, or_false, true_and]
      constructor
      · rintro rfl
        exact ⟨_, rfl, (ih n _).1 rfl⟩
      · rintro ⟨before, rfl, hbefore⟩
        rw [(ih n before).2 hbefore]
    · simp only [hcalls, not_false_eq_true, false_and, false_or, true_and]
      rw [← ih n k]
      by_cases hother : ∃ n', step.Calls t₀ steps n'
      · obtain ⟨n', hn'⟩ := hother
        have hne : n' ≠ n := fun he => hcalls (he ▸ hn')
        rw [runs_of_calls hheld hlive hn', List.count_cons_of_ne hne]
      · rw [runs_of_not_calls hheld hlive fun n' hn' => hother ⟨n', hn'⟩]

/-- What a session has come to by some steps after it began with a table. `registered` and `cloned`
say what one more step of the kind changes, `failed` and `asked` what it leaves as it was. -/
structure Follows (t₀ : Table) (steps : List Step) (s : Session) : Prop where
  live : ∀ t, s.table = t ↔ IsLive t₀ steps t
  members : s.registries.length = members steps
  handlers : ∀ on c a h, s.handler? on c a = some h ↔ HasHandler steps on c a h
  held : ∀ on c a n h, s.held? on c a = some (n, h) ↔ Holds steps on c a n h
  called : ∀ n k, s.runs.count n = k ↔ Called t₀ n steps k
  snapshots : Snapshots t₀ steps s.snapshots
  reloaded : ∀ store path settings s', s.reload store path settings = .ok s' ↔
    ∃ t, Table.Loads store path settings (.ok t) ∧ s' = { s with table := t }
  rejected : ∀ store path settings e, s.reload store path settings = .error e ↔
    Table.Loads store path settings (.error e)
  failed : ∀ step e, step.Fails e → s.step step = s
  asked : ∀ step, step.Asks → (s.step step).table = s.table ∧
    (s.step step).registries = s.registries
  registered : ∀ on c a h on' c' a', ¬(on' = on ∧ c' = c ∧ a' = a) →
    (s.register on c a h).handler? on' c' a' = s.handler? on' c' a'
  cloned : ∀ on on' c a, (s.clone on).handler? on' c a =
    if on' = s.registries.length then s.handler? on c a else s.handler? on' c a
  dispatched : ∀ on method url t, IsLive t₀ steps t →
    Answers t₀ steps on (t.resolve method url) (s.dispatch on method url).1
  missing : ∀ on method url t o, IsLive t₀ steps t → t.resolve method url = o →
    ((s.dispatch on method url).1 = .error ⟨o.controller, o.action⟩ ↔
      ∀ h, ¬HasHandler steps on o.controller o.action h)
  answered : ∀ on o, Answers t₀ steps on o (s.answer on o).1

/-- However registrations, clones, swaps, reloads and requests follow each other, a session holds
what its steps say, and its dispatchers answer by it. -/
theorem follows_run (t₀ : Table) (steps : List Step) : Follows t₀ steps (run steps (start t₀)) := by
  have hlive := table_eq_iff_isLive t₀ steps
  have hheld := held?_run t₀ steps
  have hcalled := count_runs_run t₀ steps
  have hanswers := answers_answer hheld hcalled
  have hdispatched : ∀ on method url t, IsLive t₀ steps t → Answers t₀ steps on
      (t.resolve method url) ((run steps (start t₀)).dispatch on method url).1 := by
    intro on method url t ht
    rw [dispatch, (hlive t).2 ht]
    exact hanswers on (t.resolve method url)
  exact {
    live := hlive
    members := length_registries_run t₀ steps
    handlers := fun _ _ _ _ => handler?_eq_some_iff hheld
    held := hheld
    called := hcalled
    snapshots := snapshots_run t₀ steps
    reloaded := fun _ _ _ _ => reload_eq_ok
    rejected := fun _ _ _ _ => reload_eq_error
    failed := fun _ _ => step_of_fails
    asked := fun _ hasks => ⟨(step_of_asks hasks).1, (step_of_asks hasks).2.1⟩
    registered := fun on c a h on' c' a' hother => by
      rw [handler?_register, if_neg fun hall => hother ⟨hall.1, hall.2.2.1.symm, hall.2.2.2.symm⟩]
    cloned := fun _ _ _ _ => handler?_clone
    dispatched := hdispatched
    missing := fun on method url t o ht ho => by
      subst ho
      exact (hdispatched on method url t ht).eq_error_iff
    answered := hanswers }

end Session
end Routes
