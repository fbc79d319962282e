import Routes.Proofs.Table.Build
/-!
What keeps route data from becoming a table. Main statement: a table is built exactly where no
action has a defect and a default can be found; otherwise the first action with a defect is named,
by the first of its defects, and the default is looked at only where there is none.
-/
namespace Routes

namespace Method

/-- Methods are compared with names in upper case. -/
theorem ofName?_eq_some_iff {s : String} {m : Method} :
    ofName? s = some m ↔ m.name.toList = Text.upper s.toList := by
  have hname : ∀ m' : Method, m'.name.toList = m.name.toList → m' = m := by
    intro m'
    cases m <;> cases m' <;> decide
  constructor
  · intro h
    simpa using List.find?_some h
  · intro h
    unfold ofName?
    rw [← h]
    cases m <;> rfl

theorem ofName?_eq_none_iff {s : String} :
    ofName? s = none ↔ ∀ m : Method, m.name.toList ≠ Text.upper s.toList := by
  simp only [Option.eq_none_iff_forall_ne_some, ne_eq, ofName?_eq_some_iff]

end Method

namespace Action
variable {a : Action} {controller : String} {e : CompileError}

/-- An action from which a route can be made: its method is that of a table in whatever case, and
its names fit its captures. -/
structure IsSound (a : Action) : Prop where
  method : ∃ m : Method, m.name.toList = Text.upper a.method.toList
  params : a.params.length = a.pattern.captureCount
  named : "" ∉ a.params

/-- What can be wrong with an action. Each defect counts only where the ones before it are
absent. -/
inductive Defect (controller : String) (a : Action) : CompileError → Prop
  | method : (∀ m : Method, m.name.toList ≠ Text.upper a.method.toList) →
      Defect controller a (.unknownMethod controller a.name a.method)
  | count {m : Method} : m.name.toList = Text.upper a.method.toList →
      a.params.length ≠ a.pattern.captureCount → Defect controller a
        (.paramCountMismatch controller a.name a.params.length a.pattern.captureCount)
  | name {m : Method} : m.name.toList = Text.upper a.method.toList →
      a.params.length = a.pattern.captureCount → "" ∈ a.params →
      Defect controller a (.missingParamName controller a.name)

theorem isSound_iff : a.IsSound ↔ ∃ m, a.Sound m := by
  constructor
  · rintro ⟨⟨m, hm⟩, hparams, hnamed⟩
    exact ⟨m, Method.ofName?_eq_some_iff.2 hm, hparams, hnamed⟩
  · rintro ⟨m, hm, hparams, hnamed⟩
    exact ⟨⟨m, Method.ofName?_eq_some_iff.1 hm⟩, hparams, hnamed⟩

end Action

namespace Route
variable {s : Settings} {controller : String} {a : Action} {e : CompileError}

theorem exists_ofAction_eq_ok_iff : (∃ r, ofAction s controller a = .ok r) ↔ a.IsSound := by
  rw [Action.isSound_iff]
  constructor
  · rintro ⟨r, hr⟩
    obtain ⟨m, hm, -⟩ := ofAction_eq_ok.1 hr
    exact ⟨m, hm⟩
  · rintro ⟨m, hm⟩
    exact ⟨_, ofAction_eq_ok.2 ⟨m, hm, rfl⟩⟩

theorem defect_of_ofAction (h : ofAction s controller a = .error e) : a.Defect controller e := by
  unfold ofAction at h
  split at h
  · rename_i hnone
    cases h
    exact .method (Method.ofName?_eq_none_iff.1 hnone)
  · rename_i m hm
    have hname := Method.ofName?_eq_some_iff.1 hm
    split at h
    · rename_i hcount
      cases h
      exact .count hname hcount
    · rename_i hcount
      split at h
      · rename_i hempty
        cases h
        exact .name hname (Decidable.not_not.1 hcount) (List.contains_iff_mem.1 hempty)
      · cases h

theorem ofAction_of_defect (h : a.Defect controller e) : ofAction s controller a = .error e := by
  unfold ofAction
  cases h with
  | method hunknown => rw [Method.ofName?_eq_none_iff.2 hunknown]
  | count hname hcount =>
    rw [Method.ofName?_eq_some_iff.2 hname]
    exact if_pos hcount
  | name hname hcount hempty =>
    rw [Method.ofName?_eq_some_iff.2 hname]
    exact (if_neg (Decidable.not_not.2 hcount)).trans (if_pos (List.contains_iff_mem.2 hempty))

theorem ofAction_eq_error_iff : ofAction s controller a = .error e ↔ a.Defect controller e :=
  ⟨defect_of_ofAction, ofAction_of_defect⟩

end Route

namespace RouteData
variable {d : RouteData} {s : Settings} {e : CompileError}

def IsSound (d : RouteData) : Prop := ∀ c ∈ d.controllers, ∀ a ∈ c.actions, a.IsSound

/-- The first defect of route data: it is in an action of some controller, and the controllers in
front of the one and the actions in front of the other have none. -/
inductive FirstDefect (d : RouteData) (e : CompileError) : Prop
  | mk {cs cs' : List Controller} {c : Controller} {as as' : List Action} {a : Action} :
      d.controllers = cs ++ c :: cs' → (∀ c' ∈ cs, ∀ a' ∈ c'.actions, a'.IsSound) →
      c.actions = as ++ a :: as' → (∀ a' ∈ as, a'.IsSound) → a.Defect c.name e → FirstDefect d e

theorem exists_mapM_entries_iff :
    (∃ rs, d.entries.mapM (fun e => Route.ofAction s e.1 e.2) = .ok rs) ↔ d.IsSound := by
  rw [exists_mapM_eq_ok_iff]
  simp only [Route.exists_ofAction_eq_ok_iff, mem_entries_iff]
  constructor
  · intro h c hc a ha
    exact h (c.name, a) ⟨c, hc, a, ha, rfl⟩
  · rintro h _ ⟨c, hc, a, ha, rfl⟩
    exact h c hc a ha

theorem mapM_entries_eq_error_iff :
    d.entries.mapM (fun e => Route.ofAction s e.1 e.2) = .error e ↔ d.FirstDefect e := by
  have hinner : ∀ c : Controller, (c.actions.map (c.name, ·)).mapM
      (fun e => Route.ofAction s e.1 e.2) = c.actions.mapM (Route.ofAction s c.name) :=
    fun c => List.mapM_map
  rw [entries, mapM_flatMap_eq_error_iff]
  simp only [hinner, mapM_eq_error_iff, exists_mapM_eq_ok_iff, Route.exists_ofAction_eq_ok_iff,
    Route.ofAction_eq_error_iff]
  constructor
  · rintro ⟨cs, c, cs', hcs, hfront, as, a, as', has, hbefore, ha⟩
    exact ⟨hcs, hfront, has, hbefore, ha⟩
  · rintro ⟨hcs, hfront, has, hbefore, ha⟩
    exact ⟨_, _, _, hcs, hfront, _, _, _, has, hbefore, ha⟩

end RouteData

namespace Table
variable {d : RouteData} {s : Settings} {e : CompileError}

theorem exists_defaultTarget_iff : (∃ target, defaultTarget d s = .ok target) ↔
    d.default.isSome ∨ ∃ target, Target.ofText s.defaultAction = .ok target := by
  unfold defaultTarget
  cases d.default <;> simp

theorem ofText_eq_error_iff {value : String} : Target.ofText value = .error e ↔
    (∀ target, Target.ofText value ≠ .ok target) ∧ e = .invalidDefaultAction value := by
  unfold Target.ofText
  split <;> simp [eq_comm]

theorem defaultTarget_eq_error_iff : defaultTarget d s = .error e ↔ d.default = none ∧
    (∀ target, Target.ofText s.defaultAction ≠ .ok target) ∧
      e = .invalidDefaultAction s.defaultAction := by
  unfold defaultTarget
  cases d.default with
  | some target => simp
  | none => simp [ofText_eq_error_iff]

/-- A table is built from all actions or not at all. Where it is not, the error is the first defect
of the data, or it is the default action of the settings where the data has no defect. -/
theorem build_reports_first_defect (d : RouteData) (s : Settings) :
    ((∃ t, build d s = .ok t) ↔ d.IsSound ∧
      (d.default.isSome ∨ ∃ target, Target.ofText s.defaultAction = .ok target)) ∧
    ∀ e, build d s = .error e ↔ d.FirstDefect e ∨ (d.IsSound ∧ d.default = none ∧
      (∀ target, Target.ofText s.defaultAction ≠ .ok target) ∧
        e = .invalidDefaultAction s.defaultAction) := by
  constructor
  · rw [← RouteData.exists_mapM_entries_iff, ← exists_defaultTarget_iff]
    constructor
    · rintro ⟨t, ht⟩
      obtain ⟨rs, target, hrs, htarget, -⟩ := build_eq_ok.1 ht
      exact ⟨⟨rs, hrs⟩, target, htarget⟩
    · rintro ⟨⟨rs, hrs⟩, target, htarget⟩
      exact ⟨_, build_eq_ok.2 ⟨rs, target, hrs, htarget, rfl⟩⟩
  · intro e
    rw [← RouteData.mapM_entries_eq_error_iff (s := s),
      ← RouteData.exists_mapM_entries_iff (s := s), ← defaultTarget_eq_error_iff, build]
    simp only [bind_eq_error_iff, pure, Except.pure, reduceCtorEq, and_false, exists_false,
      or_false, exists_and_right]

end Table
end Routes
