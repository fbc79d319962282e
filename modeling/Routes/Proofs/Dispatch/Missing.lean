import Routes.Proofs.Dispatch.Session
import Routes.Proofs.FirstSeen
import Routes.Proofs.Table.Resolve
/-!
The audit of handlers. Main statement: the list of missing handlers names the targets of the live
table that have no handler, each once, and a request can fail for no other pair.
-/
namespace Routes

section Collect
variable {α : Type} {skip : α → Bool} {text : α → String} {xs : List α}

/-- Puts the text of an item behind those seen, unless it is among them or the item is skipped. -/
def collect (skip : α → Bool) (text : α → String) (seen : List String) (x : α) : List String :=
  if skip x || seen.contains (text x) then seen else seen ++ [text x]

theorem foldl_collect (seen : List String) : xs.foldl (collect skip text) seen =
    ((xs.filter (!skip ·)).map text).foldl addNew seen := by
  induction xs generalizing seen with
  | nil => rfl
  | cons x xs ih =>
    rw [List.foldl_cons, ih]
    cases hskip : skip x with
    | true =>
      rw [collect, hskip, Bool.true_or, if_pos rfl, List.filter_cons_of_neg (by simp [hskip])]
    | false =>
      rw [collect, hskip, Bool.false_or, List.filter_cons_of_pos (by simp [hskip]), List.map_cons,
        List.foldl_cons]
      rfl

end Collect

namespace Table
variable {t : Table}

/-- A pair to which a table can send requests: that of a route, or the default. -/
def IsTarget (t : Table) (c a : String) : Prop :=
  (∃ r ∈ t.routes, r.controller = c ∧ r.action = a) ∨ t.default = ⟨c, a⟩

/-- Every request goes to a target of the table. -/
theorem isTarget_resolve (t : Table) (method url : String) :
    t.IsTarget (t.resolve method url).controller (t.resolve method url).action := by
  unfold resolve
  split
  · unfold resolveTarget
    dsimp only
    split
    · rename_i hfirst
      obtain ⟨k, -, hk, -⟩ := firstMatch_eq_some_iff.1 hfirst
      have hmem := List.mem_of_getElem? hk
      cases hm : Method.ofName? method with
      | none =>
        rw [hm] at hmem
        cases hmem
      | some m =>
        rw [hm] at hmem
        exact .inl ⟨_, mem_routes_of_mem_routesFor hmem, rfl, rfl⟩
    · exact .inr rfl
  · exact .inr rfl

end Table

namespace Registry
variable {r : Registry} {t : Table} {c a s : String}

/-- The pairs that an audit goes through, in its order. -/
def targets (t : Table) : List (String × String) :=
  t.routes.map (fun route => (route.controller, route.action)) ++
    [(t.default.controller, t.default.action)]

theorem mem_targets_iff : (c, a) ∈ targets t ↔ t.IsTarget c a := by
  rw [targets, List.mem_append, List.mem_map, List.mem_singleton]
  simp only [Table.IsTarget, Prod.mk.injEq]
  refine or_congr Iff.rfl ⟨?_, fun h => by rw [h]; exact ⟨rfl, rfl⟩⟩
  rintro ⟨rfl, rfl⟩
  rfl

theorem missing_eq (r : Registry) (t : Table) : r.missing t =
    (targets t).foldl (collect (fun p => r.contains p.1 p.2) fun p => p.1 ++ "#" ++ p.2) [] := rfl

theorem contains_eq_false_iff : r.contains c a = false ↔ r.get? c a = none := by
  rw [contains, Option.isSome_eq_false_iff, Option.isNone_iff_eq_none]

/-- An audit names what has no handler where it first comes up. -/
theorem firstSeen_missing (r : Registry) (t : Table) :
    FirstSeen (((targets t).filter fun p => !r.contains p.1 p.2).map fun p => p.1 ++ "#" ++ p.2)
      (r.missing t) := by
  rw [missing_eq, foldl_collect]
  exact firstSeen_foldl _

theorem mem_missing_iff : s ∈ r.missing t ↔
    ∃ c a, s = c ++ "#" ++ a ∧ t.IsTarget c a ∧ r.get? c a = none := by
  rw [(firstSeen_missing r t).mem_iff]
  simp only [List.mem_map, List.mem_filter, Bool.not_eq_true']
  constructor
  · rintro ⟨⟨c, a⟩, ⟨htarget, hnone⟩, rfl⟩
    exact ⟨c, a, rfl, mem_targets_iff.1 htarget, contains_eq_false_iff.1 hnone⟩
  · rintro ⟨c, a, rfl, htarget, hnone⟩
    exact ⟨(c, a), ⟨mem_targets_iff.2 htarget, contains_eq_false_iff.2 hnone⟩, rfl⟩

end Registry

namespace Session
variable {s : Session} {on : Nat} {c a method url : String} {e : MissingHandler} {steps : List Step}

theorem handler?_eq_none_iff : s.handler? on c a = none ↔ (s.registry on).get? c a = none := by
  rw [handler?, Option.map_eq_none_iff]

theorem answer_eq_error_iff {o : Outcome} : (s.answer on o).1 = .error e ↔
    s.handler? on o.controller o.action = none ∧ e = ⟨o.controller, o.action⟩ := by
  rw [handler?_eq_none_iff]
  unfold answer
  split
  · rename_i hnone
    simp [hnone, eq_comm]
  · rename_i hsome
    simp [hsome]

theorem mem_missing_of_dispatch (h : (s.dispatch on method url).1 = .error e) :
    e.controller ++ "#" ++ e.action ∈ s.missing on := by
  obtain ⟨hnone, rfl⟩ := answer_eq_error_iff.1 h
  exact Registry.mem_missing_iff.2
    ⟨_, _, rfl, s.table.isTarget_resolve method url, handler?_eq_none_iff.1 hnone⟩

theorem missing_of_asks (h : ∀ step ∈ steps, step.Asks) :
    (run steps s).missing on = s.missing on := by
  induction steps generalizing s with
  | nil => rfl
  | cons step steps ih =>
    rw [List.forall_mem_cons] at h
    obtain ⟨htable, hregistries, -⟩ := step_of_asks (s := s) h.1
    rw [run, ih h.2, missing, missing, registry, registry, htable, hregistries]

/-- The audit of a dispatcher names each target of the live table without a handler once, and names
nothing else. Whatever the request, a dispatcher lacks a handler only for a pair that its audit
names; where the audit is empty, requests never come to that, however many there are. -/
theorem missing_audits (s : Session) (on : Nat) :
    (s.missing on).Nodup ∧
      (∀ text, text ∈ s.missing on ↔
        ∃ c a, text = c ++ "#" ++ a ∧ s.table.IsTarget c a ∧ s.handler? on c a = none) ∧
      (∀ method url e, (s.dispatch on method url).1 = .error e →
        e.controller ++ "#" ++ e.action ∈ s.missing on) ∧
      (s.missing on = [] → ∀ steps, (∀ step ∈ steps, step.Asks) → ∀ method url,
        ∃ r, ((run steps s).dispatch on method url).1 = .ok r) := by
  refine ⟨(Registry.firstSeen_missing _ _).nodup, fun text => ?_,
    fun _ _ _ => mem_missing_of_dispatch, ?_⟩
  · simp only [handler?_eq_none_iff]
    exact Registry.mem_missing_iff
  · intro hempty steps hasks method url
    cases hdispatch : ((run steps s).dispatch on method url).1 with
    | ok r => exact ⟨r, rfl⟩
    | error e =>
      have hmem := mem_missing_of_dispatch hdispatch
      rw [missing_of_asks hasks, hempty] at hmem
      cases hmem

/-- Two pairs of this table have one text, and one of its routes goes to the default. -/
def twinTable : Table :=
  ⟨[(.get, [.ofEntry .standard .get ("A#b", ⟨"c", "GET", [.literal "x"], []⟩),
      .ofEntry .standard .get ("A", ⟨"d", "GET", [.capture .text], ["id"]⟩)]),
    (.post, [.ofEntry .standard .post ("A", ⟨"b#c", "POST", [], []⟩)])], ⟨"A", "d"⟩, "", ""⟩

def silent : Handler := fun _ _ => .ok (.ok .null)

theorem missing_twins :
    let s := (start twinTable).register 0 "A" "d" silent
    let full := (s.register 0 "A#b" "c" silent).register 0 "A" "b#c" silent
    s.missing 0 = ["A#b#c"] ∧ (s.dispatch 0 "get" "/x").1 = .error ⟨"A#b", "c"⟩ ∧
      "A#b#c" ∈ s.missing 0 ∧ full.missing 0 = [] ∧
      ∃ r, ((run [.dispatch 0 "GET" "/y", .snapshot] full).dispatch 0 "get" "/x").1 = .ok r := by
  intro s full
  have hmissing : s.missing 0 = ["A#b#c"] := by decide
  have hempty : full.missing 0 = [] := by decide
  have hnone : (s.handler? 0 "A#b" "c").isNone = true := by decide
  have hpair : (s.table.resolve "get" "/x").controller = "A#b" ∧
      (s.table.resolve "get" "/x").action = "c" := by decide
  have herror : (s.dispatch 0 "get" "/x").1 = .error ⟨"A#b", "c"⟩ := by
    refine answer_eq_error_iff.2 ⟨?_, ?_⟩
    · rw [hpair.1, hpair.2]
      exact Option.isNone_iff_eq_none.1 hnone
    · rw [hpair.1, hpair.2]
  have hasks : ∀ step ∈ [Step.dispatch 0 "GET" "/y", .snapshot], step.Asks := by
    simp only [List.forall_mem_cons, List.not_mem_nil, false_implies, implies_true, and_true]
    exact ⟨.dispatch, .snapshot⟩
  exact ⟨hmissing, herror, (missing_audits s 0).2.2.1 "get" "/x" _ herror, hempty,
    (missing_audits full 0).2.2.2 hempty _ hasks "get" "/x"⟩

end Session
end Routes
