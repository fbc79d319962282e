import Routes.Dispatch
/-!
Looking up handlers. A registration is found for its pair, and no other pair is touched by it.
-/
namespace Routes

namespace Registry
variable {r : Registry} {e : Registration} {c a : String}

theorem isFor_iff : (e.controller == c && e.action == a) = true ↔
    e.controller = c ∧ e.action = a := by
  rw [Bool.and_eq_true, beq_iff_eq, beq_iff_eq]

theorem not_isFor_iff : (!(e.controller == c && e.action == a)) = true ↔
    ¬(e.controller = c ∧ e.action = a) := by
  rw [← isFor_iff, Bool.not_eq_true', Bool.not_eq_true]

theorem get?_cons : get? (e :: r) c a =
    if e.controller = c ∧ e.action = a then some e else get? r c a := by
  rw [get?, List.find?_cons]
  split
  · rename_i he
    rw [if_pos (isFor_iff.1 he)]
  · rename_i he
    rw [if_neg fun hpair => by rw [isFor_iff.2 hpair] at he; cases he]
    rfl

/-- The registrations for all pairs but one. -/
def without (r : Registry) (c a : String) : Registry :=
  r.filter fun e => !(e.controller == c && e.action == a)

theorem get?_without_same : (r.without c a).get? c a = none := by
  rw [get?, List.find?_eq_none]
  intro e he hfor
  exact not_isFor_iff.1 (List.mem_filter.1 he).2 (isFor_iff.1 hfor)

theorem get?_without_other {c' a' : String} (hne : ¬(c' = c ∧ a' = a)) :
    (r.without c' a').get? c a = r.get? c a := by
  induction r with
  | nil => rfl
  | cons e r ih =>
    by_cases he : e.controller = c' ∧ e.action = a'
    · have hother : ¬(e.controller = c ∧ e.action = a) := by
        rw [he.1, he.2]
        exact hne
      have hcons : without (e :: r) c' a' = without r c' a' :=
        List.filter_cons_of_neg fun hkeep => not_isFor_iff.1 hkeep he
      rw [hcons, ih, get?_cons, if_neg hother]
    · have hcons : without (e :: r) c' a' = e :: without r c' a' :=
        List.filter_cons_of_pos (not_isFor_iff.2 he)
      rw [hcons, get?_cons, get?_cons, ih]

theorem get?_register : (r.register e).get? c a =
    if e.controller = c ∧ e.action = a then some e else r.get? c a := by
  have happend : (r.register e).get? c a =
      ((r.without e.controller e.action).get? c a).or (get? [e] c a) := List.find?_append
  rw [happend, get?_cons]
  split
  · rename_i he
    rw [he.1, he.2, get?_without_same, Option.none_or]
  · rename_i he
    rw [get?_without_other he]
    exact Option.or_none

end Registry
end Routes
