import Mathlib.Data.List.Induction
import Mathlib.Data.List.Nodup
/-!
Lists without repetitions, in which every element stands where it comes up first. Main statement: a
list is brought into this form by going through it and adding what has not been seen yet.
-/
namespace Routes
variable {α : Type} [BEq α] {x : α} {xs ys : List α}

/-- Puts an element behind those seen, unless it is among them. -/
def addNew (seen : List α) (x : α) : List α := if seen.contains x then seen else seen ++ [x]

/-- The elements of a list, each once and in the order in which they come up first. -/
structure FirstSeen (xs ys : List α) : Prop where
  mem_iff : ∀ x, x ∈ ys ↔ x ∈ xs
  order : ys.Pairwise fun x y => xs.idxOf x < xs.idxOf y

theorem FirstSeen.nodup (h : FirstSeen xs ys) : ys.Nodup := by
  refine h.order.imp ?_
  rintro y _ hlt rfl
  exact Nat.lt_irrefl _ hlt

variable [LawfulBEq α]

theorem addNew_of_mem (h : x ∈ ys) : addNew ys x = ys := if_pos (List.contains_iff_mem.2 h)

theorem addNew_of_not_mem (h : x ∉ ys) : addNew ys x = ys ++ [x] :=
  if_neg fun hmem => h (List.contains_iff_mem.1 hmem)

theorem mem_addNew_iff {y : α} : y ∈ addNew ys x ↔ y ∈ ys ∨ y = x := by
  by_cases h : x ∈ ys
  · rw [addNew_of_mem h]
    exact ⟨.inl, fun hy => hy.elim id fun heq => heq ▸ h⟩
  · rw [addNew_of_not_mem h, List.mem_append, List.mem_singleton]

/-- One more element changes no place of an element seen before. -/
theorem FirstSeen.addNew (h : FirstSeen xs ys) (x : α) : FirstSeen (xs ++ [x]) (addNew ys x) := by
  have hmem : ∀ y, y ∈ Routes.addNew ys x ↔ y ∈ xs ++ [x] := by
    intro y
    rw [mem_addNew_iff, h.mem_iff, List.mem_append, List.mem_singleton]
  have hplace : ∀ y ∈ ys, (xs ++ [x]).idxOf y = xs.idxOf y :=
    fun y hy => List.idxOf_append_of_mem ((h.mem_iff y).1 hy)
  have hold : ys.Pairwise fun y z => (xs ++ [x]).idxOf y < (xs ++ [x]).idxOf z := by
    refine h.order.imp_of_mem fun hy hz hlt => ?_
    rwa [hplace _ hy, hplace _ hz]
  refine ⟨hmem, ?_⟩
  by_cases hx : x ∈ ys
  · rwa [addNew_of_mem hx]
  · rw [addNew_of_not_mem hx]
    refine List.pairwise_append.2 ⟨hold, List.pairwise_singleton _ _, fun y hy z hz => ?_⟩
    obtain rfl := List.mem_singleton.1 hz
    have hnew : z ∉ xs := fun hmem => hx ((h.mem_iff z).2 hmem)
    have hlt : xs.idxOf y < xs.length := List.idxOf_lt_length_of_mem ((h.mem_iff y).1 hy)
    rw [hplace y hy, List.idxOf_append_of_notMem hnew]
    exact Nat.lt_add_right _ hlt

theorem firstSeen_foldl (xs : List α) : FirstSeen xs (xs.foldl addNew []) := by
  induction xs using List.reverseRecOn with
  | nil => exact ⟨fun _ => Iff.rfl, .nil⟩
  | append_singleton xs x ih =>
    rw [List.foldl_append]
    exact ih.addNew x

end Routes
