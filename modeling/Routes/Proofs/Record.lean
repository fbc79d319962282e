import Mathlib.Data.List.Nodup
/-!
Lists read item by item, and fields found by their keys.
-/
namespace Routes
variable {α β γ κ : Type}

/-- Items that are all read back give the whole list back. -/
theorem mapM_map_eq_some {f : β → Option γ} {g : α → β} {h : α → γ} {as : List α}
    (hread : ∀ a ∈ as, f (g a) = some (h a)) : (as.map g).mapM f = some (as.map h) := by
  induction as with
  | nil => rfl
  | cons a as ih =>
    have ha := hread a List.mem_cons_self
    have has := ih fun b hb => hread b (List.mem_cons_of_mem a hb)
    rw [List.map_cons, List.mapM_cons, ha, has]
    rfl

/-- Where no key is given twice, a key has only its own field. -/
theorem filter_key [BEq κ] [LawfulBEq κ] {fields : List (κ × α)} {field : κ × α}
    (hkeys : (fields.map Prod.fst).Nodup) (h : field ∈ fields) :
    fields.filter (·.1 == field.1) = [field] := by
  induction fields with
  | nil => cases h
  | cons other fields ih =>
    obtain ⟨hfresh, hkeys⟩ := List.nodup_cons.1 hkeys
    rcases List.mem_cons.1 h with rfl | h
    · have hnone : fields.filter (·.1 == field.1) = [] := by
        rw [List.filter_eq_nil_iff]
        intro f hf hkey
        exact hfresh (eq_of_beq hkey ▸ List.mem_map_of_mem hf)
      rw [List.filter_cons_of_pos (by simp), hnone]
    · have hne : (other.1 == field.1) = false := by
        rw [beq_eq_false_iff_ne]
        intro hkey
        exact hfresh (hkey ▸ List.mem_map_of_mem h)
      rw [List.filter_cons_of_neg (by simp [hne]), ih hkeys h]

end Routes
