import Mathlib.Data.List.DropRight
import Mathlib.Data.List.TakeWhile
import Routes.Proofs.Text.Split
/-!
White space at the ends of a text and between its words. Trimming takes nothing else, and a text
without words holds nothing else. A trimmed text has nothing left to trim.
-/
namespace Routes.Text
variable {c : Char} {cs : List Char}

/-- A text of white space alone, or an empty one. -/
def AllBlank (cs : List Char) : Prop := ∀ c ∈ cs, isBlank c = true

instance (cs : List Char) : Decidable (AllBlank cs) :=
  inferInstanceAs (Decidable (∀ c ∈ cs, isBlank c = true))

theorem AllBlank.not_mem (h : AllBlank cs) (hc : isBlank c = false) : c ∉ cs := by
  intro hmem
  rw [h c hmem] at hc
  cases hc

theorem mem_dropWhile_isBlank (hc : isBlank c = false) (cs : List Char) :
    c ∈ cs.dropWhile isBlank ↔ c ∈ cs := by
  have htake : AllBlank (cs.takeWhile isBlank) := List.all_eq_true.1 List.all_takeWhile
  have hnot := htake.not_mem hc
  have hsplit : c ∈ cs ↔ c ∈ cs.takeWhile isBlank ∨ c ∈ cs.dropWhile isBlank := by
    rw [← List.mem_append, List.takeWhile_append_dropWhile]
  rw [hsplit, or_iff_right hnot]

theorem mem_trim_iff (hc : isBlank c = false) : c ∈ trim cs ↔ c ∈ cs := by
  rw [trim, trimRight, trimLeft, List.mem_reverse, mem_dropWhile_isBlank hc, List.mem_reverse,
    mem_dropWhile_isBlank hc]

theorem trim_eq_nil_iff : trim cs = [] ↔ AllBlank cs := by
  constructor
  · intro h c hc
    by_contra hblank
    have hmem := (mem_trim_iff (Bool.eq_false_iff.2 hblank)).2 hc
    rw [h] at hmem
    exact List.not_mem_nil hmem
  · intro h
    have hleft : trimLeft cs = [] := List.dropWhile_eq_nil_iff.2 h
    rw [trim, hleft]
    rfl

theorem length_trim_le (cs : List Char) : (trim cs).length ≤ cs.length := by
  have hright : (trimRight (trimLeft cs)).length ≤ (trimLeft cs).length :=
    (List.rdropWhile_prefix isBlank _).length_le
  have hleft : (trimLeft cs).length ≤ cs.length := (List.dropWhile_suffix isBlank).length_le
  exact hright.trans hleft

theorem trimLeft_trimRight (h : isBlank c = false) (cs : List Char) :
    trimLeft (trimRight (c :: cs)) = trimRight (c :: cs) := by
  have hne : trimRight (c :: cs) ≠ [] := by
    intro hnil
    have hc := List.rdropWhile_eq_nil_iff.1 hnil c List.mem_cons_self
    rw [h] at hc
    cases hc
  obtain ⟨d, ds, hds⟩ := List.exists_cons_of_ne_nil hne
  have hprefix : d :: ds <+: c :: cs := hds ▸ List.rdropWhile_prefix isBlank _
  obtain rfl := (List.cons_prefix_cons.1 hprefix).1
  rw [hds, trimLeft, List.dropWhile_cons_of_neg (by simp [h])]

theorem trim_trim (cs : List Char) : trim (trim cs) = trim cs := by
  have hleft : trimLeft (trim cs) = trim cs := by
    rw [trim]
    cases hcs : trimLeft cs with
    | nil => rfl
    | cons c rest =>
      have hc := List.head?_dropWhile_not isBlank cs
      rw [← trimLeft, hcs] at hc
      exact trimLeft_trimRight hc rest
  rw [trim, hleft]
  exact List.rdropWhile_idempotent ..

theorem words_ne_nil (hc : isBlank c = false) (cs : List Char) : words (c :: cs) ≠ [] := by
  rw [words.eq_def]
  simp only [hc, Bool.false_eq_true, if_false]
  split
  · exact List.cons_ne_nil _ _
  · split
    · exact List.cons_ne_nil _ _
    · split <;> exact List.cons_ne_nil _ _

theorem words_eq_nil_iff : words cs = [] ↔ AllBlank cs := by
  induction cs with
  | nil => exact iff_of_true rfl nofun
  | cons c cs ih =>
    cases hc : isBlank c with
    | true =>
      rw [words_blank hc, ih, AllBlank, AllBlank, List.forall_mem_cons, and_iff_right hc]
    | false =>
      exact iff_of_false (words_ne_nil hc cs) fun h => h.not_mem hc List.mem_cons_self

end Routes.Text
