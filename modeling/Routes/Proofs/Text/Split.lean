import Routes.Text.Blank
import Routes.Text.Split
/-!
Texts that were put together, taken apart again. Joined texts are cut into the same texts where none
of them holds the separator, and words with single spaces between them are the same words. Pieces
joined are the text that they were cut from.
-/
namespace Routes.Text
variable {sep : Char} {p w cs : List Char} {ps qs : List (List Char)}

theorem join_cons_cons (sep : Char) (p q : List Char) (ps : List (List Char)) :
    join sep (p :: q :: ps) = p ++ sep :: join sep (q :: ps) := by
  simp [join, List.intercalate_cons_cons]

theorem join_append (hp : ps ≠ []) (hq : qs ≠ []) :
    join sep (ps ++ qs) = join sep ps ++ sep :: join sep qs := by
  induction ps with
  | nil => exact absurd rfl hp
  | cons p ps ih =>
    cases ps with
    | nil =>
      obtain ⟨q, qs, rfl⟩ := List.exists_cons_of_ne_nil hq
      rw [List.singleton_append, join_cons_cons]
      simp [join]
    | cons p' ps =>
      rw [List.cons_append, List.cons_append, join_cons_cons, join_cons_cons, ← List.cons_append,
        ih (List.cons_ne_nil _ _), List.append_assoc, List.cons_append]

theorem sep_not_mem_of_mem_pieces (h : p ∈ pieces sep cs) : sep ∉ p := by
  induction cs generalizing p with
  | nil =>
    rw [List.mem_singleton.1 h]
    exact List.not_mem_nil
  | cons c cs ih =>
    simp only [pieces] at h
    split at h
    · rcases List.mem_cons.1 h with rfl | h
      · exact List.not_mem_nil
      · exact ih h
    · rename_i hc
      split at h
      · rw [List.mem_singleton.1 h, List.mem_singleton]
        exact fun he => hc he.symm
      · rename_i q qs hpieces
        rcases List.mem_cons.1 h with rfl | h
        · rw [List.mem_cons, not_or]
          exact ⟨fun he => hc he.symm, ih (hpieces ▸ List.mem_cons_self)⟩
        · exact ih (hpieces ▸ List.mem_cons_of_mem q h)

theorem pieces_append (h : sep ∉ p) (cs : List Char) :
    pieces sep (p ++ sep :: cs) = p :: pieces sep cs := by
  induction p with
  | nil => simp [pieces]
  | cons c p ih =>
    rw [List.mem_cons, not_or] at h
    rw [List.cons_append, pieces, if_neg (Ne.symm h.1), ih h.2]

theorem pieces_of_not_mem (h : sep ∉ p) : pieces sep p = [p] := by
  induction p with
  | nil => rfl
  | cons c p ih =>
    rw [List.mem_cons, not_or] at h
    rw [pieces, if_neg (Ne.symm h.1), ih h.2]

theorem pieces_join (hne : ps ≠ []) (h : ∀ p ∈ ps, sep ∉ p) : pieces sep (join sep ps) = ps := by
  induction ps with
  | nil => exact absurd rfl hne
  | cons p ps ih =>
    rw [List.forall_mem_cons] at h
    cases ps with
    | nil => simpa [join] using pieces_of_not_mem h.1
    | cons q ps => rw [join_cons_cons, pieces_append h.1, ih (List.cons_ne_nil q ps) h.2]

/-- Texts that each have the separator behind them, and nothing behind the last one. -/
theorem pieces_lines (h : ∀ p ∈ ps, sep ∉ p) :
    pieces sep (ps.flatMap (· ++ [sep])) = ps ++ [[]] := by
  induction ps with
  | nil => rfl
  | cons p ps ih =>
    rw [List.forall_mem_cons] at h
    rw [List.flatMap_cons, List.append_assoc, List.singleton_append, pieces_append h.1, ih h.2,
      List.cons_append]

theorem pieces_append_of_not_mem (h : sep ∉ p) (cs : List Char) :
    pieces sep (p ++ cs) = (pieces sep cs).modifyHead (p ++ ·) := by
  obtain ⟨q, qs, hcs⟩ := List.exists_cons_of_ne_nil (pieces_ne_nil sep cs)
  rw [hcs, List.modifyHead_cons]
  induction p with
  | nil => exact hcs
  | cons c p ih =>
    rw [List.mem_cons, not_or] at h
    rw [List.cons_append, pieces, if_neg (Ne.symm h.1), ih h.2, List.cons_append]

theorem join_pieces (sep : Char) (cs : List Char) : join sep (pieces sep cs) = cs := by
  induction cs with
  | nil => rfl
  | cons c cs ih =>
    obtain ⟨q, qs, hcs⟩ := List.exists_cons_of_ne_nil (pieces_ne_nil sep cs)
    rw [hcs] at ih
    by_cases hc : c = sep
    · rw [pieces, if_pos hc, hcs, join_cons_cons, ih, hc, List.nil_append]
    · rw [pieces, if_neg hc, hcs]
      cases qs with
      | nil => simpa [join] using ih
      | cons r rs => rw [join_cons_cons, List.cons_append, ← join_cons_cons, ih]

theorem cut?_append {front : List Char} (h : sep ∉ front) (cs : List Char) :
    cut? sep (front ++ cs) = (cut? sep cs).map fun (a, b) => (front ++ a, b) := by
  induction front with
  | nil => cases hcut : cut? sep cs <;> simp [hcut]
  | cons c front ih =>
    rw [List.mem_cons, not_or] at h
    rw [List.cons_append, cut?, if_neg (Ne.symm h.1), ih h.2, Option.map_map]
    rfl

theorem cut?_append_cons {front : List Char} (h : sep ∉ front) (back : List Char) :
    cut? sep (front ++ sep :: back) = some (front, back) := by
  rw [cut?_append h, cut?, if_pos rfl, Option.map_some]
  exact congrArg (fun a => some (a, back)) (List.append_nil front)

section Writing

/-! A writing of characters by texts that keeps the separator is cut where the text is. -/

variable {f : Char → List Char}

theorem pieces_flatMap (hsep : f sep = [sep]) (h : ∀ c, c ≠ sep → sep ∉ f c) (cs : List Char) :
    pieces sep (cs.flatMap f) = (pieces sep cs).map (·.flatMap f) := by
  induction cs with
  | nil => rfl
  | cons c cs ih =>
    rw [List.flatMap_cons]
    by_cases hc : c = sep
    · rw [hc, hsep, List.singleton_append, pieces, if_pos rfl, ih, pieces, if_pos rfl]
      rfl
    · obtain ⟨q, qs, hcs⟩ := List.exists_cons_of_ne_nil (pieces_ne_nil sep cs)
      rw [pieces_append_of_not_mem (h c hc), ih, pieces, if_neg hc, hcs]
      rfl

theorem cut?_flatMap (hsep : f sep = [sep]) (h : ∀ c, c ≠ sep → sep ∉ f c) (cs : List Char) :
    cut? sep (cs.flatMap f) = (cut? sep cs).map fun (a, b) => (a.flatMap f, b.flatMap f) := by
  induction cs with
  | nil => rfl
  | cons c cs ih =>
    rw [List.flatMap_cons]
    by_cases hc : c = sep
    · rw [hc, hsep, List.singleton_append, cut?, if_pos rfl, cut?, if_pos rfl]
      rfl
    · rw [cut?_append (h c hc), ih, cut?, if_neg hc, Option.map_map, Option.map_map]
      rfl

end Writing

/-- A text without white space that is not empty. -/
def IsWord (w : List Char) : Prop := w ≠ [] ∧ ∀ c ∈ w, isBlank c = false

theorem IsWord.trim (h : IsWord w) : Text.trim w = w := by
  have hends : ∀ cs : List Char, (∀ c ∈ cs, isBlank c = false) → cs.dropWhile isBlank = cs := by
    intro cs hcs
    cases cs with
    | nil => rfl
    | cons c cs => exact List.dropWhile_cons_of_neg (by simp [hcs c List.mem_cons_self])
  have hback : ∀ c ∈ w.reverse, isBlank c = false := fun c hc => h.2 c (List.mem_reverse.1 hc)
  rw [Text.trim, trimLeft, trimRight, hends w h.2, hends _ hback, List.reverse_reverse]

theorem words_blank {c : Char} (h : isBlank c = true) (cs : List Char) :
    words (c :: cs) = words cs := by
  rw [words.eq_def]
  exact if_pos h

/-- A word in front of white space or of nothing. -/
theorem IsWord.words_append (h : IsWord w) (hcs : ∀ c ∈ cs.head?, isBlank c = true) :
    words (w ++ cs) = w :: words cs := by
  obtain ⟨hne, hchars⟩ := h
  induction w with
  | nil => exact absurd rfl hne
  | cons c w ih =>
    rw [List.forall_mem_cons] at hchars
    cases w with
    | nil =>
      rw [List.singleton_append, words.eq_def]
      cases cs with
      | nil => simp only [hchars.1, Bool.false_eq_true, if_false]; rfl
      | cons d cs =>
        have hd : isBlank d = true := hcs d rfl
        simp only [hchars.1, hd, Bool.false_eq_true, if_false, if_true]
    | cons d w =>
      have hd : isBlank d = false := hchars.2 d List.mem_cons_self
      have hrest := ih (List.cons_ne_nil d w) hchars.2
      rw [List.cons_append] at hrest
      rw [List.cons_append, List.cons_append, words.eq_def]
      simp only [hchars.1, hd, hrest, Bool.false_eq_true, if_false]

theorem words_three {a b c : List Char} (ha : IsWord a) (hb : IsWord b) (hc : IsWord c) :
    words (a ++ ' ' :: (b ++ ' ' :: c)) = [a, b, c] := by
  have hspace : ∀ (cs : List Char), ∀ d ∈ (' ' :: cs).head?, isBlank d = true := by
    intro cs d hd
    rw [← Option.some.inj hd]
    decide
  have hlast : words (c ++ []) = c :: words [] := hc.words_append (by simp)
  rw [List.append_nil] at hlast
  rw [ha.words_append (hspace _), words_blank rfl, hb.words_append (hspace _), words_blank rfl,
    hlast]
  rfl

end Routes.Text
