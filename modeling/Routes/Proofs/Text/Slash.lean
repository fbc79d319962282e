import Mathlib.Data.List.DropRight
import Mathlib.Data.List.Infix
import Routes.Proofs.Text.Split
import Routes.Table
/-!
Slashes in a text that are dropped in two ways: those at its ends, or every one that has no piece
behind it. Main statement: both leave the same text where no two slashes inside of it are side by
side, and otherwise no joined pieces hold it.
-/
namespace Routes
open Table (trimSlashes)

/-- What can stand between two slashes. -/
def IsPiece (cs : List Char) : Prop := cs ≠ [] ∧ '/' ∉ cs

theorem IsPiece.head_join {p : List Char} (h : IsPiece p) (ps : List (List Char)) :
    ∃ c cs, Text.join '/' (p :: ps) = c :: cs ∧ c ≠ '/' := by
  obtain ⟨c, cs, rfl⟩ := List.exists_cons_of_ne_nil h.1
  have hc : c ≠ '/' := fun he => h.2 (he ▸ List.mem_cons_self)
  cases ps with
  | nil => exact ⟨c, cs, by simp [Text.join], hc⟩
  | cons q ps => exact ⟨c, _, by rw [Text.join_cons_cons, List.cons_append], hc⟩

namespace Text
variable {sep : Char} {p cs t : List Char} {ps : List (List Char)}

theorem join_singleton (sep : Char) (p : List Char) : join sep [p] = p := List.intercalate_singleton

theorem pieces_append_sep (sep : Char) (a b : List Char) :
    pieces sep (a ++ sep :: b) = pieces sep a ++ pieces sep b := by
  induction a with
  | nil => simp [pieces]
  | cons c a ih =>
    by_cases hc : c = sep
    · rw [List.cons_append, pieces, if_pos hc, ih, pieces, if_pos hc, List.cons_append]
    · obtain ⟨q, qs, hq⟩ := List.exists_cons_of_ne_nil (pieces_ne_nil sep a)
      rw [List.cons_append, pieces, if_neg hc, ih, pieces, if_neg hc, hq]
      rfl

/-- The pieces of a text that are not empty. -/
def fullPieces (sep : Char) (cs : List Char) : List (List Char) :=
  (pieces sep cs).filter (!·.isEmpty)

theorem fullPieces_cons (sep : Char) (cs : List Char) :
    fullPieces sep (sep :: cs) = fullPieces sep cs := by
  rw [fullPieces, pieces, if_pos rfl]
  rfl

theorem fullPieces_concat (sep : Char) (cs : List Char) :
    fullPieces sep (cs ++ [sep]) = fullPieces sep cs := by
  rw [fullPieces, pieces_append_sep, List.filter_append]
  exact List.append_nil _

theorem fullPieces_dropWhile (sep : Char) (cs : List Char) :
    fullPieces sep (cs.dropWhile (· == sep)) = fullPieces sep cs := by
  induction cs with
  | nil => rfl
  | cons c cs ih =>
    by_cases hc : c = sep
    · rw [List.dropWhile_cons_of_pos (by simpa using hc), ih, hc, fullPieces_cons]
    · rw [List.dropWhile_cons_of_neg (by simpa using hc)]

theorem fullPieces_rdropWhile (sep : Char) (cs : List Char) :
    fullPieces sep (cs.rdropWhile (· == sep)) = fullPieces sep cs := by
  induction cs using List.reverseRecOn with
  | nil => rfl
  | append_singleton cs c ih =>
    rw [List.rdropWhile_concat]
    split
    · rename_i hc
      rw [ih, beq_iff_eq.1 hc, fullPieces_concat]
    · rfl

/-- Of joined pieces, only one at an end can be empty unless two separators are side by side. -/
theorem nil_not_mem_pieces (hne : cs ≠ []) (hinner : ¬[sep, sep] <:+: cs)
    (hfront : cs.head? ≠ some sep) (hback : cs.getLast? ≠ some sep) : [] ∉ pieces sep cs := by
  intro hmem
  obtain ⟨as, bs, hsplit⟩ := List.append_of_mem hmem
  have hjoin := join_pieces sep cs
  rw [hsplit] at hjoin
  cases as with
  | nil =>
    cases bs with
    | nil => exact hne hjoin.symm
    | cons b bs =>
      rw [List.nil_append, join_cons_cons] at hjoin
      exact hfront (hjoin ▸ rfl)
  | cons a as =>
    rw [join_append (List.cons_ne_nil a as) (List.cons_ne_nil [] bs)] at hjoin
    cases bs with
    | nil => exact hback (hjoin ▸ List.getLast?_concat)
    | cons b bs =>
      rw [join_cons_cons] at hjoin
      exact hinner ⟨join sep (a :: as), join sep (b :: bs), by rw [← hjoin]; simp⟩

theorem join_fullPieces (hne : cs ≠ []) (hinner : ¬[sep, sep] <:+: cs)
    (hfront : cs.head? ≠ some sep) (hback : cs.getLast? ≠ some sep) :
    join sep (fullPieces sep cs) = cs := by
  have hfull : fullPieces sep cs = pieces sep cs := by
    refine List.filter_eq_self.2 fun p hp => ?_
    rw [Bool.not_eq_true', List.isEmpty_eq_false_iff]
    rintro rfl
    exact nil_not_mem_pieces hne hinner hfront hback hp
  rw [hfull, join_pieces]

theorem infix_of_infix_append (hp : sep ∉ p) (h : [sep, sep] <:+: p ++ cs) :
    [sep, sep] <:+: cs := by
  induction p with
  | nil => exact h
  | cons c p ih =>
    rw [List.mem_cons, not_or] at hp
    rw [List.cons_append, List.infix_cons_iff, List.cons_prefix_cons] at h
    exact ih hp.2 (h.resolve_left fun hhead => hp.1 hhead.1)

/-- A separator stands alone between pieces, and one more at the end is behind a piece. -/
theorem not_infix_join (hps : ∀ p ∈ ps, IsPiece p) (ht : t = [] ∨ t = ['/']) :
    ¬['/', '/'] <:+: join '/' ps ++ t := by
  have hend : ¬['/', '/'] <:+: t := by
    intro h
    have hlength := h.length_le
    rcases ht with rfl | rfl
    · exact absurd hlength (by decide)
    · exact absurd hlength (by decide)
  induction ps with
  | nil => exact hend
  | cons p ps ih =>
    rw [List.forall_mem_cons] at hps
    intro h
    cases ps with
    | nil =>
      rw [join_singleton] at h
      exact hend (infix_of_infix_append hps.1.2 h)
    | cons q ps =>
      rw [join_cons_cons, List.append_assoc] at h
      have hbehind := infix_of_infix_append hps.1.2 h
      rw [List.cons_append, List.infix_cons_iff, List.cons_prefix_cons] at hbehind
      rcases hbehind with ⟨-, hprefix⟩ | hinner
      · obtain ⟨c, cs, hjoin, hc⟩ := (hps.2 q List.mem_cons_self).head_join ps
        rw [hjoin, List.cons_append, List.cons_prefix_cons] at hprefix
        exact hc hprefix.1.symm
      · exact ih hps.2 hinner

theorem fullPieces_trimSlashes (cs : List Char) :
    fullPieces '/' (trimSlashes cs) = fullPieces '/' cs :=
  (fullPieces_rdropWhile '/' _).trans (fullPieces_dropWhile '/' cs)

theorem head?_trimSlashes (cs : List Char) : (trimSlashes cs).head? ≠ some '/' := by
  intro h
  obtain ⟨rest, hrest⟩ := List.rdropWhile_prefix (· == '/') (cs.dropWhile (· == '/'))
  have hhead : (cs.dropWhile (· == '/')).head? = some '/' := by
    rw [← hrest, List.head?_append]
    exact congrArg (·.or rest.head?) h
  have hnot := List.head?_dropWhile_not (· == '/') cs
  rw [hhead] at hnot
  cases hnot

theorem getLast?_trimSlashes (cs : List Char) : (trimSlashes cs).getLast? ≠ some '/' := by
  intro h
  have hne : trimSlashes cs ≠ [] := by
    intro hnil
    rw [hnil] at h
    cases h
  rw [List.getLast?_eq_some_getLast hne] at h
  exact List.rdropWhile_last_not (· == '/') _ hne (beq_iff_eq.2 (Option.some.inj h))

end Text
end Routes
