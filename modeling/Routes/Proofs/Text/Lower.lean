import Routes.Position
import Routes.Text.Blank
/-!
Texts in lower case. What does not tell the capital letters from the small ones is the same for a
text and for the text in lower case; that goes for white space, for lengths and for places.
-/
namespace Routes
open Text (lower isBlank)

namespace Text
variable {c d : Char} {cs word : List Char}

theorem toLower_of_not_upper (h : ¬ (65 ≤ c.toNat ∧ c.toNat ≤ 90)) : c.toLower = c := dif_neg h

theorem invariant_toLower {α : Type} (f : Char → α)
    (h : ∀ n < 26, f (Char.ofNat (n + 65)).toLower = f (Char.ofNat (n + 65))) (c : Char) :
    f c.toLower = f c := by
  by_cases hc : 65 ≤ c.toNat ∧ c.toNat ≤ 90
  · have hn : c.toNat - 65 + 65 = c.toNat := Nat.sub_add_cancel hc.1
    have hletter := h (c.toNat - 65) (by omega)
    rwa [hn, Char.ofNat_toNat] at hletter
  · rw [toLower_of_not_upper hc]

theorem toLower_toLower (c : Char) : c.toLower.toLower = c.toLower :=
  invariant_toLower Char.toLower (by decide) c

theorem isBlank_toLower (c : Char) : isBlank c.toLower = isBlank c :=
  invariant_toLower isBlank (by decide) c

theorem utf8Size_toLower (c : Char) : c.toLower.utf8Size = c.utf8Size :=
  invariant_toLower Char.utf8Size (by decide) c

/-- A character that is no letter is the lower case of nothing but itself. -/
theorem beq_toLower (hd : d.isAlpha = false) (c : Char) : (d == c.toLower) = (d == c) := by
  have hletters : ∀ n < 26, (Char.ofNat (n + 65)).isAlpha = true ∧
      (Char.ofNat (n + 65)).toLower.isAlpha = true := by decide
  have hne : ∀ {c : Char}, c.isAlpha = true → (d == c) = false := by
    intro c hc
    refine beq_eq_false_iff_ne.2 fun he => ?_
    rw [← he, hd] at hc
    cases hc
  refine invariant_toLower (d == ·) (fun n hn => ?_) c
  rw [hne (hletters n hn).1, hne (hletters n hn).2]

theorem toLower_of_isAlpha_eq_false (h : c.isAlpha = false) : c.toLower = c :=
  (beq_iff_eq.1 ((beq_toLower h c).trans (beq_self_eq_true c))).symm

theorem lower_lower (cs : List Char) : lower (lower cs) = lower cs := by
  rw [lower, lower, List.map_map]
  exact List.map_congr_left fun c _ => toLower_toLower c

theorem length_eq_of_lower (h : lower cs = word) : cs.length = word.length := by
  rw [← h, lower, List.length_map]

theorem byteLength_lower (cs : List Char) : byteLength (lower cs) = byteLength cs := by
  induction cs with
  | nil => rfl
  | cons c cs ih =>
    rw [lower, List.map_cons, byteLength, byteLength, ← lower, ih, utf8Size_toLower]

/-- Where a text begins with a word that has no letters, it does so in lower case. -/
theorem isPrefixOf_lower (h : word.any Char.isAlpha = false) (cs : List Char) :
    word.isPrefixOf (lower cs) = word.isPrefixOf cs := by
  induction word generalizing cs with
  | nil => rfl
  | cons d word ih =>
    rw [List.any_cons, Bool.or_eq_false_iff] at h
    cases cs with
    | nil => rfl
    | cons c cs =>
      rw [lower, List.map_cons, List.isPrefixOf, List.isPrefixOf, ← lower, beq_toLower h.1,
        ih h.2]

end Text

namespace Position

theorem step_toLower (p : Position) (c : Char) : p.step c.toLower = p.step c := by
  have hline : c.toLower = '\n' ↔ c = '\n' := by
    rw [eq_comm, ← beq_iff_eq, Text.beq_toLower (by decide), beq_iff_eq, eq_comm]
  rw [step, step, Text.utf8Size_toLower]
  simp only [hline]

theorem advance_lower (p : Position) (cs : List Char) : p.advance (lower cs) = p.advance cs := by
  induction cs generalizing p with
  | nil => rfl
  | cons c cs ih =>
    rw [lower, List.map_cons, advance_cons, advance_cons, step_toLower]
    exact ih _

end Position
end Routes
