import Mathlib.Data.List.DropRight
import Mathlib.Data.List.TakeWhile
import Routes.Proofs.Request.Path
/-!
Targets that begin with a slash. Where the path holds no scheme, such a target is its path and its
query as they stand between the marks. Where it holds one, the target is read as a URL, which none
is that begins with a slash.
-/
namespace Routes.Request
variable {cs : List Char} {url : String}

/-- The text in front of the first question mark or number sign. -/
def originPath (url : String) : List Char :=
  url.toList.takeWhile fun c => c != '?' && c != '#'

/-- The text between the first question mark and the first number sign. There is none if the number
sign comes first. -/
def originQuery? (url : String) : Option (List Char) :=
  match url.toList.dropWhile fun c => c != '?' && c != '#' with
  | '?' :: cs => some (cs.takeWhile (· != '#'))
  | _ => none

theorem holdsScheme_iff : holdsScheme cs = true ↔ "://".toList <:+: cs := by
  refine ⟨isInfix_of_holdsScheme, fun h => ?_⟩
  obtain ⟨before, after, rfl⟩ := h
  induction before with
  | nil => rfl
  | cons c before ih => exact Bool.or_eq_true_iff.2 (.inr ih)

theorem textBefore_eq_takeWhile (c : Char) (cs : List Char) :
    textBefore c cs = cs.takeWhile (· != c) := by
  induction cs with
  | nil => rfl
  | cons d cs ih =>
    by_cases hd : d = c
    · rw [hd, List.takeWhile_cons_of_neg (by simp), textBefore, Text.cut?, if_pos rfl]
    · rw [List.takeWhile_cons_of_pos (by simpa using hd), ← ih]
      exact @textBefore_append c [d] (by simpa using Ne.symm hd) cs

theorem relativePath_eq_originPath (url : String) : relativePath url = originPath url := by
  rw [relativePath, textBefore_eq_takeWhile, textBefore_eq_takeWhile, List.takeWhile_takeWhile]
  simp only [originPath, Bool.decide_and, Bool.decide_eq_true]

theorem queryOf_eq_originQuery? (url : String) :
    queryOf (textBefore '#' url.toList) = originQuery? url := by
  unfold originQuery?
  induction url.toList with
  | nil => rfl
  | cons c cs ih =>
    by_cases hhash : c = '#'
    · rw [hhash]
      rfl
    by_cases hquestion : c = '?'
    · rw [hquestion, textBefore_eq_takeWhile]
      rfl
    · rw [List.dropWhile_cons_of_pos (by simp [hhash, hquestion]), ← ih]
      have hbefore : textBefore '#' (c :: cs) = [c] ++ textBefore '#' cs :=
        @textBefore_append '#' [c] (by simpa using Ne.symm hhash) cs
      rw [hbefore]
      exact queryOf_append (by simpa using Ne.symm hquestion) _

theorem isRelative_iff : IsRelative url ↔ ¬"://".toList <:+: originPath url := by
  rw [← holdsScheme_iff, Bool.not_eq_true, ← relativePath_eq_originPath]
  rfl

namespace Absolute

/-- A printable character at the front stays there. -/
theorem head?_clean {c : Char} (h : cs.head? = some c) (hc : 0x20 < c.toNat) :
    (clean cs).head? = some c := by
  obtain ⟨rest, rfl⟩ := List.head?_eq_some_iff.1 h
  have hend : ¬isBlankEnd c = true := by simpa [isBlankEnd] using hc
  have hkept : (c :: rest).rdropWhile isBlankEnd ≠ [] := fun hnil =>
    hend (List.rdropWhile_eq_nil_iff.1 hnil c List.mem_cons_self)
  obtain ⟨d, front, hfront⟩ := List.exists_cons_of_ne_nil hkept
  have hprefix : d :: front <+: c :: rest := hfront ▸ List.rdropWhile_prefix isBlankEnd _
  obtain rfl : d = c := (List.cons_prefix_cons.1 hprefix).1
  have hne : ∀ e : Char, e.toNat ≤ 0x20 → d ≠ e := by
    rintro e he rfl
    omega
  have hclean : clean (d :: rest) =
      (d :: front).filter fun c => c != '\t' && c != '\n' && c != '\r' := by
    rw [clean, List.dropWhile_cons_of_neg hend, ← hfront]
    rfl
  rw [hclean, List.filter_cons_of_pos]
  · rfl
  · simp [hne '\t' (by decide), hne '\n' (by decide), hne '\r' (by decide)]

/-- No URL begins with a slash. -/
theorem parse?_of_slash (h : cs.head? = some '/') : parse? cs = none := by
  obtain ⟨rest, hrest⟩ := List.head?_eq_some_iff.1 (head?_clean h (by decide))
  have hscheme : cutScheme? ('/' :: rest) = none := by
    rw [cutScheme?, Text.cut?, if_neg (by decide)]
    cases Text.cut? ':' rest <;> rfl
  rw [parse?, hrest, hscheme]

end Absolute

namespace RequestTarget

theorem ofText?_of_not_scheme (hpath : ∀ c ∈ originPath url, isPathChar c = true)
    (hscheme : ¬"://".toList <:+: originPath url) :
    ofText? url = some ⟨originPath url, originQuery? url⟩ := by
  rw [ofText?_of_relative (isRelative_iff.2 hscheme), relativePath_eq_originPath,
    queryOf_eq_originQuery?]
  exact if_pos (List.all_eq_true.2 hpath)

theorem ofText?_of_scheme (hslash : url.toList.head? = some '/')
    (hscheme : "://".toList <:+: originPath url) : ofText? url = none := by
  have habsolute : isAbsolute (textBefore '#' url.toList) = true := by
    rw [← Bool.not_eq_false]
    exact fun h => isRelative_iff.1 h hscheme
  have hhead : (textBefore '#' url.toList).head? = some '/' := by
    obtain ⟨rest, hrest⟩ := List.head?_eq_some_iff.1 hslash
    rw [hrest, textBefore_eq_takeWhile]
    rfl
  rw [ofText?, splitPath?, if_pos habsolute, Absolute.parse?_of_slash hhead]
  rfl

end RequestTarget
end Routes.Request
