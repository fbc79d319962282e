import Routes.Proofs.Text.Percent
import Routes.Proofs.Text.Split
import Routes.Request.Query
/-!
Queries in percent coding. A query is read as the same pairs before and after a coding that keeps
the marks of queries and the characters of codes.
-/
namespace Routes.Request.Query
open Text Text.Percent
variable {keep : Char → Bool} {cs : List Char}

/-- The marks of queries, and what percent coding consists of, stand for themselves. -/
structure KeepsMarks (keep : Char → Bool) : Prop extends KeepsCodes keep where
  ampersand : keep '&' = true
  equals : keep '=' = true
  plus : keep '+' = true

/-- A `+` stands for a space. -/
def spaced (c : Char) : Char := if c = '+' then ' ' else c

theorem spaced_of_ne {c : Char} (h : c ≠ '+') : spaced c = c := if_neg h

theorem map_spaced_of_not_mem (h : '+' ∉ cs) : cs.map spaced = cs := by
  have hid : cs.map spaced = cs.map id :=
    List.map_congr_left fun c hc => spaced_of_ne fun he => h (he ▸ hc)
  rw [hid, List.map_id]

theorem map_spaced_codeChar (hkeep : KeepsMarks keep) {c : Char} (hc : c ≠ ' ') :
    (codeChar keep c).map spaced = codeChar (fun d => keep d || d == ' ') (spaced c) := by
  by_cases hplus : c = '+'
  · rw [hplus, codeChar_of_keep hkeep.plus]
    exact (codeChar_of_keep (by simp [spaced])).symm
  · have hcode : (codeChar keep c).map spaced = codeChar keep c :=
      map_spaced_of_not_mem (not_mem_codeChar (by decide) (by decide) hplus)
    rw [hcode, spaced_of_ne hplus, codeChar, codeChar, beq_eq_false_iff_ne.2 hc, Bool.or_false]

/-- In a text without spaces it does not matter whether each `+` is read before the coding. -/
theorem map_spaced_encode (hkeep : KeepsMarks keep) (h : ' ' ∉ cs) :
    (encode keep cs).map spaced = encode (fun c => keep c || c == ' ') (cs.map spaced) := by
  induction cs with
  | nil => rfl
  | cons c cs ih =>
    rw [List.mem_cons, not_or] at h
    rw [encode_cons, List.map_append, map_spaced_codeChar hkeep (Ne.symm h.1), ih h.2]
    rfl

theorem decodeField_encode (hkeep : KeepsMarks keep) (h : ' ' ∉ cs) :
    decodeField (encode keep cs) = decodeField cs := by
  have hspaced : KeepsCodes fun c => keep c || c == ' ' := by
    refine ⟨by rw [hkeep.percent, Bool.true_or], fun c hc => hkeep.digit c ?_⟩
    exact (Bool.or_eq_false_iff.1 hc).1
  show Utf8.decodeLossy (decode ((encode keep cs).map spaced)) = _
  rw [map_spaced_encode hkeep h, decode_encode_of_keepsCodes hspaced]
  rfl

theorem cut?_encode (hkeep : KeepsMarks keep) (cs : List Char) : cut? '=' (encode keep cs) =
    (cut? '=' cs).map fun (a, b) => (encode keep a, encode keep b) :=
  cut?_flatMap (codeChar_of_keep hkeep.equals)
    (fun _ => not_mem_codeChar (by decide) (by decide)) cs

theorem pieces_encode (hkeep : KeepsMarks keep) (cs : List Char) :
    pieces '&' (encode keep cs) = (pieces '&' cs).map (encode keep) :=
  pieces_flatMap (codeChar_of_keep hkeep.ampersand)
    (fun _ => not_mem_codeChar (by decide) (by decide)) cs

theorem decodePair_encode (hkeep : KeepsMarks keep) (h : ' ' ∉ cs) :
    decodePair (encode keep cs) = decodePair cs := by
  rw [decodePair, decodePair, cut?_encode hkeep]
  cases hcut : cut? '=' cs with
  | none =>
    simp only [Option.map_none, Option.getD_none]
    rw [decodeField_encode hkeep h]
  | some pair =>
    obtain ⟨rfl, -⟩ := cut?_eq_some hcut
    rw [List.mem_append, List.mem_cons, not_or, not_or] at h
    simp only [Option.map_some, Option.getD_some]
    rw [decodeField_encode hkeep h.1, decodeField_encode hkeep h.2.2]

theorem isEmpty_encode (keep : Char → Bool) (cs : List Char) :
    (encode keep cs).isEmpty = cs.isEmpty := by
  cases cs with
  | nil => rfl
  | cons c cs =>
    have hne : encode keep (c :: cs) ≠ [] :=
      List.append_ne_nil_of_left_ne_nil (codeChar_ne_nil keep c) _
    rw [List.isEmpty_eq_false_iff.2 hne, List.isEmpty_cons]

theorem pairs_encode (hkeep : KeepsMarks keep) (h : ' ' ∉ cs) :
    pairs (encode keep cs) = pairs cs := by
  rw [pairs, pairs, pieces_encode hkeep, List.filter_map, List.map_map]
  have hfilter : ((!List.isEmpty ·) ∘ encode keep) = (!List.isEmpty ·) := by
    funext p
    exact congrArg (!·) (isEmpty_encode keep p)
  rw [hfilter]
  apply List.map_congr_left
  intro p hp
  exact decodePair_encode hkeep fun hmem => h (mem_of_mem_pieces (List.mem_filter.1 hp).1 hmem)

theorem ofText_encode (hkeep : KeepsMarks keep) (h : ' ' ∉ cs) :
    ofText (String.ofList (encode keep cs)) = ofText (String.ofList cs) := by
  rw [ofText, ofText, String.toList_ofList, String.toList_ofList, pairs_encode hkeep h]

end Routes.Request.Query
