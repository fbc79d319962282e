import Routes.Proofs.Request.Multimap
/-!
Pairs written as a query. Main statement: reading a query loses no value and no order, and what is
written of pairs is read as the values of each key, where a pair of brackets at the end of a key
counts for nothing.
-/
namespace Routes.Request.Query
open Text Text.Percent
variable {mark : Char} {cs : List Char} {ps : List (String × String)} {key : String}

/-- The characters of a form that stand for themselves. -/
def isFormChar (c : Char) : Bool := c.isAlphanum || c ∈ ['*', '-', '.', '_']

def formChar (c : Char) : List Char := if c = ' ' then ['+'] else codeChar isFormChar c

def formField (cs : List Char) : List Char := cs.flatMap formChar

def formPair (p : String × String) : List Char :=
  formField p.1.toList ++ '=' :: formField p.2.toList

/-- Pairs of keys and values as a form sends them. -/
def formText (ps : List (String × String)) : String := String.ofList (join '&' (ps.map formPair))

/-- A mark is not in what is written for a character if it is neither kept nor part of a code. -/
theorem not_mem_codeChar_of_not_keep {keep : Char → Bool} (hkeep : keep mark = false)
    (hpercent : mark ≠ '%') (hdigit : hexValue? mark = none) (c : Char) :
    mark ∉ codeChar keep c := by
  intro hmem
  have hcode : encode keep [c] = codeChar keep c := List.append_nil _
  rcases mem_encode (hcode ▸ hmem) with hkept | rfl | ⟨n, hn, rfl⟩
  · rw [hkeep] at hkept
    cases hkept
  · exact hpercent rfl
  · cases (hexValue?_hexDigit hn).symm.trans hdigit

theorem not_mem_formField (hkeep : isFormChar mark = false) (hpercent : mark ≠ '%')
    (hdigit : hexValue? mark = none) (hplus : mark ≠ '+') (cs : List Char) :
    mark ∉ formField cs := by
  intro hmem
  obtain ⟨c, -, hc⟩ := List.mem_flatMap.1 hmem
  rw [formChar] at hc
  split at hc
  · exact hplus (List.mem_singleton.1 hc)
  · exact not_mem_codeChar_of_not_keep hkeep hpercent hdigit c hc

theorem ampersand_not_mem_formField (cs : List Char) : '&' ∉ formField cs :=
  not_mem_formField (by decide) (by decide) (by decide) (by decide) cs

theorem equals_not_mem_formField (cs : List Char) : '=' ∉ formField cs :=
  not_mem_formField (by decide) (by decide) (by decide) (by decide) cs

/-- Read with spaces for plus signs, a field is the coding that keeps spaces. -/
theorem map_spaced_formField (cs : List Char) :
    (formField cs).map spaced = encode (fun c => isFormChar c || c == ' ') cs := by
  induction cs with
  | nil => rfl
  | cons c cs ih =>
    rw [formField, List.flatMap_cons, List.map_append, ← formField, ih, encode_cons]
    congr 1
    by_cases hc : c = ' '
    · rw [formChar, if_pos hc, hc]
      rfl
    · have hplus : '+' ∉ codeChar isFormChar c :=
        not_mem_codeChar_of_not_keep (by decide) (by decide) (by decide) c
      rw [formChar, if_neg hc, map_spaced_of_not_mem hplus, codeChar, codeChar,
        beq_eq_false_iff_ne.2 hc, Bool.or_false]

theorem decodeField_formField (cs : List Char) : decodeField (formField cs) = cs := by
  have hdecode : decode (encode (fun c => isFormChar c || c == ' ') cs ++ []) =
      Utf8.encode cs ++ decode [] := decode_encode_append rfl
  have hreadings := Utf8.readings_encode cs []
  rw [List.append_nil] at hdecode hreadings
  show Utf8.decodeLossy (decode ((formField cs).map spaced)) = cs
  have hnil : decode [] = [] := rfl
  rw [map_spaced_formField, hdecode, hnil, List.append_nil, Utf8.decodeLossy, hreadings,
    Utf8.readings.eq_1, List.append_nil, List.map_map]
  exact List.map_id cs

theorem decodePair_formPair (p : String × String) :
    decodePair (formPair p) = (String.ofList (bareKey p.1.toList), p.2) := by
  rw [decodePair, formPair, cut?_append_cons (equals_not_mem_formField _), Option.getD_some]
  simp only [decodeField_formField, String.ofList_toList]

theorem ampersand_not_mem_formPair (p : String × String) : '&' ∉ formPair p := by
  rw [formPair, List.mem_append, List.mem_cons, not_or, not_or]
  exact ⟨ampersand_not_mem_formField _, by decide, ampersand_not_mem_formField _⟩

/-- A key without one pair of brackets at its end. -/
def bare (key : String) : String := String.ofList (bareKey key.toList)

theorem pairs_formText (ps : List (String × String)) :
    pairs (formText ps).toList = ps.map fun p => (bare p.1, p.2) := by
  cases ps with
  | nil => rfl
  | cons p ps =>
    have hpieces : pieces '&' (formText (p :: ps)).toList = (p :: ps).map formPair := by
      rw [formText, String.toList_ofList]
      refine pieces_join (List.cons_ne_nil _ _) fun piece hpiece => ?_
      obtain ⟨p, -, rfl⟩ := List.mem_map.1 hpiece
      exact ampersand_not_mem_formPair p
    have hfull : ∀ piece ∈ (p :: ps).map formPair, (!piece.isEmpty) = true := by
      intro piece hpiece
      obtain ⟨p, -, rfl⟩ := List.mem_map.1 hpiece
      simp [formPair]
    rw [pairs, hpieces, List.filter_eq_self.2 hfull, List.map_map]
    exact List.map_congr_left fun p _ => decodePair_formPair p

theorem lookup_formText (ps : List (String × String)) (key : String) :
    (ofText (formText ps)).lookup key = (ps.filter (bare ·.1 = key)).map (·.2) := by
  rw [lookup_ofText, pairs_formText, List.filter_map, List.map_map]
  rfl

theorem mem_keys_formText :
    key ∈ (ofText (formText ps)).keys ↔ ∃ p ∈ ps, bare p.1 = key := by
  rw [mem_keys_ofText, pairs_formText]
  simp only [List.mem_map, exists_exists_and_eq_and]

theorem bare_append (front : String) : bare (front ++ "[]") = front := by
  have hreverse : (front ++ "[]").toList.reverse = [']', '['] ++ front.toList.reverse := by
    rw [String.toList_append, List.reverse_append]
    rfl
  rw [bare, bareKey, hreverse, after?_append]
  dsimp only
  rw [List.reverse_reverse, String.ofList_toList]

theorem bare_of_ne {full : String} (h : ∀ front, full ≠ front ++ "[]") : bare full = full := by
  rw [bare, bareKey]
  split
  · rename_i rest hrest
    have hfull : full.toList = rest.reverse ++ ['[', ']'] := by
      rw [← full.toList.reverse_reverse, eq_append_of_after? hrest, List.reverse_append]
      rfl
    refine absurd ?_ (h (String.ofList rest.reverse))
    rw [← String.toList_inj, hfull, String.toList_append, String.toList_ofList]
    rfl
  · exact String.ofList_toList

/-- Of two pairs of brackets at the end of a key, one remains. -/
theorem bare_eq_iff {full : String} : bare full = key ↔
    full = key ++ "[]" ∨ full = key ∧ ∀ front, full ≠ front ++ "[]" := by
  by_cases h : ∃ front, full = front ++ "[]"
  · obtain ⟨front, rfl⟩ := h
    have hnot : ¬ (front ++ "[]" = key ∧ ∀ other, front ++ "[]" ≠ other ++ "[]") :=
      fun hbare => hbare.2 front rfl
    rw [bare_append, or_iff_left hnot, String.append_left_inj]
  · rw [not_exists] at h
    rw [bare_of_ne h, or_iff_right (h key), and_iff_left h]

/-- Reading a query is a lossless homomorphism. -/
theorem ofText_lossless :
    (∀ a b key, (ofText (a ++ "&" ++ b)).lookup key =
      (ofText a).lookup key ++ (ofText b).lookup key) ∧
    (∀ text, (ofText text).IsMultimap ∧
      (ofText text).size = (fullPieces '&' text.toList).length) ∧
    (∀ ps key, (ofText (formText ps)).lookup key = (ps.filter (bare ·.1 = key)).map (·.2) ∧
      (key ∈ (ofText (formText ps)).keys ↔ ∃ p ∈ ps, bare p.1 = key)) ∧
    ∀ full key, bare full = key ↔
      full = key ++ "[]" ∨ full = key ∧ ∀ front, full ≠ front ++ "[]" :=
  ⟨lookup_ofText_append, fun text => ⟨isMultimap_ofText text, size_ofText text⟩,
    fun ps key => ⟨lookup_formText ps key, mem_keys_formText⟩, fun _ _ => bare_eq_iff⟩

end Routes.Request.Query
