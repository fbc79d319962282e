import Mathlib.Data.List.Nodup
import Routes.Proofs.Request.Query
import Routes.Proofs.Text.Slash
/-!
Queries as multimaps. A key holds the values of its pairs in their order, whatever stands between
them, so what is read of two queries is read of both in a row, and no value is lost.
-/
namespace Routes.Request.Query
variable {q : Query} {k v key : String} {vs : List String}

def keys (q : Query) : List String := q.map (·.1)

/-- The number of all values. -/
def size (q : Query) : Nat := (q.flatMap (·.2)).length

/-- What a query keeps to: each key stands in it once, and no key is without a value. -/
structure IsMultimap (q : Query) : Prop where
  nodup : q.keys.Nodup
  full : ∀ e ∈ q, e.2 ≠ []

theorem keys_cons : keys ((k, vs) :: q) = k :: q.keys := rfl

theorem size_cons : size ((k, vs) :: q) = vs.length + q.size := List.length_append

theorem lookup_cons (k : String) (vs : List String) (q : Query) (key : String) :
    lookup ((k, vs) :: q) key = if k = key then vs else q.lookup key := by
  rw [lookup, List.find?_cons]
  by_cases hk : k = key
  · rw [if_pos hk, beq_iff_eq.2 hk]
    rfl
  · rw [if_neg hk, beq_eq_false_iff_ne.2 hk]
    rfl

/-- A value that is inserted becomes the last one of its key, and of no other. -/
theorem lookup_insert (q : Query) (k v key : String) : (q.insert k v).lookup key =
    q.lookup key ++ if k = key then [v] else [] := by
  induction q with
  | nil => exact lookup_cons k [v] [] key
  | cons e q ih =>
    obtain ⟨k', vs⟩ := e
    by_cases hk' : k' = k
    · rw [insert, if_pos hk', lookup_cons, lookup_cons, hk']
      split <;> simp
    · rw [insert, if_neg hk', lookup_cons, lookup_cons, ih]
      by_cases hkey : k' = key
      · rw [if_pos hkey, if_pos hkey, if_neg fun hk => hk' (hkey.trans hk.symm), List.append_nil]
      · rw [if_neg hkey, if_neg hkey]

theorem mem_keys_insert : key ∈ (q.insert k v).keys ↔ key ∈ q.keys ∨ k = key := by
  induction q with
  | nil => simp [insert, keys, eq_comm]
  | cons e q ih =>
    obtain ⟨k', vs⟩ := e
    by_cases hk : k' = k
    · rw [insert, if_pos hk, keys_cons, keys_cons, List.mem_cons, hk]
      refine (or_iff_left_of_imp fun h => ?_).symm
      exact .inl h.symm
    · rw [insert, if_neg hk, keys_cons, keys_cons, List.mem_cons, ih, List.mem_cons, or_assoc]

theorem size_insert (q : Query) (k v : String) : (q.insert k v).size = q.size + 1 := by
  induction q with
  | nil => rfl
  | cons e q ih =>
    obtain ⟨k', vs⟩ := e
    rw [insert]
    split
    · rw [size_cons, size_cons, List.length_append, List.length_singleton, Nat.add_right_comm]
    · rw [size_cons, size_cons, ih, Nat.add_assoc]

theorem IsMultimap.insert (h : q.IsMultimap) (k v : String) : (q.insert k v).IsMultimap := by
  induction q with
  | nil => exact ⟨List.nodup_singleton k, by simp [Query.insert]⟩
  | cons e q ih =>
    obtain ⟨k', vs⟩ := e
    obtain ⟨hnodup, hfull⟩ := h
    rw [keys_cons, List.nodup_cons] at hnodup
    rw [List.forall_mem_cons] at hfull
    rw [Query.insert]
    split
    · refine ⟨List.nodup_cons.2 hnodup, List.forall_mem_cons.2 ⟨?_, hfull.2⟩⟩
      exact List.append_ne_nil_of_right_ne_nil vs (List.cons_ne_nil v [])
    · rename_i hk
      have hrest := ih ⟨hnodup.2, hfull.2⟩
      refine ⟨?_, List.forall_mem_cons.2 ⟨hfull.1, hrest.full⟩⟩
      rw [keys_cons, List.nodup_cons, mem_keys_insert, not_or]
      exact ⟨⟨hnodup.1, Ne.symm hk⟩, hrest.nodup⟩

/-- Pairs put into a query one after the other. -/
def insertAll (q : Query) (ps : List (String × String)) : Query :=
  ps.foldl (fun q (key, value) => q.insert key value) q

theorem ofText_eq (text : String) : ofText text = insertAll [] (pairs text.toList) := rfl

section InsertAll
variable (q) (ps : List (String × String))

theorem lookup_insertAll (key : String) : (q.insertAll ps).lookup key =
    q.lookup key ++ (ps.filter (·.1 = key)).map (·.2) := by
  induction ps generalizing q with
  | nil => exact (List.append_nil _).symm
  | cons p ps ih =>
    obtain ⟨k, v⟩ := p
    rw [insertAll, List.foldl_cons, ← insertAll, ih, lookup_insert, List.append_assoc]
    by_cases hk : k = key
    · rw [if_pos hk, List.filter_cons_of_pos (by simpa using hk)]
      rfl
    · rw [if_neg hk, List.filter_cons_of_neg (by simpa using hk)]
      rfl

theorem mem_keys_insertAll : key ∈ (q.insertAll ps).keys ↔ key ∈ q.keys ∨ ∃ p ∈ ps, p.1 = key := by
  induction ps generalizing q with
  | nil => simp [insertAll]
  | cons p ps ih =>
    rw [insertAll, List.foldl_cons, ← insertAll, ih, mem_keys_insert, or_assoc,
      List.exists_mem_cons_iff]

theorem size_insertAll : (q.insertAll ps).size = q.size + ps.length := by
  induction ps generalizing q with
  | nil => rfl
  | cons p ps ih =>
    rw [insertAll, List.foldl_cons, ← insertAll, ih, size_insert, List.length_cons]
    omega

variable {q} in
theorem IsMultimap.insertAll (h : q.IsMultimap) : (q.insertAll ps).IsMultimap := by
  induction ps generalizing q with
  | nil => exact h
  | cons p ps ih => exact ih (h.insert p.1 p.2)

end InsertAll

theorem isMultimap_ofText (text : String) : (ofText text).IsMultimap := by
  have hempty : IsMultimap [] := ⟨List.nodup_nil, by simp⟩
  exact hempty.insertAll _

theorem lookup_ofText (text key : String) : (ofText text).lookup key =
    ((pairs text.toList).filter (·.1 = key)).map (·.2) := by
  rw [ofText_eq, lookup_insertAll]
  rfl

theorem mem_keys_ofText {text : String} :
    key ∈ (ofText text).keys ↔ ∃ p ∈ pairs text.toList, p.1 = key := by
  rw [ofText_eq, mem_keys_insertAll]
  exact or_iff_right (List.not_mem_nil)

theorem size_ofText (text : String) :
    (ofText text).size = (Text.fullPieces '&' text.toList).length := by
  rw [ofText_eq, size_insertAll, pairs, List.length_map, Text.fullPieces]
  exact Nat.zero_add _

theorem pairs_append (a b : List Char) : pairs (a ++ '&' :: b) = pairs a ++ pairs b := by
  rw [pairs, Text.pieces_append_sep, List.filter_append, List.map_append]
  rfl

theorem lookup_ofText_append (a b key : String) : (ofText (a ++ "&" ++ b)).lookup key =
    (ofText a).lookup key ++ (ofText b).lookup key := by
  have htext : (a ++ "&" ++ b).toList = a.toList ++ '&' :: b.toList := by
    rw [String.toList_append, String.toList_append, List.append_assoc]
    rfl
  rw [lookup_ofText, lookup_ofText, lookup_ofText, htext, pairs_append, List.filter_append,
    List.map_append]

end Routes.Request.Query
