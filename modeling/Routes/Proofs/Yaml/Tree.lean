import Routes.Proofs.Yaml.Step
import Routes.Yaml.Tree
/-!
The tokens of a document. They can be told from the tree that is written: the lines of the document
are followed along the tree, each node from the text behind its key or dash to the next line.
-/
open Routes.Token (isFragmentChar IsRun)

namespace Routes.Yaml

namespace Tree
variable {l : Layout} {a : Bool} {column i indent n : Nat} {is : List Nat} {ts : List Token}
  {body : List Char} {tag : Option String} {s : String} {isItem : Bool}

def tagTokens : Option String → List Token
  | some t => [.tag "!" (String.ofList t.toList.tail)]
  | none => []

mutual

/-- The tokens of a node whose records have fields. A list has its own block unless it stands behind
a key. -/
def tokens (isItem : Bool) : Tree → List Token
  | null => [.scalar true "null"]
  | text tag s => tagTokens tag ++ [.scalar (isPlain s) s]
  | list [] => [.flowSequenceStart, .flowSequenceEnd]
  | list (x :: xs) =>
    if isItem then .blockSequenceStart :: (itemsTokens (x :: xs) ++ [.blockEnd])
    else itemsTokens (x :: xs)
  | record fs => .blockMappingStart :: (fieldsTokens fs ++ [.blockEnd])

def itemsTokens : List Tree → List Token
  | [] => []
  | x :: xs => .blockEntry :: (x.tokens true ++ itemsTokens xs)

def fieldsTokens : List (String × Tree) → List Token
  | [] => []
  | (k, v) :: fs => .key :: .scalar true k :: .value :: (v.tokens false ++ fieldsTokens fs)

end

/-- A tag of a mark and a word. -/
def IsTag (tag : Option String) : Prop :=
  ∀ t ∈ tag, ∃ w, t.toList = '!' :: w ∧ w ≠ [] ∧ ∀ c ∈ w, isWordChar c = true

/-- A tree whose texts are runs and whose keys are words; records have fields. -/
inductive IsWritten : Tree → Prop where
  | null : IsWritten .null
  | text {tag : Option String} {s : String} (htag : IsTag tag) (hs : IsRun s.toList) :
    IsWritten (.text tag s)
  | list {items : List Tree} (hitems : ∀ x ∈ items, IsWritten x) : IsWritten (.list items)
  | record {fields : List (String × Tree)} (hne : fields ≠ [])
    (hkeys : ∀ f ∈ fields, Layout.IsKey f.1.toList) (hfields : ∀ f ∈ fields, IsWritten f.2) :
    IsWritten (.record fields)

theorem atSpace_value (t : Tree) (rest : List Char) : atSpace (value indent t ++ rest) = true := by
  match t with
  | null | text (some _) _ | text none _ | list [] | list (_ :: _) | record [] | record (_ :: _) =>
    simp [value, taggedText, atSpace, isSpace, isBlank, isBreak]

theorem item_eq_cons (indent : Nat) (t : Tree) : ∃ rest, item indent t = ' ' :: rest := by
  refine ⟨(item indent t).tail, ?_⟩
  match t with
  | null | text (some _) _ | text none _ | list [] | list (_ :: _) | record [] | record (_ :: _) =>
    simp [item, taggedText]

theorem atToken_of_fragment {c : Char} (hc : isFragmentChar c = true) (cs : List Char) :
    AtToken (c :: cs) := by
  refine atToken_cons ⟨isSpace_of_fragment hc, ?_⟩ cs
  rintro rfl
  cases hc

theorem atToken_run {w : List Char} (hw : IsRun w) (rest : List Char) : AtToken (w ++ rest) := by
  obtain ⟨c, w, rfl⟩ := List.exists_cons_of_ne_nil hw.1
  exact atToken_of_fragment (hw.2 c List.mem_cons_self) (w ++ rest)

theorem atToken_spelling (hs : IsRun s.toList) (rest : List Char) :
    AtToken (spelling s ++ rest) := by
  rw [spelling]
  split
  · exact atToken_run hs rest
  · exact atToken_cons (by decide) _

/-- A scalar in whichever way it is written, and the end of its line. -/
theorem ready_spelling
    (h : l.Ready a column (spelling s ++ '\n' :: (spaces n ++ body)) (i :: is, ts))
    (hs : IsRun s.toList) (hi : i < column) (hn : n ≤ i) (hbody : AtToken body) :
    ∃ l', l.Goes l' ∧
      l'.Ready true n body (Layout.unroll n (i :: is) (.scalar (isPlain s) s :: ts)) := by
  rw [spelling] at h
  by_cases hplain : isPlain s = true
  · rw [if_pos hplain] at h
    obtain ⟨l', hl', hready⟩ :=
      h.plain hs (fun _ hdash => atSpace_of_isPlain hplain hdash) hi hn hbody
    rw [String.ofList_toList] at hready
    exact ⟨l', .single hl', hplain ▸ hready⟩
  · rw [if_neg hplain, List.cons_append, List.append_assoc, List.singleton_append] at h
    obtain ⟨l', hl', hstands⟩ := h.quoted hs.2 hi
    rw [String.ofList_toList, ← Bool.eq_false_iff.2 hplain] at hstands
    exact ⟨l', .single hl', hstands.ready_line hbody⟩

theorem ready_taggedText {indent' : Nat}
    (h : l.Stands a column (taggedText indent' tag s ++ (spaces n ++ body)) (i :: is, ts))
    (htag : IsTag tag) (hs : IsRun s.toList) (hi : i ≤ column) (hn : n ≤ i) (hbody : AtToken body) :
    ∃ l', l.Goes l' ∧ l'.Ready true n body
      (Layout.unroll n (i :: is) ((tokens isItem (.text tag s)).reverse ++ ts)) := by
  have hspelling := atToken_spelling hs ('\n' :: (spaces n ++ body))
  cases tag with
  | none =>
    have hready : l.Ready a (column + 1) (spelling s ++ '\n' :: (spaces n ++ body)) (i :: is, ts) :=
      Layout.Stands.ready_space (by simpa [taggedText, spell_run hs] using h) hspelling (by omega)
    exact ready_spelling hready hs (by omega) hn hbody
  | some t =>
    obtain ⟨w, ht, hne, hword⟩ := htag t rfl
    have hready : l.Ready a (column + 1)
        ('!' :: (w ++ ' ' :: (spelling s ++ '\n' :: (spaces n ++ body)))) (i :: is, ts) :=
      Layout.Stands.ready_space (by simpa [taggedText, spell_run hs, ht] using h)
        (atToken_cons (by decide) _) (by omega)
    obtain ⟨m, hm, hstands⟩ := hready.tag hne hword (by omega)
    have hready' := hstands.ready_space hspelling (by omega)
    obtain ⟨l', hl', hlast⟩ := ready_spelling hready' hs (by omega) hn hbody
    refine ⟨l', .head hm hl', ?_⟩
    simpa [tokens, tagTokens, ht] using hlast

/-- The text behind a key is read up to the next line. -/
def ValueIsRead (t : Tree) : Prop :=
  ∀ {l : Layout} {column indent n : Nat} {is : List Nat} {ts : List Token} {body : List Char},
    l.Stands false column (value indent t ++ (spaces n ++ body)) (indent :: is, ts) →
    indent < column → n ≤ indent → AtToken body →
    ∃ l', l.Goes l' ∧
      l'.Ready true n body (Layout.unroll n (indent :: is) ((t.tokens false).reverse ++ ts))

/-- The text behind a dash is read up to the next line. -/
def ItemIsRead (t : Tree) : Prop :=
  ∀ {l : Layout} {indent n : Nat} {is : List Nat} {ts : List Token} {body : List Char},
    l.Stands true (indent + 1) (item indent t ++ (spaces n ++ body)) (indent :: is, ts) →
    n ≤ indent → AtToken body →
    ∃ l', l.Goes l' ∧
      l'.Ready true n body (Layout.unroll n (indent :: is) ((t.tokens true).reverse ++ ts))

/-- The items behind the first dash of a list. -/
theorem items_read {x : Tree} {xs : List Tree} (hx : ItemIsRead x) (hxs : ∀ y ∈ xs, ItemIsRead y)
    (h : l.Stands true (indent + 1) (item indent x ++ (items indent xs ++ (spaces n ++ body)))
      (indent :: is, .blockEntry :: ts)) (hn : n ≤ indent) (hbody : AtToken body) :
    ∃ l', l.Goes l' ∧ l'.Ready true n body
      (Layout.unroll n (indent :: is) ((itemsTokens (x :: xs)).reverse ++ ts)) := by
  -- behind an item stands the line of the next one, or what stands behind the whole list
  induction xs generalizing l x ts with
  | nil => simpa [itemsTokens] using hx h hn hbody
  | cons y ys ih =>
    rw [List.forall_mem_cons] at hxs
    obtain ⟨rest, hy⟩ := item_eq_cons indent y
    rw [items, hy] at h
    simp only [List.append_assoc, List.cons_append] at h
    obtain ⟨m, hm, hready⟩ := hx h (Nat.le_refl indent) (atToken_of_fragment (by decide) _)
    rw [Layout.unroll_of_le (Nat.le_refl indent)] at hready
    obtain ⟨o, ho, hstands⟩ := hready.dash (by simp)
    rw [Layout.enter_same, ← List.cons_append, ← hy] at hstands
    obtain ⟨l', hl', hlast⟩ := ih hxs.1 hxs.2 hstands
    refine ⟨l', hm.trans (.head ho hl'), ?_⟩
    simpa [itemsTokens] using hlast

/-- The fields behind the first key of a record. -/
theorem fields_read {f : String × Tree} {fs : List (String × Tree)} (hf : ValueIsRead f.2)
    (hfs : ∀ g ∈ fs, ValueIsRead g.2) (hkeys : ∀ g ∈ fs, Layout.IsKey g.1.toList)
    (h : l.Stands false column (value indent f.2 ++ (fields indent fs ++ (spaces n ++ body)))
      (indent :: is, .value :: .scalar true f.1 :: .key :: ts)) (hcolumn : indent < column)
    (hn : n ≤ indent) (hbody : AtToken body) :
    ∃ l', l.Goes l' ∧ l'.Ready true n body
      (Layout.unroll n (indent :: is) ((fieldsTokens (f :: fs)).reverse ++ ts)) := by
  induction fs generalizing l f ts column with
  | nil => simpa [fieldsTokens] using hf h hcolumn hn hbody
  | cons g gs ih =>
    rw [List.forall_mem_cons] at hfs hkeys
    rw [fields] at h
    simp only [List.append_assoc, List.cons_append] at h
    obtain ⟨m, hm, hready⟩ := hf h hcolumn (Nat.le_refl indent) (atToken_run hkeys.1.run _)
    rw [Layout.unroll_of_le (Nat.le_refl indent)] at hready
    obtain ⟨o, ho, hstands⟩ := hready.key hkeys.1 (atSpace_value g.2 _) (by simp)
    rw [Layout.enter_same, String.ofList_toList] at hstands
    obtain ⟨l', hl', hlast⟩ := ih hfs.1 hfs.2 hkeys.2 hstands (by omega)
    refine ⟨l', (hm.trans ho).trans hl', ?_⟩
    simpa [fieldsTokens] using hlast

/-- What is written for null. -/
theorem ready_null (h : l.Stands a column (" null\n".toList ++ (spaces n ++ body)) (i :: is, ts))
    (hi : i ≤ column) (hn : n ≤ i) (hbody : AtToken body) :
    ∃ l', l.Goes l' ∧ l'.Ready true n body
      (Layout.unroll n (i :: is) ((tokens isItem .null).reverse ++ ts)) := by
  have hrun : IsRun "null".toList := isRun_of_all (by decide) (by decide)
  have hready : l.Ready a (column + 1) ("null".toList ++ '\n' :: (spaces n ++ body))
      (i :: is, ts) :=
    Layout.Stands.ready_space h (atToken_run hrun _) (by omega)
  obtain ⟨l', hl', hlast⟩ := hready.plain hrun (by simp) (by omega) hn hbody
  exact ⟨l', .single hl', hlast⟩

theorem ready_emptyList (h : l.Stands a column (" []\n".toList ++ (spaces n ++ body)) (i :: is, ts))
    (hi : i ≤ column) (hbody : AtToken body) :
    ∃ l', l.Goes l' ∧ l'.Ready true n body
      (Layout.unroll n (i :: is) ((tokens isItem (.list [])).reverse ++ ts)) := by
  have hready : l.Ready a (column + 1) ('[' :: ']' :: '\n' :: (spaces n ++ body)) (i :: is, ts) :=
    Layout.Stands.ready_space h (atToken_cons (by decide) _) (by omega)
  obtain ⟨l', hl', hstands⟩ := hready.emptyList (by omega)
  exact ⟨l', hl', hstands.ready_line hbody⟩

/-- Behind a key the dashes stand in the column of the key; behind a dash they open a block. -/
theorem list_read {x : Tree} {xs : List Tree} (hx : ItemIsRead x) (hxs : ∀ y ∈ xs, ItemIsRead y) :
    ValueIsRead (.list (x :: xs)) ∧ ItemIsRead (.list (x :: xs)) := by
  constructor
  · intro l column indent n is ts body h hcolumn hn hbody
    obtain ⟨rest, hrest⟩ := item_eq_cons indent x
    rw [value, hrest] at h
    simp only [List.append_assoc, List.cons_append] at h
    have hready := h.ready_line (atToken_of_fragment (by decide) _)
    rw [Layout.unroll_of_le (Nat.le_refl indent)] at hready
    obtain ⟨m, hm, hstands⟩ := hready.dash (by simp)
    rw [Layout.enter_same, ← List.cons_append, ← hrest] at hstands
    obtain ⟨l', hl', hlast⟩ := items_read hx hxs hstands hn hbody
    exact ⟨l', .head hm hl', hlast⟩
  · intro l indent n is ts body h hn hbody
    obtain ⟨rest, hrest⟩ := item_eq_cons (indent + 2) x
    rw [item, hrest] at h
    simp only [List.append_assoc, List.cons_append] at h
    have hready := h.ready_space (atToken_of_fragment (by decide) _) (by omega)
    obtain ⟨m, hm, hstands⟩ := hready.dash (by simp; omega)
    rw [Layout.enter_deeper (by omega), ← List.cons_append, ← hrest] at hstands
    obtain ⟨l', hl', hlast⟩ := items_read hx hxs hstands (by omega) hbody
    rw [Layout.unroll_of_lt (by omega)] at hlast
    refine ⟨l', .head hm hl', ?_⟩
    simpa [tokens] using hlast

/-- The fields of a record whose first key is the next token. -/
theorem record_read {f : String × Tree} {fs : List (String × Tree)} (hf : ValueIsRead f.2)
    (hfs : ∀ g ∈ fs, ValueIsRead g.2) (hkeys : ∀ g ∈ f :: fs, Layout.IsKey g.1.toList)
    (h : l.Ready true (indent + 2) (f.1.toList ++ ':' :: (value (indent + 2) f.2 ++
      (fields (indent + 2) fs ++ (spaces n ++ body)))) (indent :: is, ts))
    (hn : n ≤ indent) (hbody : AtToken body) :
    ∃ l', l.Goes l' ∧ l'.Ready true n body
      (Layout.unroll n (indent :: is) ((tokens isItem (.record (f :: fs))).reverse ++ ts)) := by
  rw [List.forall_mem_cons] at hkeys
  obtain ⟨m, hm, hstands⟩ := h.key hkeys.1 (atSpace_value f.2 _) (by simp)
  rw [Layout.enter_deeper (by omega), String.ofList_toList] at hstands
  obtain ⟨l', hl', hlast⟩ := fields_read hf hfs hkeys.2 hstands (by omega) (by omega) hbody
  rw [Layout.unroll_of_lt (by omega)] at hlast
  refine ⟨l', hm.trans hl', ?_⟩
  simpa [tokens] using hlast

/-- Whatever is written is read, be it a value or an item. -/
theorem IsWritten.read {t : Tree} (h : IsWritten t) : ValueIsRead t ∧ ItemIsRead t := by
  induction h with
  | null =>
    exact ⟨fun h hcolumn hn hbody => ready_null h (by omega) hn hbody,
      fun h hn hbody => ready_null h (by omega) hn hbody⟩
  | text htag hs =>
    exact ⟨fun h hcolumn hn hbody => ready_taggedText h htag hs (by omega) hn hbody,
      fun h hn hbody => ready_taggedText h htag hs (by omega) hn hbody⟩
  | @list items _ ih =>
    cases items with
    | nil =>
      exact ⟨fun h hcolumn hn hbody => ready_emptyList h (by omega) hbody,
        fun h hn hbody => ready_emptyList h (by omega) hbody⟩
    | cons x xs =>
      rw [List.forall_mem_cons] at ih
      exact list_read ih.1.2 fun y hy => (ih.2 y hy).2
  | @record fields hne hkeys _ ih =>
    obtain ⟨⟨k, v⟩, fs, rfl⟩ := List.exists_cons_of_ne_nil hne
    rw [List.forall_mem_cons] at ih
    have hkey := atToken_run (hkeys _ List.mem_cons_self).run
    constructor
    · intro l column indent n is ts body h hcolumn hn hbody
      rw [value] at h
      simp only [List.append_assoc, List.cons_append] at h
      have hready := h.ready_line (hkey _)
      rw [Layout.unroll_of_le (by omega)] at hready
      exact record_read ih.1.1 (fun g hg => (ih.2 g hg).1) hkeys hready hn hbody
    · intro l indent n is ts body h hn hbody
      rw [item] at h
      simp only [List.append_assoc, List.cons_append] at h
      have hready := h.ready_space (hkey _) (by omega)
      exact record_read ih.1.1 (fun g hg => (ih.2 g hg).1) hkeys hready hn hbody

theorem isAllowed_of_fragment {c : Char} (hc : isFragmentChar c = true) : isAllowed c = true :=
  fragment_forall (by decide) hc

theorem allowed_run {w : List Char} (hw : ∀ c ∈ w, isFragmentChar c = true) :
    w.all isAllowed = true :=
  List.all_eq_true.2 fun c hc => isAllowed_of_fragment (hw c hc)

@[simp] theorem allowed_spaces (n : Nat) : (spaces n).all isAllowed = true := by
  rw [List.all_eq_true]
  intro c hc
  rw [List.eq_of_mem_replicate hc]
  rfl

theorem allowed_taggedText (htag : IsTag tag) (hs : IsRun s.toList) :
    (taggedText indent tag s).all isAllowed = true := by
  have hrun := allowed_run hs.2
  have hspell : (spell (indent + 2) s).all isAllowed = true := by
    rw [spell_run hs, spelling]
    split <;> simp [hrun, isAllowed]
  cases tag with
  | none => simp [taggedText, hspell, isAllowed]
  | some t =>
    obtain ⟨w, ht, -, hword⟩ := htag t rfl
    have hw : w.all isAllowed = true := allowed_run fun c hc => fragment_of_isWordChar (hword c hc)
    simp [taggedText, ht, hspell, hw, isAllowed]

theorem allowed_items {xs : List Tree} (h : ∀ x ∈ xs, (item indent x).all isAllowed = true) :
    (items indent xs).all isAllowed = true := by
  induction xs with
  | nil => rfl
  | cons x xs ih =>
    rw [List.forall_mem_cons] at h
    simp [items, h.1, ih h.2, isAllowed]

theorem allowed_fields {fs : List (String × Tree)} (hkeys : ∀ f ∈ fs, Layout.IsKey f.1.toList)
    (h : ∀ f ∈ fs, (value indent f.2).all isAllowed = true) :
    (fields indent fs).all isAllowed = true := by
  induction fs with
  | nil => rfl
  | cons f fs ih =>
    rw [List.forall_mem_cons] at h hkeys
    have hkey := allowed_run hkeys.1.run.2
    simp [fields, h.1, hkey, ih hkeys.2 h.2, isAllowed]

/-- Every character of a written tree may stand in a text. -/
theorem IsWritten.allowed {t : Tree} (h : IsWritten t) :
    ∀ indent, (value indent t).all isAllowed = true ∧ (item indent t).all isAllowed = true := by
  induction h with
  | null => exact fun indent => ⟨rfl, rfl⟩
  | text htag hs => exact fun indent => ⟨allowed_taggedText htag hs, allowed_taggedText htag hs⟩
  | @list items _ ih =>
    intro indent
    cases items with
    | nil => exact ⟨rfl, rfl⟩
    | cons x xs =>
      rw [List.forall_mem_cons] at ih
      have hxs (indent : Nat) : (Tree.items indent xs).all isAllowed = true :=
        allowed_items fun y hy => (ih.2 y hy indent).2
      simp [value, item, (ih.1 _).2, hxs, isAllowed]
  | @record fields hne hkeys _ ih =>
    intro indent
    obtain ⟨⟨k, v⟩, fs, rfl⟩ := List.exists_cons_of_ne_nil hne
    rw [List.forall_mem_cons] at hkeys ih
    have hkey : k.toList.all isAllowed = true := allowed_run hkeys.1.run.2
    have hfs : (Tree.fields (indent + 2) fs).all isAllowed = true :=
      allowed_fields hkeys.2 fun f hf => (ih.2 f hf _).1
    simp [value, item, (ih.1 _).1, hkey, hfs, isAllowed]

theorem stands_start {w : List Char} (hw : IsRun w) (rest : List Char) :
    (Layout.start (w ++ rest)).Stands true 0 (w ++ rest) ([], []) := by
  obtain ⟨c, w, rfl⟩ := List.exists_cons_of_ne_nil hw.1
  have hmark : c ≠ '\ufeff' := by
    rintro rfl
    cases hw.2 _ List.mem_cons_self
  have hstart : Layout.start (c :: w ++ rest) =
      ⟨c :: w ++ rest, ⟨0, 0, 0⟩, [], true, none, [], []⟩ := by
    unfold Layout.start
    split
    · next heq => exact absurd (List.cons.inj heq).1 hmark
    · rfl
  rw [hstart]
  exact ⟨⟨rfl, rfl, rfl, rfl, rfl, rfl⟩, rfl⟩

/-- A document is one block, whose fields stand in the first column. -/
theorem scan?_document {fs : List (String × Tree)} (h : IsWritten (.record fs)) :
    Token.scan? (document fs).toList = some (tokens isItem (.record fs)) := by
  obtain _ | _ | _ | ⟨hne, hkeys, hfields⟩ := h
  have hallowed : (fields 0 fs).all isAllowed = true :=
    allowed_fields hkeys fun f hf => ((hfields f hf).allowed 0).1
  rw [document, String.toList_ofList, Token.scan?, if_pos hallowed]
  obtain ⟨⟨k, v⟩, fs, rfl⟩ := List.exists_cons_of_ne_nil hne
  have hread : ∀ f ∈ (k, v) :: fs, ValueIsRead f.2 := fun f hf => (hfields f hf).read.1
  rw [List.forall_mem_cons] at hread hkeys
  have htext : fields 0 ((k, v) :: fs) =
      k.toList ++ ':' :: (value 0 v ++ (fields 0 fs ++ (spaces 0 ++ []))) := by
    simp [fields, spaces]
  rw [htext]
  have hstart := stands_start hkeys.1.run (':' :: (value 0 v ++ (fields 0 fs ++ (spaces 0 ++ []))))
  have hready := hstart.ready_here (atToken_run hkeys.1.run _)
  obtain ⟨m, hm, hstands⟩ := hready.key hkeys.1 (atSpace_value v _) (by simp)
  have henter : Layout.enter 0 .blockMappingStart ([], []) = ([0], [.blockMappingStart]) := rfl
  rw [henter, String.ofList_toList] at hstands
  obtain ⟨l', hl', hlast⟩ := fields_read hread.1 hread.2 hkeys.2 hstands (by omega) (Nat.le_refl 0)
    (by simp [AtToken])
  rw [Layout.unroll_of_le (Nat.le_refl 0)] at hlast
  rw [Layout.run_of_goes (hm.trans hl') hlast (by rw [hstart.rest]; exact Nat.lt_succ_self _)]
  simp [tokens]

end Tree
end Routes.Yaml
