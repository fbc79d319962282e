import Routes.Proofs.Yaml.Tree
import Routes.Yaml.Node.Read
/-!
Documents read back. The tokens of a tree are read as one node, whatever tokens follow; hence the
document of a record is read as the mapping with the same fields.
-/
namespace Routes.Yaml
open Node (Context readItems readFlatItems readEntries readUnless readValue)

namespace Tree
variable {t x : Tree} {xs : List Tree} {fs : List (String × Tree)} {fuel : Nat}
  {rest : List Token} {anchors : List (String × Nat)} {isItem : Bool}

mutual

/-- The node that a tree stands for. -/
def toNode : Tree → Node
  | null => .scalar .none true "null"
  | text tag s => .scalar ⟨none, tag⟩ (isPlain s) s
  | list items => .sequence .none (itemNodes items)
  | record fields => .mapping .none (fieldNodes fields)

def itemNodes : List Tree → List Node
  | [] => []
  | x :: xs => x.toNode :: itemNodes xs

def fieldNodes : List (String × Tree) → List (Node × Node)
  | [] => []
  | (k, v) :: fs => (.scalar .none true k, v.toNode) :: fieldNodes fs

end

/-- A node behind a key is read. An item must not follow, since a list without a block of its own
would go on. Between two nodes there are at most three places that take one from the number. -/
def ValueIsParsed (t : Tree) : Prop :=
  ∀ {fuel : Nat} {rest : List Token} {anchors : List (String × Nat)},
    3 * (t.tokens false).length + 1 < fuel → rest.head? ≠ some .blockEntry →
    Node.read .standard fuel .entry ⟨t.tokens false ++ rest, anchors⟩ =
      some (t.toNode, ⟨rest, anchors⟩)

/-- A node behind a dash is read. -/
def ItemIsParsed (t : Tree) : Prop :=
  ∀ {fuel : Nat} {rest : List Token} {anchors : List (String × Nat)},
    3 * (t.tokens true).length + 1 < fuel →
    Node.read .standard fuel .block ⟨t.tokens true ++ rest, anchors⟩ =
      some (t.toNode, ⟨rest, anchors⟩)

/-- No token at the front of a node ends the place where it stands. -/
theorem exists_head (isItem : Bool) (t : Tree) : ∃ u us, t.tokens isItem = u :: us ∧
    Node.endsEntry u = false ∧ (isItem = true → Node.endsItem u = false) := by
  match t, isItem with
  | null, _ | text (some _) _, _ | text none _, _ | list [], _ | list (_ :: _), true
  | list (_ :: _), false | record _, _ =>
    simp [tokens, tagTokens, itemsTokens, Node.endsEntry, Node.endsItem]

theorem readUnless_of_head {missing : Token → Bool} {context : Context} {u : Token}
    {us : List Token} (ht : t.tokens isItem = u :: us) (hu : missing u = false) :
    readUnless .standard (fuel + 1) missing context ⟨t.tokens isItem ++ rest, anchors⟩ =
      Node.read .standard fuel context ⟨t.tokens isItem ++ rest, anchors⟩ := by
  have hstands : Input.stands ⟨t.tokens isItem ++ rest, anchors⟩ missing = false := by
    rw [ht]
    exact hu
  rw [readUnless, hstands, if_neg Bool.false_ne_true]

theorem read_scalar {context : Context} {plain : Bool} {s : String} :
    Node.read .standard (fuel + 1) context ⟨.scalar plain s :: rest, anchors⟩ =
      some (.scalar .none plain s, ⟨rest, anchors⟩) := by
  rw [Node.read]
  rfl

theorem read_text {context : Context} {tag : Option String} {s : String} (htag : IsTag tag) :
    Node.read .standard (fuel + 1) context ⟨tokens isItem (.text tag s) ++ rest, anchors⟩ =
      some (toNode (.text tag s), ⟨rest, anchors⟩) := by
  cases tag with
  | none => exact read_scalar
  | some t =>
    obtain ⟨w, ht, -, -⟩ := htag t rfl
    have hmark : Handles.tag? .standard "!" (String.ofList t.toList.tail) = some t := by
      have htext : "!" ++ String.ofList w = t := String.toList_inj.1 (by simp [ht])
      rw [ht, List.tail_cons, ← congrArg some htext]
      rfl
    simp only [tokens, tagTokens, List.cons_append, List.nil_append]
    rw [Node.read]
    simp only [Node.readProps, hmark, Option.map_some]
    rfl

theorem read_emptyList {context : Context} :
    Node.read .standard (fuel + 2) context ⟨tokens isItem (.list []) ++ rest, anchors⟩ =
      some (toNode (.list []), ⟨rest, anchors⟩) := by
  have hitems : Node.readFlowItems .standard (fuel + 1) true ⟨.flowSequenceEnd :: rest, anchors⟩ =
      some ([], ⟨rest, anchors⟩) := by
    rw [Node.readFlowItems]
    rfl
  rw [tokens, Node.read]
  simp only [Node.readProps, List.cons_append, List.nil_append, Input.goOn, hitems]
  rfl

/-- The items of a block of their own. -/
theorem readItems_tokens (hxs : ∀ x ∈ xs, ItemIsParsed x)
    (hfuel : 3 * (itemsTokens xs).length < fuel) :
    readItems .standard fuel ⟨itemsTokens xs ++ .blockEnd :: rest, anchors⟩ =
      some (itemNodes xs, ⟨rest, anchors⟩) := by
  induction xs generalizing fuel with
  | nil =>
    obtain ⟨fuel, rfl⟩ := Nat.exists_eq_add_of_lt hfuel
    rw [readItems]
    rfl
  | cons x xs ih =>
    rw [List.forall_mem_cons] at hxs
    simp only [itemsTokens, List.length_cons, List.length_append] at hfuel
    obtain ⟨fuel, rfl⟩ : ∃ g, fuel = g + 2 := ⟨fuel - 2, by omega⟩
    obtain ⟨u, us, hu, -, hitem⟩ := exists_head true x
    have hx : readUnless .standard (fuel + 1) Node.endsItem .block
        ⟨x.tokens true ++ (itemsTokens xs ++ .blockEnd :: rest), anchors⟩ =
          some (x.toNode, ⟨itemsTokens xs ++ .blockEnd :: rest, anchors⟩) := by
      rw [readUnless_of_head hu (hitem rfl), hxs.1 (by omega)]
    have hrest := ih hxs.2 (show 3 * (itemsTokens xs).length < fuel + 1 by omega)
    rw [itemsTokens, readItems]
    simp only [List.cons_append, List.append_assoc, Input.goOn, hx, hrest]
    rfl

/-- The items of a list without a block of its own. -/
theorem readFlatItems_tokens (hxs : ∀ x ∈ xs, ItemIsParsed x)
    (hfuel : 3 * (itemsTokens xs).length < fuel) (hrest : rest.head? ≠ some .blockEntry) :
    readFlatItems .standard fuel ⟨itemsTokens xs ++ rest, anchors⟩ =
      some (itemNodes xs, ⟨rest, anchors⟩) := by
  induction xs generalizing fuel with
  | nil =>
    obtain ⟨fuel, rfl⟩ := Nat.exists_eq_add_of_lt hfuel
    rw [readFlatItems]
    split
    · next heq => exact absurd (congrArg List.head? heq) hrest
    · rfl
  | cons x xs ih =>
    rw [List.forall_mem_cons] at hxs
    simp only [itemsTokens, List.length_cons, List.length_append] at hfuel
    obtain ⟨fuel, rfl⟩ : ∃ g, fuel = g + 2 := ⟨fuel - 2, by omega⟩
    obtain ⟨u, us, hu, hentry, hitem⟩ := exists_head true x
    have hmissing : (Node.endsItem u || Node.endsEntry u) = false := by rw [hitem rfl, hentry]; rfl
    have hx : readUnless .standard (fuel + 1) (fun t => Node.endsItem t || Node.endsEntry t) .block
        ⟨x.tokens true ++ (itemsTokens xs ++ rest), anchors⟩ =
          some (x.toNode, ⟨itemsTokens xs ++ rest, anchors⟩) := by
      rw [readUnless_of_head hu hmissing, hxs.1 (by omega)]
    have hitems := ih hxs.2 (show 3 * (itemsTokens xs).length < fuel + 1 by omega)
    rw [itemsTokens, readFlatItems]
    simp only [List.cons_append, List.append_assoc, Input.goOn, hx, hitems]
    rfl

/-- The entries of a mapping. -/
theorem readEntries_tokens (hfs : ∀ f ∈ fs, ValueIsParsed f.2)
    (hfuel : 3 * (fieldsTokens fs).length < fuel) :
    readEntries .standard fuel ⟨fieldsTokens fs ++ .blockEnd :: rest, anchors⟩ =
      some (fieldNodes fs, ⟨rest, anchors⟩) := by
  induction fs generalizing fuel with
  | nil =>
    obtain ⟨fuel, rfl⟩ := Nat.exists_eq_add_of_lt hfuel
    rw [readEntries]
    rfl
  | cons f fs ih =>
    rw [List.forall_mem_cons] at hfs
    simp only [fieldsTokens, List.length_cons, List.length_append] at hfuel
    obtain ⟨fuel, rfl⟩ : ∃ g, fuel = g + 3 := ⟨fuel - 3, by omega⟩
    obtain ⟨u, us, hu, hentry, -⟩ := exists_head false f.2
    have hnext : (fieldsTokens fs ++ .blockEnd :: rest).head? ≠ some .blockEntry := by
      cases fs <;> simp [fieldsTokens]
    have hkey (ts : List Token) : readUnless .standard (fuel + 2) Node.endsEntry .entry
        ⟨.scalar true f.1 :: ts, anchors⟩ = some (.scalar .none true f.1, ⟨ts, anchors⟩) := by
      rw [readUnless, if_neg (by simp [Input.stands, Node.endsEntry]), read_scalar]
    have hvalue : readUnless .standard (fuel + 1) Node.endsEntry .entry
        ⟨f.2.tokens false ++ (fieldsTokens fs ++ .blockEnd :: rest), anchors⟩ =
          some (f.2.toNode, ⟨fieldsTokens fs ++ .blockEnd :: rest, anchors⟩) := by
      rw [readUnless_of_head hu hentry, hfs.1 (by omega) hnext]
    have hfields := ih hfs.2 (show 3 * (fieldsTokens fs).length < fuel + 2 by omega)
    rw [fieldsTokens, readEntries]
    simp only [List.cons_append, List.append_assoc, Input.goOn, hkey, readValue, hvalue, hfields]
    rfl

/-- A node that is written the same way behind keys and dashes. -/
theorem parsed_of_read (h : ∀ {isItem : Bool} {context : Context} {fuel : Nat} {rest : List Token}
    {anchors : List (String × Nat)}, context ≠ .flow → 3 * (t.tokens isItem).length + 1 < fuel →
    Node.read .standard fuel context ⟨t.tokens isItem ++ rest, anchors⟩ =
      some (t.toNode, ⟨rest, anchors⟩)) : ValueIsParsed t ∧ ItemIsParsed t :=
  ⟨fun hfuel _ => h (by decide) hfuel, fun hfuel => h (by decide) hfuel⟩

theorem read_record {context : Context} (hcontext : context ≠ .flow)
    (hfs : ∀ f ∈ fs, ValueIsParsed f.2) (hfuel : 3 * (fieldsTokens fs).length < fuel) :
    Node.read .standard (fuel + 1) context ⟨tokens isItem (.record fs) ++ rest, anchors⟩ =
      some (toNode (.record fs), ⟨rest, anchors⟩) := by
  have hentries : readEntries .standard fuel ⟨fieldsTokens fs ++ .blockEnd :: rest, anchors⟩ =
      some (fieldNodes fs, ⟨rest, anchors⟩) := readEntries_tokens hfs hfuel
  rw [tokens, Node.read]
  simp only [Node.readProps, List.cons_append, List.append_assoc, List.nil_append, Input.goOn]
  cases context with
  | flow => exact absurd rfl hcontext
  | block => simp only [hentries]; rfl
  | entry => simp only [hentries]; rfl

theorem list_parsed (hx : ItemIsParsed x) (hxs : ∀ y ∈ xs, ItemIsParsed y) :
    ValueIsParsed (.list (x :: xs)) ∧ ItemIsParsed (.list (x :: xs)) := by
  have hall : ∀ y ∈ x :: xs, ItemIsParsed y := List.forall_mem_cons.2 ⟨hx, hxs⟩
  have hflat : tokens false (.list (x :: xs)) = itemsTokens (x :: xs) := rfl
  have hblock : tokens true (.list (x :: xs)) =
      .blockSequenceStart :: (itemsTokens (x :: xs) ++ [.blockEnd]) := rfl
  constructor
  · intro fuel rest anchors hfuel hrest
    obtain ⟨fuel, rfl⟩ : ∃ g, fuel = g + 1 := ⟨fuel - 1, by omega⟩
    rw [hflat] at hfuel ⊢
    have hitems : readFlatItems .standard fuel ⟨itemsTokens (x :: xs) ++ rest, anchors⟩ =
        some (itemNodes (x :: xs), ⟨rest, anchors⟩) := readFlatItems_tokens hall (by omega) hrest
    rw [itemsTokens, List.cons_append] at hitems ⊢
    rw [Node.read]
    simp only [Node.readProps, hitems]
    rfl
  · intro fuel rest anchors hfuel
    obtain ⟨fuel, rfl⟩ : ∃ g, fuel = g + 1 := ⟨fuel - 1, by omega⟩
    rw [hblock] at hfuel ⊢
    rw [List.length_cons, List.length_append] at hfuel
    have hitems : readItems .standard fuel ⟨itemsTokens (x :: xs) ++ .blockEnd :: rest, anchors⟩ =
        some (itemNodes (x :: xs), ⟨rest, anchors⟩) := readItems_tokens hall (by omega)
    rw [Node.read]
    simp only [Node.readProps, List.cons_append, List.append_assoc, List.nil_append, Input.goOn,
      hitems]
    rfl

theorem IsWritten.parsed (h : IsWritten t) : ValueIsParsed t ∧ ItemIsParsed t := by
  induction h with
  | null =>
    refine parsed_of_read fun _ hfuel => ?_
    obtain ⟨fuel, rfl⟩ := Nat.exists_eq_add_of_lt hfuel
    exact read_scalar
  | text htag _ =>
    refine parsed_of_read fun _ hfuel => ?_
    obtain ⟨fuel, rfl⟩ := Nat.exists_eq_add_of_lt hfuel
    exact read_text htag
  | @list items _ ih =>
    cases items with
    | nil =>
      refine parsed_of_read @fun _ _ fuel _ _ _ hfuel => ?_
      obtain ⟨fuel, rfl⟩ : ∃ g, fuel = g + 2 := ⟨fuel - 2, by omega⟩
      exact read_emptyList
    | cons x xs =>
      rw [List.forall_mem_cons] at ih
      exact list_parsed ih.1.2 fun y hy => (ih.2 y hy).2
  | @record fields _ _ _ ih =>
    refine parsed_of_read @fun isItem _ fuel _ _ hcontext hfuel => ?_
    obtain ⟨fuel, rfl⟩ : ∃ g, fuel = g + 1 := ⟨fuel - 1, by omega⟩
    rw [tokens, List.length_cons, List.length_append] at hfuel
    exact read_record hcontext (fun f hf => (ih f hf).1) (by omega)

theorem ofTokens?_tokens (h : IsWritten (.record fs)) :
    Node.ofTokens? (tokens isItem (.record fs)) = some (toNode (.record fs)) := by
  have htokens (b : Bool) : tokens b (.record fs) =
      .blockMappingStart :: (fieldsTokens fs ++ [.blockEnd]) := by
    rw [tokens]
  have hread : Node.read .standard (4 * (tokens true (.record fs)).length + 4) .block
      ⟨tokens true (.record fs) ++ [], []⟩ = some (toNode (.record fs), ⟨[], []⟩) :=
    h.parsed.2 (by omega)
  rw [List.append_nil, htokens] at hread
  rw [htokens]
  simp only [Node.ofTokens?, hread, Node.isDirective, List.takeWhile_cons, List.dropWhile_cons,
    Bool.false_eq_true, if_false, Option.bind_some]
  rfl

/-- The document of a record is read as its mapping. -/
theorem ofText?_document (h : IsWritten (.record fs)) :
    Node.ofText? (document fs) = some (toNode (.record fs)) := by
  have hscan : Token.scan? (document fs).toList = some (tokens true (.record fs)) :=
    scan?_document h
  rw [Node.ofText?, hscan, Option.bind_some, ofTokens?_tokens h]

end Tree
end Routes.Yaml
