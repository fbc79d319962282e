import Routes.Json.Read
/-!
JSON texts read back. Main statement: in front of any rest, and behind any white space, a value that
holds no number is read from its printed text.
-/
namespace Routes.Json
open Text.Percent (hexValue?)

/-- What the escape of a character is read as: its code unit where it is written in digits. -/
def pieceOf (c : Char) : Piece :=
  if c.toNat < 0x20 ∧ c ∉ ['\x08', '\x0c', '\n', '\r', '\t'] then .unit c.toNat else .char c

theorem hexValue?_hexDigit {n : Nat} (h : n < 16) : hexValue? (hexDigit n) = some n := by
  have hall : ∀ n < 16, hexValue? (hexDigit n) = some n := by decide
  exact hall n h

theorem hex4?_hexDigits {n : Nat} (h : n < 0x20) :
    hex4? ['0', '0', hexDigit (n / 16), hexDigit (n % 16)] = some (n, []) := by
  have hall : ∀ n < 0x20, hex4? ['0', '0', hexDigit (n / 16), hexDigit (n % 16)] = some (n, []) := by
    decide
  exact hall n h

theorem readPieces_plain {c : Char} (hquote : c ≠ '"') (hslash : c ≠ '\\') (h : 0x20 ≤ c.toNat)
    (cs : List Char) : readPieces (c :: cs) =
      (readPieces cs).map fun (ps, rest) => (.char c :: ps, rest) := by
  rw [readPieces.eq_def]
  split
  case h_5 d ds _ _ he =>
    obtain ⟨rfl, rfl⟩ := List.cons.inj he
    have hplain : (decide (c.toNat < 0x20) || c == '\\') = false := by simp [hslash, h]
    rw [if_neg (by simp [hplain])]
  all_goals simp_all

theorem readPieces_escape (c : Char) (cs : List Char) : readPieces (escape c ++ cs) =
    (readPieces cs).map fun (ps, rest) => (pieceOf c :: ps, rest) := by
  by_cases hletter : c ∈ ['"', '\\', '\x08', '\x0c', '\n', '\r', '\t']
  · simp only [List.mem_cons, List.not_mem_nil, or_false] at hletter
    rcases hletter with rfl | rfl | rfl | rfl | rfl | rfl | rfl <;> rfl
  · simp only [List.mem_cons, List.not_mem_nil, or_false, not_or] at hletter
    by_cases hcontrol : c.toNat < 0x20
    · simp only [escape, hletter, if_false, if_pos hcontrol, List.cons_append, List.nil_append,
        readPieces.eq_3, hex4?_hexDigits hcontrol]
      simp [pieceOf, hcontrol, hletter]
    · simp only [escape, hletter, if_false, if_neg hcontrol, List.cons_append, List.nil_append,
        readPieces_plain hletter.1 hletter.2.1 (Nat.not_lt.1 hcontrol)]
      simp [pieceOf, hcontrol]

theorem joinPieces_unit {n : Nat} (h : n < 0xD800) (ps : List Piece) :
    joinPieces (.unit n :: ps) = (joinPieces ps).map (Char.ofNat n :: ·) := by
  have hlead : isLead n = false := by simp [isLead]; omega
  have htrail : isTrail n = false := by simp [isTrail]; omega
  rw [joinPieces.eq_def]
  split <;> simp_all

theorem joinPieces_pieceOf (c : Char) (ps : List Piece) :
    joinPieces (pieceOf c :: ps) = (joinPieces ps).map (c :: ·) := by
  unfold pieceOf
  split
  · rename_i h
    rw [joinPieces_unit (by omega), Char.ofNat_toNat]
  · rfl

theorem joinPieces_map_pieceOf (cs : List Char) : joinPieces (cs.map pieceOf) = some cs := by
  induction cs with
  | nil => rfl
  | cons c cs ih => rw [List.map_cons, joinPieces_pieceOf, ih, Option.map_some]

theorem readPieces_flatMap_escape (cs rest : List Char) :
    readPieces (cs.flatMap escape ++ '"' :: rest) = some (cs.map pieceOf, rest) := by
  induction cs with
  | nil => rfl
  | cons c cs ih => rw [List.flatMap_cons, List.append_assoc, readPieces_escape, ih]; rfl

/-- The rest of a string literal behind its opening quote. -/
theorem readString_quote (s : String) (rest : List Char) :
    readString (s.toList.flatMap escape ++ '"' :: rest) = some (some s, rest) := by
  have hjoin : (joinPieces (s.toList.map pieceOf)).map String.ofList = some s := by
    rw [joinPieces_map_pieceOf, Option.map_some, String.ofList_toList]
  rw [readString, readPieces_flatMap_escape, Option.map_some, ← hjoin]

/-- A value whose text can be read back: no string is without a text, and no number is kept. -/
inductive IsStored : Json → Prop
  | null : IsStored .null
  | bool (b : Bool) : IsStored (.bool b)
  | text (s : String) : IsStored (.text s)
  | array {items : List Json} : (∀ j ∈ items, IsStored j) → IsStored (.array items)
  | ofFields {fields : List (String × Json)} : (∀ f ∈ fields, IsStored f.2) →
      IsStored (.ofFields fields)

/-- White space in front of a value. -/
def IsSpaces (cs : List Char) : Prop := ∀ c ∈ cs, isSpace c = true

theorem isSpaces_nil : IsSpaces [] := by simp [IsSpaces]

theorem isSpaces_indent (depth : Nat) : IsSpaces (indent depth) := by
  intro c hc
  rcases List.mem_cons.1 hc with rfl | hc
  · rfl
  · rw [List.eq_of_mem_replicate hc]; rfl

theorem isSpaces_blank : IsSpaces [' '] := by simp [IsSpaces, isSpace]

theorem skipSpace_append {space : List Char} (h : IsSpaces space) (cs : List Char) :
    skipSpace (space ++ cs) = skipSpace cs := List.dropWhile_append_of_pos h

theorem skipSpace_cons {c : Char} (h : isSpace c = false) (cs : List Char) :
    skipSpace (c :: cs) = c :: cs := List.dropWhile_cons_of_neg (by simp [h])

/-- A value is read from its text, whatever its depth and whatever white space is in front. -/
def ReadsBack (j : Json) : Prop := ∀ (depth fuel : Nat) (space rest : List Char), IsSpaces space →
  (pretty depth j).length < fuel →
    readValue fuel (space ++ (pretty depth j ++ rest)) = some (j, rest)

/-- The text of a value begins with neither white space nor the end of a collection. -/
theorem pretty_head {j : Json} (h : IsStored j) (depth : Nat) : ∃ c cs,
    pretty depth j = c :: cs ∧ isSpace c = false ∧ c ≠ ']' ∧ c ≠ '\x7d' := by
  cases h with
  | null => exact ⟨_, _, rfl, by decide⟩
  | bool b => cases b <;> exact ⟨_, _, rfl, by decide⟩
  | text s => exact ⟨_, _, rfl, by decide⟩
  | @array items => cases items <;> exact ⟨_, _, rfl, by decide⟩
  | @ofFields fields => cases fields <;> exact ⟨_, _, rfl, by decide⟩

/-- The items of an array behind its opening bracket. -/
theorem readItems_pretty {item : Json} {items : List Json} (h : ∀ j ∈ item :: items, ReadsBack j)
    (depth outer : Nat) {fuel : Nat} {space rest : List Char} (hspace : IsSpaces space)
    (hfuel : (pretty depth item).length + (prettyItems depth items).length + 1 < fuel) :
    readItems fuel (space ++ (pretty depth item ++ (prettyItems depth items ++
      (indent outer ++ ']' :: rest)))) = some (item :: items, rest) := by
  induction items generalizing item fuel space with
  | nil =>
    obtain ⟨fuel, rfl⟩ : ∃ f, fuel = f + 1 := ⟨fuel - 1, by omega⟩
    have hitem := h item List.mem_cons_self depth fuel space (indent outer ++ ']' :: rest) hspace
      (by omega)
    rw [readItems, prettyItems, List.nil_append, hitem]
    simp only [skipSpace_append (isSpaces_indent outer), skipSpace_cons (c := ']') rfl]
  | cons next items ih =>
    obtain ⟨fuel, rfl⟩ : ∃ f, fuel = f + 1 := ⟨fuel - 1, by omega⟩
    simp only [prettyItems, List.length_cons, List.length_append] at hfuel
    have hitem := h item List.mem_cons_self depth fuel space
      (prettyItems depth (next :: items) ++ (indent outer ++ ']' :: rest)) hspace (by omega)
    have hitems : readItems fuel (indent depth ++ (pretty depth next ++ (prettyItems depth items ++
        (indent outer ++ ']' :: rest)))) = some (next :: items, rest) :=
      ih (fun j hj => h j (List.mem_cons_of_mem item hj)) (isSpaces_indent depth) (by omega)
    rw [readItems, hitem]
    simp only [prettyItems, List.cons_append, List.append_assoc, skipSpace_cons (c := ',') rfl,
      hitems, Option.map_some]

/-- Fields as the members of an object. -/
def membersOf (fields : List (String × Json)) : List (Option String × Json) :=
  fields.map fun (k, v) => (some k, v)

theorem quote_append (s : String) (rest : List Char) :
    quote (some s) ++ rest = '"' :: (s.toList.flatMap escape ++ '"' :: rest) := by
  simp [quote]

theorem prettyMembers_append (depth : Nat) (key : String) (value : Json)
    (fields : List (String × Json)) (rest : List Char) :
    prettyMembers depth (membersOf ((key, value) :: fields)) ++ rest =
      ',' :: (indent depth ++ (quote (some key) ++ (':' :: ' ' :: (pretty depth value ++
        (prettyMembers depth (membersOf fields) ++ rest))))) := by
  simp [membersOf, prettyMembers]

/-- What is read of the members from one of them on, by what follows its value. -/
def membersFrom (fuel : Nat) (member : Option String × Json) :
    List Char → Option (List (Option String × Json) × List Char)
  | '\x7d' :: rest => some ([member], rest)
  | ',' :: rest => (readMembers fuel rest).map fun (members, rest) => (member :: members, rest)
  | _ => none

theorem readMembers_member {value : Json} (h : ReadsBack value) {depth fuel : Nat}
    {space : List Char} (hspace : IsSpaces space) (hfuel : (pretty depth value).length < fuel)
    (key : String) (after : List Char) :
    readMembers (fuel + 1)
      (space ++ (quote (some key) ++ (':' :: ' ' :: (pretty depth value ++ after)))) =
      membersFrom fuel (some key, value) (skipSpace after) := by
  have hvalue : readValue fuel (' ' :: (pretty depth value ++ after)) = some (value, after) :=
    h depth fuel [' '] after isSpaces_blank hfuel
  rw [readMembers, skipSpace_append hspace, quote_append, skipSpace_cons rfl]
  simp only [readString_quote, skipSpace_cons (c := ':') rfl, hvalue]
  rfl

/-- The members of an object behind its opening brace. -/
theorem readMembers_pretty {key : String} {value : Json} {fields : List (String × Json)}
    (h : ∀ f ∈ (key, value) :: fields, ReadsBack f.2) (depth outer : Nat) {fuel : Nat}
    {space rest : List Char} (hspace : IsSpaces space)
    (hfuel : (pretty depth value).length + (prettyMembers depth (membersOf fields)).length + 1 <
      fuel) :
    readMembers fuel (space ++ (quote (some key) ++ (':' :: ' ' :: (pretty depth value ++
      (prettyMembers depth (membersOf fields) ++ (indent outer ++ '\x7d' :: rest)))))) =
      some (membersOf ((key, value) :: fields), rest) := by
  induction fields generalizing key value fuel space with
  | nil =>
    obtain ⟨fuel, rfl⟩ : ∃ f, fuel = f + 1 := ⟨fuel - 1, by omega⟩
    have hvalue : ReadsBack value := h (key, value) List.mem_cons_self
    rw [readMembers_member hvalue hspace (by omega), membersOf, List.map_nil, prettyMembers,
      List.nil_append, skipSpace_append (isSpaces_indent outer), skipSpace_cons rfl]
    rfl
  | cons next fields ih =>
    obtain ⟨fuel, rfl⟩ : ∃ f, fuel = f + 1 := ⟨fuel - 1, by omega⟩
    obtain ⟨nextKey, nextValue⟩ := next
    have hlength := congrArg List.length (prettyMembers_append depth nextKey nextValue fields [])
    simp only [List.length_append, List.length_cons, List.length_nil] at hlength
    have hfields : readMembers fuel (indent depth ++ (quote (some nextKey) ++ (':' :: ' ' ::
        (pretty depth nextValue ++ (prettyMembers depth (membersOf fields) ++
          (indent outer ++ '\x7d' :: rest)))))) =
        some (membersOf ((nextKey, nextValue) :: fields), rest) :=
      ih (fun f hf => h f (List.mem_cons_of_mem _ hf)) (isSpaces_indent depth) (by omega)
    have hvalue : ReadsBack value := h (key, value) List.mem_cons_self
    rw [readMembers_member hvalue hspace (by omega), prettyMembers_append, skipSpace_cons rfl,
      membersFrom, hfields]
    rfl

/-- A value is read back from its text in front of any rest. -/
theorem readsBack_of_isStored {j : Json} (h : IsStored j) : ReadsBack j := by
  induction h with
  | null =>
    intro depth fuel space rest hspace hfuel
    obtain ⟨fuel, rfl⟩ : ∃ f, fuel = f + 1 := ⟨fuel - 1, by omega⟩
    rw [readValue, skipSpace_append hspace]
    rfl
  | bool b =>
    intro depth fuel space rest hspace hfuel
    obtain ⟨fuel, rfl⟩ : ∃ f, fuel = f + 1 := ⟨fuel - 1, by omega⟩
    rw [readValue, skipSpace_append hspace]
    cases b <;> rfl
  | text s =>
    intro depth fuel space rest hspace hfuel
    obtain ⟨fuel, rfl⟩ : ∃ f, fuel = f + 1 := ⟨fuel - 1, by omega⟩
    have htext : pretty depth (.text s) = quote (some s) := rfl
    rw [readValue, skipSpace_append hspace, htext, quote_append, skipSpace_cons rfl]
    simp only [readString_quote, Option.map_some]
    rfl
  | @array items hitems ih =>
    intro depth fuel space rest hspace hfuel
    obtain ⟨fuel, rfl⟩ : ∃ f, fuel = f + 1 := ⟨fuel - 1, by omega⟩
    rw [readValue, skipSpace_append hspace]
    cases items with
    | nil => rfl
    | cons item items =>
      obtain ⟨c, cs, htext, hc, hclose, -⟩ := pretty_head (hitems item List.mem_cons_self) (depth + 1)
      simp only [pretty, List.length_cons, List.length_append] at hfuel
      have hread : readItems fuel (indent (depth + 1) ++ (pretty (depth + 1) item ++
          (prettyItems (depth + 1) items ++ (indent depth ++ ']' :: rest)))) =
          some (item :: items, rest) :=
        readItems_pretty ih (depth + 1) depth (isSpaces_indent (depth + 1)) (by omega)
      simp only [pretty, List.cons_append, List.append_assoc, List.nil_append,
        skipSpace_cons (c := '[') rfl, skipSpace_append (isSpaces_indent (depth + 1)), hread,
        Option.map_some]
      rw [htext, List.cons_append, skipSpace_cons hc]
      split
      · simp_all
      · rfl
  | @ofFields fields hfields ih =>
    intro depth fuel space rest hspace hfuel
    obtain ⟨fuel, rfl⟩ : ∃ f, fuel = f + 1 := ⟨fuel - 1, by omega⟩
    rw [readValue, skipSpace_append hspace]
    cases fields with
    | nil => rfl
    | cons field fields =>
      obtain ⟨key, value⟩ := field
      have htext : pretty depth (ofFields ((key, value) :: fields)) ++ rest =
          '\x7b' :: (indent (depth + 1) ++ (quote (some key) ++ (':' :: ' ' ::
            (pretty (depth + 1) value ++ (prettyMembers (depth + 1) (membersOf fields) ++
              (indent depth ++ '\x7d' :: rest)))))) := by
        simp [ofFields, membersOf, pretty]
      have hlength := congrArg List.length htext
      simp only [List.length_append, List.length_cons] at hlength
      have hread : readMembers fuel (indent (depth + 1) ++ (quote (some key) ++ (':' :: ' ' ::
          (pretty (depth + 1) value ++ (prettyMembers (depth + 1) (membersOf fields) ++
            (indent depth ++ '\x7d' :: rest)))))) = some (membersOf ((key, value) :: fields), rest) :=
        readMembers_pretty ih (depth + 1) depth (isSpaces_indent (depth + 1)) (by omega)
      rw [htext, skipSpace_cons rfl]
      simp only [skipSpace_append (isSpaces_indent (depth + 1)), hread, Option.map_some]
      rw [quote_append, skipSpace_cons rfl]
      rfl

theorem ofText?_toPretty {j : Json} (h : IsStored j) : ofText? j.toPretty = some j := by
  have hread := readsBack_of_isStored h 0 (2 * j.toPretty.length + 2) [] [] isSpaces_nil
    (by simp [toPretty]; omega)
  rw [List.nil_append, List.append_nil] at hread
  have htext : j.toPretty.toList = pretty 0 j := by simp [toPretty]
  rw [ofText?, htext, hread]
  rfl

end Routes.Json
