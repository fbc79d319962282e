import Routes.Proofs.Text.Utf8
import Routes.Text.Percent
/-!
Percent coding read back. Whatever characters are kept, as long as the percent sign is not among
them, a text is decoded from its coded form. Where the percent sign and all digits are kept, coding
changes nothing about what a text is decoded to.
-/
namespace Routes.Text.Percent
variable {keep : Char → Bool} {cs rest : List Char}

theorem hexValue?_hexDigit {n : Nat} (h : n < 16) : hexValue? (hexDigit n) = some n := by
  have hall : ∀ n < 16, hexValue? (hexDigit n) = some n := by decide
  exact hall n h

theorem decode_cons {c : Char} (hc : c ≠ '%') :
    decode (c :: rest) = String.utf8EncodeChar c ++ decode rest := by
  rw [decode.eq_2]
  intro a b cs h _
  exact hc h

theorem decode_encodeByte (b : UInt8) : decode (encodeByte b ++ rest) = b :: decode rest := by
  have hb : b.toNat < 256 := b.toNat_lt
  have hhigh := hexValue?_hexDigit (n := b.toNat / 16) (by omega)
  have hlow := hexValue?_hexDigit (n := b.toNat % 16) (by omega)
  have hsum : 16 * (b.toNat / 16) + b.toNat % 16 = b.toNat := by omega
  show decode ('%' :: hexDigit (b.toNat / 16) :: hexDigit (b.toNat % 16) :: rest) = _
  rw [decode.eq_1, hhigh, hlow]
  simp only [hsum, UInt8.ofNat_toNat]

theorem decode_encodeBytes (bs : List UInt8) :
    decode (bs.flatMap encodeByte ++ rest) = bs ++ decode rest := by
  induction bs with
  | nil => rfl
  | cons b bs ih =>
    rw [List.flatMap_cons, List.append_assoc, decode_encodeByte, ih, List.cons_append]

theorem decode_encode_append (hkeep : keep '%' = false) :
    decode (encode keep cs ++ rest) = Utf8.encode cs ++ decode rest := by
  induction cs with
  | nil => rfl
  | cons c cs ih =>
    have hencode : encode keep (c :: cs) =
        (if keep c then [c] else (String.utf8EncodeChar c).flatMap encodeByte) ++ encode keep cs :=
      rfl
    have hutf8 : Utf8.encode (c :: cs) = String.utf8EncodeChar c ++ Utf8.encode cs := rfl
    rw [hencode, hutf8, List.append_assoc, List.append_assoc, ← ih]
    split
    · rename_i hc
      have hne : c ≠ '%' := by
        intro h
        rw [h, hkeep] at hc
        cases hc
      exact decode_cons hne
    · exact decode_encodeBytes _

theorem decodeText_encode (hkeep : keep '%' = false) (cs : List Char) :
    decodeText (encode keep cs) = cs := by
  have h : decode (encode keep cs ++ []) = Utf8.encode cs ++ decode [] :=
    decode_encode_append hkeep
  have hnil : decode [] = [] := rfl
  rw [List.append_nil, hnil, List.append_nil] at h
  rw [decodeText, h, Utf8.decode?_encode]
  rfl

theorem mem_encodeBytes {c : Char} {bs : List UInt8} (h : c ∈ bs.flatMap encodeByte) :
    c = '%' ∨ ∃ n < 16, c = hexDigit n := by
  obtain ⟨b, -, hb⟩ := List.mem_flatMap.1 h
  have hlt : b.toNat < 256 := b.toNat_lt
  simp only [encodeByte, List.mem_cons, List.not_mem_nil, or_false] at hb
  rcases hb with rfl | rfl | rfl
  · exact .inl rfl
  · exact .inr ⟨b.toNat / 16, by omega, rfl⟩
  · exact .inr ⟨b.toNat % 16, by omega, rfl⟩

/-- The characters of a coded text: those that are kept, percent signs and hexadecimal digits. -/
theorem mem_encode {c : Char} (h : c ∈ encode keep cs) :
    keep c = true ∨ c = '%' ∨ ∃ n < 16, c = hexDigit n := by
  obtain ⟨d, -, hd⟩ := List.mem_flatMap.1 h
  split at hd
  · rename_i hkeep
    rw [List.mem_singleton.1 hd]
    exact .inl hkeep
  · exact .inr (mem_encodeBytes hd)

theorem encode_ne_nil (hkeep : keep '%' = false) (h : cs ≠ []) : encode keep cs ≠ [] := by
  intro hnil
  have hdecode := decodeText_encode hkeep cs
  rw [hnil] at hdecode
  exact h hdecode.symm

theorem encode_of_keep (h : ∀ c ∈ cs, keep c = true) : encode keep cs = cs := by
  induction cs with
  | nil => rfl
  | cons c cs ih =>
    rw [List.forall_mem_cons] at h
    have hcs := ih h.2
    unfold encode at hcs ⊢
    rw [List.flatMap_cons, if_pos h.1, hcs]
    rfl

/-- The coding of one character. -/
def codeChar (keep : Char → Bool) (c : Char) : List Char :=
  if keep c then [c] else (String.utf8EncodeChar c).flatMap encodeByte

theorem encode_cons (keep : Char → Bool) (c : Char) (cs : List Char) :
    encode keep (c :: cs) = codeChar keep c ++ encode keep cs := rfl

theorem codeChar_of_keep {c : Char} (h : keep c = true) : codeChar keep c = [c] := if_pos h

theorem codeChar_of_not_keep {c : Char} (h : keep c = false) :
    codeChar keep c = (String.utf8EncodeChar c).flatMap encodeByte := if_neg (by simp [h])

theorem exists_codeChar_of_not_keep {c : Char} (h : keep c = false) :
    ∃ cs, codeChar keep c = '%' :: cs := by
  rw [codeChar_of_not_keep h]
  obtain ⟨b, bs, hbytes⟩ := List.exists_cons_of_ne_nil (String.utf8EncodeChar_ne_nil (c := c))
  rw [hbytes, List.flatMap_cons]
  exact ⟨_, rfl⟩

theorem codeChar_ne_nil (keep : Char → Bool) (c : Char) : codeChar keep c ≠ [] := by
  cases h : keep c with
  | true => rw [codeChar_of_keep h]; exact List.cons_ne_nil c []
  | false =>
    obtain ⟨cs, hcs⟩ := exists_codeChar_of_not_keep h
    rw [hcs]
    exact List.cons_ne_nil _ _

/-- A character that no code holds stands in the coding of itself only. -/
theorem not_mem_codeChar {c d : Char} (hpercent : d ≠ '%') (hdigit : hexValue? d = none)
    (hne : c ≠ d) : d ∉ codeChar keep c := by
  intro hd
  cases h : keep c with
  | true =>
    rw [codeChar_of_keep h] at hd
    exact hne (List.mem_singleton.1 hd).symm
  | false =>
    rw [codeChar_of_not_keep h] at hd
    rcases mem_encodeBytes hd with rfl | ⟨n, hn, rfl⟩
    · exact hpercent rfl
    · cases (hexValue?_hexDigit hn).symm.trans hdigit

/-- The characters that percent coding consists of stand for themselves. -/
structure KeepsCodes (keep : Char → Bool) : Prop where
  percent : keep '%' = true
  digit : ∀ c, keep c = false → hexValue? c = none

/-- The byte that two digits in front make up, and what follows them. -/
def hexPair? : List Char → Option (UInt8 × List Char)
  | a :: b :: cs =>
    match hexValue? a, hexValue? b with
    | some x, some y => some (UInt8.ofNat (16 * x + y), cs)
    | _, _ => none
  | _ => none

theorem decode_percent (cs : List Char) : decode ('%' :: cs) =
    match hexPair? cs with
    | some (b, rest) => b :: decode rest
    | none => String.utf8EncodeChar '%' ++ decode cs := by
  cases cs with
  | nil => rfl
  | cons a cs =>
    cases cs with
    | nil => rfl
    | cons b cs =>
      rw [decode.eq_1, hexPair?]
      cases hexValue? a <;> cases hexValue? b <;> rfl

theorem hexPair?_of_head {a : Char} (h : hexValue? a = none) (cs : List Char) :
    hexPair? (a :: cs) = none := by
  cases cs <;> simp [hexPair?, h]

theorem hexPair?_of_second {b : Char} (h : hexValue? b = none) (a : Char) (cs : List Char) :
    hexPair? (a :: b :: cs) = none := by
  cases ha : hexValue? a <;> simp [hexPair?, ha, h]

theorem length_lt_of_hexPair? {b : UInt8} (h : hexPair? cs = some (b, rest)) :
    rest.length < cs.length := by
  unfold hexPair? at h
  split at h
  · split at h
    · cases h
      simp only [List.length_cons]
      omega
    · cases h
  · cases h

theorem hexPair?_encode (hkeep : KeepsCodes keep) (cs : List Char) :
    hexPair? (encode keep cs) = (hexPair? cs).map fun (b, rest) => (b, encode keep rest) := by
  have hpercent : hexValue? '%' = none := by decide
  cases cs with
  | nil => rfl
  | cons a cs =>
    cases ha : keep a with
    | false =>
      obtain ⟨as, has⟩ := exists_codeChar_of_not_keep ha
      rw [encode_cons, has, List.cons_append, hexPair?_of_head hpercent,
        hexPair?_of_head (hkeep.digit a ha), Option.map_none]
    | true =>
      rw [encode_cons, codeChar_of_keep ha, List.singleton_append]
      cases cs with
      | nil => rfl
      | cons b cs =>
        cases hb : keep b with
        | false =>
          obtain ⟨bs, hbs⟩ := exists_codeChar_of_not_keep hb
          rw [encode_cons, hbs, List.cons_append, hexPair?_of_second hpercent,
            hexPair?_of_second (hkeep.digit b hb), Option.map_none]
        | true =>
          rw [encode_cons, codeChar_of_keep hb, List.singleton_append, hexPair?, hexPair?]
          cases hexValue? a <;> cases hexValue? b <;> rfl

theorem decode_encode_of_keepsCodes (hkeep : KeepsCodes keep) (cs : List Char) :
    decode (encode keep cs) = decode cs := by
  induction hn : cs.length using Nat.strongRecOn generalizing cs with
  | _ n ih =>
    subst hn
    cases cs with
    | nil => rfl
    | cons c cs =>
      have hcs := ih cs.length (Nat.lt_succ_self _) cs rfl
      by_cases hc : c = '%'
      · subst hc
        rw [encode_cons, codeChar_of_keep hkeep.percent, List.singleton_append, decode_percent,
          decode_percent, hexPair?_encode hkeep]
        cases hpair : hexPair? cs with
        | none => exact congrArg (String.utf8EncodeChar '%' ++ ·) hcs
        | some pair =>
          have hlt := length_lt_of_hexPair? hpair
          exact congrArg (pair.1 :: ·)
            (ih pair.2.length (Nat.lt_succ_of_lt hlt) pair.2 rfl)
      · rw [encode_cons, decode_cons hc]
        cases hk : keep c with
        | true => rw [codeChar_of_keep hk, List.singleton_append, decode_cons hc, hcs]
        | false => rw [codeChar_of_not_keep hk, decode_encodeBytes, hcs]

end Routes.Text.Percent
