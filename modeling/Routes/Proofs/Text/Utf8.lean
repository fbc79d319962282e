import Routes.Text.Utf8
/-!
Reading UTF-8 back. The bytes of a character are read as that character, whatever follows them, so
the bytes of a text decode to the text.
-/
namespace Routes.Text.Utf8
variable {a b c d : UInt8} {rest : List UInt8}

theorem toNat_ofNat_of_lt {n : Nat} (h : n < 256) : (UInt8.ofNat n).toNat = n := by
  rw [UInt8.toNat_ofNat']
  exact Nat.mod_eq_of_lt h

theorem continues_iff : continues b = true ↔ 0x80 ≤ b.toNat ∧ b.toNat ≤ 0xBF := by
  simp [continues, UInt8.le_iff_toNat_le]

theorem second3_of_bounds (hb : 0x80 ≤ b.toNat) (hb' : b.toNat ≤ 0xBF)
    (hlow : a.toNat = 0xE0 → 0xA0 ≤ b.toNat) (hhigh : a.toNat = 0xED → b.toNat ≤ 0x9F) :
    second3 a b = true := by
  have hE0 : a = 0xE0 → a.toNat = 0xE0 := fun h => by rw [h]; rfl
  have hED : a = 0xED → a.toNat = 0xED := fun h => by rw [h]; rfl
  unfold second3
  split
  · rename_i h
    have hle := hlow (hE0 (beq_iff_eq.1 h))
    simpa [UInt8.le_iff_toNat_le] using And.intro hle hb'
  · split
    · rename_i h
      have hle := hhigh (hED (beq_iff_eq.1 h))
      simpa [UInt8.le_iff_toNat_le] using And.intro hb hle
    · exact continues_iff.2 ⟨hb, hb'⟩

theorem second4_of_bounds (hb : 0x80 ≤ b.toNat) (hb' : b.toNat ≤ 0xBF)
    (hlow : a.toNat = 0xF0 → 0x90 ≤ b.toNat) (hhigh : a.toNat = 0xF4 → b.toNat ≤ 0x8F) :
    second4 a b = true := by
  have hF0 : a = 0xF0 → a.toNat = 0xF0 := fun h => by rw [h]; rfl
  have hF4 : a = 0xF4 → a.toNat = 0xF4 := fun h => by rw [h]; rfl
  unfold second4
  split
  · rename_i h
    have hle := hlow (hF0 (beq_iff_eq.1 h))
    simpa [UInt8.le_iff_toNat_le] using And.intro hle hb'
  · split
    · rename_i h
      have hle := hhigh (hF4 (beq_iff_eq.1 h))
      simpa [UInt8.le_iff_toNat_le] using And.intro hb hle
    · exact continues_iff.2 ⟨hb, hb'⟩

section Readings

theorem readings_one (ha : a.toNat < 0x80) :
    readings (a :: rest) = some (Char.ofNat a.toNat) :: readings rest := by
  have h : a < 0x80 := UInt8.lt_iff_toNat_lt.2 ha
  rw [readings.eq_def]
  exact if_pos h

theorem readings_two (ha : 0xC2 ≤ a.toNat) (ha' : a.toNat ≤ 0xDF) (hb : continues b = true) :
    readings (a :: b :: rest) = some (combine a 5 [b]) :: readings rest := by
  have h₁ : ¬a < 0x80 := by
    rw [UInt8.lt_iff_toNat_lt]
    have h : (0x80 : UInt8).toNat = 0x80 := rfl
    omega
  have h₂ : (decide (0xC2 ≤ a) && decide (a ≤ 0xDF)) = true := by
    simpa [UInt8.le_iff_toNat_le] using And.intro ha ha'
  rw [readings.eq_def]
  dsimp only
  rw [if_neg h₁, if_pos h₂, if_pos hb]

theorem readings_three (ha : 0xE0 ≤ a.toNat) (ha' : a.toNat ≤ 0xEF) (hb : second3 a b = true)
    (hc : continues c = true) :
    readings (a :: b :: c :: rest) = some (combine a 4 [b, c]) :: readings rest := by
  have h₁ : ¬a < 0x80 := by
    rw [UInt8.lt_iff_toNat_lt]
    have h : (0x80 : UInt8).toNat = 0x80 := rfl
    omega
  have h₂ : ¬(decide (0xC2 ≤ a) && decide (a ≤ 0xDF)) = true := by
    have h : (0xDF : UInt8).toNat = 0xDF := rfl
    simp only [Bool.and_eq_true, decide_eq_true_eq, UInt8.le_iff_toNat_le]
    omega
  have h₃ : (decide (0xE0 ≤ a) && decide (a ≤ 0xEF)) = true := by
    simpa [UInt8.le_iff_toNat_le] using And.intro ha ha'
  rw [readings.eq_def]
  dsimp only
  rw [if_neg h₁, if_neg h₂, if_pos h₃, if_pos hb, if_pos hc]

theorem readings_four (ha : 0xF0 ≤ a.toNat) (ha' : a.toNat ≤ 0xF4) (hb : second4 a b = true)
    (hc : continues c = true) (hd : continues d = true) :
    readings (a :: b :: c :: d :: rest) = some (combine a 3 [b, c, d]) :: readings rest := by
  have h₁ : ¬a < 0x80 := by
    rw [UInt8.lt_iff_toNat_lt]
    have h : (0x80 : UInt8).toNat = 0x80 := rfl
    omega
  have h₂ : ¬(decide (0xC2 ≤ a) && decide (a ≤ 0xDF)) = true := by
    have h : (0xDF : UInt8).toNat = 0xDF := rfl
    simp only [Bool.and_eq_true, decide_eq_true_eq, UInt8.le_iff_toNat_le]
    omega
  have h₃ : ¬(decide (0xE0 ≤ a) && decide (a ≤ 0xEF)) = true := by
    have h : (0xEF : UInt8).toNat = 0xEF := rfl
    simp only [Bool.and_eq_true, decide_eq_true_eq, UInt8.le_iff_toNat_le]
    omega
  have h₄ : (decide (0xF0 ≤ a) && decide (a ≤ 0xF4)) = true := by
    simpa [UInt8.le_iff_toNat_le] using And.intro ha ha'
  rw [readings.eq_def]
  dsimp only
  rw [if_neg h₁, if_neg h₂, if_neg h₃, if_pos h₄, if_pos hb, if_pos hc, if_pos hd]

end Readings

/-- The number that the bytes of a character make up is the character. -/
theorem combine_eq {n : Nat} {bits : Nat} {bs : List UInt8} (c : Char)
    (h : bs.foldl (fun n b => n * 64 + b.toNat % 64) (a.toNat % Nat.pow 2 bits) = n)
    (hn : n = c.toNat) : combine a bits bs = c := by
  rw [combine, h, hn, Char.ofNat_toNat]

theorem readings_encodeChar (c : Char) (rest : List UInt8) :
    readings (String.utf8EncodeChar c ++ rest) = some c :: readings rest := by
  have hvalid : c.toNat < 0xD800 ∨ 0xDFFF < c.toNat ∧ c.toNat < 0x110000 := c.valid
  have hval : c.val.toNat = c.toNat := rfl
  unfold String.utf8EncodeChar
  simp only [hval]
  generalize hv : c.toNat = v at hvalid
  split
  · rename_i h
    have ha := toNat_ofNat_of_lt (n := v) (by omega)
    rw [List.singleton_append, readings_one (by omega), ha, ← hv, Char.ofNat_toNat]
  · split
    · rename_i h₁ h₂
      have ha := toNat_ofNat_of_lt (n := v / 64 % 32 + 192) (by omega)
      have hb := toNat_ofNat_of_lt (n := v % 64 + 128) (by omega)
      rw [List.cons_append, List.singleton_append,
        readings_two (by omega) (by omega) (continues_iff.2 (by omega)),
        combine_eq c rfl ?_]
      simp only [List.foldl_cons, List.foldl_nil, ha, hb, hv, Nat.pow_eq]
      omega
    · split
      · rename_i h₁ h₂ h₃
        have ha := toNat_ofNat_of_lt (n := v / 4096 % 16 + 224) (by omega)
        have hb := toNat_ofNat_of_lt (n := v / 64 % 64 + 128) (by omega)
        have hc := toNat_ofNat_of_lt (n := v % 64 + 128) (by omega)
        rw [List.cons_append, List.cons_append, List.singleton_append,
          readings_three (by omega) (by omega)
            (second3_of_bounds (by omega) (by omega) (by omega) (by omega))
            (continues_iff.2 (by omega)),
          combine_eq c rfl ?_]
        simp only [List.foldl_cons, List.foldl_nil, ha, hb, hc, hv, Nat.pow_eq]
        omega
      · rename_i h₁ h₂ h₃
        have ha := toNat_ofNat_of_lt (n := v / 262144 % 8 + 240) (by omega)
        have hb := toNat_ofNat_of_lt (n := v / 4096 % 64 + 128) (by omega)
        have hc := toNat_ofNat_of_lt (n := v / 64 % 64 + 128) (by omega)
        have hd := toNat_ofNat_of_lt (n := v % 64 + 128) (by omega)
        rw [List.cons_append, List.cons_append, List.cons_append, List.singleton_append,
          readings_four (by omega) (by omega)
            (second4_of_bounds (by omega) (by omega) (by omega) (by omega))
            (continues_iff.2 (by omega)) (continues_iff.2 (by omega)),
          combine_eq c rfl ?_]
        simp only [List.foldl_cons, List.foldl_nil, ha, hb, hc, hd, hv, Nat.pow_eq]
        omega

theorem readings_encode (cs : List Char) (rest : List UInt8) :
    readings (encode cs ++ rest) = cs.map some ++ readings rest := by
  induction cs with
  | nil => rfl
  | cons c cs ih =>
    have hencode : encode (c :: cs) = String.utf8EncodeChar c ++ encode cs := rfl
    rw [hencode, List.append_assoc, readings_encodeChar, ih]
    rfl

theorem mapM_map_some (cs : List Char) : (cs.map some).mapM id = some cs := by
  induction cs with
  | nil => rfl
  | cons c cs ih => simp only [List.map_cons, List.mapM_cons, ih]; rfl

theorem decode?_encode (cs : List Char) : decode? (encode cs) = some cs := by
  have hreadings := readings_encode cs []
  rw [List.append_nil, readings.eq_1, List.append_nil] at hreadings
  rw [decode?, hreadings, mapM_map_some]

end Routes.Text.Utf8
