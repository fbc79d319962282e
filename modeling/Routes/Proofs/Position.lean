import Mathlib.Data.List.Induction
import Routes.Position
/-!
Where a text ends. The place that is reached by going on from the start, one character after the
other, has the line and the column that one counts in the text in front of it.
-/
namespace Routes

namespace Text

/-- The characters behind the last line feed of a text, the latest first. -/
def lastLine (cs : List Char) : List Char := cs.reverse.takeWhile (· != '\n')

@[simp] theorem lastLine_nil : lastLine [] = [] := rfl

@[simp] theorem lastLine_newline (cs : List Char) : lastLine (cs ++ ['\n']) = [] := by
  simp [lastLine]

theorem lastLine_concat {c : Char} (cs : List Char) (h : c ≠ '\n') :
    lastLine (cs ++ [c]) = c :: lastLine cs := by
  simp [lastLine, h]

@[simp] theorem byteLength_append (a b : List Char) :
    byteLength (a ++ b) = byteLength a + byteLength b := by
  induction a with
  | nil => simp [byteLength]
  | cons c a ih =>
    simp only [List.cons_append, byteLength, ih]
    omega

theorem byteLength_pos {cs : List Char} (h : cs ≠ []) : 0 < byteLength cs := by
  cases cs with
  | nil => exact absurd rfl h
  | cons c cs =>
    have hc : 0 < c.utf8Size := c.utf8Size_pos
    simp only [byteLength]
    omega

theorem length_le_byteLength (cs : List Char) : cs.length ≤ byteLength cs := by
  induction cs with
  | nil => exact Nat.le_refl 0
  | cons c cs ih =>
    have hc : 0 < c.utf8Size := c.utf8Size_pos
    simp only [List.length_cons, byteLength]
    omega

theorem length_lastLine_le (cs : List Char) : (lastLine cs).length ≤ cs.length := by
  have hsublist := (List.takeWhile_sublist (l := cs.reverse) (p := (· != '\n'))).length_le
  rwa [List.length_reverse] at hsublist

/-- A text has at most one beginning of a given number of bytes. -/
theorem append_inj_of_byteLength {a b x y : List Char} (h : a ++ x = b ++ y)
    (hlength : byteLength a = byteLength b) : a = b ∧ x = y := by
  have hnil : ∀ {z : List Char}, byteLength z = 0 → z = [] := by
    intro z hz
    by_cases hne : z = []
    · exact hne
    · have hpos := byteLength_pos hne
      omega
  rcases List.append_eq_append_iff.1 h with ⟨z, hb, hx⟩ | ⟨z, ha, hy⟩
  · have hz : z = [] := hnil (by rw [hb, byteLength_append] at hlength; omega)
    simp [hb, hx, hz]
  · have hz : z = [] := hnil (by rw [ha, byteLength_append] at hlength; omega)
    simp [ha, hy, hz]

end Text

namespace Position
variable {p : Position} {before : List Char}

/-- The place behind a text: its offset is the number of bytes, its line one more than the number of
line feeds, and its column one more than the number of characters since the last of them, both as
words of 32 bits. -/
structure IsBehind (p : Position) (before : List Char) : Prop where
  offset : p.offset = Text.byteLength before
  line : p.line = UInt32.ofNat (1 + before.count '\n')
  column : p.column = UInt32.ofNat (1 + (Text.lastLine before).length)

/-- The numbers are those that one counts in a text of fewer bytes than the words can count. -/
theorem IsBehind.toNat_eq (h : p.IsBehind before)
    (hsize : 1 + Text.byteLength before < UInt32.size) :
    p.line.toNat = 1 + before.count '\n' ∧
      p.column.toNat = 1 + (Text.lastLine before).length := by
  have hlength : before.length ≤ Text.byteLength before := Text.length_le_byteLength before
  have hlines : before.count '\n' ≤ before.length := List.count_le_length
  have hcolumns : (Text.lastLine before).length ≤ before.length := Text.length_lastLine_le before
  rw [h.line, h.column]
  exact ⟨UInt32.toNat_ofNat_of_lt' (by omega), UInt32.toNat_ofNat_of_lt' (by omega)⟩

theorem isBehind_step {c : Char} (h : p.IsBehind before) : (p.step c).IsBehind (before ++ [c]) := by
  have hsize : Text.byteLength (before ++ [c]) = Text.byteLength before + c.utf8Size := by
    simp [Text.byteLength]
  by_cases hc : c = '\n'
  · subst hc
    refine ⟨?_, ?_, ?_⟩
    · simp [step, hsize, h.offset]
    · simp [step, h.line, UInt32.ofNat_add, UInt32.add_assoc]
    · simp [step]
  · refine ⟨?_, ?_, ?_⟩
    · simp [step, hc, hsize, h.offset]
    · simp [step, hc, h.line]
    · simp [step, hc, h.column, Text.lastLine_concat before hc, UInt32.ofNat_add,
        UInt32.add_assoc]

theorem isBehind_advance (before : List Char) : (start.advance before).IsBehind before := by
  induction before using List.reverseRecOn with
  | nil => exact ⟨rfl, rfl, rfl⟩
  | append_singleton cs c ih =>
    rw [advance_append]
    exact isBehind_step ih

/-- A text has one place behind it. -/
theorem eq_advance_of_isBehind (h : p.IsBehind before) : p = start.advance before := by
  have h' := isBehind_advance before
  generalize start.advance before = q at h'
  obtain ⟨line, column, offset⟩ := p
  obtain ⟨line', column', offset'⟩ := q
  have hoffset : offset = offset' := h.offset.trans h'.offset.symm
  have hline : line = line' := h.line.trans h'.line.symm
  have hcolumn : column = column' := h.column.trans h'.column.symm
  rw [hoffset, hline, hcolumn]

/-- The same column some lines and bytes further on. -/
def moved (lines bytes : Nat) (p : Position) : Position :=
  ⟨p.line + UInt32.ofNat lines, p.column, p.offset + bytes⟩

theorem step_moved (lines bytes : Nat) (p : Position) (c : Char) :
    (p.moved lines bytes).step c = (p.step c).moved lines bytes := by
  by_cases hc : c = '\n'
  · have hline : p.line + UInt32.ofNat lines + 1 = p.line + 1 + UInt32.ofNat lines := by
      rw [UInt32.add_assoc, UInt32.add_comm _ 1, ← UInt32.add_assoc]
    simp [step, moved, hc, Nat.add_right_comm, hline]
  · simp [step, moved, hc, Nat.add_right_comm]

theorem advance_moved (lines bytes : Nat) (p : Position) (cs : List Char) :
    (p.moved lines bytes).advance cs = (p.advance cs).moved lines bytes := by
  induction cs generalizing p with
  | nil => rfl
  | cons c cs ih => rw [advance_cons, step_moved, ih, advance_cons]

/-- A text on a new line starts where it would by itself, but for the lines and bytes above it. -/
theorem advance_line (before : List Char) : start.advance (before ++ ['\n']) =
    start.moved (before.count '\n' + 1) (Text.byteLength before + 1) := by
  refine (eq_advance_of_isBehind ⟨?_, ?_, ?_⟩).symm
  · simp [moved, start, Text.byteLength]
    decide
  · simp [moved, start, UInt32.ofNat_add]
  · simp [moved, start]

end Position
end Routes
