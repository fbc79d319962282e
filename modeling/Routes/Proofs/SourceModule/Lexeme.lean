import Routes.SourceModule
import Routes.Text.Percent
/-!
The lexemes of source text, as far as expressions need them: words, literals of text, marks and the
separator of paths. The reader goes from character to character and refuses everything else. Main
statement: a quoted text is read as the literal of that text.
-/
namespace Routes.SourceText
open Text (Quoted.escape Quoted.codePoint)
open Text.Percent (hexValue?)

inductive Lexeme where
  | word (text : String)
  | text (value : String)
  | mark (c : Char)
  | path
deriving DecidableEq, Repr

/-- Where a reader stands inside a literal: behind a backslash, in a code of two digits, in front of
the brace of a code point, among its digits, or in the margin of a line that is continued. -/
inductive Place where
  | plain
  | escape
  | byte (high : Option Nat)
  | brace
  | code (value digits : Nat)
  | margin
deriving DecidableEq, Repr

/-- Between lexemes, or inside one of which some characters are read. -/
inductive Mode where
  | gap
  | word (cs : List Char)
  | colon
  | text (cs : List Char) (place : Place)
deriving DecidableEq, Repr

namespace Place

def ofPlain (c : Char) : Option (List Char × Place) :=
  if c = '\\' then some ([], escape) else if c = '\r' then none else some ([c], plain)

/-- What a letter behind a backslash stands for. -/
def ofEscape : Char → Option (List Char × Place)
  | 'n' => some (['\n'], plain)
  | 'r' => some (['\r'], plain)
  | 't' => some (['\t'], plain)
  | '0' => some (['\x00'], plain)
  | '\\' => some (['\\'], plain)
  | '\'' => some (['\''], plain)
  | '"' => some (['"'], plain)
  | 'x' => some ([], byte none)
  | 'u' => some ([], brace)
  | '\n' => some ([], margin)
  | _ => none

/-- A byte is an ASCII character, and a code point has one to six digits. -/
def step : Place → Char → Option (List Char × Place)
  | plain, c => ofPlain c
  | escape, c => ofEscape c
  | byte none, c => (hexValue? c).map fun d => ([], byte (some d))
  | byte (some high), c =>
    if high < 8 then (hexValue? c).map fun d => ([Char.ofNat (16 * high + d)], plain) else none
  | brace, c => if c = '\x7b' then some ([], code 0 0) else none
  | code n k, c =>
    if c = '\x7d' then if 0 < k ∧ n.isValidChar then some ([Char.ofNat n], plain) else none
    else if c = '_' then if 0 < k then some ([], code n k) else none
    else if k < 6 then (hexValue? c).map fun d => ([], code (16 * n + d) (k + 1)) else none
  | margin, c => if c = ' ' ∨ c = '\t' ∨ c = '\n' then some ([], margin) else ofPlain c

/-- A quotation mark ends the literal. -/
def isEnd (p : Place) : Bool := p == plain || p == margin

end Place

def isGap (c : Char) : Bool :=
  [' ', '\t', '\n', '\r', '\x0b', '\x0c', '\u0085', '\u200e', '\u200f', '\u2028',
    '\u2029'].contains c

def isMark (c : Char) : Bool :=
  ['(', ')', '[', ']', '\x7b', '\x7d', ',', '.', '!', '&'].contains c

/-- A character between lexemes. -/
def enter (c : Char) : Option (List Lexeme × Mode) :=
  if isGap c then some ([], .gap)
  else if c.isAlpha || c == '_' then some ([], .word [c])
  else if c = '"' then some ([], .text [] .plain)
  else if c = ':' then some ([], .colon)
  else if isMark c then some ([.mark c], .gap)
  else none

/-- The lexemes that end with a character, and where the reader stands behind it. -/
def Mode.step : Mode → Char → Option (List Lexeme × Mode)
  | gap, c => enter c
  | word cs, c =>
    if c.isAlphanum || c == '_' then some ([], word (cs ++ [c]))
    else (enter c).map fun (ls, m) => (.word (String.ofList cs) :: ls, m)
  | colon, c =>
    if c = ':' then some ([.path], gap) else (enter c).map fun (ls, m) => (.mark ':' :: ls, m)
  | text cs p, c =>
    if c = '"' ∧ p.isEnd then some ([.text (String.ofList cs)], gap)
    else (p.step c).map fun (ds, p) => ([], text (cs ++ ds) p)

def scan : Mode → List Char → Option (List Lexeme × Mode)
  | m, [] => some ([], m)
  | m, c :: cs =>
    match m.step c with
    | none => none
    | some (ls, m) => (scan m cs).map fun (ls', m) => (ls ++ ls', m)

variable {m m' m'' : Mode} {ls ls' : List Lexeme} {cs ds : List Char}

theorem scan_append (h : scan m cs = some (ls, m')) (h' : scan m' ds = some (ls', m'')) :
    scan m (cs ++ ds) = some (ls ++ ls', m'') := by
  induction cs generalizing m ls with
  | nil =>
    cases h
    exact h'
  | cons c cs ih =>
    rw [List.cons_append, scan]
    rw [scan] at h
    cases hstep : m.step c with
    | none =>
      rw [hstep] at h
      cases h
    | some next =>
      rw [hstep] at h
      obtain ⟨⟨ls₂, m₂⟩, hscan, heq⟩ := Option.map_eq_some_iff.1 h
      cases heq
      simp only [ih hscan, Option.map_some, List.append_assoc]

section Literal

theorem scan_digit {d n k : Nat} (hd : d < 16) (hk : k < 6) :
    scan (.text cs (.code n k)) [Nat.digitChar d] =
      some ([], .text cs (.code (16 * n + d) (k + 1))) := by
  have hall : ∀ d < 16, Nat.digitChar d ≠ '"' ∧ Nat.digitChar d ≠ '\x7d' ∧
      Nat.digitChar d ≠ '_' ∧ hexValue? (Nat.digitChar d) = some d := by decide
  obtain ⟨hquote, hbrace, hline, hvalue⟩ := hall d hd
  simp [scan, Mode.step, Place.step, hquote, hbrace, hline, hvalue, hk]

/-- Digits are read from the highest to the lowest. -/
theorem scan_toDigits (n : Nat) (hlength : (Nat.toDigits 16 n).length ≤ 6) :
    scan (.text cs (.code 0 0)) (Nat.toDigits 16 n) =
      some ([], .text cs (.code n (Nat.toDigits 16 n).length)) := by
  induction n using Nat.strongRecOn with
  | _ n ih =>
    rw [Nat.toDigits_eq_if (by decide)] at hlength ⊢
    split at hlength
    · rename_i hlt
      rw [if_pos hlt]
      have honly : scan (.text cs (.code 0 0)) [Nat.digitChar n] =
          some ([], .text cs (.code (16 * 0 + n) 1)) := scan_digit hlt (by decide)
      simpa using honly
    · rename_i hge
      rw [if_neg hge]
      rw [List.length_append, List.length_singleton] at hlength ⊢
      have hfront := ih (n / 16) (by omega) (by omega)
      have hlast : scan (.text cs (.code (n / 16) (Nat.toDigits 16 (n / 16)).length))
          [Nat.digitChar (n % 16)] = some ([], .text cs (.code (16 * (n / 16) + n % 16)
            ((Nat.toDigits 16 (n / 16)).length + 1))) := scan_digit (by omega) (by omega)
      rw [Nat.div_add_mod] at hlast
      exact scan_append hfront hlast

theorem scan_codePoint (c : Char) : scan (.text cs .plain) (Quoted.codePoint c) =
    some ([], .text (cs ++ [c]) .plain) := by
  have hvalid : c.toNat.isValidChar := c.valid
  have hlength : (Nat.toDigits 16 c.toNat).length ≤ 6 := by
    rw [Nat.length_toDigits_le_iff (by decide) (by decide)]
    unfold Nat.isValidChar at hvalid
    omega
  have hpos : 0 < (Nat.toDigits 16 c.toNat).length := Nat.length_toDigits_pos
  have hbegin : scan (.text cs .plain) ['\\', 'u', '\x7b'] = some ([], .text cs (.code 0 0)) := by
    simp [scan, Mode.step, Place.step, Place.isEnd, Place.ofPlain, Place.ofEscape]
  have hend : scan (.text cs (.code c.toNat (Nat.toDigits 16 c.toNat).length)) ['\x7d'] =
      some ([], .text (cs ++ [c]) .plain) := by
    simp [scan, Mode.step, Place.step, hpos, hvalid]
  exact scan_append hbegin (scan_append (scan_toDigits c.toNat hlength) hend)

theorem scan_short {c d : Char} (h : Place.ofEscape d = some ([c], .plain)) :
    scan (.text cs .plain) ['\\', d] = some ([], .text (cs ++ [c]) .plain) := by
  simp [scan, Mode.step, Place.step, Place.isEnd, Place.ofPlain, h]

theorem scan_plain {c : Char} (hslash : c ≠ '\\') (hquote : c ≠ '"') (hreturn : c ≠ '\r') :
    scan (.text cs .plain) [c] = some ([], .text (cs ++ [c]) .plain) := by
  simp [scan, Mode.step, Place.step, Place.ofPlain, hslash, hquote, hreturn]

theorem scan_escape (c : Char) : scan (.text cs .plain) (Quoted.escape '"' c) =
    some ([], .text (cs ++ [c]) .plain) := by
  by_cases htab : c = '\t'
  · exact htab ▸ scan_short rfl
  by_cases hreturn : c = '\r'
  · exact hreturn ▸ scan_short rfl
  by_cases hline : c = '\n'
  · exact hline ▸ scan_short rfl
  by_cases hnull : c = '\x00'
  · exact hnull ▸ scan_short rfl
  by_cases hslash : c = '\\'
  · subst hslash
    exact scan_short rfl
  by_cases hquote : c = '"'
  · subst hquote
    exact scan_short rfl
  rw [Quoted.escape, if_neg htab, if_neg hreturn, if_neg hline, if_neg hnull, if_neg hslash,
    if_neg hquote]
  split
  · exact scan_codePoint c
  · exact scan_plain hslash hquote hreturn

theorem scan_flatMap_escape (ds : List Char) :
    scan (.text cs .plain) (ds.flatMap (Quoted.escape '"')) =
      some ([], .text (cs ++ ds) .plain) := by
  induction ds generalizing cs with
  | nil => simp [scan]
  | cons d ds ih =>
    have hrest : scan (.text (cs ++ [d]) .plain) (ds.flatMap (Quoted.escape '"')) =
        some ([], .text ((cs ++ [d]) ++ ds) .plain) := ih
    rw [List.append_assoc, List.singleton_append] at hrest
    exact scan_append (scan_escape d) hrest

/-- Whatever characters a text holds, its quoted form is its literal and nothing else. -/
theorem scan_quote (s : String) : scan .gap (SourceModule.quote s) = some ([.text s], .gap) := by
  have hopen : scan .gap ['"'] = some ([], .text [] .plain) := by decide
  have hclose : scan (.text s.toList .plain) ['"'] = some ([.text s], .gap) := by
    simp [scan, Mode.step, Place.isEnd]
  have hquote : SourceModule.quote s =
      ['"'] ++ (s.toList.flatMap (Quoted.escape '"') ++ ['"']) := by
    rw [SourceModule.quote, Text.Quoted.text, String.toList_ofList]
    rfl
  rw [hquote]
  exact scan_append hopen (scan_append (scan_flatMap_escape s.toList) hclose)

/-- Escapes that quoted texts do not hold are read too. -/
example : scan .gap "a::b(\"\\x41\\u\x7b1_F600\x7d\\\n  '\")".toList =
    some ([.word "a", .path, .word "b", .mark '(', .text "A😀'", .mark ')'], .gap) := by
  decide

end Literal
end Routes.SourceText
