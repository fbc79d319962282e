import Routes.Proofs.Grammar.Alike
import Routes.Proofs.Grammar.Marks
import Routes.Proofs.RouteData.Spelling
import Routes.Proofs.Token.Resume
/-!
The two notations of a parameter. Main statements: a parameter in brackets is scanned as one,
whatever identifier it is named, and one behind a colon is unless its name is that of the marker.
-/
namespace Routes.Token
open Text (byteLength lower)
open Grammar (IsPart IsKind)
variable {w v x y rest : List Char} {c : Char} {k : Keyword} {p : Position} {t : Token}
  {ts us : List Token} {kind : ParamKind} {kindText : Option (List Char)}

/-- A parameter in brackets, with its kind if one is written. -/
def bracketText (name : List Char) : Option (List Char) → List Char
  | none => '<' :: (name ++ ['>'])
  | some kind => '<' :: (name ++ ':' :: (kind ++ ['>']))

/-- A parameter behind a colon, with its kind if one is written. -/
def colonText (name : List Char) : Option (List Char) → List Char
  | none => ':' :: name
  | some kind => ':' :: (name ++ '(' :: (kind ++ [')']))

/-- What is written for a kind, in any case of the letters. Texts need not be written. -/
inductive SpellsKind : Option (List Char) → ParamKind → Prop
  | absent : SpellsKind none .text
  | text {t : List Char} : SpellsKeyword t .string → SpellsKind (some t) .text
  | int {t : List Char} : SpellsKeyword t .int → SpellsKind (some t) .int

/-- A source has the bracket of a parameter behind a number of bytes, and not in a comment. -/
def HasBracketAt (source : String) (n : Nat) : Prop :=
  ∃ ts, scan source = .ok ts ∧ ∃ t ∈ ts, t.kind = .symbol .less ∧ t.position.offset = n

instance (source : String) (n : Nat) : Decidable (HasBracketAt source n) :=
  decidable_of_iff (∃ ts ∈ (scan source).toOption,
    ∃ t ∈ ts, t.kind = .symbol .less ∧ t.position.offset = n)
    (exists_congr fun _ => and_congr_left fun _ => toOption_eq_some_iff)

section Words

theorem IsIdent.isRun (h : IsIdent w) : IsRun w := by
  cases w with
  | nil => cases h
  | cons c w =>
    refine ⟨List.cons_ne_nil c w, List.forall_mem_cons.2 ⟨?_, fun d hd => ?_⟩⟩
    · exact isFragmentChar_of_isIdentChar (isIdentChar_of_isIdentStart h.1)
    · exact isFragmentChar_of_isIdentChar (h.2 d hd)

theorem IsIdent.all (h : IsIdent w) : ∀ c ∈ w, isIdentChar c = true := by
  have hall := (Bool.and_eq_true_iff.1 (isIdent_iff.1 h)).2
  exact List.all_eq_true.1 hall

theorem SpellsKeyword.isRun (h : SpellsKeyword w k) : IsRun w := by
  have hspelling : k ≠ .marker → k.spelling.toList.all isFragmentChar = true := by
    cases k <;> decide
  refine ⟨?_, fun c hc => ?_⟩
  · rintro rfl
    have hne : k.spelling.toList ≠ [] := by cases k <;> decide
    exact hne h.2.symm
  · have hmem : c.toLower ∈ k.spelling.toList := h.2 ▸ List.mem_map_of_mem hc
    rw [← isFragmentChar_toLower]
    exact List.all_eq_true.1 (hspelling h.1) _ hmem

/-- An identifier is scanned as a word, be it a keyword or not. -/
theorem wordKind_of_isIdent (h : IsIdent w) :
    wordKind w = .ident ∨ ∃ k, k ≠ .marker ∧ wordKind w = .keyword k := by
  by_cases hkeyword : ∃ k, SpellsKeyword w k
  · obtain ⟨k, hk⟩ := hkeyword
    exact .inr ⟨k, hk.1, wordKind_of_spellsKeyword h.isRun hk⟩
  · have hkind := wordKind_of_not_spellsKeyword h.isRun (not_exists.1 hkeyword)
    rw [if_pos (isIdent_iff.1 h)] at hkind
    exact .inl hkind

/-- A run ends where its characters do. -/
theorem append_inj_of_all {p : Char → Bool} (hw : ∀ c ∈ w, p c = true)
    (hv : ∀ c ∈ v, p c = true) (hx : ∀ c ∈ x.head?, p c = false)
    (hy : ∀ c ∈ y.head?, p c = false) (h : w ++ x = v ++ y) : w = v := by
  have hstop : ∀ z : List Char, (∀ c ∈ z.head?, p c = false) → z.takeWhile p = [] := by
    intro z hz
    cases z with
    | nil => rfl
    | cons c z => exact List.takeWhile_cons_of_neg (by simp [hz c rfl])
  have htake := congrArg (List.takeWhile p) h
  rwa [List.takeWhile_append_of_pos hw, List.takeWhile_append_of_pos hv, hstop x hx, hstop y hy,
    List.append_nil, List.append_nil] at htake

theorem head?_not_ident (h : ∀ c ∈ rest.head?, isFragmentChar c = false) :
    ∀ c ∈ rest.head?, isIdentChar c = false :=
  fun c hc => not_isIdentChar c (h c hc)

/-- Only the name of the marker makes one behind a colon. -/
theorem beginsMarker_colon_iff (hw : IsIdent w) (hrest : ∀ c ∈ rest.head?, isIdentChar c = false) :
    BeginsMarker (':' :: (w ++ rest)) ↔ lower w = "default".toList := by
  have hmarker : Keyword.marker.spelling.toList = ':' :: "default".toList := by decide
  constructor
  · intro h
    obtain ⟨v, r, happend, hv, hr⟩ := h
    obtain ⟨v, rfl⟩ := eq_colon_of_lower hv
    have hlower : lower v = "default".toList := (List.cons.inj (hv.trans hmarker)).2
    have hdefault : SpellsKeyword v .default := ⟨by decide, hlower⟩
    have hsame := append_inj_of_all hw.all (hdefault.isIdent hdefault.isRun).all hrest hr
      (List.cons.inj happend).2
    rwa [hsame]
  · intro h
    refine ⟨':' :: w, rest, rfl, ?_, hrest⟩
    rw [hmarker, ← h]
    rfl

end Words

section Lexemes

theorem takes_less (h : rest.head? ≠ some '-') : Takes ['<'] (.symbol .less) rest := by
  refine .symbol (by decide) (fun hprefix => h ?_) fun hmarker => ?_
  · obtain ⟨z, rfl⟩ := (List.cons_prefix_cons.1 hprefix).2
    rfl
  · obtain ⟨v, r, happend, hv, -⟩ := hmarker
    obtain ⟨v, rfl⟩ := eq_colon_of_lower hv
    cases happend

/-- A colon in front of a name is one by itself unless a marker begins there. -/
theorem takes_colon (hw : IsIdent w) (hdefault : lower w ≠ "default".toList)
    (hrest : ∀ c ∈ rest.head?, isFragmentChar c = false) :
    Takes [':'] (.symbol .colon) (w ++ rest) :=
  .symbol (by decide) (by simp) fun h =>
    hdefault ((beginsMarker_colon_iff hw (head?_not_ident hrest)).1 h)

theorem takes_symbol {s : Symbol} (hs : s.spelling.toList = [c]) (hless : c ≠ '<')
    (hcolon : c ≠ ':') : Takes [c] (.symbol s) rest := by
  refine .symbol hs (fun hprefix => hless ?_) fun hmarker => hcolon ?_
  · exact (List.cons_prefix_cons.1 hprefix).1.symm
  · obtain ⟨v, r, happend, hv, -⟩ := hmarker
    obtain ⟨v, rfl⟩ := eq_colon_of_lower hv
    exact (List.cons.inj happend).1

end Lexemes

/-- A text without gaps is scanned as some tokens, whether or not the rest can be scanned. -/
structure ScansAs (p : Position) (x : List Char) (ts : List Token) (rest : List Char) : Prop where
  scan : scanFrom ['%'] p (x ++ rest) = (scanFrom ['%'] (p.advance x) rest).map (ts ++ ·)
  ends : ∀ t : Token, t.endOffset = p.offset → (ts.getLastD t).endOffset = (p.advance x).offset

namespace ScansAs

theorem of_takes {k : Kind} (h : Takes w k rest) :
    ScansAs p w [⟨k, String.ofList w, p, byteLength w⟩] rest :=
  ⟨scanFrom_of_takes h, fun _ _ => (Position.advance_offset p w).symm⟩

theorem append (hx : ScansAs p x ts (y ++ rest)) (hy : ScansAs (p.advance x) y us rest) :
    ScansAs p (x ++ y) (ts ++ us) rest := by
  refine ⟨?_, fun t ht => ?_⟩
  · rw [List.append_assoc, Position.advance_append, hx.scan, hy.scan]
    cases scanFrom ['%'] ((p.advance x).advance y) rest with
    | error => rfl
    | ok vs => exact congrArg Except.ok (List.append_assoc ts us vs).symm
  · rw [Grammar.getLastD_append, Position.advance_append]
    exact hy.ends _ (hx.ends t ht)

theorem cons {k : Kind} (h : Takes w k (x ++ rest)) (hx : ScansAs (p.advance w) x ts rest) :
    ScansAs p (w ++ x) (⟨k, String.ofList w, p, byteLength w⟩ :: ts) rest :=
  append (of_takes h) hx

theorem endOffset_last (h : ScansAs p x (t :: ts) rest) :
    (ts.getLastD t).endOffset = (p.advance x).offset := by
  have hends := h.ends (finishAt p) rfl
  rwa [List.getLastD_cons] at hends

end ScansAs

section Notations

theorem head?_append_of_isIdent (hw : IsIdent w) (x : List Char) : (w ++ x).head? ≠ some '-' := by
  obtain ⟨c, w, rfl⟩ := List.exists_cons_of_ne_nil hw.isRun.1
  intro h
  cases h
  cases hw.1

theorem takes_word (hw : IsRun w) (hrest : ∀ c ∈ rest.head?, isFragmentChar c = false) :
    Takes w (wordKind w) rest := takes_wordKind ⟨hw, hrest⟩

theorem isWord_of_isIdent (hw : IsIdent w) (p : Position) :
    (⟨wordKind w, String.ofList w, p, byteLength w⟩ : Token).isWord = true := by
  rcases wordKind_of_isIdent hw with hkind | ⟨k, hk, hkind⟩
  · simp [isWord, hkind]
  · simp [isWord, hkind, hk]

/-- The text of a kind is scanned as a word for it. -/
theorem SpellsKind.scans {t : List Char} (h : SpellsKind (some t) kind) :
    IsRun t ∧ ∀ p, IsKind ⟨wordKind t, String.ofList t, p, byteLength t⟩ kind := by
  cases h with
  | text h => exact ⟨h.isRun, fun p => .text (wordKind_of_spellsKeyword h.isRun h)⟩
  | int h => exact ⟨h.isRun, fun p => .int (wordKind_of_spellsKeyword h.isRun h)⟩

/-- No kind is named like the marker. -/
theorem SpellsKind.takes_colon {t : List Char} (h : SpellsKind (some t) kind)
    (hrest : ∀ c ∈ rest.head?, isFragmentChar c = false) :
    Takes [':'] (.symbol .colon) (t ++ rest) := by
  cases h with
  | text h => exact takes_colon (h.isIdent h.isRun) (by rw [h.2]; decide) hrest
  | int h => exact takes_colon (h.isIdent h.isRun) (by rw [h.2]; decide) hrest

theorem head?_cons_not_fragment (c : Char) (h : isFragmentChar c = false) (x : List Char) :
    ∀ d ∈ (c :: x).head?, isFragmentChar d = false := by
  rintro d ⟨⟩
  exact h

/-- A parameter in brackets stands for itself, whatever its name. -/
theorem scansAs_bracket (hw : IsIdent w) (hkind : SpellsKind kindText kind) (p : Position)
    (rest : List Char) : ∃ b bs, ScansAs p (bracketText w kindText) (b :: bs) rest ∧
      IsPart b bs (.param (String.ofList w) kind) ∧ b.kind = .symbol .less ∧ b.position = p := by
  have hname := isWord_of_isIdent hw
  have hgreater : Takes ['>'] (.symbol .greater) rest :=
    takes_symbol (by decide) (by decide) (by decide)
  cases kindText with
  | none =>
    cases hkind
    have hless := takes_less (head?_append_of_isIdent hw ('>' :: rest))
    have hword := takes_word hw.isRun (head?_cons_not_fragment '>' rfl rest)
    rw [List.append_cons] at hless
    exact ⟨_, _, .cons hless (.cons hword (.of_takes hgreater)),
      .bracket rfl (hname _) rfl, rfl, rfl⟩
  | some t =>
    obtain ⟨hrun, hkindtoken⟩ := hkind.scans
    have hless := takes_less (head?_append_of_isIdent hw (':' :: (t ++ ['>']) ++ rest))
    have hword := takes_word hw.isRun (head?_cons_not_fragment ':' rfl (t ++ ['>'] ++ rest))
    have hcolon := hkind.takes_colon (head?_cons_not_fragment '>' rfl rest)
    have hkindword := takes_word hrun (head?_cons_not_fragment '>' rfl rest)
    rw [← List.append_assoc] at hless
    rw [List.append_cons] at hcolon
    exact ⟨_, _, .cons hless (.cons hword (.cons hcolon (.cons hkindword (.of_takes hgreater)))),
      .bracketKind rfl (hname _) rfl (hkindtoken _) rfl, rfl, rfl⟩

/-- The kind of a parameter behind its name. -/
theorem scansAs_parenthesis {t : List Char} (hrun : IsRun t) (p : Position) (rest : List Char) :
    ScansAs p ('(' :: (t ++ [')']))
      [⟨.symbol .parenOpen, "(", p, 1⟩,
        ⟨wordKind t, String.ofList t, p.advance ['('], byteLength t⟩,
        ⟨.symbol .parenClose, ")", (p.advance ['(']).advance t, 1⟩] rest := by
  have hopen : Takes ['('] (.symbol .parenOpen) (t ++ [')'] ++ rest) :=
    takes_symbol (by decide) (by decide) (by decide)
  have hclose : Takes [')'] (.symbol .parenClose) rest :=
    takes_symbol (by decide) (by decide) (by decide)
  have hword := takes_word hrun (head?_cons_not_fragment ')' rfl rest)
  exact .cons hopen (.cons hword (.of_takes hclose))

/-- A parameter behind a colon stands for itself unless its text begins with a marker. -/
theorem scansAs_colon (hw : IsIdent w) (hkind : SpellsKind kindText kind)
    (hdefault : lower w ≠ "default".toList) (p : Position)
    (hrest : ∀ c ∈ rest.head?, isFragmentChar c = false) :
    ∃ q qs, ScansAs p (colonText w kindText) (q :: qs) rest ∧
      IsPart q qs (.param (String.ofList w) kind) ∧ q.kind = .symbol .colon ∧ q.position = p := by
  have hname := isWord_of_isIdent hw
  cases kindText with
  | none =>
    cases hkind
    have hcolon := takes_colon hw hdefault hrest
    have hword := takes_word hw.isRun hrest
    exact ⟨_, _, .cons hcolon (.of_takes hword),
      .colon rfl (hname _) (Position.advance_offset p [':']), rfl, rfl⟩
  | some t =>
    obtain ⟨hrun, hkindtoken⟩ := hkind.scans
    have hstop := head?_cons_not_fragment '(' rfl (t ++ [')'] ++ rest)
    have hcolon := takes_colon hw hdefault hstop
    have hword := takes_word hw.isRun hstop
    rw [← List.cons_append, ← List.append_assoc] at hcolon
    exact ⟨_, _, .cons hcolon (.cons hword (scansAs_parenthesis hrun _ rest)),
      .colonKind rfl (hname _) (Position.advance_offset p [':']) rfl
        (Position.advance_offset (p.advance [':']) w) (hkindtoken _) rfl, rfl, rfl⟩

/-- The name of the marker becomes one behind a colon. -/
theorem scansAs_marker (hkind : SpellsKind kindText kind) (hdefault : lower w = "default".toList)
    (p : Position) (hrest : ∀ c ∈ rest.head?, isFragmentChar c = false) :
    ∃ ts, ScansAs p (colonText w kindText) ts rest ∧ ts.countP isMarker = 1 := by
  have hmarker : lower (':' :: w) = Keyword.marker.spelling.toList := by
    rw [lower, List.map_cons]
    exact congrArg (':' :: ·) hdefault
  cases kindText with
  | none => exact ⟨_, .of_takes (.marker hmarker (head?_not_ident hrest)), rfl⟩
  | some t =>
    obtain ⟨hrun, hkindtoken⟩ := hkind.scans
    have hstop := head?_cons_not_fragment '(' rfl (t ++ [')'] ++ rest)
    refine ⟨_, .cons (.marker hmarker (head?_not_ident hstop))
      (scansAs_parenthesis hrun _ rest), ?_⟩
    have hkindmarker := (hkindtoken (((p.advance (':' :: w))).advance ['('])).isMarker
    simp only [List.countP_cons, hkindmarker]
    rfl

end Notations
end Routes.Token
