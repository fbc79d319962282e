import Mathlib.Data.List.Forall2
import Routes.Proofs.Token.Stray
/-!
Scanning on from a place within a text. What has been read has no influence on what is scanned
behind it but for the place, and a place shifts all tokens alike. What is ahead has no influence on
what is scanned in front of it as long as it does not begin with a fragment character.
-/
namespace Routes.Token
open Text (isBlank byteLength)

/-- The tokens that are read from a text up to the end of the last of them, in front of a rest. -/
inductive LexesTo (marker rest : List Char) : Position → List Char → List Token → Prop
  | nil {p} : LexesTo marker rest p [] []
  | cons {p gap w k x ts} : IsGap marker gap (w ++ (x ++ rest)) →
      IsPlain marker (w ++ (x ++ rest)) → Takes w k (x ++ rest) →
      LexesTo marker rest (p.advance (gap ++ w)) x ts →
      LexesTo marker rest p (gap ++ (w ++ x))
        (⟨k, String.ofList w, p.advance gap, byteLength w⟩ :: ts)

variable {marker gap cs w x a b rest last : List Char} {p p' q : Position} {t : Token}
  {us ts : List Token} {k : Kind}

theorem IsGap.append {gap' : List Char} (h : IsGap marker gap (gap' ++ rest))
    (h' : IsGap marker gap' rest) : IsGap marker (gap ++ gap') rest := by
  generalize hrest : gap' ++ rest = cs at h
  induction h with
  | nil => exact h'
  | blank hc _ ih => exact .blank hc (ih hrest)
  | @comment c body gap cs hc ho hbody hnext _ ih =>
    subst hrest
    rw [List.cons_append, List.append_assoc]
    rw [← List.append_assoc gap] at ho hnext
    exact .comment hc ho hbody hnext (ih rfl)

/-- At the end of a line a gap may go on with anything. -/
theorem IsGap.line (h : IsGap marker gap []) (cs : List Char) :
    IsGap marker (gap ++ ['\n']) cs := by
  have hgap : IsGap marker gap (['\n'] ++ cs) := by
    generalize hnil : [] = rest at h
    induction h with
    | nil => exact .nil
    | blank hc _ ih => exact .blank hc (ih hnil)
    | @comment c body gap rest hc ho hbody hnext _ ih =>
      subst hnil
      rw [List.append_nil] at ho hnext
      refine .comment hc ⟨ho.1, ho.2.trans ?_⟩ hbody ?_ (ih rfl)
      · rw [← List.append_assoc, ← List.cons_append]
        exact List.prefix_append _ _
      · cases gap with
        | nil => exact fun d hd => (Option.some.inj hd).symm
        | cons d gap => exact hnext
  exact hgap.append (.blank Text.isBlank_newline .nil)

theorem scanFrom_of_isGap (hgap : IsGap marker gap rest) :
    scanFrom marker p (gap ++ rest) = scanFrom marker (p.advance gap) rest := by
  cases hs' : splitTrivia marker false rest with
  | mk more rest' =>
    obtain ⟨rfl, hmore, hplain⟩ := splitTrivia_eq_iff.1 hs'
    have hs : splitTrivia marker false (gap ++ (more ++ rest')) = (gap ++ more, rest') :=
      splitTrivia_eq_iff.2 ⟨(List.append_assoc ..).symm, hgap.append hmore, hplain⟩
    cases rest' with
    | nil => rw [scanFrom_done hs, scanFrom_done hs', Position.advance_append]
    | cons c rest' =>
      cases hl : lexemeAt (c :: rest') with
      | none => rw [scanFrom_error hs hl, scanFrom_error hs' hl, Position.advance_append]
      | some l =>
        rw [scanFrom_token hs hl, scanFrom_token hs' hl, ← Position.advance_append,
          ← Position.advance_append, List.append_assoc]

section Boundary

/-- A gap stands behind the last of the tokens that are read. -/
theorem Lexes.exists_lexesTo (h : Lexes marker p cs us q last) : ∃ x gap, cs = x ++ (gap ++ last) ∧
    LexesTo marker (gap ++ last) p x us ∧ IsGap marker gap last ∧ IsPlain marker last ∧
    q = (p.advance x).advance gap := by
  induction h with
  | @stop p gap rest hgap hplain => exact ⟨[], gap, rfl, .nil, hgap, hplain, rfl⟩
  | @token p gap w k rest ts q last hgap hplain htakes _ ih =>
    obtain ⟨x, gap', rfl, hto, hgap', hlast, rfl⟩ := ih
    refine ⟨gap ++ (w ++ x), gap', by simp, .cons hgap hplain htakes hto, hgap', hlast, ?_⟩
    simp only [Position.advance_append]

theorem LexesTo.lexes (h : LexesTo marker (gap ++ last) p x us) (hgap : IsGap marker gap last)
    (hlast : IsPlain marker last) :
    Lexes marker p (x ++ (gap ++ last)) us ((p.advance x).advance gap) last := by
  induction h with
  | nil => exact .stop hgap hlast
  | @cons p gap' w k x ts hgap' hplain htakes _ ih =>
    rw [Position.advance_append] at ih
    rw [Position.advance_append, Position.advance_append, List.append_assoc, List.append_assoc]
    exact .token hgap' hplain htakes (by rwa [Position.advance_append])

theorem LexesTo.scanFrom (h : LexesTo marker rest p x us) : scanFrom marker p (x ++ rest) =
    (scanFrom marker (p.advance x) rest).map (us ++ ·) := by
  induction h with
  | @nil p =>
    rw [List.nil_append, Position.advance_nil]
    cases Token.scanFrom marker p rest <;> rfl
  | @cons p gap w k x ts hgap hplain htakes _ ih =>
    rw [List.append_assoc, List.append_assoc, scanFrom_of_isPlain hgap hplain htakes, ih,
      ← Position.advance_append, List.append_assoc]
    cases Token.scanFrom marker (p.advance (gap ++ (w ++ x))) rest <;> rfl

theorem LexesTo.endOffset_last (h : LexesTo marker rest p x us) (ht : t ∈ us.getLast?) :
    t.endOffset = (p.advance x).offset := by
  induction h with
  | nil => cases ht
  | @cons p gap w k x ts hgap hplain htakes hto ih =>
    cases hto with
    | nil =>
      rw [List.getLast?_singleton] at ht
      cases ht
      rw [List.append_nil, Position.advance_append, Position.advance_offset, endOffset]
    | cons =>
      rw [List.getLast?_cons_cons] at ht
      rw [ih ht, ← Position.advance_append, List.append_assoc]

end Boundary

theorem scan_eq (source : String) : scan source = scanFrom ['%'] .start source.toList := rfl

theorem scanFrom_resume (h : Lexes marker p cs us q last) :
    scanFrom marker p cs = (scanFrom marker q last).map (us ++ ·) := by
  obtain ⟨x, gap, rfl, hto, hgap, -, rfl⟩ := h.exists_lexesTo
  rw [hto.scanFrom, scanFrom_of_isGap hgap]

/-- What has been read up to the beginning of one of the tokens. -/
theorem Lexes.upTo (h : Lexes marker p cs us q last) (ht : t ∈ us) : ∃ front x rest,
    Lexes marker p cs front (p.advance x) rest ∧ cs = x ++ rest ∧ t.position = p.advance x := by
  induction h with
  | stop => cases ht
  | @token p gap w k rest ts q last hgap hplain htakes _ ih =>
    rcases List.mem_cons.1 ht with rfl | ht
    · exact ⟨[], gap, w ++ rest, .stop hgap hplain, rfl, rfl⟩
    · obtain ⟨front, x, rest', hlexes, hrest, hplace⟩ := ih ht
      rw [← Position.advance_append] at hlexes hplace
      exact ⟨_, gap ++ w ++ x, rest', .token hgap hplain htakes hlexes, by simp [hrest], hplace⟩

/-- A token at the beginning of a text. -/
theorem scanFrom_of_takes (h : Takes w k rest) : scanFrom ['%'] p (w ++ rest) =
    (scanFrom ['%'] (p.advance w) rest).map (⟨k, String.ofList w, p, byteLength w⟩ :: ·) := by
  have hplain : IsPlain ['%'] (w ++ rest) := by
    obtain ⟨c, w, rfl⟩ := List.exists_cons_of_ne_nil h.ne_nil
    obtain ⟨hblank, hpercent⟩ := h.not_blank c List.mem_cons_self
    intro d hd
    cases hd
    exact ⟨hblank, by simp [OpensComment, Ne.symm hpercent]⟩
  exact scanFrom_of_isPlain .nil hplain h

section Congruence

/-- A rest that does not go on with the word in front of it. -/
def Separates (cs : List Char) : Prop := ∀ c ∈ cs.head?, isFragmentChar c = false

theorem Separates.head? {P : Char → Bool} (ha : Separates a)
    (hP : ∀ c, isFragmentChar c = false → P c = false)
    (h : ∀ c ∈ (x ++ b).head?, P c = false) : ∀ c ∈ (x ++ a).head?, P c = false := by
  cases x with
  | nil => exact fun c hc => hP c (ha c hc)
  | cons d x => exact h

theorem not_isIdentChar (c : Char) (h : isFragmentChar c = false) : isIdentChar c = false := by
  rw [Bool.eq_false_iff] at h ⊢
  exact fun hident => h (isFragmentChar_of_isIdentChar hident)

/-- A marker ends where the rest begins at the latest. -/
theorem beginsMarker_congr (ha : Separates a) (hb : Separates b) (hx : x ≠ [])
    (h : BeginsMarker (x ++ a)) : BeginsMarker (x ++ b) := by
  obtain ⟨w, rest, happend, hw, hrest⟩ := h
  rcases List.append_eq_append_iff.1 happend with ⟨z, rfl, rfl⟩ | ⟨z, rfl, rfl⟩
  · cases z with
    | nil =>
      rw [List.append_nil] at hw
      exact ⟨x, b, rfl, hw, fun c hc => not_isIdentChar c (hb c hc)⟩
    | cons c z =>
      obtain ⟨d, x, rfl⟩ := List.exists_cons_of_ne_nil hx
      have hmarker : Keyword.marker.spelling.toList = ':' :: "default".toList := by decide
      rw [hmarker, List.cons_append, Text.lower, List.map_cons, List.map_append] at hw
      have hmem : c.toLower ∈ "default".toList := by simp [← (List.cons.inj hw).2]
      have hall : "default".toList.all isFragmentChar = true := by decide
      have hfragment : isFragmentChar c = true := by
        rw [← isFragmentChar_toLower]
        exact List.all_eq_true.1 hall _ hmem
      cases (ha c rfl).symm.trans hfragment
  · exact ⟨w, z ++ b, by simp, hw, hb.head? not_isIdentChar hrest⟩

theorem Takes.congr (h : Takes w k (x ++ a)) (ha : Separates a) (hb : Separates b) :
    Takes w k (x ++ b) := by
  have hrun : IsWholeRun w (x ++ a) → IsWholeRun w (x ++ b) :=
    fun hw => ⟨hw.run, hb.head? (fun _ hc => hc) hw.stops⟩
  cases h with
  | arrow => exact .arrow
  | marker hw hrest => exact .marker hw (hb.head? not_isIdentChar hrest)
  | @symbol c s _ hs harrow hmarker =>
    refine .symbol hs ?_ ?_
    · cases x with
      | nil =>
        intro hprefix
        obtain ⟨z, rfl⟩ := (List.cons_prefix_cons.1 hprefix).2
        cases hb '-' rfl
      | cons d x => simpa using harrow
    · intro h
      exact hmarker (beginsMarker_congr hb ha (List.cons_ne_nil c x) h)
  | keyword hw hk => exact .keyword (hrun hw) hk
  | ident hw hk hi => exact .ident (hrun hw) hk hi
  | fragment hw hk hi => exact .fragment (hrun hw) hk hi

theorem opensComment_congr {c : Char} :
    OpensComment ['%'] (c :: a) ↔ OpensComment ['%'] (c :: b) := by
  simp [OpensComment]

theorem IsGap.congr (h : IsGap ['%'] gap (x ++ a)) (hx : x ≠ []) : IsGap ['%'] gap (x ++ b) := by
  generalize hrest : x ++ a = rest at h
  induction h with
  | nil => exact .nil
  | blank hc _ ih => exact .blank hc (ih hrest)
  | @comment c body gap rest hc ho hbody hnext _ ih =>
    subst hrest
    refine .comment hc (opensComment_congr.1 ho) hbody ?_ (ih rfl)
    rw [← List.append_assoc] at hnext ⊢
    cases hfront : gap ++ x with
    | nil => exact absurd (List.append_eq_nil_iff.1 hfront).2 hx
    | cons d front =>
      rw [hfront] at hnext
      exact hnext

theorem IsPlain.congr (h : IsPlain ['%'] (x ++ a)) (hx : x ≠ []) : IsPlain ['%'] (x ++ b) := by
  obtain ⟨c, x, rfl⟩ := List.exists_cons_of_ne_nil hx
  intro d hd
  cases hd
  exact ⟨(h c rfl).1, fun ho => (h c rfl).2 (opensComment_congr.1 ho)⟩

/-- What is read in front of a rest is read whatever the rest. -/
theorem LexesTo.congr (h : LexesTo ['%'] a p x us) (ha : Separates a) (hb : Separates b) :
    LexesTo ['%'] b p x us := by
  induction h with
  | nil => exact .nil
  | @cons p gap w k x ts hgap hplain htakes _ ih =>
    have hne : w ++ x ≠ [] := List.append_ne_nil_of_left_ne_nil htakes.ne_nil x
    rw [← List.append_assoc] at hgap hplain
    have hgap' : IsGap ['%'] gap ((w ++ x) ++ b) := hgap.congr hne
    have hplain' : IsPlain ['%'] ((w ++ x) ++ b) := hplain.congr hne
    rw [List.append_assoc] at hgap' hplain'
    exact .cons hgap' hplain' (htakes.congr ha hb) ih

/-- A gap keeps what stands behind it away from the word in front of it. -/
theorem IsGap.separates_of_ne_nil (h : IsGap ['%'] gap rest) (hgap : gap ≠ []) (a : List Char) :
    Separates (gap ++ a) := by
  cases h with
  | nil => exact absurd rfl hgap
  | @blank c _ _ hc =>
    intro d hd
    cases hd
    rw [Bool.eq_false_iff]
    intro hfragment
    cases (isBlank_of_isFragmentChar hfragment).1.symm.trans hc
  | comment _ ho =>
    intro d hd
    cases hd
    obtain ⟨z, hz⟩ := ho.2
    cases hz
    rfl

theorem IsGap.separates (h : IsGap ['%'] gap rest) (ha : Separates a) : Separates (gap ++ a) := by
  by_cases hgap : gap = []
  · rwa [hgap]
  · exact h.separates_of_ne_nil hgap a

end Congruence

section Opening

/-- A text that begins with a colon or with the bracket in front of a parameter. -/
def IsOpening (cs : List Char) : Prop := cs.head? = some '<' ∨ cs.head? = some ':'

theorem IsOpening.exists_cons (h : IsOpening a) :
    ∃ c cs, a = c :: cs ∧ (c = '<' ∨ c = ':') := by
  rcases h with h | h
  · obtain ⟨cs, rfl⟩ := List.head?_eq_some_iff.1 h
    exact ⟨_, cs, rfl, .inl rfl⟩
  · obtain ⟨cs, rfl⟩ := List.head?_eq_some_iff.1 h
    exact ⟨_, cs, rfl, .inr rfl⟩

theorem IsGap.of_opening (h : IsGap ['%'] gap a) (ha : IsOpening a) (b : List Char) :
    IsGap ['%'] gap b := by
  induction h with
  | nil => exact .nil
  | blank hc _ ih => exact .blank hc (ih ha)
  | @comment c body gap rest hc ho hbody hnext _ ih =>
    refine .comment hc (opensComment_congr.1 ho) hbody ?_ (ih ha)
    cases gap with
    | nil =>
      obtain ⟨d, cs, rfl, hd⟩ := ha.exists_cons
      obtain rfl : d = '\n' := hnext d rfl
      rcases hd with hd | hd <;> cases hd
    | cons d gap => exact hnext

theorem IsOpening.isPlain (h : IsOpening a) : IsPlain ['%'] a := by
  obtain ⟨d, cs, rfl, hd⟩ := h.exists_cons
  intro c hc
  cases hc
  rcases hd with rfl | rfl <;> simp [OpensComment, isBlank]

theorem IsOpening.separates (h : IsOpening a) : Separates a := by
  obtain ⟨d, cs, rfl, hd⟩ := h.exists_cons
  intro c hc
  cases hc
  rcases hd with rfl | rfl <;> rfl

/-- What is read in front of a parameter is read whatever the notation of the parameter. -/
theorem Lexes.of_opening (h : Lexes ['%'] p cs us q a) (ha : IsOpening a) (hb : IsOpening b) :
    ∃ x, cs = x ++ a ∧ Lexes ['%'] p (x ++ b) us q b := by
  obtain ⟨x, gap, rfl, hto, hgap, -, rfl⟩ := h.exists_lexesTo
  have hgap' := hgap.of_opening ha b
  have hto' := hto.congr (hgap.separates ha.separates) (hgap'.separates hb.separates)
  refine ⟨x ++ gap, by simp, ?_⟩
  rw [List.append_assoc]
  exact hto'.lexes hgap' hb.isPlain

end Opening

section Shift

/-- Tokens that differ by a change of place. -/
structure IsShift (i j : Nat) (t u : Token) : Prop where
  kind : t.kind = u.kind
  text : t.text = u.text
  size : t.size = u.size
  offset : t.position.offset + j = u.position.offset + i

theorem Lexes.shift (h : Lexes marker p cs us q last) (p' : Position) : ∃ us' q',
    Lexes marker p' cs us' q' last ∧ List.Forall₂ (IsShift p.offset p'.offset) us us' ∧
      q.offset + p'.offset = q'.offset + p.offset := by
  induction h generalizing p' with
  | @stop p gap rest hgap hplain =>
    refine ⟨[], _, .stop hgap hplain, .nil, ?_⟩
    rw [Position.advance_offset, Position.advance_offset]
    omega
  | @token p gap w k rest ts q last hgap hplain htakes _ ih =>
    obtain ⟨us', q', hlexes, hshift, hq⟩ := ih (p'.advance (gap ++ w))
    rw [Position.advance_offset, Position.advance_offset] at hshift hq
    refine ⟨_, q', .token hgap hplain htakes hlexes, .cons ⟨rfl, rfl, rfl, ?_⟩ ?_, by omega⟩
    · rw [Position.advance_offset, Position.advance_offset]
      omega
    · refine hshift.imp fun t u htu => ⟨htu.kind, htu.text, htu.size, ?_⟩
      have hoffset := htu.offset
      omega

theorem scanFrom_shift (h : scanFrom marker p cs = .ok ts) (p' : Position) : ∃ ts',
    scanFrom marker p' cs = .ok ts' ∧ List.Forall₂ (IsShift p.offset p'.offset) ts ts' := by
  obtain ⟨us, q, rfl, hlexes⟩ := scanFrom_eq_ok_iff.1 h
  obtain ⟨us', q', hlexes', hshift, hq⟩ := hlexes.shift p'
  refine ⟨_, scanFrom_of_lexes hlexes', List.rel_append hshift (.cons ?_ .nil)⟩
  exact ⟨rfl, rfl, rfl, hq⟩

/-- The character that begins no token does not depend on its place. -/
theorem scanFrom_error_shift {e : ScanError} (h : scanFrom marker p cs = .error e)
    (p' : Position) : ∃ q, scanFrom marker p' cs = .error ⟨q, e.unexpected⟩ := by
  obtain ⟨us, rest, hlexes, hc⟩ := scanFrom_eq_error_iff.1 h
  obtain ⟨us', q, hlexes', -, -⟩ := hlexes.shift p'
  exact ⟨q, scanFrom_eq_error_iff.2 ⟨us', rest, hlexes', hc⟩⟩

end Shift
end Routes.Token
