import Routes.Proofs.Token.Cover
import Routes.Proofs.Token.Literal
/-!
Scanning by rules, and when it fails. Main statement: the tokens of a text are those that the rules
for single lexemes give one after the other, and a source is refused just for its first stray
character, which is one that neither a token nor a comment can hold.
-/
namespace Routes.Token
open Text (isBlank lastLine byteLength)

/-- A character behind a text that no token holds, and no comment begun by a percent sign. -/
structure IsStray (before : List Char) (c : Char) : Prop where
  uncommented : '%' ∉ lastLine before
  percent : c ≠ '%'
  blank : isBlank c = false
  fragment : isFragmentChar c = false
  symbol : isSymbolChar c = false

/-- An error at the first stray character of a source. -/
structure IsFirstStray (source : List Char) (e : ScanError) : Prop where
  stands : ∃ before after, source = before ++ e.unexpected :: after ∧ e.position.IsBehind before ∧
    IsStray before e.unexpected
  first : ∀ before c after, source = before ++ c :: after → IsStray before c →
    e.position.offset ≤ byteLength before

variable {marker gap rest cs before last w : List Char} {p q : Position} {t u : Token}
  {us ts : List Token} {k : Kind} {c : Char}

section Percent

/-- No character of a text is stray behind another one. -/
def HasNoStray (before cs : List Char) : Prop :=
  ∀ b c a, cs = b ++ c :: a → ¬IsStray (before ++ b) c

theorem hasNoStray_nil (before : List Char) : HasNoStray before [] := by
  intro b c a h
  cases b <;> cases h

theorem hasNoStray_append {x : List Char} (hx : HasNoStray before x)
    (hcs : HasNoStray (before ++ x) cs) : HasNoStray before (x ++ cs) := by
  intro b c a h
  rcases List.append_eq_append_iff.1 h with ⟨y, hb, hy⟩ | ⟨y, hx', hy⟩
  · have hnot := hcs y c a hy
    rwa [List.append_assoc, ← hb] at hnot
  · cases y with
    | nil =>
      have hnot := hcs [] c a hy.symm
      rw [hx', List.append_nil, List.append_nil] at hnot
      exact hnot
    | cons d y =>
      obtain ⟨rfl, -⟩ := List.cons.inj hy
      exact hx b c y hx'

theorem hasNoStray_singleton (hc : ¬IsStray before c) : HasNoStray before [c] := by
  intro b d a h
  cases b with
  | nil =>
    obtain rfl := (List.cons.inj h).1
    rwa [List.append_nil]
  | cons e b =>
    have hnil := (List.cons.inj h).2
    cases b <;> cases hnil

theorem hasNoStray_cons (hc : ¬IsStray before c) (hcs : HasNoStray (before ++ [c]) cs) :
    HasNoStray before (c :: cs) :=
  hasNoStray_append (x := [c]) (hasNoStray_singleton hc) hcs

/-- The line that a text ends with is without a percent sign, or it ends here. -/
def IsOpen (before rest : List Char) : Prop :=
  '%' ∈ lastLine before → ∀ c ∈ rest.head?, c = '\n'

theorem isOpen_nil (rest : List Char) : IsOpen [] rest := by
  simp [IsOpen]

theorem not_mem_lastLine_append (hbefore : '%' ∉ lastLine before) (hw : '%' ∉ w) :
    '%' ∉ lastLine (before ++ w) := by
  induction w generalizing before with
  | nil => rwa [List.append_nil]
  | cons c w ih =>
    rw [List.mem_cons, not_or] at hw
    rw [List.append_cons]
    refine ih ?_ hw.2
    by_cases hc : c = '\n'
    · subst hc
      simp
    · rw [Text.lastLine_concat before hc, List.mem_cons, not_or]
      exact ⟨hw.1, hbefore⟩

theorem mem_lastLine_append (hbefore : '%' ∈ lastLine before) (hw : '\n' ∉ w) :
    '%' ∈ lastLine (before ++ w) := by
  induction w generalizing before with
  | nil => rwa [List.append_nil]
  | cons c w ih =>
    rw [List.mem_cons, not_or] at hw
    rw [List.append_cons]
    refine ih ?_ hw.2
    rw [Text.lastLine_concat before (Ne.symm hw.1)]
    exact List.mem_cons_of_mem c hbefore

/-- What stands behind a percent sign on its line is not stray. -/
theorem hasNoStray_comment (hbefore : '%' ∈ lastLine before) (hw : '\n' ∉ w) :
    HasNoStray before w := by
  induction w generalizing before with
  | nil => exact hasNoStray_nil before
  | cons c w ih =>
    rw [List.mem_cons, not_or] at hw
    refine hasNoStray_cons (fun h => h.uncommented hbefore) (ih ?_ hw.2)
    refine mem_lastLine_append hbefore ?_
    simpa using hw.1

theorem IsGap.hasNoStray (h : IsGap ['%'] gap rest) (hopen : IsOpen before (gap ++ rest)) :
    HasNoStray before gap ∧ IsOpen (before ++ gap) rest := by
  induction h generalizing before with
  | nil => exact ⟨hasNoStray_nil before, by rwa [List.append_nil]⟩
  | @blank c gap rest hc _ ih =>
    have hnext : IsOpen (before ++ [c]) (gap ++ rest) := by
      intro hmem
      by_cases hline : c = '\n'
      · subst hline
        simp at hmem
      · rw [Text.lastLine_concat before hline, List.mem_cons] at hmem
        rcases hmem with hpercent | hmem
        · subst hpercent
          cases hc
        · exact absurd (hopen hmem c rfl) hline
    obtain ⟨hstray, hend⟩ := ih hnext
    rw [← List.append_cons] at hend
    refine ⟨hasNoStray_cons (fun h => ?_) hstray, hend⟩
    rw [h.blank] at hc
    cases hc
  | @comment c body gap rest hc ho hbody hnext _ ih =>
    have hpercent : c = '%' := by
      obtain ⟨x, hx⟩ := ho.2
      exact (List.cons.inj hx).1.symm
    subst hpercent
    have hmem : '%' ∈ lastLine (before ++ ['%']) := by
      rw [Text.lastLine_concat before (by decide)]
      exact List.mem_cons_self
    obtain ⟨hstray, hend⟩ := @ih (before ++ ['%'] ++ body) fun _ => hnext
    have happend : before ++ '%' :: (body ++ gap) = before ++ ['%'] ++ body ++ gap := by simp
    rw [happend]
    refine ⟨hasNoStray_cons (fun h => h.percent rfl) ?_, hend⟩
    exact hasNoStray_append (hasNoStray_comment hmem hbody) hstray

theorem Takes.chars (h : Takes w k rest) :
    ∀ c ∈ w, isFragmentChar c = true ∨ isSymbolChar c = true := by
  cases h with
  | arrow =>
    have hall : ['<', '-'].all (fun c => isFragmentChar c || isSymbolChar c) = true := by decide
    intro c hc
    simpa using List.all_eq_true.1 hall c hc
  | marker hw =>
    intro c hc
    have hlower : c.toLower ∈ Keyword.marker.spelling.toList := by
      rw [← hw]
      exact List.mem_map_of_mem hc
    rcases marker_chars hlower with hcolon | hfragment
    · rw [eq_colon_of_toLower hcolon]
      exact .inr rfl
    · rw [isFragmentChar_toLower] at hfragment
      exact .inl hfragment
  | symbol hs =>
    intro c hc
    obtain rfl := List.mem_singleton.1 hc
    exact .inr (isSymbolChar_iff.2 ⟨_, symbolOf?_eq_some_iff.2 hs⟩)
  | keyword hw | ident hw | fragment hw => exact fun c hc => .inl (hw.run.2 c hc)

theorem isBlank_of_isSymbolChar (h : isSymbolChar c = true) : isBlank c = false ∧ c ≠ '%' := by
  have hall : ['(', ')', '/', ':', '<', '>', '#'].all (fun c => !isBlank c && c != '%') = true := by
    decide
  have hmem : c ∈ ['(', ')', '/', ':', '<', '>', '#'] := by
    simpa only [isSymbolChar, List.contains_eq_mem, decide_eq_true_eq] using h
  simpa using List.all_eq_true.1 hall c hmem

theorem Takes.not_blank (h : Takes w k rest) : ∀ c ∈ w, isBlank c = false ∧ c ≠ '%' := by
  intro c hc
  rcases h.chars c hc with hfragment | hsymbol
  · exact isBlank_of_isFragmentChar hfragment
  · exact isBlank_of_isSymbolChar hsymbol

theorem hasNoStray_of_chars (h : ∀ c ∈ w, isFragmentChar c = true ∨ isSymbolChar c = true) :
    HasNoStray before w := by
  intro b c a hw hstray
  have hc : c ∈ w := by simp [hw]
  rcases h c hc with hfragment | hsymbol
  · rw [hstray.fragment] at hfragment
    cases hfragment
  · rw [hstray.symbol] at hsymbol
    cases hsymbol

/-- A place where neither a gap nor the text ends is on a line without a percent sign. -/
theorem not_mem_lastLine_of_isOpen (hopen : IsOpen before (c :: rest))
    (hplain : IsPlain marker (c :: rest)) : '%' ∉ lastLine before := by
  intro hmem
  have hline : c = '\n' := hopen hmem c rfl
  have hblank := (hplain c rfl).1
  rw [hline, Text.isBlank_newline] at hblank
  cases hblank

theorem Lexes.isPlain (h : Lexes marker p cs us q last) : IsPlain marker last := by
  induction h with
  | stop _ hplain => exact hplain
  | token _ _ _ _ ih => exact ih

/-- Nothing that has been read is stray. -/
theorem Lexes.hasNoStray (h : Lexes ['%'] p cs us q last) (hopen : IsOpen before cs) :
    ∃ x, cs = x ++ last ∧ q = p.advance x ∧ HasNoStray before x ∧ IsOpen (before ++ x) last := by
  induction h generalizing before with
  | @stop p gap rest hgap _ =>
    obtain ⟨hstray, hend⟩ := hgap.hasNoStray hopen
    exact ⟨gap, rfl, rfl, hstray, hend⟩
  | @token p gap w k rest ts q last hgap hplain htakes _ ih =>
    obtain ⟨hstray, hend⟩ := hgap.hasNoStray hopen
    have hline : '%' ∉ lastLine (before ++ gap) := by
      obtain ⟨c, w, rfl⟩ := List.exists_cons_of_ne_nil htakes.ne_nil
      exact not_mem_lastLine_of_isOpen hend hplain
    have hpercent : '%' ∉ w := by
      intro hmem
      rcases htakes.chars '%' hmem with h | h <;> cases h
    have hopen' : IsOpen (before ++ (gap ++ w)) rest := by
      intro hmem
      rw [← List.append_assoc] at hmem
      exact absurd hmem (not_mem_lastLine_append hline hpercent)
    obtain ⟨x, hrest, hq, hstray', hend'⟩ := ih hopen'
    refine ⟨gap ++ w ++ x, by simp [hrest], ?_, ?_, ?_⟩
    · rw [hq, ← Position.advance_append]
    · refine hasNoStray_append (hasNoStray_append hstray (hasNoStray_of_chars htakes.chars)) ?_
      exact hstray'
    · simpa using hend'

end Percent

theorem scan_ok_of_lexes {source : String} (h : Lexes ['%'] .start source.toList us q []) :
    HasNoStray [] source.toList := by
  obtain ⟨x, hx, -, hstray, -⟩ := h.hasNoStray (isOpen_nil _)
  rw [List.append_nil] at hx
  rwa [hx]

theorem isFirstStray_of_lexes {source : String} {e : ScanError}
    (h : Lexes ['%'] .start source.toList us e.position (e.unexpected :: rest))
    (hfragment : isFragmentChar e.unexpected = false) (hsymbol : isSymbolChar e.unexpected = false) :
    IsFirstStray source.toList e := by
  obtain ⟨x, hx, hq, hstray, hopen⟩ := h.hasNoStray (isOpen_nil _)
  rw [List.nil_append] at hopen
  have hplace : e.position.IsBehind x := by
    rw [hq]
    exact Position.isBehind_advance x
  obtain ⟨hblank, hcomment⟩ := h.isPlain e.unexpected rfl
  have hpercent : e.unexpected ≠ '%' := by
    intro hc
    refine hcomment ⟨by simp, rest, ?_⟩
    rw [hc]
    rfl
  have hline := not_mem_lastLine_of_isOpen hopen h.isPlain
  refine ⟨⟨x, rest, hx, hplace, hline, hpercent, hblank, hfragment, hsymbol⟩, ?_⟩
  intro before c after hsource hc
  rw [hplace.offset]
  rw [hx] at hsource
  -- A stray character in front of this place would be one among those that have been read.
  rcases List.append_eq_append_iff.1 hsource with ⟨y, hb, -⟩ | ⟨y, hx', hy⟩
  · rw [hb, Text.byteLength_append]
    omega
  · cases y with
    | nil =>
      rw [List.append_nil] at hx'
      exact Nat.le_of_eq (congrArg Text.byteLength hx')
    | cons d y =>
      obtain ⟨rfl, -⟩ := List.cons.inj hy
      exact absurd hc (hstray before c y hx')

theorem IsFirstStray.unique {source : List Char} {e e' : ScanError} (h : IsFirstStray source e)
    (h' : IsFirstStray source e') : e = e' := by
  obtain ⟨before, after, hsource, hplace, hstray⟩ := h.stands
  obtain ⟨before', after', hsource', hplace', hstray'⟩ := h'.stands
  have hle := h.first before' e'.unexpected after' hsource' hstray'
  have hge := h'.first before e.unexpected after hsource hstray
  have hoffset := hplace.offset
  have hoffset' := hplace'.offset
  obtain ⟨hbefore, hrest⟩ := Text.append_inj_of_byteLength (hsource.symm.trans hsource') (by omega)
  have hplaces : e.position = e'.position := by
    rw [Position.eq_advance_of_isBehind hplace, Position.eq_advance_of_isBehind hplace', hbefore]
  have hchars : e.unexpected = e'.unexpected := (List.cons.inj hrest).1
  obtain ⟨position, unexpected⟩ := e
  obtain ⟨position', unexpected'⟩ := e'
  exact congr (congrArg ScanError.mk hplaces) hchars

theorem isFirstStray_of_scan {source : String} {e : ScanError} (h : scan source = .error e) :
    IsFirstStray source.toList e := by
  obtain ⟨us, rest, hlexes, hfragment, hsymbol⟩ := scanFrom_eq_error_iff.1 h
  exact isFirstStray_of_lexes hlexes hfragment hsymbol

theorem exists_error_of_isStray {source : String} {before after : List Char} {c : Char}
    (hsource : source.toList = before ++ c :: after) (hc : IsStray before c) :
    ∃ e, scan source = .error e := by
  rcases scanFrom_ok_or_error "%".toList .start source.toList with ⟨ts, hts⟩ | he
  · obtain ⟨us, q, -, hlexes⟩ := scanFrom_eq_ok_iff.1 hts
    exact absurd hc (scan_ok_of_lexes hlexes before c after hsource)
  · exact he

/-- The tokens of a source are those that the rules for one lexeme give one after the other, behind
gaps, and an error is at a character that no rule takes. Where comments begin with a percent sign,
that is the first stray character, and a source is refused just if it has one. -/
theorem scan_rules (marker source : String) :
    (∀ ts, scanWith marker source = .ok ts ↔
      ∃ us q, ts = us ++ [finishAt q] ∧ Lexes marker.toList .start source.toList us q []) ∧
    (∀ e, scanWith marker source = .error e ↔
      ∃ us rest, Lexes marker.toList .start source.toList us e.position (e.unexpected :: rest) ∧
        isFragmentChar e.unexpected = false ∧ isSymbolChar e.unexpected = false) ∧
    (∀ ts, scanWith marker source = .ok ts →
      ts.IsChain Apart ∧ ∀ t ∈ ts, t.kind = .keyword .marker → t.size = 8) ∧
    ((∃ e, scan source = .error e) ↔
      ∃ before c after, source.toList = before ++ c :: after ∧ IsStray before c) ∧
    ∀ e, scan source = .error e ↔ IsFirstStray source.toList e := by
  refine ⟨fun ts => scanFrom_eq_ok_iff, fun e => scanFrom_eq_error_iff, ?_, ?_, ?_⟩
  · intro ts hts
    obtain ⟨us, q, rfl, hlexes⟩ := scanFrom_eq_ok_iff.1 hts
    refine ⟨hlexes.apart, fun t ht hk => ?_⟩
    rcases List.mem_append.1 ht with ht | ht
    · exact hlexes.marker_size t ht hk
    · rw [List.mem_singleton.1 ht] at hk
      cases hk
  · constructor
    · intro h
      obtain ⟨e, he⟩ := h
      obtain ⟨before, after, hsource, -, hstray⟩ := (isFirstStray_of_scan he).stands
      exact ⟨before, _, after, hsource, hstray⟩
    · intro h
      obtain ⟨before, c, after, hsource, hstray⟩ := h
      exact exists_error_of_isStray hsource hstray
  · intro e
    refine ⟨isFirstStray_of_scan, fun h => ?_⟩
    obtain ⟨before, after, hsource, -, hstray⟩ := h.stands
    obtain ⟨e', he'⟩ := exists_error_of_isStray hsource hstray
    rw [h.unique (isFirstStray_of_scan he'), he']

/-- A stray character behind a percent sign is in a comment, and the marker is a whole word. -/
example : (scan "a %!\n:Default:default_x").toOption.map (·.map (·.kind)) =
    some [.ident, .keyword .marker, .symbol .colon, .ident, .finish] := by
  decide +kernel

end Routes.Token
