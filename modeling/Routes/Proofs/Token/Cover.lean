import Routes.Proofs.Position
import Routes.Proofs.Token.Lexes
/-!
How the tokens of a source cover it. Main statement: every token stands in the source where it says,
no two of them overlap, nothing but white space and comments is left between them, and a place in
the source, that of an error too, has the line and the column that one counts in front of it.
-/
namespace Routes.Token
open Text (byteLength)

/-- A token whose text stands in a source from its place on. -/
structure StandsIn (t : Token) (source : List Char) : Prop where
  text : ∃ before after, source = before ++ (t.text.toList ++ after) ∧ t.position.IsBehind before
  size : t.size = byteLength t.text.toList

/-- A source has a gap from one offset to another. -/
def HasGap (marker source : List Char) (i j : Nat) : Prop :=
  ∃ before gap after, source = before ++ (gap ++ after) ∧ byteLength before = i ∧
    byteLength (before ++ gap) = j ∧ IsGap marker gap after

/-- From an offset on, a source has a gap in front of each token. -/
def HasGaps (marker source : List Char) : Nat → List Token → Prop
  | _, [] => True
  | i, t :: ts =>
    HasGap marker source i t.position.offset ∧ HasGaps marker source t.endOffset ts

structure Covers (marker source : List Char) (ts : List Token) : Prop where
  finish : ∃ us p, ts = us ++ [finishAt p] ∧ p.offset = byteLength source ∧
    ∀ t ∈ us, t.kind ≠ .finish ∧ t.text ≠ ""
  stands : ∀ t ∈ ts, t.StandsIn source
  ordered : ts.Pairwise fun t u =>
    t.position.offset < u.position.offset ∧ t.endOffset ≤ u.position.offset
  gaps : HasGaps marker source 0 ts

variable {marker source cs before last : List Char} {p q : Position} {t : Token}
  {us ts : List Token} {i j : Nat}

theorem HasGap.le (h : HasGap marker source i j) : i ≤ j := by
  obtain ⟨before, gap, after, -, hi, hj, -⟩ := h
  rw [Text.byteLength_append] at hj
  omega

/-- Gaps leave no room for tokens that overlap. -/
theorem HasGaps.ordered (h : HasGaps marker source i ts) :
    (∀ t ∈ ts, i ≤ t.position.offset) ∧
      ts.Pairwise fun t u => t.endOffset ≤ u.position.offset := by
  induction ts generalizing i with
  | nil => exact ⟨by simp, .nil⟩
  | cons t ts ih =>
    have hle : i ≤ t.position.offset := h.1.le
    have hend : t.position.offset ≤ t.endOffset := Nat.le_add_right _ _
    obtain ⟨hafter, hordered⟩ := ih h.2
    refine ⟨?_, List.pairwise_cons.2 ⟨hafter, hordered⟩⟩
    intro u hu
    rcases List.mem_cons.1 hu with rfl | hu
    · exact hle
    · have hu' := hafter u hu
      omega

theorem StandsIn.offset_lt (h : t.StandsIn source) (ht : t.text ≠ "") :
    t.position.offset < t.endOffset := by
  have hpos : 0 < byteLength t.text.toList := by
    refine Text.byteLength_pos ?_
    intro hnil
    exact ht (String.toList_eq_nil_iff.1 hnil)
  rw [endOffset, h.size]
  omega

theorem finishAt_standsIn (hq : q.IsBehind source) : (finishAt q).StandsIn source :=
  ⟨⟨source, [], by simp [finishAt], hq⟩, rfl⟩

/-- The text that has been read ends at the place that has been reached. -/
theorem Lexes.consumed (h : Lexes marker p cs us q last) :
    ∃ x, cs = x ++ last ∧ q = p.advance x := by
  induction h with
  | @stop p gap rest _ _ => exact ⟨gap, rfl, rfl⟩
  | @token p gap w k rest ts q last _ _ _ _ ih =>
    obtain ⟨x, hrest, hq⟩ := ih
    refine ⟨gap ++ w ++ x, by simp [hrest], ?_⟩
    rw [hq, ← Position.advance_append]

theorem Lexes.isBehind (h : Lexes marker (Position.start.advance before) cs us q last) :
    ∃ x, before ++ cs = x ++ last ∧ q.IsBehind x := by
  obtain ⟨x, hcs, hq⟩ := h.consumed
  refine ⟨before ++ x, by simp [hcs], ?_⟩
  rw [hq, ← Position.advance_append]
  exact Position.isBehind_advance _

theorem Takes.kind_ne_finish {w rest : List Char} {k : Kind} (h : Takes w k rest) : k ≠ .finish := by
  cases h <;> exact Kind.noConfusion

theorem Lexes.stands (h : Lexes marker (Position.start.advance before) cs us q last) :
    ∀ t ∈ us, t.StandsIn (before ++ cs) ∧ t.kind ≠ .finish ∧ t.text ≠ "" := by
  generalize hp : Position.start.advance before = p at h
  induction h generalizing before with
  | stop => simp
  | @token p gap w k rest ts q last _ _ htakes _ ih =>
    subst hp
    intro t ht
    rcases List.mem_cons.1 ht with rfl | ht
    · have hplace : ((Position.start.advance before).advance gap).IsBehind (before ++ gap) := by
        rw [← Position.advance_append]
        exact Position.isBehind_advance _
      have htext : w = (String.ofList w).toList := String.toList_ofList.symm
      refine ⟨⟨⟨before ++ gap, rest, by simp, hplace⟩, ?_⟩, htakes.kind_ne_finish, ?_⟩
      · exact congrArg byteLength htext
      · intro hempty
        exact htakes.ne_nil (htext.trans (String.toList_eq_nil_iff.2 hempty))
    · have hsource : before ++ (gap ++ (w ++ rest)) = (before ++ (gap ++ w)) ++ rest := by simp
      rw [hsource]
      exact ih (Position.advance_append ..) t ht

theorem Lexes.gaps (h : Lexes marker (Position.start.advance before) cs us q []) :
    HasGaps marker (before ++ cs) (byteLength before) (us ++ [finishAt q]) := by
  generalize hp : Position.start.advance before = p at h
  generalize hlast : ([] : List Char) = last at h
  induction h generalizing before with
  | @stop p gap rest hgap _ =>
    subst hp hlast
    refine ⟨⟨before, gap, [], by simp, rfl, ?_, hgap⟩, trivial⟩
    have hend := Position.isBehind_advance (before ++ gap)
    rw [Position.advance_append] at hend
    exact hend.offset.symm
  | @token p gap w k rest ts q last hgap _ _ _ ih =>
    subst hp
    have hplace := (Position.isBehind_advance (before ++ gap)).offset
    rw [Position.advance_append] at hplace
    refine ⟨⟨before, gap, w ++ rest, rfl, rfl, hplace.symm, hgap⟩, ?_⟩
    have hsource : before ++ (gap ++ (w ++ rest)) = (before ++ (gap ++ w)) ++ rest := by simp
    have hend : ((Position.start.advance before).advance gap).offset + byteLength w =
        byteLength (before ++ (gap ++ w)) := by
      rw [hplace]
      simp only [Text.byteLength_append]
      omega
    rw [hsource]
    show HasGaps marker _ (((Position.start.advance before).advance gap).offset + byteLength w) _
    rw [hend]
    exact ih (Position.advance_append ..) hlast

theorem covers_of_lexes (h : Lexes marker .start source us q []) :
    Covers marker source (us ++ [finishAt q]) := by
  have h' : Lexes marker (Position.start.advance []) source us q [] := h
  have hstands := h'.stands
  have hgaps : HasGaps marker source 0 (us ++ [finishAt q]) := h'.gaps
  have hq : q.IsBehind source := by
    obtain ⟨x, hx, hq⟩ := h'.isBehind
    rw [List.nil_append, List.append_nil] at hx
    exact hx ▸ hq
  refine ⟨⟨us, q, rfl, hq.offset, fun t ht => (hstands t ht).2⟩, ?_, ?_, hgaps⟩
  · intro t ht
    rcases List.mem_append.1 ht with ht | ht
    · exact (hstands t ht).1
    · rw [List.mem_singleton.1 ht]
      exact finishAt_standsIn hq
  · -- Only the end of the input is empty, and nothing comes behind it.
    have hordered := hgaps.ordered.2
    have hstrict : ∀ t ∈ us, ∀ u : Token, t.endOffset ≤ u.position.offset →
        t.position.offset < u.position.offset ∧ t.endOffset ≤ u.position.offset := by
      intro t ht u hle
      have hlt := (hstands t ht).1.offset_lt (hstands t ht).2.2
      exact ⟨by omega, hle⟩
    rw [List.pairwise_append] at hordered ⊢
    obtain ⟨hus, -, hend⟩ := hordered
    refine ⟨hus.imp_of_mem fun ht _ hle => hstrict _ ht _ hle, List.pairwise_singleton _ _, ?_⟩
    intro t ht u hu
    exact hstrict t ht u (hend t ht u hu)

/-- Scanning a source comes to an end, whatever the comment marker: with tokens that cover the
source, or with a character of the source and its place. -/
theorem scanWith_covers (marker source : String) :
    (∃ ts, scanWith marker source = .ok ts ∧ Covers marker.toList source.toList ts) ∨
      ∃ e, scanWith marker source = .error e ∧ ∃ before after,
        source.toList = before ++ e.unexpected :: after ∧ e.position.IsBehind before := by
  rcases scanFrom_ok_or_error marker.toList .start source.toList with ⟨ts, hts⟩ | ⟨e, he⟩
  · obtain ⟨us, q, rfl, hlexes⟩ := scanFrom_eq_ok_iff.1 hts
    exact .inl ⟨_, hts, covers_of_lexes hlexes⟩
  · obtain ⟨us, rest, hlexes, -⟩ := scanFrom_eq_error_iff.1 he
    have hlexes' : Lexes marker.toList (Position.start.advance []) source.toList us e.position
        (e.unexpected :: rest) := hlexes
    obtain ⟨before, hsource, hplace⟩ := hlexes'.isBehind
    exact .inr ⟨e, he, before, rest, hsource, hplace⟩

/-- A marker that begins with white space opens no comment, and a comment with a line feed in its
marker ends in front of it. -/
example : (scanWith " %" "a").isOk = true ∧ (scanWith " %" "a %").isOk = false ∧
    (scanWith "a\nb" "a\nb").toOption.map (·.length) = some 2 := by
  decide +kernel

end Routes.Token
