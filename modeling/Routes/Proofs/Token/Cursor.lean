import Routes.Token.Cursor
/-!
What reading does to a cursor. A cursor that has read some tokens holds the rest of them, and the
stream of a cursor is what is still to be read with the end of the input behind it.
-/
namespace Routes.Cursor
variable {c c' c'' : Cursor} {t : Token} {ts us : List Token} {k : Token.Kind} {e : Expected}

def stream (c : Cursor) : List Token := c.ahead ++ [c.finish]

/-- One cursor is another after some tokens have been read. -/
structure Reads (c : Cursor) (ts : List Token) (c' : Cursor) : Prop where
  ahead : c.ahead = ts ++ c'.ahead
  before : c'.before = (ts.getLast?.map Token.endOffset).or c.before
  finish : c'.finish = c.finish

namespace Reads

theorem nil (c : Cursor) : c.Reads [] c := ⟨rfl, rfl, rfl⟩

theorem trans (h : c.Reads ts c') (h' : c'.Reads us c'') : c.Reads (ts ++ us) c'' where
  ahead := by rw [h.ahead, h'.ahead, List.append_assoc]
  before := by
    rw [h'.before, h.before, List.getLast?_append]
    cases us.getLast? <;> simp
  finish := h'.finish.trans h.finish

theorem stream (h : c.Reads ts c') : c.stream = ts ++ c'.stream := by
  simp [Cursor.stream, h.ahead, h.finish]

theorem split (ts : List Token) (h : c.Reads (ts ++ us) c'') :
    ∃ c', c.Reads ts c' ∧ c'.Reads us c'' := by
  refine ⟨⟨(ts.getLast?.map Token.endOffset).or c.before, us ++ c''.ahead, c.finish⟩,
    ⟨?_, rfl, rfl⟩, ⟨rfl, ?_, h.finish⟩⟩
  · rw [h.ahead, List.append_assoc]
  · rw [h.before, List.getLast?_append]
    cases us.getLast? <;> simp

theorem cons (h : c.Reads (t :: ts) c'') : ∃ c', c.Reads [t] c' ∧ c'.Reads ts c'' :=
  split [t] h

theorem eq_of_nil (h : c.Reads [] c') : c' = c := by
  obtain ⟨before, ahead, finish⟩ := c
  obtain ⟨before', ahead', finish'⟩ := c'
  obtain ⟨ha, hb, hf⟩ := h
  simp_all

theorem unique (h : c.Reads ts c') (h' : c.Reads ts c'') : c' = c'' := by
  obtain ⟨before', ahead', finish'⟩ := c'
  obtain ⟨before'', ahead'', finish''⟩ := c''
  have hb := h.before.trans h'.before.symm
  have ha := List.append_cancel_left (h.ahead.symm.trans h'.ahead)
  have hf := h.finish.trans h'.finish.symm
  simp_all

end Reads

theorem head?_stream (c : Cursor) : c.stream.head? = some c.peek := by
  unfold stream peek
  cases c.ahead <;> rfl

theorem peek_of_stream (h : c.stream = t :: us) : c.peek = t := by
  have hp := head?_stream c
  rw [h] at hp
  exact (Option.some.inj hp).symm

/-- A part of the stream in front of more of it can be read. -/
theorem reads_of_stream (h : c.stream = ts ++ us) (hu : us ≠ []) :
    ∃ c', c.Reads ts c' ∧ c'.stream = us := by
  obtain ⟨init, last, rfl⟩ : ∃ init last, us = init ++ [last] :=
    ⟨_, _, (List.dropLast_concat_getLast hu).symm⟩
  rw [stream, ← List.append_assoc] at h
  obtain ⟨ha, hl⟩ := List.append_inj' h rfl
  cases hl
  exact ⟨⟨(ts.getLast?.map Token.endOffset).or c.before, init, c.finish⟩, ⟨ha, rfl, rfl⟩, rfl⟩

theorem reads_cons_of_stream (h : c.stream = t :: us) (hu : us ≠ []) :
    ∃ c', c.Reads [t] c' ∧ c'.stream = us :=
  reads_of_stream (show c.stream = [t] ++ us from h) hu

theorem takeIf_eq_ok_iff {test : Token → Bool} :
    c.takeIf test e = .ok (t, c') ↔ test t = true ∧ c.Reads [t] c' := by
  constructor
  · intro h
    obtain ⟨ha, ht, hb, hf⟩ := takeIf_eq_ok h
    exact ⟨ht, ha, by simpa using hb, hf⟩
  · rintro ⟨ht, ha, hb, hf⟩
    obtain ⟨before', ahead', finish'⟩ := c'
    simp only [List.singleton_append] at ha
    simp [takeIf, ha, ht] at hb hf ⊢
    exact ⟨hb.symm, hf.symm⟩

theorem take_eq_ok_iff : c.take k = .ok (t, c') ↔ t.kind = k ∧ c.Reads [t] c' := by
  rw [take, takeIf_eq_ok_iff, beq_iff_eq]

theorem skip_of_reads (h : c.Reads [t] c') (hk : t.kind = k) : c.skip k = (true, c') := by
  obtain ⟨before', ahead', finish'⟩ := c'
  have ha := h.ahead
  have hb := h.before
  have hf := h.finish
  simp only [List.singleton_append] at ha
  simp [skip, ha, hk] at hb hf ⊢
  exact ⟨hb.symm, hf.symm⟩

theorem sees_eq_true_iff : c.sees k = true ↔ ∃ t c', t.kind = k ∧ c.Reads [t] c' := by
  constructor
  · intro h
    obtain ⟨before, ahead, finish⟩ := c
    cases ahead with
    | nil => simp [sees] at h
    | cons t ts =>
      exact ⟨t, ⟨some t.endOffset, ts, finish⟩, by simpa [sees] using h, rfl, rfl, rfl⟩
  · rintro ⟨t, c', hk, h⟩
    simp [sees, h.ahead, hk]

theorem skip_of_not_sees (h : c.sees k = false) : c.skip k = (false, c) := by
  unfold skip
  unfold sees at h
  split
  · rename_i t ts ha
    simp only [ha, List.head?_cons, Option.any_some] at h
    simp [h]
  · rfl

theorem sees_of_reads (h : c.Reads (t :: ts) c') : c.sees t.kind = true := by
  simp [sees, h.ahead]

theorem not_sees_of_peek (h : c.peek.kind ≠ k) : c.sees k = false := by
  obtain ⟨before, ahead, finish⟩ := c
  cases ahead with
  | nil => rfl
  | cons t ts => simpa [sees, peek] using h

theorem peek_of_reads (h : c.Reads (t :: ts) c') : c.peek = t := by
  simp [peek, h.ahead]

/-- No end of the input stands in front of the last one. -/
structure Bounded (c : Cursor) : Prop where
  ahead : ∀ t ∈ c.ahead, t.kind ≠ .finish
  finish : c.finish.kind = .finish

namespace Bounded

theorem of_reads (hc : c.Bounded) (h : c.Reads ts c') : c'.Bounded where
  ahead t ht := hc.ahead t (h.ahead ▸ List.mem_append_right ts ht)
  finish := h.finish ▸ hc.finish

theorem skip (hc : c.Bounded) (k : Token.Kind) : (c.skip k).2.Bounded := by
  cases hsees : c.sees k with
  | true =>
    obtain ⟨t, c', hk, hr⟩ := sees_eq_true_iff.1 hsees
    rw [skip_of_reads hr hk]
    exact hc.of_reads hr
  | false => rwa [skip_of_not_sees hsees]

theorem isEmpty_ahead (hc : c.Bounded) : c.ahead.isEmpty = (c.peek.kind == .finish) := by
  obtain ⟨before, ahead, finish⟩ := c
  cases ahead with
  | nil => simp [peek, show finish.kind = .finish from hc.finish]
  | cons t ts => simp [peek, hc.ahead t (by simp)]

end Bounded

theorem takeIf_cases {test : Token → Bool} (hc : c.Bounded)
    (htest : ∀ t, t.kind = .finish → test t = false) (e : Expected) :
    (∃ c', test c.peek = true ∧ c.Reads [c.peek] c' ∧ c.takeIf test e = .ok (c.peek, c')) ∨
      test c.peek = false ∧ c.takeIf test e = c.fail e := by
  obtain ⟨before, ahead, finish⟩ := c
  cases ahead with
  | nil => exact .inr ⟨htest finish hc.finish, rfl⟩
  | cons t ts =>
    cases ht : test t with
    | true =>
      exact .inl ⟨⟨some t.endOffset, ts, finish⟩, ht, ⟨rfl, rfl, rfl⟩, by simp [takeIf, ht, peek]⟩
    | false => exact .inr ⟨ht, by simp [takeIf, ht]⟩

theorem skip_of_peek (hc : c.Bounded) (hk : k ≠ .finish) (hpeek : c.peek.kind = k) :
    ∃ c', c.Reads [c.peek] c' ∧ c.skip k = (true, c') := by
  obtain ⟨before, ahead, finish⟩ := c
  cases ahead with
  | nil => exact absurd (hpeek.symm.trans hc.finish) hk
  | cons t ts =>
    have hr : Reads ⟨before, t :: ts, finish⟩ [t] ⟨some t.endOffset, ts, finish⟩ := ⟨rfl, rfl, rfl⟩
    exact ⟨_, hr, skip_of_reads hr hpeek⟩

theorem sees_eq (hc : c.Bounded) (hk : k ≠ .finish) : c.sees k = (c.peek.kind == k) := by
  cases hpeek : c.peek.kind == k with
  | true =>
    rw [beq_iff_eq] at hpeek
    obtain ⟨c', hr, -⟩ := skip_of_peek hc hk hpeek
    exact sees_eq_true_iff.2 ⟨_, c', hpeek, hr⟩
  | false => exact not_sees_of_peek (by simpa using hpeek)

end Routes.Cursor
