import Routes.Proofs.Token.Gap
import Routes.Proofs.Token.Takes
/-!
The tokens of a text as a relation. Main statement: scanning gives the tokens that are read up to
the end of the text, or the place and the character at which no token can be read.
-/
namespace Routes.Token

/-- The tokens that are read from a text at a place, up to a place with a rest. Each token stands
behind a gap that is as long as it can be. -/
inductive Lexes (marker : List Char) :
    Position → List Char → List Token → Position → List Char → Prop
  | stop {p gap rest} : IsGap marker gap rest → IsPlain marker rest →
      Lexes marker p (gap ++ rest) [] (p.advance gap) rest
  | token {p gap w k rest ts q last} : IsGap marker gap (w ++ rest) → IsPlain marker (w ++ rest) →
      Takes w k rest → Lexes marker (p.advance (gap ++ w)) rest ts q last →
      Lexes marker p (gap ++ (w ++ rest))
        (⟨k, String.ofList w, p.advance gap, Text.byteLength w⟩ :: ts) q last

variable {marker cs w rest last : List Char} {p q : Position} {ts us : List Token} {k : Kind}
  {e : ScanError}

theorem Takes.ne_nil (h : Takes w k rest) : w ≠ [] := by
  intro hw
  have hpos := lexemeAt_pos (takes_iff.1 h)
  rw [hw] at hpos
  exact Nat.lt_irrefl 0 hpos

theorem scanFrom_of_isPlain {gap : List Char} (hgap : IsGap marker gap (w ++ rest))
    (hplain : IsPlain marker (w ++ rest)) (htakes : Takes w k rest) :
    scanFrom marker p (gap ++ (w ++ rest)) =
      (scanFrom marker (p.advance (gap ++ w)) rest).map
        (⟨k, String.ofList w, p.advance gap, Text.byteLength w⟩ :: ·) := by
  have hs := splitTrivia_eq_iff.2 ⟨rfl, hgap, hplain⟩
  have hl := takes_iff.1 htakes
  obtain ⟨c, w, rfl⟩ := List.exists_cons_of_ne_nil htakes.ne_nil
  rw [List.cons_append] at hs hl ⊢
  rw [scanFrom_token hs hl, ← List.cons_append, List.take_left, List.drop_left]

theorem scanFrom_of_lexes (h : Lexes marker p cs us q []) :
    scanFrom marker p cs = .ok (us ++ [finishAt q]) := by
  generalize hlast : ([] : List Char) = last at h
  induction h with
  | stop hgap hplain =>
    subst hlast
    exact scanFrom_done (splitTrivia_eq_iff.2 ⟨rfl, hgap, hplain⟩)
  | token hgap hplain htakes _ ih =>
    rw [scanFrom_of_isPlain hgap hplain htakes, ih hlast]
    rfl

theorem scanFrom_error_of_lexes {c : Char} (h : Lexes marker p cs us q (c :: rest))
    (hc : lexemeAt (c :: rest) = none) : scanFrom marker p cs = .error ⟨q, c⟩ := by
  generalize hlast : c :: rest = last at h
  induction h with
  | stop hgap hplain =>
    subst hlast
    exact scanFrom_error (splitTrivia_eq_iff.2 ⟨rfl, hgap, hplain⟩) hc
  | token hgap hplain htakes _ ih =>
    rw [scanFrom_of_isPlain hgap hplain htakes, ih hlast]
    rfl

/-- Whatever the text, tokens are read up to its end or up to a character that begins none. -/
theorem exists_lexes (marker : List Char) (p : Position) (cs : List Char) : ∃ us q last,
    Lexes marker p cs us q last ∧ ∀ c rest, last = c :: rest → lexemeAt (c :: rest) = none := by
  fun_induction scanFrom marker p cs with
  | case1 p cs blank hs =>
    obtain ⟨hcs, hgap, hplain⟩ := splitTrivia_eq_iff.1 hs
    subst hcs
    exact ⟨[], _, [], .stop hgap hplain, by simp⟩
  | case2 p cs blank c rest hs hl =>
    obtain ⟨hcs, hgap, hplain⟩ := splitTrivia_eq_iff.1 hs
    subst hcs
    refine ⟨[], _, c :: rest, .stop hgap hplain, fun c' rest' hlast => ?_⟩
    rw [← hlast]
    exact hl
  | case3 p cs blank c rest hs k n hl text token ih =>
    obtain ⟨us, q, last, hlexes, hnone⟩ := ih
    obtain ⟨hcs, hgap, hplain⟩ := splitTrivia_eq_iff.1 hs
    obtain ⟨w, rest', happend, hn, htakes⟩ := takes_of_lexemeAt hl
    subst hcs
    rw [happend, ← hn, List.drop_left] at hlexes
    have htext : text = w := by
      show (c :: rest).take n = w
      rw [happend, ← hn, List.take_left]
    rw [htext] at hlexes
    rw [happend] at hgap hplain ⊢
    exact ⟨_, q, last, .token hgap hplain htakes hlexes, hnone⟩

theorem scanFrom_eq_ok_iff : scanFrom marker p cs = .ok ts ↔
    ∃ us q, ts = us ++ [finishAt q] ∧ Lexes marker p cs us q [] := by
  constructor
  · intro h
    obtain ⟨us, q, last, hlexes, hnone⟩ := exists_lexes marker p cs
    cases last with
    | nil =>
      rw [scanFrom_of_lexes hlexes] at h
      exact ⟨us, q, (Except.ok.inj h).symm, hlexes⟩
    | cons c rest =>
      rw [scanFrom_error_of_lexes hlexes (hnone c rest rfl)] at h
      cases h
  · intro h
    obtain ⟨us, q, rfl, hlexes⟩ := h
    exact scanFrom_of_lexes hlexes

theorem scanFrom_eq_error_iff : scanFrom marker p cs = .error e ↔
    ∃ us rest, Lexes marker p cs us e.position (e.unexpected :: rest) ∧
      isFragmentChar e.unexpected = false ∧ isSymbolChar e.unexpected = false := by
  constructor
  · intro h
    obtain ⟨us, q, last, hlexes, hnone⟩ := exists_lexes marker p cs
    cases last with
    | nil =>
      rw [scanFrom_of_lexes hlexes] at h
      cases h
    | cons c rest =>
      rw [scanFrom_error_of_lexes hlexes (hnone c rest rfl)] at h
      obtain rfl := Except.error.inj h
      exact ⟨us, rest, hlexes, lexemeAt_eq_none_iff.1 (hnone c rest rfl)⟩
  · intro h
    obtain ⟨us, rest, hlexes, hc⟩ := h
    exact scanFrom_error_of_lexes hlexes (lexemeAt_eq_none_iff.2 hc)

theorem scanFrom_ok_or_error (marker : List Char) (p : Position) (cs : List Char) :
    (∃ ts, scanFrom marker p cs = .ok ts) ∨ ∃ e, scanFrom marker p cs = .error e := by
  cases scanFrom marker p cs with
  | ok ts => exact .inl ⟨ts, rfl⟩
  | error e => exact .inr ⟨e, rfl⟩

end Routes.Token
