import Routes.Proofs.Grammar.Relaid
import Routes.Proofs.Grammar.Viable
/-!
Sources in another layout. Main statement: of the places of tokens only those matter where one token
touches the next, so that another gap between two tokens changes nothing but places.
-/
namespace Routes

namespace Grammar

variable {ts us : List Token} {t u : Token} {before before' : Option Nat} {s : Phase} {k : Nat}
  {e : ParseError}

theorem Phase.step_congr (h : t.kind = u.kind) (touches : Bool) :
    s.step touches t = s.step touches u := by
  obtain ⟨k, text, p, n⟩ := t
  obtain ⟨k', text', p', n'⟩ := u
  obtain rfl : k = k' := h
  cases s <;> rfl

theorem IsRelaid.stops (h : IsRelaid ts us)
    (hhead : ∀ t ∈ ts.head?, ∀ u ∈ us.head?,
      (before = some t.position.offset ↔ before' = some u.position.offset))
    (hstops : Stops s before ts k e) : ∃ u, Stops s before' us k ⟨e.expected, u⟩ ∧
      e.found.kind = u.kind ∧ e.found.text = u.text := by
  have htouch {t u : Token} {before before' : Option Nat}
      (h : before = some t.position.offset ↔ before' = some u.position.offset) :
      (before == some t.position.offset) = (before' == some u.position.offset) := by
    rwa [Bool.eq_iff_iff, beq_iff_eq, beq_iff_eq]
  induction hstops generalizing us before' with
  | here hstep =>
    cases h with
    | cons hk htext _ _ =>
      rw [htouch (hhead _ rfl _ rfl), Phase.step_congr hk] at hstep
      exact ⟨_, .here hstep, hk, htext⟩
  | later hstep _ ih =>
    cases h with
    | cons hk htext hnext h =>
      rw [htouch (hhead _ rfl _ rfl), Phase.step_congr hk] at hstep
      have hend (t t' : Token) : some t.endOffset = some t'.position.offset ↔ Adjacent t t' := by
        rw [Option.some.injEq, Adjacent, eq_comm]
      obtain ⟨u', hstops', hfound⟩ := ih h fun t ht u hu =>
        (hend _ t).trans ((hnext t ht u hu).trans (hend _ u).symm)
      exact ⟨u', .later hstep hstops', hfound⟩

end Grammar

namespace Cursor
open Grammar
variable {ts us : List Token} {t : Token}

theorem stream_ofTokens_finish (h : t.kind = .finish) (ts : List Token) :
    (ofTokens (t :: ts)).stream = [t] := by
  simp [ofTokens, stream, h]

theorem stream_ofTokens_single (h : t.kind ≠ .finish) :
    (ofTokens [t]).stream = [t, finishAfter [t]] := by
  simp [ofTokens, stream, h]

theorem stream_ofTokens_cons {t' : Token} (h : t.kind ≠ .finish) (ts : List Token) :
    (ofTokens (t :: t' :: ts)).stream = t :: (ofTokens (t' :: ts)).stream := by
  have hlast : finishAfter (t :: t' :: ts) = finishAfter (t' :: ts) := by
    rw [finishAfter, List.getLast?_cons_cons, finishAfter]
  simp [ofTokens, stream, h, hlast]

theorem head?_stream_ofTokens (t : Token) (ts : List Token) :
    (ofTokens (t :: ts)).stream.head? = some t := by
  by_cases h : t.kind = .finish
  · rw [stream_ofTokens_finish h]
    rfl
  · cases ts with
    | nil => rw [stream_ofTokens_single h]; rfl
    | cons t' ts => rw [stream_ofTokens_cons h]; rfl

/-- The end of the input stands directly behind the last token where there is none. -/
theorem isRelaid_stream (h : IsRelaid ts us) :
    IsRelaid (ofTokens ts).stream (ofTokens us).stream := by
  induction h with
  | nil => exact .cons rfl rfl (fun t ht => nomatch ht) .nil
  | @cons t u ts us hk htext hnext h ih =>
    by_cases hfinish : t.kind = .finish
    · rw [stream_ofTokens_finish hfinish, stream_ofTokens_finish (hk ▸ hfinish)]
      exact .cons hk htext (fun t ht => nomatch ht) .nil
    · have hfinish' : u.kind ≠ .finish := hk ▸ hfinish
      cases h with
      | nil =>
        rw [stream_ofTokens_single hfinish, stream_ofTokens_single hfinish']
        refine .cons hk htext (fun t' ht' u' hu' => ?_)
          (.cons rfl rfl (fun t ht => nomatch ht) .nil)
        cases ht'
        cases hu'
        exact iff_of_true rfl rfl
      | cons =>
        rw [stream_ofTokens_cons hfinish, stream_ofTokens_cons hfinish']
        refine .cons hk htext (fun t' ht' u' hu' => ?_) ih
        rw [head?_stream_ofTokens] at ht' hu'
        exact hnext t' ht' u' hu'

end Cursor

namespace Declarations
open Grammar
variable {ts us : List Token}

/-- Two streams that declare the same but for places, or fail at the same token where the same is
expected and the same found. -/
def ReadAlike (ts us : List Token) : Prop :=
  (∃ ds ds', ofTokens ts = .ok ds ∧ ofTokens us = .ok ds' ∧ ds.unplaced = ds'.unplaced) ∨
    ∃ k e e', ofTokens ts = .error e ∧ ofTokens us = .error e' ∧
      FailsAt (Cursor.ofTokens ts).stream k e ∧ FailsAt (Cursor.ofTokens us).stream k e' ∧
      e.expected = e'.expected ∧ e.found.kind = e'.found.kind ∧ e.found.text = e'.found.text

theorem exists_ofTokens_of_isRelaid {ds : Declarations} (h : IsRelaid ts us)
    (hread : ofTokens ts = .ok ds) : ∃ ds', ofTokens us = .ok ds' ∧ ds.unplaced = ds'.unplaced := by
  have hsource := Cursor.isSource_of_declarations (Cursor.bounded_ofTokens ts).finish hread
  -- No token stands in front of a stream, so one is made up that the first does not touch.
  have hapart (c : Cursor) : ∀ t ∈ c.stream.head?,
      ¬Adjacent (.finishAt ⟨0, 0, c.peek.position.offset + 1⟩) t := by
    intro t ht hadj
    rw [Cursor.head?_stream] at ht
    obtain rfl := Option.some.inj ht
    exact Nat.succ_ne_self _ hadj.symm
  have halike := (Cursor.isRelaid_stream h).alike fun t ht u hu =>
    iff_of_false (hapart _ t ht) (hapart _ u hu)
  obtain ⟨ds', hsource', hunplaced⟩ := hsource.alike halike
  have hfinish := (Cursor.bounded_ofTokens us).finish
  exact ⟨ds', Cursor.declarations_of_isSource hsource' rfl hfinish, hunplaced.symm⟩

theorem readAlike_of_isRelaid (h : IsRelaid ts us) : ReadAlike ts us := by
  cases hread : ofTokens ts with
  | ok ds =>
    obtain ⟨ds', hread', hunplaced⟩ := exists_ofTokens_of_isRelaid h hread
    exact .inl ⟨ds, ds', hread, hread', hunplaced⟩
  | error e =>
    obtain ⟨k, hk⟩ := ofTokens_eq_error_iff.1 hread
    have hstart (t u : Token) :
        (none : Option Nat) = some t.position.offset ↔ none = some u.position.offset :=
      iff_of_false nofun nofun
    obtain ⟨u, hstops, hkind, htext⟩ :=
      (Cursor.isRelaid_stream h).stops (fun t _ u _ => hstart t u) hk
    exact .inr ⟨k, e, _, hread, ofTokens_eq_error_iff.2 ⟨k, hstops⟩, failsAt_of_stops hk,
      failsAt_of_stops hstops, rfl, hkind, htext⟩

end Declarations

namespace Token
open Grammar (Adjacent IsRelaid)
variable {front gap gap' back : List Char} {ts us : List Token}

/-- A gap behind whole tokens that is as long as it can be. -/
structure StandsBetween (front gap back : List Char) : Prop where
  tokens : ∃ us, LexesTo ['%'] (gap ++ back) .start front us
  isGap : IsGap ['%'] gap back
  isPlain : IsPlain ['%'] back

/-- In front of each token of a source stands such a gap, which may be empty. -/
theorem exists_standsBetween {source : String} {t : Token} (hscan : scan source = .ok ts)
    (ht : t ∈ ts) : ∃ front gap back, source.toList = front ++ (gap ++ back) ∧
      StandsBetween front gap back ∧ t.position = Position.start.advance (front ++ gap) := by
  rw [scan_eq] at hscan
  obtain ⟨us, q, rfl, hlexes⟩ := scanFrom_eq_ok_iff.1 hscan
  have hgap {vs : List Token} {q : Position} {last : List Char}
      (h : Lexes ['%'] .start source.toList vs q last) : ∃ front gap back,
      source.toList = front ++ (gap ++ back) ∧ StandsBetween front gap back ∧
        q = Position.start.advance (front ++ gap) := by
    obtain ⟨x, gap, htext, hto, hisGap, hplain, rfl⟩ := h.exists_lexesTo
    rw [← Position.advance_append]
    exact ⟨x, gap, last, htext, ⟨⟨vs, hto⟩, hisGap, hplain⟩, rfl⟩
  rcases List.mem_append.1 ht with ht | ht
  · obtain ⟨vs, x, rest, hfront, -, hplace⟩ := hlexes.upTo ht
    rw [hplace]
    exact hgap hfront
  · rw [List.mem_singleton.1 ht]
    exact hgap hlexes

/-- Another gap moves the tokens behind it, and no token touches those in front of it. -/
theorem scan_of_standsBetween (h : StandsBetween front gap back) (h' : IsGap ['%'] gap' back)
    (hgap : gap ≠ []) (hgap' : gap' ≠ []) :
    (∃ ts us, scan (String.ofList (front ++ (gap ++ back))) = .ok ts ∧
      scan (String.ofList (front ++ (gap' ++ back))) = .ok us ∧ IsRelaid ts us) ∨
    ∃ e e', scan (String.ofList (front ++ (gap ++ back))) = .error e ∧
      scan (String.ofList (front ++ (gap' ++ back))) = .error e' ∧
      e.unexpected = e'.unexpected := by
  obtain ⟨us, hto⟩ := h.tokens
  have hto' := hto.congr (h.isGap.separates_of_ne_nil hgap back)
    (h'.separates_of_ne_nil hgap' back)
  rw [scan_eq, scan_eq, String.toList_ofList, String.toList_ofList, hto.scanFrom, hto'.scanFrom,
    scanFrom_of_isGap h.isGap, scanFrom_of_isGap h']
  have hapart {gap : List Char} (hgap : gap ≠ []) {vs : List Token}
      (hvs : scanFrom ['%'] ((Position.start.advance front).advance gap) back = .ok vs) :
      ∀ l ∈ us.getLast?, ∀ v ∈ vs.head?, ¬Adjacent l v := by
    intro l hl v hv hadj
    obtain ⟨vs', rfl⟩ := List.head?_eq_some_iff.1 hv
    have hle := offset_le_of_scanFrom hvs
    have hpos := Text.byteLength_pos hgap
    rw [Adjacent, hto.endOffset_last hl] at hadj
    rw [Position.advance_offset] at hle
    omega
  rcases scanFrom_ok_or_error ['%'] ((Position.start.advance front).advance gap) back with
    ⟨vs, hvs⟩ | ⟨e, he⟩
  · obtain ⟨vs', hvs', hshift⟩ := scanFrom_shift hvs ((Position.start.advance front).advance gap')
    rw [hvs, hvs']
    refine .inl ⟨_, _, rfl, rfl, (isRelaid_of_isShift hshift).append_left us ?_⟩
    intro l hl v hv v' hv'
    exact iff_of_false (hapart hgap hvs l hl v hv) (hapart hgap' hvs' l hl v' hv')
  · obtain ⟨q, he'⟩ := scanFrom_error_shift he ((Position.start.advance front).advance gap')
    rw [he, he']
    exact .inr ⟨e, _, rfl, rfl, rfl⟩

end Token

/-- Two outcomes of reading sources that differ in nothing but places. -/
inductive DifferInPlaces :
    Except LoadError Declarations → Except LoadError Declarations → Prop
  | ok {ds ds'} : ds.unplaced = ds'.unplaced → DifferInPlaces (.ok ds) (.ok ds')
  | scan {e e'} : e.unexpected = e'.unexpected →
      DifferInPlaces (.error (.scan e)) (.error (.scan e'))
  | parse {e e'} : e.expected = e'.expected → e.found.kind = e'.found.kind →
      e.found.text = e'.found.text → DifferInPlaces (.error (.parse e)) (.error (.parse e'))

namespace Declarations
open Grammar Token
variable {front gap gap' back : List Char}

theorem ofSource_of_standsBetween (h : StandsBetween front gap back)
    (h' : IsGap ['%'] gap' back) (hgap : gap ≠ []) (hgap' : gap' ≠ []) :
    DifferInPlaces (ofSource (String.ofList (front ++ (gap ++ back))))
      (ofSource (String.ofList (front ++ (gap' ++ back)))) := by
  rcases scan_of_standsBetween h h' hgap hgap' with
    ⟨ts, us, hts, hus, hrelaid⟩ | ⟨e, e', he, he', hchar⟩
  · rw [ofSource, ofSource, hts, hus]
    show DifferInPlaces ((ofTokens ts).mapError .parse) ((ofTokens us).mapError .parse)
    rcases readAlike_of_isRelaid hrelaid with
      ⟨ds, ds', hds, hds', hunplaced⟩ | ⟨k, e, e', he, he', -, -, hexpected, hkind, htext⟩
    · rw [hds, hds']
      exact .ok hunplaced
    · rw [he, he']
      exact .parse hexpected hkind htext
  · rw [ofSource, ofSource, he, he']
    exact .scan hchar

/-- Layout has no meaning: streams in which the same tokens touch declare the same or fail at the
same token, and another gap between two tokens of a source changes nothing but places. -/
theorem layout_without_meaning :
    (∀ ts us : List Token, IsRelaid ts us → ReadAlike ts us) ∧
      ∀ front gap gap' back : List Char, StandsBetween front gap back → IsGap ['%'] gap' back →
        gap ≠ [] → gap' ≠ [] →
        DifferInPlaces (ofSource (String.ofList (front ++ (gap ++ back))))
          (ofSource (String.ofList (front ++ (gap' ++ back)))) :=
  ⟨fun _ _ h => readAlike_of_isRelaid h,
    fun _ _ _ _ h h' hgap hgap' => ofSource_of_standsBetween h h' hgap hgap'⟩

/-- A stream that fails at its second token, wherever that stands. -/
def unnamedDefault (p : Position) : List Token :=
  [⟨.keyword .default, "default", .start, 7⟩, ⟨.ident, "x", p, 1⟩]

theorem isRelaid_unnamedDefault :
    IsRelaid (unnamedDefault ⟨1, 9, 8⟩) (unnamedDefault ⟨2, 1, 8⟩) := by
  refine .cons rfl rfl (fun t ht u hu => ?_) (.cons rfl rfl (fun t ht => nomatch ht) .nil)
  cases ht
  cases hu
  exact iff_of_false (by decide) (by decide)

theorem standsBetween_controller :
    StandsBetween "controller".toList " ".toList "A actions".toList := by
  have hfirst : splitTrivia ['%'] false "controller A actions".toList =
      ([], "controller A actions".toList) := by decide
  have hsecond : splitTrivia ['%'] false " A actions".toList =
      (" ".toList, "A actions".toList) := by decide
  have htakes : Takes "controller".toList (.keyword .controller) ([] ++ " A actions".toList) :=
    takes_iff.2 (by decide)
  obtain ⟨-, -, hplain⟩ := splitTrivia_eq_iff.1 hfirst
  obtain ⟨-, hgap, hplain'⟩ := splitTrivia_eq_iff.1 hsecond
  exact ⟨⟨_, .cons .nil hplain htakes .nil⟩, hgap, hplain'⟩

theorem layout_without_meaning_note :
    IsRelaid (unnamedDefault ⟨1, 9, 8⟩) (unnamedDefault ⟨2, 1, 8⟩) ∧
      ReadAlike (unnamedDefault ⟨1, 9, 8⟩) (unnamedDefault ⟨2, 1, 8⟩) ∧
      StandsBetween "controller".toList " ".toList "A actions".toList ∧
      IsGap ['%'] "% all\n".toList "A actions".toList ∧
      DifferInPlaces (ofSource "controller A actions") (ofSource "controller% all\nA actions") := by
  have htrivia : splitTrivia ['%'] false "% all\nA actions".toList =
      ("% all\n".toList, "A actions".toList) := by decide
  obtain ⟨-, hgap, -⟩ := splitTrivia_eq_iff.1 htrivia
  have hsource := layout_without_meaning.2 _ _ _ _ standsBetween_controller hgap (by decide)
    (by decide)
  exact ⟨isRelaid_unnamedDefault, layout_without_meaning.1 _ _ isRelaid_unnamedDefault,
    standsBetween_controller, hgap, hsource⟩

end Declarations
end Routes
