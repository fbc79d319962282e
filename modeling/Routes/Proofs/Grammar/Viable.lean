import Routes.Proofs.Grammar.Phase
import Routes.Proofs.Position
/-!
Where reading fails. Every phase but the last has tokens that lead on to the end of the input, so
what stands in front of a mistake can always be completed. Main statement: a failure names the first
token with which no stream can go on, and what stands behind that token has no influence.
-/
namespace Routes

namespace Grammar

/-- The phases go through some tokens and stop at the next one. -/
inductive Stops : Phase → Option Nat → List Token → Nat → ParseError → Prop
  | here {s before t ts e} : s.step (before == some t.position.offset) t = .error e →
      Stops s before (t :: ts) 0 ⟨e, t⟩
  | later {s s' before t ts k e} : s.step (before == some t.position.offset) t = .ok s' →
      Stops s' (some t.endOffset) ts k e → Stops s before (t :: ts) (k + 1) e

variable {s s' : Phase} {before : Option Nat} {front ts us : List Token} {e : ParseError} {k : Nat}

theorem exists_stops (h : s.reach before ts = .error e) : ∃ k, Stops s before ts k e := by
  induction ts generalizing s before with
  | nil => cases h
  | cons t ts ih =>
    simp only [Phase.reach] at h
    split at h
    · rename_i hstep
      obtain rfl := Except.error.inj h
      exact ⟨0, .here hstep⟩
    · rename_i hstep
      obtain ⟨k, hk⟩ := ih h
      exact ⟨k + 1, .later hstep hk⟩

namespace Stops

theorem found (h : Stops s before ts k e) : ts[k]? = some e.found := by
  induction h with
  | here => rfl
  | later _ _ ih => exact ih

theorem reach (h : Stops s before ts k e) : s.reach before ts = .error e := by
  induction h with
  | here hstep => rw [Phase.reach, hstep]
  | later hstep _ ih =>
    rw [Phase.reach, hstep]
    exact ih

/-- Only the tokens up to the one that stops the phases decide that it does. -/
theorem reach_take_succ (h : Stops s before ts k e) :
    s.reach before (ts.take (k + 1)) = .error e := by
  induction h with
  | here hstep => rw [List.take_succ_cons, Phase.reach, hstep]
  | later hstep _ ih =>
    rw [List.take_succ_cons, Phase.reach, hstep]
    exact ih

/-- The last phase goes on with anything. -/
theorem exists_reach_take (h : Stops s before ts k e) :
    ∃ s', s.reach before (ts.take k) = .ok s' ∧ s' ≠ .done := by
  induction h with
  | @here s _ _ _ _ hstep => exact ⟨s, rfl, fun hs => by rw [hs] at hstep; cases hstep⟩
  | later hstep _ ih =>
    rw [List.take_succ_cons, Phase.reach, hstep]
    exact ih

end Stops

namespace Phase

theorem reach_append (h : s.reach before front = .ok s') (us : List Token) :
    s.reach before (front ++ us) =
      s'.reach ((front.getLast?.map Token.endOffset).or before) us := by
  induction front generalizing s before with
  | nil =>
    obtain rfl := Except.ok.inj h
    rfl
  | cons t front ih =>
    simp only [reach] at h
    split at h
    · cases h
    · rename_i hstep
      rw [List.cons_append, reach, hstep, List.getLast?_cons]
      dsimp only
      rw [ih h]
      cases front.getLast? <;> rfl

theorem reach_append_of_error (h : s.reach before ts = .error e) (us : List Token) :
    s.reach before (ts ++ us) = .error e := by
  induction ts generalizing s before with
  | nil => cases h
  | cons t ts ih =>
    simp only [reach] at h
    rw [List.cons_append, reach]
    split at h
    · exact h
    · exact ih h

/-- Only inside a URL it matters what the first token touches. -/
theorem reach_outside (before before' : Option Nat) (ts : List Token) :
    outside.reach before ts = outside.reach before' ts := by
  cases ts <;> rfl

/-- The kind of a token that leads nearer to the end of the input. -/
def onward : Phase → Token.Kind
  | controllerName | part | bracketName | colonName | defaultController | defaultName => .ident
  | controllerMark | actionsWord => .keyword .actions
  | arrow => .symbol .arrow
  | verb => .keyword .get
  | url => .symbol .slash
  | bracketColon | bracketClose => .symbol .greater
  | bracketKind | parenKind => .keyword .int
  | parenClose => .symbol .parenClose
  | defaultWord => .keyword .action
  | defaultHash => .symbol .hash
  | outside | actions | ending | closed | slash | partEnd | urlEnd | colonEnd | done => .finish

/-- How many tokens are needed before the input may end. -/
def distance : Phase → Nat
  | outside | actions | ending | closed | slash | partEnd | urlEnd | colonEnd | done => 0
  | controllerMark | actionsWord | url | part | bracketColon | bracketClose | colonName
  | parenClose | defaultName => 1
  | controllerName | verb | bracketName | bracketKind | parenKind | defaultHash => 2
  | arrow | defaultController => 3
  | defaultWord => 4

end Phase

/-- A token of a kind as it may stand at a place. -/
def sample (p : Position) (k : Token.Kind) : Token :=
  let text := match k with
    | .symbol s => s.spelling
    | .keyword k => k.spelling
    | .ident | .fragment => "x"
    | .finish => ""
  ⟨k, text, p, Text.byteLength text.toList⟩

namespace Phase
variable {s : Phase}

/-- Where the end of the input does not stand next, the next token shortens the way to it. -/
theorem step_onward (hs : s ≠ done) (p : Position) :
    ∃ s', s.step true (sample p s.onward) = .ok s' ∧
      if s.onward = .finish then s' = done else s' ≠ done ∧ s'.distance < s.distance := by
  cases s
  case done => exact absurd rfl hs
  all_goals exact ⟨_, rfl, by decide⟩

/-- Every phase can be completed with tokens that stand without gaps. -/
theorem exists_completion (hs : s ≠ done) (p : Position) :
    ∃ us f, (∀ t ∈ us, t.kind ≠ .finish) ∧ f.kind = .finish ∧
      s.reach (some p.offset) (us ++ [f]) = .ok done := by
  induction hn : s.distance using Nat.strongRecOn generalizing s p with
  | ind n ih =>
    obtain ⟨s', hstep, hnext⟩ := step_onward hs p
    have htouch : (some p.offset == some (sample p s.onward).position.offset) = true :=
      beq_self_eq_true _
    by_cases hfinish : s.onward = .finish
    · obtain rfl : s' = done := by simpa [hfinish] using hnext
      refine ⟨[], sample p s.onward, by simp, hfinish, ?_⟩
      rw [List.nil_append, reach, htouch, hstep]
      rfl
    · rw [if_neg hfinish] at hnext
      let q : Position := p.advance (sample p s.onward).text.toList
      have hq : q.offset = (sample p s.onward).endOffset := p.advance_offset _
      obtain ⟨us, f, hus, hf, hreach⟩ := ih s'.distance (hn ▸ hnext.2) hnext.1 q rfl
      refine ⟨sample p s.onward :: us, f, ?_, hf, ?_⟩
      · exact List.forall_mem_cons.2 ⟨hfinish, hus⟩
      · rw [List.cons_append, reach, htouch, hstep]
        rwa [hq] at hreach

end Phase
end Grammar

namespace Cursor
open Grammar
variable {c : Cursor} {front us ts : List Token} {t : Token} {e : ParseError} {k : Nat}

theorem declarations_eq_error_iff (hc : c.Bounded) :
    c.declarations = .error e ↔ Phase.outside.reach c.before c.stream = .error e := by
  rw [← map_eq_error (f := fun _ => Phase.done), ← verdict_outside hc, Phase.verdict]

theorem exists_declarations_iff (hc : c.Bounded) :
    (∃ ds, c.declarations = .ok ds) ↔ Phase.outside.reach c.before c.stream = .ok .done := by
  rw [← Phase.verdict, verdict_outside hc]
  cases c.declarations <;> simp [Except.map]

theorem bounded_ofTokens (ts : List Token) : (ofTokens ts).Bounded where
  ahead t ht := by simpa using List.all_eq_true.1 List.all_takeWhile t ht
  finish := by
    rw [ofTokens]
    cases hrest : ts.dropWhile (·.kind != .finish) with
    | nil => rfl
    | cons f rest =>
      have hf := List.head?_dropWhile_not (·.kind != .finish) ts
      simpa [hrest] using hf

/-- A stream begins with the tokens up to any that has no end of the input in front of it. -/
theorem prefix_stream_ofTokens (hfront : ∀ t ∈ front, t.kind ≠ .finish)
    (h : front ++ [t] <+: ts) : front ++ [t] <+: (ofTokens ts).stream := by
  obtain ⟨rest, rfl⟩ := h
  have hall : ∀ t ∈ front, (t.kind != .finish) = true := by simpa using hfront
  rw [List.append_assoc, ofTokens, stream, List.takeWhile_append_of_pos hall,
    List.dropWhile_append_of_pos hall]
  by_cases ht : t.kind = .finish
  · simp [ht]
  · simp [ht]

theorem kind_ne_finish_of_take (hc : c.Bounded) (h : c.stream[k]? = some t) :
    ∀ t ∈ c.stream.take k, t.kind ≠ .finish := by
  have hlength : k ≤ c.ahead.length := by
    have hlt := (List.getElem?_eq_some_iff.1 h).1
    rw [stream, List.length_append, List.length_singleton] at hlt
    omega
  rw [stream, List.take_append_of_le_length hlength]
  exact fun t ht => hc.ahead t (List.mem_of_mem_take ht)

end Cursor

open Grammar in
/-- Tokens that leave the phases somewhere before the end begin a stream that can be read. -/
theorem Declarations.exists_ofTokens_of_reach {front : List Token} {s : Phase}
    (hfront : ∀ t ∈ front, t.kind ≠ .finish) (h : Phase.outside.reach none front = .ok s)
    (hs : s ≠ .done) : ∃ us f ds, front <+: us ∧ (∀ t ∈ us, t.kind ≠ .finish) ∧
      f.kind = .finish ∧ ofTokens (us ++ [f]) = .ok ds := by
  let p : Position := ⟨0, 0, (front.getLast?.map Token.endOffset).getD 0⟩
  obtain ⟨us, f, hus, hf, hreach⟩ := Phase.exists_completion hs p
  have hall : ∀ t ∈ front ++ us, t.kind ≠ .finish := List.forall_mem_append.2 ⟨hfront, hus⟩
  have hdone : Phase.outside.reach none (front ++ us ++ [f]) = .ok .done := by
    rw [List.append_assoc, Phase.reach_append h]
    cases front using List.reverseRecOn with
    | nil =>
      obtain rfl : Phase.outside = s := Except.ok.inj h
      exact (Phase.reach_outside _ _ _).trans hreach
    | append_singleton front t => simpa [p] using hreach
  have hc := Cursor.bounded_ofTokens (front ++ us ++ [f])
  obtain ⟨ds, hds⟩ := (Cursor.exists_declarations_iff hc).2
    (by rw [Cursor.ofTokens_concat hall hf]; exact hdone)
  exact ⟨front ++ us, f, ds, List.prefix_append front us, hall, hf, hds⟩

/-- The failure of reading some tokens at one of them: it is the token found, those up to it decide
that reading fails so, and those in front of it begin a stream that can be read. -/
structure Declarations.FailsAt (ts : List Token) (k : Nat) (e : ParseError) : Prop where
  found : ts[k]? = some e.found
  decided : ∀ us, ts.take (k + 1) <+: us → ofTokens us = .error e
  viable : ∃ us f ds, ts.take k <+: us ∧ (∀ t ∈ us, t.kind ≠ .finish) ∧ f.kind = .finish ∧
    ofTokens (us ++ [f]) = .ok ds

namespace Declarations
variable {ts : List Token} {e : ParseError} {k : Nat}

/-- Some tokens fail at one place only. -/
theorem FailsAt.unique {k' : Nat} {e' : ParseError} (h : FailsAt ts k e)
    (h' : FailsAt ts k' e') : k = k' ∧ e = e' := by
  -- What decides the one failure would begin what the other says can be read.
  have hle {k k' : Nat} {e e' : ParseError} (h : FailsAt ts k e) (h' : FailsAt ts k' e') :
      k' ≤ k := by
    by_contra hlt
    obtain ⟨us, f, ds, hus, -, -, hread⟩ := h'.viable
    have hshorter : ts.take (k + 1) <+: ts.take k' :=
      List.take_prefix_take_left (by omega)
    have herror := h.decided _ (hshorter.trans (hus.trans (List.prefix_append us [f])))
    cases hread.symm.trans herror
  refine ⟨Nat.le_antisymm (hle h' h) (hle h h'), ?_⟩
  have hread := h.decided ts (List.take_prefix _ ts)
  exact Except.error.inj (hread.symm.trans (h'.decided ts (List.take_prefix _ ts)))

theorem failsAt_of_stops
    (h : Grammar.Stops .outside none (Cursor.ofTokens ts).stream k e) :
    FailsAt (Cursor.ofTokens ts).stream k e := by
  have hkinds := Cursor.kind_ne_finish_of_take (Cursor.bounded_ofTokens ts) h.found
  have htake := h.reach_take_succ
  obtain ⟨s, hfront, hs⟩ := h.exists_reach_take
  refine ⟨h.found, fun us hus => ?_, exists_ofTokens_of_reach hkinds hfront hs⟩
  rw [List.take_add_one, h.found] at hus htake
  obtain ⟨rest, hrest⟩ := Cursor.prefix_stream_ofTokens hkinds hus
  refine (Cursor.declarations_eq_error_iff (Cursor.bounded_ofTokens us)).2 ?_
  rw [← hrest]
  exact Grammar.Phase.reach_append_of_error htake rest

theorem ofTokens_eq_error_iff : ofTokens ts = .error e ↔
    ∃ k, Grammar.Stops .outside none (Cursor.ofTokens ts).stream k e := by
  rw [ofTokens, Cursor.declarations_eq_error_iff (Cursor.bounded_ofTokens ts)]
  constructor
  · exact Grammar.exists_stops
  · intro h
    obtain ⟨k, hk⟩ := h
    exact hk.reach

/-- Reading fails at the first token with which no stream can go on. -/
theorem failsAt_of_error {last : Token} (hts : ∀ t ∈ ts, t.kind ≠ .finish)
    (hlast : last.kind = .finish) (h : ofTokens (ts ++ [last]) = .error e) :
    ∃ k, FailsAt (ts ++ [last]) k e := by
  obtain ⟨k, hk⟩ := ofTokens_eq_error_iff.1 h
  have hfails := failsAt_of_stops hk
  rw [Cursor.ofTokens_concat hts hlast] at hfails
  exact ⟨k, hfails⟩

/-- The tokens of `controller Todos actions show get /` up to the slash. -/
def arrowlessTokens : List Token :=
  [⟨.keyword .controller, "controller", ⟨1, 1, 0⟩, 10⟩, ⟨.ident, "Todos", ⟨1, 12, 11⟩, 5⟩,
   ⟨.keyword .actions, "actions", ⟨1, 18, 17⟩, 7⟩, ⟨.ident, "show", ⟨1, 26, 25⟩, 4⟩,
   ⟨.keyword .get, "get", ⟨1, 31, 30⟩, 3⟩, ⟨.symbol .slash, "/", ⟨1, 35, 34⟩, 1⟩]

theorem failsAt_arrowless : (∀ t ∈ arrowlessTokens, t.kind ≠ .finish) ∧
    ofTokens (arrowlessTokens ++ [.finishAt ⟨1, 36, 35⟩]) =
      .error ⟨.token (.symbol .arrow), ⟨.keyword .get, "get", ⟨1, 31, 30⟩, 3⟩⟩ ∧
    ∃ k, FailsAt (arrowlessTokens ++ [.finishAt ⟨1, 36, 35⟩]) k
      ⟨.token (.symbol .arrow), ⟨.keyword .get, "get", ⟨1, 31, 30⟩, 3⟩⟩ := by
  have hts : ∀ t ∈ arrowlessTokens, t.kind ≠ .finish := by decide
  have hread : ofTokens (arrowlessTokens ++ [.finishAt ⟨1, 36, 35⟩]) =
      .error ⟨.token (.symbol .arrow), ⟨.keyword .get, "get", ⟨1, 31, 30⟩, 3⟩⟩ :=
    (Cursor.declarations_eq_error_iff (Cursor.bounded_ofTokens _)).2 rfl
  exact ⟨hts, hread, failsAt_of_error hts rfl hread⟩

end Declarations

end Routes
