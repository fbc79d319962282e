import Routes.Proofs.Grammar.Parse
/-!
The phases of reading. Nothing nests in the language, so a phase and whether the next token touches
the last one decide what may come next. Main statement: declarations are read exactly where the
phases go through to the end of the input, and an error is what a phase expects at the first token
that it does not take.
-/
namespace Routes.Grammar
open Cursor

/-- Places in a stream, named for what comes next or for what has just ended. -/
inductive Phase where
  | outside | controllerName | controllerMark | actionsWord | actions | ending | closed
  | arrow | verb | url | part | slash | partEnd | urlEnd
  | bracketName | bracketColon | bracketKind | bracketClose
  | colonName | colonEnd | parenKind | parenClose
  | defaultWord | defaultController | defaultHash | defaultName
  | done
deriving DecidableEq, Repr

namespace Phase

def want (test : Bool) (next : Phase) (e : Expected) : Except Expected Phase :=
  if test then .ok next else .error e

/-- The phase behind a token of one kind, or what follows from the token without it. -/
def skip (k : Token.Kind) (next : Phase) (t : Token) (other : Except Expected Phase) :
    Except Expected Phase :=
  if t.kind = k then .ok next else other

def stepOutside (t : Token) : Except Expected Phase :=
  skip (.keyword .controller) controllerName t
    (skip (.keyword .default) defaultWord t (want (t.kind == .finish) done .declaration))

def stepEnding (next : Phase) (t : Token) : Except Expected Phase :=
  skip (.keyword .close) next t (stepOutside t)

def stepActions (t : Token) : Except Expected Phase :=
  if t.isName then .ok arrow else stepEnding closed t

/-- An optional mark stands behind a URL. -/
def stepUrlEnd (t : Token) : Except Expected Phase :=
  skip (.keyword .marker) actions t (stepActions t)

def stepPart (t : Token) : Except Expected Phase :=
  skip (.symbol .less) bracketName t
    (skip (.symbol .colon) colonName t (want t.startsPart partEnd .url))

def stepPartEnd (touches : Bool) (t : Token) : Except Expected Phase :=
  if touches && t.kind == .symbol .slash then .ok slash else stepUrlEnd t

def isKind (t : Token) : Bool := t.kind == .keyword .int || t.kind == .keyword .string

/-- One token on. Only inside a URL it matters whether the token touches the one before it. -/
def step (touches : Bool) (t : Token) : Phase → Except Expected Phase
  | outside => stepOutside t
  | controllerName => want t.isName controllerMark .controllerName
  | controllerMark => skip (.keyword .marker) actionsWord t
      (want (t.kind == .keyword .actions) actions (.token (.keyword .actions)))
  | actionsWord => want (t.kind == .keyword .actions) actions (.token (.keyword .actions))
  | actions => stepActions t
  | ending => stepEnding closed t
  | closed => stepEnding outside t
  | arrow => want (t.kind == .symbol .arrow) verb (.token (.symbol .arrow))
  | verb => want (verb? t).isSome url .verb
  | url => skip (.symbol .slash) slash t (stepPart t)
  | part => stepPart t
  | slash => if touches && t.startsPart then stepPart t else stepUrlEnd t
  | partEnd => stepPartEnd touches t
  | urlEnd => stepUrlEnd t
  | bracketName => want t.isWord bracketColon .paramName
  | bracketColon => skip (.symbol .colon) bracketKind t
      (want (t.kind == .symbol .greater) partEnd (.token (.symbol .greater)))
  | bracketKind => want (isKind t) bracketClose .paramKind
  | bracketClose => want (t.kind == .symbol .greater) partEnd (.token (.symbol .greater))
  | colonName => if touches then want t.isWord colonEnd .paramName else .error .paramNameAtColon
  | colonEnd =>
    if touches && t.kind == .symbol .parenOpen then .ok parenKind else stepPartEnd touches t
  | parenKind => want (isKind t) parenClose .paramKind
  | parenClose => want (t.kind == .symbol .parenClose) partEnd (.token (.symbol .parenClose))
  | defaultWord => want (t.kind == .keyword .action) defaultController (.token (.keyword .action))
  | defaultController => want t.isName defaultHash .controllerName
  | defaultHash => want (t.kind == .symbol .hash) defaultName (.token (.symbol .hash))
  | defaultName => want t.isName outside .actionName
  | done => .ok done

/-- The phase behind some tokens, or the error at the first of them that is not taken. The offset is
that at which the token in front of them ends, if there is one. -/
def reach (s : Phase) (before : Option Nat) : List Token → Except ParseError Phase
  | [] => .ok s
  | t :: ts =>
    match s.step (before == some t.position.offset) t with
    | .error e => .error ⟨e, t⟩
    | .ok s' => s'.reach (some t.endOffset) ts

/-- What becomes of a phase where a cursor stands. -/
def verdict (s : Phase) (c : Cursor) : Except ParseError Phase := s.reach c.before c.stream

end Phase

section Verdict
open Phase
variable {s s₁ s₂ : Phase} {c c' : Cursor} {t : Token} {e : Expected} {k : Token.Kind}

theorem verdict_eq (s : Phase) (c : Cursor) : ∃ rest, c.stream = c.peek :: rest ∧
    s.verdict c = match s.step c.touches c.peek with
      | .error e => .error ⟨e, c.peek⟩
      | .ok s' => s'.reach (some c.peek.endOffset) rest := by
  obtain ⟨rest, hrest⟩ := List.head?_eq_some_iff.1 (head?_stream c)
  refine ⟨rest, hrest, ?_⟩
  rw [verdict, hrest]
  rfl

theorem verdict_of_step (hr : c.Reads [t] c') (h : s.step c.touches t = .ok s₁) :
    s.verdict c = s₁.verdict c' := by
  have hbefore : c'.before = some t.endOffset := hr.before
  rw [verdict, hr.stream, List.singleton_append, reach, verdict, hbefore]
  rw [touches, peek_of_reads hr] at h
  rw [h]

theorem verdict_of_error (h : s.step c.touches c.peek = .error e) :
    s.verdict c = .error ⟨e, c.peek⟩ := by
  obtain ⟨rest, -, hverdict⟩ := verdict_eq s c
  rw [hverdict, h]

theorem verdict_congr (s₂ : Phase) (h : s₁.step c.touches c.peek = s₂.step c.touches c.peek) :
    s₁.verdict c = s₂.verdict c := by
  obtain ⟨rest, hrest, hverdict⟩ := verdict_eq s₁ c
  obtain ⟨rest', hrest', hverdict'⟩ := verdict_eq s₂ c
  obtain rfl : rest = rest' := (List.cons.inj (hrest.symm.trans hrest')).2
  rw [hverdict, hverdict', h]

/-- What reading a production comes to, told in phases: behind it another phase begins, and where
it fails the phases fail alike. -/
inductive Follows {α : Type} (s : Phase) : Except ParseError Phase →
    Except ParseError (α × Cursor) → Prop
  | ok {a : α} {c : Cursor} : c.Bounded → Follows s (s.verdict c) (.ok (a, c))
  | error {e : ParseError} : Follows s (.error e) (.error e)

section Read
variable {α β : Type} {v : Except ParseError Phase} {x : Except ParseError (α × Cursor)}

theorem Follows.bind {f : α × Cursor → Except ParseError (β × Cursor)} (h : Follows s₁ v x)
    (hnext : ∀ a c, c.Bounded → Follows s₂ (s₁.verdict c) (f (a, c))) :
    Follows s₂ v (x >>= f) := by
  cases h with
  | ok hc => exact hnext _ _ hc
  | error => exact .error

theorem Follows.map {f : α → β} (h : Follows s v x) :
    Follows s v (x.map fun (a, c) => (f a, c)) := by
  cases h with
  | ok hc => exact .ok hc
  | error => exact .error

theorem Follows.eq_of_ok {a : α} (h : Follows s v (.ok (a, c))) :
    v = s.verdict c ∧ c.Bounded := by
  cases h with
  | ok hc => exact ⟨rfl, hc⟩

theorem Follows.eq_of_error {e : ParseError} (h : Follows (α := α) s v (.error e)) :
    v = .error e := by
  cases h
  rfl

theorem follows_fail (h : s.step c.touches c.peek = .error e) :
    Follows (α := α) s₁ (s.verdict c) (c.fail e) := by
  rw [verdict_of_error h]
  exact .error

theorem follows_takeIf {test : Token → Bool} (hc : c.Bounded)
    (htest : ∀ t, t.kind = .finish → test t = false)
    (hstep : s.step c.touches c.peek = want (test c.peek) s₁ e) :
    Follows s₁ (s.verdict c) (c.takeIf test e) := by
  rcases takeIf_cases hc htest e with ⟨c', ht, hr, hread⟩ | ⟨ht, hread⟩
  · rw [ht] at hstep
    rw [hread, verdict_of_step hr hstep]
    exact .ok (hc.of_reads hr)
  · rw [ht] at hstep
    rw [hread]
    exact follows_fail hstep

theorem follows_take (hc : c.Bounded) (hk : k ≠ .finish)
    (hstep : s.step c.touches c.peek = want (c.peek.kind == k) s₁ (.token k)) :
    Follows s₁ (s.verdict c) (c.take k) :=
  follows_takeIf hc (fun t ht => by simpa [ht] using hk.symm) hstep

theorem verdict_of_skip (hc : c.Bounded) (hk : k ≠ .finish) (hpeek : c.peek.kind = k)
    (hstep : s.step c.touches c.peek = .ok s₁) : s.verdict c = s₁.verdict (c.skip k).2 := by
  obtain ⟨c', hr, hskip⟩ := skip_of_peek hc hk hpeek
  rw [verdict_of_step hr hstep, hskip]

theorem verdict_skip (s₂ : Phase) (hc : c.Bounded) (hk : k ≠ .finish)
    (hstep : s.step c.touches c.peek = skip k s₁ c.peek (s₂.step c.touches c.peek)) :
    s.verdict c =
      if (c.skip k).1 then s₁.verdict (c.skip k).2 else s₂.verdict (c.skip k).2 := by
  unfold Phase.skip at hstep
  split at hstep
  · rename_i hpeek
    obtain ⟨c', hr, hskip⟩ := skip_of_peek hc hk hpeek
    rw [verdict_of_step hr hstep, hskip]
    rfl
  · rename_i hpeek
    rw [skip_of_not_sees (not_sees_of_peek hpeek), verdict_congr s₂ hstep]
    rfl

/-- A token of a kind that is read only directly behind the last one. -/
theorem verdict_skip_touching (s₂ : Phase) (hc : c.Bounded) (hk : k ≠ .finish)
    (hstep : s.step c.touches c.peek =
      if c.touches && c.peek.kind == k then .ok s₁ else s₂.step c.touches c.peek) :
    s.verdict c = if c.touches && c.sees k then s₁.verdict (c.skip k).2 else s₂.verdict c := by
  rw [sees_eq hc hk]
  split at hstep
  · rename_i htouch
    have hpeek := (Bool.and_eq_true_iff.1 htouch).2
    rw [if_pos htouch, verdict_of_skip hc hk (beq_iff_eq.1 hpeek) hstep]
  · rename_i htouch
    rw [if_neg htouch, verdict_congr s₂ hstep]

theorem follows_paramKind (hc : c.Bounded)
    (hstep : s.step c.touches c.peek = want (isKind c.peek) s₁ .paramKind) :
    Follows s₁ (s.verdict c) c.paramKind := by
  rw [paramKind, sees_eq hc (by decide), sees_eq hc (by decide)]
  by_cases hint : c.peek.kind = .keyword .int
  · have hok : s.step c.touches c.peek = .ok s₁ := by simp [hstep, isKind, hint, want]
    rw [verdict_of_skip hc (by decide) hint hok]
    simpa [hint] using .ok (hc.skip _)
  · by_cases htext : c.peek.kind = .keyword .string
    · have hok : s.step c.touches c.peek = .ok s₁ := by simp [hstep, isKind, htext, want]
      rw [verdict_of_skip hc (by decide) htext hok]
      simpa [htext] using .ok (hc.skip _)
    · simp only [beq_eq_false_iff_ne.2 hint, beq_eq_false_iff_ne.2 htext, Bool.false_eq_true,
        if_false]
      exact follows_fail (by simp [hstep, isKind, hint, htext, want])

theorem follows_kindAfterColon (hc : c.Bounded) :
    Follows bracketClose (bracketColon.verdict c) c.kindAfterColon := by
  have hc' := hc.skip (.symbol .colon)
  rw [verdict_skip bracketClose hc (by decide) rfl, kindAfterColon]
  generalize c.skip (.symbol .colon) = r at hc' ⊢
  obtain ⟨typed, c'⟩ := r
  cases typed with
  | true => exact follows_paramKind hc' rfl
  | false => exact .ok hc'

theorem isWord_of_finish (t : Token) (h : t.kind = .finish) : t.isWord = false := by
  simp [Token.isWord, h]

theorem follows_bracketParam (hc : c.Bounded) :
    Follows partEnd (bracketName.verdict c) c.bracketParam := by
  refine (follows_takeIf hc isWord_of_finish rfl).bind fun n c hc => ?_
  refine (follows_kindAfterColon hc).bind fun k c hc => ?_
  refine (follows_take hc (by decide) rfl).bind fun g c hc => ?_
  exact .ok hc

theorem follows_colonParam (hc : c.Bounded) :
    Follows partEnd (colonName.verdict c) c.colonParam := by
  unfold colonParam
  cases htouch : c.touches with
  | false => exact follows_fail (by simp [step, htouch])
  | true =>
    have hstep : colonName.step c.touches c.peek = want c.peek.isWord colonEnd .paramName := by
      simp [step, htouch]
    refine (follows_takeIf hc isWord_of_finish hstep).bind fun n c hc => ?_
    have hopen : colonEnd.verdict c = if c.touches && c.sees (.symbol .parenOpen) then
        parenKind.verdict (c.skip (.symbol .parenOpen)).2 else partEnd.verdict c :=
      verdict_skip_touching partEnd hc (by decide) rfl
    rw [hopen]
    dsimp only
    split
    · have hc' := hc.skip (.symbol .parenOpen)
      refine (follows_paramKind hc' rfl).bind fun k c hc => ?_
      refine (follows_take hc (by decide) rfl).bind fun p c hc => ?_
      exact .ok hc
    · exact .ok hc

theorem stepPart_of_startsPart {t : Token} (ht : t.startsPart = true)
    (hless : t.kind ≠ .symbol .less) (hcolon : t.kind ≠ .symbol .colon) :
    stepPart t = .ok partEnd := by
  simp [stepPart, Phase.skip, hless, hcolon, want, ht]

theorem stepPart_of_not_startsPart {t : Token} (ht : t.startsPart = false) :
    stepPart t = .error .url := by
  have hless : t.kind ≠ .symbol .less := fun h => by simp [Token.startsPart, h] at ht
  have hcolon : t.kind ≠ .symbol .colon := fun h => by simp [Token.startsPart, h] at ht
  simp [stepPart, Phase.skip, hless, hcolon, want, ht]

theorem follows_urlPart (hc : c.Bounded) :
    Follows partEnd (part.verdict c) c.urlPart := by
  unfold urlPart
  rcases takeIf_cases hc (fun t ht => startsPart_of_finish ht) .url with
    ⟨c', ht, hr, hread⟩ | ⟨ht, hread⟩
  · have hc' := hc.of_reads hr
    simp only [hread, bind, Except.bind]
    by_cases hless : c.peek.kind = .symbol .less
    · have hstep : part.step c.touches c.peek = .ok bracketName := if_pos hless
      rw [if_pos hless, verdict_of_step hr hstep]
      exact follows_bracketParam hc'
    · by_cases hcolon : c.peek.kind = .symbol .colon
      · have hstep : part.step c.touches c.peek = .ok colonName :=
          (if_neg hless).trans (if_pos hcolon)
        rw [if_neg hless, if_pos hcolon, verdict_of_step hr hstep]
        exact follows_colonParam hc'
      · have hstep : part.step c.touches c.peek = .ok partEnd :=
          stepPart_of_startsPart ht hless hcolon
        rw [if_neg hless, if_neg hcolon, verdict_of_step hr hstep]
        exact .ok hc'
  · rw [hread]
    exact follows_fail (stepPart_of_not_startsPart ht)

/-- Behind a slash the URL goes on where a part touches it. -/
theorem verdict_slash (hc : c.Bounded) : slash.verdict c =
    if c.touches && c.ahead.head?.any Token.startsPart then part.verdict c
    else urlEnd.verdict c := by
  rw [any_head?_ahead (startsPart_of_finish hc.finish)]
  split
  · rename_i hmore
    exact verdict_congr part (if_pos hmore)
  · rename_i hmore
    exact verdict_congr urlEnd (if_neg hmore)

theorem verdict_partEnd (hc : c.Bounded) : partEnd.verdict c =
    if c.touches && c.sees (.symbol .slash) then slash.verdict (c.skip (.symbol .slash)).2
    else urlEnd.verdict c :=
  verdict_skip_touching urlEnd hc (by decide) rfl

theorem follows_urlParts (hc : c.Bounded) :
    Follows urlEnd (part.verdict c) c.urlParts := by
  have hpart := follows_urlPart hc
  fun_induction urlParts c with
  | case1 c e h =>
    rw [h] at hpart
    rw [hpart.eq_of_error]
    exact .error
  | case2 c p c₁ h htouch c₂ hmore ih =>
    rw [h] at hpart
    obtain ⟨hverdict, hc₁⟩ := hpart.eq_of_ok
    have hc₂ : c₂.Bounded := hc₁.skip (.symbol .slash)
    rw [hverdict, verdict_partEnd hc₁, if_pos htouch, verdict_slash hc₂, if_pos hmore]
    exact (ih hc₂ (follows_urlPart hc₂)).map
  | case3 c p c₁ h htouch c₂ hmore =>
    rw [h] at hpart
    obtain ⟨hverdict, hc₁⟩ := hpart.eq_of_ok
    have hc₂ : c₂.Bounded := hc₁.skip (.symbol .slash)
    rw [hverdict, verdict_partEnd hc₁, if_pos htouch, verdict_slash hc₂, if_neg hmore]
    exact .ok hc₂
  | case4 c p c₁ h htouch =>
    rw [h] at hpart
    obtain ⟨hverdict, hc₁⟩ := hpart.eq_of_ok
    rw [hverdict, verdict_partEnd hc₁, if_neg htouch]
    exact .ok hc₁

theorem follows_url (hc : c.Bounded) : Follows urlEnd (url.verdict c) c.url := by
  have hc' := hc.skip (.symbol .slash)
  rw [verdict_skip part hc (by decide) rfl, Cursor.url]
  generalize c.skip (.symbol .slash) = r at hc' ⊢
  obtain ⟨absolute, c'⟩ := r
  cases absolute with
  | true =>
    simp only [if_true, verdict_slash hc']
    split
    · exact (follows_urlParts hc').map
    · exact .ok hc'
  | false => exact (follows_urlParts hc').map

theorem verb?_of_finish (t : Token) (h : t.kind = .finish) : (verb? t).isSome = false := by
  simp [verb?, h]

theorem follows_verb (hc : c.Bounded) : Follows url (verb.verdict c) c.verb := by
  refine (follows_takeIf hc verb?_of_finish rfl).bind fun t c hc => ?_
  exact .ok hc

theorem follows_action (hc : c.Bounded) (hname : c.peek.isName = true) :
    Follows actions (actions.verdict c) c.action := by
  have hstep : actions.step c.touches c.peek = want c.peek.isName arrow .actionName := by
    simp [step, stepActions, want, hname]
  refine (follows_takeIf hc (fun t ht => isName_of_finish ht) hstep).bind fun n c hc => ?_
  refine (follows_take hc (by decide) rfl).bind fun a c hc => ?_
  refine (follows_verb hc).bind fun v c hc => ?_
  refine (follows_url hc).bind fun u c hc => ?_
  rw [verdict_skip actions hc (by decide) rfl]
  simp only [ite_self]
  exact .ok (hc.skip _)

theorem follows_actions (hc : c.Bounded) :
    Follows ending (actions.verdict c) c.actions := by
  fun_induction Cursor.actions c with
  | case1 c hname e h =>
    rw [any_head?_ahead (isName_of_finish hc.finish)] at hname
    have haction := follows_action hc hname
    rw [h] at haction
    rw [haction.eq_of_error]
    exact .error
  | case2 c hname a c₁ h ih =>
    rw [any_head?_ahead (isName_of_finish hc.finish)] at hname
    have haction := follows_action hc hname
    rw [h] at haction
    obtain ⟨hverdict, hc₁⟩ := haction.eq_of_ok
    rw [hverdict]
    exact (ih hc₁).map
  | case3 c hname =>
    rw [any_head?_ahead (isName_of_finish hc.finish)] at hname
    rw [verdict_congr ending (by simp [step, stepActions, hname])]
    exact .ok hc

/-- Of two closing words the second is read only behind the first. -/
theorem verdict_ending (hc : c.Bounded) : ending.verdict c =
    outside.verdict ((c.skip (.keyword .close)).2.skip (.keyword .close)).2 := by
  have hc' := hc.skip (.keyword .close)
  by_cases hclose : c.peek.kind = .keyword .close
  · have hstep : ending.step c.touches c.peek = .ok closed := if_pos hclose
    rw [verdict_of_skip hc (by decide) hclose hstep, verdict_skip outside hc' (by decide) rfl,
      ite_self]
  · have hstep : ending.step c.touches c.peek = outside.step c.touches c.peek := if_neg hclose
    have hskip := skip_of_not_sees (not_sees_of_peek hclose)
    rw [hskip, hskip, verdict_congr outside hstep]

theorem follows_controller (hc : c.Bounded) (hpeek : c.peek.kind = .keyword .controller) :
    Follows outside (outside.verdict c) c.controller := by
  have hstep : outside.step c.touches c.peek = want (c.peek.kind == .keyword .controller)
      controllerName (.token (.keyword .controller)) := by
    simp [step, stepOutside, Phase.skip, want, hpeek]
  refine (follows_take hc (by decide) hstep).bind fun w c hc => ?_
  refine (follows_takeIf hc (fun t ht => isName_of_finish ht) rfl).bind fun n c hc => ?_
  rw [verdict_skip actionsWord hc (by decide) rfl, ite_self]
  have hc' := hc.skip (.keyword .marker)
  refine (follows_take hc' (by decide) rfl).bind fun x c hc => ?_
  refine (follows_actions hc).bind fun as c hc => ?_
  rw [verdict_ending hc]
  exact .ok ((hc.skip _).skip _)

theorem follows_defaultAction (hc : c.Bounded) (hpeek : c.peek.kind = .keyword .default) :
    Follows outside (outside.verdict c) c.defaultAction := by
  have hstep : outside.step c.touches c.peek =
      want (c.peek.kind == .keyword .default) defaultWord (.token (.keyword .default)) := by
    simp [step, stepOutside, Phase.skip, want, hpeek]
  refine (follows_take hc (by decide) hstep).bind fun w c hc => ?_
  refine (follows_take hc (by decide) rfl).bind fun x c hc => ?_
  refine (follows_takeIf hc (fun t ht => isName_of_finish ht) rfl).bind fun d c hc => ?_
  refine (follows_take hc (by decide) rfl).bind fun h c hc => ?_
  refine (follows_takeIf hc (fun t ht => isName_of_finish ht) rfl).bind fun a c hc => ?_
  exact .ok hc

/-- The phases go through to the end of the input exactly where declarations are read, and stop with
the same error elsewhere. -/
theorem verdict_outside (hc : c.Bounded) :
    outside.verdict c = c.declarations.map fun _ => done := by
  fun_induction Cursor.declarations c with
  | case1 c hsees e h =>
    rw [sees_eq hc (by decide), beq_iff_eq] at hsees
    have hread := follows_controller hc hsees
    rw [h] at hread
    exact hread.eq_of_error
  | case2 c hsees d c₁ h ih =>
    rw [sees_eq hc (by decide), beq_iff_eq] at hsees
    have hread := follows_controller hc hsees
    rw [h] at hread
    obtain ⟨hverdict, hc₁⟩ := hread.eq_of_ok
    rw [hverdict, ih hc₁]
    cases c₁.declarations <;> rfl
  | case3 c hnot hsees e h =>
    rw [sees_eq hc (by decide), beq_iff_eq] at hsees
    have hread := follows_defaultAction hc hsees
    rw [h] at hread
    exact hread.eq_of_error
  | case4 c hnot hsees d c₁ h ih =>
    rw [sees_eq hc (by decide), beq_iff_eq] at hsees
    have hread := follows_defaultAction hc hsees
    rw [h] at hread
    obtain ⟨hverdict, hc₁⟩ := hread.eq_of_ok
    rw [hverdict, ih hc₁]
    cases c₁.declarations <;> rfl
  | case5 c hnot hnot' hnil =>
    obtain ⟨before, ahead, finish⟩ := c
    obtain rfl := List.isEmpty_iff.1 hnil
    have hf : finish.kind = .finish := hc.finish
    simp [verdict, stream, reach, step, stepOutside, Phase.skip, want, hf, Except.map]
  | case6 c hnot hnot' hmore =>
    rw [sees_eq hc (by decide), beq_iff_eq] at hnot hnot'
    rw [hc.isEmpty_ahead, beq_iff_eq] at hmore
    exact verdict_of_error (by simp [step, stepOutside, Phase.skip, want, hnot, hnot', hmore])

end Read

end Verdict

end Routes.Grammar
