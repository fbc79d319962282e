import Routes.Proofs.Walk.Lockstep
import Routes.Proofs.Grammar.Phase
/-!
Every production of the language in lockstep. What a cursor does is told step by step where its
definition matches on results instead. Main statement: from any index on, walks over two tapes and a
cursor read the same declarations.
-/
namespace Routes

namespace Cursor

theorem paramKind_steps (c : Cursor) : c.paramKind = (do
    let (t, c) ← c.takeIf (fun t => (Tape.paramKind? t).isSome) .paramKind
    return ((Tape.paramKind? t).getD .text, c)) := by
  obtain ⟨before, ahead, finish⟩ := c
  cases ahead with
  | nil => rfl
  | cons t ts =>
    by_cases hint : t.kind = .keyword .int
    · simp [paramKind, sees, skip, takeIf, Tape.paramKind?, hint, bind, Except.bind, pure,
        Except.pure]
    · by_cases htext : t.kind = .keyword .string
      · simp [paramKind, sees, skip, takeIf, Tape.paramKind?, htext, bind, Except.bind, pure,
          Except.pure]
      · have hnone : Tape.paramKind? t = none := by simp only [Tape.paramKind?]
        simp [paramKind, sees, takeIf, fail, hint, htext, hnone, bind, Except.bind]

theorem kindAfterColon_steps (c : Cursor) : c.kindAfterColon = (do
    let (typed, c) ← Except.ok (c.skip (.symbol .colon))
    if typed then c.paramKind else return (.text, c)) := rfl

/-- The parts that stand where a cursor does, without a gap or behind one that is allowed. -/
def partsFrom (gap : Bool) (c : Cursor) : Except ParseError (List UrlPart × Cursor) :=
  if (gap || c.touches) && c.ahead.head?.any Token.startsPart then c.urlParts else .ok ([], c)

theorem urlParts_steps (c : Cursor) : c.urlParts = (do
    let (part, c) ← c.urlPart
    if c.touches && c.sees (.symbol .slash) then
      let (parts, c) ← partsFrom false (c.skip (.symbol .slash)).2
      return (part :: parts, c)
    else return ([part], c)) := by
  cases hpart : c.urlPart with
  | error e =>
    rw [urlParts]
    split <;> rename_i he <;> cases hpart.symm.trans he
    rfl
  | ok r =>
    obtain ⟨part, c'⟩ := r
    rw [urlParts_eq hpart]
    simp only [bind, Except.bind, partsFrom, Bool.false_or, pure, Except.pure]
    split
    · split
      · cases urlParts (c'.skip (.symbol .slash)).2 <;> rfl
      · rfl
    · rfl

theorem url_steps (c : Cursor) : c.url = (do
    let (absolute, c) ← Except.ok (c.skip (.symbol .slash))
    if absolute then
      let (parts, c) ← partsFrom false c
      return (⟨true, parts⟩, c)
    else
      let (parts, c) ← c.urlParts
      return (⟨false, parts⟩, c)) := by
  simp only [url, bind, Except.bind, partsFrom, Bool.false_or, pure, Except.pure]
  split
  · split
    · cases urlParts (c.skip (.symbol .slash)).2 <;> rfl
    · rfl
  · cases urlParts (c.skip (.symbol .slash)).2 <;> rfl

theorem action_steps (c : Cursor) : c.action = (do
    let (name, c) ← c.takeIf Token.isName .actionName
    let (_, c) ← c.take (.symbol .arrow)
    let (verb, c) ← c.verb
    let (url, c) ← c.url
    let (isDefault, c) ← Except.ok (c.skip (.keyword .marker))
    return (⟨name.text, verb, url, isDefault, name.position⟩, c)) := rfl

theorem actions_steps (c : Cursor) : c.actions =
    if c.ahead.head?.any Token.isName then do
      let (a, c) ← c.action
      let (rest, c) ← c.actions
      return (a :: rest, c)
    else .ok ([], c) := by
  by_cases hname : c.ahead.head?.any Token.isName = true
  · rw [if_pos hname]
    cases haction : c.action with
    | error e =>
      rw [actions, if_pos hname]
      split <;> rename_i he <;> cases haction.symm.trans he
      rfl
    | ok r =>
      obtain ⟨a, c'⟩ := r
      rw [actions_eq hname haction]
      simp only [bind, Except.bind]
      cases actions c' <;> rfl
  · rw [actions, if_neg hname, if_neg hname]

theorem controller_steps (c : Cursor) : c.controller = (do
    let (word, c) ← c.take (.keyword .controller)
    let (name, c) ← c.takeIf Token.isName .controllerName
    let (isDefault, c) ← Except.ok (c.skip (.keyword .marker))
    let (_, c) ← c.take (.keyword .actions)
    let (actions, c) ← c.actions
    let (_, c) ← Except.ok (c.skip (.keyword .close))
    let (_, c) ← Except.ok (c.skip (.keyword .close))
    return (⟨name.text, actions, isDefault, word.position⟩, c)) := rfl

/-- A kind in parentheses behind a name, from the first parenthesis on. -/
def parenKind (name : Token) (c : Cursor) : Except ParseError (UrlPart × Cursor) := do
  let (kind, c) ← c.paramKind
  let (_, c) ← c.take (.symbol .parenClose)
  return (.param name.text kind, c)

/-- What is missing behind a colon at the end of the input hangs on a gap between the two. -/
def colonError (c : Cursor) : ParseError :=
  ⟨if c.touches then .paramName else .paramNameAtColon, c.peek⟩

end Cursor

namespace Twins
open Grammar (isWord_of_finish)
open Cursor (startsPart_of_finish isName_of_finish)
variable {P : Twins} {i : Nat}

theorem paramKind?_of_finish (t : Token) (h : t.kind = .finish) : Tape.paramKind? t = none := by
  simp [Tape.paramKind?, h]

theorem verb?_of_finish (t : Token) (h : t.kind = .finish) : Cursor.verb? t = none := by
  simp [Cursor.verb?, h]

theorem lockstep_paramKind :
    P.Lockstep i 1 P.left.paramKind P.right.paramKind (P.cursor i).paramKind := by
  rw [Cursor.paramKind_steps]
  exact lockstep_takeSome paramKind?_of_finish .paramKind .text

theorem lockstep_kindAfterColon :
    P.Lockstep i 0 P.left.kindAfterColon P.right.kindAfterColon (P.cursor i).kindAfterColon := by
  rw [Cursor.kindAfterColon_steps]
  refine (lockstep_skip (by decide)).bind fun typed j _ => ?_
  cases typed with
  | true => exact lockstep_paramKind.mono (by decide) fun _ => rfl
  | false => exact lockstep_pure _

theorem lockstep_bracketParam :
    P.Lockstep i 1 P.left.bracketParam P.right.bracketParam (P.cursor i).bracketParam := by
  refine (lockstep_takeIf isWord_of_finish _).bind fun name j _ => ?_
  refine lockstep_kindAfterColon.bind fun kind j _ => ?_
  refine (lockstep_take (by decide)).bind_zero fun g j _ => ?_
  exact lockstep_pure _

theorem fails_colonParam (h : (P.cursor i).peek.kind = .finish) :
    P.Fails i P.left.colonParam (P.cursor i).colonError := by
  refine (tells_touches P i).bind_fails ?_
  rw [Cursor.colonError]
  cases (P.cursor i).touches with
  | true => exact (fails_takeIf (isWord_of_finish _ h) _).bind
  | false => exact fails_fail P i _

theorem colonParam_of_finish (h : (P.cursor i).peek.kind = .finish) :
    (P.cursor i).colonParam = .error (P.cursor i).colonError := by
  rw [Cursor.colonParam, Cursor.colonError,
    takeIf_of_not_pass isWord_of_finish (isWord_of_finish _ h)]
  cases (P.cursor i).touches <;> rfl

theorem lockstep_colonParam :
    P.Lockstep i 0 P.left.colonParam P.right.colonParam (P.cursor i).colonParam := by
  by_cases hkind : (P.cursor i).peek.kind = .finish
  · -- One end of the input may touch the colon where the other does not. Both walks fail, each in
    -- its way; nowhere else does it matter where an end stands.
    have hkind' := (kind_peek_swap P i).trans hkind
    refine .of_fails (fails_colonParam hkind) (fails_colonParam hkind') (fun h => ?_) fun _ => ?_
    · rw [swap_cursor h]
    · exact colonParam_of_finish hkind
  · have hright := tells_touches P.swap i
    have htouch : (P.swap.cursor i).touches = (P.cursor i).touches := by
      rw [Cursor.touches, peek_swap (lt_of_peek hkind)]
      rfl
    rw [htouch] at hright
    refine .ite (tells_touches P i) hright (fun h => ?_) fun h => ?_
    · rw [Cursor.colonParam, h]
      refine (lockstep_takeIf isWord_of_finish _).bind_zero fun name j _ => ?_
      refine lockstep_touching (f := Cursor.parenKind name) (by decide) (fun j _ => ?_)
        (lockstep_pure _)
      refine lockstep_paramKind.bind_zero fun kind j _ => ?_
      refine (lockstep_take (by decide)).bind_zero fun g j _ => ?_
      exact lockstep_pure _
    · rw [Cursor.colonParam, h]
      exact lockstep_fail _

theorem lockstep_urlPart (h : (P.cursor i).peek.startsPart = true) :
    P.Lockstep i 1 P.left.urlPart P.right.urlPart (P.cursor i).urlPart := by
  refine (lockstep_consume_of @startsPart_of_finish h _).bind fun t j _ => ?_
  dsimp only
  split
  · exact lockstep_bracketParam.mono (by decide) fun _ => rfl
  · split
    · exact lockstep_colonParam
    · exact lockstep_pure _

theorem ahead_lt_turns (P : Twins) (i : Nat) : P.front.length - i < P.turns :=
  Nat.lt_of_le_of_lt (Nat.sub_le _ _) P.isEnough

theorem lockstep_urlParts {n m : Nat} (gap : Bool) (hn : P.front.length - i < n)
    (hn' : P.front.length - i < m) :
    P.Lockstep i 0 (P.left.urlParts n gap) (P.right.urlParts m gap)
      (Cursor.partsFrom gap (P.cursor i)) := by
  -- Every turn of the loop leaves fewer tokens in front of the end.
  induction n generalizing i m gap with
  | zero => omega
  | succ n ih =>
    obtain ⟨m, rfl⟩ := Nat.exists_eq_succ_of_ne_zero (Nat.ne_zero_of_lt hn')
    have hleft := ((tells_pure gap).or (tells_touches P i)).and (tells_sees P i Token.startsPart)
    have hright := ((tells_pure gap).or (tells_touches P.swap i)).and
      (tells_sees P.swap i Token.startsPart)
    rw [guard_swap @startsPart_of_finish] at hright
    unfold Tape.urlParts
    rw [Cursor.partsFrom, Cursor.any_head?_ahead (startsPart_of_finish (P.bounded i).finish)]
    refine .ite hleft hright (fun h => ?_) fun h => ?_
    · have hpart := (Bool.and_eq_true_iff.1 h).2
      have hlt : i < P.front.length :=
        lt_of_peek fun hk => by simp [startsPart_of_finish hk] at hpart
      rw [if_pos h, Cursor.urlParts_steps]
      refine (lockstep_urlPart hpart).bind_zero fun part j hj => ?_
      refine lockstep_touching (k := .symbol .slash) (f := fun c => do
        let (parts, c) ← Cursor.partsFrom false c
        return (part :: parts, c)) (by decide) (fun l hl => ?_) (lockstep_pure _)
      have hparts := ih (i := l) (m := m) false (by omega) (by omega)
      exact hparts.bind fun parts j _ => lockstep_pure _
    · rw [h]
      exact lockstep_pure _

theorem lockstep_url : P.Lockstep i 0 P.left.url P.right.url (P.cursor i).url := by
  rw [Cursor.url_steps]
  refine (lockstep_skip (by decide)).bind fun absolute j _ => ?_
  cases absolute with
  | true =>
    have hparts := lockstep_urlParts false (P.ahead_lt_turns j) (P.swap.ahead_lt_turns j)
    exact hparts.bind fun parts j _ => lockstep_pure _
  | false =>
    refine .ite (tells_sees P j _) (tells_sees_swap @startsPart_of_finish) (fun h => ?_) fun h => ?_
    · have hparts := lockstep_urlParts true (P.ahead_lt_turns j) (P.swap.ahead_lt_turns j)
      rw [Cursor.partsFrom, Cursor.any_head?_ahead (startsPart_of_finish (P.bounded j).finish), h]
        at hparts
      exact hparts.bind fun parts j _ => lockstep_pure _
    · refine (lockstep_fail _).congr fun _ => ?_
      have hparts : (P.cursor j).urlParts = (P.cursor j).fail .url := by
        rw [Cursor.urlParts_steps, Cursor.urlPart, takeIf_of_not_pass @startsPart_of_finish h]
        rfl
      simp only [hparts]
      rfl

theorem lockstep_action :
    P.Lockstep i 1 P.left.action P.right.action (P.cursor i).action := by
  rw [Cursor.action_steps]
  refine (lockstep_takeIf @isName_of_finish _).bind fun name j _ => ?_
  refine (lockstep_take (by decide)).bind_zero fun arrow j _ => ?_
  refine (lockstep_takeSome verb?_of_finish _ .get).bind_zero fun verb j _ => ?_
  refine lockstep_url.bind fun url j _ => ?_
  refine (lockstep_skip (by decide)).bind fun isDefault j _ => ?_
  exact lockstep_pure _

theorem lockstep_actions {n m : Nat} (hn : P.front.length - i < n)
    (hn' : P.front.length - i < m) :
    P.Lockstep i 0 (P.left.actions n) (P.right.actions m) (P.cursor i).actions := by
  induction n generalizing i m with
  | zero => omega
  | succ n ih =>
    obtain ⟨m, rfl⟩ := Nat.exists_eq_succ_of_ne_zero (Nat.ne_zero_of_lt hn')
    unfold Tape.actions
    rw [Cursor.actions_steps, Cursor.any_head?_ahead (isName_of_finish (P.bounded i).finish)]
    refine .ite (tells_sees P i _) (tells_sees_swap @isName_of_finish) (fun h => ?_) fun h => ?_
    · have hlt : i < P.front.length := lt_of_peek fun hk => by simp [isName_of_finish hk] at h
      rw [if_pos h]
      refine lockstep_action.bind_zero fun a j hj => ?_
      have hrest := ih (i := j) (m := m) (by omega) (by omega)
      refine hrest.bind fun rest j _ => ?_
      exact lockstep_pure _
    · rw [h]
      exact lockstep_pure _

theorem lockstep_controller (h : (P.cursor i).peek.kind = .keyword .controller) :
    P.Lockstep i 1 P.left.controller P.right.controller (P.cursor i).controller := by
  rw [Cursor.controller_steps]
  refine (lockstep_consume_kind (by decide) h).bind fun word j _ => ?_
  refine (lockstep_takeIf @isName_of_finish _).bind_zero fun name j _ => ?_
  refine (lockstep_skip (by decide)).bind fun isDefault j _ => ?_
  refine (lockstep_take (by decide)).bind_zero fun x j _ => ?_
  have hactions := lockstep_actions (P.ahead_lt_turns j) (P.swap.ahead_lt_turns j)
  refine hactions.bind fun actions j _ => ?_
  refine (lockstep_skip (by decide)).bind fun x j _ => ?_
  refine (lockstep_skip (by decide)).bind fun x j _ => ?_
  exact lockstep_pure _

theorem lockstep_defaultAction (h : (P.cursor i).peek.kind = .keyword .default) :
    P.Lockstep i 1 P.left.defaultAction P.right.defaultAction (P.cursor i).defaultAction := by
  refine (lockstep_consume_kind (by decide) h).bind fun word j _ => ?_
  refine (lockstep_take (by decide)).bind_zero fun x j _ => ?_
  refine (lockstep_takeIf @isName_of_finish _).bind_zero fun controller j _ => ?_
  refine (lockstep_take (by decide)).bind_zero fun x j _ => ?_
  refine (lockstep_takeIf @isName_of_finish _).bind_zero fun action j _ => ?_
  exact lockstep_pure _

/-- The declarations from a cursor on, and the cursor that has read all of them. -/
def declared (P : Twins) (c : Cursor) : Except ParseError (Declarations × Cursor) :=
  c.declarations.map fun ds => (ds, P.cursor P.front.length)

theorem declared_eq (P : Twins) (c : Cursor) : P.declared c =
    if c.sees (.keyword .controller) then do
      let (d, c) ← c.controller
      let (ds, c) ← P.declared c
      return ({ ds with controllers := d :: ds.controllers }, c)
    else if c.sees (.keyword .default) then do
      let (d, c) ← c.defaultAction
      let (ds, c) ← P.declared c
      return ({ ds with defaults := d :: ds.defaults }, c)
    else if c.ahead.isEmpty then .ok (.empty, P.cursor P.front.length)
    else c.fail .declaration := by
  rw [declared, Cursor.declarations]
  split
  · split <;> rename_i hread
    · rw [hread]
      rfl
    · rename_i d c'
      rw [hread]
      simp only [bind, Except.bind, declared]
      cases c'.declarations <;> rfl
  · split
    · split <;> rename_i hread
      · rw [hread]
        rfl
      · rename_i d c'
        rw [hread]
        simp only [bind, Except.bind, declared]
        cases c'.declarations <;> rfl
    · split <;> rfl

theorem cursor_of_le (h : P.front.length ≤ i) : P.cursor i = P.cursor P.front.length := by
  rw [cursor, cursor, List.take_of_length_le h, List.take_length, List.drop_eq_nil_of_le h,
    List.drop_length]

/-- At the end of the input nothing is left to be declared. -/
theorem lockstep_finish : P.Lockstep i 0
    (do if ← P.left.sees (·.kind == .finish) then return .empty else P.left.fail .declaration)
    (do if ← P.right.sees (·.kind == .finish) then return .empty else P.right.fail .declaration)
    (if (P.cursor i).ahead.isEmpty then .ok (Declarations.empty, P.cursor P.front.length)
      else (P.cursor i).fail .declaration) := by
  have hright := tells_sees P.swap i (·.kind == .finish)
  rw [kind_peek_swap] at hright
  rw [(P.bounded i).isEmpty_ahead]
  refine .ite (tells_sees P i _) hright (fun h => ?_) fun h => ?_
  · have hle : P.front.length ≤ i := by
      refine Nat.le_of_not_lt fun hlt => ?_
      rw [peek_cursor, List.getElem?_eq_getElem hlt] at h
      exact P.isFront _ (List.getElem_mem hlt) (beq_iff_eq.1 h)
    rw [if_pos h, ← cursor_of_le hle]
    exact lockstep_pure _
  · rw [h]
    exact lockstep_fail _

/-- Every declaration takes a walk on, so it comes to an end of the input or fails. -/
theorem lockstep_declarations {n m : Nat} (hn : P.front.length - i < n)
    (hn' : P.front.length - i < m) :
    P.Lockstep i 0 (P.left.declarations n) (P.right.declarations m)
      (P.declared (P.cursor i)) := by
  induction n generalizing i m with
  | zero => omega
  | succ n ih =>
    obtain ⟨m, rfl⟩ := Nat.exists_eq_succ_of_ne_zero (Nat.ne_zero_of_lt hn')
    have hrest {k : Token.Kind} (hk : k ≠ .finish) (h : ((P.cursor i).peek.kind == k) = true)
        (j : Nat) (hj : i < j) : P.Lockstep j 0 (P.left.declarations n) (P.right.declarations m)
          (P.declared (P.cursor j)) := by
      have hlt := lt_of_peek (beq_iff_eq.1 h ▸ hk)
      exact ih (by omega) (by omega)
    unfold Tape.declarations
    rw [declared_eq, Cursor.sees_eq (P.bounded i) (by decide),
      Cursor.sees_eq (P.bounded i) (by decide)]
    refine .ite (tells_sees P i _) (tells_sees_swap (not_kind_of_finish (by decide))) (fun h => ?_)
      fun h => ?_
    · rw [if_pos h]
      refine (lockstep_controller (beq_iff_eq.1 h)).bind_zero fun d j hj => ?_
      refine (hrest (by decide) h j hj).bind fun ds j _ => ?_
      exact lockstep_pure _
    rw [h]
    refine .ite (tells_sees P i _) (tells_sees_swap (not_kind_of_finish (by decide))) (fun h => ?_)
      fun h => ?_
    · rw [h]
      refine (lockstep_defaultAction (beq_iff_eq.1 h)).bind_zero fun d j hj => ?_
      refine (hrest (by decide) h j hj).bind fun ds j _ => ?_
      exact lockstep_pure _
    rw [h]
    exact lockstep_finish

end Twins
end Routes
