import Routes.Proofs.Walk
import Routes.Proofs.Token.Cursor
/-!
Two walks and a cursor in lockstep. The walks go over tapes that differ from the first end of the
input on; the cursor reads one of them. A production is in lockstep when all three come to the same
from every index, none of the walks having gone beyond the first end. Main statements: one for each
way in which a walk reads a token, and the rules that put readings together.
-/
namespace Routes

/-- A walk has neither come nor looked further than an index. -/
structure Walk.Within (w : Walk) (n : Nat) : Prop where
  index : w.index ≤ n
  visited : ∀ i ∈ w.visited, i ≤ n

theorem Walk.Within.forward {w : Walk} {n : Nat} (h : w.Within n) (hlt : w.index < n) :
    w.forward.Within n :=
  ⟨hlt, List.forall_mem_cons.2 ⟨hlt, h.visited⟩⟩

/-- Two tapes with the same tokens up to an end of the input on each. Their loops may turn round
more often than there are such tokens. -/
structure Twins where
  front : List Token
  ends : Token → Nat
  finish : Token
  finish' : Token
  rest : List Token
  rest' : List Token
  turns : Nat
  turns' : Nat
  isFront : ∀ t ∈ front, t.kind ≠ .finish
  isFinish : finish.kind = .finish
  isFinish' : finish'.kind = .finish
  isEnough : front.length < turns
  isEnough' : front.length < turns'

namespace Twins

def swap (P : Twins) : Twins where
  front := P.front
  ends := P.ends
  finish := P.finish'
  finish' := P.finish
  rest := P.rest'
  rest' := P.rest
  turns := P.turns'
  turns' := P.turns
  isFront := P.isFront
  isFinish := P.isFinish'
  isFinish' := P.isFinish
  isEnough := P.isEnough'
  isEnough' := P.isEnough

def left (P : Twins) : Tape := ⟨P.front ++ P.finish :: P.rest, P.ends, P.turns⟩

def right (P : Twins) : Tape := P.swap.left

/-- The cursor that has read as many tokens of the left tape. -/
def cursor (P : Twins) (i : Nat) : Cursor :=
  ⟨(P.front.take i).getLast?.map P.ends, P.front.drop i, P.finish⟩

def IsExact (P : Twins) : Prop := ∀ t ∈ P.front, P.ends t = t.endOffset

/-- What walks over both tapes come to, and a cursor that reads the left one. Where they go on they
have read the same; where they fail they do so alike if both ends of the input are the same. -/
inductive Agree {α : Type} (P : Twins) (least : Nat) : Except ParseError α × Walk →
    Except ParseError α × Walk → Except ParseError (α × Cursor) → Prop
  | ok {a v v' q} : v.Within P.front.length → v'.Within P.front.length → v'.index = v.index →
      least ≤ v.index → (P.IsExact → q = .ok (a, P.cursor v.index)) →
      Agree P least (.ok a, v) (.ok a, v') q
  | error {e e' v v' q} : v.Within P.front.length → v'.Within P.front.length →
      (P.finish = P.finish' → e = e') → (P.IsExact → q = .error e) →
      Agree P least (.error e, v) (.error e', v') q

/-- From an index on two walks and a cursor agree, and read as many tokens at least. -/
def Lockstep {α : Type} (P : Twins) (i k : Nat) (x x' : Walks α)
    (q : Except ParseError (α × Cursor)) : Prop :=
  ∀ w w', w.Within P.front.length → w'.Within P.front.length → w.index = i → w'.index = i →
    ∃ r r', x.go w = some r ∧ x'.go w' = some r' ∧ P.Agree (i + k) r r' q

/-- At an index a walk finds something out and stays there. -/
def Tells {α : Type} (P : Twins) (i : Nat) (x : Walks α) (a : α) : Prop :=
  ∀ w, w.Within P.front.length → w.index = i →
    ∃ v, x.go w = some (.ok a, v) ∧ v.Within P.front.length ∧ v.index = i

variable {P : Twins} {α β : Type} {i k m : Nat} {x x' : Walks α} {y y' : Walks β} {a : α}
  {q q' : Except ParseError (α × Cursor)}

section Cursor

theorem bounded (P : Twins) (i : Nat) : (P.cursor i).Bounded where
  ahead t ht := P.isFront t (List.mem_of_mem_drop ht)
  finish := P.isFinish

theorem peek_cursor (P : Twins) (i : Nat) :
    (P.cursor i).peek = (P.front[i]?).getD P.finish := by
  rw [cursor, Cursor.peek, List.headD_eq_head?_getD, List.head?_drop]

/-- What is not the end of the input stands in front of it. -/
theorem lt_of_peek (h : (P.cursor i).peek.kind ≠ .finish) : i < P.front.length := by
  refine Nat.lt_of_not_le fun hle => h ?_
  rw [peek_cursor, List.getElem?_eq_none hle]
  exact P.isFinish

theorem getElem?_left (hi : i ≤ P.front.length) : P.left.tokens[i]? = some (P.cursor i).peek := by
  rw [peek_cursor, left]
  by_cases hlt : i < P.front.length
  · simp [List.getElem?_append_left hlt, List.getElem?_eq_getElem hlt]
  · obtain rfl : i = P.front.length := by omega
    simp

theorem peek_swap (h : i < P.front.length) : (P.swap.cursor i).peek = (P.cursor i).peek := by
  rw [peek_cursor, peek_cursor, swap, List.getElem?_eq_getElem h]
  rfl

/-- What does not tell one end of the input from another finds the same on both tapes. -/
theorem test_swap {γ : Type} {test : Token → γ} {d : γ}
    (htest : ∀ t, t.kind = .finish → test t = d) :
    test (P.swap.cursor i).peek = test (P.cursor i).peek := by
  by_cases h : i < P.front.length
  · rw [peek_swap h]
  · have hnone : P.front[i]? = none := List.getElem?_eq_none (by omega)
    rw [peek_cursor, peek_cursor, swap, hnone]
    exact (htest _ P.isFinish').trans (htest _ P.isFinish).symm

/-- So does the guard of a token that must stand without a gap, unless one is allowed. -/
theorem guard_swap {test : Token → Bool} (htest : ∀ t, t.kind = .finish → test t = false)
    (gap : Bool) : ((gap || (P.swap.cursor i).touches) && test (P.swap.cursor i).peek) =
      ((gap || (P.cursor i).touches) && test (P.cursor i).peek) := by
  by_cases h : i < P.front.length
  · rw [Cursor.touches, peek_swap h]
    rfl
  · have hnone : P.front[i]? = none := List.getElem?_eq_none (by omega)
    have hpeek : (P.cursor i).peek = P.finish := by rw [peek_cursor, hnone]; rfl
    rw [test_swap htest, hpeek, htest _ P.isFinish, Bool.and_false, Bool.and_false]

theorem cursor_succ (hexact : P.IsExact) (h : i < P.front.length) :
    (P.cursor i).Reads [(P.cursor i).peek] (P.cursor (i + 1)) where
  ahead := by
    rw [peek_cursor, List.getElem?_eq_getElem h]
    exact List.drop_eq_getElem_cons h
  before := by
    have hlast : (P.front.take (i + 1)).getLast? = some P.front[i] := by
      rw [List.take_succ_eq_append_getElem h, List.getLast?_concat]
    rw [peek_cursor, List.getElem?_eq_getElem h, cursor, hlast]
    simp [hexact P.front[i] (List.getElem_mem h)]
  finish := rfl

end Cursor

section Tells

theorem tells_pure (a : α) : P.Tells i (pure a) a := fun w hw hi => ⟨w, rfl, hw, hi⟩

theorem tells_lift (a : α) : P.Tells i (liftM (some a)) a := fun w hw hi => ⟨w, rfl, hw, hi⟩

theorem tells_visit {j : Nat} (hj : j ≤ P.front.length) : P.Tells i (Tape.visit j) () := by
  intro w hw hi
  exact ⟨⟨w.index, j :: w.visited⟩, rfl, ⟨hw.index, List.forall_mem_cons.2 ⟨hj, hw.visited⟩⟩, hi⟩

theorem tells_get {g : Walk → Walks α}
    (h : ∀ w : Walk, i ≤ P.front.length → w.index = i → P.Tells i (g w) a) :
    P.Tells i (get >>= g) a := fun w hw hi => h w (hi ▸ hw.index) hi w hw hi

theorem Tells.bind {g : α → Walks β} {b : β} (hx : P.Tells i x a) (hg : P.Tells i (g a) b) :
    P.Tells i (x >>= g) b := by
  intro w hw hi
  obtain ⟨v, hv, hv', hvi⟩ := hx w hw hi
  rw [Walks.go_bind_ok hv]
  exact hg v hv' hvi

theorem Tells.and {x y : Walks Bool} {a b : Bool} (hx : P.Tells i x a) (hy : P.Tells i y b) :
    P.Tells i (x <&&> y) (a && b) := by
  refine Tells.bind hx ?_
  cases a with
  | true => exact hy
  | false => exact tells_pure false

theorem Tells.or {x y : Walks Bool} {a b : Bool} (hx : P.Tells i x a) (hy : P.Tells i y b) :
    P.Tells i (x <||> y) (a || b) := by
  refine Tells.bind hx ?_
  cases a with
  | true => exact tells_pure true
  | false => exact hy

theorem tells_peek (P : Twins) (i : Nat) : P.Tells i P.left.peek (P.cursor i).peek := by
  refine tells_get fun w hi hw => ?_
  have hmin : min w.index (P.left.tokens.length - 1) = i := by
    simp only [left, List.length_append, List.length_cons]
    omega
  rw [hmin, Tape.look, getElem?_left hi]
  exact (tells_visit hi).bind (tells_lift _)

theorem tells_sees (P : Twins) (i : Nat) (test : Token → Bool) :
    P.Tells i (P.left.sees test) (test (P.cursor i).peek) :=
  (tells_peek P i).bind (tells_pure _)

theorem tells_touches (P : Twins) (i : Nat) : P.Tells i P.left.touches (P.cursor i).touches := by
  refine tells_get fun w hi hw => ?_
  rw [hw]
  cases i with
  | zero => exact tells_pure false
  | succ i =>
    have hfront : P.left.tokens[i]? = some P.front[i] := by
      rw [left, List.getElem?_append_left hi, List.getElem?_eq_getElem hi]
    have hbefore : (P.cursor (i + 1)).before = some (P.ends P.front[i]) := by
      rw [cursor, List.take_succ_eq_append_getElem hi, List.getLast?_concat]
      rfl
    refine (tells_visit (by omega)).bind ?_
    rw [hfront, Cursor.touches, hbefore]
    exact (tells_peek P (i + 1)).bind (tells_pure _)

end Tells

section Fails

/-- At an index a walk fails, and has gone no further than allowed. -/
def Fails (P : Twins) (i : Nat) (x : Walks α) (e : ParseError) : Prop :=
  ∀ w, w.Within P.front.length → w.index = i →
    ∃ v, x.go w = some (.error e, v) ∧ v.Within P.front.length

variable {e e' : ParseError}

theorem Tells.bind_fails {g : α → Walks β} (hx : P.Tells i x a) (hg : P.Fails i (g a) e) :
    P.Fails i (x >>= g) e := by
  intro w hw hi
  obtain ⟨v, hv, hv', hvi⟩ := hx w hw hi
  rw [Walks.go_bind_ok hv]
  exact hg v hv' hvi

theorem Fails.bind {g : α → Walks β} (hx : P.Fails i x e) : P.Fails i (x >>= g) e := by
  intro w hw hi
  obtain ⟨v, hv, hv'⟩ := hx w hw hi
  exact ⟨v, Walks.go_bind_error hv, hv'⟩

theorem fails_fail (P : Twins) (i : Nat) (e : Expected) :
    P.Fails i (P.left.fail e : Walks α) ⟨e, (P.cursor i).peek⟩ :=
  (tells_peek P i).bind_fails fun w hw _ => ⟨w, rfl, hw⟩

theorem fails_takeIf {test : Token → Bool} (h : test (P.cursor i).peek = false) (e : Expected) :
    P.Fails i (P.left.takeIf test e) ⟨e, (P.cursor i).peek⟩ := by
  refine (tells_sees P i test).bind_fails ?_
  rw [h]
  exact fails_fail P i e

end Fails

theorem not_kind_of_finish {k : Token.Kind} (hk : k ≠ .finish) (t : Token)
    (h : t.kind = .finish) : (t.kind == k) = false := by
  simpa [h] using hk.symm

section Lockstep

theorem Agree.mono {least least' : Nat} {r r' : Except ParseError α × Walk}
    (h : P.Agree least r r' q) (hleast : least' ≤ least) (hq : P.IsExact → q' = q) :
    P.Agree least' r r' q' := by
  cases h with
  | ok hv hv' hindex hle heq =>
    exact .ok hv hv' hindex (by omega) fun hexact => (hq hexact).trans (heq hexact)
  | error hv hv' he heq =>
    exact .error hv hv' he fun hexact => (hq hexact).trans (heq hexact)

namespace Lockstep

theorem mono (h : P.Lockstep i k x x' q) (hm : m ≤ k) (hq : P.IsExact → q' = q) :
    P.Lockstep i m x x' q' := by
  intro w w' hw hw' hi hi'
  obtain ⟨r, r', hr, hr', hagree⟩ := h w w' hw hw' hi hi'
  exact ⟨r, r', hr, hr', hagree.mono (by omega) hq⟩

theorem congr (h : P.Lockstep i k x x' q) (hq : P.IsExact → q' = q) : P.Lockstep i k x x' q' :=
  h.mono (Nat.le_refl k) hq

theorem bind_of_le {g g' : α → Walks β} {h : α × Cursor → Except ParseError (β × Cursor)}
    (hx : P.Lockstep i k x x' q) (hm : m ≤ k)
    (hg : ∀ a j, i + k ≤ j → P.Lockstep j 0 (g a) (g' a) (h (a, P.cursor j))) :
    P.Lockstep i m (x >>= g) (x' >>= g') (q >>= h) := by
  intro w w' hw hw' hi hi'
  obtain ⟨r, r', hr, hr', hagree⟩ := hx w w' hw hw' hi hi'
  cases hagree with
  | @ok a v v' _ hv hv' hindex hleast hq =>
    obtain ⟨s, s', hs, hs', hagree⟩ := hg a v.index hleast v v' hv hv' rfl hindex
    rw [Walks.go_bind_ok hr, Walks.go_bind_ok hr']
    refine ⟨s, s', hs, hs', hagree.mono (by omega) fun hexact => ?_⟩
    rw [hq hexact]
    rfl
  | error hv hv' he hq =>
    refine ⟨_, _, Walks.go_bind_error hr, Walks.go_bind_error hr', ?_⟩
    refine .error hv hv' he fun hexact => ?_
    rw [hq hexact]
    rfl

theorem bind {g g' : α → Walks β} {h : α × Cursor → Except ParseError (β × Cursor)}
    (hx : P.Lockstep i k x x' q)
    (hg : ∀ a j, i + k ≤ j → P.Lockstep j 0 (g a) (g' a) (h (a, P.cursor j))) :
    P.Lockstep i k (x >>= g) (x' >>= g') (q >>= h) := hx.bind_of_le (Nat.le_refl k) hg

/-- The same with nothing said of how much is read in all. -/
theorem bind_zero {g g' : α → Walks β} {h : α × Cursor → Except ParseError (β × Cursor)}
    (hx : P.Lockstep i k x x' q)
    (hg : ∀ a j, i + k ≤ j → P.Lockstep j 0 (g a) (g' a) (h (a, P.cursor j))) :
    P.Lockstep i 0 (x >>= g) (x' >>= g') (q >>= h) := hx.bind_of_le (Nat.zero_le k) hg

theorem after {g g' : α → Walks β} {a a' : α} {p : Except ParseError (β × Cursor)}
    (hx : P.Tells i x a) (hx' : P.swap.Tells i x' a') (h : P.Lockstep i k (g a) (g' a') p) :
    P.Lockstep i k (x >>= g) (x' >>= g') p := by
  intro w w' hw hw' hi hi'
  obtain ⟨v, hv, hvn, hvi⟩ := hx w hw hi
  obtain ⟨v', hv', hvn', hvi'⟩ := hx' w' hw' hi'
  rw [Walks.go_bind_ok hv, Walks.go_bind_ok hv']
  exact h v v' hvn hvn' hvi hvi'

theorem ite {b : Bool} {t t' : Walks Bool} {x₁ x₁' x₂ x₂' : Walks α} (ht : P.Tells i t b)
    (ht' : P.swap.Tells i t' b) (hyes : b = true → P.Lockstep i k x₁ x₁' q)
    (hno : b = false → P.Lockstep i k x₂ x₂' q) :
    P.Lockstep i k (do if ← t then x₁ else x₂) (do if ← t' then x₁' else x₂') q := by
  refine after ht ht' ?_
  cases b with
  | true => exact hyes rfl
  | false => exact hno rfl

theorem of_fails {e e' : ParseError} (hx : P.Fails i x e) (hx' : P.swap.Fails i x' e')
    (he : P.finish = P.finish' → e = e') (hq : P.IsExact → q = .error e) :
    P.Lockstep i k x x' q := by
  intro w w' hw hw' hi hi'
  obtain ⟨v, hv, hvn⟩ := hx w hw hi
  obtain ⟨v', hv', hvn'⟩ := hx' w' hw' hi'
  exact ⟨_, _, hv, hv', .error hvn hvn' he hq⟩

end Lockstep

theorem lockstep_pure (a : α) : P.Lockstep i 0 (pure a) (pure a) (.ok (a, P.cursor i)) := by
  intro w w' hw hw' hi hi'
  refine ⟨_, _, rfl, rfl, .ok hw hw' (hi'.trans hi.symm) (by omega) fun _ => ?_⟩
  rw [hi]

theorem kind_peek_swap (P : Twins) (i : Nat) :
    (P.swap.cursor i).peek.kind = (P.cursor i).peek.kind := test_swap fun _ ht => ht

theorem swap_cursor (h : P.finish = P.finish') (i : Nat) : P.swap.cursor i = P.cursor i :=
  congrArg (Cursor.mk ((P.front.take i).getLast?.map P.ends) (P.front.drop i)) h.symm

theorem lockstep_fail (e : Expected) :
    P.Lockstep i k (P.left.fail e : Walks α) (P.right.fail e) ((P.cursor i).fail e) := by
  refine .of_fails (fails_fail P i e) (fails_fail P.swap i e) (fun h => ?_) fun _ => rfl
  rw [swap_cursor h]

theorem lockstep_consume (h : (P.cursor i).peek.kind ≠ .finish) :
    P.Lockstep i 1 P.left.consume P.right.consume
      (.ok ((P.cursor i).peek, P.cursor (i + 1))) := by
  have hlt := lt_of_peek h
  refine .after (tells_peek P i) (tells_peek P.swap i) ?_
  rw [peek_swap hlt, if_pos h]
  intro w w' hw hw' hi hi'
  have hforward := hw.forward (hi ▸ hlt)
  have hforward' := hw'.forward (hi' ▸ hlt)
  have hindex : w.forward.index = i + 1 := congrArg (· + 1) hi
  have hindex' : w'.forward.index = i + 1 := congrArg (· + 1) hi'
  refine ⟨_, _, rfl, rfl, ?_⟩
  refine .ok hforward hforward' (hindex'.trans hindex.symm) (Nat.le_of_eq hindex.symm) fun _ => ?_
  rw [hindex]

theorem takeIf_of_pass {test : Token → Bool} (htest : ∀ t, t.kind = .finish → test t = false)
    (h : test (P.cursor i).peek = true) (hexact : P.IsExact) (e : Expected) :
    (P.cursor i).takeIf test e = .ok ((P.cursor i).peek, P.cursor (i + 1)) := by
  have hkind : (P.cursor i).peek.kind ≠ .finish := fun hk => by simp [htest _ hk] at h
  exact Cursor.takeIf_eq_ok_iff.2 ⟨h, cursor_succ hexact (lt_of_peek hkind)⟩

theorem takeIf_of_not_pass {test : Token → Bool} (htest : ∀ t, t.kind = .finish → test t = false)
    (h : test (P.cursor i).peek = false) (e : Expected) :
    (P.cursor i).takeIf test e = (P.cursor i).fail e := by
  rcases Cursor.takeIf_cases (P.bounded i) htest e with ⟨c', hpass, -⟩ | ⟨-, hfail⟩
  · simp [hpass] at h
  · exact hfail

/-- What steps over a token that passes a test agrees with a cursor that reads it. -/
theorem lockstep_consume_of {test : Token → Bool}
    (htest : ∀ t, t.kind = .finish → test t = false) (h : test (P.cursor i).peek = true)
    (e : Expected) :
    P.Lockstep i 1 P.left.consume P.right.consume ((P.cursor i).takeIf test e) := by
  have hkind : (P.cursor i).peek.kind ≠ .finish := fun hk => by simp [htest _ hk] at h
  exact (lockstep_consume hkind).congr fun hexact => takeIf_of_pass htest h hexact e

theorem lockstep_consume_kind {k : Token.Kind} (hk : k ≠ .finish)
    (h : (P.cursor i).peek.kind = k) :
    P.Lockstep i 1 P.left.consume P.right.consume ((P.cursor i).take k) :=
  lockstep_consume_of (not_kind_of_finish hk) (beq_iff_eq.2 h) _

theorem tells_sees_swap {test : Token → Bool} (htest : ∀ t, t.kind = .finish → test t = false) :
    P.swap.Tells i (P.right.sees test) (test (P.cursor i).peek) :=
  test_swap htest ▸ tells_sees P.swap i test

theorem lockstep_takeIf {test : Token → Bool} (htest : ∀ t, t.kind = .finish → test t = false)
    (e : Expected) :
    P.Lockstep i 1 (P.left.takeIf test e) (P.right.takeIf test e)
      ((P.cursor i).takeIf test e) := by
  refine .ite (tells_sees P i test) (tells_sees_swap htest) (fun h => ?_) fun h => ?_
  · exact lockstep_consume_of htest h e
  · exact (lockstep_fail e).congr fun _ => takeIf_of_not_pass htest h e

theorem lockstep_take {k : Token.Kind} (hk : k ≠ .finish) :
    P.Lockstep i 1 (P.left.take k) (P.right.take k) ((P.cursor i).take k) :=
  lockstep_takeIf (not_kind_of_finish hk) _

theorem lockstep_skip {k : Token.Kind} (hk : k ≠ .finish) :
    P.Lockstep i 0 (P.left.skip k) (P.right.skip k) (.ok ((P.cursor i).skip k)) := by
  refine .ite (tells_sees P i _) (tells_sees_swap (not_kind_of_finish hk)) (fun h => ?_) fun h => ?_
  · rw [beq_iff_eq] at h
    have hkind : (P.cursor i).peek.kind ≠ .finish := h ▸ hk
    refine ((lockstep_consume hkind).bind_zero (h := fun r => .ok (true, r.2))
      fun _ j _ => lockstep_pure true).congr fun hexact => ?_
    rw [Cursor.skip_of_reads (cursor_succ hexact (lt_of_peek hkind)) h]
    rfl
  · refine (lockstep_pure false).congr fun _ => ?_
    rw [Cursor.skip_of_not_sees (Cursor.not_sees_of_peek (by simpa using h))]

theorem lockstep_takeSome {meaning : Token → Option α}
    (hmeaning : ∀ t, t.kind = .finish → meaning t = none) (e : Expected) (d : α) :
    P.Lockstep i 1 (P.left.takeSome meaning e) (P.right.takeSome meaning e) (do
      let (t, c) ← (P.cursor i).takeIf (fun t => (meaning t).isSome) e
      return ((meaning t).getD d, c)) := by
  have htest : ∀ t, t.kind = .finish → (meaning t).isSome = false :=
    fun t ht => by rw [hmeaning t ht]; rfl
  refine .after (tells_peek P i) (tells_peek P.swap i) ?_
  rw [test_swap hmeaning]
  cases hm : meaning (P.cursor i).peek with
  | none =>
    refine (lockstep_fail e).congr fun _ => ?_
    rw [takeIf_of_not_pass htest (by rw [hm]; rfl)]
    rfl
  | some a =>
    have hpass : (meaning (P.cursor i).peek).isSome = true := by rw [hm]; rfl
    refine ((lockstep_consume_of htest hpass e).bind (h := fun r => .ok (a, r.2))
      fun _ j _ => lockstep_pure a).congr fun hexact => ?_
    rw [takeIf_of_pass htest hpass hexact]
    simp [bind, Except.bind, pure, Except.pure, hm]

/-- A token of a kind that is read only directly behind the last one. -/
theorem lockstep_touching {k : Token.Kind} {x₁ x₁' x₂ x₂' : Walks α}
    {f : Cursor → Except ParseError (α × Cursor)} (hk : k ≠ .finish)
    (hyes : ∀ j, i < j → P.Lockstep j 0 x₁ x₁' (f (P.cursor j)))
    (hno : P.Lockstep i 0 x₂ x₂' q) :
    P.Lockstep i 0
      (do if ← P.left.touches <&&> P.left.sees (·.kind == k) then
            let _ ← P.left.consume
            x₁
          else x₂)
      (do if ← P.right.touches <&&> P.right.sees (·.kind == k) then
            let _ ← P.right.consume
            x₁'
          else x₂')
      (if (P.cursor i).touches && (P.cursor i).sees k then f ((P.cursor i).skip k).2 else q) := by
  have hleft := (tells_touches P i).and (tells_sees P i (·.kind == k))
  have hright := (tells_touches P.swap i).and (tells_sees P.swap i (·.kind == k))
  have hguard : ((P.swap.cursor i).touches && (P.swap.cursor i).peek.kind == k) =
      ((P.cursor i).touches && (P.cursor i).peek.kind == k) :=
    guard_swap (not_kind_of_finish hk) false
  rw [hguard] at hright
  rw [Cursor.sees_eq (P.bounded i) hk]
  refine .ite hleft hright (fun h => ?_) fun h => ?_
  · have hpeek := beq_iff_eq.1 (Bool.and_eq_true_iff.1 h).2
    have hkind : (P.cursor i).peek.kind ≠ .finish := hpeek ▸ hk
    rw [if_pos h]
    refine ((lockstep_consume hkind).bind_zero (h := fun r => f r.2)
      fun _ j hj => hyes j hj).congr fun hexact => ?_
    rw [Cursor.skip_of_reads (cursor_succ hexact (lt_of_peek hkind)) hpeek]
    rfl
  · rw [h]
    exact hno

end Lockstep

end Twins
end Routes
