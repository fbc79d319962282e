import Routes.Proofs.Walk.Parse
/-!
Walks over any tokens. Every walk comes to an end, and none goes beyond the first end of the input:
what stands behind that counts for nothing, and where the end itself stands counts only for errors.
Main statements: that of every tape, whichever way the ends of its tokens are told and however often
its loops may turn round beyond the number of tokens, and those that follow for the declarations of
a stream.
-/
namespace Routes

/-- Every index of a walk is that of a token with no end of the input in front of it. -/
def Walk.StaysIn (w : Walk) (ts : List Token) : Prop :=
  ∀ i ∈ w.index :: w.visited, i < ts.length ∧ ∀ t ∈ ts.take i, t.kind ≠ .finish

namespace Twins
variable {P : Twins} {α : Type} {least : Nat} {r r' : Except ParseError α × Walk}
  {q : Except ParseError (α × Cursor)}

theorem staysIn_left {w : Walk} (h : w.Within P.front.length) : w.StaysIn P.left.tokens := by
  intro i hi
  have hle : i ≤ P.front.length := by
    cases hi with
    | head => exact h.index
    | tail _ hi => exact h.visited i hi
  constructor
  · rw [left, List.length_append, List.length_cons]
    omega
  · rw [left, List.take_append_of_le_length hle]
    exact fun t ht => P.isFront t (List.mem_of_mem_take ht)

namespace Agree

theorem staysIn (h : P.Agree least r r' q) : r.2.StaysIn P.left.tokens := by
  cases h with
  | ok hv => exact staysIn_left hv
  | error hv => exact staysIn_left hv

theorem toOption_eq (h : P.Agree least r r' q) : r.1.toOption = r'.1.toOption := by
  cases h with
  | ok => rfl
  | error => rfl

theorem eq_of_finish (h : P.Agree least r r' q) (hfinish : P.finish = P.finish') :
    r.1 = r'.1 := by
  cases h with
  | ok => rfl
  | error _ _ he => exact congrArg Except.error (he hfinish)

theorem map_fst (h : P.Agree least r r' q) (hexact : P.IsExact) : q.map Prod.fst = r.1 := by
  cases h with
  | ok _ _ _ _ hq =>
    rw [hq hexact]
    rfl
  | error _ _ _ hq =>
    rw [hq hexact]
    rfl

end Agree

/-- Walks over both tapes come to an end, in agreement with a cursor. -/
theorem exists_agree (P : Twins) : ∃ r r', P.left.parse = some r ∧ P.right.parse = some r' ∧
    P.Agree 0 r r' (P.declared (P.cursor 0)) := by
  have hstart : Walk.Within ⟨0, []⟩ P.front.length := ⟨Nat.zero_le _, nofun⟩
  have hread := lockstep_declarations (P.ahead_lt_turns 0) (P.swap.ahead_lt_turns 0)
  exact hread ⟨0, []⟩ ⟨0, []⟩ hstart hstart rfl rfl

end Twins

namespace Tape
variable {ends : Token → Nat} {turns turns' : Nat} {ts us front rest : List Token} {f : Token}

section Parts

def beforeFinish (ts : List Token) : List Token := ts.takeWhile (·.kind != .finish)

def finish? (ts : List Token) : Option Token := (ts.dropWhile (·.kind != .finish)).head?

/-- The tokens up to the first end of the input, and that one. -/
def upToFinish (ts : List Token) : List Token := beforeFinish ts ++ (finish? ts).toList

/-- Tokens fall apart at their first end of the input, if they have one. -/
inductive Parts : List Token → Prop
  | endless {ts : List Token} (h : ∀ t ∈ ts, t.kind ≠ .finish) : Parts ts
  | ended {front : List Token} {f : Token} (h : ∀ t ∈ front, t.kind ≠ .finish)
      (hf : f.kind = .finish) (rest : List Token) : Parts (front ++ f :: rest)

theorem length_beforeFinish_le (ts : List Token) : (beforeFinish ts).length ≤ ts.length :=
  (List.takeWhile_prefix _).length_le

theorem kind_of_mem_beforeFinish {t : Token} (ht : t ∈ beforeFinish ts) : t.kind ≠ .finish := by
  simpa using List.all_eq_true.1 List.all_takeWhile t ht

theorem kind_of_finish? (h : finish? ts = some f) : f.kind = .finish := by
  have hhead := List.head?_dropWhile_not (·.kind != .finish) ts
  rw [finish?] at h
  simpa [h] using hhead

theorem parts (ts : List Token) : Parts ts := by
  have hsplit : beforeFinish ts ++ ts.dropWhile (·.kind != .finish) = ts :=
    List.takeWhile_append_dropWhile
  cases hdrop : ts.dropWhile (·.kind != .finish) with
  | nil =>
    rw [hdrop, List.append_nil] at hsplit
    exact .endless fun t ht => kind_of_mem_beforeFinish (hsplit.symm ▸ ht)
  | cons f rest =>
    have hf : finish? ts = some f := by rw [finish?, hdrop, List.head?_cons]
    rw [hdrop] at hsplit
    rw [← hsplit]
    exact .ended (fun t ht => kind_of_mem_beforeFinish ht) (kind_of_finish? hf) rest

theorem beforeFinish_of_endless (h : ∀ t ∈ ts, t.kind ≠ .finish) : beforeFinish ts = ts := by
  have hall : ∀ t ∈ ts, (t.kind != .finish) = true := fun t ht => bne_iff_ne.2 (h t ht)
  simpa [beforeFinish] using @List.takeWhile_append_of_pos _ _ ts [] hall

theorem finish?_of_endless (h : ∀ t ∈ ts, t.kind ≠ .finish) : finish? ts = none := by
  have hall : ∀ t ∈ ts, (t.kind != .finish) = true := fun t ht => bne_iff_ne.2 (h t ht)
  simpa [finish?] using @List.dropWhile_append_of_pos _ _ ts [] hall

theorem beforeFinish_append (h : ∀ t ∈ front, t.kind ≠ .finish) (hf : f.kind = .finish)
    (rest : List Token) : beforeFinish (front ++ f :: rest) = front := by
  have hall : ∀ t ∈ front, (t.kind != .finish) = true := fun t ht => bne_iff_ne.2 (h t ht)
  rw [beforeFinish, List.takeWhile_append_of_pos hall]
  simp [hf]

theorem finish?_append (h : ∀ t ∈ front, t.kind ≠ .finish) (hf : f.kind = .finish)
    (rest : List Token) : finish? (front ++ f :: rest) = some f := by
  have hall : ∀ t ∈ front, (t.kind != .finish) = true := fun t ht => bne_iff_ne.2 (h t ht)
  rw [finish?, List.dropWhile_append_of_pos hall]
  simp [hf]

end Parts

/-- The end of the input at which a walk stops, also where it is put behind the tokens. -/
def finishOf (ends : Token → Nat) (ts : List Token) : Token :=
  (finish? ts).getD (finishAfter ends ts)

theorem kind_finishOf (ends : Token → Nat) (ts : List Token) :
    (finishOf ends ts).kind = .finish := by
  rw [finishOf]
  cases hfind : finish? ts with
  | none => rfl
  | some f => exact kind_of_finish? hfind

theorem ofTokens_eq (ends : Token → Nat) (turns : Nat) (ts : List Token) :
    ∃ rest, ofTokens ends turns ts =
      ⟨beforeFinish ts ++ finishOf ends ts :: rest, ends, turns⟩ := by
  rw [ofTokens, finishOf]
  cases parts ts with
  | endless h =>
    have hlast : ts.getLast?.any (·.kind == .finish) = false := by
      cases hlast : ts.getLast? with
      | none => rfl
      | some t => simpa using h t (List.mem_of_getLast? hlast)
    rw [beforeFinish_of_endless h, finish?_of_endless h, hlast]
    exact ⟨[], rfl⟩
  | ended h hf rest =>
    rw [beforeFinish_append h hf, finish?_append h hf]
    split
    · exact ⟨rest, rfl⟩
    · exact ⟨rest ++ [_], congrArg (Tape.mk · ends turns) (List.append_assoc ..)⟩

/-- Tapes of tokens that are the same in front of their first ends are twins. -/
theorem exists_twins (ends : Token → Nat) (h : beforeFinish ts = beforeFinish us)
    (hturns : ts.length < turns) (hturns' : us.length < turns') :
    ∃ P : Twins, P.left = ofTokens ends turns ts ∧ P.right = ofTokens ends turns' us ∧
      P.ends = ends ∧ P.finish' = finishOf ends us ∧
      P.cursor 0 = ⟨none, beforeFinish ts, finishOf ends ts⟩ := by
  obtain ⟨rest, hts⟩ := ofTokens_eq ends turns ts
  obtain ⟨rest', hus⟩ := ofTokens_eq ends turns' us
  have hlength := length_beforeFinish_le ts
  have hlength' := length_beforeFinish_le us
  rw [← h] at hus hlength'
  let P : Twins := {
    front := beforeFinish ts
    ends := ends
    finish := finishOf ends ts
    finish' := finishOf ends us
    rest := rest
    rest' := rest'
    turns := turns
    turns' := turns'
    isFront t ht := kind_of_mem_beforeFinish ht
    isFinish := kind_finishOf ends ts
    isFinish' := kind_finishOf ends us
    isEnough := by omega
    isEnough' := by omega }
  exact ⟨P, hts.symm, hus.symm, rfl, rfl, rfl⟩

/-- A cursor stops at the same end where the ends of tokens are told as they are. -/
theorem cursor_ofTokens (h : ∀ t ∈ ts, ends t = t.endOffset) :
    Cursor.ofTokens ts = ⟨none, beforeFinish ts, finishOf ends ts⟩ := by
  have hafter : finishAfter ends ts = Cursor.finishAfter ts := by
    rw [finishAfter, Cursor.finishAfter]
    cases hlast : ts.getLast? with
    | none => rfl
    | some t => simp only [h t (List.mem_of_getLast? hlast)]
  rw [finishOf, hafter]
  rfl

/-- What reading some tokens comes to, on a walk that stays in them, whenever a loop may turn round
more often than there are tokens. -/
def ComesTo (ends : Token → Nat) (ts : List Token) (answer : Except ParseError Declarations) :
    Prop :=
  ∀ turns, ts.length < turns → ∃ w, (ofTokens ends turns ts).parse = some (answer, w) ∧
    w.StaysIn (ofTokens ends turns ts).tokens

/-- Tokens that are the same in front of their first ends are read alike. -/
theorem parse_alike (ends : Token → Nat) (h : beforeFinish ts = beforeFinish us)
    (hturns : ts.length < turns) (hturns' : us.length < turns') :
    ∃ a a' w w', (ofTokens ends turns ts).parse = some (a, w) ∧
      (ofTokens ends turns' us).parse = some (a', w') ∧
      w.StaysIn (ofTokens ends turns ts).tokens ∧ a.toOption = a'.toOption ∧
      (finishOf ends ts = finishOf ends us → a = a') ∧
      ((∀ t ∈ ts, ends t = t.endOffset) → a = Declarations.ofTokens ts) := by
  obtain ⟨P, hleft, hright, hends, hfinish', hcursor⟩ := exists_twins ends h hturns hturns'
  obtain ⟨⟨a, w⟩, ⟨a', w'⟩, hr, hr', hagree⟩ := P.exists_agree
  have hfront : P.front = beforeFinish ts := congrArg Cursor.ahead hcursor
  have hfinish : P.finish = finishOf ends ts := congrArg Cursor.finish hcursor
  rw [← hleft, ← hright]
  refine ⟨a, a', w, w', hr, hr', hagree.staysIn, hagree.toOption_eq, fun hsame => ?_,
    fun hexact => ?_⟩
  · exact hagree.eq_of_finish (by rw [hfinish, hfinish', hsame])
  · have hread := hagree.map_fst fun t ht => by
      rw [hends, hexact t (List.takeWhile_subset _ (hfront ▸ ht))]
    refine hread.symm.trans ?_
    rw [hcursor, ← cursor_ofTokens hexact, Twins.declared, Declarations.ofTokens]
    cases (Cursor.ofTokens ts).declarations <;> rfl

/-- More turns than there are tokens change nothing. -/
theorem exists_comesTo (ends : Token → Nat) (ts : List Token) : ∃ answer,
    ComesTo ends ts answer ∧
      ((∀ t ∈ ts, ends t = t.endOffset) → answer = Declarations.ofTokens ts) := by
  have hleast : ts.length < ts.length + 1 := Nat.lt_succ_self _
  obtain ⟨answer, -, w, -, hparse, -, -, -, -, hexact⟩ := parse_alike ends rfl hleast hleast
  refine ⟨answer, fun turns hturns => ?_, hexact⟩
  obtain ⟨a, a', w, w', ha, ha', hstays, -, hsame, -⟩ := parse_alike ends rfl hturns hleast
  cases hparse.symm.trans ha'
  exact ⟨w, hsame rfl ▸ ha, hstays⟩

theorem ComesTo.alike {a a' : Except ParseError Declarations} (ha : ComesTo ends ts a)
    (ha' : ComesTo ends us a') (h : beforeFinish ts = beforeFinish us) :
    a.toOption = a'.toOption ∧ (finishOf ends ts = finishOf ends us → a = a') := by
  have hts : ts.length < ts.length + 1 := Nat.lt_succ_self _
  have hus : us.length < us.length + 1 := Nat.lt_succ_self _
  obtain ⟨w, hparse, -⟩ := ha _ hts
  obtain ⟨w', hparse', -⟩ := ha' _ hus
  obtain ⟨b, b', v, v', hb, hb', -, hread, hsame, -⟩ := parse_alike ends h hts hus
  cases hparse.symm.trans hb
  cases hparse'.symm.trans hb'
  exact ⟨hread, hsame⟩

/-- What stands behind the first end of the input counts for nothing. -/
theorem comesTo_upToFinish {a : Except ParseError Declarations} (ha : ComesTo ends ts a) :
    ComesTo ends (upToFinish ts) a := by
  rw [upToFinish]
  cases parts ts with
  | endless h =>
    rwa [beforeFinish_of_endless h, finish?_of_endless h, Option.toList, List.append_nil]
  | @ended front f h hf rest =>
    rw [beforeFinish_append h hf, finish?_append h hf, Option.toList]
    have hfront : beforeFinish (front ++ f :: rest) = beforeFinish (front ++ [f]) := by
      rw [beforeFinish_append h hf, beforeFinish_append h hf]
    have hfinish : finishOf ends (front ++ f :: rest) = finishOf ends (front ++ [f]) := by
      rw [finishOf, finishOf, finish?_append h hf, finish?_append h hf]
      rfl
    obtain ⟨a', ha', -⟩ := exists_comesTo ends (front ++ [f])
    rwa [(ha.alike ha' hfront).2 hfinish]

/-- An end of the input behind the tokens changes nothing that is read without it. -/
theorem comesTo_concat {a : Except ParseError Declarations} (ha : ComesTo ends ts a)
    (hf : f.kind = .finish) : ∃ a', ComesTo ends (ts ++ [f]) a' ∧ a'.toOption = a.toOption := by
  have hfront : beforeFinish (ts ++ [f]) = beforeFinish ts := by
    cases parts ts with
    | endless h => rw [beforeFinish_append h hf, beforeFinish_of_endless h]
    | ended h hg rest =>
      rw [List.append_assoc, List.cons_append, beforeFinish_append h hg, beforeFinish_append h hg]
  obtain ⟨a', ha', -⟩ := exists_comesTo ends (ts ++ [f])
  exact ⟨a', ha', (ha'.alike ha hfront).1⟩

/-- Any tokens are read to an end, whichever way it is told where they end: no loop turns round more
often than allowed, no look goes outside the tokens and no step over an end of the input. Told as it
is, this comes to their declarations. Only the tokens up to the first end count, and without an end
in the last place the same is read where anything is. -/
theorem reads_any_tokens (ends : Token → Nat) (ts : List Token) : ∃ answer,
    ComesTo ends ts answer ∧
      ((∀ t ∈ ts, ends t = t.endOffset) → answer = Declarations.ofTokens ts) ∧
      ComesTo ends (upToFinish ts) answer ∧
      ∀ text p n, ∃ answer', ComesTo ends (ts ++ [⟨.finish, text, p, n⟩]) answer' ∧
        answer'.toOption = answer.toOption := by
  obtain ⟨answer, hanswer, hexact⟩ := exists_comesTo ends ts
  refine ⟨answer, hanswer, hexact, comesTo_upToFinish hanswer, fun text p n => ?_⟩
  exact comesTo_concat hanswer rfl

/-- Where a token ends when the sum wraps. -/
def wrappedEnd (t : Token) : Nat := t.endOffset % UInt64.size

theorem reads_todoTokens : (∀ t ∈ todoTokens, wrappedEnd t = t.endOffset) ∧
    ComesTo wrappedEnd todoTokens (Declarations.ofTokens todoTokens) := by
  have hends : ∀ t ∈ todoTokens, wrappedEnd t = t.endOffset := by decide
  obtain ⟨answer, hanswer, hexact, -⟩ := reads_any_tokens wrappedEnd todoTokens
  exact ⟨hends, hexact hends ▸ hanswer⟩

end Tape

namespace Declarations

theorem comesTo_ofTokens (ts : List Token) :
    Tape.ComesTo Token.endOffset ts (ofTokens ts) := by
  obtain ⟨answer, hanswer, hexact⟩ := Tape.exists_comesTo Token.endOffset ts
  rwa [← hexact fun _ _ => rfl]

theorem ofTokens_upToFinish (ts : List Token) : ofTokens (Tape.upToFinish ts) = ofTokens ts := by
  have hread := Tape.comesTo_upToFinish (comesTo_ofTokens ts)
  exact ((comesTo_ofTokens _).alike hread rfl).2 rfl

theorem toOption_ofTokens_concat (ts : List Token) {f : Token} (hf : f.kind = .finish) :
    (ofTokens (ts ++ [f])).toOption = (ofTokens ts).toOption := by
  obtain ⟨a', hread, hsame⟩ := Tape.comesTo_concat (comesTo_ofTokens ts) hf
  rw [← hsame]
  exact ((comesTo_ofTokens _).alike hread rfl).1

end Declarations
end Routes
