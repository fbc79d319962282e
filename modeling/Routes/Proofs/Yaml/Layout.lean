import Mathlib.Logic.Relation
import Routes.Proofs.Yaml.Scalar
import Routes.Yaml.Layout
/-!
Following the layout of a text. A state is described by the text in front of it, its column, and the
blocks that are open with the tokens so far; white space leads from one description to the next, and
a chain of tokens up to the end of the text is what a run returns.
-/
namespace Routes.Yaml
variable {front rest body : List Char} {n : Nat}

namespace Place
variable {p : Place} {w : List Char}

theorem advance_append (hw : ∀ c ∈ w, isBreak c = false) (rest : List Char) :
    p.advance (w ++ rest) = advance ⟨p.index + w.length, p.line, p.column + w.length⟩ rest := by
  induction w generalizing p with
  | nil => rfl
  | cons c w ih =>
    rw [List.forall_mem_cons] at hw
    have hreturn : c ≠ '\r' := by
      rintro rfl
      cases hw.1
    rw [List.cons_append, advance, hw.1, if_neg Bool.false_ne_true, ih hw.2, List.length_cons,
      Nat.add_right_comm p.index, Nat.add_right_comm p.column, Nat.add_assoc p.index,
      Nat.add_assoc p.column]
    exact fun _ h => absurd h hreturn

theorem advance_word (hw : ∀ c ∈ w, isBreak c = false) :
    p.advance w = ⟨p.index + w.length, p.line, p.column + w.length⟩ := by
  rw [← List.append_nil w, advance_append hw, List.append_nil]
  rfl

theorem isBreak_of_mem_spaces {c : Char} (hc : c ∈ spaces n) : isBreak c = false := by
  rw [List.eq_of_mem_replicate hc]
  rfl

theorem column_advance_line (hw : ∀ c ∈ w, isBreak c = false) (n : Nat) :
    (p.advance (w ++ '\n' :: spaces n)).column = n := by
  have hfeed : isBreak '\n' = true := rfl
  rw [advance_append hw, advance, hfeed, if_pos rfl,
    advance_word fun c hc => isBreak_of_mem_spaces hc, spaces, List.length_replicate, Nat.zero_add]
  exact fun _ h => absurd h (by decide)

end Place

namespace Layout
variable {l l' m : Layout} {a flow : Bool} {column i : Nat} {is : List Nat} {ts : List Token}
  {blocks : List Nat × List Token}

/-- A state outside of flow collections. -/
structure IsAt (l : Layout) (allowed : Bool) (column : Nat) (rest : List Char)
    (blocks : List Nat × List Token) : Prop where
  allowed : l.keyAllowed = allowed
  column : l.place.column = column
  rest : l.rest = rest
  indents : l.indents = blocks.1
  tokens : l.tokens = blocks.2
  outer : l.outer = []

/-- Such a state in which no token has to become a key. -/
structure Stands (l : Layout) (allowed : Bool) (column : Nat) (rest : List Char)
    (blocks : List Nat × List Token) : Prop extends IsAt l allowed column rest blocks where
  harmless : l.candidate.any (·.required) = false

/-- The state in which the next token is read. -/
def ready? (l : Layout) : Option Layout :=
  l.toNextToken.expireCandidates.map fun m => m.closeBlocks m.place.column

def Ready (l : Layout) (allowed : Bool) (column : Nat) (rest : List Char)
    (blocks : List Nat × List Token) : Prop :=
  ∃ m, l.ready? = some m ∧ m.Stands allowed column rest blocks

theorem unroll_of_le (h : i ≤ n) : unroll n (i :: is) ts = (i :: is, ts) := by
  rw [unroll, if_neg (Nat.not_lt.2 h)]

theorem unroll_of_lt (h : n < i) : unroll n (i :: is) ts = unroll n is (.blockEnd :: ts) := by
  rw [unroll, if_pos h]

theorem moveTo_append (h : l.rest = front ++ rest) :
    l.moveTo rest = { l with rest, place := l.place.advance front } := by
  rw [moveTo, h, List.length_append, Nat.add_sub_cancel, List.take_left']
  rfl

theorem skipSpace_of_atToken (hrest : AtToken rest) : skipSpace flow a false rest = (a, rest) := by
  cases rest with
  | nil => rfl
  | cons c cs =>
    obtain ⟨hspace, hhash⟩ := hrest c rfl
    have hblank : (c == ' ') = false ∧ (c == '\t') = false := by
      simpa [isBlank] using isBlank_of_isSpace hspace
    simp [skipSpace, isBreak_of_isSpace hspace, hblank.1, hblank.2, hhash]

theorem toNextToken_of_atToken (h : AtToken l.rest) : l.toNextToken = l := by
  have hmove : l.moveTo l.rest = l := by simp [moveTo, Place.advance]
  simp only [toNextToken, skipSpace_of_atToken h, hmove]

theorem skipSpace_append (hfront : ∀ c ∈ front, c = ' ' ∨ c = '\n') (hrest : AtToken rest) :
    skipSpace false a false (front ++ rest) = (a || front.contains '\n', rest) := by
  induction front generalizing a with
  | nil => rw [List.nil_append, skipSpace_of_atToken hrest, List.contains_nil, Bool.or_false]
  | cons c cs ih =>
    rw [List.forall_mem_cons] at hfront
    rcases hfront.1 with rfl | rfl
    · have hblank : isBreak ' ' = false := rfl
      rw [List.cons_append, skipSpace, hblank, if_neg Bool.false_ne_true, if_pos (by simp),
        ih hfront.2]
      simp
    · have hbreak : isBreak '\n' = true := rfl
      rw [List.cons_append, skipSpace, hbreak, if_pos rfl, ih hfront.2]
      simp

theorem length_skipSpace_le {comment : Bool} (cs : List Char) :
    (skipSpace flow a comment cs).2.length ≤ cs.length := by
  induction cs generalizing a comment with
  | nil => exact Nat.le_refl 0
  | cons c cs ih =>
    have hle : ∀ b d, (skipSpace flow b d cs).2.length ≤ cs.length + 1 :=
      fun b d => Nat.le_succ_of_le ih
    unfold skipSpace
    split
    · apply hle
    · split
      · apply hle
      · split
        · apply hle
        · exact Nat.le_refl _

theorem length_rest_of_ready? (h : l.ready? = some m) : m.rest.length ≤ l.rest.length := by
  obtain ⟨k, hk, rfl⟩ := Option.map_eq_some_iff.1 h
  have hexpire : k.rest = l.toNextToken.rest := by
    simp only [expireCandidates, Option.bind_eq_bind, Option.bind_eq_some_iff] at hk
    obtain ⟨candidate, -, outer, -, hk⟩ := hk
    rw [← Option.some.inj hk]
  have hclose : (k.closeBlocks k.place.column).rest = k.rest := by
    rw [closeBlocks]
    split <;> rfl
  rw [hclose, hexpire]
  exact length_skipSpace_le l.rest

theorem IsAt.not_inFlow (h : l.IsAt a column rest blocks) : l.inFlow = false := by
  rw [inFlow, h.outer]
  rfl

theorem IsAt.closeBlocks (h : l.IsAt a column rest (is, ts)) (n : Nat) :
    (l.closeBlocks n).IsAt a column rest (unroll n is ts) ∧
      (l.closeBlocks n).candidate = l.candidate := by
  rw [Layout.closeBlocks, h.not_inFlow, if_neg Bool.false_ne_true]
  exact ⟨⟨h.allowed, h.column, h.rest, by rw [h.indents, h.tokens], by rw [h.indents, h.tokens],
    h.outer⟩, rfl⟩

/-- A candidate that need not become a key may be given up. -/
theorem expire_of_harmless (place : Place) {candidate : Option Candidate}
    (h : candidate.any (·.required) = false) :
    ∃ k, expire place candidate = some k ∧ k.any (·.required) = false := by
  cases candidate with
  | none => exact ⟨none, rfl, rfl⟩
  | some k =>
    have hrequired : k.required = false := h
    rw [expire, hrequired, if_neg Bool.false_ne_true]
    split
    · exact ⟨none, rfl, rfl⟩
    · exact ⟨some k, rfl, hrequired⟩

/-- White space in front of a token, where the candidate is not too far away to be kept or need not
be kept. -/
theorem IsAt.ready {k : Option Candidate} (front : List Char)
    (h : l.IsAt a column (front ++ rest) (is, ts)) (hfront : ∀ c ∈ front, c = ' ' ∨ c = '\n')
    (hrest : AtToken rest) (hcolumn : (l.place.advance front).column = n)
    (hk : expire (l.place.advance front) l.candidate = some k) :
    ∃ m, l.ready? = some m ∧ m.IsAt (a || front.contains '\n') n rest (unroll n is ts) ∧
      m.candidate = k := by
  have hnext : l.toNextToken = { l with
      rest, place := l.place.advance front, keyAllowed := a || front.contains '\n' } := by
    rw [toNextToken, inFlow, h.outer, h.rest, h.allowed]
    simp only [List.isEmpty_nil, Bool.not_true, skipSpace_append hfront hrest, moveTo_append h.rest,
      h.outer]
  let m : Layout := { l with
    rest, place := l.place.advance front, keyAllowed := a || front.contains '\n', candidate := k }
  have hm : m.IsAt (a || front.contains '\n') n rest (is, ts) :=
    ⟨rfl, hcolumn, rfl, h.indents, h.tokens, h.outer⟩
  have hready : l.ready? = some (m.closeBlocks n) := by
    rw [ready?, hnext, expireCandidates]
    simp [hk, h.outer, hcolumn, m]
  exact ⟨_, hready, hm.closeBlocks n⟩

theorem Stands.ready (front : List Char) (h : l.Stands a column (front ++ rest) (is, ts))
    (hfront : ∀ c ∈ front, c = ' ' ∨ c = '\n') (hrest : AtToken rest)
    (hcolumn : (l.place.advance front).column = n) :
    l.Ready (a || front.contains '\n') n rest (unroll n is ts) := by
  obtain ⟨k, hk, hharmless⟩ := expire_of_harmless (l.place.advance front) h.harmless
  obtain ⟨m, hm, hat, rfl⟩ := h.toIsAt.ready front hfront hrest hcolumn hk
  exact ⟨m, hm, hat, hharmless⟩

theorem Stands.ready_space (h : l.Stands a column (' ' :: rest) (i :: is, ts))
    (hrest : AtToken rest) (hi : i ≤ column + 1) : l.Ready a (column + 1) rest (i :: is, ts) := by
  have hready := h.ready [' '] (n := column + 1) (by simp) hrest
    (by simp [Place.advance, isBreak, h.column])
  rwa [unroll_of_le hi, show [' '].contains '\n' = false from rfl, Bool.or_false] at hready

theorem Stands.ready_line (h : l.Stands a column ('\n' :: (spaces n ++ body)) (is, ts))
    (hbody : AtToken body) : l.Ready true n body (unroll n is ts) := by
  have hspaces : ∀ c ∈ spaces n, c = ' ' := fun c hc => List.eq_of_mem_replicate hc
  have hcolumn : (l.place.advance ('\n' :: spaces n)).column = n :=
    Place.column_advance_line (w := []) (by simp) n
  have hready := h.ready ('\n' :: spaces n) (by simpa using fun c hc => .inl (hspaces c hc)) hbody
    hcolumn
  rwa [List.contains_cons, beq_self_eq_true, Bool.true_or, Bool.or_true] at hready

theorem Stands.ready_here (h : l.Stands a column rest (is, ts)) (hrest : AtToken rest) :
    l.Ready a column rest (unroll column is ts) := by
  have hready := h.ready [] (n := column) (by simp) hrest h.column
  rwa [List.contains_nil, Bool.or_false] at hready

/-- One token after another. Each takes at least one character. -/
def Next (l l' : Layout) : Prop :=
  ∃ m c cs, l.ready? = some m ∧ m.rest = c :: cs ∧ m.token c cs = some l' ∧
    l'.rest.length ≤ cs.length

abbrev Goes : Layout → Layout → Prop := Relation.ReflTransGen Next

theorem Ready.next {c : Char} {cs : List Char} {p : Layout → Prop}
    (h : l.Ready a n (c :: cs) blocks)
    (htoken : ∀ m : Layout, m.Stands a n (c :: cs) blocks →
      ∃ l', m.token c cs = some l' ∧ l'.rest.length ≤ cs.length ∧ p l') :
    ∃ l', l.Next l' ∧ p l' := by
  obtain ⟨m, hm, hstands⟩ := h
  obtain ⟨l', hl', hlength, hp⟩ := htoken m hstands
  exact ⟨l', ⟨m, c, cs, hm, hstands.rest, hl', hlength⟩, hp⟩

theorem map_unroll (n : Nat) (is : List Nat) (ts : List Token) :
    (unroll n is ts).1.map (fun _ => Token.blockEnd) ++ (unroll n is ts).2 =
      is.map (fun _ => Token.blockEnd) ++ ts := by
  induction is generalizing ts with
  | nil => rfl
  | cons i is ih =>
    rw [unroll]
    split
    · rw [ih, List.map_cons, List.cons_append, ← List.singleton_append (x := Token.blockEnd),
        ← List.append_assoc, List.map_const', ← List.replicate_succ', List.replicate_succ,
        List.cons_append]
    · rfl

/-- Blocks that end at a column end at the end of the text as well. -/
theorem closeAllBlocks_closeBlocks (l : Layout) (n : Nat) :
    (l.closeBlocks n).closeAllBlocks = l.closeAllBlocks := by
  rw [closeBlocks]
  by_cases hflow : l.inFlow = true
  · rw [if_pos hflow]
  · have hflow' : Layout.inFlow { l with
        indents := (unroll n l.indents l.tokens).1,
        tokens := (unroll n l.indents l.tokens).2 } = false :=
      Bool.eq_false_iff.2 hflow
    rw [if_neg hflow, closeAllBlocks, closeAllBlocks, if_neg hflow, hflow',
      if_neg Bool.false_ne_true, map_unroll]

theorem run_succ (fuel : Nat) (l : Layout) :
    run (fuel + 1) l = l.ready?.bind fun m =>
      match m.rest with
      | [] => m.closeAllBlocks.dropCandidate.map (·.tokens.reverse)
      | c :: cs => (m.token c cs).bind (run fuel) := by
  have hrest : ∀ k : Layout, (k.closeBlocks k.place.column).rest = k.rest := by
    intro k
    rw [closeBlocks]
    split <;> rfl
  rw [run, ready?]
  cases l.toNextToken.expireCandidates with
  | none => rfl
  | some k =>
    cases h : k.rest with
    | nil => simp only [Option.map_some, Option.bind_some, closeAllBlocks_closeBlocks, hrest, h]
    | cons c cs => simp only [Option.map_some, Option.bind_some, hrest, h]

/-- The tokens of a text whose last one has been read. -/
theorem run_of_goes {fuel : Nat} (h : l.Goes l') (hlast : l'.Ready a n [] (is, ts))
    (hfuel : l.rest.length < fuel) :
    run fuel l = some (is.map (fun _ => Token.blockEnd) ++ ts).reverse := by
  -- from the last token back: the text in front of a state is shorter than the fuel that is left
  induction h using Relation.ReflTransGen.head_induction_on generalizing fuel with
  | refl =>
    obtain ⟨m, hm, hstands⟩ := hlast
    obtain ⟨fuel, rfl⟩ := Nat.exists_eq_add_of_lt hfuel
    rw [run_succ, hm, Option.bind_some, hstands.rest]
    have hclose : m.closeAllBlocks = { m with
        indents := [], tokens := is.map (fun _ => Token.blockEnd) ++ ts } := by
      rw [closeAllBlocks, hstands.not_inFlow, if_neg Bool.false_ne_true, hstands.indents,
        hstands.tokens]
    rw [hclose, dropCandidate, hstands.harmless]
    rfl
  | head h _ ih =>
    obtain ⟨m, c, cs, hm, hrest, htoken, hlength⟩ := h
    obtain ⟨fuel, rfl⟩ := Nat.exists_eq_add_of_lt hfuel
    have hle := length_rest_of_ready? hm
    rw [hrest, List.length_cons] at hle
    rw [run_succ, hm, Option.bind_some, hrest]
    simp only [htoken, Option.bind_some]
    exact ih (by omega)

end Layout
end Routes.Yaml
