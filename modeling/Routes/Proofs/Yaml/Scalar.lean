import Routes.Proofs.Token.Scan
import Routes.Yaml.Scalar
import Routes.Yaml.Spelling
/-!
Scalars read back. A run of fragment characters is written plain or between single quotes, and in
front of the next line of a block both are read as the run.
-/
open Routes.Token (isFragmentChar IsRun)

namespace Routes.Yaml
variable {c d : Char} {cs w rest body gap : List Char} {s : String} {indent column n : Nat}

/-- What holds of the fragment characters can be checked one by one. -/
theorem fragment_forall {p : Char → Bool}
    (h : ∀ n < 128, isFragmentChar (Char.ofNat n) = true → p (Char.ofNat n) = true)
    (hc : isFragmentChar c = true) : p c = true := by
  simpa using h c.toNat (Routes.Token.toNat_lt_of_isFragmentChar hc) (by simpa using hc)

theorem isPrintable_of_fragment (hc : isFragmentChar c = true) : isPrintable c = true :=
  fragment_forall (by decide) hc

theorem isSpace_of_fragment (hc : isFragmentChar c = true) : isSpace c = false := by
  have h := fragment_forall (p := fun c => !isSpace c) (by decide) hc
  simpa using h

theorem isBlank_of_isSpace (h : isSpace c = false) : isBlank c = false :=
  (Bool.or_eq_false_iff.1 h).1

theorem isBreak_of_isSpace (h : isSpace c = false) : isBreak c = false :=
  (Bool.or_eq_false_iff.1 h).2

theorem isBreak_of_fragment (hc : isFragmentChar c = true) : isBreak c = false :=
  isBreak_of_isSpace (isSpace_of_fragment hc)

theorem ne_of_fragment (hc : isFragmentChar c = true) (hd : isFragmentChar d = false) :
    (c == d) = false := by
  rw [beq_eq_false_iff_ne]
  rintro rfl
  rw [hc] at hd
  cases hd

theorem isRun_of_all (hne : w ≠ []) (hw : w.all isFragmentChar = true) : IsRun w :=
  ⟨hne, List.all_eq_true.1 hw⟩

/-- A run that is written without quotes. -/
def isPlain (s : String) : Bool := !readsOtherwise s && mayBePlain s.toList

/-- What is written for a run. -/
def spelling (s : String) : List Char :=
  if isPlain s then s.toList else '\'' :: (s.toList ++ ['\''])

theorem indented_run (hw : ∀ c ∈ w, isFragmentChar c = true) : indented indent false w = w := by
  induction w with
  | nil => rfl
  | cons c w ih =>
    rw [List.forall_mem_cons] at hw
    rw [indented, isBreak_of_fragment hw.1, ih hw.2]
    rfl

theorem hasPair_run {p q : Char → Bool} (hw : ∀ c ∈ w, p c = false) : hasPair p q w = false := by
  induction w with
  | nil => rfl
  | cons c w ih =>
    rw [List.forall_mem_cons] at hw
    cases w with
    | nil => rfl
    | cons d w => rw [hasPair, hw.1, ih hw.2, Bool.false_and, Bool.false_or]

theorem maySingle_run (hw : ∀ c ∈ w, isFragmentChar c = true) : maySingle w = true := by
  have hprintable : w.all isPrintable = true :=
    List.all_eq_true.2 fun c hc => isPrintable_of_fragment (hw c hc)
  have hbreak : hasPair isBreak (· == ' ') w = false :=
    hasPair_run fun c hc => isBreak_of_fragment (hw c hc)
  have hspace : hasPair (· == ' ') isBreak w = false :=
    hasPair_run fun c hc => ne_of_fragment (hw c hc) rfl
  rw [maySingle, hprintable, hbreak, hspace]
  rfl

/-- No quote is doubled in a run, and no line of it is indented. -/
theorem single_run (hw : ∀ c ∈ w, isFragmentChar c = true) :
    single indent w = '\'' :: (w ++ ['\'']) := by
  have hdoubled : (w.flatMap fun c => if c == '\'' then ['\'', '\''] else [c]) = w := by
    induction w with
    | nil => rfl
    | cons c w ih =>
      rw [List.forall_mem_cons] at hw
      rw [List.flatMap_cons, ih hw.2, ne_of_fragment hw.1 rfl]
      rfl
  have hlast : w.getLast?.any isBreak = false := by
    cases h : w.getLast? with
    | none => rfl
    | some c => exact isBreak_of_fragment (hw c (List.mem_of_getLast? h))
  rw [single, hdoubled, indented_run hw, hlast, if_neg Bool.false_ne_true, List.append_nil]

/-- A run and the end of its line. -/
theorem spell_run (hs : IsRun s.toList) : spell indent s = spelling s ++ ['\n'] := by
  have hbreak : s.toList.contains '\n' = false := by
    rw [List.contains_eq_mem, decide_eq_false_iff_not]
    intro h
    cases hs.2 '\n' h
  rw [spell, hbreak, if_neg Bool.false_ne_true, spelling, isPlain]
  split
  · rfl
  · rw [maySingle_run hs.2, if_pos rfl, single_run hs.2]

example : ["null", "true", "2024", "1e5", "~", "-", "---", "...", ".inf", "0x1F"].any isPlain =
    false := by decide

example : ["v1.0", "-x", "--", "yes", "a~b"].all isPlain = true := by decide

/-- A dash in front of white space is quoted, since it would begin an item. -/
theorem atSpace_of_isPlain (h : isPlain s = true) (hs : s.toList = '-' :: cs) :
    atSpace cs = false := by
  rw [isPlain, Bool.and_eq_true, hs, mayBePlain] at h
  have hindicates : indicates '-' cs = false := by
    simp only [Bool.and_eq_true, Bool.not_eq_true'] at h
    exact h.2.1.1.1.1.1.1
  simpa [indicates] using hindicates

/-- No white space and no comment stands at the front of a text. -/
def AtToken (cs : List Char) : Prop := ∀ c ∈ cs.head?, isSpace c = false ∧ c ≠ '#'

theorem atToken_cons (hc : isSpace c = false ∧ c ≠ '#') (cs : List Char) : AtToken (c :: cs) := by
  rintro d ⟨⟩
  exact hc

/-- Reading a plain scalar takes a run as it is. -/
theorem readPlain_append (hw : ∀ c ∈ w, isFragmentChar c = true) :
    readPlain false indent column [] (w ++ rest) =
      (readPlain false indent (column + w.length) [] rest).map
        fun p => { p with text := w ++ p.text } := by
  induction w generalizing column with
  | nil => exact Option.map_id'.symm
  | cons c w ih =>
    rw [List.forall_mem_cons] at hw
    have hspace := isSpace_of_fragment hw.1
    have hcolon : (c == ':') = false := ne_of_fragment hw.1 rfl
    rw [List.cons_append, readPlain, isBreak_of_isSpace hspace, isBlank_of_isSpace hspace, hcolon,
      ih hw.2, List.length_cons, Nat.add_right_comm column 1, ← Nat.add_assoc]
    simp [fold, breaksOf, Function.comp_def]

theorem readPlain_colon (hspace : atSpace cs = true) :
    readPlain false indent column [] (':' :: cs) = some ⟨[], false, ':' :: cs⟩ := by
  rw [readPlain, hspace]
  rfl

/-- A plain scalar ends where a line is indented less than it would have to be. -/
theorem readPlain_spaces (hgap : gap.any isBreak = true) (hbody : AtToken body)
    (hindent : column + n < indent) :
    readPlain false indent column gap (spaces n ++ body) = some ⟨[], true, body⟩ := by
  induction n generalizing column gap with
  | zero =>
    rw [spaces, List.replicate_zero, List.nil_append]
    cases body with
    | nil => rw [readPlain, hgap]
    | cons c cs =>
      have hspace := (hbody c rfl).1
      have hgap' : gap.isEmpty = false := by
        cases gap with
        | nil => cases hgap
        | cons => rfl
      have hcolumn : decide (column < indent) = true := decide_eq_true (by omega)
      simp [readPlain, isBreak_of_isSpace hspace, isBlank_of_isSpace hspace, hgap, hgap', hcolumn]
  | succ n ih =>
    have hblank : isBreak ' ' = false ∧ isBlank ' ' = true := by decide
    rw [spaces, List.replicate_succ, List.cons_append, readPlain, hblank.1, hblank.2]
    have hgap' : (' ' :: gap).any isBreak = true := by rw [List.any_cons, hgap, Bool.or_true]
    have hnext := ih hgap' (show column + 1 + n < indent by omega)
    simpa [spaces] using hnext

theorem readPlain_key (hw : ∀ c ∈ w, isFragmentChar c = true) (hspace : atSpace cs = true) :
    readPlain false indent column [] (w ++ ':' :: cs) = some ⟨w, false, ':' :: cs⟩ := by
  rw [readPlain_append hw, readPlain_colon hspace, Option.map_some, List.append_nil]

theorem readPlain_line (hw : ∀ c ∈ w, isFragmentChar c = true) (hbody : AtToken body)
    (hindent : n < indent) :
    readPlain false indent column [] (w ++ '\n' :: (spaces n ++ body)) = some ⟨w, true, body⟩ := by
  have hline : readPlain false indent (column + w.length) [] ('\n' :: (spaces n ++ body)) =
      some ⟨[], true, body⟩ := by
    rw [readPlain]
    exact readPlain_spaces rfl hbody (by omega)
  rw [readPlain_append hw, hline, Option.map_some, List.append_nil]

theorem readSingle_append (hw : ∀ c ∈ w, isFragmentChar c = true) :
    readSingle .empty (w ++ '\'' :: '\n' :: rest) = some (w, '\n' :: rest) := by
  induction w with
  | nil => rfl
  | cons c w ih =>
    rw [List.forall_mem_cons] at hw
    have hquote : (c == '\'') = false := ne_of_fragment hw.1 rfl
    have hne : c ≠ '\'' := beq_eq_false_iff_ne.1 hquote
    rw [List.cons_append, readSingle, hquote, isSpace_of_fragment hw.1, ih hw.2]
    · rfl
    · exact fun cs h => absurd h hne

end Routes.Yaml
