import Routes.Proofs.Yaml.Layout
/-!
What one token does. For each kind of token that is written for route data there is one lemma: from
the text in front of the token to the text behind it, and from the blocks before it to those after
it.
-/
open Routes.Token (isFragmentChar IsRun)

namespace Routes.Yaml
variable {cs w rest body : List Char}

theorem fragment_of_isWordChar {c : Char} (hc : isWordChar c = true) : isFragmentChar c = true := by
  rw [isWordChar, Bool.or_eq_true, Bool.or_eq_true] at hc
  rcases hc with (hc | hc) | hc <;> simp [isFragmentChar, hc]

namespace Layout
variable {l : Layout} {a : Bool} {column i n : Nat} {is : List Nat} {t : Token}
  {ts front : List Token} {blocks : List Nat × List Token}

/-- A block is opened at a column unless one is open there. -/
def enter (column : Nat) (start : Token) (blocks : List Nat × List Token) : List Nat × List Token :=
  if blocks.1.head? = some column then blocks else (column :: blocks.1, start :: blocks.2)

@[simp] theorem enter_same {start : Token} : enter n start (n :: is, ts) = (n :: is, ts) := by
  simp [enter]

theorem enter_deeper {start : Token} (h : i < n) :
    enter n start (i :: is, ts) = (n :: i :: is, start :: ts) := by
  have hne : i ≠ n := by omega
  simp [enter, hne]

theorem insertIdx_append (t : Token) (front ts : List Token) :
    (front ++ ts).insertIdx front.length t = front ++ t :: ts := by
  induction front with
  | nil => exact List.insertIdx_zero
  | cons u front ih => rw [List.cons_append, List.length_cons, List.insertIdx_succ_cons, ih]; rfl

/-- A token in front of those that were read last. -/
theorem IsAt.pushBefore (h : l.IsAt a column rest (is, front ++ ts)) (t : Token) :
    (l.pushBefore ts.length t).IsAt a column rest (is, front ++ t :: ts) := by
  have htokens : (l.pushBefore ts.length t).tokens = front ++ t :: ts := by
    rw [Layout.pushBefore, h.tokens, List.length_append, Nat.add_sub_cancel, insertIdx_append]
  exact ⟨h.allowed, h.column, h.rest, h.indents, htokens, h.outer⟩

/-- A block that begins in front of the tokens that were read last. -/
theorem IsAt.openBlock (h : l.IsAt a column rest (is, front ++ ts)) (start : Token)
    (hn : ∀ j ∈ is.head?, j ≤ n) :
    (l.openBlock n ts.length start).IsAt a column rest
      ((enter n start (is, ts)).1, front ++ (enter n start (is, ts)).2) := by
  have hpush := h.pushBefore start
  rw [Layout.openBlock, h.not_inFlow, Bool.false_or, h.indents, enter]
  by_cases hsame : is.head? = some n
  · rw [if_pos hsame, hsame, if_pos (by simp)]
    exact h
  · have hnot : ¬ is.head?.any (n ≤ ·) = true := by
      rw [Option.any_eq_true]
      rintro ⟨j, hj, hle⟩
      have hjn := Nat.le_antisymm (hn j hj) (of_decide_eq_true hle)
      exact hsame (hj.trans (congrArg some hjn))
    rw [if_neg hsame, if_neg hnot]
    exact ⟨hpush.allowed, hpush.column, hpush.rest, rfl, hpush.tokens, hpush.outer⟩

theorem candidate_openBlock (l : Layout) (n number : Nat) (start : Token) :
    (l.openBlock n number start).candidate = l.candidate := by
  rw [Layout.openBlock]
  split <;> rfl

theorem IsAt.withCandidate (h : l.IsAt a column rest blocks) (k : Option Candidate) :
    IsAt { l with candidate := k } a column rest blocks :=
  ⟨h.allowed, h.column, h.rest, h.indents, h.tokens, h.outer⟩

/-- A token whose text leads to a column. -/
theorem IsAt.push (h : l.IsAt a column (w ++ rest) blocks)
    (hn : (l.place.advance w).column = n) (b : Bool) (t : Token) :
    IsAt { (l.moveTo rest).push t with keyAllowed := b } b n rest (blocks.1, t :: blocks.2) := by
  rw [moveTo_append h.rest]
  exact ⟨rfl, hn, rfl, h.indents, congrArg _ h.tokens, h.outer⟩

theorem IsAt.push_word (h : l.IsAt a column (w ++ rest) blocks) (hw : ∀ c ∈ w, isBreak c = false)
    (b : Bool) (t : Token) :
    IsAt { (l.moveTo rest).push t with keyAllowed := b } b (column + w.length) rest
      (blocks.1, t :: blocks.2) :=
  h.push (by rw [Place.advance_word hw, h.column]) b t

theorem IsAt.take_one {c : Char} (h : l.IsAt a column (c :: rest) blocks) (hc : isBreak c = false)
    (b : Bool) (t : Token) :
    IsAt { l.take 1 t with keyAllowed := b } b (column + 1) rest (blocks.1, t :: blocks.2) := by
  have hpush := IsAt.push_word (w := [c]) h (by simpa using hc) b t
  rwa [take, h.rest]

/-- A token is remembered where a key may stand, and has to be one only at the column of its
block. -/
theorem Stands.saveCandidate (h : l.Stands a column rest blocks)
    (hcolumn : blocks.1.head? ≠ some column) :
    ∃ k, l.saveCandidate = some { l with candidate := k } ∧ k.any (·.required) = false := by
  rw [Layout.saveCandidate, dropCandidate, h.harmless, if_neg Bool.false_ne_true]
  split
  · refine ⟨_, rfl, ?_⟩
    simp [h.indents, h.column, hcolumn]
  · exact ⟨l.candidate, rfl, h.harmless⟩

/-- A dash, the first of its block or not. -/
theorem Ready.dash (h : l.Ready true n ('-' :: ' ' :: rest) (is, ts))
    (hn : ∀ j ∈ is.head?, j ≤ n) :
    ∃ l', l.Next l' ∧ l'.Stands true (n + 1) (' ' :: rest)
      ((enter n .blockSequenceStart (is, ts)).1,
        .blockEntry :: (enter n .blockSequenceStart (is, ts)).2) := by
  refine h.next fun m hm => ?_
  have hmark : atDocumentMark ('-' :: ' ' :: rest) = false := by cases rest <;> rfl
  have htoken : m.token '-' (' ' :: rest) = m.blockEntry := by
    simp [token, hmark, atSpace, isSpace, isBlank]
  have hm' : m.IsAt true n ('-' :: ' ' :: rest) (is, [] ++ ts) := hm.toIsAt
  have hopen := hm'.openBlock .blockSequenceStart hn
  have hentry := IsAt.take_one (hopen.withCandidate none) rfl true .blockEntry
  have hdrop := hm.harmless
  rw [← candidate_openBlock m n ts.length .blockSequenceStart] at hdrop
  refine ⟨_, ?_, ?_, hentry, rfl⟩
  · rw [htoken, blockEntry, hm.allowed, hm.column, hm.tokens, dropCandidate, if_neg (by simp),
      hdrop, if_neg Bool.false_ne_true]
    rfl
  · exact Nat.le_of_eq (congrArg List.length hentry.rest)

/-- The dispatch of a plain scalar, which is no item and no mark between documents. -/
theorem token_plain {c : Char} (hc : isFragmentChar c = true) (hdash : c = '-' → atSpace cs = false)
    (hmark : l.place.column = 0 → atDocumentMark (c :: cs) = false) : l.token c cs = l.plain := by
  have hne : ∀ d, isFragmentChar d = false → (c == d) = false := fun d hd => ne_of_fragment hc hd
  have hmark' : (l.place.column == 0 && atDocumentMark (c :: cs)) = false := by
    by_cases hcolumn : l.place.column = 0
    · rw [hmark hcolumn, Bool.and_false]
    · rw [beq_eq_false_iff_ne.2 hcolumn, Bool.false_and]
  have hentry : (c == '-' && atSpace cs) = false := by
    by_cases hcdash : c = '-'
    · rw [hdash hcdash, Bool.and_false]
    · rw [beq_eq_false_iff_ne.2 hcdash, Bool.false_and]
  have hstarts : startsPlain l.inFlow c cs = true := by
    rw [startsPlain]
    split
    · next hcdash =>
      have hspace := hdash (eq_of_beq hcdash)
      cases cs with
      | nil => cases hspace
      | cons d cs =>
        have hblank := isBlank_of_isSpace (show isSpace d = false from hspace)
        simp [hblank]
    · next hcdash =>
      have hindicator :=
        fragment_forall (p := fun d => d == '-' || !isIndicator d) (by decide) hc
      rw [Bool.eq_false_iff.2 hcdash, Bool.false_or] at hindicator
      simp [hne '?' rfl, hne ':' rfl, isSpace_of_fragment hc, hindicator]
  simp only [token, hmark', hentry, hstarts, hne '%' rfl, hne '[' rfl, hne '\x7b' rfl, hne ']' rfl,
    hne '\x7d' rfl, hne ',' rfl, hne '?' rfl, hne ':' rfl, hne '*' rfl, hne '&' rfl, hne '!' rfl,
    hne '|' rfl, hne '>' rfl, hne '\'' rfl, hne '"' rfl, Bool.and_false, Bool.false_and,
    Bool.false_eq_true, if_false, if_true]

theorem isBreak_of_run (hw : IsRun w) : ∀ c ∈ w, isBreak c = false :=
  fun c hc => isBreak_of_fragment (hw.2 c hc)

theorem plain_eq {k : Option Candidate} {p : Plain} (houter : l.outer = [])
    (hk : l.saveCandidate = some { l with candidate := k })
    (hp : readPlain false (l.indents.head?.elim 0 (· + 1)) l.place.column [] l.rest = some p) :
    l.plain = some { (({ l with candidate := k } : Layout).moveTo p.rest).push
      (.scalar true (String.ofList p.text)) with keyAllowed := p.broken } := by
  rw [Layout.plain, hk]
  simp only [Option.bind_eq_bind, Option.bind_some, inFlow, houter, List.isEmpty_nil, Bool.not_true,
    hp]
  rfl

/-- A plain scalar, and the end of its line. -/
theorem Ready.plain (h : l.Ready a column (w ++ '\n' :: (spaces n ++ body)) (i :: is, ts))
    (hw : IsRun w) (hdash : ∀ cs, w = '-' :: cs → atSpace cs = false) (hi : i < column) (hn : n ≤ i)
    (hbody : AtToken body) :
    ∃ l', l.Next l' ∧
      l'.Ready true n body (unroll n (i :: is) (.scalar true (String.ofList w) :: ts)) := by
  obtain ⟨c, w, rfl⟩ := List.exists_cons_of_ne_nil hw.1
  rw [List.cons_append] at h
  refine h.next fun m hm => ?_
  have htoken : m.token c (w ++ '\n' :: (spaces n ++ body)) = m.plain := by
    refine token_plain (hw.2 c List.mem_cons_self) ?_ ?_
    · rintro rfl
      have hspace := hdash w rfl
      cases w with
      | nil => cases hspace
      | cons d w => exact hspace
    · intro hcolumn
      rw [hm.column] at hcolumn
      omega
  obtain ⟨k, hk, hharmless⟩ := hm.saveCandidate (by simpa using Nat.ne_of_lt hi)
  have hread : readPlain false (i + 1) column [] (c :: w ++ '\n' :: (spaces n ++ body)) =
      some ⟨c :: w, true, body⟩ := readPlain_line hw.2 hbody (Nat.lt_succ_of_le hn)
  have hat : IsAt { m with candidate := k } a column ((c :: w ++ '\n' :: spaces n) ++ body)
      (i :: is, ts) := by
    simpa using hm.withCandidate k
  have hscalar := hat.push (Place.column_advance_line (isBreak_of_run hw) n) true
    (.scalar true (String.ofList (c :: w)))
  refine ⟨_, ?_, ?_, Stands.ready_here ⟨hscalar, hharmless⟩ hbody⟩
  · rw [htoken, plain_eq hm.outer hk (by rw [hm.indents, hm.column, hm.rest]; exact hread)]
  · rw [hscalar.rest]
    simp
    omega

/-- A word that is written as a key: it is short and does not begin like an item or a mark. -/
structure IsKey (w : List Char) : Prop where
  run : IsRun w
  short : w.length ≤ 1024
  head : ∀ c ∈ w.head?, c ≠ '-' ∧ c ≠ '.'

/-- The last token can still be a key. -/
def MayBeKey (l : Layout) (number column : Nat) : Prop :=
  ∃ k, l.candidate = some k ∧ k.number = number ∧ k.place.column = column ∧
    isStale l.place k = false

theorem unroll_of_head (hn : ∀ j ∈ is.head?, j ≤ n) : unroll n is ts = (is, ts) := by
  cases is with
  | nil => rfl
  | cons j is => exact unroll_of_le (hn j rfl)

theorem not_atDocumentMark {c : Char} (hc : c ≠ '-' ∧ c ≠ '.') (cs : List Char) :
    atDocumentMark (c :: cs) = false := by
  match cs with
  | [] | [_] => rfl
  | _ :: _ :: _ => simp [atDocumentMark, hc.1, hc.2]

theorem Ready.keyScalar (h : l.Ready true n (w ++ ':' :: cs) (is, ts)) (hw : IsKey w)
    (hspace : atSpace cs = true) :
    ∃ l', l.Next l' ∧
      l'.IsAt false (n + w.length) (':' :: cs) (is, .scalar true (String.ofList w) :: ts) ∧
      l'.MayBeKey ts.length n := by
  obtain ⟨c, w, rfl⟩ := List.exists_cons_of_ne_nil hw.run.1
  rw [List.cons_append] at h
  refine h.next fun m hm => ?_
  have hhead := hw.head c rfl
  have htoken : m.token c (w ++ ':' :: cs) = m.plain :=
    token_plain (hw.run.2 c List.mem_cons_self) (fun hdash => absurd hdash hhead.1)
      fun _ => not_atDocumentMark hhead _
  let k : Candidate :=
    ⟨!m.inFlow && m.indents.head? == some m.place.column, m.tokens.length, m.place⟩
  have hk : m.saveCandidate = some { m with candidate := some k } := by
    rw [Layout.saveCandidate, dropCandidate, hm.harmless, if_pos hm.allowed,
      if_neg Bool.false_ne_true]
    rfl
  have hread : readPlain false (is.head?.elim 0 (· + 1)) n [] (c :: w ++ ':' :: cs) =
      some ⟨c :: w, false, ':' :: cs⟩ := readPlain_key hw.run.2 hspace
  have hat : IsAt { m with candidate := some k } true n (c :: w ++ ':' :: cs) (is, ts) :=
    hm.withCandidate (some k)
  have hscalar := hat.push_word (isBreak_of_run hw.run) false
    (.scalar true (String.ofList (c :: w)))
  have hplace : (Layout.moveTo { m with candidate := some k } (':' :: cs)).place =
      ⟨m.place.index + (c :: w).length, m.place.line, m.place.column + (c :: w).length⟩ := by
    rw [moveTo_append hat.rest, Place.advance_word (isBreak_of_run hw.run)]
  refine ⟨_, ?_, ?_, hscalar, k, rfl, congrArg List.length hm.tokens, hm.column, ?_⟩
  · rw [htoken, plain_eq hm.outer hk (by rw [hm.indents, hm.column, hm.rest]; exact hread)]
  · rw [hscalar.rest]
    simp
  · have hshort := hw.short
    simp only [Layout.push, hplace, isStale, k]
    simpa using hshort

/-- A colon behind a key, which may be the first of its block. -/
theorem IsAt.colon (h : l.IsAt false column (':' :: cs) (is, t :: ts))
    (hkey : l.MayBeKey ts.length n) (hspace : atSpace cs = true) (hn : ∀ j ∈ is.head?, j ≤ n)
    (hcolumn : n ≤ column) :
    ∃ l', l.Next l' ∧ l'.Stands false (column + 1) cs
      ((enter n .blockMappingStart (is, ts)).1,
        .value :: t :: .key :: (enter n .blockMappingStart (is, ts)).2) := by
  obtain ⟨k, hcandidate, hnumber, hplace, hstale⟩ := hkey
  have hexpire : expire (l.place.advance []) l.candidate = some (some k) := by
    rw [hcandidate]
    simp only [expire, Place.advance, hstale, Bool.false_eq_true, if_false]
  have hcolon : AtToken (':' :: cs) := atToken_cons (by decide) cs
  obtain ⟨m, hm, hat, hk⟩ := h.ready [] (by simp) hcolon h.column hexpire
  rw [unroll_of_head fun j hj => Nat.le_trans (hn j hj) hcolumn] at hat
  have htoken : m.token ':' cs = m.value := by
    have hmark : atDocumentMark (':' :: cs) = false := not_atDocumentMark (by decide) cs
    simp [token, hmark, hspace]
  have hat' : m.IsAt false column (':' :: cs) (is, [t] ++ ts) := hat
  have hpush : (m.pushBefore ts.length .key).IsAt false column (':' :: cs) (is, [t, .key] ++ ts) :=
    hat'.pushBefore .key
  have hopen := hpush.openBlock .blockMappingStart hn
  have hvalue := hopen.take_one rfl false .value
  refine ⟨_, ⟨m, ':', cs, hm, hat.rest, ?_, ?_⟩, hvalue.withCandidate none, rfl⟩
  · rw [htoken, value, hk]
    simp only [hnumber, hplace]
  · exact Nat.le_of_eq (congrArg List.length hvalue.rest)

theorem Ready.key (h : l.Ready true n (w ++ ':' :: cs) (is, ts)) (hw : IsKey w)
    (hspace : atSpace cs = true) (hn : ∀ j ∈ is.head?, j ≤ n) :
    ∃ l', l.Goes l' ∧ l'.Stands false (n + w.length + 1) cs
      ((enter n .blockMappingStart (is, ts)).1,
        .value :: .scalar true (String.ofList w) :: .key ::
          (enter n .blockMappingStart (is, ts)).2) := by
  obtain ⟨m, hm, hat, hkey⟩ := h.keyScalar hw hspace
  obtain ⟨l', hl', hstands⟩ := hat.colon hkey hspace hn (Nat.le_add_right n w.length)
  exact ⟨l', .head hm (.single hl'), hstands⟩

theorem keyLike_eq {k : Option Candidate} {read : List Char → Option (Token × List Char)}
    (hk : l.saveCandidate = some { l with candidate := k }) (hread : read l.rest = some (t, rest)) :
    l.keyLike read = some { (({ l with candidate := k } : Layout).moveTo rest).push t with
      keyAllowed := false } := by
  rw [keyLike, hk]
  simp only [Option.bind_eq_bind, Option.bind_some, hread]
  rfl

/-- A quoted scalar. -/
theorem Ready.quoted (h : l.Ready a column ('\'' :: (w ++ '\'' :: '\n' :: rest)) (i :: is, ts))
    (hw : ∀ c ∈ w, isFragmentChar c = true) (hi : i < column) :
    ∃ l', l.Next l' ∧ l'.Stands false (column + w.length + 2) ('\n' :: rest)
      (i :: is, .scalar false (String.ofList w) :: ts) := by
  refine h.next fun m hm => ?_
  have htoken : m.token '\'' (w ++ '\'' :: '\n' :: rest) = m.quoted (readSingle .empty) := by
    simp [token, not_atDocumentMark]
  obtain ⟨k, hk, hharmless⟩ := hm.saveCandidate (by simpa using Nat.ne_of_lt hi)
  have hbreak : ∀ c ∈ '\'' :: (w ++ ['\'']), isBreak c = false := by
    simp only [List.mem_cons, List.mem_append, List.not_mem_nil, or_false]
    rintro c (rfl | hc | rfl)
    · rfl
    · exact isBreak_of_fragment (hw c hc)
    · rfl
  have hat : IsAt { m with candidate := k } a column ('\'' :: (w ++ ['\'']) ++ '\n' :: rest)
      (i :: is, ts) := by
    simpa using hm.withCandidate k
  have hscalar := hat.push_word hbreak false (.scalar false (String.ofList w))
  rw [List.length_cons, List.length_append, List.length_singleton,
    ← Nat.add_assoc column] at hscalar
  refine ⟨_, ?_, ?_, hscalar, hharmless⟩
  · rw [htoken]
    refine keyLike_eq hk ?_
    rw [hm.rest, List.drop_one, List.tail_cons, readSingle_append hw]
    rfl
  · rw [hscalar.rest]
    simp
    omega

theorem isWordChar_mark : isWordChar ' ' = false ∧ isTagChar ' ' = false := by decide

/-- A tag of a mark and a word. -/
theorem readTag_word (hw : w ≠ []) (hword : ∀ c ∈ w, isWordChar c = true) :
    readTag false ('!' :: (w ++ ' ' :: rest)) = some (.tag "!" (String.ofList w), ' ' :: rest) := by
  obtain ⟨c, w, rfl⟩ := List.exists_cons_of_ne_nil hw
  have hopen : c ≠ '<' := by
    rintro rfl
    cases hword '<' List.mem_cons_self
  have htake : (c :: w ++ ' ' :: rest).takeWhile isWordChar = c :: w := by
    rw [List.takeWhile_append_of_pos hword,
      List.takeWhile_cons_of_neg (by simp [isWordChar_mark.1]), List.append_nil]
  have hdrop : (c :: w ++ ' ' :: rest).dropWhile isWordChar = ' ' :: rest := by
    rw [List.dropWhile_append_of_pos hword,
      List.dropWhile_cons_of_neg (by simp [isWordChar_mark.1])]
  have hhandle : readHandle ('!' :: (c :: w ++ ' ' :: rest)) =
      some ('!' :: c :: w, false, ' ' :: rest) := by
    rw [readHandle, hdrop, htake]
    rfl
  have htext : readTagText isTagChar (' ' :: rest) = some ([], ' ' :: rest) := by
    simp [readTagText, readTagBytes, isWordChar_mark.2]
    rfl
  have hspace : atSpace (' ' :: rest) = true := rfl
  rw [readTag]
  · simp only [hhandle, htext, hspace, Option.bind_eq_bind, Option.bind_some]
    rw [if_neg Bool.false_ne_true, List.append_nil]
    rfl
  · rintro full ⟨⟩
    exact hopen rfl

/-- The tag of a scalar. -/
theorem Ready.tag (h : l.Ready a column ('!' :: (w ++ ' ' :: rest)) (i :: is, ts)) (hw : w ≠ [])
    (hword : ∀ c ∈ w, isWordChar c = true) (hi : i < column) :
    ∃ l', l.Next l' ∧ l'.Stands false (column + w.length + 1) (' ' :: rest)
      (i :: is, .tag "!" (String.ofList w) :: ts) := by
  refine h.next fun m hm => ?_
  have htoken : m.token '!' (w ++ ' ' :: rest) = m.keyLike (readTag false) := by
    simp [token, not_atDocumentMark, hm.not_inFlow]
  obtain ⟨k, hk, hharmless⟩ := hm.saveCandidate (by simpa using Nat.ne_of_lt hi)
  have hread : readTag false m.rest = some (.tag "!" (String.ofList w), ' ' :: rest) := by
    rw [hm.rest, readTag_word hw hword]
  have hbreak : ∀ c ∈ '!' :: w, isBreak c = false :=
    List.forall_mem_cons.2
      ⟨rfl, fun c hc => isBreak_of_fragment (fragment_of_isWordChar (hword c hc))⟩
  have htag := IsAt.push_word (w := '!' :: w) (hm.withCandidate k) hbreak false
    (.tag "!" (String.ofList w))
  rw [List.length_cons, ← Nat.add_assoc] at htag
  refine ⟨_, ?_, ?_, htag, hharmless⟩
  · rw [htoken, keyLike_eq hk hread]
  · rw [htag.rest]
    simp

/-- Inside of a flow collection the candidate around it is kept or given up. -/
theorem IsAt.ready_flow {k : Option Candidate} (h : l.IsAt true column rest blocks)
    (hrest : AtToken rest) (hk : k.any (·.required) = false) :
    ∃ k', ready? { l with candidate := none, outer := [k] } =
      some { l with candidate := none, outer := [k'] } ∧ k'.any (·.required) = false := by
  obtain ⟨k', hk', hharmless⟩ := expire_of_harmless l.place hk
  refine ⟨k', ?_, hharmless⟩
  have hnext : toNextToken { l with candidate := none, outer := [k] } =
      { l with candidate := none, outer := [k] } :=
    toNextToken_of_atToken (show AtToken l.rest from h.rest ▸ hrest)
  have hnone : expire l.place none = some none := rfl
  rw [ready?, hnext, expireCandidates]
  simp [hk', hnone, Layout.closeBlocks, inFlow]

/-- The empty list. -/
theorem Ready.emptyList (h : l.Ready a column ('[' :: ']' :: '\n' :: rest) (i :: is, ts))
    (hi : i < column) :
    ∃ l', l.Goes l' ∧ l'.Stands false (column + 2) ('\n' :: rest)
      (i :: is, .flowSequenceEnd :: .flowSequenceStart :: ts) := by
  obtain ⟨m, hm, hstands⟩ := h
  obtain ⟨k, hk, hharmless⟩ := hstands.saveCandidate (by simpa using Nat.ne_of_lt hi)
  let o : Layout :=
    { ({ m with candidate := k } : Layout).take 1 .flowSequenceStart with keyAllowed := true }
  have ho : o.IsAt true (column + 1) (']' :: '\n' :: rest) (i :: is, .flowSequenceStart :: ts) :=
    (hstands.withCandidate k).take_one rfl true .flowSequenceStart
  obtain ⟨k', hready, hharmless'⟩ := ho.ready_flow (atToken_cons (by decide) _) hharmless
  let o' : Layout :=
    { ({ o with candidate := k' } : Layout).take 1 .flowSequenceEnd with keyAllowed := false }
  have ho' : o'.IsAt false (column + 2) ('\n' :: rest)
      (i :: is, .flowSequenceEnd :: .flowSequenceStart :: ts) :=
    (ho.withCandidate k').take_one rfl false .flowSequenceEnd
  have hopen : m.token '[' (']' :: '\n' :: rest) =
      some { o with candidate := none, outer := [k] } := by
    have htoken : m.token '[' (']' :: '\n' :: rest) = m.openFlow .flowSequenceStart := by
      simp [token, not_atDocumentMark]
    rw [htoken, openFlow, hk]
    simp [Layout.take, moveTo, Layout.push, hstands.outer, o]
  have hclose : Layout.token { o with candidate := none, outer := [k'] } ']' ('\n' :: rest) =
      some o' := by
    simp [token, not_atDocumentMark, closeFlow, dropCandidate, Layout.take, moveTo, Layout.push,
      ho.outer, o']
  exact ⟨o', .head ⟨m, '[', _, hm, hstands.rest, hopen, Nat.le_of_eq (congrArg List.length ho.rest)⟩
    (.single ⟨_, ']', _, hready, ho.rest, hclose, Nat.le_of_eq (congrArg List.length ho'.rest)⟩),
    ho', hharmless'⟩

end Layout
end Routes.Yaml
