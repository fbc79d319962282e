import Routes.Proofs.Text.Lower
import Routes.Token.Scan
/-!
The longest lexeme at a place. Main statement: no rules need to compete, since a lexeme is an arrow,
a whole marker, a single symbol, or else a run of fragment characters that goes on as long as it
can and whose kind depends on nothing but the run.
-/
namespace Routes.Token

/-- The symbol that is a single character. -/
def symbolOf? (c : Char) : Option Symbol :=
  Symbol.all.find? fun s => s.spelling.toList == [c]

/-- The kind of a run of fragment characters. -/
def wordKind (run : List Char) : Kind :=
  match Keyword.all.find? fun e => e.1.toList == Text.lower run with
  | some (_, k) => .keyword k
  | none => if run.head?.any isIdentStart && run.all isIdentChar then .ident else .fragment

/-- The lexeme at a place, found by the first characters alone. -/
def runAt (cs : List Char) : Option Lexeme :=
  if "<-".toList.isPrefixOf cs then some (.symbol .arrow, 2)
  else if keywordStands ":default".toList cs then some (.keyword .marker, 8)
  else
    match cs.head?.bind symbolOf? with
    | some s => some (.symbol s, 1)
    | none =>
      if cs.head?.any isFragmentChar then
        some (wordKind (cs.takeWhile isFragmentChar), (cs.takeWhile isFragmentChar).length)
      else none

section Longest
variable {l : Lexeme} {before after ls : List Lexeme}

theorem longest_cons (ha : ∀ x ∈ after, x.2 ≤ l.2) : longest (l :: after) = some l := by
  rw [longest]
  split
  · rename_i b hb
    exact if_neg (Nat.not_lt.2 (ha b (longest_mem hb)))
  · rfl

theorem longest_append_cons (hb : ∀ x ∈ before, x.2 < l.2) (ha : ∀ x ∈ after, x.2 ≤ l.2) :
    longest (before ++ l :: after) = some l := by
  induction before with
  | nil => exact longest_cons ha
  | cons x xs ih =>
    rw [List.cons_append, longest, ih fun y hy => hb y (List.mem_cons_of_mem x hy)]
    exact if_pos (hb x List.mem_cons_self)

theorem longest_of_max (hl : l ∈ ls) (h : ∀ x ∈ ls, x = l ∨ x.2 < l.2) : longest ls = some l := by
  obtain ⟨before, after, rfl, hnot⟩ := List.eq_append_cons_of_mem hl
  refine longest_append_cons (fun x hx => ?_) (fun x hx => ?_)
  · rcases h x (by simp [hx]) with rfl | hlt
    · exact absurd hx hnot
    · exact hlt
  · rcases h x (by simp [hx]) with rfl | hlt
    · exact Nat.le_refl _
    · exact Nat.le_of_lt hlt

end Longest

theorem head_of_spelling (s : Symbol) (c : Char) (cs : List Char)
    (h : s.spelling.toList.isPrefixOf (c :: cs) = true) :
    c ∈ ['(', ')', '/', ':', '<', '>', '#'] := by
  cases s <;> simp only [Symbol.spelling, String.reduceToList, List.isPrefixOf, Bool.and_true,
    Bool.and_eq_true, beq_iff_eq] at h
  case arrow => simp [← h.1]
  all_goals simp [← h]

theorem symbolAt_of_not_mem {c : Char} {cs : List Char}
    (hc : c ∉ ['(', ')', '/', ':', '<', '>', '#']) : symbolAt (c :: cs) = none := by
  have hnone : Symbol.all.filter (fun s => s.spelling.toList.isPrefixOf (c :: cs)) = [] :=
    List.filter_eq_nil_iff.2 fun s _ hs => hc (head_of_spelling s c cs hs)
  rw [symbolAt, hnone]
  rfl

theorem symbolOf?_of_not_mem {c : Char} (hc : c ∉ ['(', ')', '/', ':', '<', '>', '#']) :
    symbolOf? c = none := by
  refine List.find?_eq_none.2 fun s _ hs => hc (head_of_spelling s c [] ?_)
  rw [beq_iff_eq.1 hs]
  simp

theorem symbolAt_cons (c : Char) (cs : List Char) : symbolAt (c :: cs) =
    if "<-".toList.isPrefixOf (c :: cs) then some (.symbol .arrow, 2)
    else (symbolOf? c).map fun s => (.symbol s, 1) := by
  by_cases hc : c ∈ ['(', ')', '/', ':', '<', '>', '#']
  · simp only [List.mem_cons, List.not_mem_nil, or_false] at hc
    rcases hc with rfl | rfl | rfl | rfl | rfl | rfl | rfl
    case inr.inr.inr.inr.inl =>
      cases cs with
      | nil => rfl
      | cons d cs =>
        by_cases hd : d = '-'
        · subst hd
          rfl
        · have hne : ('-' == d) = false := by simpa using Ne.symm hd
          simp [symbolAt, symbolOf?, Symbol.all, Symbol.spelling, longest, List.filter, hne,
            List.isPrefixOf]
    all_goals rfl
  · have harrow : ¬"<-".toList.isPrefixOf (c :: cs) = true :=
      fun h => hc (head_of_spelling .arrow c cs h)
    rw [symbolAt_of_not_mem hc, symbolOf?_of_not_mem hc, if_neg harrow]
    rfl

theorem isFragmentChar_of_isIdentChar {c : Char} (h : isIdentChar c = true) :
    isFragmentChar c = true := by
  simp only [isIdentChar, Bool.or_eq_true] at h
  simp only [isFragmentChar, Bool.or_eq_true]
  exact .inl (.inl (.inl h))

theorem isIdentStart_toLower (c : Char) : isIdentStart c.toLower = isIdentStart c :=
  Text.invariant_toLower isIdentStart (by decide) c

theorem isIdentChar_toLower (c : Char) : isIdentChar c.toLower = isIdentChar c :=
  Text.invariant_toLower isIdentChar (by decide) c

theorem isFragmentChar_toLower (c : Char) : isFragmentChar c.toLower = isFragmentChar c :=
  Text.invariant_toLower isFragmentChar (by decide) c

/-- A keyword whose letters are fragment characters, as all are but the marker. -/
theorem Keyword.fragment_of_mem : ∀ e ∈ Keyword.all,
    e = (":default", .marker) ∨ e.1.toList.all isFragmentChar = true := by
  decide

theorem Keyword.unique_of_mem : ∀ e ∈ Keyword.all, ∀ e' ∈ Keyword.all, e.1 = e'.1 → e = e' := by
  decide

theorem Keyword.ne_nil_of_mem : ∀ e ∈ Keyword.all, e.1.toList ≠ [] := by decide

theorem Keyword.marker_of_mem : ∀ e ∈ Keyword.all, e.2 = .marker → e.1 = ":default" := by decide

section Run
variable {run rest : List Char}

theorem takeWhile_run (hrun : ∀ c ∈ run, isFragmentChar c = true)
    (hrest : rest.head?.any isFragmentChar = false) :
    (run ++ rest).takeWhile isFragmentChar = run := by
  rw [List.takeWhile_append_of_pos hrun]
  cases rest with
  | nil => simp
  | cons d ds =>
    have hd : isFragmentChar d = false := hrest
    simp [hd]

theorem not_stands_marker {c : Char} {cs : List Char} (hc : isFragmentChar c = true) :
    keywordStands ":default".toList (c :: cs) = false := by
  have hlower : c.toLower ≠ ':' := by
    intro h
    rw [← isFragmentChar_toLower, h] at hc
    cases hc
  simp [keywordStands, Text.lower, hlower]

theorem not_any_isIdentChar (hrest : rest.head?.any isFragmentChar = false) :
    rest.head?.any isIdentChar = false := by
  cases rest with
  | nil => rfl
  | cons d ds =>
    refine Bool.eq_false_iff.2 fun hd => ?_
    have hfragment : isFragmentChar d = true := isFragmentChar_of_isIdentChar hd
    have hnot : isFragmentChar d = false := hrest
    rw [hnot] at hfragment
    cases hfragment

theorem length_le_of_stands {word : List Char} (hword : ∀ c ∈ word, isFragmentChar c = true)
    (hrest : rest.head?.any isFragmentChar = false)
    (h : keywordStands word (run ++ rest) = true) : word.length ≤ run.length := by
  -- A longer word would cover the first character of the rest, which no keyword holds.
  refine Nat.le_of_not_lt fun hlt => ?_
  simp only [keywordStands, Bool.and_eq_true, beq_iff_eq] at h
  have htake := h.1
  rw [List.take_append, List.take_of_length_le (by omega)] at htake
  have hlength := congrArg List.length htake
  simp only [Text.lower, List.length_map, List.length_append, List.length_take] at hlength
  cases rest with
  | nil => simp at hlength; omega
  | cons d ds =>
    obtain ⟨n, hn⟩ : ∃ n, word.length - run.length = n + 1 :=
      ⟨word.length - run.length - 1, by omega⟩
    rw [hn, List.take_succ_cons] at htake
    have hd : isFragmentChar d.toLower = true := by
      refine hword _ ?_
      rw [← htake]
      simp [Text.lower]
    have hd' : isFragmentChar d = false := hrest
    rw [isFragmentChar_toLower, hd'] at hd
    cases hd

theorem stands_of_eq_lower {word : List Char} (hword : word = Text.lower run)
    (hrest : rest.head?.any isFragmentChar = false) :
    keywordStands word (run ++ rest) = true := by
  have hlength : word.length = run.length := by simp [hword, Text.lower]
  rw [keywordStands, hlength, List.take_left, List.drop_left, not_any_isIdentChar hrest, hword]
  simp

theorem eq_lower_of_stands {word : List Char} (hlength : word.length = run.length)
    (h : keywordStands word (run ++ rest) = true) : word = Text.lower run := by
  simp only [keywordStands, Bool.and_eq_true, beq_iff_eq, hlength, List.take_left] at h
  exact h.1.symm

theorem length_le_of_keyword (hne : run ≠ []) (hrun : ∀ c ∈ run, isFragmentChar c = true)
    (hrest : rest.head?.any isFragmentChar = false) {e : String × Keyword} (he : e ∈ Keyword.all)
    (h : keywordStands e.1.toList (run ++ rest) = true) : e.1.toList.length ≤ run.length := by
  rcases Keyword.fragment_of_mem e he with rfl | hword
  · obtain ⟨c, cs, rfl⟩ := List.exists_cons_of_ne_nil hne
    rw [List.cons_append, not_stands_marker (hrun c List.mem_cons_self)] at h
    cases h
  · exact length_le_of_stands (List.all_eq_true.1 hword) hrest h

theorem keywordAt_of_find {word : String} {k : Keyword} (hne : run ≠ [])
    (hrun : ∀ c ∈ run, isFragmentChar c = true) (hrest : rest.head?.any isFragmentChar = false)
    (h : Keyword.all.find? (fun e => e.1.toList == Text.lower run) = some (word, k)) :
    keywordAt (run ++ rest) = some (.keyword k, run.length) := by
  have hmem := List.mem_of_find?_eq_some h
  have hword : word.toList = Text.lower run := by simpa using List.find?_some h
  have hlength : word.toList.length = run.length := (Text.length_eq_of_lower hword.symm).symm
  rw [keywordAt, ← hlength]
  refine longest_of_max (List.mem_map.2 ⟨(word, k), ?_, rfl⟩) fun x hx => ?_
  · exact List.mem_filter.2 ⟨hmem, stands_of_eq_lower hword hrest⟩
  · obtain ⟨⟨word', k'⟩, hmem', rfl⟩ := List.mem_map.1 hx
    obtain ⟨hmem', hstands⟩ := List.mem_filter.1 hmem'
    rcases Nat.lt_or_eq_of_le (length_le_of_keyword hne hrun hrest hmem' hstands) with hlt | heq
    · exact .inr (by rwa [hlength])
    · have hword' := eq_lower_of_stands heq hstands
      obtain rfl : word' = word := String.toList_inj.1 (hword'.trans hword.symm)
      cases Keyword.unique_of_mem _ hmem' _ hmem rfl
      exact .inl rfl

theorem keywordAt_of_not_find {l : Lexeme} (hne : run ≠ [])
    (hrun : ∀ c ∈ run, isFragmentChar c = true) (hrest : rest.head?.any isFragmentChar = false)
    (hnone : Keyword.all.find? (fun e => e.1.toList == Text.lower run) = none)
    (h : keywordAt (run ++ rest) = some l) : l.2 < run.length := by
  obtain ⟨⟨word, k⟩, hmem, rfl⟩ := List.mem_map.1 (longest_mem h)
  obtain ⟨hmem, hstands⟩ := List.mem_filter.1 hmem
  refine Nat.lt_of_le_of_ne (length_le_of_keyword hne hrun hrest hmem hstands) fun heq => ?_
  have hword := eq_lower_of_stands heq hstands
  exact absurd (beq_iff_eq.2 hword) (List.find?_eq_none.1 hnone _ hmem)

theorem fragmentAt_run (hne : run ≠ []) (hrun : ∀ c ∈ run, isFragmentChar c = true)
    (hrest : rest.head?.any isFragmentChar = false) :
    fragmentAt (run ++ rest) = some (.fragment, run.length) := by
  obtain ⟨c, cs, rfl⟩ := List.exists_cons_of_ne_nil hne
  have hc : isFragmentChar c = true := hrun c List.mem_cons_self
  rw [fragmentAt, takeWhile_run hrun hrest]
  exact if_pos hc

theorem identAt_of_ident (hstart : run.head?.any isIdentStart = true)
    (hall : ∀ c ∈ run, isIdentChar c = true) (hrest : rest.head?.any isFragmentChar = false) :
    identAt (run ++ rest) = some (.ident, run.length) := by
  have htake : (run ++ rest).takeWhile isIdentChar = run := by
    rw [List.takeWhile_append_of_pos hall]
    have hnext := not_any_isIdentChar hrest
    cases rest with
    | nil => simp
    | cons d ds =>
      have hd : isIdentChar d = false := hnext
      simp [hd]
  obtain ⟨c, cs, rfl⟩ : ∃ c cs, run = c :: cs := by
    cases run with
    | nil => cases hstart
    | cons c cs => exact ⟨c, cs, rfl⟩
  rw [identAt, htake]
  exact if_pos hstart

theorem length_takeWhile_lt {p : Char → Bool} (h : run.all p = false) :
    ((run ++ rest).takeWhile p).length < run.length := by
  induction run with
  | nil => cases h
  | cons c cs ih =>
    cases hc : p c with
    | false => simp [hc]
    | true =>
      rw [List.all_cons, hc, Bool.true_and] at h
      simpa [hc] using ih h

theorem identAt_of_not_ident {l : Lexeme} (hne : run ≠ [])
    (hnot : (run.head?.any isIdentStart && run.all isIdentChar) = false)
    (h : identAt (run ++ rest) = some l) : l.2 < run.length := by
  have hhead : (run ++ rest).head? = run.head? := by
    obtain ⟨c, cs, rfl⟩ := List.exists_cons_of_ne_nil hne
    rfl
  unfold identAt at h
  split at h
  · rename_i hstart
    rw [hhead] at hstart
    rw [hstart, Bool.true_and] at hnot
    cases h
    exact length_takeWhile_lt hnot
  · cases h

end Run

theorem not_mem_of_isFragmentChar {c : Char} (hc : isFragmentChar c = true) :
    c ∉ ['(', ')', '/', ':', '<', '>', '#'] := by
  intro hmem
  simp only [List.mem_cons, List.not_mem_nil, or_false] at hmem
  rcases hmem with rfl | rfl | rfl | rfl | rfl | rfl | rfl <;> cases hc

theorem lexemeAt_eq_longest (cs : List Char) : lexemeAt cs =
    longest ((symbolAt cs).toList ++ ((keywordAt cs).toList ++
      ((identAt cs).toList ++ (fragmentAt cs).toList))) := by
  unfold lexemeAt
  cases symbolAt cs <;> cases keywordAt cs <;> cases identAt cs <;> cases fragmentAt cs <;> rfl

/-- A run of fragment characters that cannot go on is a lexeme. -/
theorem lexemeAt_run {run rest : List Char} (hne : run ≠ [])
    (hrun : ∀ c ∈ run, isFragmentChar c = true) (hrest : rest.head?.any isFragmentChar = false) :
    lexemeAt (run ++ rest) = some (wordKind run, run.length) := by
  have hsymbol : symbolAt (run ++ rest) = none := by
    obtain ⟨c, cs, rfl⟩ := List.exists_cons_of_ne_nil hne
    exact symbolAt_of_not_mem (not_mem_of_isFragmentChar (hrun c List.mem_cons_self))
  rw [lexemeAt_eq_longest, hsymbol, Option.toList_none, List.nil_append,
    fragmentAt_run hne hrun hrest, wordKind]
  -- The fragment is the whole run. A rule in front of it wins only with the whole run as well.
  have hident : ∀ l ∈ (identAt (run ++ rest)).toList, l.2 ≤ run.length := by
    intro l hl
    rw [Option.mem_toList] at hl
    cases hall : run.head?.any isIdentStart && run.all isIdentChar with
    | false => exact Nat.le_of_lt (identAt_of_not_ident hne hall hl)
    | true =>
      rw [Bool.and_eq_true, List.all_eq_true] at hall
      rw [identAt_of_ident hall.1 hall.2 hrest] at hl
      cases hl
      exact Nat.le_refl _
  split
  · rename_i word k hfind
    rw [keywordAt_of_find hne hrun hrest hfind, Option.toList_some, List.singleton_append]
    refine longest_cons fun x hx => ?_
    rcases List.mem_append.1 hx with hx | hx
    · exact hident x hx
    · obtain rfl := List.mem_singleton.1 hx
      exact Nat.le_refl _
  · rename_i hfind
    have hkeyword : ∀ l ∈ (keywordAt (run ++ rest)).toList, l.2 < run.length := fun l hl =>
      keywordAt_of_not_find hne hrun hrest hfind (Option.mem_toList.1 hl)
    split
    · rename_i hall
      rw [Bool.and_eq_true, List.all_eq_true] at hall
      rw [identAt_of_ident hall.1 hall.2 hrest]
      exact longest_append_cons hkeyword (by simp)
    · rename_i hall
      rw [Bool.not_eq_true] at hall
      rw [← List.append_assoc]
      refine longest_append_cons (fun x hx => ?_) (by simp)
      rcases List.mem_append.1 hx with hx | hx
      · exact hkeyword x hx
      · exact identAt_of_not_ident hne hall (Option.mem_toList.1 hx)

theorem eq_marker_of_stands {c : Char} {cs : List Char} (hc : isFragmentChar c = false)
    {e : String × Keyword} (he : e ∈ Keyword.all)
    (h : keywordStands e.1.toList (c :: cs) = true) : e = (":default", .marker) := by
  rcases Keyword.fragment_of_mem e he with heq | hword
  · exact heq
  · have hne : e.1.toList ≠ [] := Keyword.ne_nil_of_mem e he
    obtain ⟨d, ds, hd⟩ := List.exists_cons_of_ne_nil hne
    simp only [keywordStands, Bool.and_eq_true, beq_iff_eq, hd, List.length_cons,
      List.take_succ_cons, Text.lower, List.map_cons, List.cons.injEq] at h
    have hlower : isFragmentChar c.toLower = true := by
      rw [h.1.1]
      exact List.all_eq_true.1 hword d (by simp [hd])
    rw [isFragmentChar_toLower, hc] at hlower
    cases hlower

theorem keywordAt_of_not_fragment {c : Char} {cs : List Char} (hc : isFragmentChar c = false) :
    keywordAt (c :: cs) =
      if keywordStands ":default".toList (c :: cs) then some (.keyword .marker, 8) else none := by
  split
  · rename_i hstands
    refine longest_of_max (List.mem_map.2 ⟨(":default", .marker), ?_, rfl⟩) fun x hx => .inl ?_
    · exact List.mem_filter.2 ⟨by decide, hstands⟩
    · obtain ⟨e, he, rfl⟩ := List.mem_map.1 hx
      obtain ⟨he, hstands'⟩ := List.mem_filter.1 he
      rw [eq_marker_of_stands hc he hstands']
      rfl
  · rename_i hstands
    cases hl : keywordAt (c :: cs) with
    | none => rfl
    | some l =>
      obtain ⟨e, he, -⟩ := List.mem_map.1 (longest_mem hl)
      obtain ⟨he, hstands'⟩ := List.mem_filter.1 he
      rw [eq_marker_of_stands hc he hstands'] at hstands'
      exact absurd hstands' hstands

theorem lexemeAt_of_not_fragment {c : Char} {cs : List Char} (hc : isFragmentChar c = false) :
    lexemeAt (c :: cs) =
      if "<-".toList.isPrefixOf (c :: cs) then some (.symbol .arrow, 2)
      else if keywordStands ":default".toList (c :: cs) then some (.keyword .marker, 8)
      else (symbolOf? c).map fun s => (.symbol s, 1) := by
  have hident : identAt (c :: cs) = none := by
    refine if_neg fun h => ?_
    have hstart : isIdentStart c = true := h
    rw [isFragmentChar_of_isIdentChar (isIdentChar_of_isIdentStart hstart)] at hc
    cases hc
  have hfragment : fragmentAt (c :: cs) = none := if_neg (by simp [hc])
  rw [lexemeAt_eq_longest, hident, hfragment, keywordAt_of_not_fragment hc, symbolAt_cons]
  split
  · rename_i harrow
    simp only [String.reduceToList, List.isPrefixOf, Bool.and_eq_true, beq_iff_eq] at harrow
    have hnot : keywordStands ":default".toList (c :: cs) = false := by
      rw [← harrow.1]
      simp [keywordStands, Text.lower]
    rw [hnot]
    rfl
  · split
    · refine longest_append_cons (fun x hx => ?_) (by simp)
      cases hs : symbolOf? c with
      | none => simp [hs] at hx
      | some s =>
        simp only [hs, Option.map_some, Option.toList_some, List.mem_singleton] at hx
        subst hx
        show 1 < 8
        decide
    · cases symbolOf? c <;> rfl

theorem lexemeAt_eq_runAt (cs : List Char) : lexemeAt cs = runAt cs := by
  cases cs with
  | nil => rfl
  | cons c cs =>
    cases hc : isFragmentChar c with
    | false =>
      rw [lexemeAt_of_not_fragment hc, runAt]
      simp only [List.head?_cons, Option.bind_some, Option.any_some, hc]
      cases symbolOf? c <;> rfl
    | true =>
      have hmem := not_mem_of_isFragmentChar hc
      have harrow : ¬"<-".toList.isPrefixOf (c :: cs) = true :=
        fun h => hmem (head_of_spelling .arrow c cs h)
      have hne : (c :: cs).takeWhile isFragmentChar ≠ [] := by simp [hc]
      have hall : ∀ d ∈ (c :: cs).takeWhile isFragmentChar, isFragmentChar d = true :=
        fun d hd => List.all_eq_true.1 List.all_takeWhile d hd
      have hrest : ((c :: cs).dropWhile isFragmentChar).head?.any isFragmentChar = false := by
        have := List.head?_dropWhile_not isFragmentChar (c :: cs)
        cases hd : ((c :: cs).dropWhile isFragmentChar).head? with
        | none => rfl
        | some d => simpa [hd] using this
      have hrun := lexemeAt_run hne hall hrest
      rw [List.takeWhile_append_dropWhile] at hrun
      rw [hrun, runAt, if_neg harrow, not_stands_marker hc]
      simp [symbolOf?_of_not_mem hmem, hc]

end Routes.Token
