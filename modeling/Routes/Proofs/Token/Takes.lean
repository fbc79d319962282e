import Routes.Proofs.Token.Scan
/-!
The lexeme that a text begins with, rule by rule. No rule competes with another one: each says by
itself how far its lexeme goes and what may follow it. Main statement: the longest lexeme at a place
is the one that these rules give, and there is none just where the first character is stray.
-/
namespace Routes.Token
open Text (lower)

/-- The characters that are symbols of their own. -/
def isSymbolChar (c : Char) : Bool := ['(', ')', '/', ':', '<', '>', '#'].contains c

/-- A letter or an underscore, and then identifier characters. -/
def IsIdent : List Char → Prop
  | [] => False
  | c :: cs => isIdentStart c = true ∧ ∀ d ∈ cs, isIdentChar d = true

/-- A word that is a keyword in some case of its letters. The marker is no word. -/
def SpellsKeyword (w : List Char) (k : Keyword) : Prop :=
  k ≠ .marker ∧ lower w = k.spelling.toList

/-- A text that begins with the marker as a whole word. -/
def BeginsMarker (cs : List Char) : Prop :=
  ∃ w rest, cs = w ++ rest ∧ lower w = Keyword.marker.spelling.toList ∧
    ∀ c ∈ rest.head?, isIdentChar c = false

/-- A run of fragment characters that goes on as long as it can in front of a rest. -/
structure IsWholeRun (w rest : List Char) : Prop where
  run : IsRun w
  stops : ∀ c ∈ rest.head?, isFragmentChar c = false

/-- The lexeme in front of a rest, and its kind. -/
inductive Takes : List Char → Kind → List Char → Prop
  | arrow {rest} : Takes ['<', '-'] (.symbol .arrow) rest
  | marker {w rest} : lower w = Keyword.marker.spelling.toList →
      (∀ c ∈ rest.head?, isIdentChar c = false) → Takes w (.keyword .marker) rest
  | symbol {c s rest} : s.spelling.toList = [c] → ¬['<', '-'] <+: c :: rest →
      ¬BeginsMarker (c :: rest) → Takes [c] (.symbol s) rest
  | keyword {w k rest} : IsWholeRun w rest → SpellsKeyword w k → Takes w (.keyword k) rest
  | ident {w rest} : IsWholeRun w rest → (∀ k, ¬SpellsKeyword w k) → IsIdent w → Takes w .ident rest
  | fragment {w rest} : IsWholeRun w rest → (∀ k, ¬SpellsKeyword w k) → ¬IsIdent w →
      Takes w .fragment rest

variable {w rest cs : List Char} {k : Kind} {c : Char}

theorem head_any_eq_false_iff {p : Char → Bool} :
    cs.head?.any p = false ↔ ∀ c ∈ cs.head?, p c = false := by
  cases cs <;> simp

theorem keywordStands_append_iff {word : List Char} (hw : w.length = word.length) :
    keywordStands word (w ++ rest) = true ↔
      lower w = word ∧ ∀ c ∈ rest.head?, isIdentChar c = false := by
  rw [keywordStands, ← hw, List.take_left, List.drop_left, Bool.and_eq_true, beq_iff_eq,
    Bool.not_eq_true', head_any_eq_false_iff]

theorem beginsMarker_iff : BeginsMarker cs ↔ keywordStands ":default".toList cs = true := by
  constructor
  · intro h
    obtain ⟨w, rest, rfl, hw, hrest⟩ := h
    exact (keywordStands_append_iff (Text.length_eq_of_lower hw)).2 ⟨hw, hrest⟩
  · intro h
    have hword : lower (cs.take ":default".toList.length) = ":default".toList := by
      have h' := (Bool.and_eq_true_iff.1 h).1
      exact beq_iff_eq.1 h'
    have hlength := Text.length_eq_of_lower hword
    have hcs := List.take_append_drop ":default".toList.length cs
    rw [← hcs] at h
    obtain ⟨-, hrest⟩ := (keywordStands_append_iff hlength).1 h
    exact ⟨_, _, hcs.symm, hword, hrest⟩

theorem eq_colon_of_toLower (h : c.toLower = ':') : c = ':' := by
  rw [eq_comm, ← beq_iff_eq, Text.beq_toLower (by decide), beq_iff_eq] at h
  exact h.symm

theorem eq_colon_of_lower (h : lower w = Keyword.marker.spelling.toList) : ∃ cs, w = ':' :: cs := by
  cases w with
  | nil => cases h
  | cons c cs =>
    have hhead : c.toLower = ':' := (List.cons.inj h).1
    rw [eq_colon_of_toLower hhead]
    exact ⟨cs, rfl⟩

theorem symbolOf?_eq_some_iff {s : Symbol} : symbolOf? c = some s ↔ s.spelling.toList = [c] := by
  constructor
  · intro h
    simpa using List.find?_some h
  · intro h
    have hmem : s ∈ Symbol.all := by cases s <;> decide
    have hunique : ∀ s' ∈ Symbol.all, s'.spelling.toList = s.spelling.toList → s' = s := by
      cases s <;> decide
    cases hfind : symbolOf? c with
    | none =>
      have hnot := List.find?_eq_none.1 hfind s hmem
      exact absurd (beq_iff_eq.2 h) hnot
    | some s' =>
      have hs' : s'.spelling.toList = [c] := by simpa using List.find?_some hfind
      rw [hunique s' (List.mem_of_find?_eq_some hfind) (hs'.trans h.symm)]

theorem isSymbolChar_iff : isSymbolChar c = true ↔ ∃ s, symbolOf? c = some s := by
  constructor
  · intro h
    simp only [isSymbolChar, List.contains_eq_mem, decide_eq_true_eq, List.mem_cons,
      List.not_mem_nil, or_false] at h
    rcases h with rfl | rfl | rfl | rfl | rfl | rfl | rfl <;> exact ⟨_, rfl⟩
  · intro h
    obtain ⟨s, hs⟩ := h
    have hmem : c ∈ ['(', ')', '/', ':', '<', '>', '#'] := by
      refine Decidable.byContradiction fun hnot => ?_
      rw [symbolOf?_of_not_mem hnot] at hs
      cases hs
    simpa only [isSymbolChar, List.contains_eq_mem, decide_eq_true_eq] using hmem

theorem isIdent_iff : IsIdent w ↔ (w.head?.any isIdentStart && w.all isIdentChar) = true := by
  cases w with
  | nil => simp [IsIdent]
  | cons c cs =>
    simp only [IsIdent, List.head?_cons, Option.any_some, List.all_cons, Bool.and_eq_true,
      List.all_eq_true]
    constructor
    · intro h
      exact ⟨h.1, isIdentChar_of_isIdentStart h.1, h.2⟩
    · intro h
      exact ⟨h.1, h.2.2⟩

theorem Keyword.spelling_of_mem : ∀ e ∈ Keyword.all, e.1 = e.2.spelling := by decide

theorem Keyword.mem_all (k : Keyword) : (k.spelling, k) ∈ Keyword.all := by cases k <;> decide

/-- The keyword that a run is, if it is one. -/
theorem find?_keyword_eq_some_iff (hw : IsRun w) {word : String} {k : Keyword} :
    Keyword.all.find? (fun e => e.1.toList == lower w) = some (word, k) ↔
      word = k.spelling ∧ SpellsKeyword w k := by
  constructor
  · intro h
    have hmem := List.mem_of_find?_eq_some h
    have hword : word = k.spelling := Keyword.spelling_of_mem _ hmem
    have hlower : word.toList = lower w := by simpa using List.find?_some h
    refine ⟨hword, ?_, by rw [← hword, hlower]⟩
    intro hk
    rw [hword, hk] at hlower
    obtain ⟨cs, rfl⟩ := eq_colon_of_lower hlower.symm
    have hfragment : isFragmentChar ':' = true := hw.2 ':' List.mem_cons_self
    cases hfragment
  · intro h
    obtain ⟨rfl, -, hlower⟩ := h
    cases hfind : Keyword.all.find? (fun e => e.1.toList == lower w) with
    | none =>
      have hnot := List.find?_eq_none.1 hfind _ (Keyword.mem_all k)
      exact absurd (beq_iff_eq.2 hlower.symm) hnot
    | some e =>
      have hmem := List.mem_of_find?_eq_some hfind
      have he : e.1.toList = lower w := by simpa using List.find?_some hfind
      have hsame : e.1 = k.spelling := String.toList_inj.1 (he.trans hlower)
      rw [Keyword.unique_of_mem e hmem _ (Keyword.mem_all k) hsame]

theorem find?_keyword_eq_none_iff (hw : IsRun w) :
    Keyword.all.find? (fun e => e.1.toList == lower w) = none ↔ ∀ k, ¬SpellsKeyword w k := by
  rw [Option.eq_none_iff_forall_ne_some]
  constructor
  · intro h k hk
    exact h (k.spelling, k) ((find?_keyword_eq_some_iff hw).2 ⟨rfl, hk⟩)
  · intro h e he
    exact h e.2 ((find?_keyword_eq_some_iff hw).1 he).2

/-- The rules for whole runs give the kind of the run. -/
theorem takes_wordKind (h : IsWholeRun w rest) : Takes w (wordKind w) rest := by
  unfold wordKind
  split
  · rename_i word k hfind
    exact .keyword h ((find?_keyword_eq_some_iff h.run).1 hfind).2
  · rename_i hfind
    have hnone := (find?_keyword_eq_none_iff h.run).1 hfind
    split
    · rename_i hident
      exact .ident h hnone (isIdent_iff.2 hident)
    · rename_i hident
      exact .fragment h hnone fun hi => hident (isIdent_iff.1 hi)

theorem wordKind_of_spellsKeyword (hw : IsRun w) {k : Keyword} (hk : SpellsKeyword w k) :
    wordKind w = .keyword k := by
  rw [wordKind, (find?_keyword_eq_some_iff hw).2 ⟨rfl, hk⟩]

theorem wordKind_of_not_spellsKeyword (hw : IsRun w) (hk : ∀ k, ¬SpellsKeyword w k) :
    wordKind w = if w.head?.any isIdentStart && w.all isIdentChar then .ident else .fragment := by
  rw [wordKind, (find?_keyword_eq_none_iff hw).2 hk]

theorem lexemeAt_of_takes (h : Takes w k rest) : lexemeAt (w ++ rest) = some (k, w.length) := by
  have hrun : ∀ {w : List Char}, IsWholeRun w rest →
      lexemeAt (w ++ rest) = some (wordKind w, w.length) := by
    intro w hw
    exact lexemeAt_run hw.run.1 hw.run.2 (head_any_eq_false_iff.2 hw.stops)
  cases h with
  | arrow => rw [lexemeAt_eq_runAt]; rfl
  | marker hw hrest =>
    have hstands := beginsMarker_iff.1 ⟨w, rest, rfl, hw, hrest⟩
    have hlength : w.length = 8 := Text.length_eq_of_lower hw
    have harrow : ¬"<-".toList.isPrefixOf (w ++ rest) = true := by
      obtain ⟨cs, rfl⟩ := eq_colon_of_lower hw
      exact Bool.false_ne_true
    rw [lexemeAt_eq_runAt, runAt, if_neg harrow, if_pos hstands, hlength]
  | @symbol c s _ hs harrow hmarker =>
    have harrow' : ¬"<-".toList.isPrefixOf ([c] ++ rest) = true := by
      intro h
      exact harrow (List.isPrefixOf_iff_prefix.1 h)
    have hmarker' : ¬keywordStands ":default".toList ([c] ++ rest) = true := by
      intro h
      exact hmarker (beginsMarker_iff.2 h)
    have hsymbol : ([c] ++ rest).head?.bind symbolOf? = some s := symbolOf?_eq_some_iff.2 hs
    rw [lexemeAt_eq_runAt, runAt, if_neg harrow', if_neg hmarker', hsymbol]
    rfl
  | keyword hw hk => rw [hrun hw, wordKind_of_spellsKeyword hw.run hk]
  | ident hw hk hi => rw [hrun hw, wordKind_of_not_spellsKeyword hw.run hk, if_pos (isIdent_iff.1 hi)]
  | fragment hw hk hi =>
    rw [hrun hw, wordKind_of_not_spellsKeyword hw.run hk, if_neg fun h => hi (isIdent_iff.2 h)]

theorem takes_of_lexemeAt {n : Nat} (h : lexemeAt cs = some (k, n)) :
    ∃ w rest, cs = w ++ rest ∧ w.length = n ∧ Takes w k rest := by
  rw [lexemeAt_eq_runAt, runAt] at h
  split at h
  · rename_i harrow
    obtain ⟨rest, hrest⟩ := List.isPrefixOf_iff_prefix.1 harrow
    cases h
    exact ⟨_, rest, hrest.symm, rfl, .arrow⟩
  · rename_i harrow
    split at h
    · rename_i hmarker
      obtain ⟨w, rest, hcs, hw, hrest⟩ := beginsMarker_iff.2 hmarker
      have hlength : w.length = 8 := Text.length_eq_of_lower hw
      cases h
      exact ⟨w, rest, hcs, hlength, .marker hw hrest⟩
    · rename_i hmarker
      cases cs with
      | nil => cases h
      | cons c cs =>
        split at h
        · rename_i s hs
          cases h
          refine ⟨[c], cs, rfl, rfl, .symbol (symbolOf?_eq_some_iff.1 hs) ?_ ?_⟩
          · intro h
            exact harrow (List.isPrefixOf_iff_prefix.2 h)
          · intro h
            exact hmarker (beginsMarker_iff.1 h)
        · split at h
          · rename_i hc
            cases h
            refine ⟨_, _, (List.takeWhile_append_dropWhile).symm, rfl, takes_wordKind ⟨⟨?_, ?_⟩, ?_⟩⟩
            · have hc' : isFragmentChar c = true := hc
              simp [hc']
            · intro d hd
              exact List.all_eq_true.1 List.all_takeWhile d hd
            · intro d hd
              have hnot := List.head?_dropWhile_not isFragmentChar (c :: cs)
              rw [Option.mem_def.1 hd] at hnot
              simpa using hnot
          · cases h

/-- A text begins with at most one lexeme. -/
theorem takes_iff : Takes w k rest ↔ lexemeAt (w ++ rest) = some (k, w.length) := by
  constructor
  · exact lexemeAt_of_takes
  · intro h
    obtain ⟨w', rest', happend, hlength, htakes⟩ := takes_of_lexemeAt h
    obtain ⟨rfl, rfl⟩ := List.append_inj happend.symm hlength
    exact htakes

/-- A text begins with no lexeme just where its first character belongs to no rule. -/
theorem lexemeAt_eq_none_iff :
    lexemeAt (c :: cs) = none ↔ isFragmentChar c = false ∧ isSymbolChar c = false := by
  constructor
  · intro h
    rw [lexemeAt_eq_runAt, runAt] at h
    split at h
    · cases h
    · split at h
      · cases h
      · split at h
        · cases h
        · rename_i hsymbol
          split at h
          · cases h
          · rename_i hfragment
            refine ⟨by simpa using hfragment, ?_⟩
            rw [Bool.eq_false_iff]
            intro hs
            obtain ⟨s, hs⟩ := isSymbolChar_iff.1 hs
            have hsymbol' : symbolOf? c = none := hsymbol
            rw [hsymbol'] at hs
            cases hs
  · intro h
    have hnot : c ∉ ['(', ')', '/', ':', '<', '>', '#'] := by
      have hs := h.2
      simpa [isSymbolChar] using hs
    rw [lexemeAt_of_not_fragment h.1, symbolOf?_of_not_mem hnot]
    have harrow : ¬"<-".toList.isPrefixOf (c :: cs) = true :=
      fun ha => hnot (head_of_spelling .arrow c cs ha)
    have hmarker : ¬keywordStands ":default".toList (c :: cs) = true := by
      intro hm
      obtain ⟨w, rest, happend, hw, -⟩ := beginsMarker_iff.2 hm
      obtain ⟨w, rfl⟩ := eq_colon_of_lower hw
      have hcolon : c = ':' := (List.cons.inj happend).1
      exact hnot (by simp [hcolon])
    rw [if_neg harrow, if_neg hmarker]
    rfl

end Routes.Token
