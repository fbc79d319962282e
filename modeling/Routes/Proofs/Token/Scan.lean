import Routes.Proofs.Token.Lexeme
import Routes.Result
/-!
Scanning a text piece by piece. What a piece is scanned as depends on what follows it only where its
last token could go on, so the tokens of a text that is put together are those of its pieces.
-/
namespace Routes.Token
open Text (isBlank)
variable {marker cs rest blank : List Char} {p : Position} {ts : List Token}

theorem scanFrom_done (h : splitTrivia marker false cs = (blank, [])) :
    scanFrom marker p cs = .ok [finishAt (p.advance blank)] := by
  rw [scanFrom]
  split
  · rename_i hs
    cases h.symm.trans hs
    rfl
  · rename_i hs
    cases h.symm.trans hs

theorem scanFrom_error {c : Char} (h : splitTrivia marker false cs = (blank, c :: rest))
    (hl : lexemeAt (c :: rest) = none) :
    scanFrom marker p cs = .error ⟨p.advance blank, c⟩ := by
  rw [scanFrom]
  split
  · rename_i hs
    cases h.symm.trans hs
  · rename_i hs
    cases h.symm.trans hs
    split
    · rfl
    · rename_i hl'
      cases hl.symm.trans hl'

theorem scanFrom_token {c : Char} {k : Kind} {n : Nat}
    (h : splitTrivia marker false cs = (blank, c :: rest))
    (hl : lexemeAt (c :: rest) = some (k, n)) :
    scanFrom marker p cs =
      (scanFrom marker (p.advance (blank ++ (c :: rest).take n)) ((c :: rest).drop n)).map
        (⟨k, String.ofList ((c :: rest).take n), p.advance blank,
          Text.byteLength ((c :: rest).take n)⟩ :: ·) := by
  rw [scanFrom]
  split
  · rename_i hs
    cases h.symm.trans hs
  · rename_i hs
    cases h.symm.trans hs
    split
    · rename_i hl'
      cases hl.symm.trans hl'
    · rename_i hl'
      cases hl.symm.trans hl'
      rfl

theorem scanFrom_blank {b : Char} (hb : isBlank b = true) :
    scanFrom marker p (b :: cs) = scanFrom marker (p.step b) cs := by
  have hs : splitTrivia marker false cs =
      ((splitTrivia marker false cs).1, (splitTrivia marker false cs).2) := rfl
  have hs' : splitTrivia marker false (b :: cs) =
      (b :: (splitTrivia marker false cs).1, (splitTrivia marker false cs).2) := by
    simp [splitTrivia, hb, Prod.map]
  generalize (splitTrivia marker false cs).1 = blank at hs hs'
  generalize (splitTrivia marker false cs).2 = rest at hs hs'
  cases rest with
  | nil => rw [scanFrom_done hs, scanFrom_done hs', Position.advance_cons]
  | cons c rest =>
    cases hl : lexemeAt (c :: rest) with
    | none => rw [scanFrom_error hs hl, scanFrom_error hs' hl, Position.advance_cons]
    | some l =>
      rw [scanFrom_token hs hl, scanFrom_token hs' hl, List.cons_append, Position.advance_cons,
        Position.advance_cons]

/-- A text that holds fragment characters and nothing else. -/
def IsRun (w : List Char) : Prop := w ≠ [] ∧ ∀ c ∈ w, isFragmentChar c = true

instance (w : List Char) : Decidable (IsRun w) :=
  decidable_of_iff (w ≠ [] ∧ w.all isFragmentChar = true)
    (and_congr_right fun _ => List.all_eq_true)

/-- The token of a run at a place. -/
def ofRun (p : Position) (s : String) : Token :=
  ⟨wordKind s.toList, s, p, Text.byteLength s.toList⟩

theorem wordKind_cases {w : List Char} (hw : IsRun w) :
    (∃ k, k ≠ .marker ∧ wordKind w = .keyword k) ∨ wordKind w = .ident ∨
      wordKind w = .fragment := by
  unfold wordKind
  split
  · rename_i word k hfind
    refine .inl ⟨k, ?_, rfl⟩
    rintro rfl
    have hmem := List.mem_of_find?_eq_some hfind
    have hword : word.toList = Text.lower w := by simpa using List.find?_some hfind
    have hstands : keywordStands word.toList (w ++ []) = true := stands_of_eq_lower hword rfl
    obtain ⟨c, cs, rfl⟩ := List.exists_cons_of_ne_nil hw.1
    obtain rfl : word = ":default" := Keyword.marker_of_mem _ hmem rfl
    rw [List.cons_append, not_stands_marker (hw.2 c List.mem_cons_self)] at hstands
    cases hstands
  · split
    · exact .inr (.inl rfl)
    · exact .inr (.inr rfl)

theorem isWord_or_fragment {s : String} (hs : IsRun s.toList) (p : Position) :
    (ofRun p s).isWord = true ∨ (ofRun p s).kind = .fragment := by
  rcases wordKind_cases hs with ⟨k, hk, hword⟩ | hident | hfragment
  · exact .inl (by simp [ofRun, isWord, hword, hk])
  · exact .inl (by simp [ofRun, isWord, hident])
  · exact .inr hfragment

theorem wordKind_dash (cs : List Char) : wordKind ('-' :: cs) = .fragment := by
  have hhead : ∀ e ∈ Keyword.all, e.1.toList.head? ≠ some '-' := by decide
  have hfind : Keyword.all.find? (fun e => e.1.toList == Text.lower ('-' :: cs)) = none := by
    refine List.find?_eq_none.2 fun e he heq => hhead e he ?_
    rw [beq_iff_eq.1 heq]
    rfl
  rw [wordKind, hfind]
  rfl

/-- A token of a class that is scanned as a run is the token of its own text. -/
def Spelled (t : Token) : Prop :=
  t.isWord = true ∨ t.kind = .fragment → IsRun t.text.toList ∧ t.kind = wordKind t.text.toList

theorem wordKind_ne_finish (run : List Char) : wordKind run ≠ .finish := by
  unfold wordKind
  split
  · exact Kind.noConfusion
  · split <;> exact Kind.noConfusion

theorem spelled_of_lexemeAt {k : Kind} {n : Nat} {q : Position} {size : Nat}
    (h : lexemeAt cs = some (k, n)) :
    k ≠ .finish ∧ Spelled ⟨k, String.ofList (cs.take n), q, size⟩ := by
  rw [lexemeAt_eq_runAt, runAt] at h
  split at h
  · cases h
    exact ⟨Kind.noConfusion, fun h => by simp [isWord] at h⟩
  · split at h
    · cases h
      exact ⟨Kind.noConfusion, fun h => by simp [isWord] at h⟩
    · split at h
      · cases h
        exact ⟨Kind.noConfusion, fun h => by simp [isWord] at h⟩
      · split at h
        · rename_i hhead
          cases h
          have htake : cs.take (cs.takeWhile isFragmentChar).length = cs.takeWhile isFragmentChar :=
            (List.prefix_iff_eq_take.1 (List.takeWhile_prefix _)).symm
          have hne : cs.takeWhile isFragmentChar ≠ [] := by
            cases cs with
            | nil => cases hhead
            | cons c cs =>
              have hc : isFragmentChar c = true := hhead
              simp [hc]
          refine ⟨wordKind_ne_finish _, fun _ => ?_⟩
          rw [htake, String.toList_ofList]
          exact ⟨⟨hne, fun c hc => List.all_eq_true.1 List.all_takeWhile c hc⟩, rfl⟩
        · cases h

/-- The end of the input is the last token of a text and no other. -/
theorem scanFrom_eq_ok (h : scanFrom marker p cs = .ok ts) :
    ∃ us e, ts = us ++ [e] ∧ e.kind = .finish ∧ ∀ t ∈ us, t.kind ≠ .finish ∧ Spelled t := by
  fun_induction scanFrom marker p cs generalizing ts with
  | case1 p cs blank hs =>
    cases h
    exact ⟨[], _, rfl, rfl, by simp⟩
  | case2 => cases h
  | case3 p cs blank c rest hs k n hl text token =>
    rename_i ih
    obtain ⟨ts', hts, rfl⟩ := map_eq_ok.1 h
    obtain ⟨us, e, rfl, he, hus⟩ := ih hts
    refine ⟨token :: us, e, rfl, he, fun t ht => ?_⟩
    rcases List.mem_cons.1 ht with rfl | ht
    · exact spelled_of_lexemeAt hl
    · exact hus t ht

/-- Nothing is scanned in front of the place where a text begins. -/
theorem offset_le_of_scanFrom {t : Token} (h : scanFrom marker p cs = .ok (t :: ts)) :
    p.offset ≤ t.position.offset := by
  rw [scanFrom] at h
  split at h
  · cases h
    simp [finishAt, Position.advance_offset]
  · split at h
    · cases h
    · obtain ⟨ts', -, hts⟩ := map_eq_ok.1 h
      cases hts
      simp [Position.advance_offset]

/-- What a text is scanned as at a place, in front of a rest that can be scanned. -/
def Scans (p : Position) (x : List Char) (ts : List Token) (rest : List Char) : Prop :=
  ∀ us, scanFrom "%".toList (p.advance x) rest = .ok us →
    scanFrom "%".toList p (x ++ rest) = .ok (ts ++ us)

theorem toNat_lt_of_isFragmentChar {c : Char} (h : isFragmentChar c = true) : c.toNat < 128 := by
  have hbelow : ∀ d : Char, c.val ≤ d.val → d.toNat < 128 → c.toNat < 128 :=
    fun _ hle hd => Nat.lt_of_le_of_lt hle hd
  simp only [isFragmentChar, Bool.or_eq_true, beq_iff_eq] at h
  rcases h with (((h | rfl) | rfl) | rfl) | rfl
  case inl.inl.inl.inl =>
    rcases Bool.or_eq_true_iff.1 h with hletter | hdigit
    · rcases Bool.or_eq_true_iff.1 hletter with hupper | hlower
      · exact hbelow 'Z' (of_decide_eq_true hupper).2 (by decide)
      · exact hbelow 'z' (of_decide_eq_true (Bool.and_eq_true_iff.1 hlower).2) (by decide)
    · exact hbelow '9' (of_decide_eq_true (Bool.and_eq_true_iff.1 hdigit).2) (by decide)
  all_goals decide

theorem isBlank_of_isFragmentChar {c : Char} (h : isFragmentChar c = true) :
    isBlank c = false ∧ c ≠ '%' := by
  have hsmall : ∀ n < 128, isFragmentChar (Char.ofNat n) = true →
      isBlank (Char.ofNat n) = false ∧ Char.ofNat n ≠ '%' := by
    decide
  simpa using hsmall c.toNat (toNat_lt_of_isFragmentChar h) (by simpa using h)

namespace Scans
variable {x y w : List Char} {us : List Token} {c : Char} {k : Kind}

theorem nil (p : Position) (rest : List Char) : Scans p [] [] rest := fun _ h => h

theorem append (hx : Scans p x ts (y ++ rest)) (hy : Scans (p.advance x) y us rest) :
    Scans p (x ++ y) (ts ++ us) rest := by
  intro vs h
  rw [Position.advance_append] at h
  rw [List.append_assoc, List.append_assoc]
  exact hx _ (hy _ h)

theorem cons (hc : Scans p [c] ts (x ++ rest)) (hx : Scans (p.step c) x us rest) :
    Scans p (c :: x) (ts ++ us) rest := append hc hx

theorem cons_blank (hc : isBlank c = true) (hx : Scans (p.step c) x ts rest) :
    Scans p (c :: x) ts rest := by
  intro us h
  rw [List.cons_append, scanFrom_blank hc]
  exact hx us h

theorem lexeme (hb : isBlank c = false) (hc : c ≠ '%')
    (hl : lexemeAt (c :: w ++ rest) = some (k, (c :: w).length)) :
    Scans p (c :: w) [⟨k, String.ofList (c :: w), p, Text.byteLength (c :: w)⟩] rest := by
  intro us h
  have hs : splitTrivia "%".toList false (c :: w ++ rest) = ([], c :: (w ++ rest)) := by
    simp [splitTrivia, hb, Ne.symm hc, List.isPrefixOf]
  have hstep := scanFrom_token (p := p) hs hl
  rw [← List.cons_append, List.take_left, List.drop_left, List.nil_append, h] at hstep
  exact hstep

theorem run {s : String} (hs : IsRun s.toList) (hrest : rest.head?.any isFragmentChar = false) :
    Scans p s.toList [ofRun p s] rest := by
  have hl := lexemeAt_run hs.1 hs.2 hrest
  have hs' : s = String.ofList s.toList := String.ofList_toList.symm
  obtain ⟨c, cs, hc⟩ := List.exists_cons_of_ne_nil hs.1
  obtain ⟨hb, hcomment⟩ := isBlank_of_isFragmentChar (hs.2 c (by simp [hc]))
  rw [ofRun, hc]
  rw [hc] at hl hs'
  exact hs' ▸ lexeme hb hcomment hl

theorem symbol {s : Symbol} (hs : symbolOf? c = some s)
    (harrow : "<-".toList.isPrefixOf (c :: rest) = false)
    (hmarker : keywordStands ":default".toList (c :: rest) = false) :
    Scans p [c] [⟨.symbol s, String.ofList [c], p, Text.byteLength [c]⟩] rest := by
  have hl : lexemeAt (c :: rest) = some (.symbol s, 1) := by
    rw [lexemeAt_eq_runAt, runAt, harrow, hmarker]
    simp [hs]
  have hc : c ∈ ['(', ')', '/', ':', '<', '>', '#'] := by
    refine Decidable.byContradiction fun hc => ?_
    rw [symbolOf?_of_not_mem hc] at hs
    cases hs
  have hplain :
      ['(', ')', '/', ':', '<', '>', '#'].all (fun d => !isBlank d && d != '%') = true := by
    decide
  have hplain := List.all_eq_true.1 hplain c hc
  simp only [Bool.and_eq_true, Bool.not_eq_true', bne_iff_ne] at hplain
  exact lexeme hplain.1 hplain.2 hl

theorem arrow : Scans p "<-".toList [⟨.symbol .arrow, "<-", p, 2⟩] rest := by
  have hl : lexemeAt ("<-".toList ++ rest) = some (.symbol .arrow, 2) := by
    rw [lexemeAt_eq_runAt]
    rfl
  exact lexeme (by decide) (by decide) hl

end Scans

end Routes.Token
