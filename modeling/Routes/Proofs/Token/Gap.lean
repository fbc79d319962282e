import Routes.Token.Scan
/-!
What may stand between two tokens. A gap consists of white space and comments; the trivia that are
split off a text are the only gap in front of something that is neither.
-/
namespace Routes.Token
open Text (isBlank)

/-- A comment begins where the marker stands, unless the marker is empty. -/
def OpensComment (marker cs : List Char) : Prop := marker ≠ [] ∧ marker <+: cs

/-- White space and comments in front of a rest. White space is looked for first, so no comment
begins with it, and a comment takes everything in front of the next line feed. -/
inductive IsGap (marker : List Char) : List Char → List Char → Prop
  | nil {rest} : IsGap marker [] rest
  | blank {c gap rest} : isBlank c = true → IsGap marker gap rest → IsGap marker (c :: gap) rest
  | comment {c body gap rest} : isBlank c = false →
      OpensComment marker (c :: (body ++ (gap ++ rest))) → '\n' ∉ body →
      (∀ d ∈ (gap ++ rest).head?, d = '\n') → IsGap marker gap rest →
      IsGap marker (c :: (body ++ gap)) rest

/-- A text that begins neither with white space nor with a comment. -/
def IsPlain (marker cs : List Char) : Prop :=
  ∀ c ∈ cs.head?, isBlank c = false ∧ ¬OpensComment marker cs

variable {marker gap body rest cs : List Char} {c : Char}

theorem opensComment_iff :
    OpensComment marker cs ↔ (!marker.isEmpty && marker.isPrefixOf cs) = true := by
  simp [OpensComment]

/-- An open comment goes on to the end of its line. -/
theorem splitTrivia_true (marker cs : List Char) : splitTrivia marker true cs =
    (splitTrivia marker false (cs.dropWhile (· != '\n'))).map (cs.takeWhile (· != '\n') ++ ·) id := by
  induction cs with
  | nil => rfl
  | cons c cs ih =>
    by_cases hc : c = '\n'
    · subst hc
      simp [splitTrivia, Text.isBlank_newline]
      rfl
    · have hcomment : (isBlank c && (!true || c == '\n')) = false := by simp [hc]
      rw [splitTrivia, if_neg (by rw [hcomment]; exact Bool.false_ne_true), if_pos (by simp), ih]
      simp [hc, Prod.map]

theorem splitTrivia_blank (hc : isBlank c = true) : splitTrivia marker false (c :: cs) =
    (splitTrivia marker false cs).map (c :: ·) id := by
  simp [splitTrivia, hc]

theorem splitTrivia_comment (hc : isBlank c = false) (ho : OpensComment marker (c :: cs)) :
    splitTrivia marker false (c :: cs) = (splitTrivia marker true cs).map (c :: ·) id := by
  have ho' := opensComment_iff.1 ho
  rw [splitTrivia, if_neg (by simp [hc]), if_pos (by rw [ho']; rfl)]

theorem splitTrivia_plain (h : IsPlain marker cs) : splitTrivia marker false cs = ([], cs) := by
  cases cs with
  | nil => rfl
  | cons c cs =>
    obtain ⟨hblank, hopen⟩ := h c rfl
    have hopen' : (!marker.isEmpty && marker.isPrefixOf (c :: cs)) = false := by
      rw [← Bool.not_eq_true, ← opensComment_iff]
      exact hopen
    rw [splitTrivia, if_neg (by simp [hblank]), if_neg (by rw [hopen']; simp)]

theorem takeWhile_line (hbody : '\n' ∉ body) (hnext : ∀ d ∈ cs.head?, d = '\n') :
    (body ++ cs).takeWhile (· != '\n') = body ∧ (body ++ cs).dropWhile (· != '\n') = cs := by
  have hall : ∀ d ∈ body, (d != '\n') = true := by
    intro d hd
    rw [bne_iff_ne]
    intro hline
    exact hbody (hline ▸ hd)
  have hstop : cs.takeWhile (· != '\n') = [] ∧ cs.dropWhile (· != '\n') = cs := by
    cases cs with
    | nil => exact ⟨rfl, rfl⟩
    | cons d ds =>
      have hd : d = '\n' := hnext d rfl
      simp [hd]
  rw [List.takeWhile_append_of_pos hall, List.dropWhile_append_of_pos hall, hstop.1, hstop.2]
  exact ⟨List.append_nil body, rfl⟩

theorem splitTrivia_of_isGap (h : IsGap marker gap rest) (hrest : IsPlain marker rest) :
    splitTrivia marker false (gap ++ rest) = (gap, rest) := by
  induction h with
  | nil => exact splitTrivia_plain hrest
  | blank hc _ ih => rw [List.cons_append, splitTrivia_blank hc, ih hrest]; rfl
  | @comment c body gap rest hc ho hbody hnext _ ih =>
    obtain ⟨htake, hdrop⟩ := takeWhile_line hbody hnext
    rw [List.cons_append, List.append_assoc, splitTrivia_comment hc ho, splitTrivia_true, htake,
      hdrop, ih hrest]
    rfl

theorem isGap_line (hc : isBlank c = false) (ho : OpensComment marker (c :: cs))
    (happend : gap ++ rest = cs.dropWhile (· != '\n')) (hgap : IsGap marker gap rest) :
    IsGap marker (c :: (cs.takeWhile (· != '\n') ++ gap)) rest := by
  refine .comment hc ?_ ?_ ?_ hgap
  · rwa [happend, List.takeWhile_append_dropWhile]
  · intro hmem
    have hne := List.all_eq_true.1 List.all_takeWhile _ hmem
    simp at hne
  · rw [happend]
    intro d hd
    have hne := List.head?_dropWhile_not (· != '\n') cs
    rw [Option.mem_def.1 hd] at hne
    simpa using hne

theorem isGap_splitTrivia (marker cs : List Char) :
    IsGap marker (splitTrivia marker false cs).1 (splitTrivia marker false cs).2 ∧
      IsPlain marker (splitTrivia marker false cs).2 := by
  cases cs with
  | nil => exact ⟨.nil, by simp [IsPlain, splitTrivia]⟩
  | cons c cs =>
    cases hc : isBlank c with
    | true =>
      rw [splitTrivia_blank hc]
      obtain ⟨hgap, hplain⟩ := isGap_splitTrivia marker cs
      exact ⟨.blank hc hgap, hplain⟩
    | false =>
      by_cases ho : OpensComment marker (c :: cs)
      · have hlength := (List.dropWhile_suffix (l := cs) (· != '\n')).length_le
        obtain ⟨hgap, hplain⟩ := isGap_splitTrivia marker (cs.dropWhile (· != '\n'))
        have happend := splitTrivia_append marker false (cs.dropWhile (· != '\n'))
        rw [splitTrivia_comment hc ho, splitTrivia_true]
        exact ⟨isGap_line hc ho happend hgap, hplain⟩
      · have hplain : IsPlain marker (c :: cs) := by
          intro d hd
          obtain rfl : c = d := Option.some.inj hd
          exact ⟨hc, ho⟩
        rw [splitTrivia_plain hplain]
        exact ⟨.nil, hplain⟩
termination_by cs.length

theorem splitTrivia_eq_iff : splitTrivia marker false cs = (gap, rest) ↔
    cs = gap ++ rest ∧ IsGap marker gap rest ∧ IsPlain marker rest := by
  constructor
  · intro h
    have happend := splitTrivia_append marker false cs
    obtain ⟨hgap, hplain⟩ := isGap_splitTrivia marker cs
    rw [h] at happend hgap hplain
    exact ⟨happend.symm, hgap, hplain⟩
  · intro h
    obtain ⟨hcs, hgap, hplain⟩ := h
    rw [hcs]
    exact splitTrivia_of_isGap hgap hplain

end Routes.Token
