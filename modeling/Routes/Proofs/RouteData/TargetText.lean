import Routes.Proofs.RouteData.Target
/-!
Targets read back from the texts that they are shown as. A target that is written with the mark
which a reader looks for first is always read back. Main statement: a configured default that is
shown with a dot is read back just where no dot stands in front of that one and no hash behind it.
-/
namespace Routes.Target
open Text (AllBlank cut? trim)
variable {cs a b : List Char} {mark mark' : Char} {t : Target} {v : String}

theorem ofSides_eq_some_iff : ofSides a b = some t ↔ ¬ AllBlank a ∧ ¬ AllBlank b ∧
    t.controller.toList = trim a ∧ t.action.toList = trim b := by
  rw [ofSides]
  by_cases h : AllBlank a ∨ AllBlank b
  · rw [if_pos h]
    refine iff_of_false (Option.some_ne_none t).symm ?_
    rintro ⟨ha, hb, -⟩
    exact h.elim ha hb
  · rw [if_neg h, Option.some_inj]
    rw [not_or] at h
    constructor
    · rintro rfl
      exact ⟨h.1, h.2, String.toList_ofList, String.toList_ofList⟩
    · rintro ⟨-, -, hcontroller, haction⟩
      rw [← hcontroller, ← haction, String.ofList_toList, String.ofList_toList]

/-- The sides of a target are trimmed, so a reader takes them for what they are. -/
theorem ofSides_of_ofSides (h : ofSides a b = some t) :
    ofSides t.controller.toList t.action.toList = some t := by
  obtain ⟨ha, hb, hcontroller, haction⟩ := ofSides_eq_some_iff.1 h
  rw [ofSides_eq_some_iff, hcontroller, haction]
  rw [← Text.trim_eq_nil_iff] at ha hb ⊢
  rw [← Text.trim_eq_nil_iff, Text.trim_trim, Text.trim_trim]
  exact ⟨ha, hb, rfl, rfl⟩

/-- What a reader finds: its first mark with the sides of it, or else its second one in a text
without the first. -/
inductive FoundIn (mark mark' : Char) (cs a b : List Char) : Prop where
  | first : cs = a ++ mark :: b → mark ∉ a → FoundIn mark mark' cs a b
  | second : mark ∉ cs → cs = a ++ mark' :: b → mark' ∉ a → FoundIn mark mark' cs a b

theorem exists_foundIn (h : split? mark mark' cs = some t) :
    ∃ a b, FoundIn mark mark' cs a b ∧ ofSides a b = some t := by
  rw [split?_eq] at h
  obtain ⟨⟨a, b⟩, hcut, hsides⟩ := Option.bind_eq_some_iff.1 h
  refine ⟨a, b, ?_, hsides⟩
  by_cases hmark : mark ∈ cs
  · obtain ⟨front, back, rfl, hfront⟩ := List.eq_append_cons_of_mem hmark
    rw [Text.cut?_append_cons hfront, Option.some_or] at hcut
    cases hcut
    exact .first rfl hfront
  · rw [Text.cut?_eq_none hmark, Option.none_or] at hcut
    obtain ⟨hcs, ha⟩ := Text.cut?_eq_some hcut
    exact .second hmark hcs ha

/-- The mark that is looked for first stands in no controller that a reader has found. -/
theorem not_mem_controller (h : split? mark mark' cs = some t)
    (hmark : Text.isBlank mark = false) : mark ∉ t.controller.toList := by
  obtain ⟨a, b, hfound, hsides⟩ := exists_foundIn h
  rw [(ofSides_eq_some_iff.1 hsides).2.2.1, Text.mem_trim_iff hmark]
  cases hfound with
  | first _ ha => exact ha
  | second hcs heq _ => exact fun hmem => hcs (heq ▸ List.mem_append_left _ hmem)

theorem not_mem_action (h : split? mark mark' cs = some t) (hmark : Text.isBlank mark = false)
    (hcs : mark ∉ cs) : mark ∉ t.action.toList := by
  obtain ⟨a, b, hfound, hsides⟩ := exists_foundIn h
  rw [(ofSides_eq_some_iff.1 hsides).2.2.2, Text.mem_trim_iff hmark]
  intro hmem
  cases hfound with
  | first heq _ => exact hcs (heq ▸ List.mem_append_right a List.mem_cons_self)
  | second _ heq _ => exact hcs (heq ▸ List.mem_append_right a (List.mem_cons_of_mem _ hmem))

theorem ofSides_of_split? (h : split? mark mark' cs = some t) :
    ofSides t.controller.toList t.action.toList = some t := by
  obtain ⟨a, b, -, hsides⟩ := exists_foundIn h
  exact ofSides_of_ofSides hsides

/-- Written with the mark that its reader looks for first, a target is read back. -/
theorem split?_first (h : split? mark mark' cs = some t) (hmark : Text.isBlank mark = false) :
    split? mark mark' (t.controller.toList ++ mark :: t.action.toList) = some t := by
  rw [split?_append_cons (not_mem_controller h hmark)]
  exact ofSides_of_split? h

theorem split?_append_second (h : mark ∉ a ++ mark' :: b) (ha : mark' ∉ a) :
    split? mark mark' (a ++ mark' :: b) = ofSides a b := by
  rw [split?_eq, Text.cut?_eq_none h, Option.none_or, Text.cut?_append_cons ha, Option.bind_some]

/-- Texts shorter than the sides of a target are not its sides. -/
theorem ofSides_ne_of_length_lt
    (h : a.length < t.controller.toList.length ∨ b.length < t.action.toList.length) :
    ofSides a b ≠ some t := by
  intro hsides
  obtain ⟨-, -, hcontroller, haction⟩ := ofSides_eq_some_iff.1 hsides
  rw [hcontroller, haction] at h
  have ha := Text.length_trim_le a
  have hb := Text.length_trim_le b
  omega

/-- Written with the other mark, it is read back unless one mark or the other stands where its
reader finds it too early. -/
theorem split?_second_iff (h : split? mark mark' cs = some t) (hmark : Text.isBlank mark = false)
    (hne : mark ≠ mark') :
    split? mark mark' (t.controller.toList ++ mark' :: t.action.toList) = some t ↔
      mark' ∉ t.controller.toList ∧ mark ∉ t.action.toList := by
  have hcontroller := not_mem_controller h hmark
  by_cases haction : mark ∈ t.action.toList
  · refine iff_of_false ?_ fun hboth => hboth.2 haction
    obtain ⟨front, back, heq, hfront⟩ := List.eq_append_cons_of_mem haction
    have hall : mark ∉ t.controller.toList ++ mark' :: front := by
      rw [List.mem_append, List.mem_cons, not_or, not_or]
      exact ⟨hcontroller, hne, hfront⟩
    rw [heq, ← List.cons_append, ← List.append_assoc, split?_append_cons hall]
    refine ofSides_ne_of_length_lt (.inr ?_)
    simp only [heq, List.length_append, List.length_cons]
    omega
  · have hall : mark ∉ t.controller.toList ++ mark' :: t.action.toList := by
      rw [List.mem_append, List.mem_cons, not_or, not_or]
      exact ⟨hcontroller, hne, haction⟩
    by_cases hdot : mark' ∈ t.controller.toList
    · refine iff_of_false ?_ fun hboth => hboth.1 hdot
      obtain ⟨front, back, heq, hfront⟩ := List.eq_append_cons_of_mem hdot
      rw [heq, List.append_assoc, List.cons_append] at hall ⊢
      rw [split?_append_second hall hfront]
      refine ofSides_ne_of_length_lt (.inl ?_)
      simp only [heq, List.length_append, List.length_cons]
      omega
    · rw [split?_append_second hall hdot]
      exact iff_of_true (ofSides_of_split? h) ⟨hdot, haction⟩

theorem toList_hashText (t : Target) :
    t.hashText.toList = t.controller.toList ++ '#' :: t.action.toList := by
  rw [hashText, String.toList_append, String.toList_append, List.append_assoc]
  rfl

theorem toList_dotText (t : Target) :
    t.dotText.toList = t.controller.toList ++ '.' :: t.action.toList := by
  rw [dotText, String.toList_append, String.toList_append, List.append_assoc]
  rfl

/-- A registration, which looks for the dot first, reads every target back from its dotted text. -/
theorem split?_dotText (h : split? '.' '#' cs = some t) :
    split? '.' '#' t.dotText.toList = some t := by
  rw [toList_dotText]
  exact split?_first h rfl

/-- A default that has been read from a text is read back from its text with a hash, and from the
one with a dot unless its controller has a dot or its action a hash. Neither is so where the text
that it comes from has no hash. -/
theorem ofText_dotText_iff (h : ofText v = .ok t) :
    (ofText t.dotText = .ok t ↔ '.' ∉ t.controller.toList ∧ '#' ∉ t.action.toList) ∧
    ('#' ∉ v.toList → ofText t.dotText = .ok t) ∧ ofText t.hashText = .ok t := by
  have hsplit := ofText_eq_ok_iff.1 h
  have hdot : ofText t.dotText = .ok t ↔ '.' ∉ t.controller.toList ∧ '#' ∉ t.action.toList := by
    rw [ofText_eq_ok_iff, toList_dotText]
    exact split?_second_iff hsplit rfl (by decide)
  refine ⟨hdot, fun hhash => hdot.2 ⟨?_, not_mem_action hsplit rfl hhash⟩, ?_⟩
  · obtain ⟨a, b, hfound, hsides⟩ := exists_foundIn hsplit
    rw [(ofSides_eq_some_iff.1 hsides).2.2.1, Text.mem_trim_iff rfl]
    cases hfound with
    | first heq _ => exact absurd (heq ▸ List.mem_append_right a List.mem_cons_self) hhash
    | second _ _ ha => exact ha
  · rw [ofText_eq_ok_iff, toList_hashText]
    exact split?_first hsplit rfl

theorem ofText_dotText_spaced : ofText " Pages . index.html " = .ok ⟨"Pages", "index.html"⟩ ∧
    ofText "Pages.index.html" = .ok ⟨"Pages", "index.html"⟩ := by
  have hread : ofText " Pages . index.html " = .ok ⟨"Pages", "index.html"⟩ := by decide
  exact ⟨hread, (ofText_dotText_iff hread).2.1 (by decide)⟩

/-- A default with a dot in front of its hash is shown as a text that names another target. -/
theorem ofText_dotText_moved : ofText "A.b#c" = .ok ⟨"A.b", "c"⟩ ∧
    dotText ⟨"A.b", "c"⟩ = "A.b.c" ∧ ofText "A.b.c" = .ok ⟨"A", "b.c"⟩ ∧
    ¬ ∀ v t, ofText v = .ok t → ofText t.dotText = .ok t := by
  have hread : ofText "A.b#c" = .ok ⟨"A.b", "c"⟩ := by decide
  have hshown : ofText (dotText ⟨"A.b", "c"⟩) = .ok ⟨"A", "b.c"⟩ := by decide
  refine ⟨hread, by decide, hshown, fun hall => ?_⟩
  have hback := hall _ _ hread
  rw [hshown] at hback
  exact absurd hback (by decide)

end Routes.Target
