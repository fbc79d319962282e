import Routes.Proofs.RouteData.InPlace
import Routes.Proofs.Text.Blank
/-!
Targets as they are written. A configured default and a registration know the same two notations of
a target, but the one looks for the hash first and the other for the dot. Main statement: they read
a text alike just where it does not hold both marks, or where neither reads anything in it.
-/
namespace Routes

namespace Target
open Text (AllBlank cut? trim)
variable {cs front mid back a b : List Char} {mark mark' : Char} {t : Target} {v : String}

/-- The two sides of a mark, if neither is blank. -/
def ofSides (a b : List Char) : Option Target :=
  if AllBlank a ∨ AllBlank b then none
  else some ⟨String.ofList (trim a), String.ofList (trim b)⟩

theorem split?_eq (mark mark' : Char) (cs : List Char) : split? mark mark' cs =
    ((cut? mark cs).or (cut? mark' cs)).bind fun (a, b) => ofSides a b := by
  rw [split?]
  cases (cut? mark cs).or (cut? mark' cs) with
  | none => rfl
  | some ab =>
    obtain ⟨a, b⟩ := ab
    simp only [Option.bind_some, ofSides, ← Text.trim_eq_nil_iff, Bool.or_eq_true,
      List.isEmpty_iff]

/-- The mark that is looked for first is the one that counts, wherever the other stands. -/
theorem split?_append_cons (h : mark ∉ a) (mark' : Char) (b : List Char) :
    split? mark mark' (a ++ mark :: b) = ofSides a b := by
  rw [split?_eq, Text.cut?_append_cons h, Option.some_or, Option.bind_some]

/-- Where both marks stand in a text, the order in which they are looked for makes no difference
only if the text is blank on the outside of them. -/
theorem split?_comm_iff (hmark : Text.isBlank mark = false) (hmark' : Text.isBlank mark' = false)
    (hne : mark ≠ mark') (hfront : mark ∉ front) (hfront' : mark' ∉ front) (hmid : mark' ∉ mid) :
    split? mark mark' (front ++ mark :: (mid ++ mark' :: back)) =
      split? mark' mark (front ++ mark :: (mid ++ mark' :: back)) ↔
      AllBlank front ∧ AllBlank back := by
  have hfull : ∀ {c} (x y : List Char), Text.isBlank c = false → ¬ AllBlank (x ++ c :: y) :=
    fun x _ hc hblank => hblank.not_mem hc (List.mem_append_right x List.mem_cons_self)
  have hsecond : split? mark' mark (front ++ mark :: (mid ++ mark' :: back)) =
      ofSides (front ++ mark :: mid) back := by
    rw [← List.cons_append, ← List.append_assoc]
    refine split?_append_cons ?_ mark back
    rw [List.mem_append, List.mem_cons, not_or, not_or]
    exact ⟨hfront', Ne.symm hne, hmid⟩
  have hcontroller : String.ofList (trim front) ≠ String.ofList (trim (front ++ mark :: mid)) := by
    intro htrim
    rw [String.ofList_inj] at htrim
    refine hfront ((Text.mem_trim_iff hmark).1 (htrim ▸ ?_))
    exact (Text.mem_trim_iff hmark).2 (List.mem_append_right front List.mem_cons_self)
  rw [split?_append_cons hfront, hsecond]
  simp only [ofSides, hfull mid back hmark', hfull front mid hmark, or_false, false_or]
  by_cases hfrontBlank : AllBlank front <;> by_cases hbackBlank : AllBlank back
  · simp [hfrontBlank, hbackBlank]
  · simp [hfrontBlank, hbackBlank]
  · simp [hfrontBlank, hbackBlank]
  · simp [hfrontBlank, hbackBlank, hcontroller]

/-- Two marks with white space alone outside of them. -/
def IsHollow (mark mark' : Char) (cs : List Char) : Prop :=
  ∃ front mid back, cs = front ++ mark :: (mid ++ mark' :: back) ∧ mark' ∉ mid ∧
    AllBlank front ∧ AllBlank back

/-- The first of two marks, and the first of the other kind behind it. -/
theorem exists_first_mark (h : mark ∈ cs) (h' : mark' ∈ cs) (hne : mark ≠ mark') :
    ∃ front mid back, mark ∉ front ∧ mark' ∉ front ∧
      (cs = front ++ mark :: (mid ++ mark' :: back) ∧ mark' ∉ mid ∨
        cs = front ++ mark' :: (mid ++ mark :: back) ∧ mark ∉ mid) := by
  obtain ⟨front, rest, rfl, hfront⟩ := List.eq_append_cons_of_mem h
  by_cases hmem : mark' ∈ front
  · obtain ⟨front, mid, rfl, hfront'⟩ := List.eq_append_cons_of_mem hmem
    rw [List.mem_append, List.mem_cons, not_or, not_or] at hfront
    exact ⟨front, mid, rest, hfront.1, hfront', .inr ⟨by simp, hfront.2.2⟩⟩
  · have hrest : mark' ∈ rest := by
      simpa [hmem, hne.symm] using h'
    obtain ⟨mid, back, rfl, hmid⟩ := List.eq_append_cons_of_mem hrest
    exact ⟨front, mid, back, hfront, hmem, .inl ⟨rfl, hmid⟩⟩

theorem IsHollow.split?_comm (h : IsHollow mark mark' cs) (hmark : Text.isBlank mark = false)
    (hmark' : Text.isBlank mark' = false) (hne : mark ≠ mark') :
    split? mark mark' cs = split? mark' mark cs := by
  obtain ⟨front, mid, back, rfl, hmid, hfront, hback⟩ := h
  exact (split?_comm_iff hmark hmark' hne (hfront.not_mem hmark)
    (hfront.not_mem hmark') hmid).2 ⟨hfront, hback⟩

theorem split?_eq_comm_iff (hmark : Text.isBlank mark = false) (hmark' : Text.isBlank mark' = false)
    (hne : mark ≠ mark') : split? mark mark' cs = split? mark' mark cs ↔
      mark ∉ cs ∨ mark' ∉ cs ∨ IsHollow mark mark' cs ∨ IsHollow mark' mark cs := by
  constructor
  · intro heq
    by_cases h : mark ∈ cs
    · by_cases h' : mark' ∈ cs
      · obtain ⟨front, mid, back, hfront, hfront', ⟨rfl, hmid⟩ | ⟨rfl, hmid⟩⟩ :=
          exists_first_mark h h' hne
        · have hblank := (split?_comm_iff hmark hmark' hne hfront hfront' hmid).1 heq
          exact .inr (.inr (.inl ⟨front, mid, back, rfl, hmid, hblank⟩))
        · have hblank := (split?_comm_iff hmark' hmark hne.symm hfront' hfront hmid).1 heq.symm
          exact .inr (.inr (.inr ⟨front, mid, back, rfl, hmid, hblank⟩))
      · exact .inr (.inl h')
    · exact .inl h
  · rintro (h | h' | hhollow | hhollow)
    · rw [split?_eq, split?_eq, Text.cut?_eq_none h, Option.none_or, Option.or_none]
    · rw [split?_eq, split?_eq, Text.cut?_eq_none h', Option.none_or, Option.or_none]
    · exact hhollow.split?_comm hmark hmark' hne
    · exact (hhollow.split?_comm hmark' hmark hne.symm).symm

end Target

namespace RouteData
variable {d : RouteData} {method path v : String}

/-- No segment of a path is a colon without a name. -/
def IsRoute (path : String) : Prop := [':'] ∉ routePieces path

instance (path : String) : Decidable (IsRoute path) :=
  inferInstanceAs (Decidable ([':'] ∉ routePieces path))

theorem addRoute_eq_error (h : Target.split? '.' '#' v.toList = none) (d : RouteData)
    (method path : String) : d.addRoute method path v = .error (.invalidRouteEntry v) := by
  rw [addRoute, h]

theorem addRoute_eq_ok {t : Target} (h : Target.split? '.' '#' v.toList = some t)
    (hpath : IsRoute path) (d : RouteData) (method : String) :
    ∃ d' a, d.addRoute method path v = .ok d' ∧
      d'.entries = d.entries ++ [(t.controller, a)] ∧ a.name = t.action := by
  have hregister := register_eq d ⟨method, path, v⟩
  simp only [register, RouteText.entry, h] at hregister
  rw [if_neg hpath] at hregister
  exact ⟨_, _, hregister, (extends_extend d _).entries, rfl⟩

end RouteData

namespace Target
variable {v : String}

/-- A registration and a configured default make the same of a text: nothing, or the same target. -/
def ReadAlike (v : String) : Prop :=
  ∀ (d : RouteData) (method path : String), RouteData.IsRoute path →
    ((∃ e, d.addRoute method path v = .error e) ∧ ∃ e, ofText v = .error e) ∨
      ∃ t d' a, ofText v = .ok t ∧ d.addRoute method path v = .ok d' ∧
        d'.entries = d.entries ++ [(t.controller, a)] ∧ a.name = t.action

theorem ofText_eq_ok_iff {t : Target} : ofText v = .ok t ↔ split? '#' '.' v.toList = some t := by
  rw [ofText]
  cases split? '#' '.' v.toList <;> simp

theorem ofText_eq_error (h : split? '#' '.' v.toList = none) :
    ofText v = .error (.invalidDefaultAction v) := by
  rw [ofText, h]

theorem readAlike_iff_split? :
    ReadAlike v ↔ split? '.' '#' v.toList = split? '#' '.' v.toList := by
  constructor
  · intro h
    have hread := h .empty "" "" (by decide)
    cases htarget : split? '.' '#' v.toList with
    | none =>
      have hadd := RouteData.addRoute_eq_error htarget .empty "" ""
      rcases hread with ⟨-, e, htext⟩ | ⟨t, d', a, -, hadd', -⟩
      · cases hdefault : split? '#' '.' v.toList with
        | none => rfl
        | some t =>
          rw [ofText_eq_ok_iff.2 hdefault] at htext
          cases htext
      · rw [hadd] at hadd'
        cases hadd'
    | some t =>
      have hroute : RouteData.IsRoute "" := by decide
      obtain ⟨d', a, hadd, hentries, hname⟩ := RouteData.addRoute_eq_ok htarget hroute .empty ""
      rcases hread with ⟨⟨e, hadd'⟩, -⟩ | ⟨t', d'', a', htext, hadd', hentries', hname'⟩
      · rw [hadd] at hadd'
        cases hadd'
      · rw [hadd] at hadd'
        cases hadd'
        rw [hentries, List.append_cancel_left_eq, List.singleton_inj, Prod.mk.injEq] at hentries'
        obtain ⟨hcontroller, rfl⟩ := hentries'
        have ht : t = t' := by
          cases t
          cases t'
          rw [Target.mk.injEq]
          exact ⟨hcontroller, hname.symm.trans hname'⟩
        rw [ht, ofText_eq_ok_iff.1 htext]
  · intro h d method path hpath
    cases htarget : split? '.' '#' v.toList with
    | none =>
      have hadd := RouteData.addRoute_eq_error htarget d method path
      exact .inl ⟨⟨_, hadd⟩, _, ofText_eq_error (h ▸ htarget)⟩
    | some t =>
      obtain ⟨d', a, hadd, hentries, hname⟩ := RouteData.addRoute_eq_ok htarget hpath d method
      exact .inr ⟨t, d', a, ofText_eq_ok_iff.2 (h ▸ htarget), hadd, hentries, hname⟩

/-- A text is read in two ways if it holds both marks and is not blank outside of them. -/
theorem readAlike_iff : ReadAlike v ↔ '.' ∉ v.toList ∨ '#' ∉ v.toList ∨
    IsHollow '.' '#' v.toList ∨ IsHollow '#' '.' v.toList :=
  readAlike_iff_split?.trans (split?_eq_comm_iff rfl rfl (by decide))

/-- With the hash in front of the dot, what a default takes for the name of a controller is half of
what a registration takes for it. -/
theorem not_readAlike_hash_dot : ofText "A#b.c" = .ok ⟨"A", "b.c"⟩ ∧
    RouteData.empty.addRoute "GET" "/x" "A#b.c" =
      .ok ⟨[⟨"A#b", [⟨"c", "GET", [.literal "x"], []⟩]⟩], none⟩ ∧ ¬ ReadAlike "A#b.c" := by
  refine ⟨by decide, by decide, ?_⟩
  rw [readAlike_iff_split?]
  decide

end Target
end Routes
