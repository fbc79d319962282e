import Mathlib.Data.List.Destutter
import Mathlib.Data.List.Forall2
import Routes.Proofs.RouteData.Source
/-!
What declarations are compiled to, whatever they hold. Main statement: the first action with an
unnamed parameter is reported, if there is one. Otherwise each controller and each action is
compiled by itself, and the default is the declared one, or else the one pair that all marks stand
for.
-/
namespace Routes

/-- The parts of a URL, the segments they become, and the names of its parameters. -/
inductive UrlPart.Become : List UrlPart → Pattern → List String → Prop
  | nil : Become [] [] []
  | literal {text parts segments names} : Become parts segments names →
      Become (.literal text :: parts) (.literal text :: segments) names
  | param {name kind parts segments names} : Become parts segments names →
      Become (.param name kind :: parts) (.capture kind :: segments) (name :: names)

namespace ActionDecl

def HasUnnamed (a : ActionDecl) : Prop := ∃ kind, .param "" kind ∈ a.url.parts

structure CompilesTo (a : ActionDecl) (b : Action) : Prop where
  name : b.name = a.name
  method : b.method = a.verb.name
  parts : UrlPart.Become a.url.parts b.pattern b.params

end ActionDecl

namespace ControllerDecl

structure CompilesTo (c : ControllerDecl) (b : Controller) : Prop where
  name : b.name = c.name
  actions : List.Forall₂ ActionDecl.CompilesTo c.actions b.actions

/-- A controller that is marked and has no action to stand for. -/
def IsVacant (c : ControllerDecl) : Prop := c.isDefault = true ∧ c.actions = []

/-- What the marks of a controller stand for: its first action for its own, then each marked
action. -/
def marked (c : ControllerDecl) : List Target :=
  ((if c.isDefault then c.actions.head?.toList else []) ++ c.actions.filter (·.isDefault)).map
    fun a => ⟨c.name, a.name⟩

end ControllerDecl

def DefaultDecl.target (d : DefaultDecl) : Target := ⟨d.controller, d.action⟩

namespace Declarations

def IsNamed (ds : Declarations) : Prop := ∀ c ∈ ds.controllers, ∀ a ∈ c.actions, ¬a.HasUnnamed

/-- The first action with an unnamed parameter: the controllers in front of its own have none, and
neither have the actions in front of it. -/
inductive FirstUnnamed (ds : Declarations) : String → String → Prop
  | mk {cs cs' : List ControllerDecl} {c : ControllerDecl} {as as' : List ActionDecl}
      {a : ActionDecl} : ds.controllers = cs ++ c :: cs' →
      (∀ c' ∈ cs, ∀ a' ∈ c'.actions, ¬a'.HasUnnamed) → c.actions = as ++ a :: as' →
      (∀ a' ∈ as, ¬a'.HasUnnamed) → a.HasUnnamed → FirstUnnamed ds c.name a.name

/-- What all marks stand for, in the order of the source. -/
def marked (ds : Declarations) : List Target := ds.controllers.flatMap ControllerDecl.marked

/-- Declarations without a default of their own, in which every mark stands for something. -/
structure IsMarked (ds : Declarations) : Prop where
  defaults : ds.defaults = []
  occupied : ∀ c ∈ ds.controllers, ¬c.IsVacant

/-- How the default is chosen. Marks count only where no default is declared. -/
inductive Chooses (ds : Declarations) : Except CompileError (Option Target) → Prop
  | declared {d} : ds.defaults = [d] → Chooses ds (.ok (some d.target))
  | declaredTwice {d d' rest} : ds.defaults = d :: d' :: rest →
      Chooses ds (.error (.multipleDefaults d.target.hashText d'.target.hashText))
  | vacant {cs c cs'} : ds.defaults = [] → ds.controllers = cs ++ c :: cs' →
      (∀ c' ∈ cs, ¬c'.IsVacant) → c.IsVacant →
      Chooses ds (.error (.emptyDefaultController c.name))
  | unmarked : ds.IsMarked → ds.marked = [] → Chooses ds (.ok none)
  | agreed {t} : ds.IsMarked → t ∈ ds.marked → (∀ u ∈ ds.marked, u = t) → Chooses ds (.ok (some t))
  | disputed {t u} : ds.IsMarked → t ∈ ds.marked → u ∈ ds.marked → t ≠ u →
      Chooses ds (.error (.multipleDefaults t.hashText u.hashText))

end Declarations

section Names
variable {a : ActionDecl} {b : Action} {c : ControllerDecl} {controller : String} {e : CompileError}

theorem Url.become (u : Url) : UrlPart.Become u.parts u.segments u.names := by
  unfold segments names
  induction u.parts with
  | nil => exact .nil
  | cons p ps ih =>
    cases p with
    | literal => exact .literal ih
    | param => exact .param ih

theorem ActionDecl.contains_names_iff : a.url.names.contains "" = true ↔ a.HasUnnamed := by
  rw [List.contains_iff_mem, Url.names, List.mem_filterMap, HasUnnamed]
  constructor
  · rintro ⟨p, hp, hname⟩
    cases p with
    | literal => cases hname
    | param name kind =>
      cases hname
      exact ⟨kind, hp⟩
  · rintro ⟨kind, hp⟩
    exact ⟨_, hp, rfl⟩

theorem ActionDecl.compile_eq_ok_iff : a.compile controller = .ok b ↔
    ¬a.HasUnnamed ∧ b = ⟨a.name, a.verb.name, a.url.segments, a.url.names⟩ := by
  rw [compile, ← contains_names_iff]
  split <;> simp_all [eq_comm]

theorem ActionDecl.compile_eq_error_iff : a.compile controller = .error e ↔
    a.HasUnnamed ∧ e = .missingParamName controller a.name := by
  rw [compile, ← contains_names_iff]
  split <;> simp_all [eq_comm]

theorem ActionDecl.exists_compile_iff : (∃ b, a.compile controller = .ok b) ↔ ¬a.HasUnnamed := by
  simp only [compile_eq_ok_iff, exists_and_left, exists_eq, and_true]

theorem ControllerDecl.exists_compile_iff :
    (∃ b, c.compile = .ok b) ↔ ∀ a ∈ c.actions, ¬a.HasUnnamed := by
  have hacts (a : ActionDecl) : (∃ b, a.compile c.name = .ok b) ↔ ¬a.HasUnnamed :=
    ActionDecl.exists_compile_iff
  simp only [← hacts, ← exists_mapM_eq_ok_iff, compile, bind_eq_ok, pure_eq_ok]
  constructor
  · rintro ⟨b, as, has, -⟩
    exact ⟨as, has⟩
  · rintro ⟨as, has⟩
    exact ⟨_, as, has, rfl⟩

theorem ControllerDecl.compile_eq_error_iff : c.compile = .error e ↔
    ∃ as a as', c.actions = as ++ a :: as' ∧ (∀ a' ∈ as, ¬a'.HasUnnamed) ∧ a.HasUnnamed ∧
      e = .missingParamName c.name a.name := by
  simp only [compile, bind_eq_error_iff, pure, Except.pure, reduceCtorEq, and_false, exists_false,
    or_false, mapM_eq_error_iff, ActionDecl.exists_compile_iff, ActionDecl.compile_eq_error_iff]

theorem forall₂_of_mapM {α β ε : Type} {f : α → Except ε β} {R : α → β → Prop} {as : List α}
    {bs : List β} (h : as.mapM f = .ok bs) (hR : ∀ a b, f a = .ok b → R a b) :
    List.Forall₂ R as bs := by
  induction as generalizing bs with
  | nil =>
    rw [mapM_nil_eq_ok.1 h]
    exact .nil
  | cons a as ih =>
    obtain ⟨b, rest, hb, hrest, rfl⟩ := mapM_cons_eq_ok.1 h
    exact .cons (hR a b hb) (ih hrest)

theorem ActionDecl.compilesTo_of_compile (h : a.compile controller = .ok b) : a.CompilesTo b := by
  obtain ⟨-, rfl⟩ := compile_eq_ok_iff.1 h
  exact ⟨rfl, rfl, a.url.become⟩

theorem ControllerDecl.compilesTo_of_compile {b : Controller} (h : c.compile = .ok b) :
    c.CompilesTo b := by
  obtain ⟨as, has, h⟩ := bind_eq_ok.1 h
  obtain rfl := pure_eq_ok.1 h
  exact ⟨rfl, forall₂_of_mapM has fun _ _ => ActionDecl.compilesTo_of_compile⟩

end Names

namespace Declarations
variable {ds : Declarations} {e : CompileError} {controller action : String}

theorem mapM_compile_eq_error_iff : ds.controllers.mapM ControllerDecl.compile = .error e ↔
    ∃ controller action, ds.FirstUnnamed controller action ∧
      e = .missingParamName controller action := by
  simp only [mapM_eq_error_iff, ControllerDecl.exists_compile_iff,
    ControllerDecl.compile_eq_error_iff]
  constructor
  · rintro ⟨cs, c, cs', hcs, hfront, as, a, as', has, hbefore, ha, rfl⟩
    exact ⟨_, _, ⟨hcs, hfront, has, hbefore, ha⟩, rfl⟩
  · rintro ⟨_, _, ⟨hcs, hfront, has, hbefore, ha⟩, rfl⟩
    exact ⟨_, _, _, hcs, hfront, _, _, _, has, hbefore, ha, rfl⟩

theorem exists_mapM_compile_iff :
    (∃ cs, ds.controllers.mapM ControllerDecl.compile = .ok cs) ↔ ds.IsNamed := by
  simp only [exists_mapM_eq_ok_iff, ControllerDecl.exists_compile_iff, IsNamed]

end Declarations

section Marks
variable {c : ControllerDecl} {ds : Declarations} {ts : List Target} {e : CompileError}

theorem ControllerDecl.marks_eq (c : ControllerDecl) :
    (c.IsVacant ∧ c.marks = .error (.emptyDefaultController c.name)) ∨
      (¬c.IsVacant ∧ c.marks = .ok c.marked) := by
  obtain ⟨name, actions, isDefault, position⟩ := c
  cases isDefault with
  | false => exact .inr ⟨fun h => Bool.false_ne_true h.1, rfl⟩
  | true =>
    cases actions with
    | nil => exact .inl ⟨⟨rfl, rfl⟩, rfl⟩
    | cons a as => exact .inr ⟨fun h => List.cons_ne_nil a as h.2, rfl⟩

theorem ControllerDecl.marks_eq_ok (h : c.marks = .ok ts) : ¬c.IsVacant ∧ ts = c.marked := by
  rcases c.marks_eq with ⟨-, hmarks⟩ | ⟨hoccupied, hmarks⟩
  · cases h.symm.trans hmarks
  · exact ⟨hoccupied, Except.ok.inj (h.symm.trans hmarks)⟩

theorem ControllerDecl.marks_eq_error (h : c.marks = .error e) :
    c.IsVacant ∧ e = .emptyDefaultController c.name := by
  rcases c.marks_eq with ⟨hvacant, hmarks⟩ | ⟨-, hmarks⟩
  · exact ⟨hvacant, Except.error.inj (h.symm.trans hmarks)⟩
  · cases h.symm.trans hmarks

theorem flatten_of_mapM_marks {cs : List ControllerDecl} {ms : List (List Target)}
    (h : cs.mapM ControllerDecl.marks = .ok ms) :
    (∀ c ∈ cs, ¬c.IsVacant) ∧ ms.flatten = cs.flatMap ControllerDecl.marked := by
  induction cs generalizing ms with
  | nil =>
    rw [mapM_nil_eq_ok.1 h]
    simp
  | cons c cs ih =>
    obtain ⟨m, rest, hm, hrest, rfl⟩ := mapM_cons_eq_ok.1 h
    obtain ⟨hc, rfl⟩ := ControllerDecl.marks_eq_ok hm
    obtain ⟨hcs, hflatten⟩ := ih hrest
    exact ⟨List.forall_mem_cons.2 ⟨hc, hcs⟩, by rw [List.flatten_cons, hflatten, List.flatMap_cons]⟩

theorem mem_dropRepeats_iff {t : Target} : t ∈ dropRepeats ts ↔ t ∈ ts := by
  refine ⟨mem_of_mem_dropRepeats, fun h => ?_⟩
  fun_induction dropRepeats ts with
  | case1 a rest ih =>
    refine ih ?_
    rcases List.mem_cons.1 h with rfl | h
    · exact List.mem_cons_self
    · exact h
  | case2 a b rest hne ih =>
    rcases List.mem_cons.1 h with rfl | h
    · exact List.mem_cons_self
    · exact List.mem_cons_of_mem a (ih h)
  | case3 => exact h

theorem dropRepeats_eq_destutter (ts : List Target) : dropRepeats ts = ts.destutter (· ≠ ·) := by
  fun_induction dropRepeats ts with
  | case1 a rest ih =>
    rw [ih, List.destutter_cons_cons, if_neg (not_not.2 rfl), List.destutter_cons']
  | case2 a b rest hne ih => rw [ih, List.destutter_cons_cons, if_pos hne, List.destutter_cons']
  | case3 ts hts =>
    cases ts with
    | nil => rfl
    | cons a ts =>
      cases ts with
      | nil => rfl
      | cons b rest => exact absurd rfl (hts a b rest)

/-- Equal targets may be left, but never as neighbours. -/
theorem ne_of_dropRepeats {t u : Target} {rest : List Target} (h : dropRepeats ts = t :: u :: rest) :
    t ≠ u := by
  have hchain := List.isChain_destutter (· ≠ ·) ts
  rw [← dropRepeats_eq_destutter, h] at hchain
  exact (List.isChain_cons_cons.1 hchain).1

theorem Declarations.chooses_defaultTarget (ds : Declarations) : ds.Chooses ds.defaultTarget := by
  unfold defaultTarget
  split
  · rename_i d hd
    exact .declared hd
  · rename_i d d' rest hd
    exact .declaredTwice hd
  · rename_i hnone
    cases hms : ds.controllers.mapM ControllerDecl.marks with
    | error e =>
      obtain ⟨cs, c, cs', hcs, hfront, hc⟩ := mapM_eq_error_iff.1 hms
      obtain ⟨hvacant, rfl⟩ := ControllerDecl.marks_eq_error hc
      refine .vacant hnone hcs (fun c' hc' => ?_) hvacant
      obtain ⟨ts, hts⟩ := hfront c' hc'
      exact (ControllerDecl.marks_eq_ok hts).1
    | ok ms =>
      obtain ⟨hoccupied, hflatten⟩ := flatten_of_mapM_marks hms
      have hmarked : ds.IsMarked := ⟨hnone, hoccupied⟩
      have hmem : ∀ t, t ∈ dropRepeats ms.flatten ↔ t ∈ ds.marked := by
        intro t
        rw [mem_dropRepeats_iff, hflatten, marked]
      dsimp only [bind, Except.bind]
      split
      · rename_i hts
        refine .unmarked hmarked (List.eq_nil_iff_forall_not_mem.2 fun t ht => ?_)
        rw [← hmem, hts] at ht
        cases ht
      · rename_i t hts
        simp only [hts, List.mem_singleton] at hmem
        exact .agreed hmarked ((hmem t).1 rfl) fun u hu => (hmem u).2 hu
      · rename_i t u rest hts
        have hne := ne_of_dropRepeats hts
        rw [hts] at hmem
        exact .disputed hmarked ((hmem t).1 (by simp)) ((hmem u).1 (by simp)) hne

end Marks

theorem exists_mem_of_forall₂ {α β : Type} {R : α → β → Prop} {as : List α} {bs : List β}
    (h : List.Forall₂ R as bs) {a : α} (ha : a ∈ as) : ∃ b ∈ bs, R a b := by
  induction h with
  | nil => cases ha
  | cons hR _ ih =>
    rcases List.mem_cons.1 ha with rfl | ha
    · exact ⟨_, List.mem_cons_self, hR⟩
    · obtain ⟨b, hb, hab⟩ := ih ha
      exact ⟨b, List.mem_cons_of_mem _ hb, hab⟩

namespace Declarations
variable {ds : Declarations} {e : CompileError} {t : Target}

theorem exists_action_of_mem_marked (h : t ∈ ds.marked) :
    ∃ c ∈ ds.controllers, ∃ a ∈ c.actions, t = ⟨c.name, a.name⟩ := by
  obtain ⟨c, hc, ht⟩ := List.mem_flatMap.1 h
  obtain ⟨a, ha, rfl⟩ := List.mem_map.1 ht
  refine ⟨c, hc, a, ?_, rfl⟩
  rcases List.mem_append.1 ha with ha | ha
  · split at ha
    · exact List.mem_of_mem_head? (Option.mem_toList.1 ha)
    · cases ha
  · exact (List.mem_filter.1 ha).1

/-- A default that is not declared is the target of an action. -/
theorem exists_entry_of_chooses {cs : List Controller} {default : Option Target}
    (hcs : List.Forall₂ ControllerDecl.CompilesTo ds.controllers cs) (hnone : ds.defaults = [])
    (h : ds.Chooses (.ok (some t))) :
    ∃ e ∈ RouteData.entries ⟨cs, default⟩, t = ⟨e.1, e.2.name⟩ := by
  have hmem : t ∈ ds.marked := by
    cases h with
    | declared hd => cases hnone.symm.trans hd
    | agreed _ hmem => exact hmem
  obtain ⟨c, hc, a, ha, rfl⟩ := exists_action_of_mem_marked hmem
  obtain ⟨c', hc', hcompiles⟩ := exists_mem_of_forall₂ hcs hc
  obtain ⟨a', ha', haction⟩ := exists_mem_of_forall₂ hcompiles.actions ha
  refine ⟨(c'.name, a'), RouteData.mem_entries_iff.2 ⟨c', hc', a', ha', rfl⟩, ?_⟩
  rw [hcompiles.name, haction.name]

theorem ne_missing_of_chooses (h : ds.Chooses (.error e)) (controller action : String) :
    e ≠ .missingParamName controller action := by
  cases h <;> exact CompileError.noConfusion

theorem compile_eq_missing_iff {controller action : String} :
    ds.compile = .error (.missingParamName controller action) ↔
      ds.FirstUnnamed controller action := by
  have hdefault : ds.defaultTarget ≠ .error (.missingParamName controller action) := by
    intro h
    have hchoice := ds.chooses_defaultTarget
    rw [h] at hchoice
    exact ne_missing_of_chooses hchoice controller action rfl
  rw [compile]
  simp only [bind_eq_error_iff, mapM_compile_eq_error_iff, hdefault, pure, Except.pure,
    reduceCtorEq, and_false, exists_false, or_false, CompileError.missingParamName.injEq]
  constructor
  · rintro ⟨_, _, hfirst, rfl, rfl⟩
    exact hfirst
  · exact fun hfirst => ⟨_, _, hfirst, rfl, rfl⟩

/-- An unnamed parameter is what is reported first. Where there is none, the controllers and actions
are compiled one by one and in order, and the default decides about success. -/
theorem compile_by_parts (ds : Declarations) :
    (∀ controller action, ds.compile = .error (.missingParamName controller action) ↔
      ds.FirstUnnamed controller action) ∧
    ((∃ controller action, ds.FirstUnnamed controller action) ∨
      ds.IsNamed ∧ ∃ cs r, List.Forall₂ ControllerDecl.CompilesTo ds.controllers cs ∧
        ds.Chooses r ∧ (ds.compile = r.map fun default => ⟨cs, default⟩) ∧
        (ds.defaults = [] → ∀ t, r = .ok (some t) →
          ∃ e ∈ RouteData.entries ⟨cs, some t⟩, t = ⟨e.1, e.2.name⟩)) := by
  refine ⟨fun _ _ => compile_eq_missing_iff, ?_⟩
  cases hcs : ds.controllers.mapM ControllerDecl.compile with
  | error e =>
    obtain ⟨controller, action, hfirst, -⟩ := mapM_compile_eq_error_iff.1 hcs
    exact .inl ⟨controller, action, hfirst⟩
  | ok cs =>
    have hchoice := ds.chooses_defaultTarget
    have hcompiles := forall₂_of_mapM hcs fun _ _ => ControllerDecl.compilesTo_of_compile
    have hcompile : ds.compile = ds.defaultTarget.map fun default => ⟨cs, default⟩ := by
      rw [compile, hcs]
      cases ds.defaultTarget <;> rfl
    refine .inr ⟨exists_mapM_compile_iff.1 ⟨cs, hcs⟩, cs, ds.defaultTarget, hcompiles, hchoice,
      hcompile, fun hnone t ht => ?_⟩
    rw [ht] at hchoice
    exact exists_entry_of_chooses hcompiles hnone hchoice

/-- An action that is marked twice is still one choice, but not if another one comes between. -/
example :
    let action := fun name => (⟨name, .get, ⟨true, []⟩, true, .zero⟩ : ActionDecl)
    (compile ⟨[⟨"C", [action "a", action "a"], true, .zero⟩], []⟩).toOption.bind (·.default) =
        some ⟨"C", "a"⟩ ∧
      defaultTarget ⟨[⟨"C", [action "a", action "b", action "a"], true, .zero⟩], []⟩ =
        .error (.multipleDefaults "C#a" "C#b") := by
  decide

end Declarations
end Routes
