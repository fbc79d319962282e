import Routes.Proofs.Declaration.Compile
import Routes.Proofs.Dispatch.History
import Routes.Proofs.RouteData.Spelling
import Routes.Proofs.Table.Defect
import Routes.Proofs.Table.Link
import Routes.Table.Load
/-!
What can go wrong between a source and its table. Main statement: only the source itself, its choice
of a default, or a default action of the settings that is needed and cannot be read; a table that is
loaded holds identifiers and literals as the language has them.
-/
namespace Routes
open Token (IsRun IsIdent)

/-- The faults of a source and of the settings for its table. The first that is found counts. -/
inductive Table.Fault (source : String) (s : Settings) : LoadError → Prop
  | scan {e} : Token.scan source = .error e → Fault source s (.scan e)
  | parse {tokens e} : Token.scan source = .ok tokens → Declarations.ofTokens tokens = .error e →
      Fault source s (.parse e)
  | multipleDefaults {ds first second} : Declarations.ofSource source = .ok ds →
      ds.defaultTarget = .error (.multipleDefaults first second) →
      Fault source s (.compile (.multipleDefaults first second))
  | emptyDefaultController {ds controller} : Declarations.ofSource source = .ok ds →
      ds.defaultTarget = .error (.emptyDefaultController controller) →
      Fault source s (.compile (.emptyDefaultController controller))
  | invalidDefaultAction {d} : RouteData.ofSource source = .ok d → d.default = none →
      Target.split? '#' '.' s.defaultAction.toList = none →
      Fault source s (.compile (.invalidDefaultAction s.defaultAction))

/-- A route as a source can declare it; its controller is qualified. -/
structure Route.Spelled (s : Settings) (r : Route) : Prop where
  controller : ∃ name : String, IsIdent name.toList ∧ r.controller = s.qualify name
  action : IsIdent r.action.toList
  literals : ∀ text, Segment.literal text ∈ r.pattern → IsRun text.toList
  params : ∀ name ∈ r.params, IsIdent name.toList
  captures : r.pattern.captureCount = r.params.length

/-- A table as a source can declare it. A default of its own is a pair of identifiers. -/
structure Table.Spelled (d : RouteData) (s : Settings) (t : Table) : Prop where
  controllers : ∀ c ∈ d.controllers, IsIdent c.name.toList
  routes : ∀ r ∈ t.routes, r.Spelled s
  default : ∀ target, d.default = some target → IsIdent target.controller.toList ∧
    IsIdent target.action.toList ∧ t.default = ⟨s.qualify target.controller, target.action⟩

variable {source : String} {s : Settings} {d : RouteData} {t : Table} {store : FileStore}
  {e : LoadError}

/-- A default is declared twice, or a controller without actions is marked. -/
theorem Declarations.eq_of_defaultTarget_eq_error {ds : Declarations} {e : CompileError}
    (h : ds.defaultTarget = .error e) : (∃ first second, e = .multipleDefaults first second) ∨
      ∃ controller, e = .emptyDefaultController controller := by
  have hchooses := ds.chooses_defaultTarget
  rw [h] at hchooses
  cases hchooses with
  | vacant => exact .inr ⟨_, rfl⟩
  | _ => exact .inl ⟨_, _, rfl⟩

/-- A source cannot spell an action with a defect. -/
theorem RouteData.Spelled.isSound (hd : d.Spelled) : d.IsSound := by
  intro c hc a ha
  have haction := (hd.controllers c hc).actions a ha
  obtain ⟨v, hv⟩ := haction.verb
  have hmethod : ∃ m : Method, m.name.toList = Text.upper a.method.toList := by
    rw [hv]
    cases v
    · exact ⟨.get, by decide⟩
    · exact ⟨.post, by decide⟩
    · exact ⟨.put, by decide⟩
    · exact ⟨.delete, by decide⟩
  exact ⟨hmethod, haction.captures.symm, fun hmem => (haction.params "" hmem).ne_empty rfl⟩

namespace Table

/-- Only the default can be at fault where a table is built from the data of a source. -/
theorem build_eq_error_iff (hd : d.Spelled) {e : CompileError} : build d s = .error e ↔
    d.default = none ∧ Target.split? '#' '.' s.defaultAction.toList = none ∧
      e = .invalidDefaultAction s.defaultAction := by
  obtain ⟨rs, hrs⟩ := (RouteData.exists_mapM_entries_iff (s := s)).2 hd.isSound
  have hbuild : build d s = (defaultTarget d s).map fun default =>
      ⟨rs.foldl (fun gs r => insert r gs) [], ⟨s.qualify default.controller, default.action⟩,
        s.baseUrl, s.nspace⟩ := by
    rw [build, hrs]
    cases defaultTarget d s <;> rfl
  rw [hbuild, map_eq_error, defaultTarget]
  cases d.default with
  | some target => simp
  | none =>
    cases hsplit : Target.split? '#' '.' s.defaultAction.toList with
    | some target => simp [Target.ofText, hsplit]
    | none => simp [Target.ofText, hsplit, eq_comm]

theorem fault_of_ofSource (h : ofSource source s = .error e) : Fault source s e := by
  cases hscan : Token.scan source with
  | error _ =>
    rw [ofSource, RouteData.ofSource, Declarations.ofSource, hscan] at h
    cases h
    exact .scan hscan
  | ok tokens =>
    have hds := Declarations.ofSource_of_scan hscan
    cases hparse : Declarations.ofTokens tokens with
    | error _ =>
      rw [ofSource, RouteData.ofSource, hds, hparse] at h
      cases h
      exact .parse hscan hparse
    | ok ds =>
      replace hds : Declarations.ofSource source = .ok ds := by rw [hds, hparse]; rfl
      obtain ⟨bs, hbs, hcompile⟩ := (Declarations.spelled_of_ofSource hds).compile_eq
      have hd := RouteData.ofSource_of_declarations hds
      rw [hcompile] at hd
      cases hdefault : ds.defaultTarget with
      | error ce =>
        rw [ofSource, hd, hdefault] at h
        cases h
        rcases Declarations.eq_of_defaultTarget_eq_error hdefault with ⟨_, _, rfl⟩ | ⟨_, rfl⟩
        · exact .multipleDefaults hds hdefault
        · exact .emptyDefaultController hds hdefault
      | ok default =>
        replace hd : RouteData.ofSource source = .ok ⟨bs, default⟩ := by rw [hd, hdefault]; rfl
        rw [ofSource_of_data hd] at h
        obtain ⟨ce, hbuild, rfl⟩ := mapError_eq_error.1 h
        have hspelled := RouteData.spelled_of_ofSource hd
        obtain ⟨hnone, hsplit, rfl⟩ := (build_eq_error_iff hspelled).1 hbuild
        exact .invalidDefaultAction hd hnone hsplit

theorem ofSource_of_fault (h : Fault source s e) : ofSource source s = .error e := by
  cases h with
  | scan hscan => rw [ofSource, RouteData.ofSource, Declarations.ofSource, hscan]; rfl
  | parse hscan hparse =>
    rw [ofSource, RouteData.ofSource, Declarations.ofSource_of_scan hscan, hparse]; rfl
  | multipleDefaults hds hdefault | emptyDefaultController hds hdefault =>
    obtain ⟨_, -, hcompile⟩ := (Declarations.spelled_of_ofSource hds).compile_eq
    rw [ofSource, RouteData.ofSource_of_declarations hds, hcompile, hdefault]; rfl
  | invalidDefaultAction hd hnone hsplit =>
    have hbuild := (build_eq_error_iff (RouteData.spelled_of_ofSource hd)).2 ⟨hnone, hsplit, rfl⟩
    rw [ofSource_of_data hd, hbuild]; rfl

theorem spelled_of_build (hd : d.Spelled) (h : build d s = .ok t) : Table.Spelled d s t := by
  refine ⟨fun c hc => (hd.controllers c hc).name.isIdent, fun r hr => ?_, fun target htarget => ?_⟩
  · obtain ⟨e, he, m, -, rfl⟩ := entry_of_mem_routes h hr
    obtain ⟨c, hc, a, ha, rfl⟩ := RouteData.mem_entries_iff.1 he
    have haction := (hd.controllers c hc).actions a ha
    exact ⟨⟨c.name, (hd.controllers c hc).name.isIdent, rfl⟩, haction.name.isIdent,
      haction.literals, fun name hname => (haction.params name hname).isIdent, haction.captures⟩
  · obtain ⟨hcontroller, haction⟩ := hd.default target htarget
    obtain ⟨target', hdefault, ht⟩ := default_build h
    rw [defaultTarget, htarget] at hdefault
    cases hdefault
    exact ⟨hcontroller.isIdent, haction.isIdent, ht⟩

/-- A source is loaded as a table unless it is at fault, and what is loaded is spelled as the
language has it. -/
theorem load_eq_error_iff_fault (h : store.holdsFile source = false) (s : Settings) :
    (∀ e, load store source s = .error e ↔ Fault source s e) ∧
      ∀ t, load store source s = .ok t →
        ∃ d, RouteData.ofSource source = .ok d ∧ build d s = .ok t ∧ Table.Spelled d s t := by
  have hload : load store source s = ofSource source s := by
    rw [load, if_neg (by rw [h]; exact Bool.false_ne_true)]
  rw [hload]
  refine ⟨fun e => ⟨fault_of_ofSource, ofSource_of_fault⟩, fun t ht => ?_⟩
  obtain ⟨d, hd, hbuild⟩ := ofSource_eq_ok.1 ht
  exact ⟨d, hd, hbuild, spelled_of_build (RouteData.spelled_of_ofSource hd) hbuild⟩

/-- The source of a table beside a file that it does not name. -/
def noteStore : FileStore := .ofFiles ["home"] [("notes/routes", .text "")]

theorem load_note : noteStore.holdsFile noteSource = false ∧
    (∃ t d, load noteStore noteSource noteSettings = .ok t ∧ Table.Spelled d noteSettings t) ∧
      Fault noteSource ⟨"", "", "Notes"⟩ (.compile (.invalidDefaultAction "Notes")) := by
  have hfile : noteStore.holdsFile noteSource = false := by decide +kernel
  refine ⟨hfile, ?_, ?_⟩
  · have hok : (load noteStore noteSource noteSettings).isOk = true := by decide +kernel
    cases hload : load noteStore noteSource noteSettings with
    | error e => simp [hload, Except.isOk, Except.toBool] at hok
    | ok t =>
      obtain ⟨d, -, -, hspelled⟩ := (load_eq_error_iff_fault hfile noteSettings).2 t hload
      exact ⟨t, d, rfl, hspelled⟩
  · have herror : (((load noteStore noteSource ⟨"", "", "Notes"⟩).map fun _ => none).tryCatch
        fun e => .ok (some e)).toOption = some (some (.compile (.invalidDefaultAction "Notes"))) := by
      decide +kernel
    refine ((load_eq_error_iff_fault hfile ⟨"", "", "Notes"⟩).1 _).1 ?_
    cases hload : load noteStore noteSource ⟨"", "", "Notes"⟩ with
    | error e =>
      rw [hload] at herror
      exact congrArg Except.error (Option.some.inj (Option.some.inj herror))
    | ok t =>
      rw [hload] at herror
      cases herror

end Table
end Routes
