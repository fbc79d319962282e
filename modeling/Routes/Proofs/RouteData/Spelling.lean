import Routes.Proofs.Declaration.Spelling
import Routes.Proofs.RouteData.Source
import Routes.Proofs.Token.Takes
/-!
What route data from a source holds. Main statement: its names are identifiers, its literals are
runs, its methods are those of the language, and each pattern has as many names as captures.
-/
namespace Routes
open Token (IsRun IsIdent isIdentStart isIdentChar)

namespace Token
variable {w : List Char}

/-- Every keyword but the marker is spelled like an identifier, in whatever case. -/
theorem SpellsKeyword.isIdent {k : Keyword} (hw : IsRun w) (h : SpellsKeyword w k) : IsIdent w := by
  have hspelling : k ≠ .marker → k.spelling.toList.all isIdentStart = true := by
    cases k <;> decide
  have hstart : ∀ c ∈ w, isIdentStart c = true := by
    intro c hc
    have hlower : c.toLower ∈ Text.lower w := List.mem_map_of_mem hc
    rw [← isIdentStart_toLower]
    exact List.all_eq_true.1 (hspelling h.1) _ (h.2 ▸ hlower)
  obtain ⟨c, cs, rfl⟩ := List.exists_cons_of_ne_nil hw.1
  rw [List.forall_mem_cons] at hstart
  exact ⟨hstart.1, fun d hd => isIdentChar_of_isIdentStart (hstart.2 d hd)⟩

end Token

theorem SpellsWord.isIdent {s : String} (h : SpellsWord s) : IsIdent s.toList := by
  obtain ⟨hrun, hword⟩ := h
  by_cases hkeyword : ∃ k, Token.SpellsKeyword s.toList k
  · obtain ⟨k, hk⟩ := hkeyword
    exact hk.isIdent hrun
  · have hkind := Token.wordKind_of_not_spellsKeyword hrun (not_exists.1 hkeyword)
    rw [Token.isIdent_iff]
    refine Decidable.byContradiction fun hident => ?_
    rw [if_neg hident] at hkind
    simp [Token.ofRun, Token.isWord, hkind] at hword

theorem SpellsName.isIdent {s : String} (h : SpellsName s) : IsIdent s.toList :=
  SpellsWord.isIdent ⟨h.1, Token.isWord_of_isName h.2⟩

/-- An action as a source declares it. -/
structure Action.Spelled (a : Action) : Prop where
  name : SpellsName a.name
  verb : ∃ v : Verb, a.method = v.name
  literals : ∀ text, Segment.literal text ∈ a.pattern → IsRun text.toList
  params : ∀ name ∈ a.params, SpellsWord name
  captures : a.pattern.captureCount = a.params.length

structure Controller.Spelled (c : Controller) : Prop where
  name : SpellsName c.name
  actions : ∀ a ∈ c.actions, a.Spelled

structure RouteData.Spelled (d : RouteData) : Prop where
  controllers : ∀ c ∈ d.controllers, c.Spelled
  default : ∀ t, d.default = some t → SpellsName t.controller ∧ SpellsName t.action

namespace Url
variable {u : Url}

theorem captureCount_segments (u : Url) : u.segments.captureCount = u.names.length := by
  unfold segments names Pattern.captureCount
  induction u.parts with
  | nil => rfl
  | cons p ps ih =>
    rw [List.map_cons, List.countP_cons, ih]
    cases p <;> rfl

theorem isRun_of_mem_segments (hu : ∀ p ∈ u.parts, p.Spelled) {text : String}
    (h : Segment.literal text ∈ u.segments) : IsRun text.toList := by
  obtain ⟨part, hpart, hsegment⟩ := List.mem_map.1 h
  cases part with
  | literal text' =>
    obtain rfl : text' = text := Segment.literal.inj hsegment
    exact hu _ hpart
  | param => cases hsegment

theorem spelled_of_mem_names (hu : ∀ p ∈ u.parts, p.Spelled) {name : String} (h : name ∈ u.names) :
    SpellsWord name := by
  obtain ⟨p, hp, hname⟩ := List.mem_filterMap.1 h
  cases p with
  | literal => cases hname
  | param name' kind =>
    obtain rfl : name' = name := Option.some.inj hname
    exact hu _ hp

end Url

theorem SpellsWord.ne_empty {s : String} (h : SpellsWord s) : s ≠ "" := by
  rintro rfl
  exact h.1.1 rfl

/-- Declarations from a source have no unnamed parameters, so all of them are compiled. -/
theorem ActionDecl.Spelled.exists_compile {a : ActionDecl} (h : a.Spelled) (controller : String) :
    ∃ b, a.compile controller = .ok b ∧ b.Spelled := by
  have hnames : ∀ name ∈ a.url.names, SpellsWord name :=
    fun name hname => Url.spelled_of_mem_names h.parts hname
  have hempty : a.url.names.contains "" = false := by
    rw [List.contains_eq_mem, decide_eq_false_iff_not]
    exact fun hmem => (hnames "" hmem).ne_empty rfl
  refine ⟨⟨a.name, a.verb.name, a.url.segments, a.url.names⟩, ?_, ?_⟩
  · rw [compile, if_neg (by rw [hempty]; exact Bool.false_ne_true)]
  · exact ⟨h.name, ⟨a.verb, rfl⟩, fun text htext => Url.isRun_of_mem_segments h.parts htext, hnames,
      Url.captureCount_segments a.url⟩

theorem exists_mapM_of_forall {α β ε : Type} {f : α → Except ε β} {p : β → Prop} {as : List α}
    (h : ∀ a ∈ as, ∃ b, f a = .ok b ∧ p b) : ∃ bs, as.mapM f = .ok bs ∧ ∀ b ∈ bs, p b := by
  induction as with
  | nil => exact ⟨[], rfl, by simp⟩
  | cons a as ih =>
    rw [List.forall_mem_cons] at h
    obtain ⟨b, hb, hp⟩ := h.1
    obtain ⟨bs, hbs, hps⟩ := ih h.2
    exact ⟨b :: bs, mapM_cons_eq_ok.2 ⟨b, bs, hb, hbs, rfl⟩, List.forall_mem_cons.2 ⟨hp, hps⟩⟩

theorem ControllerDecl.Spelled.exists_compile {c : ControllerDecl} (h : c.Spelled) :
    ∃ b, c.compile = .ok b ∧ b.Spelled := by
  obtain ⟨as, has, hspelled⟩ := exists_mapM_of_forall (f := ActionDecl.compile c.name)
    fun a ha => (h.actions a ha).exists_compile c.name
  exact ⟨⟨c.name, as⟩, bind_eq_ok.2 ⟨as, has, rfl⟩, h.name, hspelled⟩

/-- Only the default can be at fault in declarations from a source. -/
theorem Declarations.Spelled.compile_eq {ds : Declarations} (h : ds.Spelled) :
    ∃ bs, (∀ b ∈ bs, b.Spelled) ∧
      ds.compile = ds.defaultTarget.map fun default => (⟨bs, default⟩ : RouteData) := by
  obtain ⟨bs, hbs, hspelled⟩ := exists_mapM_of_forall fun c hc => (h.controllers c hc).exists_compile
  refine ⟨bs, hspelled, ?_⟩
  rw [compile, hbs]
  cases ds.defaultTarget <;> rfl

theorem RouteData.spelled_of_ofSource {source : String} {d : RouteData}
    (h : RouteData.ofSource source = .ok d) : d.Spelled := by
  obtain ⟨ds, hds, h⟩ := bind_eq_ok.1 h
  have hspelled := Declarations.spelled_of_ofSource hds
  obtain ⟨bs, hbs, hcompile⟩ := hspelled.compile_eq
  obtain ⟨default, hdefault, rfl⟩ := map_eq_ok.1 (hcompile ▸ mapError_eq_ok.1 h)
  exact ⟨hbs, fun t ht => hspelled.default (hdefault.trans (congrArg _ ht))⟩

theorem RouteData.Spelled.entry {d : RouteData} (h : d.Spelled) {e : String × Action}
    (he : e ∈ d.entries) : SpellsName e.1 ∧ e.2.Spelled := by
  obtain ⟨c, hc, a, ha, rfl⟩ := mem_entries_iff.1 he
  exact ⟨(h.controllers c hc).name, (h.controllers c hc).actions a ha⟩

theorem RouteData.isRun_of_ofSource {source : String} {d : RouteData}
    (h : RouteData.ofSource source = .ok d) :
    ∀ e ∈ d.entries, ∀ text, Segment.literal text ∈ e.2.pattern → IsRun text.toList :=
  fun _ he => ((spelled_of_ofSource h).entry he).2.literals

end Routes
