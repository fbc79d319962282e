import Routes.Proofs.Record
import Routes.Proofs.RouteData.Method
import Routes.Proofs.SourceModule.Expression
/-!
Route data read from the source text of modules. Main statement: the expression in a module can
always be read, and what it denotes is the route data of the module with its methods in upper case.
-/
namespace Routes
open SourceText (Expr Frame Group Reads Spells reads_comma reads_commaList reads_flatMap
  reads_value_closing spells_quote)

/-! What expressions denote. -/

namespace SourceText.Expr

def text? : Expr → Option String
  | text t => some t
  | _ => none

def segment? : Expr → Option Segment
  | group (.call ["Segment", "literal"]) [text t] => some (.literal t)
  | group (.call ["Segment", "Capture"]) [name ["ParamKind", "Int"]] => some (.capture .int)
  | group (.call ["Segment", "Capture"]) [name ["ParamKind", "Str"]] => some (.capture .text)
  | _ => none

def pattern? : Expr → Option Pattern
  | group (.call ["MatchPattern", "new"]) [group .list segments] => segments.mapM segment?
  | _ => none

def action? : Expr → Option Action
  | group (.call ["ActionData", "new"]) [text n, text m, p, group .slice params] => do
    let p ← p.pattern?
    let params ← params.mapM text?
    return .new n m p params
  | _ => none

def controller? : Expr → Option Controller
  | record ["ControllerData"] [("name", method (text n) "to_string"),
      ("actions", group .list actions)] => do
    let actions ← actions.mapM action?
    return ⟨n, actions⟩
  | _ => none

def target? : Expr → Option (Option Target)
  | name ["None"] => some none
  | group (.call ["Some"]) [group (.call ["DefaultActionData", "new"]) [text c, text a]] =>
    some (some ⟨c, a⟩)
  | _ => none

def routeData? : Expr → Option RouteData
  | record ["RouterData"] [("controllers", group .list controllers), ("default_action", t)] => do
    let controllers ← controllers.mapM controller?
    let t ← t.target?
    return ⟨controllers, t⟩
  | _ => none

end SourceText.Expr

/-- The route data that the expression of a text denotes. -/
def RouteData.ofExpression? (cs : List Char) : Option RouteData :=
  (Expr.ofText? cs).bind Expr.routeData?

/-! The expressions that denote route data. -/

def Segment.expr : Segment → Expr
  | .literal t => .group (.call ["Segment", "literal"]) [.text t]
  | .capture .int => .group (.call ["Segment", "Capture"]) [.name ["ParamKind", "Int"]]
  | .capture .text => .group (.call ["Segment", "Capture"]) [.name ["ParamKind", "Str"]]

def Action.expr (a : Action) : Expr :=
  .group (.call ["ActionData", "new"]) [.text a.name, .text a.method,
    .group (.call ["MatchPattern", "new"]) [.group .list (a.pattern.map Segment.expr)],
    .group .slice (a.params.map .text)]

def Controller.expr (c : Controller) : Expr :=
  .record ["ControllerData"] [("name", .method (.text c.name) "to_string"),
    ("actions", .group .list (c.actions.map Action.expr))]

def Target.expr : Option Target → Expr
  | some t => .group (.call ["Some"])
      [.group (.call ["DefaultActionData", "new"]) [.text t.controller, .text t.action]]
  | none => .name ["None"]

def RouteData.expr (d : RouteData) : Expr :=
  .record ["RouterData"] [("controllers", .group .list (d.controllers.map Controller.expr)),
    ("default_action", Target.expr d.default)]

section Denote

theorem Segment.segment?_expr (s : Segment) : s.expr.segment? = some s := by
  rcases s with t | (_ | _) <;> rfl

theorem Action.action?_expr (a : Action) : a.expr.action? = some a.upperMethod := by
  have hsegments : (a.pattern.map Segment.expr).mapM Expr.segment? = some (a.pattern.map id) :=
    mapM_map_eq_some fun s _ => s.segment?_expr
  have hparams : (a.params.map Expr.text).mapM Expr.text? = some (a.params.map id) :=
    mapM_map_eq_some fun _ _ => rfl
  rw [List.map_id] at hsegments hparams
  simp only [Action.expr, Expr.action?, Expr.pattern?, hsegments, hparams]
  rfl

theorem Controller.controller?_expr (c : Controller) :
    c.expr.controller? = some c.upperMethods := by
  have hactions : (c.actions.map Action.expr).mapM Expr.action? =
      some (c.actions.map Action.upperMethod) := mapM_map_eq_some fun a _ => a.action?_expr
  simp only [Controller.expr, Expr.controller?, hactions]
  rfl

theorem Target.target?_expr (t : Option Target) : (Target.expr t).target? = some t := by
  cases t <;> rfl

theorem RouteData.routeData?_expr (d : RouteData) : d.expr.routeData? = some d.upperMethods := by
  have hcontrollers : (d.controllers.map Controller.expr).mapM Expr.controller? =
      some (d.controllers.map Controller.upperMethods) :=
    mapM_map_eq_some fun c _ => c.controller?_expr
  simp only [RouteData.expr, Expr.routeData?, hcontrollers, Target.target?_expr]
  rfl

end Denote

namespace SourceModule
variable {fs : List Frame} {done : List Expr}

theorem spells_segment (s : Segment) : Spells (segment s) s.expr := by
  intro fs
  cases s with
  | literal t =>
    have hopen : Reads "Segment::literal(".toList ⟨fs, .blank⟩
        ⟨.group (.call ["Segment", "literal"]) [] :: fs, .blank⟩ :=
      ⟨[.word "Segment", .path, .word "literal", .mark '('], by decide, rfl⟩
    exact (hopen.append (spells_quote t _)).append
      (reads_value_closing (g := .call ["Segment", "literal"]))
  | capture kind =>
    cases kind with
    | int => exact ⟨[.word "Segment", .path, .word "Capture", .mark '(', .word "ParamKind", .path,
        .word "Int", .mark ')'], by decide, rfl⟩
    | text => exact ⟨[.word "Segment", .path, .word "Capture", .mark '(', .word "ParamKind", .path,
        .word "Str", .mark ')'], by decide, rfl⟩

/-- The quoted text of an argument on its own line. -/
theorem reads_quoteLine (depth : Nat) (s : String) {g : Group} :
    Reads (line depth (quote s ++ [','])) ⟨.group g done :: fs, .blank⟩
      ⟨.group g (done ++ [.text s]) :: fs, .blank⟩ :=
  ((spells_quote s _).append reads_comma).line depth

theorem reads_patternLine (p : Pattern) {g : Group} :
    Reads (line 7 ("MatchPattern::new(vec![".toList ++ commaList (p.map segment) ++ "]),".toList))
      ⟨.group g done :: fs, .blank⟩
      ⟨.group g (done ++ [.group (.call ["MatchPattern", "new"])
        [.group .list (p.map Segment.expr)]]) :: fs, .blank⟩ := by
  have hopen : Reads "MatchPattern::new(vec![".toList ⟨.group g done :: fs, .blank⟩
      ⟨.group .list [] :: .group (.call ["MatchPattern", "new"]) [] :: .group g done :: fs,
        .blank⟩ :=
    ⟨[.word "MatchPattern", .path, .word "new", .mark '(', .word "vec", .mark '!', .mark '['],
      by decide, rfl⟩
  have hitems : Reads (commaList (p.map segment) ++ [']'])
      ⟨.group .list [] :: .group (.call ["MatchPattern", "new"]) [] :: .group g done :: fs, .blank⟩
      ⟨.group (.call ["MatchPattern", "new"]) [] :: .group g done :: fs,
        .value (.group .list (p.map Segment.expr))⟩ :=
    reads_commaList (g := .list) spells_segment p
  have hclose : Reads [')']
      ⟨.group (.call ["MatchPattern", "new"]) [] :: .group g done :: fs,
        .value (.group .list (p.map Segment.expr))⟩
      ⟨.group g done :: fs, .value (.group (.call ["MatchPattern", "new"])
        [.group .list (p.map Segment.expr)])⟩ := reads_value_closing (g := .call _)
  have hends : "]),".toList = [']'] ++ ([')'] ++ [',']) := by decide
  rw [hends]
  apply Reads.line
  simpa only [List.append_assoc] using (hopen.append hitems).append (hclose.append reads_comma)

theorem reads_paramsLine (names : List String) {g : Group} :
    Reads (line 7 ("&[".toList ++ commaList (names.map quote) ++ "],".toList))
      ⟨.group g done :: fs, .blank⟩
      ⟨.group g (done ++ [.group .slice (names.map .text)]) :: fs, .blank⟩ := by
  have hopen : Reads "&[".toList ⟨.group g done :: fs, .blank⟩
      ⟨.group .slice [] :: .group g done :: fs, .blank⟩ :=
    ⟨[.mark '&', .mark '['], by decide, rfl⟩
  have hitems : Reads (commaList (names.map quote) ++ [']'])
      ⟨.group .slice [] :: .group g done :: fs, .blank⟩
      ⟨.group g done :: fs, .value (.group .slice (names.map .text))⟩ :=
    reads_commaList (g := .slice) spells_quote names
  have hends : "],".toList = [']'] ++ [','] := by decide
  rw [hends]
  apply Reads.line
  simpa only [List.append_assoc] using (hopen.append hitems).append reads_comma

/-- The end of a list that is the value of a field. -/
theorem reads_listEnd {path : List String} {fields : List (String × Expr)} {label : String}
    {items : List Expr} :
    Reads "],".toList ⟨.group .list items :: .record path fields (some label) :: fs, .blank⟩
      ⟨.record path (fields ++ [(label, .group .list items)]) none :: fs, .blank⟩ :=
  ⟨[.mark ']', .mark ','], by decide, rfl⟩

/-- An action brings its comma. -/
theorem reads_action (a : Action) (done : List Expr) :
    Reads (action a) ⟨.group .list done :: fs, .blank⟩
      ⟨.group .list (done ++ [a.expr]) :: fs, .blank⟩ := by
  have hopen : Reads "ActionData::new(".toList ⟨.group .list done :: fs, .blank⟩
      ⟨.group (.call ["ActionData", "new"]) [] :: .group .list done :: fs, .blank⟩ :=
    ⟨[.word "ActionData", .path, .word "new", .mark '('], by decide, rfl⟩
  have hclose : Reads "),".toList
      ⟨.group (.call ["ActionData", "new"]) [.text a.name, .text a.method,
        .group (.call ["MatchPattern", "new"]) [.group .list (a.pattern.map Segment.expr)],
        .group .slice (a.params.map .text)] :: .group .list done :: fs, .blank⟩
      ⟨.group .list (done ++ [a.expr]) :: fs, .blank⟩ :=
    ⟨[.mark ')', .mark ','], by decide, rfl⟩
  exact (((((hopen.line 6).append (reads_quoteLine 7 a.name)).append
    (reads_quoteLine 7 a.method)).append (reads_patternLine a.pattern)).append
    (reads_paramsLine a.params)).append (hclose.line 6)

theorem reads_controller (c : Controller) (done : List Expr) :
    Reads (controller c) ⟨.group .list done :: fs, .blank⟩
      ⟨.group .list (done ++ [c.expr]) :: fs, .blank⟩ := by
  have hopen : Reads "ControllerData \x7b".toList ⟨.group .list done :: fs, .blank⟩
      ⟨.record ["ControllerData"] [] none :: .group .list done :: fs, .blank⟩ :=
    ⟨[.word "ControllerData", .mark '\x7b'], by decide, rfl⟩
  have hlabel : Reads "name: ".toList
      ⟨.record ["ControllerData"] [] none :: .group .list done :: fs, .blank⟩
      ⟨.record ["ControllerData"] [] (some "name") :: .group .list done :: fs, .blank⟩ :=
    ⟨[.word "name", .mark ':'], by decide, rfl⟩
  have hname : Reads ".to_string(),".toList
      ⟨.record ["ControllerData"] [] (some "name") :: .group .list done :: fs,
        .value (.text c.name)⟩
      ⟨.record ["ControllerData"] [("name", .method (.text c.name) "to_string")] none ::
        .group .list done :: fs, .blank⟩ :=
    ⟨[.mark '.', .word "to_string", .mark '(', .mark ')', .mark ','], by decide, rfl⟩
  have hactions : Reads "actions: vec![".toList
      ⟨.record ["ControllerData"] [("name", .method (.text c.name) "to_string")] none ::
        .group .list done :: fs, .blank⟩
      ⟨.group .list [] :: .record ["ControllerData"]
        [("name", .method (.text c.name) "to_string")] (some "actions") :: .group .list done :: fs,
        .blank⟩ :=
    ⟨[.word "actions", .mark ':', .word "vec", .mark '!', .mark '['], by decide, rfl⟩
  have hclose : Reads "\x7d,".toList
      ⟨.record ["ControllerData"] [("name", .method (.text c.name) "to_string"),
        ("actions", .group .list (c.actions.map Action.expr))] none :: .group .list done :: fs,
        .blank⟩
      ⟨.group .list (done ++ [c.expr]) :: fs, .blank⟩ :=
    ⟨[.mark '\x7d', .mark ','], by decide, rfl⟩
  have hnameLine := ((hlabel.append (spells_quote c.name _)).append hname).line 5
  exact (((((hopen.line 4).append hnameLine).append (hactions.line 5)).append
    (reads_flatMap reads_action c.actions)).append (reads_listEnd.line 5)).append (hclose.line 4)

theorem spells_target (t : Target) : Spells (target (some t)) (Target.expr (some t)) := by
  intro fs
  have hopen : Reads "Some(DefaultActionData::new(".toList ⟨fs, .blank⟩
      ⟨.group (.call ["DefaultActionData", "new"]) [] :: .group (.call ["Some"]) [] :: fs,
        .blank⟩ :=
    ⟨[.word "Some", .mark '(', .word "DefaultActionData", .path, .word "new", .mark '('],
      by decide, rfl⟩
  have hitems : Reads (commaList [quote t.controller, quote t.action] ++ [')'])
      ⟨.group (.call ["DefaultActionData", "new"]) [] :: .group (.call ["Some"]) [] :: fs, .blank⟩
      ⟨.group (.call ["Some"]) [] :: fs, .value (.group (.call ["DefaultActionData", "new"])
        [.text t.controller, .text t.action])⟩ :=
    reads_commaList (g := .call ["DefaultActionData", "new"]) spells_quote [t.controller, t.action]
  have hclose : Reads [')']
      ⟨.group (.call ["Some"]) [] :: fs, .value (.group (.call ["DefaultActionData", "new"])
        [.text t.controller, .text t.action])⟩
      ⟨fs, .value (Target.expr (some t))⟩ := reads_value_closing (g := .call ["Some"])
  have hends : "))".toList = [')'] ++ [')'] := by decide
  show Reads ("Some(DefaultActionData::new(".toList ++
    commaList [quote t.controller, quote t.action] ++ "))".toList) _ _
  rw [hends]
  simpa only [List.append_assoc] using (hopen.append hitems).append hclose

/-- The field of the default. Where there is none, the comma ends the name that stands for it. -/
theorem reads_targetLine (path : List String) (fields : List (String × Expr)) (t : Option Target) :
    Reads (line 3 ("default_action: ".toList ++ target t ++ [',']))
      ⟨.record path fields none :: fs, .blank⟩
      ⟨.record path (fields ++ [("default_action", Target.expr t)]) none :: fs, .blank⟩ := by
  apply Reads.line
  cases t with
  | none =>
    exact ⟨[.word "default_action", .mark ':', .word "None", .mark ','], by decide, rfl⟩
  | some t =>
    have hlabel : Reads "default_action: ".toList ⟨.record path fields none :: fs, .blank⟩
        ⟨.record path fields (some "default_action") :: fs, .blank⟩ :=
      ⟨[.word "default_action", .mark ':'], by decide, rfl⟩
    have hcomma : Reads [',']
        ⟨.record path fields (some "default_action") :: fs, .value (Target.expr (some t))⟩
        ⟨.record path (fields ++ [("default_action", Target.expr (some t))]) none :: fs, .blank⟩ :=
      ⟨[.mark ','], by decide, rfl⟩
    exact (hlabel.append (spells_target t _)).append hcomma

theorem spells_expression (d : RouteData) : Spells (expression d) d.expr := by
  intro fs
  have hopen : Reads "RouterData \x7b".toList ⟨fs, .blank⟩
      ⟨.record ["RouterData"] [] none :: fs, .blank⟩ :=
    ⟨[.word "RouterData", .mark '\x7b'], by decide, rfl⟩
  have hcontrollers : Reads "controllers: vec![".toList
      ⟨.record ["RouterData"] [] none :: fs, .blank⟩
      ⟨.group .list [] :: .record ["RouterData"] [] (some "controllers") :: fs, .blank⟩ :=
    ⟨[.word "controllers", .mark ':', .word "vec", .mark '!', .mark '['], by decide, rfl⟩
  have hclose : Reads "\x7d".toList
      ⟨.record ["RouterData"] [("controllers", .group .list (d.controllers.map Controller.expr)),
        ("default_action", Target.expr d.default)] none :: fs, .blank⟩
      ⟨fs, .value d.expr⟩ :=
    ⟨[.mark '\x7d'], by decide, rfl⟩
  exact (((((hopen.line 2).append (hcontrollers.line 3)).append
    (reads_flatMap reads_controller d.controllers)).append (reads_listEnd.line 3)).append
    (reads_targetLine ["RouterData"] _ d.default)).append (hclose.line 2)

end SourceModule

theorem RouteData.ofExpression?_expression (d : RouteData) :
    ofExpression? (SourceModule.expression d) = some d.upperMethods := by
  rw [ofExpression?, (SourceModule.spells_expression d).ofText?, Option.bind_some,
    d.routeData?_expr]

namespace SourceModule
variable {m : SourceModule}

/-- A module that has a name is rendered, and its first function gives an expression. Whatever texts
the data of the module holds, the expression can be read, and it denotes the data with its methods
in upper case. That is the data itself if it comes from a source or from a list, and in all cases it
leads to the same tables, so that requests have the same outcomes. -/
theorem ofExpression?_render (hname : isName m.name = true) :
    m.render = .ok m.text ∧
      m.text.toList = m.header ++ m.opening ++ expression m.data ++ closing ∧
      line 1 "pub fn router_data() -> RouterData \x7b".toList <:+ m.opening ∧
      line 1 "\x7d".toList <+: closing ∧
      RouteData.ofExpression? (expression m.data) = some m.data.upperMethods ∧
      (∀ source, RouteData.ofSource source = .ok m.data → m.data.upperMethods = m.data) ∧
      (∀ list, RouteData.ofRouteList list = .ok m.data → m.data.upperMethods = m.data) ∧
      ∀ s t, Table.build m.data.upperMethods s = .ok t ↔ Table.build m.data s = .ok t := by
  refine ⟨if_pos hname, String.toList_ofList, ⟨_, rfl⟩, by decide,
    m.data.ofExpression?_expression, fun _ h => ?_, fun _ h => ?_, fun s t => ?_⟩
  · exact (RouteData.isUpper_ofSource h).upperMethods_eq
  · exact (RouteData.isUpper_ofRouteList h).upperMethods_eq
  · rw [← toOption_eq_some_iff, ← toOption_eq_some_iff, RouteData.build_upperMethods]

/-- Texts that hold the marks of expressions, and characters that are written by their code. -/
def markData (method : String) : RouteData :=
  ⟨[⟨"A\"), B", [⟨"x\\", method, [.literal "e\u0301]\n", .capture .int, .capture .text],
      ["\"", "\u202E\x00"]⟩]⟩, ⟨"//", []⟩], some ⟨"\uFFFF,", "\x7b\x7d"⟩⟩

def markModule : SourceModule := ⟨"App", "crate", none, markData "gEt"⟩

def listedModule : SourceModule :=
  ⟨"_1", "routes", some "a", ⟨[⟨"A", [⟨"b", "PUT", [], []⟩]⟩], none⟩⟩

theorem ofExpression?_render_marks :
    isName markModule.name = true ∧ markModule.render = .ok markModule.text ∧
      RouteData.ofExpression? (expression markModule.data) = some (markData "GET") ∧
      (Table.build (markData "GET") .standard).toOption.isSome = true ∧
      Table.build (markData "GET") .standard = Table.build markModule.data .standard ∧
      isName listedModule.name = true ∧ RouteData.ofRouteList "Put / A.b" = .ok listedModule.data ∧
      RouteData.ofExpression? (expression listedModule.data) = some listedModule.data := by
  have hname : isName markModule.name = true := by decide
  have hlistedName : isName listedModule.name = true := by decide
  have hupper : markModule.data.upperMethods = markData "GET" := by decide
  have hlist : RouteData.ofRouteList "Put / A.b" = .ok listedModule.data := by
    apply toOption_eq_some_iff.1
    decide
  have hbuilt : (Table.build (markData "GET") .standard).toOption.isSome = true := by
    decide
  obtain ⟨hrender, -, -, -, hread, -, -, htable⟩ := ofExpression?_render hname
  obtain ⟨-, -, -, -, hlisted, -, hsame, -⟩ := ofExpression?_render hlistedName
  rw [hupper] at hread
  rw [hsame "Put / A.b" hlist] at hlisted
  obtain ⟨t, ht⟩ := Option.isSome_iff_exists.1 hbuilt
  have hgenerated := toOption_eq_some_iff.1 ht
  have hgiven := (htable .standard t).1 (hupper ▸ hgenerated)
  exact ⟨hname, hrender, hread, hbuilt, hgenerated.trans hgiven.symm, hlistedName, hlist, hlisted⟩

end SourceModule
end Routes
