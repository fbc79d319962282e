import Routes.Proofs.RouteData.Spelling
import Routes.Proofs.Record
import Routes.Proofs.Yaml.Node
import Routes.RouteData.Yaml
/-!
Route data stored as YAML. Main statement: route data that was compiled from a source is read back
from the YAML text that is written for it.
-/
open Routes.Token (IsRun)

namespace Routes

namespace Yaml
variable {α : Type} {document : Node}

namespace Tree
variable {fs : List (String × Tree)}

theorem itemNodes_eq_map (xs : List Tree) : itemNodes xs = xs.map toNode := by
  induction xs with
  | nil => rfl
  | cons x xs ih => rw [itemNodes, ih, List.map_cons]

theorem fieldNodes_eq_map (fs : List (String × Tree)) :
    fieldNodes fs = fs.map fun f => (Node.scalar .none true f.1, f.2.toNode) := by
  induction fs with
  | nil => rfl
  | cons f fs ih => rw [fieldNodes, ih, List.map_cons]

/-- Nothing that is written is an alias. -/
theorem resolve_toNode (t : Tree) : document.resolve t.toNode = t.toNode := by
  cases t <;> simp [toNode, Node.resolve]

theorem text?_toNode (tag : Option String) (s : String) :
    document.text? (toNode (.text tag s)) = some s := by
  rw [Node.text?, resolve_toNode, toNode]

theorem listOf?_toNode {f : Node → Option α} {g : α → Tree} {as : List α}
    (h : ∀ a ∈ as, f (g a).toNode = some a) :
    document.listOf? f (toNode (.list (as.map g))) = some as := by
  have hread : (as.map fun a => (g a).toNode).mapM f = some (as.map id) := mapM_map_eq_some h
  rw [List.map_id] at hread
  rw [Node.listOf?, Node.items?, resolve_toNode, toNode, itemNodes_eq_map, List.map_map]
  exact hread

/-- A record that is written field by field has each of its fields. -/
theorem fields?_toNode {keys : List String} (hnames : fs.map Prod.fst = keys) (hkeys : keys.Nodup) :
    document.fields? keys (toNode (.record fs)) = some (fs.map fun f => some f.2.toNode) := by
  subst hnames
  have hmembers : (fs.map fun f => (Node.scalar .none true f.1, f.2.toNode)).mapM
      (fun m => (document.text? m.1).map (·, m.2)) = some (fs.map fun f => (f.1, f.2.toNode)) :=
    mapM_map_eq_some fun f _ => rfl
  have hfirst : ((fs.map fun f => (f.1, f.2.toNode)).map Prod.fst).Nodup := by
    rw [List.map_map]
    exact hkeys
  have hread : (fs.map Prod.fst).mapM (Node.member? (fs.map fun f => (f.1, f.2.toNode))) =
      some (fs.map fun f => some f.2.toNode) := by
    refine mapM_map_eq_some fun f hf => ?_
    have hmem : (f.1, f.2.toNode) ∈ fs.map fun f => (f.1, f.2.toNode) :=
      List.mem_map_of_mem (f := fun f : String × Tree => (f.1, f.2.toNode)) hf
    rw [Node.member?, filter_key hfirst hmem]
  rw [Node.fields?, Node.entries?, resolve_toNode, toNode, fieldNodes_eq_map]
  simp only [Option.bind_eq_bind, Option.bind_some, hmembers, hread]

/-- The names of fields are words of letters. -/
def isFieldName (k : String) : Bool :=
  !k.isEmpty && decide (k.toList.length ≤ 1024) && k.toList.all Routes.Token.isIdentStart

theorem isKey_of_isFieldName {k : String} (h : isFieldName k = true) : Layout.IsKey k.toList := by
  simp only [isFieldName, Bool.and_eq_true, decide_eq_true_eq, List.all_eq_true] at h
  obtain ⟨⟨hne, hshort⟩, hword⟩ := h
  refine ⟨⟨?_, ?_⟩, hshort, ?_⟩
  · simpa using hne
  · intro c hc
    have hident := Routes.Token.isIdentChar_of_isIdentStart (hword c hc)
    exact Routes.Token.isFragmentChar_of_isIdentChar hident
  · intro c hc
    have hc := hword c (List.mem_of_mem_head? hc)
    constructor
    · rintro rfl
      cases hc
    · rintro rfl
      cases hc

/-- A record with the fields of some type. -/
theorem IsWritten.fields (keys : List String) (hnames : fs.map Prod.fst = keys)
    (hkeys : keys ≠ [] ∧ keys.all isFieldName = true) (hfields : ∀ f ∈ fs, IsWritten f.2) :
    IsWritten (.record fs) := by
  subst hnames
  refine .record (by simpa using hkeys.1) (fun f hf => isKey_of_isFieldName ?_) hfields
  exact List.all_eq_true.1 hkeys.2 f.1 (List.mem_map_of_mem hf)

theorem isTag_none : IsTag none := by
  rintro t ⟨⟩

end Tree
end Yaml

open Yaml (Node Tree)

namespace Segment
variable {document : Node}

theorem ofYaml?_toYaml (s : Segment) : ofYaml? document s.toYaml.toNode = some s := by
  rw [ofYaml?, Tree.resolve_toNode]
  cases s with
  | literal t =>
    have htag : (literal t).toYaml.toNode.localTag? = some "literal" := rfl
    simp only [htag]
    rfl
  | capture k =>
    have htag : (capture k).toYaml.toNode.localTag? = some "capture" := rfl
    simp only [htag]
    cases k <;> rfl

theorem isWritten_toYaml {s : Segment} (h : ∀ t, s = literal t → IsRun t.toList) :
    s.toYaml.IsWritten := by
  have htag (w : List Char) (hne : w ≠ []) (hw : w.all Yaml.isWordChar = true) :
      Tree.IsTag (some (String.ofList ('!' :: w))) := by
    rintro t ⟨⟩
    exact ⟨w, String.toList_ofList, hne, List.all_eq_true.1 hw⟩
  cases s with
  | literal t => exact .text (htag "literal".toList (by decide) (by decide)) (h t rfl)
  | capture k =>
    have hname : IsRun k.name.toList := by cases k <;> exact Yaml.isRun_of_all (by decide) (by decide)
    exact .text (htag "capture".toList (by decide) (by decide)) hname

end Segment

namespace Action
variable {document : Node}

theorem isWritten_toYaml {a : Action} (h : a.Spelled) : a.toYaml.IsWritten := by
  obtain ⟨v, hv⟩ := h.verb
  have hmethod : IsRun a.method.toList := by
    rw [hv]
    cases v <;> exact Yaml.isRun_of_all (by decide) (by decide)
  refine .fields ["name", "http_method", "pattern", "param_names"] rfl (by decide) ?_
  simp only [List.forall_mem_cons, List.not_mem_nil, false_implies, implies_true, and_true]
  refine ⟨.text Tree.isTag_none h.name.1, .text Tree.isTag_none hmethod, .list ?_, .list ?_⟩
  · refine List.forall_mem_map.2 fun s hs => Segment.isWritten_toYaml ?_
    rintro t rfl
    exact h.literals t hs
  · exact List.forall_mem_map.2 fun name hname => .text Tree.isTag_none (h.params name hname).1

theorem ofYaml?_toYaml (a : Action) : ofYaml? document a.toYaml.toNode = some a := by
  have hpattern : document.listOf? (Segment.ofYaml? document)
      (Tree.list (a.pattern.map Segment.toYaml)).toNode = some a.pattern :=
    Tree.listOf?_toNode fun s _ => s.ofYaml?_toYaml
  have hparams : document.listOf? document.text?
      (Tree.list (a.params.map (Tree.text none))).toNode = some a.params :=
    Tree.listOf?_toNode fun name _ => Tree.text?_toNode none name
  have hfields : document.fields? ["name", "http_method", "pattern", "param_names"]
      a.toYaml.toNode =
      some [some (Tree.text none a.name).toNode, some (Tree.text none a.method).toNode,
        some (Tree.list (a.pattern.map Segment.toYaml)).toNode,
        some (Tree.list (a.params.map (Tree.text none))).toNode] :=
    Tree.fields?_toNode rfl (by decide)
  simp only [ofYaml?, hfields, hpattern, hparams, Tree.text?_toNode]
  rfl

end Action

namespace Controller
variable {document : Node}

theorem isWritten_toYaml {c : Controller} (h : c.Spelled) : c.toYaml.IsWritten := by
  refine .fields ["name", "actions"] rfl (by decide) ?_
  simp only [List.forall_mem_cons, List.not_mem_nil, false_implies, implies_true, and_true]
  exact ⟨.text Tree.isTag_none h.name.1,
    .list (List.forall_mem_map.2 fun a ha => Action.isWritten_toYaml (h.actions a ha))⟩

theorem ofYaml?_toYaml (c : Controller) : ofYaml? document c.toYaml.toNode = some c := by
  have hactions : document.listOf? (Action.ofYaml? document)
      (Tree.list (c.actions.map Action.toYaml)).toNode = some c.actions :=
    Tree.listOf?_toNode fun a _ => a.ofYaml?_toYaml
  have hfields : document.fields? ["name", "actions"] c.toYaml.toNode =
      some [some (Tree.text none c.name).toNode,
        some (Tree.list (c.actions.map Action.toYaml)).toNode] :=
    Tree.fields?_toNode rfl (by decide)
  simp only [ofYaml?, hfields, hactions, Tree.text?_toNode]
  rfl

end Controller

namespace Target
variable {document : Node}

theorem isWritten_toYaml {t : Target} (hcontroller : SpellsName t.controller)
    (haction : SpellsName t.action) : t.toYaml.IsWritten := by
  refine .fields ["controller_name", "action_name"] rfl (by decide) ?_
  simp only [List.forall_mem_cons, List.not_mem_nil, false_implies, implies_true, and_true]
  exact ⟨.text Tree.isTag_none hcontroller.1, .text Tree.isTag_none haction.1⟩

theorem ofYaml?_toYaml (t : Target) : ofYaml? document t.toYaml.toNode = some t := by
  have hfields : document.fields? ["controller_name", "action_name"] t.toYaml.toNode =
      some [some (Tree.text none t.controller).toNode, some (Tree.text none t.action).toNode] :=
    Tree.fields?_toNode rfl (by decide)
  simp only [ofYaml?, hfields, Tree.text?_toNode]
  rfl

end Target

namespace RouteData

/-- The fields of the document of route data. -/
def yamlFields (d : RouteData) : List (String × Tree) :=
  [("controllers", .list (d.controllers.map Controller.toYaml)),
   ("default_action", match d.default with
    | some t => t.toYaml
    | none => .null)]

theorem ofYaml?_toNode (d : RouteData) : ofYaml? (Tree.record d.yamlFields).toNode = some d := by
  obtain ⟨controllers, default⟩ := d
  generalize hdocument : (Tree.record (yamlFields ⟨controllers, default⟩)).toNode = document
  have hcontrollers : document.listOf? (Controller.ofYaml? document)
      (Tree.list (controllers.map Controller.toYaml)).toNode = some controllers :=
    Tree.listOf?_toNode fun c _ => c.ofYaml?_toYaml
  cases default with
  | none =>
    have hfields : document.fields? ["controllers", "default_action"]
        (Tree.record (yamlFields ⟨controllers, none⟩)).toNode =
        some [some (Tree.list (controllers.map Controller.toYaml)).toNode,
          some Tree.null.toNode] :=
      Tree.fields?_toNode rfl (by decide)
    rw [hdocument] at hfields
    simp only [ofYaml?, hfields, hcontrollers]
    rfl
  | some t =>
    have hfields : document.fields? ["controllers", "default_action"]
        (Tree.record (yamlFields ⟨controllers, some t⟩)).toNode =
        some [some (Tree.list (controllers.map Controller.toYaml)).toNode, some t.toYaml.toNode] :=
      Tree.fields?_toNode rfl (by decide)
    rw [hdocument] at hfields
    have htarget : document.optional? (Target.ofYaml? document) t.toYaml.toNode =
        some (some t) := by
      rw [Node.optional?, Tree.resolve_toNode]
      exact congrArg (Option.map some) t.ofYaml?_toYaml
    simp only [ofYaml?, hfields, hcontrollers, htarget]
    rfl

theorem isWritten_yamlFields {d : RouteData} (h : d.Spelled) :
    (Tree.record d.yamlFields).IsWritten := by
  refine .fields ["controllers", "default_action"] rfl (by decide) ?_
  simp only [yamlFields, List.forall_mem_cons, List.not_mem_nil, false_implies, implies_true,
    and_true]
  have hcontrollers : ∀ t ∈ d.controllers.map Controller.toYaml, t.IsWritten :=
    List.forall_mem_map.2 fun c hc => Controller.isWritten_toYaml (h.controllers c hc)
  refine ⟨.list hcontrollers, ?_⟩
  split
  · next t ht => exact Target.isWritten_toYaml (h.default t ht).1 (h.default t ht).2
  · exact .null

/-- Compiled route data is read back from its YAML text, also where its literals look like nulls,
truth values, numbers, items or marks between documents. -/
theorem ofYamlText?_toYamlText {source : String} {d : RouteData} (h : ofSource source = .ok d) :
    ofYamlText? d.toYamlText = some d := by
  have hread : Node.ofText? d.toYamlText = some (Tree.record d.yamlFields).toNode :=
    Tree.ofText?_document (isWritten_yamlFields (spelled_of_ofSource h))
  rw [ofYamlText?, hread, Option.bind_some]
  exact d.ofYaml?_toNode

end RouteData

def markSource : String :=
  "controller Null actions True <- GET null/~/2024/1e5/0x1F/.inf/-/---/.../:y(int) end end " ++
    "default action Null#True"

def markRoutes : RouteData :=
  ⟨[⟨"Null", [⟨"True", "GET", [.literal "null", .literal "~", .literal "2024", .literal "1e5",
    .literal "0x1F", .literal ".inf", .literal "-", .literal "---", .literal "...", .capture .int],
    ["y"]⟩]⟩], some ⟨"Null", "True"⟩⟩

theorem ofYamlText?_toYamlText_markRoutes : RouteData.ofSource markSource = .ok markRoutes ∧
    RouteData.ofYamlText? markRoutes.toYamlText = some markRoutes := by
  have hread : (RouteData.ofSource markSource).toOption = some markRoutes := by
    decide +kernel
  have hok := toOption_eq_some_iff.1 hread
  exact ⟨hok, RouteData.ofYamlText?_toYamlText hok⟩

end Routes
