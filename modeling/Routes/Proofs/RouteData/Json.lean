import Routes.Proofs.Json.Read
import Routes.Proofs.Record
import Routes.RouteData.Json
/-!
Route data stored as JSON. Main statement: whatever texts they hold, route data is read back from
the JSON text that is written for it.
-/
namespace Routes

namespace Json
variable {α : Type}

theorem listOf?_array {f : Json → Option α} {g : α → Json} (h : ∀ a, f (g a) = some a)
    (as : List α) : (array (as.map g)).listOf? f = some as := by
  have hread : (as.map g).mapM f = some (as.map id) := mapM_map_eq_some fun a _ => h a
  rwa [List.map_id] at hread

/-- A record that is written field by field has each of its fields. -/
theorem fields?_ofFields {fields : List (String × Json)} {keys : List String}
    (hnames : fields.map Prod.fst = keys) (hkeys : keys.Nodup) :
    (ofFields fields).fields? keys = some (fields.map fun f => some f.2) := by
  subst hnames
  have hall : (fields.map fun f => (some f.1, f.2)).all (·.1.isSome) = true := by simp
  have hsome : ((fields.map fun f => (some f.1, f.2)).map Prod.fst).Nodup := by
    have heq : (fields.map fun f => (some f.1, f.2)).map Prod.fst =
        (fields.map Prod.fst).map some := by simp
    exact heq ▸ hkeys.map fun _ _ => Option.some.inj
  have hobject : ofFields fields = .object (fields.map fun f => (some f.1, f.2)) := rfl
  simp only [hobject, fields?, hall, if_true]
  refine mapM_map_eq_some fun field hfield => ?_
  have hmem : (some field.1, field.2) ∈ fields.map fun f => (some f.1, f.2) :=
    List.mem_map_of_mem (f := fun f : String × Json => (some f.1, f.2)) hfield
  rw [member?, filter_key hsome hmem]

end Json

namespace Segment

theorem isStored_toJson (s : Segment) : s.toJson.IsStored := by
  cases s with
  | literal t => exact .ofFields (by simp [Json.IsStored.text])
  | capture k => exact .ofFields (by simp [ParamKind.toJson, Json.IsStored.text])

theorem ofJson?_toJson (s : Segment) : ofJson? s.toJson = some s := by
  cases s with
  | literal t => rfl
  | capture k => cases k <;> rfl

end Segment

namespace Action

theorem isStored_toJson (a : Action) : a.toJson.IsStored := by
  refine .ofFields ?_
  simp only [List.forall_mem_cons, List.not_mem_nil, false_implies, implies_true, and_true]
  refine ⟨.text _, .text _, .array ?_, .array ?_⟩
  · exact List.forall_mem_map.2 fun s _ => s.isStored_toJson
  · exact List.forall_mem_map.2 fun name _ => .text name

theorem ofJson?_toJson (a : Action) : ofJson? a.toJson = some a := by
  have hpattern := Json.listOf?_array Segment.ofJson?_toJson a.pattern
  have hparams := Json.listOf?_array (f := Json.string?) (g := Json.text) (fun _ => rfl) a.params
  have hfields : a.toJson.fields? ["name", "http_method", "pattern", "param_names"] =
      some [some (.text a.name), some (.text a.method),
        some (.array (a.pattern.map Segment.toJson)), some (.array (a.params.map .text))] :=
    Json.fields?_ofFields rfl (by decide)
  simp only [ofJson?, hfields, hpattern, hparams]
  rfl

end Action

namespace Controller

theorem isStored_toJson (c : Controller) : c.toJson.IsStored := by
  refine .ofFields ?_
  simp only [List.forall_mem_cons, List.not_mem_nil, false_implies, implies_true, and_true]
  exact ⟨.text _, .array (List.forall_mem_map.2 fun a _ => a.isStored_toJson)⟩

theorem ofJson?_toJson (c : Controller) : ofJson? c.toJson = some c := by
  have hactions := Json.listOf?_array Action.ofJson?_toJson c.actions
  have hfields : c.toJson.fields? ["name", "actions"] =
      some [some (.text c.name), some (.array (c.actions.map Action.toJson))] :=
    Json.fields?_ofFields rfl (by decide)
  simp only [ofJson?, hfields, hactions]
  rfl

end Controller

namespace Target

theorem isStored_toJson (t : Target) : t.toJson.IsStored := by
  refine .ofFields ?_
  simp only [List.forall_mem_cons, List.not_mem_nil, false_implies, implies_true, and_true]
  exact ⟨.text _, .text _⟩

theorem ofJson?_toJson (t : Target) : ofJson? t.toJson = some t := by
  have hfields : t.toJson.fields? ["controller_name", "action_name"] =
      some [some (.text t.controller), some (.text t.action)] :=
    Json.fields?_ofFields rfl (by decide)
  simp only [ofJson?, hfields]
  rfl

end Target

namespace RouteData

theorem isStored_toJson (d : RouteData) : d.toJson.IsStored := by
  refine .ofFields ?_
  simp only [List.forall_mem_cons, List.not_mem_nil, false_implies, implies_true, and_true]
  refine ⟨.array (List.forall_mem_map.2 fun c _ => c.isStored_toJson), ?_⟩
  split
  · rename_i t _
    exact t.isStored_toJson
  · exact .null

theorem ofJson?_toJson (d : RouteData) : ofJson? d.toJson = some d := by
  obtain ⟨controllers, default⟩ := d
  have hcontrollers := Json.listOf?_array Controller.ofJson?_toJson controllers
  cases default with
  | none =>
    have hfields : (toJson ⟨controllers, none⟩).fields? ["controllers", "default_action"] =
        some [some (.array (controllers.map Controller.toJson)), some .null] :=
      Json.fields?_ofFields rfl (by decide)
    simp only [ofJson?, hfields, hcontrollers]
    rfl
  | some t =>
    have hfields : (toJson ⟨controllers, some t⟩).fields? ["controllers", "default_action"] =
        some [some (.array (controllers.map Controller.toJson)), some t.toJson] :=
      Json.fields?_ofFields rfl (by decide)
    have htarget : Target.optionOfJson? (some t.toJson) = some (some t) :=
      congrArg (Option.map some) t.ofJson?_toJson
    simp only [ofJson?, hfields, hcontrollers, htarget]
    rfl

/-- Route data is read back from its JSON text, whatever texts its names, methods, literals and
parameters are. -/
theorem ofJsonText?_toJsonText (d : RouteData) : ofJsonText? d.toJsonText = some d := by
  rw [ofJsonText?, toJsonText, Json.ofText?_toPretty d.isStored_toJson]
  exact d.ofJson?_toJson

end RouteData
end Routes
