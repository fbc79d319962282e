import Routes.Proofs.RouteData.List
import Routes.Proofs.Table.Build
/-!
Methods in upper case. Main statements: sources and route lists give data that has its methods in
upper case already, and a table does not depend on their case.
-/
namespace Routes

def Action.upperMethod (a : Action) : Action :=
  { a with method := String.ofList (Text.upper a.method.toList) }

def Controller.upperMethods (c : Controller) : Controller :=
  { c with actions := c.actions.map Action.upperMethod }

/-- Route data with each method in upper case, and otherwise the same. -/
def RouteData.upperMethods (d : RouteData) : RouteData :=
  { d with controllers := d.controllers.map Controller.upperMethods }

theorem Text.upper_upper (cs : List Char) : upper (upper cs) = upper cs := by
  have hchar : ∀ c : Char, c.toUpper.toUpper = c.toUpper := by
    intro c
    by_cases h : c.toNat < 128
    · have hall : ∀ n < 128, (Char.ofNat n).toUpper.toUpper = (Char.ofNat n).toUpper := by
        decide
      rw [← Char.ofNat_toNat c]
      exact hall c.toNat h
    · have hsame : c.toUpper = c := dif_neg fun hle => h (Nat.lt_of_le_of_lt hle.2 (by decide))
      rw [hsame, hsame]
  unfold upper
  rw [List.map_map]
  exact List.map_congr_left fun c _ => hchar c

namespace Method

theorem ofName?_upper (s : String) : ofName? (String.ofList (Text.upper s.toList)) = ofName? s := by
  rw [ofName?, ofName?, String.toList_ofList, Text.upper_upper]

end Method

namespace RouteData
variable {d d' : RouteData} {s : Settings}

theorem entries_upperMethods (d : RouteData) :
    d.upperMethods.entries = d.entries.map fun e => (e.1, e.2.upperMethod) := by
  simp only [entries, upperMethods, List.flatMap_map, List.map_flatMap, Controller.upperMethods,
    List.map_map]
  rfl

/-- All methods are in upper case. -/
def IsUpper (d : RouteData) : Prop := ∀ e ∈ d.entries, e.2.upperMethod = e.2

theorem IsUpper.upperMethods_eq (h : d.IsUpper) : d.upperMethods = d := by
  have hcontroller : ∀ c ∈ d.controllers, c.upperMethods = c := by
    intro c hc
    have haction : ∀ a ∈ c.actions, a.upperMethod = a := fun a ha =>
      h (c.name, a) (List.mem_flatMap.2 ⟨c, hc, List.mem_map_of_mem ha⟩)
    have hactions : c.actions.map Action.upperMethod = c.actions.map id :=
      List.map_congr_left haction
    rw [Controller.upperMethods, hactions, List.map_id]
  have hcontrollers : d.controllers.map Controller.upperMethods = d.controllers.map id :=
    List.map_congr_left hcontroller
  rw [upperMethods, hcontrollers, List.map_id]

theorem isUpper_ofSource {source : String} (h : ofSource source = .ok d) : d.IsUpper := by
  have hspelled := spelled_of_ofSource h
  intro e he
  exact (hspelled.entry he).2.new_eq

section List

theorem upperMethod_new (name method : String) (p : Pattern) (params : List String) :
    (Action.new name method p params).upperMethod = Action.new name method p params := by
  rw [Action.upperMethod, Action.new, String.toList_ofList, Text.upper_upper]

theorem IsUpper.addRoute {method route target : String} (h : d.IsUpper)
    (hd : d.addRoute method route target = .ok d') : d'.IsUpper := by
  unfold RouteData.addRoute at hd
  split at hd
  · cases hd
  · dsimp only at hd
    split at hd
    · cases hd
    · cases hd
      intro e he
      rw [entries_append, List.mem_append, List.mem_singleton] at he
      rcases he with he | rfl
      · exact h e he
      · exact upperMethod_new _ _ _ _

theorem IsUpper.addEntry {entry : List Char} (h : d.IsUpper) (hd : d.addEntry entry = .ok d') :
    d'.IsUpper := by
  unfold RouteData.addEntry at hd
  split at hd
  · cases hd
    exact h
  · exact h.addRoute hd
  · cases hd

theorem IsUpper.addEntries {entries : List (List Char)} (h : d.IsUpper)
    (hd : entries.foldlM RouteData.addEntry d = .ok d') : d'.IsUpper := by
  induction entries generalizing d with
  | nil =>
    cases hd
    exact h
  | cons entry entries ih =>
    rw [List.foldlM_cons] at hd
    obtain ⟨next, hnext, hrest⟩ := bind_eq_ok.1 hd
    exact ih (h.addEntry hnext) hrest

theorem isUpper_ofRouteList {list : String} (h : ofRouteList list = .ok d) : d.IsUpper := by
  have hempty : empty.IsUpper := by
    intro e he
    cases he
  exact hempty.addEntries h

end List

section Table

theorem toOption_ofAction_upperMethod (controller : String) (a : Action) :
    (Route.ofAction s controller a.upperMethod).toOption =
      (Route.ofAction s controller a).toOption := by
  have hmethod : Method.ofName? a.upperMethod.method = Method.ofName? a.method :=
    Method.ofName?_upper a.method
  rw [Route.ofAction, Route.ofAction, hmethod]
  cases Method.ofName? a.method <;> rfl

theorem toOption_mapM_congr {α β ε : Type} {f g : α → Except ε β} {as : List α}
    (h : ∀ a ∈ as, (f a).toOption = (g a).toOption) :
    (as.mapM f).toOption = (as.mapM g).toOption := by
  induction as with
  | nil => rfl
  | cons a as ih =>
    rw [List.forall_mem_cons] at h
    apply Option.ext
    intro bs
    have ha : ∀ b, f a = .ok b ↔ g a = .ok b := fun b => by
      rw [← toOption_eq_some_iff, ← toOption_eq_some_iff, h.1]
    have has : ∀ rest, as.mapM f = .ok rest ↔ as.mapM g = .ok rest := fun rest => by
      rw [← toOption_eq_some_iff, ← toOption_eq_some_iff, ih h.2]
    simp only [toOption_eq_some_iff, mapM_cons_eq_ok, ha, has]

/-- The case of methods may show in the reason why a table is not built, but in no table. -/
theorem build_upperMethods (d : RouteData) (s : Settings) :
    (Table.build d.upperMethods s).toOption = (Table.build d s).toOption := by
  have hentries : (d.upperMethods.entries.mapM fun e => Route.ofAction s e.1 e.2).toOption =
      (d.entries.mapM fun e => Route.ofAction s e.1 e.2).toOption := by
    rw [entries_upperMethods, List.mapM_map]
    apply toOption_mapM_congr
    intro e _
    rw [Function.comp_apply]
    exact toOption_ofAction_upperMethod e.1 e.2
  have hroutes : ∀ rs,
      d.upperMethods.entries.mapM (fun e => Route.ofAction s e.1 e.2) = .ok rs ↔
        d.entries.mapM (fun e => Route.ofAction s e.1 e.2) = .ok rs := by
    intro rs
    rw [← toOption_eq_some_iff, ← toOption_eq_some_iff, hentries]
  have hdefault : Table.defaultTarget d.upperMethods s = Table.defaultTarget d s := rfl
  apply Option.ext
  intro t
  simp only [toOption_eq_some_iff, Table.build_eq_ok, hroutes, hdefault]

end Table
end RouteData
end Routes
