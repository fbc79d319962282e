import Mathlib.Data.Option.Basic
import Routes.Proofs.Table.Grouping
import Routes.Table.Resolve
/-!
Equality of tables. It leaves out the templates of routes and compares what they match by the texts
of their expressions. Main statement: tables that have been built and are equal differ in nothing
that a request or a listing shows, since a template is determined by what is compared.
-/
namespace Routes

theorem eq_of_beq_of_forall {α : Type} [BEq α] {as bs : List α}
    (h : ∀ a ∈ as, ∀ b ∈ bs, (a == b) = true → a = b) (hbeq : (as == bs) = true) : as = bs := by
  induction as generalizing bs with
  | nil =>
    cases bs with
    | nil => rfl
    | cons b bs => cases hbeq
  | cons a as ih =>
    cases bs with
    | nil => cases hbeq
    | cons b bs =>
      rw [List.cons_beq_cons, Bool.and_eq_true] at hbeq
      rw [h a List.mem_cons_self b List.mem_cons_self hbeq.1]
      refine congrArg (b :: ·) (ih (fun a ha b hb => ?_) hbeq.2)
      exact h a (List.mem_cons_of_mem _ ha) b (List.mem_cons_of_mem _ hb)

namespace Route
variable {a b : Route}

theorem beq_iff : (a == b) = true ↔ a.method = b.method ∧ a.pattern = b.pattern ∧
    a.expression = b.expression ∧ a.params = b.params ∧ a.controller = b.controller ∧
    a.action = b.action := by
  change (_ && _) = true ↔ _
  simp only [Bool.and_eq_true, beq_iff_eq, and_assoc]

instance : ReflBEq Route where
  rfl := beq_iff.2 ⟨rfl, rfl, rfl, rfl, rfl, rfl⟩

/-- The template of a route is that of its pattern with the names of its parameters. -/
def Templated (r : Route) : Prop := r.template = r.pattern.template r.params

theorem eq_of_beq (ha : a.Templated) (hb : b.Templated) (h : (a == b) = true) : a = b := by
  obtain ⟨hmethod, hpattern, hexpression, hparams, hcontroller, haction⟩ := beq_iff.1 h
  have htemplate : a.template = b.template := by rw [ha, hb, hpattern, hparams]
  cases a
  cases b
  rw [Route.mk.injEq]
  exact ⟨hmethod, hpattern, hexpression, hparams, hcontroller, haction, htemplate⟩

end Route

namespace Table
variable {d d' : RouteData} {s s' : Settings} {t t' : Table}

theorem templated_of_build (h : build d s = .ok t) : ∀ r ∈ t.routes, r.Templated := by
  intro r hr
  obtain ⟨e, -, m, -, rfl⟩ := entry_of_mem_routes h hr
  rfl

theorem beq_iff : (t == t') = true ↔ (t.groups == t'.groups) = true ∧ t.default = t'.default ∧
    t.baseUrl = t'.baseUrl ∧ t.nspace = t'.nspace := by
  cases t
  cases t'
  change (_ && _) = true ↔ _
  simp only [Bool.and_eq_true, beq_iff_eq]

/-- Nothing that a table holds is left to differ where two that have been built are equal. -/
theorem beq_iff_eq_of_build (h : build d s = .ok t) (h' : build d' s' = .ok t') :
    (t == t') = true ↔ t = t' := by
  constructor
  · intro hbeq
    obtain ⟨hgroups, hdefault, hbase, hnspace⟩ := beq_iff.1 hbeq
    have heq : t.groups = t'.groups := by
      refine eq_of_beq_of_forall ?_ hgroups
      rintro ⟨m, rs⟩ hg ⟨m', rs'⟩ hg' hpair
      obtain ⟨hm, hrs⟩ : (m == m') = true ∧ (rs == rs') = true := Bool.and_eq_true_iff.1 hpair
      have hlists : rs = rs' := by
        refine eq_of_beq_of_forall (fun r hr r' hr' => ?_) hrs
        exact Route.eq_of_beq (templated_of_build h r (List.mem_flatMap.2 ⟨_, hg, hr⟩))
          (templated_of_build h' r' (List.mem_flatMap.2 ⟨_, hg', hr'⟩))
      rw [beq_iff_eq.1 hm, hlists]
    cases t
    cases t'
    rw [Table.mk.injEq]
    exact ⟨heq, hdefault, hbase, hnspace⟩
  · rintro rfl
    exact beq_iff.2 ⟨BEq.rfl, rfl, rfl, rfl⟩

/-- A template is no part of equality, so tables that have not been built can be equal and list
different paths. -/
example : let r : Route := ⟨.get, [.literal "a"], "^/?a/?$", [], "A", "b", "/a"⟩
    let t : Table := ⟨[(.get, [r])], ⟨"A", "b"⟩, "", ""⟩
    let t' : Table := ⟨[(.get, [{ r with template := "/c" }])], ⟨"A", "b"⟩, "", ""⟩
    (t == t') = true ∧ t.pathPatterns ≠ t'.pathPatterns := by
  decide

section Parts

/-- Two tables compared part by part: the methods in their order, the routes of each method as far
as equality goes, and the rest. -/
structure SameParts (t t' : Table) : Prop where
  order : t.order = t'.order
  lists : ∀ m, (t.routesFor m == t'.routesFor m) = true
  default : t.default = t'.default
  baseUrl : t.baseUrl = t'.baseUrl
  nspace : t.nspace = t'.nspace

theorem nodup_order_of_build (h : build d s = .ok t) : t.order.Nodup := by
  obtain ⟨rs, _, -, -, rfl⟩ := build_eq_ok.1 h
  rw [order, keys_foldl_insert]
  exact (firstSeen_foldl _).nodup

theorem beq_map_of_forall {α : Type} {f g : α → List Route} (ms : List α) [BEq α] [LawfulBEq α]
    (h : ∀ m, (f m == g m) = true) :
    ((ms.map fun m => (m, f m)) == ms.map fun m => (m, g m)) = true := by
  induction ms with
  | nil => rfl
  | cons m ms ih =>
    rw [List.map_cons, List.map_cons, List.cons_beq_cons, Bool.and_eq_true]
    exact ⟨Bool.and_eq_true_iff.2 ⟨beq_self_eq_true m, h m⟩, ih⟩

/-- Tables that have been built are equal if their maps from methods to routes and the orders of
their methods are. -/
theorem beq_iff_sameParts (h : build d s = .ok t) (h' : build d' s' = .ok t') :
    (t == t') = true ↔ t.SameParts t' := by
  constructor
  · intro hbeq
    obtain rfl := (beq_iff_eq_of_build h h').1 hbeq
    exact ⟨rfl, fun _ => BEq.rfl, rfl, rfl, rfl⟩
  · intro hparts
    refine beq_iff.2 ⟨?_, hparts.default, hparts.baseUrl, hparts.nspace⟩
    have hlists : ∀ m, (groupOf m t.groups == groupOf m t'.groups) = true := by
      intro m
      rw [← routesFor_eq_groupOf, ← routesFor_eq_groupOf]
      exact hparts.lists m
    have horder : t.groups.map Prod.fst = t'.groups.map Prod.fst := hparts.order
    rw [← map_groupOf (nodup_order_of_build h), ← map_groupOf (nodup_order_of_build h'), horder]
    exact beq_map_of_forall _ hlists

end Parts

/-- What can be seen of a table: the outcomes of requests, the routes with all that is printed of
them, and its listings. -/
structure Indistinguishable (t t' : Table) : Prop where
  resolve : ∀ method url, t.resolve method url = t'.resolve method url
  routes : t.routes = t'.routes
  templates : t.routes.map (·.template) = t'.routes.map (·.template)
  displays : t.routes.map Route.display = t'.routes.map Route.display
  paths : t.pathPatterns = t'.pathPatterns
  default : t.default = t'.default
  listing : t.listing = t'.listing

/-- Equal tables cannot be told apart, whatever they have been built from. -/
theorem indistinguishable_of_beq (h : build d s = .ok t) (h' : build d' s' = .ok t')
    (hbeq : (t == t') = true) : t.Indistinguishable t' := by
  obtain rfl := (beq_iff_eq_of_build h h').1 hbeq
  exact ⟨fun _ _ => rfl, rfl, rfl, rfl, rfl, rfl, rfl⟩

/-- One controller with the default in the settings. -/
def wholeRoutes : RouteData :=
  ⟨[⟨"Notes", [⟨"list", "get", [.literal "notes"], []⟩,
    ⟨"show", "Get", [.literal "notes", .capture .int], ["id"]⟩]⟩], none⟩

/-- The same routes under two headings, with a default of their own. -/
def splitRoutes : RouteData :=
  ⟨[⟨"Notes", [⟨"list", "GET", [.literal "notes"], []⟩]⟩,
    ⟨"Notes", [⟨"show", "GET", [.literal "notes", .capture .int], ["id"]⟩]⟩],
    some ⟨"Notes", "list"⟩⟩

theorem indistinguishable_split : ∃ t t', build wholeRoutes ⟨"App", "/api", "Notes#list"⟩ = .ok t ∧
    build splitRoutes ⟨"App", "/api", "Index.index"⟩ = .ok t' ∧ (t == t') = true ∧
    t.Indistinguishable t' := by
  have hread : ((build wholeRoutes ⟨"App", "/api", "Notes#list"⟩).toOption.bind fun t =>
      (build splitRoutes ⟨"App", "/api", "Index.index"⟩).toOption.map fun t' => t == t') =
      some true := by
    decide
  obtain ⟨t, ht, hread⟩ := Option.bind_eq_some_iff.1 hread
  obtain ⟨t', ht', hbeq⟩ := Option.map_eq_some_iff.1 hread
  have hbuild := toOption_eq_some_iff.1 ht
  have hbuild' := toOption_eq_some_iff.1 ht'
  exact ⟨t, t', hbuild, hbuild', hbeq, indistinguishable_of_beq hbuild hbuild' hbeq⟩

end Table
end Routes
