import Routes.Result
import Routes.Table
/-!
What a table holds for a method once it is built: the actions of that method in the order of their
declaration, each turned into a route. Every one of them has as many names as captures.
-/
namespace Routes

/-- The actions for a method with their controllers, in the order of declaration and whatever the
case their method is written in. -/
def RouteData.entriesFor (d : RouteData) (m : Method) : List (String × Action) :=
  d.entries.filter fun e => Method.ofName? e.2.method == some m

/-- The route of an action without a fault. -/
def Route.ofEntry (s : Settings) (m : Method) (e : String × Action) : Route :=
  ⟨m, e.2.pattern, e.2.pattern.expression s.baseUrl, e.2.params, s.qualify e.1, e.2.name,
    e.2.template⟩

/-- An action has no fault: its method is known and its names fit its captures. -/
structure Action.Sound (a : Action) (m : Method) : Prop where
  method : Method.ofName? a.method = some m
  params : a.params.length = a.pattern.captureCount
  named : "" ∉ a.params

theorem Route.ofAction_eq_ok {s : Settings} {controller : String} {a : Action} {r : Route} :
    ofAction s controller a = .ok r ↔ ∃ m, a.Sound m ∧ r = ofEntry s m (controller, a) := by
  unfold ofAction
  split
  · rename_i hm
    constructor
    · rintro ⟨⟩
    · rintro ⟨m, ha, -⟩
      rw [ha.method] at hm
      cases hm
  · rename_i m hm
    split
    · rename_i hlen
      constructor
      · rintro ⟨⟩
      · rintro ⟨_, ha, -⟩
        exact absurd ha.params hlen
    · rename_i hlen
      split
      · rename_i hname
        constructor
        · rintro ⟨⟩
        · rintro ⟨_, ha, -⟩
          exact absurd (by simpa using hname) ha.named
      · rename_i hname
        constructor
        · rintro ⟨⟩
          exact ⟨m, ⟨hm, Decidable.not_not.1 hlen, by simpa using hname⟩, rfl⟩
        · rintro ⟨m', ha, rfl⟩
          rw [Option.some.inj (hm.symm.trans ha.method)]
          rfl

namespace Table
variable {d : RouteData} {s : Settings} {t : Table} {rs : List Route}

/-- The routes that a list of groups holds for a method. -/
def groupOf (m : Method) : List (Method × List Route) → List Route
  | [] => []
  | (m', rs) :: rest => if m' = m then rs else groupOf m rest

theorem routesFor_eq_groupOf (t : Table) (m : Method) : t.routesFor m = groupOf m t.groups := by
  unfold routesFor
  induction t.groups with
  | nil => rfl
  | cons g gs ih =>
    by_cases h : g.1 = m
    · simp [groupOf, h]
    · simpa [groupOf, h] using ih

theorem mem_routes_of_mem_routesFor {m : Method} {r : Route} (h : r ∈ t.routesFor m) :
    r ∈ t.routes := by
  unfold routesFor at h
  split at h
  · rename_i rs hgroup
    exact List.mem_flatMap.2 ⟨_, List.mem_of_find?_eq_some hgroup, h⟩
  · cases h

theorem groupOf_insert (m : Method) (r : Route) (gs : List (Method × List Route)) :
    groupOf m (insert r gs) = groupOf m gs ++ if r.method = m then [r] else [] := by
  induction gs with
  | nil => simp [insert, groupOf]
  | cons g gs ih =>
    obtain ⟨m', rs⟩ := g
    by_cases hr : m' = r.method
    · subst hr
      by_cases hm : r.method = m <;> simp [insert, groupOf, hm]
    · by_cases hm : m' = m
      · subst hm
        have hne : r.method ≠ m' := fun h => hr h.symm
        simp [insert, groupOf, hr, hne]
      · simp [insert, groupOf, hr, hm, ih]

theorem groupOf_foldl_insert (m : Method) (rs : List Route) (gs : List (Method × List Route)) :
    groupOf m (rs.foldl (fun gs r => insert r gs) gs) =
      groupOf m gs ++ rs.filter (·.method == m) := by
  induction rs generalizing gs with
  | nil => simp
  | cons r rs ih =>
    rw [List.foldl_cons, ih, groupOf_insert, List.append_assoc]
    by_cases h : r.method = m <;> simp [h]

theorem build_eq_ok : build d s = .ok t ↔ ∃ rs target,
    d.entries.mapM (fun e => Route.ofAction s e.1 e.2) = .ok rs ∧
      defaultTarget d s = .ok target ∧
      t = ⟨rs.foldl (fun gs r => insert r gs) [], ⟨s.qualify target.controller, target.action⟩,
        s.baseUrl, s.nspace⟩ := by
  simp only [build, bind_eq_ok, pure_eq_ok]
  constructor
  · rintro ⟨rs, hrs, target, ht, rfl⟩
    exact ⟨rs, target, hrs, ht, rfl⟩
  · rintro ⟨rs, target, hrs, ht, rfl⟩
    exact ⟨rs, hrs, target, ht, rfl⟩

theorem filter_method {es : List (String × Action)} (m : Method)
    (h : es.mapM (fun e => Route.ofAction s e.1 e.2) = .ok rs) :
    rs.filter (·.method == m) =
      (es.filter fun e => Method.ofName? e.2.method == some m).map (Route.ofEntry s m) := by
  induction es generalizing rs with
  | nil => rw [mapM_nil_eq_ok.1 h]; rfl
  | cons e es ih =>
    obtain ⟨r, rest, hr, hrest, rfl⟩ := mapM_cons_eq_ok.1 h
    obtain ⟨m', hm, rfl⟩ := Route.ofAction_eq_ok.1 hr
    by_cases hmm : m' = m
    · subst hmm
      simp [Route.ofEntry, hm.method, ih hrest]
    · simp [Route.ofEntry, hm.method, hmm, ih hrest]

theorem sound_of_mapM {es : List (String × Action)}
    (h : es.mapM (fun e => Route.ofAction s e.1 e.2) = .ok rs) : ∀ e ∈ es, ∃ m, e.2.Sound m := by
  induction es generalizing rs with
  | nil => simp
  | cons e es ih =>
    obtain ⟨r, rest, hr, hrest, rfl⟩ := mapM_cons_eq_ok.1 h
    obtain ⟨m, hm, -⟩ := Route.ofAction_eq_ok.1 hr
    intro e' he'
    rcases List.mem_cons.1 he' with rfl | he'
    · exact ⟨m, hm⟩
    · exact ih hrest e' he'

theorem sound_of_build (h : build d s = .ok t) : ∀ e ∈ d.entries, ∃ m, e.2.Sound m := by
  obtain ⟨_, _, hrs, -, -⟩ := build_eq_ok.1 h
  exact sound_of_mapM hrs

theorem routesFor_build (h : build d s = .ok t) (m : Method) :
    t.routesFor m = (d.entriesFor m).map (Route.ofEntry s m) := by
  obtain ⟨_, _, hrs, -, rfl⟩ := build_eq_ok.1 h
  rw [routesFor_eq_groupOf, groupOf_foldl_insert, filter_method m hrs]
  rfl

theorem mem_flatMap_insert {r r' : Route} {gs : List (Method × List Route)} :
    r' ∈ (insert r gs).flatMap (·.2) ↔ r' ∈ gs.flatMap (·.2) ∨ r' = r := by
  induction gs with
  | nil => simp [insert]
  | cons g gs ih =>
    unfold insert
    split
    · simp only [List.flatMap_cons, List.mem_append, List.mem_singleton]
      exact or_right_comm
    · simp only [List.flatMap_cons, List.mem_append, ih, or_assoc]

theorem mem_flatMap_foldl_insert {r : Route} {gs : List (Method × List Route)} :
    r ∈ (rs.foldl (fun gs r => insert r gs) gs).flatMap (·.2) ↔ r ∈ gs.flatMap (·.2) ∨ r ∈ rs := by
  induction rs generalizing gs with
  | nil => simp
  | cons r' rs ih => rw [List.foldl_cons, ih, mem_flatMap_insert, List.mem_cons, or_assoc]

/-- Every route of a table stands for an action of its data. -/
theorem entry_of_mem_routes {r : Route} (h : build d s = .ok t) (hr : r ∈ t.routes) :
    ∃ e ∈ d.entries, ∃ m, e.2.Sound m ∧ r = Route.ofEntry s m e := by
  obtain ⟨rs, _, hrs, -, rfl⟩ := build_eq_ok.1 h
  have hmem : r ∈ rs := by simpa using mem_flatMap_foldl_insert.1 hr
  obtain ⟨e, he, hroute⟩ := exists_of_mem_mapM hrs r hmem
  obtain ⟨m, hsound, hr⟩ := Route.ofAction_eq_ok.1 hroute
  exact ⟨e, he, m, hsound, hr⟩

theorem baseUrl_build (h : build d s = .ok t) : t.baseUrl = s.baseUrl := by
  obtain ⟨_, _, -, -, rfl⟩ := build_eq_ok.1 h
  rfl

theorem default_build (h : build d s = .ok t) : ∃ target, defaultTarget d s = .ok target ∧
    t.default = ⟨s.qualify target.controller, target.action⟩ := by
  obtain ⟨_, target, -, ht, rfl⟩ := build_eq_ok.1 h
  exact ⟨target, ht, rfl⟩

end Table
end Routes
