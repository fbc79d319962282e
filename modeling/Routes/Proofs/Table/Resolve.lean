import Routes.Proofs.Pattern.Expression
import Routes.Proofs.Table.Build
import Routes.Table.Resolve
/-!
The outcome of a request, said from route data and settings alone. Main statement: a table that has
been built resolves every request to this outcome and to no other. What a route matches is what the
expression that it holds finds, so that a request goes to the first route whose expression finds its
path.
-/
namespace Routes

/-- The query of a request, which its target alone determines. -/
def Request.RequestTarget.decodedQuery (target : RequestTarget) : Query :=
  (target.query.map fun q => Query.ofText (String.ofList q)).getD []

/-- The outcome of a request: the first action for its method whose pattern is the path, or the
default where there is none. -/
inductive Resolves (d : RouteData) (s : Settings) (method url : String) : Outcome → Prop
  | unreadable {dflt} : Table.defaultTarget d s = .ok dflt →
      Request.RequestTarget.ofText? url = none →
      Resolves d s method url ⟨s.qualify dflt.controller, dflt.action, [], [], .fallback⟩
  | unknown {dflt target} : Table.defaultTarget d s = .ok dflt →
      Request.RequestTarget.ofText? url = some target → Method.ofName? method = none →
      Resolves d s method url
        ⟨s.qualify dflt.controller, dflt.action, [], target.decodedQuery, .fallback⟩
  | unmatched {dflt target m} : Table.defaultTarget d s = .ok dflt →
      Request.RequestTarget.ofText? url = some target → Method.ofName? method = some m →
      (∀ e ∈ d.entriesFor m, ∀ vs, ¬e.2.pattern.Matches s.baseUrl target.path vs) →
      Resolves d s method url
        ⟨s.qualify dflt.controller, dflt.action, [], target.decodedQuery, .fallback⟩
  | matched {target m i controller a vs params} :
      Request.RequestTarget.ofText? url = some target → Method.ofName? method = some m →
      (d.entriesFor m)[i]? = some (controller, a) →
      a.pattern.Matches s.baseUrl target.path vs →
      (∀ j < i, ∀ e, (d.entriesFor m)[j]? = some e →
        ∀ ws, ¬e.2.pattern.Matches s.baseUrl target.path ws) →
      params.map Prod.fst = a.params →
      params.map Prod.snd = vs.map (fun v => String.ofList (Text.Percent.decodeText v)) →
      Resolves d s method url
        ⟨s.qualify controller, a.name, params, target.decodedQuery, .matched i⟩

theorem Route.params?_eq_some_iff {r : Route} {base : String} {path : List Char}
    {ps : List (String × String)} : r.params? base path = some ps ↔
      ∃ vs, r.pattern.Matches base path vs ∧
        ps = r.params.zip (vs.map fun v => String.ofList (Text.Percent.decodeText v)) := by
  simp only [params?, Option.map_eq_some_iff, Pattern.captures?_eq_some_iff]
  refine exists_congr fun vs => and_congr_right fun _ => eq_comm

theorem Route.params?_eq_none_iff {r : Route} {base : String} {path : List Char} :
    r.params? base path = none ↔ ∀ vs, ¬r.pattern.Matches base path vs := by
  simp only [params?, Option.map_eq_none_iff, Pattern.captures?_eq_none_iff]

/-- What a route finds in a path: the expression that it holds, read as one, finds texts there, and
the parameters have these texts as their values, with percent coding resolved. -/
def Route.Finds (r : Route) (path : List Char) (ps : List (String × String)) : Prop :=
  ∃ (x : Regex) (vs : List (List Char)), Regex.ofText? r.expression = some x ∧
    x.Finds path (vs.map some) ∧
    ps = r.params.zip (vs.map fun v => String.ofList (Text.Percent.decodeText v))

namespace Table
variable {d : RouteData} {s : Settings} {t : Table}

theorem firstMatch_eq_none_iff {base : String} {path : List Char} {i : Nat} {rs : List Route} :
    firstMatch base path i rs = none ↔ ∀ r ∈ rs, r.params? base path = none := by
  induction rs generalizing i with
  | nil => simp [firstMatch]
  | cons r rs ih =>
    cases h : r.params? base path with
    | none => simp [firstMatch, h, ih]
    | some ps => simp [firstMatch, h]

theorem firstMatch_eq_some_iff {base : String} {path : List Char} {i j : Nat} {rs : List Route}
    {r : Route} {ps : List (String × String)} : firstMatch base path i rs = some (j, r, ps) ↔
      ∃ k, j = i + k ∧ rs[k]? = some r ∧ r.params? base path = some ps ∧
        ∀ l < k, ∀ r', rs[l]? = some r' → r'.params? base path = none := by
  induction rs generalizing i with
  | nil => simp [firstMatch]
  | cons r' rs ih =>
    simp only [firstMatch]
    split
    · rename_i ps' hps
      constructor
      · rintro ⟨⟩
        exact ⟨0, rfl, rfl, hps, by simp⟩
      · rintro ⟨k, rfl, hk, hps', hbefore⟩
        cases k with
        | zero =>
          cases hk
          rw [hps] at hps'
          cases hps'
          rfl
        | succ k =>
          have hnone := hbefore 0 (by omega) r' rfl
          rw [hps] at hnone
          cases hnone
    · rename_i hnone
      rw [ih]
      constructor
      · rintro ⟨k, rfl, hk, hps, hbefore⟩
        refine ⟨k + 1, by omega, hk, hps, fun l hl r₁ hr₁ => ?_⟩
        cases l with
        | zero =>
          cases hr₁
          exact hnone
        | succ l => exact hbefore l (by omega) r₁ hr₁
      · rintro ⟨k, rfl, hk, hps, hbefore⟩
        cases k with
        | zero =>
          cases hk
          rw [hnone] at hps
          cases hps
        | succ k =>
          exact ⟨k, by omega, hk, hps, fun l hl r₁ hr₁ => hbefore (l + 1) (by omega) r₁ hr₁⟩

section Finds
variable {r : Route} {path : List Char} {ps : List (String × String)}

/-- Reading the expression of a route from left to right is matching its pattern. -/
theorem params?_eq_some_iff_finds (h : build d s = .ok t) (hr : r ∈ t.routes) :
    r.params? t.baseUrl path = some ps ↔ r.Finds path ps := by
  obtain ⟨e, -, m, -, rfl⟩ := entry_of_mem_routes h hr
  have hread : Regex.ofText? (Route.ofEntry s m e).expression =
      some (e.2.pattern.tree s.baseUrl) := Pattern.ofText?_expression e.2.pattern s.baseUrl
  rw [Route.params?_eq_some_iff, baseUrl_build h]
  constructor
  · rintro ⟨vs, hvs, rfl⟩
    exact ⟨_, vs, hread, Pattern.finds_tree_iff.2 ⟨vs, hvs, rfl⟩, rfl⟩
  · rintro ⟨x, vs, hx, hfinds, rfl⟩
    obtain rfl := Option.some.inj (hread.symm.trans hx)
    obtain ⟨ws, hws, hheld⟩ := Pattern.finds_tree_iff.1 hfinds
    obtain rfl := (List.map_inj_right fun _ _ => Option.some.inj).1 hheld
    exact ⟨vs, hws, rfl⟩

theorem params?_eq_none_iff_finds (h : build d s = .ok t) (hr : r ∈ t.routes) :
    r.params? t.baseUrl path = none ↔ ∀ ps, ¬r.Finds path ps := by
  rw [Option.eq_none_iff_forall_ne_some]
  exact forall_congr' fun ps => not_congr (params?_eq_some_iff_finds h hr)

/-- A request goes to the first route of its method whose expression finds something in its path,
with what that finds there, and to the default of the table where there is none. -/
theorem resolve_of_finds (h : build d s = .ok t) {method url : String} {m : Method}
    {target : Request.RequestTarget} (htarget : Request.RequestTarget.ofText? url = some target)
    (hm : Method.ofName? method = some m) :
    (∀ i r ps, (t.routesFor m)[i]? = some r → r.Finds target.path ps →
      (∀ j < i, ∀ r', (t.routesFor m)[j]? = some r' → ∀ ps', ¬r'.Finds target.path ps') →
      t.resolve method url = ⟨r.controller, r.action, ps, target.decodedQuery, .matched i⟩) ∧
    ((∀ r ∈ t.routesFor m, ∀ ps, ¬r.Finds target.path ps) →
      t.resolve method url = t.fallback target.decodedQuery) := by
  have hresolve : t.resolve method url = t.resolveTarget method target := by
    rw [resolve, htarget]
  constructor
  · intro i r ps hr hfinds hbefore
    have hroute := mem_routes_of_mem_routesFor (List.mem_of_getElem? hr)
    have hfirst : firstMatch t.baseUrl target.path 0 (t.routesFor m) = some (i, r, ps) := by
      refine firstMatch_eq_some_iff.2 ⟨i, (Nat.zero_add i).symm, hr, ?_, fun j hj r' hr' => ?_⟩
      · exact (params?_eq_some_iff_finds h hroute).2 hfinds
      · have hroute' := mem_routes_of_mem_routesFor (List.mem_of_getElem? hr')
        exact (params?_eq_none_iff_finds h hroute').2 (hbefore j hj r' hr')
    rw [hresolve, resolveTarget, hm, Option.map_some, Option.getD_some, hfirst]
    rfl
  · intro hnone
    have hfirst : firstMatch t.baseUrl target.path 0 (t.routesFor m) = none := by
      refine firstMatch_eq_none_iff.2 fun r hr => ?_
      exact (params?_eq_none_iff_finds h (mem_routes_of_mem_routesFor hr)).2 (hnone r hr)
    rw [hresolve, resolveTarget, hm, Option.map_some, Option.getD_some, hfirst]
    rfl

end Finds

/-- No name and no capture is lost where both are paired, for there are equally many. -/
theorem zip_params {a : Action} {m : Method} {base : String} {path : List Char}
    {vs : List (List Char)} (ha : a.Sound m) (hm : a.pattern.Matches base path vs)
    (f : List Char → String) :
    (a.params.zip (vs.map f)).map Prod.fst = a.params ∧
      (a.params.zip (vs.map f)).map Prod.snd = vs.map f := by
  have hlen : a.params.length = (vs.map f).length := by
    rw [List.length_map, ha.params, Pattern.matches_length hm]
  exact ⟨List.map_fst_zip (Nat.le_of_eq hlen), List.map_snd_zip (Nat.le_of_eq hlen.symm)⟩

theorem resolves_resolve (h : build d s = .ok t) (method url : String) :
    Resolves d s method url (t.resolve method url) := by
  obtain ⟨dflt, hdflt, hdefault⟩ := default_build h
  unfold resolve
  split
  · rename_i target htarget
    unfold resolveTarget
    cases hm : Method.ofName? method with
    | none =>
      simp only [Option.map_none, Option.getD_none, firstMatch, fallback, hdefault]
      exact .unknown hdflt htarget hm
    | some m =>
      simp only [Option.map_some, Option.getD_some, routesFor_build h, baseUrl_build h]
      split
      · rename_i i r ps hfirst
        obtain ⟨k, rfl, hk, hps, hbefore⟩ := firstMatch_eq_some_iff.1 hfirst
        rw [List.getElem?_map, Option.map_eq_some_iff] at hk
        obtain ⟨⟨controller, a⟩, hk, rfl⟩ := hk
        obtain ⟨vs, hvs, rfl⟩ := Route.params?_eq_some_iff.1 hps
        obtain ⟨_, hsound⟩ := sound_of_build h _ (List.mem_filter.1 (List.mem_of_getElem? hk)).1
        obtain ⟨hfst, hsnd⟩ := zip_params hsound hvs _
        rw [Nat.zero_add]
        refine .matched htarget hm hk hvs (fun j hj e he => ?_) hfst hsnd
        have hnone := hbefore j hj (Route.ofEntry s m e) (by rw [List.getElem?_map, he]; rfl)
        exact Route.params?_eq_none_iff.1 hnone
      · rename_i hfirst
        simp only [fallback, hdefault]
        refine .unmatched hdflt htarget hm fun e he => ?_
        have hnone := firstMatch_eq_none_iff.1 hfirst _ (List.mem_map_of_mem he)
        exact Route.params?_eq_none_iff.1 hnone
  · rename_i htarget
    simp only [fallback, hdefault]
    exact .unreadable hdflt htarget

theorem resolve_of_resolves (h : build d s = .ok t) {method url : String} {o : Outcome}
    (ho : Resolves d s method url o) : t.resolve method url = o := by
  obtain ⟨dflt, hdflt, hdefault⟩ := default_build h
  cases ho with
  | unreadable hdflt' htarget =>
    cases hdflt.symm.trans hdflt'
    simp [resolve, htarget, fallback, hdefault]
  | unknown hdflt' htarget hm =>
    cases hdflt.symm.trans hdflt'
    simp [resolve, htarget, resolveTarget, hm, firstMatch, fallback, hdefault,
      Request.RequestTarget.decodedQuery]
  | @unmatched _ target m hdflt' htarget hm hnone =>
    cases hdflt.symm.trans hdflt'
    have hfirst : firstMatch s.baseUrl target.path 0 (t.routesFor m) = none := by
      rw [firstMatch_eq_none_iff, routesFor_build h]
      intro r hr
      obtain ⟨e, he, rfl⟩ := List.mem_map.1 hr
      exact Route.params?_eq_none_iff.2 (hnone e he)
    simp [resolve, htarget, resolveTarget, hm, baseUrl_build h, hfirst, fallback, hdefault,
      Request.RequestTarget.decodedQuery]
  | @matched target m i controller a vs params htarget hm hk hvs hbefore hfst hsnd =>
    have hfirst : firstMatch s.baseUrl target.path 0 (t.routesFor m) =
        some (i, Route.ofEntry s m (controller, a), params) := by
      rw [firstMatch_eq_some_iff, routesFor_build h]
      refine ⟨i, by omega, by rw [List.getElem?_map, hk]; rfl, ?_, fun j hj r hr => ?_⟩
      · exact Route.params?_eq_some_iff.2 ⟨vs, hvs, List.zip_of_prod hfst hsnd⟩
      · rw [List.getElem?_map, Option.map_eq_some_iff] at hr
        obtain ⟨e, he, rfl⟩ := hr
        exact Route.params?_eq_none_iff.2 (hbefore j hj e he)
    simp [resolve, htarget, resolveTarget, hm, baseUrl_build h, hfirst,
      Request.RequestTarget.decodedQuery, Route.ofEntry]

/-- A table that has been built gives a request the outcome that its data and settings determine.
The query of the outcome depends on nothing but the target of the request. -/
theorem resolve_eq_iff (h : build d s = .ok t) (method url : String) :
    (∀ o, t.resolve method url = o ↔ Resolves d s method url o) ∧
      ∀ target, Request.RequestTarget.ofText? url = some target →
        (t.resolve method url).query = target.decodedQuery := by
  refine ⟨fun o => ⟨?_, resolve_of_resolves h⟩, fun target htarget => ?_⟩
  · rintro rfl
    exact resolves_resolve h method url
  · have ho := resolves_resolve h method url
    generalize t.resolve method url = o at ho
    cases ho with
    | unreadable _ hnone => cases hnone.symm.trans htarget
    | unknown _ ht | unmatched _ ht | matched ht => cases ht.symm.trans htarget; rfl

/-- Two of these routes are for the same method, and the first of them asks for digits. -/
def todoRoutes : RouteData :=
  ⟨[⟨"Todos", [⟨"show", "get", [.literal "todos", .capture .int], ["id"]⟩,
    ⟨"add", "Post", [.literal "todos"], []⟩,
    ⟨"find", "GET", [.literal "todos", .capture .text], ["name"]⟩]⟩], none⟩

def todoSettings : Settings := ⟨"App", "/v1/", "Index.index"⟩

theorem resolve_second_route : ∃ t, build todoRoutes todoSettings = .ok t ∧
    t.resolve "Get" "/v1/todos/a%20b?x=1#top" =
      ⟨"App::Todos", "find", [("name", "a b")], [("x", ["1"])], .matched 1⟩ := by
  have hok : (build todoRoutes todoSettings).isOk = true := by decide
  cases hb : build todoRoutes todoSettings with
  | error e => simp [hb, Except.isOk, Except.toBool] at hok
  | ok t =>
    have hfirst : Pattern.captures? [.literal "todos", .capture .int] "/v1/"
        "/v1/todos/a%20b".toList = none := by decide
    have hsecond : Pattern.captures? [.literal "todos", .capture .text] "/v1/"
        "/v1/todos/a%20b".toList = some ["a%20b".toList] := by decide
    have htarget : Request.RequestTarget.ofText? "/v1/todos/a%20b?x=1#top" =
        some ⟨"/v1/todos/a%20b".toList, some "x=1".toList⟩ := by decide
    have hmethod : Method.ofName? "Get" = some .get := by decide
    have hentry : (todoRoutes.entriesFor .get)[1]? =
        some ("Todos", ⟨"find", "GET", [.literal "todos", .capture .text], ["name"]⟩) := by rfl
    have hbefore : ∀ j < 1, ∀ e, (todoRoutes.entriesFor .get)[j]? = some e →
        ∀ ws, ¬e.2.pattern.Matches "/v1/" "/v1/todos/a%20b".toList ws := by
      intro j hj e he
      obtain rfl : j = 0 := by omega
      cases he
      exact Pattern.captures?_eq_none_iff.1 hfirst
    have hname : [("name", "a b")].map Prod.fst = ["name"] := by rfl
    have hvalue : [("name", "a b")].map Prod.snd =
        ["a%20b".toList].map (fun v => String.ofList (Text.Percent.decodeText v)) := by
      decide
    have ho := ((resolve_eq_iff hb "Get" "/v1/todos/a%20b?x=1#top").1 _).2
      (.matched htarget hmethod hentry (Pattern.captures?_eq_some_iff.1 hsecond) hbefore hname
        hvalue)
    exact ⟨t, rfl, ho.trans (by decide)⟩

end Table
end Routes
