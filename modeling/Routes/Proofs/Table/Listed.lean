import Routes.Proofs.Pattern.Listed
import Routes.Proofs.RouteData.Spelling
import Routes.Proofs.Table.Grouping
import Routes.Proofs.Table.Link
/-!
Listed paths as requests. Main statement: with values for its parameters, the path that a table
lists for a route is taken by that route or by one in front of it, but for a base URL with two
slashes side by side between its ends. Its listed paths are taken by no route at all.
-/
namespace Routes
open Token (isFragmentChar IsRun)

variable {d : RouteData} {s : Settings} {t : Table} {source method : String} {m : Method} {i : Nat}
  {r : Route} {vs : List String}

namespace Table

/-- The path of a route as the table lists it, with values for its parameters. -/
def listedUrl (t : Table) (r : Route) (vs : List String) : String :=
  fillListed (t.fullPath r.template) vs

theorem toList_listedUrl {e : String × Action} (he : e.2.Spelled)
    (hbase : ∀ c ∈ t.baseUrl.toList, isFragmentChar c = true ∨ c = '/')
    (hvs : e.2.pattern.Chooses vs) (hplain : ∀ v ∈ vs, IsPlainValue v) :
    (t.listedUrl (Route.ofEntry s m e) vs).toList =
      '/' :: Text.join '/' (Pattern.listedBase t.baseUrl ++ e.2.pattern.fill vs) :=
  Pattern.fillListed_fullPath hbase he.literals (fun name hname => (he.params name hname).1) hvs
    hplain

/-- No listed path has a mark in it, so it is the path of a request as it is. -/
theorem ofText?_listedUrl {e : String × Action} (he : e.2.Spelled)
    (hbase : ∀ c ∈ t.baseUrl.toList, isFragmentChar c = true ∨ c = '/')
    (hvs : e.2.pattern.Chooses vs) (hplain : ∀ v ∈ vs, IsPlainValue v) :
    Request.RequestTarget.ofText? (t.listedUrl (Route.ofEntry s m e) vs) =
      some ⟨(t.listedUrl (Route.ofEntry s m e) vs).toList, none⟩ := by
  have hlink : ∀ c ∈ (t.listedUrl (Route.ofEntry s m e) vs).toList, Pattern.IsLinkChar c := by
    rw [toList_listedUrl he hbase hvs hplain]
    intro c hc
    rcases List.mem_cons.1 hc with hslash | hjoin
    · exact .inr (.inl hslash)
    · rcases Text.mem_join hjoin with hslash | ⟨text, htext, hmem⟩
      · exact .inr (.inl hslash)
      · rcases List.mem_append.1 htext with hfront | hfill
        · exact (hbase c (Pattern.mem_of_mem_listedBase hfront hmem)).imp id .inl
        · exact Pattern.mem_fill he.literals hfill hmem
  exact Request.RequestTarget.ofText?_eq_path (fun c hmark hc => (hlink c hc).not_mark.1 hmark)
    fun c hc => (hlink c hc).not_mark.2

/-- Where a request has a path that no route matches, it goes to the default. -/
theorem resolve_of_not_matches {url : String} {path : List Char}
    (htarget : Request.RequestTarget.ofText? url = some ⟨path, none⟩)
    (h : ∀ m, ∀ r ∈ t.routesFor m, ∀ ws, ¬r.pattern.Matches t.baseUrl path ws) :
    t.resolve method url = t.fallback [] := by
  have hfirst : firstMatch t.baseUrl path 0 (((Method.ofName? method).map t.routesFor).getD []) =
      none := by
    rw [firstMatch_eq_none_iff]
    intro r hr
    cases hm : Method.ofName? method with
    | none =>
      rw [hm] at hr
      cases hr
    | some m =>
      rw [hm] at hr
      exact Route.params?_eq_none_iff.2 (h m r hr)
  rw [resolve, htarget]
  simp only [resolveTarget, hfirst]
  rfl

/-- The line on a route is part of the listing. -/
theorem routeLine_infix_listing (h : r ∈ t.routes) :
    (t.routeLine r).toList <:+: t.listing.toList := by
  obtain ⟨before, behind, hroutes⟩ := List.append_of_mem h
  have hlisting : t.listing.toList = t.headerLine.toList ++
      (before.map t.routeLine).flatMap String.toList ++ (t.routeLine r).toList ++
        (behind.map t.routeLine).flatMap String.toList := by
    rw [listing, String.toList_append, String.toList_join, hroutes, List.map_append, List.map_cons,
      List.flatMap_append, List.flatMap_cons, List.append_assoc, List.append_assoc]
  rw [hlisting]
  exact List.infix_append _ _ _

/-- What a table lists for a route leads to the route or to one in front of it. It leads nowhere
for exactly the base URLs with two slashes side by side between their ends. -/
theorem resolve_listedUrl (h : ofSource source s = .ok t)
    (hbase : ∀ c ∈ s.baseUrl.toList, isFragmentChar c = true ∨ c = '/')
    (hm : Method.ofName? method = some m) (hr : (t.routesFor m)[i]? = some r)
    (hvs : r.pattern.Chooses vs) (hplain : ∀ v ∈ vs, IsPlainValue v) :
    t.fullPath r.template ∈ t.pathPatterns ∧
    (t.routeLine r).toList <:+: t.listing.toList ∧
    (¬Pattern.HasDoubleSlash s.baseUrl →
      ∃ j ≤ i, (t.resolve method (t.listedUrl r vs)).kind = .matched j) ∧
    (Pattern.HasDoubleSlash s.baseUrl →
      t.resolve method (t.listedUrl r vs) = t.fallback []) := by
  obtain ⟨d, hd, hbuild⟩ := ofSource_eq_ok.1 h
  obtain ⟨e, he, rfl⟩ := entry_of_routesFor hbuild hr
  have hspelled := RouteData.spelled_of_ofSource hd
  have hmem : e ∈ d.entries := (List.mem_filter.1 (List.mem_of_getElem? he)).1
  have haction := (hspelled.entry hmem).2
  rw [← baseUrl_build hbuild] at hbase ⊢
  have htarget := ofText?_listedUrl (s := s) (m := m) haction hbase hvs hplain
  have hroute := mem_routes_of_mem_routesFor (List.mem_of_getElem? hr)
  refine ⟨?_, routeLine_infix_listing hroute, fun hgap => ?_, fun hgap => ?_⟩
  · exact ((firstSeen_pathPatterns t).mem_iff _).2 (List.mem_map.2 ⟨_, hroute, rfl⟩)
  · have hlink : (t.listedUrl (Route.ofEntry s m e) vs).toList =
        (e.2.pattern.link t.baseUrl vs).toList := by
      rw [toList_listedUrl haction hbase hvs hplain, Pattern.link_of_not_hasDoubleSlash hgap]
    have hmatch := Pattern.matches_link hvs t.baseUrl
    rw [baseUrl_build hbuild] at hlink hmatch
    have hres := resolves_resolve hbuild method (t.listedUrl (Route.ofEntry s m e) vs)
    obtain ⟨j, hle, hkind, -⟩ := hres.matched_of_matches (hlink ▸ htarget) hm he hmatch
    exact ⟨j, hle, hkind⟩
  · -- No pattern takes a path with two slashes side by side, whatever the method.
    refine resolve_of_not_matches htarget fun m' r hr ws => ?_
    obtain ⟨k, hk⟩ := List.mem_iff_getElem?.1 hr
    obtain ⟨e', he', rfl⟩ := entry_of_routesFor hbuild hk
    have haction' := (hspelled.entry (List.mem_filter.1 (List.mem_of_getElem? he')).1).2
    rw [toList_listedUrl haction hbase hvs hplain]
    exact Pattern.not_matches_of_hasDoubleSlash hgap haction'.literals _

theorem resolve_listedUrl_note : ∃ (t : Table) (r : Route),
    ofSource noteSource noteSettings = .ok t ∧ (t.routesFor .get)[1]? = some r ∧
    t.fullPath r.template = "/v1/notes/<title:string>/<id:int>" ∧
    t.fullPath r.template ∈ t.pathPatterns ∧ t.listedUrl r ["ab1", "007"] = "/v1/notes/ab1/007" ∧
    ∃ j ≤ 1, (t.resolve "get" "/v1/notes/ab1/007").kind = .matched j := by
  have hread : ((build noteRoutes noteSettings).toOption.map fun (t : Table) =>
      (t.routesFor .get)[1]?.map fun (r : Route) => (r.pattern, t.fullPath r.template)) =
      some (some ([.literal "notes", .capture .text, .capture .int],
        "/v1/notes/<title:string>/<id:int>")) := by
    decide
  obtain ⟨t, ht, htable⟩ := Option.map_eq_some_iff.1 hread
  obtain ⟨r, hr, hsegments⟩ := Option.map_eq_some_iff.1 htable
  obtain ⟨hpattern, hpath⟩ := Prod.mk.inj hsegments
  have hok : ofSource noteSource noteSettings = .ok t :=
    ofSource_eq_ok.2 ⟨noteRoutes, ofSource_noteSource, toOption_eq_some_iff.1 ht⟩
  have hbase : ∀ c ∈ noteSettings.baseUrl.toList, isFragmentChar c = true ∨ c = '/' := by
    have hall : noteSettings.baseUrl.toList.all (fun c => isFragmentChar c || c == '/') = true := by
      decide
    intro c hc
    simpa using List.all_eq_true.1 hall c hc
  have hmethod : Method.ofName? "get" = some .get := by decide
  have htitle : ParamKind.text.Allows "ab1" := by
    show _ ≠ _
    decide
  have hid : ParamKind.int.Allows "007" := by
    have hall : "007".toList.all Char.isDigit = true := by decide
    exact ⟨by decide, List.all_eq_true.1 hall⟩
  have hvalues : r.pattern.Chooses ["ab1", "007"] := by
    rw [hpattern]
    exact .literal (.capture htitle (.capture hid .nil))
  have hplain : ∀ v ∈ ["ab1", "007"], IsPlainValue v := by
    have hall : ["ab1", "007"].all (fun v => v.toList.all Char.isAlphanum) = true := by
      decide
    exact fun v hv => List.all_eq_true.1 (List.all_eq_true.1 hall v hv)
  have hgap : ¬Pattern.HasDoubleSlash noteSettings.baseUrl := by decide
  have hurl : t.listedUrl r ["ab1", "007"] = "/v1/notes/ab1/007" := by
    rw [listedUrl, hpath]
    decide
  obtain ⟨hlisted, -, hserved, -⟩ := resolve_listedUrl hok hbase hmethod hr hvalues hplain
  exact ⟨t, r, hok, hr, hpath, hlisted, hurl, hurl ▸ hserved hgap⟩

/-- The base URL of a table that lists `/api//v1/notes/<id:int>` and serves `/api/v1/notes/7`. -/
def gapSettings : Settings := ⟨"", "api//v1", "Notes.show"⟩

theorem listed_not_served : ∃ (t : Table) (r : Route),
    ofSource noteSource gapSettings = .ok t ∧ (t.routesFor .get)[0]? = some r ∧
    t.fullPath r.template = "/api//v1/notes/<id:int>" ∧ t.fullPath r.template ∈ t.pathPatterns ∧
    t.listedUrl r ["7"] = "/api//v1/notes/7" ∧
    ¬∃ j ≤ 0, (t.resolve "get" "/api//v1/notes/7").kind = .matched j := by
  have hread : ((build noteRoutes gapSettings).toOption.map fun (t : Table) =>
      ((t.routesFor .get)[0]?.map fun (r : Route) => t.fullPath r.template, t.pathPatterns,
        (t.resolve "get" "/api//v1/notes/7").kind)) =
      some (some "/api//v1/notes/<id:int>",
        ["/api//v1/notes/<id:int>", "/api//v1/notes/<title:string>/<id:int>"], .fallback) := by
    decide
  obtain ⟨t, ht, htable⟩ := Option.map_eq_some_iff.1 hread
  obtain ⟨hroute, hread⟩ := Prod.mk.inj htable
  obtain ⟨hpatterns, hkind⟩ := Prod.mk.inj hread
  obtain ⟨r, hr, hpath⟩ := Option.map_eq_some_iff.1 hroute
  have hok : ofSource noteSource gapSettings = .ok t :=
    ofSource_eq_ok.2 ⟨noteRoutes, ofSource_noteSource, toOption_eq_some_iff.1 ht⟩
  have hurl : t.listedUrl r ["7"] = "/api//v1/notes/7" := by
    rw [listedUrl, hpath]
    decide
  have hlisted : t.fullPath r.template ∈ t.pathPatterns := by
    rw [hpath, hpatterns]
    exact List.mem_cons_self
  refine ⟨t, r, hok, hr, hpath, hlisted, hurl, ?_⟩
  rintro ⟨j, -, hj⟩
  cases hkind.symm.trans hj

end Table
end Routes
