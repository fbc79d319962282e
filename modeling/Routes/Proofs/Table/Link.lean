import Routes.Proofs.Pattern.Link
import Routes.Proofs.RouteData.Spelling
import Routes.Proofs.Table.Resolve
/-!
Links resolved. Main statement: the link of a route leads to the route and gives the values back, or
it leads to a route in front of it.
-/
namespace Routes
open Token (isFragmentChar)

variable {d : RouteData} {s : Settings} {t : Table} {source method : String} {m : Method} {i : Nat}
  {r : Route} {e : String × Action} {vs : List String} {o : Outcome}

/-- The outcome of a path that an entry matches: no later entry is taken, and if this one is, its
captures are those of the path. -/
theorem Resolves.matched_of_matches {url : String} {path : List Char}
    {query : Option (List Char)} {ws : List (List Char)} (h : Resolves d s method url o)
    (htarget : Request.RequestTarget.ofText? url = some ⟨path, query⟩)
    (hm : Method.ofName? method = some m) (he : (d.entriesFor m)[i]? = some e)
    (hmatch : e.2.pattern.Matches s.baseUrl path ws) :
    ∃ j ≤ i, o.kind = .matched j ∧ (j = i → o.urlParams.map Prod.fst = e.2.params ∧
      o.urlParams.map Prod.snd = ws.map fun v => String.ofList (Text.Percent.decodeText v)) := by
  cases h with
  | unreadable _ hnone => cases hnone.symm.trans htarget
  | unknown _ _ hnone => cases hnone.symm.trans hm
  | unmatched _ htarget' hm' hnone =>
    cases htarget.symm.trans htarget'
    cases hm.symm.trans hm'
    exact absurd hmatch (hnone e (List.mem_of_getElem? he) ws)
  | @matched _ _ j controller a vs params htarget' hm' hj hvs hbefore hfst hsnd =>
    cases htarget.symm.trans htarget'
    cases hm.symm.trans hm'
    have hle : j ≤ i := by
      apply Nat.le_of_not_lt
      intro hlt
      exact hbefore i hlt e he ws hmatch
    refine ⟨j, hle, rfl, ?_⟩
    rintro rfl
    cases he.symm.trans hj
    have hcaptures : vs = ws := Pattern.matches_unique hvs hmatch
    exact ⟨hfst, hcaptures ▸ hsnd⟩

namespace Table

theorem ofSource_eq_ok : ofSource source s = .ok t ↔
    ∃ d, RouteData.ofSource source = .ok d ∧ build d s = .ok t := by
  simp only [ofSource, bind_eq_ok, mapError_eq_ok]

/-- A route of a table stands for an action of its data. -/
theorem entry_of_routesFor (h : build d s = .ok t) (hr : (t.routesFor m)[i]? = some r) :
    ∃ e, (d.entriesFor m)[i]? = some e ∧ r = Route.ofEntry s m e := by
  rw [routesFor_build h, List.getElem?_map, Option.map_eq_some_iff] at hr
  obtain ⟨e, he, hr⟩ := hr
  exact ⟨e, he, hr.symm⟩

/-- The link of a route with values for its captures never goes to the default. It is taken by the
route, which reads the values back, unless a route in front takes it. -/
theorem resolve_link (h : ofSource source s = .ok t)
    (hbase : ∀ c ∈ s.baseUrl.toList, isFragmentChar c = true ∨ c = '/')
    (hm : Method.ofName? method = some m) (hr : (t.routesFor m)[i]? = some r)
    (hvs : r.pattern.Chooses vs) (ho : t.resolve method (r.pattern.link s.baseUrl vs) = o) :
    ∃ j ≤ i, o.kind = .matched j ∧
      (j = i → o.urlParams.map Prod.fst = r.params ∧ o.urlParams.map Prod.snd = vs) := by
  obtain ⟨d, hd, hbuild⟩ := ofSource_eq_ok.1 h
  obtain ⟨e, he, rfl⟩ := entry_of_routesFor hbuild hr
  have hmem : e ∈ d.entries := (List.mem_filter.1 (List.mem_of_getElem? he)).1
  have hliterals : ∀ text, Segment.literal text ∈ e.2.pattern → Token.IsRun text.toList :=
    RouteData.isRun_of_ofSource hd e hmem
  have htarget : Request.RequestTarget.ofText? (e.2.pattern.link s.baseUrl vs) =
      some ⟨(e.2.pattern.link s.baseUrl vs).toList, none⟩ := Pattern.ofText?_link hbase hliterals
  have hchooses : e.2.pattern.Chooses vs := hvs
  have hmatch := Pattern.matches_link hchooses s.baseUrl
  have hres := resolves_resolve hbuild method (e.2.pattern.link s.baseUrl vs)
  obtain ⟨j, hle, hkind, hparams⟩ := hres.matched_of_matches htarget hm he hmatch
  subst ho
  refine ⟨j, hle, hkind, fun hj => ?_⟩
  obtain ⟨hfst, hsnd⟩ := hparams hj
  exact ⟨hfst, hsnd.trans (Pattern.decodeText_code vs)⟩

/-- Two routes of which the first takes no link of the second. -/
def noteSource : String := "controller Notes actions show <- GET /notes/<id:int> " ++
  "find <- GET /notes/<title:string>/<id:int> end end"

def noteRoutes : RouteData :=
  ⟨[⟨"Notes", [⟨"show", "GET", [.literal "notes", .capture .int], ["id"]⟩,
    ⟨"find", "GET", [.literal "notes", .capture .text, .capture .int], ["title", "id"]⟩]⟩], none⟩

theorem ofSource_noteSource : RouteData.ofSource noteSource = .ok noteRoutes :=
  toOption_eq_some_iff.1 (by decide +kernel)

def noteSettings : Settings := ⟨"", "//v1/", "Notes.show"⟩

def noteValues : List String := ["7/ü? %2F#a:b", "007"]

def noteLink : String := "/v1/notes/7%2F%C3%BC%3F%20%252F%23a%3Ab/007"

theorem resolve_link_note : ∃ (t : Table) (r : Route), ofSource noteSource noteSettings = .ok t ∧
    (t.routesFor .get)[1]? = some r ∧ r.pattern.Chooses noteValues ∧
    r.pattern.link noteSettings.baseUrl noteValues = noteLink ∧
    (t.resolve "get" noteLink).kind = .matched 1 ∧
    (t.resolve "get" noteLink).urlParams.map Prod.fst = ["title", "id"] ∧
    (t.resolve "get" noteLink).urlParams.map Prod.snd = noteValues := by
  have hread : ((build noteRoutes noteSettings).toOption.map fun (t : Table) =>
      ((t.routesFor .get)[1]?.map fun (r : Route) => (r.pattern, r.params),
        (t.resolve "get" noteLink).kind)) =
      some (some ([.literal "notes", .capture .text, .capture .int], ["title", "id"]),
        .matched 1) := by
    decide
  obtain ⟨t, ht, htable⟩ := Option.map_eq_some_iff.1 hread
  obtain ⟨hroute, hkind⟩ := Prod.mk.inj htable
  obtain ⟨r, hr, hsegments⟩ := Option.map_eq_some_iff.1 hroute
  obtain ⟨hpattern, hparams⟩ := Prod.mk.inj hsegments
  have hok : ofSource noteSource noteSettings = .ok t :=
    ofSource_eq_ok.2 ⟨noteRoutes, ofSource_noteSource, toOption_eq_some_iff.1 ht⟩
  have hbase : ∀ c ∈ noteSettings.baseUrl.toList, isFragmentChar c = true ∨ c = '/' := by
    have hall : noteSettings.baseUrl.toList.all (fun c => isFragmentChar c || c == '/') = true := by
      decide
    intro c hc
    simpa using List.all_eq_true.1 hall c hc
  have hmethod : Method.ofName? "get" = some .get := by decide
  have htitle : ParamKind.text.Allows "7/ü? %2F#a:b" := by
    show _ ≠ _
    decide
  have hid : ParamKind.int.Allows "007" := by
    have hall : "007".toList.all Char.isDigit = true := by decide
    exact ⟨by decide, List.all_eq_true.1 hall⟩
  have hvalues : r.pattern.Chooses noteValues := by
    rw [hpattern]
    exact .literal (.capture htitle (.capture hid .nil))
  have hlink : r.pattern.link noteSettings.baseUrl noteValues = noteLink := by
    rw [hpattern]
    decide
  have hresolve : t.resolve "get" (r.pattern.link noteSettings.baseUrl noteValues) =
      t.resolve "get" noteLink := by
    rw [hlink]
  obtain ⟨j, -, hj, hback⟩ := resolve_link hok hbase hmethod hr hvalues hresolve
  rw [hkind] at hj
  cases hj
  exact ⟨t, r, hok, hr, hvalues, hlink, hkind, hparams ▸ hback rfl⟩

end Table
end Routes
