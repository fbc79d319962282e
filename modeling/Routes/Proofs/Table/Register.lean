import Routes.Proofs.RouteData.Register
import Routes.Proofs.Table.Resolve
/-!
Tables of data to which routes have been added. Main statement: a request that a route takes keeps
its outcome, and one that goes to the default keeps it as well unless an added route takes it.
-/
namespace Routes
variable {d d' : RouteData} {s : Settings} {t t' : Table} {rs : List RouteText}
  {added : List (String × Action)} {method url : String} {o o' : Outcome} {i : Nat}

theorem RouteData.entriesFor_of_entries (h : d'.entries = d.entries ++ added) (m : Method) :
    d'.entriesFor m = d.entriesFor m ++
      added.filter fun e => Method.ofName? e.2.method == some m := by
  rw [entriesFor, h, List.filter_append]
  rfl

namespace Resolves

/-- An outcome that no route gives is said by the default and the target alone. -/
theorem eq_fallback (h : Resolves d s method url o) (hkind : o.kind = .fallback) :
    ∃ dflt, Table.defaultTarget d s = .ok dflt ∧ o = ⟨s.qualify dflt.controller, dflt.action, [],
      ((Request.RequestTarget.ofText? url).map (·.decodedQuery)).getD [], .fallback⟩ := by
  cases h with
  | unreadable hdefault htarget => exact ⟨_, hdefault, by rw [htarget]; rfl⟩
  | unknown hdefault htarget _ => exact ⟨_, hdefault, by rw [htarget]; rfl⟩
  | unmatched hdefault htarget _ _ => exact ⟨_, hdefault, by rw [htarget]; rfl⟩
  | matched => cases hkind

/-- An outcome that a route gives stays the same with more entries behind. -/
theorem of_entries (h : Resolves d s method url o) (hkind : o.kind = .matched i)
    (hentries : d'.entries = d.entries ++ added) : Resolves d' s method url o := by
  cases h with
  | unreadable | unknown | unmatched => cases hkind
  | @matched _ m j _ _ _ _ htarget hm hj hmatch hbefore hfst hsnd =>
    obtain ⟨hlt, -⟩ := List.getElem?_eq_some_iff.1 hj
    have hfront : ∀ k ≤ j, (d'.entriesFor m)[k]? = (d.entriesFor m)[k]? := by
      intro k hk
      rw [RouteData.entriesFor_of_entries hentries, List.getElem?_append_left (by omega)]
    refine .matched htarget hm ((hfront j (Nat.le_refl j)).trans hj) hmatch ?_ hfst hsnd
    intro k hk e he
    exact hbefore k hk e ((hfront k (Nat.le_of_lt hk)).symm.trans he)

/-- Where no route was taken, one that is taken now is among the entries behind. -/
theorem added_of_fallback (h : Resolves d s method url o) (hkind : o.kind = .fallback)
    (h' : Resolves d' s method url o') (hkind' : o'.kind = .matched i)
    (hentries : d'.entries = d.entries ++ added) :
    ∃ m, Method.ofName? method = some m ∧ (d.entriesFor m).length ≤ i ∧
      ∃ e ∈ added, (d'.entriesFor m)[i]? = some e ∧ o'.controller = s.qualify e.1 ∧
        o'.action = e.2.name := by
  cases h' with
  | unreadable | unknown | unmatched => cases hkind'
  | @matched _ m j controller a vs _ htarget hm hj hmatch =>
    obtain rfl : j = i := Outcome.Kind.matched.inj hkind'
    have hfor := RouteData.entriesFor_of_entries hentries m
    have hle : (d.entriesFor m).length ≤ j := by
      apply Nat.le_of_not_lt
      intro hlt
      rw [hfor, List.getElem?_append_left hlt] at hj
      cases h with
      | unreadable _ hnone => cases hnone.symm.trans htarget
      | unknown _ _ hnone => cases hnone.symm.trans hm
      | unmatched _ htarget' hm' hnot =>
        cases htarget.symm.trans htarget'
        cases hm.symm.trans hm'
        exact hnot _ (List.mem_of_getElem? hj) vs hmatch
      | matched => cases hkind
    have hadded := hj
    rw [hfor, List.getElem?_append_right hle] at hadded
    exact ⟨m, hm, hle, _, (List.mem_filter.1 (List.mem_of_getElem? hadded)).1, hj, rfl, rfl⟩

end Resolves

namespace Table

/-- Registering routes takes no request away from a route. The routes that are added stand behind
the others of their method, and the outcome of a request changes only from the default to one of
them. -/
theorem resolve_registered (hd : d.registerAll rs = .ok d') (ht : build d s = .ok t)
    (ht' : build d' s = .ok t') : ∃ added, List.Forall₂ RouteText.Adds rs added ∧
      ∀ method url,
        (∀ i, (t.resolve method url).kind = .matched i →
          t'.resolve method url = t.resolve method url) ∧
        ((t.resolve method url).kind = .fallback →
          t'.resolve method url = t.resolve method url ∨
          ∃ m i, Method.ofName? method = some m ∧ (t'.resolve method url).kind = .matched i ∧
            (t.routesFor m).length ≤ i ∧
            ∃ e ∈ added, (t'.routesFor m)[i]? = some (.ofEntry s m e) ∧
              (t'.resolve method url).controller = s.qualify e.1 ∧
              (t'.resolve method url).action = e.2.name) := by
  obtain ⟨added, hadds, hentries, hdefault⟩ := RouteData.registerAll_eq_ok hd
  refine ⟨added, hadds, fun method url => ?_⟩
  have h := resolves_resolve ht method url
  have h' := resolves_resolve ht' method url
  refine ⟨fun i hi => resolve_of_resolves ht' (h.of_entries hi hentries), fun hfallback => ?_⟩
  cases hkind : (t'.resolve method url).kind with
  | fallback =>
    obtain ⟨dflt, hdflt, ho⟩ := h.eq_fallback hfallback
    obtain ⟨dflt', hdflt', ho'⟩ := h'.eq_fallback hkind
    rw [defaultTarget, hdefault] at hdflt'
    cases hdflt.symm.trans hdflt'
    exact .inl (ho'.trans ho.symm)
  | matched i =>
    obtain ⟨m, hm, hle, e, he, hi, hcontroller, haction⟩ :=
      h.added_of_fallback hfallback h' hkind hentries
    refine .inr ⟨m, i, hm, rfl, ?_, e, he, ?_, hcontroller, haction⟩
    · rwa [routesFor_build ht, List.length_map]
    · rw [routesFor_build ht', List.getElem?_map, hi]
      rfl

/-- A route with a parameter, and below it routes that would take some of the same paths. -/
def shelfRoutes : RouteData :=
  ⟨[⟨"Shelf", [⟨"show", "GET", [.literal "books", .capture .text], ["title"]⟩]⟩],
    some ⟨"Shelf", "all"⟩⟩

def shelfTexts : List RouteText :=
  [⟨"get", "/books/new", "Shelf.create"⟩, ⟨"post", "books", "Shelf#add"⟩,
    ⟨"GET", "/:kind/:a/:b", "Search.pair"⟩]

theorem resolve_registered_shelf : ∃ (d : RouteData) (t t' : Table),
    shelfRoutes.registerAll shelfTexts = .ok d ∧ build shelfRoutes .standard = .ok t ∧
    build d .standard = .ok t' ∧ (t.resolve "get" "/books/new?x=1").kind = .matched 0 ∧
    t'.resolve "get" "/books/new?x=1" = t.resolve "get" "/books/new?x=1" ∧
    (t.resolve "get" "/books/a/b").kind = .fallback ∧
    ∃ i, (t'.resolve "get" "/books/a/b").kind = .matched i ∧ (t.routesFor .get).length ≤ i := by
  have hread : (shelfRoutes.registerAll shelfTexts).toOption.bind (fun d =>
      (build shelfRoutes .standard).toOption.bind fun (t : Table) =>
        (build d .standard).toOption.map fun (t' : Table) =>
          ((t.resolve "get" "/books/new?x=1").kind, (t.resolve "get" "/books/a/b").kind,
            (t'.resolve "get" "/books/a/b").kind)) =
      some (.matched 0, .fallback, .matched 2) := by
    decide
  obtain ⟨d, hd, hread⟩ := Option.bind_eq_some_iff.1 hread
  obtain ⟨t, ht, hread⟩ := Option.bind_eq_some_iff.1 hread
  obtain ⟨t', ht', hread⟩ := Option.map_eq_some_iff.1 hread
  obtain ⟨hshow, hkinds⟩ := Prod.mk.inj hread
  obtain ⟨hpair, hpair'⟩ := Prod.mk.inj hkinds
  have hd := toOption_eq_some_iff.1 hd
  have ht := toOption_eq_some_iff.1 ht
  have ht' := toOption_eq_some_iff.1 ht'
  obtain ⟨added, -, hresolve⟩ := resolve_registered hd ht ht'
  refine ⟨d, t, t', hd, ht, ht', hshow, (hresolve _ _).1 0 hshow, hpair, 2, hpair', ?_⟩
  rcases (hresolve "get" "/books/a/b").2 hpair with hsame | ⟨m, i, hm, hi, hle, -⟩
  · rw [hsame, hpair] at hpair'
    cases hpair'
  · have hget : Method.ofName? "get" = some .get := by decide
    cases hget.symm.trans hm
    cases hpair'.symm.trans hi
    exact hle

end Table
end Routes
