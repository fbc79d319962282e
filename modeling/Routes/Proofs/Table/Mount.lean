import Routes.Proofs.Pattern.Mount
import Routes.Proofs.Request.Target
import Routes.Proofs.Table.Load
/-!
Tables under a base URL. Main statement: behind its base URL, a table resolves requests as the table
without a base URL does, and no other path matches a route of it.
-/
namespace Routes
open Token (isFragmentChar)
open Request (IsRelative relativePath)

/-- The settings of a table that is put under a base URL. -/
def Settings.mount (s : Settings) (base : String) : Settings := { s with baseUrl := base }

variable {source base method url : String} {d : RouteData} {s : Settings} {o : Outcome}

/-- A path leads to a base URL: it ends with the base URL, or goes on with a slash. -/
def LeadsTo (base : String) (path : List Char) : Prop :=
  ∃ l rest, (l = [] ∨ l = ['/']) ∧ path = l ++ Pattern.mountPath base ++ rest ∧
    (rest = [] ∨ rest.head? = some '/')

/-- The path of a base URL between two slashes. -/
def mountFront (base : String) : String := "/" ++ String.ofList (Pattern.mountPath base) ++ "/"

theorem mountFront_toList (base : String) :
    (mountFront base).toList = '/' :: (Pattern.mountPath base ++ ['/']) := by
  simp [mountFront]

theorem isLinkChar_of_mem_mountFront (hbase : ∀ c ∈ base.toList, isFragmentChar c = true ∨ c = '/')
    {c : Char} (h : c ∈ (mountFront base).toList) : Pattern.IsLinkChar c := by
  rw [mountFront_toList, List.mem_cons, List.mem_append, List.mem_singleton] at h
  rcases h with rfl | hpath | rfl
  · exact .inr (.inl rfl)
  · rcases Text.mem_join hpath with hslash | ⟨piece, hpiece, hc⟩
    · exact .inr (.inl hslash)
    · have hmem := Text.mem_of_mem_pieces (List.mem_filter.1 hpiece).1 hc
      exact (hbase c hmem).imp id .inl
  · exact .inr (.inl rfl)

/-- The two targets of a request, behind a base URL and without one: neither is understood, or both
have the same query and, behind the base URL, the same path. -/
theorem ofText?_mounted (hbase : ∀ c ∈ base.toList, isFragmentChar c = true ∨ c = '/')
    {p : String} (hroot : IsRelative ("/" ++ p)) (hmounted : IsRelative (mountFront base ++ p)) :
    (Request.RequestTarget.ofText? ("/" ++ p) = none ∧
      Request.RequestTarget.ofText? (mountFront base ++ p) = none) ∨
    ∃ query, Request.RequestTarget.ofText? ("/" ++ p) = some ⟨'/' :: relativePath p, query⟩ ∧
      Request.RequestTarget.ofText? (mountFront base ++ p) =
        some ⟨'/' :: (Pattern.mountPath base ++ '/' :: relativePath p), query⟩ := by
  have hfront : ∀ c ∈ (mountFront base).toList, c ∉ ['#', '?', ':'] ∧ Request.isPathChar c = true :=
    fun c hc => (isLinkChar_of_mem_mountFront hbase hc).not_mark
  have hslash : ∀ c ∈ "/".toList, c ∉ ['#', '?', ':'] ∧ Request.isPathChar c = true :=
    List.forall_mem_singleton.2 (by decide)
  have hmarks : ∀ c ∈ ['#', '?'], c ∉ "/".toList ∧ c ∉ (mountFront base).toList := by
    intro c hc
    have hmark : c ∈ ['#', '?', ':'] := List.mem_append_left [':'] hc
    exact ⟨fun hmem => (hslash c hmem).1 hmark, fun hmem => (hfront c hmem).1 hmark⟩
  have hchars : ∀ c ∈ "/".toList ++ (mountFront base).toList, Request.isPathChar c = true :=
    List.forall_mem_append.2 ⟨fun c hc => (hslash c hc).2, fun c hc => (hfront c hc).2⟩
  rcases Request.RequestTarget.ofText?_append hroot hmounted hmarks hchars with hnone | ⟨query, ha, hb⟩
  · exact .inl hnone
  · refine .inr ⟨query, ha, ?_⟩
    rw [hb, mountFront_toList, List.cons_append, List.append_assoc]
    rfl

/-- An outcome without a base URL is the outcome behind it. -/
theorem Resolves.mounted (hd : d.Spelled)
    (hbase : ∀ c ∈ base.toList, isFragmentChar c = true ∨ c = '/')
    (hne : Pattern.basePieces base ≠ []) {p : String} (hp : p.toList.head? ≠ some '/')
    (hroot : IsRelative ("/" ++ p)) (hmounted : IsRelative (mountFront base ++ p))
    (h : Resolves d (s.mount "") method ("/" ++ p) o) :
    Resolves d (s.mount base) method (mountFront base ++ p) o := by
  have hrest : (relativePath p).head? ≠ some '/' := by
    intro hslash
    exact hp (Request.head?_of_textBefore (Request.head?_of_textBefore hslash))
  have hmatches : ∀ {m : Method} {e : String × Action}, e ∈ d.entriesFor m → ∀ vs,
      e.2.pattern.Matches base ('/' :: (Pattern.mountPath base ++ '/' :: relativePath p)) vs ↔
        e.2.pattern.Matches "" ('/' :: relativePath p) vs := by
    intro m e he vs
    obtain ⟨c, hc, hmap⟩ := List.mem_flatMap.1 (List.mem_filter.1 he).1
    obtain ⟨a, ha, rfl⟩ := List.mem_map.1 hmap
    exact Pattern.matches_mounted_iff ((hd.controllers c hc).actions a ha).literals hne hrest
  rcases ofText?_mounted hbase hroot hmounted with ⟨hnone, hnone'⟩ | ⟨query, hsome, hsome'⟩
  · cases h with
    | unreadable hdefault _ => exact .unreadable hdefault hnone'
    | unknown _ htarget _ | unmatched _ htarget _ _ | matched htarget _ _ _ _ _ _ =>
      cases hnone.symm.trans htarget
  · cases h with
    | unreadable _ hnone => cases hsome.symm.trans hnone
    | unknown hdefault htarget hm =>
      cases hsome.symm.trans htarget
      have hbehind := Resolves.unknown (d := d) (s := s.mount base) hdefault hsome' hm
      exact hbehind
    | @unmatched _ _ m hdefault htarget hm hnot =>
      cases hsome.symm.trans htarget
      have hnot' : ∀ e ∈ d.entriesFor m, ∀ vs, ¬e.2.pattern.Matches base
          ('/' :: (Pattern.mountPath base ++ '/' :: relativePath p)) vs :=
        fun e he vs hmatch => hnot e he vs ((hmatches he vs).1 hmatch)
      have hbehind := Resolves.unmatched (d := d) (s := s.mount base) hdefault hsome' hm hnot'
      exact hbehind
    | @matched _ m i _ _ vs _ htarget hm hi hmatch hbefore hfst hsnd =>
      cases hsome.symm.trans htarget
      have hmatch' := (hmatches (List.mem_of_getElem? hi) vs).2 hmatch
      have hbefore' : ∀ j < i, ∀ e, (d.entriesFor m)[j]? = some e → ∀ ws,
          ¬e.2.pattern.Matches base
            ('/' :: (Pattern.mountPath base ++ '/' :: relativePath p)) ws :=
        fun j hj e he ws h => hbefore j hj e he ws ((hmatches (List.mem_of_getElem? he) ws).1 h)
      have hbehind := Resolves.matched (d := d) (s := s.mount base) hsome' hm hi hmatch' hbefore'
        hfst hsnd
      exact hbehind

/-- A path that does not lead to the base URL matches no route. -/
theorem Resolves.fallback_of_not_leadsTo (hne : Pattern.basePieces base ≠ [])
    (hrelative : IsRelative url) (hpath : ¬LeadsTo base (relativePath url))
    (h : Resolves d (s.mount base) method url o) : o.kind = .fallback := by
  cases h with
  | unreadable | unknown | unmatched => rfl
  | matched htarget _ _ hmatch =>
    rw [Request.RequestTarget.ofText?_of_relative hrelative] at htarget
    split at htarget <;> cases htarget
    exact absurd (Pattern.front_of_matches hne hmatch) hpath

namespace Table

/-- Data from a source is built into a table under a base URL just where it is built without one.
Behind the base URL the two tables agree in all of an outcome, and a path that does not lead to the
base URL goes to the default. -/
theorem resolve_mounted (hd : RouteData.ofSource source = .ok d)
    (hbase : ∀ c ∈ base.toList, isFragmentChar c = true ∨ c = '/')
    (hne : Pattern.basePieces base ≠ []) (s : Settings) :
    (∀ e, build d (s.mount base) = .error e ↔ build d (s.mount "") = .error e) ∧
    ∀ t mounted, build d (s.mount "") = .ok t → build d (s.mount base) = .ok mounted →
      (∀ method p, p.toList.head? ≠ some '/' → IsRelative ("/" ++ p) →
        IsRelative (mountFront base ++ p) →
          mounted.resolve method (mountFront base ++ p) = t.resolve method ("/" ++ p)) ∧
      ∀ method url, IsRelative url → ¬LeadsTo base (relativePath url) →
        (mounted.resolve method url).kind = .fallback := by
  have hspelled := RouteData.spelled_of_ofSource hd
  refine ⟨fun e => ?_, fun t mounted ht hmounted => ⟨?_, ?_⟩⟩
  · rw [build_eq_error_iff hspelled, build_eq_error_iff hspelled]
    rfl
  · intro method p hp hroot hbehind
    have hres := resolves_resolve ht method ("/" ++ p)
    exact resolve_of_resolves hmounted (hres.mounted hspelled hbase hne hp hroot hbehind)
  · intro method url hrelative hpath
    exact (resolves_resolve hmounted method url).fallback_of_not_leadsTo hne hrelative hpath

theorem resolve_mounted_note : ∃ t mounted : Table,
    build noteRoutes (noteSettings.mount "") = .ok t ∧
      build noteRoutes (noteSettings.mount "//v1/") = .ok mounted ∧
      mounted.resolve "get" "/v1/notes/a%2Fb/7/?x=1#top" = t.resolve "get" "/notes/a%2Fb/7/?x=1#top" ∧
      (t.resolve "get" "/notes/a%2Fb/7/?x=1#top").kind = .matched 1 ∧
      (mounted.resolve "get" "/v1x/notes/7").kind = .fallback := by
  have hbase : ∀ c ∈ "//v1/".toList, isFragmentChar c = true ∨ c = '/' := by
    simpa using (by decide : "//v1/".toList.all (fun c => isFragmentChar c || c == '/') = true)
  have hne : Pattern.basePieces "//v1/" ≠ [] := by decide
  have hread : ((build noteRoutes (noteSettings.mount "")).toOption.map fun (t : Table) =>
      (t.resolve "get" "/notes/a%2Fb/7/?x=1#top").kind) = some (.matched 1) := by
    decide
  have hmountable : (build noteRoutes (noteSettings.mount "//v1/")).toOption.isSome = true := by
    decide
  have hnot : ¬LeadsTo "//v1/" (relativePath "/v1x/notes/7") := by
    rintro ⟨l, rest, hl | hl, hpath, hrest⟩ <;> subst hl
    · have hhead : some '/' = some 'v' := congrArg List.head? hpath
      cases hhead
    · have hbehind : "/v1".toList ++ "x/notes/7".toList = "/v1".toList ++ rest := hpath
      obtain rfl := List.append_cancel_left hbehind
      revert hrest
      decide
  obtain ⟨t, ht, hkind⟩ := Option.map_eq_some_iff.1 hread
  obtain ⟨mounted, hmounted⟩ := Option.isSome_iff_exists.1 hmountable
  obtain ⟨hsame, hother⟩ := (resolve_mounted ofSource_noteSource hbase hne noteSettings).2
    t mounted (toOption_eq_some_iff.1 ht) (toOption_eq_some_iff.1 hmounted)
  exact ⟨t, mounted, toOption_eq_some_iff.1 ht, toOption_eq_some_iff.1 hmounted,
    hsame "get" "notes/a%2Fb/7/?x=1#top" (by decide) (by decide) (by decide), hkind,
    hother "get" "/v1x/notes/7" (by decide) hnot⟩

end Table
end Routes
