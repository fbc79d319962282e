import Mathlib.Algebra.GroupWithZero.Nat
import Routes.Proofs.FirstSeen
import Routes.Proofs.Table.Build
import Routes.Proofs.Text.Split
/-!
How a table arranges routes. Main statement: it groups the routes of all actions by their methods,
the groups in the order in which the methods come up first and each group in the order of
declaration, and its listings follow that arrangement, with one entry for each route.
-/
namespace Routes

namespace RouteData

/-- The methods of the actions, one for each action, in the order of declaration. -/
def methods (d : RouteData) : List Method := d.entries.filterMap fun e => Method.ofName? e.2.method

/-- The routes of the actions in the order of declaration. -/
def routes (d : RouteData) (s : Settings) : List Route :=
  d.entries.filterMap fun e => (Method.ofName? e.2.method).map (Route.ofEntry s · e)

end RouteData

/-- The lists of routes by their methods, and apart from them the methods that have come up. Both
are filled together, route by route. -/
structure Ledger where
  lists : Method → Option (List Route)
  order : List Method

namespace Ledger

def empty : Ledger := ⟨fun _ => none, []⟩

/-- Puts a route behind those of its method; a method without a list comes up for the first time. -/
def add (l : Ledger) (r : Route) : Ledger where
  lists m := if m = r.method then some ((l.lists m).getD [] ++ [r]) else l.lists m
  order := if (l.lists r.method).isSome then l.order else l.order ++ [r.method]

end Ledger

namespace Table
variable {d : RouteData} {s : Settings} {t : Table} {m : Method} {r : Route} {rs : List Route}
  {gs : List (Method × List Route)}

/-- The methods for which a table has a group, in the order of the groups. -/
def order (t : Table) : List Method := t.groups.map Prod.fst

/-- A table and a ledger say the same: they have the same methods in the same order, and a list for
no other method. -/
structure Agrees (t : Table) (l : Ledger) : Prop where
  order : t.order = l.order
  lists : ∀ m, l.lists m = if m ∈ t.order then some (t.routesFor m) else none

/-- The entry of a route: its method in a column of seven characters, its full path and whom it
leads to. -/
def IsEntry (t : Table) (r : Route) (entry : List Char) : Prop :=
  ∃ fill, entry = "[route] ".toList ++ (r.method.name.toList ++ fill ++
      ' ' :: ((t.fullPath r.template).toList ++ (" -> ".toList ++
        (r.controller.toList ++ '#' :: r.action.toList)))) ∧
    (∀ c ∈ fill, c = ' ') ∧ (r.method.name.toList ++ fill).length = max 7 r.method.name.length

/-- The line on a table, which tells the number of its routes. -/
def IsHeader (t : Table) (line : List Char) : Prop :=
  ∃ base target, line = "[routes] base_url=".toList ++ (base ++ (" count=".toList ++
    ((toString t.size).toList ++ (" default=".toList ++ target))))

/-- A text lists a table: behind the line on the table come the entries of its routes, each on a
line of its own where no text in them has a line feed. -/
structure Lists (t : Table) (shown first : List Char) (rest : List (List Char)) : Prop where
  header : t.IsHeader first
  entries : List.Forall₂ t.IsEntry t.routes rest
  text : shown = first ++ '\n' :: rest.flatMap (· ++ ['\n'])
  lines : (∀ line ∈ first :: rest, '\n' ∉ line) →
    Text.pieces '\n' shown = first :: (rest ++ [[]]) ∧
      (Text.pieces '\n' shown).filter ("[route] ".toList.isPrefixOf ·) = rest

/-- A table arranges the routes of data by their methods. -/
structure Arranges (t : Table) (d : RouteData) (s : Settings) : Prop where
  order : FirstSeen d.methods t.order
  mem_order : ∀ m, m ∈ t.order ↔ t.routesFor m ≠ []
  routesFor : ∀ m, t.routesFor m = (d.entriesFor m).map (Route.ofEntry s m)
  ledger : t.Agrees ((d.routes s).foldl Ledger.add .empty)
  routes : t.routes = t.order.flatMap t.routesFor
  perm : t.routes.Perm (d.routes s)
  size : t.size = d.actionCount
  lengths : (t.order.map fun m => (t.routesFor m).length).sum = t.size
  listing : ∃ first rest, t.Lists t.listing.toList first rest
  paths : FirstSeen (t.routes.map fun r => t.fullPath r.template) t.pathPatterns

section Insert

theorem keys_insert (r : Route) (gs : List (Method × List Route)) :
    (insert r gs).map Prod.fst = addNew (gs.map Prod.fst) r.method := by
  induction gs with
  | nil => rfl
  | cons g gs ih =>
    obtain ⟨m, rs⟩ := g
    by_cases h : m = r.method
    · rw [insert, if_pos h, List.map_cons, List.map_cons, h, addNew_of_mem List.mem_cons_self]
    · have hcons : addNew (m :: gs.map Prod.fst) r.method =
          m :: addNew (gs.map Prod.fst) r.method := by
        have hne : r.method ≠ m := fun he => h he.symm
        by_cases hmem : r.method ∈ gs.map Prod.fst
        · rw [addNew_of_mem hmem, addNew_of_mem (List.mem_cons_of_mem m hmem)]
        · rw [addNew_of_not_mem hmem,
            addNew_of_not_mem (List.not_mem_cons_of_ne_of_not_mem hne hmem), List.cons_append]
      rw [insert, if_neg h, List.map_cons, List.map_cons, ih, hcons]

theorem keys_foldl_insert (rs : List Route) (gs : List (Method × List Route)) :
    (rs.foldl (fun gs r => insert r gs) gs).map Prod.fst =
      (rs.map (·.method)).foldl addNew (gs.map Prod.fst) := by
  induction rs generalizing gs with
  | nil => rfl
  | cons r rs ih => rw [List.foldl_cons, ih, keys_insert, List.map_cons, List.foldl_cons]

/-- No route is lost where another is put in, and none is doubled. -/
theorem perm_insert (r : Route) (gs : List (Method × List Route)) :
    ((insert r gs).flatMap (·.2)).Perm (gs.flatMap (·.2) ++ [r]) := by
  induction gs with
  | nil => exact .refl _
  | cons g gs ih =>
    obtain ⟨m, rs⟩ := g
    by_cases h : m = r.method
    · rw [insert, if_pos h, List.flatMap_cons, List.flatMap_cons, List.append_assoc,
        List.append_assoc]
      exact List.perm_append_comm.append_left rs
    · rw [insert, if_neg h, List.flatMap_cons, List.flatMap_cons, List.append_assoc]
      exact ih.append_left rs

theorem perm_foldl_insert (rs : List Route) (gs : List (Method × List Route)) :
    ((rs.foldl (fun gs r => insert r gs) gs).flatMap (·.2)).Perm (gs.flatMap (·.2) ++ rs) := by
  induction rs generalizing gs with
  | nil => rw [List.append_nil]; exact .refl _
  | cons r rs ih =>
    have hrest := (perm_insert r gs).append_right rs
    rw [List.append_assoc, List.singleton_append] at hrest
    exact (ih (insert r gs)).trans hrest

/-- The groups are those that are found by their methods. -/
theorem map_groupOf (h : (gs.map Prod.fst).Nodup) :
    (gs.map Prod.fst).map (fun m => (m, groupOf m gs)) = gs := by
  induction gs with
  | nil => rfl
  | cons g gs ih =>
    obtain ⟨m, rs⟩ := g
    rw [List.map_cons, List.nodup_cons] at h
    have hrest : (gs.map Prod.fst).map (fun m' => (m', groupOf m' ((m, rs) :: gs))) =
        (gs.map Prod.fst).map fun m' => (m', groupOf m' gs) := by
      refine List.map_congr_left fun m' hm' => ?_
      rw [groupOf, if_neg fun (he : m = m') => h.1 (he ▸ hm')]
    rw [List.map_cons, List.map_cons, hrest, ih h.2, groupOf, if_pos rfl]

theorem flatMap_groupOf (h : (gs.map Prod.fst).Nodup) :
    gs.flatMap (·.2) = (gs.map Prod.fst).flatMap (groupOf · gs) := by
  calc gs.flatMap (·.2)
      = ((gs.map Prod.fst).map fun m => (m, groupOf m gs)).flatMap (·.2) := by rw [map_groupOf h]
    _ = (gs.map Prod.fst).flatMap (groupOf · gs) := List.flatMap_map ..

end Insert

section Fill

/-- What a ledger and a list of groups have in common while both are filled. -/
structure Fits (l : Ledger) (gs : List (Method × List Route)) : Prop where
  order : l.order = gs.map Prod.fst
  lists : ∀ m, l.lists m = if m ∈ gs.map Prod.fst then some (groupOf m gs) else none

theorem groupOf_of_not_mem (h : m ∉ gs.map Prod.fst) : groupOf m gs = [] := by
  induction gs with
  | nil => rfl
  | cons g gs ih =>
    rw [List.map_cons, List.mem_cons, not_or] at h
    rw [groupOf, if_neg fun he => h.1 he.symm, ih h.2]

theorem Fits.add {l : Ledger} (h : Fits l gs) (r : Route) : Fits (l.add r) (insert r gs) := by
  have hlist : ∀ m, (l.lists m).getD [] = groupOf m gs := by
    intro m
    rw [h.lists]
    split
    · rfl
    · rename_i hmem
      rw [groupOf_of_not_mem hmem]
      rfl
  constructor
  · rw [keys_insert, addNew, Ledger.add, h.lists, h.order]
    by_cases hmem : r.method ∈ gs.map Prod.fst
    · simp [hmem]
    · simp [hmem]
  · intro m
    rw [keys_insert, Ledger.add, groupOf_insert]
    dsimp only
    rw [hlist, h.lists]
    by_cases hm : m = r.method
    · subst hm
      simp [mem_addNew_iff]
    · have hne : r.method ≠ m := fun he => hm he.symm
      have hmem : m ∈ addNew (gs.map Prod.fst) r.method ↔ m ∈ gs.map Prod.fst :=
        mem_addNew_iff.trans (or_iff_left hm)
      simp only [if_neg hm, if_neg hne, List.append_nil, hmem]

theorem Fits.foldl {l : Ledger} (h : Fits l gs) (rs : List Route) :
    Fits (rs.foldl Ledger.add l) (rs.foldl (fun gs r => insert r gs) gs) := by
  induction rs generalizing l gs with
  | nil => exact h
  | cons r rs ih => exact ih (h.add r)

theorem fits_empty : Fits .empty [] := ⟨rfl, fun _ => rfl⟩

end Fill

/-- The routes of actions that have all been turned into routes. -/
theorem routes_of_mapM {es : List (String × Action)}
    (h : es.mapM (fun e => Route.ofAction s e.1 e.2) = .ok rs) :
    rs = es.filterMap (fun e => (Method.ofName? e.2.method).map (Route.ofEntry s · e)) ∧
      rs.length = es.length := by
  induction es generalizing rs with
  | nil =>
    rw [mapM_nil_eq_ok.1 h]
    exact ⟨rfl, rfl⟩
  | cons e es ih =>
    obtain ⟨r, rest, hr, hrest, rfl⟩ := mapM_cons_eq_ok.1 h
    obtain ⟨m, hm, rfl⟩ := Route.ofAction_eq_ok.1 hr
    obtain ⟨hrs, hlength⟩ := ih hrest
    refine ⟨?_, congrArg (· + 1) hlength⟩
    rw [List.filterMap_cons, hm.method, Option.map_some, ← hrs]

theorem methods_routes (d : RouteData) (s : Settings) :
    (d.routes s).map (·.method) = d.methods := by
  rw [RouteData.routes, RouteData.methods, List.map_filterMap]
  refine List.filterMap_congr fun e _ => ?_
  rw [Option.map_map]
  exact congrFun Option.map_id _

theorem mem_methods_iff : m ∈ d.methods ↔ d.entriesFor m ≠ [] := by
  rw [RouteData.methods, List.mem_filterMap, RouteData.entriesFor, ne_eq, List.filter_eq_nil_iff]
  simp

theorem firstSeen_pathPatterns (t : Table) :
    FirstSeen (t.routes.map fun r => t.fullPath r.template) t.pathPatterns := by
  have hfold : t.pathPatterns = (t.routes.map fun r => t.fullPath r.template).foldl addNew [] := by
    rw [List.foldl_map]
    rfl
  exact hfold ▸ firstSeen_foldl _

section Listing

theorem exists_isEntry (t : Table) (r : Route) :
    ∃ line, t.IsEntry r line ∧ (t.routeLine r).toList = line ++ ['\n'] := by
  refine ⟨_, ⟨List.replicate (7 - r.method.name.length) ' ', rfl,
    fun c hc => List.eq_of_mem_replicate hc, ?_⟩, ?_⟩
  · rw [List.length_append, List.length_replicate, String.length_toList]
    omega
  · delta routeLine pad
    simp only [String.toList_append, String.toList_ofList, List.append_assoc, List.cons_append]
    rfl

theorem exists_isHeader (t : Table) :
    ∃ line, t.IsHeader line ∧ t.headerLine.toList = line ++ ['\n'] := by
  refine ⟨_, ⟨(if t.baseUrl.isEmpty then "/" else t.baseUrl).toList, t.default.hashText.toList,
    rfl⟩, ?_⟩
  delta headerLine
  simp only [String.toList_append, List.append_assoc]
  rfl

theorem exists_entries (t : Table) (rs : List Route) :
    ∃ lines, List.Forall₂ t.IsEntry rs lines ∧
      (rs.map t.routeLine).flatMap String.toList = lines.flatMap (· ++ ['\n']) := by
  induction rs with
  | nil => exact ⟨[], .nil, rfl⟩
  | cons r rs ih =>
    obtain ⟨line, hentry, hline⟩ := exists_isEntry t r
    obtain ⟨lines, hentries, hlines⟩ := ih
    refine ⟨line :: lines, .cons hentry hentries, ?_⟩
    rw [List.map_cons, List.flatMap_cons, hline, hlines, List.flatMap_cons]

theorem isPrefixOf_of_entries {lines : List (List Char)} (h : List.Forall₂ t.IsEntry rs lines) :
    ∀ line ∈ lines, "[route] ".toList.isPrefixOf line = true := by
  induction h with
  | nil => exact fun line hline => nomatch hline
  | cons hentry _ ih =>
    obtain ⟨fill, rfl, -⟩ := hentry
    exact List.forall_mem_cons.2 ⟨List.isPrefixOf_iff_prefix.2 (List.prefix_append _ _), ih⟩

theorem IsHeader.not_isPrefixOf {line : List Char} (h : t.IsHeader line) :
    ¬"[route] ".toList.isPrefixOf line = true := by
  obtain ⟨base, target, rfl⟩ := h
  exact Bool.false_ne_true

theorem exists_lists (t : Table) : ∃ first rest, t.Lists t.listing.toList first rest := by
  obtain ⟨first, hheader, hfirst⟩ := exists_isHeader t
  obtain ⟨rest, hentries, hrest⟩ := exists_entries t t.routes
  have htext : t.listing.toList = first ++ '\n' :: rest.flatMap (· ++ ['\n']) := by
    rw [listing, String.toList_append, String.toList_join, hfirst, hrest, List.append_assoc]
    rfl
  refine ⟨first, rest, hheader, hentries, htext, fun hplain => ?_⟩
  rw [List.forall_mem_cons] at hplain
  have hpieces : Text.pieces '\n' t.listing.toList = first :: (rest ++ [[]]) := by
    rw [htext, Text.pieces_append hplain.1, Text.pieces_lines hplain.2]
  refine ⟨hpieces, ?_⟩
  rw [hpieces, List.filter_cons_of_neg hheader.not_isPrefixOf, List.filter_append,
    List.filter_eq_self.2 (isPrefixOf_of_entries hentries)]
  exact List.append_nil rest

end Listing

/-- A table that has been built arranges the routes of its data. -/
theorem arranges_of_build (h : build d s = .ok t) : t.Arranges d s := by
  obtain ⟨rs, target, hrs, -, ht⟩ := build_eq_ok.1 h
  obtain ⟨hroutes, hlength⟩ := routes_of_mapM hrs
  have hgroups : t.groups = (d.routes s).foldl (fun gs r => insert r gs) [] := by
    rw [ht, hroutes]
    rfl
  have horder : t.order = d.methods.foldl addNew [] := by
    rw [order, hgroups, keys_foldl_insert, methods_routes]
    rfl
  have hseen : FirstSeen d.methods t.order := horder ▸ firstSeen_foldl d.methods
  have hfits : Fits ((d.routes s).foldl Ledger.add .empty) t.groups :=
    hgroups ▸ fits_empty.foldl (d.routes s)
  have hperm : t.routes.Perm (d.routes s) := by
    rw [routes, hgroups]
    exact perm_foldl_insert (d.routes s) []
  have hflat : t.routes = t.order.flatMap t.routesFor := by
    rw [routes, flatMap_groupOf hseen.nodup]
    exact List.flatMap_congr fun m _ => (routesFor_eq_groupOf t m).symm
  exact {
    order := hseen
    mem_order := by
      intro m
      rw [hseen.mem_iff, mem_methods_iff, routesFor_build h, ne_eq, ne_eq, List.map_eq_nil_iff]
    routesFor := routesFor_build h
    ledger := by
      refine ⟨hfits.order.symm, fun m => ?_⟩
      rw [hfits.lists, routesFor_eq_groupOf]
      rfl
    routes := hflat
    perm := hperm
    size := by
      rw [size, hperm.length_eq, RouteData.actionCount, ← hlength, hroutes]
      rfl
    lengths := by rw [size, hflat, List.length_flatMap]
    listing := exists_lists t
    paths := firstSeen_pathPatterns t }

/-- Two methods that are written in different cases and take turns. -/
def turnRoutes : RouteData :=
  ⟨[⟨"Notes", [⟨"add", "post", [.literal "notes"], []⟩,
      ⟨"show", "GET", [.literal "notes", .capture .int], ["id"]⟩]⟩,
    ⟨"Tags", [⟨"tag", "Post", [.literal "notes", .capture .int], ["id"]⟩,
      ⟨"list", "get", [.literal "notes"], []⟩]⟩], none⟩

def turnListing : String :=
  "[routes] base_url=/ count=4 default=Index#index\n" ++
  "[route] POST    /notes -> Notes#add\n[route] POST    /notes/<id:int> -> Tags#tag\n" ++
  "[route] GET     /notes/<id:int> -> Notes#show\n[route] GET     /notes -> Tags#list\n"

theorem arranges_turns : ∃ t, build turnRoutes .standard = .ok t ∧ t.Arranges turnRoutes .standard ∧
    t.order = [.post, .get] ∧ t.routes.map (·.action) = ["add", "tag", "show", "list"] ∧
    t.pathPatterns = ["/notes", "/notes/<id:int>"] ∧ t.listing = turnListing := by
  have hread : ((build turnRoutes .standard).toOption.map fun (t : Table) =>
      (t.order, t.routes.map (·.action), t.pathPatterns, t.listing)) =
      some ([.post, .get], ["add", "tag", "show", "list"], ["/notes", "/notes/<id:int>"],
        turnListing) := by
    decide +kernel
  obtain ⟨t, ht, htable⟩ := Option.map_eq_some_iff.1 hread
  have hbuild := toOption_eq_some_iff.1 ht
  simp only [Prod.mk.injEq] at htable
  exact ⟨t, hbuild, arranges_of_build hbuild, htable⟩

end Table
end Routes
