import Mathlib.Data.List.Forall2
import Routes.RouteData.Register
import Routes.Result
/-!
Routes registered one after the other. What a registration adds depends on nothing that has been
registered before, and it becomes the last entry.
-/
namespace Routes

/-- A route as it is written for registration: its method, its path and its target. -/
structure RouteText where
  method : String
  path : String
  target : String
deriving DecidableEq, Repr

/-- A route adds the same entry to any data. -/
def RouteText.Adds (r : RouteText) (e : String × Action) : Prop :=
  ∀ d : RouteData, d.addRoute r.method r.path r.target =
    .ok { d with controllers := RouteData.append e.1 e.2 d.controllers }

/-- The entry that a route adds, or the fault in its text. -/
def RouteText.entry (r : RouteText) : Except CompileError (String × Action) :=
  match Target.split? '.' '#' r.target.toList with
  | none => .error (.invalidRouteEntry r.target)
  | some t =>
    if [':'] ∈ RouteData.routePieces r.path then .error (.missingParamName t.controller t.action)
    else .ok (t.controller, .new t.action r.method
      ((RouteData.routePieces r.path).map fun piece => (RouteData.segmentOf piece).1)
      ((RouteData.routePieces r.path).filterMap fun piece => (RouteData.segmentOf piece).2))

namespace RouteData
variable {d d' : RouteData} {r : RouteText} {rs : List RouteText}

def extend (d : RouteData) (e : String × Action) : RouteData :=
  { d with controllers := append e.1 e.2 d.controllers }

def register (d : RouteData) (r : RouteText) : Except CompileError RouteData :=
  d.addRoute r.method r.path r.target

def registerAll (d : RouteData) (rs : List RouteText) : Except CompileError RouteData :=
  rs.foldlM register d

theorem entries_append (c : String) (a : Action) (cs : List Controller) (t : Option Target) :
    entries ⟨append c a cs, t⟩ = entries ⟨cs, t⟩ ++ [(c, a)] := by
  unfold entries
  dsimp only
  fun_induction append c a cs with
  | case1 => rfl
  | case2 last hname =>
    subst hname
    simp
  | case3 last hname => simp
  | case4 first cs hne ih => rw [List.flatMap_cons, ih, List.flatMap_cons, List.append_assoc]

/-- A segment has an empty name if it is a colon and nothing else. -/
theorem snd_segmentOf_eq_some_iff {piece : List Char} :
    (segmentOf piece).2 = some "" ↔ piece = [':'] := by
  unfold segmentOf
  split
  · rename_i name
    rw [Option.some.injEq, ← String.toList_inj, String.toList_ofList, List.cons.injEq,
      and_iff_right rfl]
    rfl
  · rename_i hcolon
    exact iff_of_false nofun (hcolon [])

/-- Registering depends on the data in nothing but where the entry goes. -/
theorem register_eq (d : RouteData) (r : RouteText) : d.register r = r.entry.map d.extend := by
  rw [register, addRoute, RouteText.entry]
  cases Target.split? '.' '#' r.target.toList with
  | none => rfl
  | some t =>
    have hnames : (((routePieces r.path).map segmentOf).filterMap (·.2)).contains "" = true ↔
        [':'] ∈ routePieces r.path := by
      rw [List.contains_iff_mem, List.filterMap_map, List.mem_filterMap]
      simp only [Function.comp_apply, snd_segmentOf_eq_some_iff, exists_eq_right]
    dsimp only
    by_cases hcolon : [':'] ∈ routePieces r.path
    · rw [if_pos (hnames.2 hcolon), if_pos hcolon]
      rfl
    · rw [if_neg (mt hnames.1 hcolon), if_neg hcolon, List.map_map, List.filterMap_map]
      rfl

/-- A registration that succeeds puts one entry behind the others and keeps the default. -/
theorem register_eq_ok (h : d.register r = .ok d') :
    ∃ e, r.Adds e ∧ d'.entries = d.entries ++ [e] ∧ d'.default = d.default := by
  rw [register_eq] at h
  obtain ⟨e, he, rfl⟩ := map_eq_ok.1 h
  refine ⟨e, fun d => ?_, entries_append .., rfl⟩
  exact (register_eq d r).trans (map_eq_ok.2 ⟨e, he, rfl⟩)

/-- Registrations in a row put what they add behind the other entries, in their order. -/
theorem registerAll_eq_ok (h : d.registerAll rs = .ok d') : ∃ added,
    List.Forall₂ RouteText.Adds rs added ∧ d'.entries = d.entries ++ added ∧
      d'.default = d.default := by
  induction rs generalizing d with
  | nil =>
    cases h
    exact ⟨[], .nil, by simp, rfl⟩
  | cons r rs ih =>
    rw [registerAll, List.foldlM_cons] at h
    obtain ⟨d₁, hr, hrs⟩ := bind_eq_ok.1 h
    obtain ⟨e, hadds, hentries, hdefault⟩ := register_eq_ok hr
    obtain ⟨added, hall, hentries', hdefault'⟩ := ih hrs
    refine ⟨e :: added, .cons hadds hall, ?_, hdefault'.trans hdefault⟩
    rw [hentries', hentries, List.append_assoc, List.singleton_append]

end RouteData
end Routes
