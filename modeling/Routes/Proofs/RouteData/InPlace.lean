import Routes.Proofs.RouteData.Register
/-!
Registrations that change data in place, one after the other. One that fails leaves the data as it
was, one that succeeds puts a single entry behind all others, and what a row of them adds is what
those add that succeed.
-/
namespace Routes
open RouteData (routePieces segmentOf append)

namespace RouteText

/-- Registering a route in data that is changed in place. Nothing takes a change back where the
registration breaks off. -/
def enter (r : RouteText) : ExceptT CompileError (StateM RouteData) Unit := do
  let some t := Target.split? '.' '#' r.target.toList | throw (.invalidRouteEntry r.target)
  let mut segments : Pattern := []
  let mut params : List String := []
  for piece in routePieces r.path do
    let (segment, name) := segmentOf piece
    if name = some "" then throw (.missingParamName t.controller t.action)
    segments := segments ++ [segment]
    params := params ++ name.toList
  modify fun d => { d with
    controllers := append t.controller (.new t.action r.method segments params) d.controllers }

/-- Registrations in a row go on behind those that fail. -/
def enterAll (rs : List RouteText) : StateM RouteData (List (Except CompileError Unit)) :=
  rs.mapM fun r => r.enter.run

end RouteText

namespace RouteData
variable {d d' : RouteData} {r : RouteText} {rs : List RouteText} {c : String} {a : Action}
  {cs : List Controller}

/-- One more entry, and the controller that it has come into: the last one if that has the name, or
else a new one. -/
structure Extends (d : RouteData) (e : String × Action) (d' : RouteData) : Prop where
  entries : d'.entries = d.entries ++ [e]
  default : d'.default = d.default
  joined : ∀ last ∈ d.controllers.getLast?, last.name = e.1 →
    d'.controllers = d.controllers.dropLast ++ [{ last with actions := last.actions ++ [e.2] }]
  opened : (∀ last ∈ d.controllers.getLast?, last.name ≠ e.1) →
    d'.controllers = d.controllers ++ [⟨e.1, [e.2]⟩]

/-- Only the last controller has a part in what becomes of an entry. -/
theorem append_of_getLast? {last : Controller} (h : last ∈ cs.getLast?) :
    append c a cs = cs.dropLast ++ append c a [last] := by
  fun_induction append c a cs with
  | case1 => cases h
  | case2 last' hname =>
    obtain rfl := Option.some.inj h
    simp [append, hname]
  | case3 last' hname =>
    obtain rfl := Option.some.inj h
    simp [append, hname]
  | case4 first cs hne ih =>
    obtain ⟨next, cs, rfl⟩ := List.exists_cons_of_ne_nil hne
    rw [List.getLast?_cons_cons] at h
    rw [ih h, List.dropLast_cons_cons, List.cons_append]

theorem extends_extend (d : RouteData) (e : String × Action) : d.Extends e (d.extend e) where
  entries := entries_append e.1 e.2 d.controllers d.default
  default := rfl
  joined last hlast hname := by
    rw [extend, append_of_getLast? hlast, append, if_pos hname]
  opened hnew := by
    cases hlast : d.controllers.getLast? with
    | none =>
      rw [List.getLast?_eq_none_iff] at hlast
      rw [extend, hlast]
      rfl
    | some last =>
      have hmem : last ∈ d.controllers.getLast? := hlast
      rw [extend, append_of_getLast? hmem, append, if_neg (hnew last hmem), List.append_cons,
        List.dropLast_append_getLast? last hmem]

end RouteData

namespace RouteText
open RouteData
variable {d : RouteData} {t : Target}

/-- The segments and the names of some pieces behind those of others. -/
theorem run_pieces (e : CompileError) (pieces : List (List Char)) (segments : Pattern)
    (params : List String) :
    (forIn pieces (segments, params) fun piece s =>
      if (segmentOf piece).2 = some "" then throw e >>= fun _ : PUnit =>
        pure (.yield (s.1 ++ [(segmentOf piece).1], s.2 ++ (segmentOf piece).2.toList))
      else pure (.yield (s.1 ++ [(segmentOf piece).1], s.2 ++ (segmentOf piece).2.toList)) :
        ExceptT CompileError (StateM RouteData) (Pattern × List String)) =
      if [':'] ∈ pieces then throw e
      else pure (segments ++ pieces.map fun piece => (segmentOf piece).1,
        params ++ pieces.filterMap fun piece => (segmentOf piece).2) := by
  induction pieces generalizing segments params with
  | nil => simp
  | cons piece pieces ih =>
    rw [List.forIn_cons]
    by_cases hname : piece = [':']
    · rw [if_pos (snd_segmentOf_eq_some_iff.2 hname), if_pos (List.mem_cons.2 (.inl hname.symm))]
      rfl
    · rw [if_neg (mt snd_segmentOf_eq_some_iff.1 hname), pure_bind]
      simp only [ih, List.mem_cons, Ne.symm hname, false_or, List.map_cons, List.filterMap_cons,
        List.append_assoc, List.singleton_append]
      cases (segmentOf piece).2 <;> simp

theorem run_enter (r : RouteText) (d : RouteData) : r.enter.run.run d =
    match r.entry with
    | .error e => (.error e, d)
    | .ok e => (.ok (), d.extend e) := by
  rw [enter, entry]
  cases Target.split? '.' '#' r.target.toList with
  | none => rfl
  | some t =>
    have hloop := run_pieces (.missingParamName t.controller t.action) (routePieces r.path) [] []
    dsimp only
    rw [hloop]
    split <;> rfl

/-- What becomes of data when a route is registered in it. -/
inductive Enters (r : RouteText) (d : RouteData) : Except CompileError Unit × RouteData → Prop
  | refused {e : CompileError} : r.entry = .error e → d.register r = .error e →
    Enters r d (.error e, d)
  | taken {e : String × Action} {d' : RouteData} : r.entry = .ok e → d.register r = .ok d' →
    d.Extends e d' → Enters r d (.ok (), d')

theorem enters (r : RouteText) (d : RouteData) : Enters r d (r.enter.run.run d) := by
  have hregister := register_eq d r
  rw [run_enter]
  cases hentry : r.entry with
  | error e =>
    rw [hentry] at hregister
    exact .refused hentry hregister
  | ok e =>
    rw [hentry] at hregister
    exact .taken hentry hregister (extends_extend d e)

/-- What becomes of data when routes are registered in it one by one. -/
structure EntersAll (rs : List RouteText) (d : RouteData)
    (after : List (Except CompileError Unit) × RouteData) : Prop where
  results : after.1 = rs.map fun r => r.entry.map fun _ => ()
  entries : after.2.entries = d.entries ++ rs.filterMap (·.entry.toOption)
  default : after.2.default = d.default

theorem entersAll (rs : List RouteText) (d : RouteData) :
    EntersAll rs d ((enterAll rs).run d) := by
  induction rs generalizing d with
  | nil => exact ⟨rfl, (List.append_nil _).symm, rfl⟩
  | cons r rs ih =>
    obtain ⟨hresults, hentries, hdefault⟩ := ih (r.enter.run.run d).2
    have hrun : (enterAll (r :: rs)).run d =
        ((r.enter.run.run d).1 :: ((enterAll rs).run (r.enter.run.run d).2).1,
          ((enterAll rs).run (r.enter.run.run d).2).2) := by
      rw [enterAll, List.mapM_cons]
      rfl
    rw [hrun]
    generalize hafter : r.enter.run.run d = after at *
    cases hafter ▸ enters r d with
    | refused hentry =>
      refine ⟨?_, ?_, hdefault⟩
      · rw [List.map_cons, hentry, ← hresults]
        rfl
      · rw [List.filterMap_cons, hentry]
        exact hentries
    | taken hentry _ hext =>
      refine ⟨?_, ?_, hdefault.trans hext.default⟩
      · rw [List.map_cons, hentry, ← hresults]
        rfl
      · rw [List.filterMap_cons, hentry, hentries, hext.entries, List.append_assoc]
        rfl

end RouteText

end Routes
