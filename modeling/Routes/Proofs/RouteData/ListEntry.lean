import Routes.Proofs.RouteData.InPlace
import Routes.Proofs.Text.Blank
/-!
Lists of routes, entry by entry. Main statement: registering is ordered and leaves nothing half
done, also where registrations fail in between, and a list is read by registering its full entries
up to the first that is at fault.
-/
namespace Routes

/-- The route of one entry of a list, which is three words. -/
def RouteText.ofEntry (entry : List Char) : Except CompileError RouteText :=
  match Text.words entry with
  | [method, path, target] =>
    .ok ⟨String.ofList method, String.ofList path, String.ofList target⟩
  | _ => .error (.invalidRouteEntry (String.ofList (Text.trim entry)))

namespace RouteData
variable {d : RouteData} {list : String} {entry : List Char} {e : CompileError}

/-- The entries of a list that hold more than white space. -/
def fullEntries (list : String) : List (List Char) :=
  (Text.pieces ',' list.toList).filter fun entry => ¬ Text.AllBlank entry

/-- What an entry of a list is at fault for: it is not three words, or they are no route. -/
inductive IsFault (entry : List Char) : CompileError → Prop
  | words : (∀ method path target, Text.words entry ≠ [method, path, target]) →
    IsFault entry (.invalidRouteEntry (String.ofList (Text.trim entry)))
  | route {method path target : List Char} {e : CompileError} :
    Text.words entry = [method, path, target] →
    (∀ d : RouteData, d.addRoute (String.ofList method) (String.ofList path)
      (String.ofList target) = .error e) → IsFault entry e

theorem isFault_iff :
    IsFault entry e ↔ (RouteText.ofEntry entry >>= RouteText.entry) = .error e := by
  constructor
  · intro h
    cases h with
    | words hwords =>
      rw [RouteText.ofEntry]
      split
      · rename_i hthree
        exact absurd hthree (hwords _ _ _)
      · rfl
    | route hwords hadd =>
      have hregister := (register_eq empty ⟨_, _, _⟩).symm.trans (hadd empty)
      rw [RouteText.ofEntry, hwords]
      exact map_eq_error.1 hregister
  · intro h
    rw [RouteText.ofEntry] at h
    split at h
    · rename_i method path target hwords
      refine .route hwords fun d => ?_
      exact (register_eq d ⟨_, _, _⟩).trans (map_eq_error.2 h)
    · rename_i hwords
      rw [← Except.error.inj h]
      exact .words hwords

/-- A blank entry of a list adds nothing, and a full one the route that it is. -/
theorem addEntry_eq (d : RouteData) (entry : List Char) : d.addEntry entry =
    if Text.AllBlank entry then .ok d else RouteText.ofEntry entry >>= d.register := by
  rw [addEntry]
  split
  · rename_i hnil
    rw [if_pos (Text.words_eq_nil_iff.1 hnil)]
  · rename_i hwords
    have hfull : Text.words entry ≠ [] := hwords ▸ List.cons_ne_nil _ _
    rw [if_neg (mt Text.words_eq_nil_iff.2 hfull), RouteText.ofEntry, hwords]
    rfl
  · rename_i hnil hthree
    rw [if_neg (mt Text.words_eq_nil_iff.2 hnil), RouteText.ofEntry]
    split
    · rename_i hwords
      exact absurd hwords (hthree _ _ _)
    · rfl

theorem foldlM_addEntry (d : RouteData) (entries : List (List Char)) :
    entries.foldlM addEntry d = (entries.filter fun entry => ¬ Text.AllBlank entry).foldlM
      (fun d entry => RouteText.ofEntry entry >>= d.register) d := by
  induction entries generalizing d with
  | nil => rfl
  | cons entry entries ih =>
    rw [List.foldlM_cons, addEntry_eq]
    by_cases hblank : Text.AllBlank entry
    · rw [if_pos hblank, List.filter_cons_of_neg (by simpa using hblank)]
      exact ih d
    · rw [if_neg hblank, List.filter_cons_of_pos (by simpa using hblank), List.foldlM_cons]
      simp only [ih]

/-- Registering the entries of a list is reading all of them first. -/
theorem foldlM_register (d : RouteData) (entries : List (List Char)) :
    entries.foldlM (fun d entry => RouteText.ofEntry entry >>= d.register) d =
      (entries.mapM fun entry => RouteText.ofEntry entry >>= RouteText.entry).map
        (·.foldl extend d) := by
  induction entries generalizing d with
  | nil => rfl
  | cons entry entries ih =>
    rw [List.foldlM_cons, List.mapM_cons]
    have hstep : (RouteText.ofEntry entry >>= d.register) =
        (RouteText.ofEntry entry >>= RouteText.entry).map d.extend := by
      cases RouteText.ofEntry entry with
      | error e => rfl
      | ok r => exact register_eq d r
    rw [hstep]
    cases RouteText.ofEntry entry >>= RouteText.entry with
    | error e => rfl
    | ok e =>
      have hrest := ih (d.extend e)
      cases hmap : entries.mapM fun entry => RouteText.ofEntry entry >>= RouteText.entry <;>
        rw [hmap] at hrest <;> exact hrest

theorem entries_foldl_extend (d : RouteData) (added : List (String × Action)) :
    (added.foldl extend d).entries = d.entries ++ added ∧
      (added.foldl extend d).default = d.default := by
  induction added generalizing d with
  | nil => exact ⟨(List.append_nil _).symm, rfl⟩
  | cons e added ih =>
    obtain ⟨hentries, hdefault⟩ := ih (d.extend e)
    have hext := extends_extend d e
    refine ⟨?_, hdefault.trans hext.default⟩
    rw [List.foldl_cons, hentries, hext.entries, List.append_assoc, List.singleton_append]

/-- How a list of routes is read: its full entries are registered in their order, up to the first
that is at fault. -/
structure ReadsList (list : String) : Prop where
  fold : ofRouteList list =
    (fullEntries list).foldlM (fun d entry => RouteText.ofEntry entry >>= d.register) empty
  fails : (∃ e, ofRouteList list = .error e) ↔ ∃ entry ∈ fullEntries list, ∃ e, IsFault entry e
  first : ∀ e, ofRouteList list = .error e ↔ ∃ front entry back,
    fullEntries list = front ++ entry :: back ∧ (∀ other ∈ front, ∀ e', ¬ IsFault other e') ∧
      IsFault entry e
  reads : ∀ d, ofRouteList list = .ok d → d.actionCount = (fullEntries list).length ∧
    (fullEntries list).mapM (fun entry => RouteText.ofEntry entry >>= RouteText.entry) =
      .ok d.entries ∧ d.default = none

/-- An entry is read as a route just where it is at fault for nothing. -/
theorem exists_entry_iff : (∃ e, (RouteText.ofEntry entry >>= RouteText.entry) = .ok e) ↔
    ∀ e, ¬ IsFault entry e := by
  simp only [isFault_iff]
  cases RouteText.ofEntry entry >>= RouteText.entry with
  | error e => exact iff_of_false nofun fun h => h e rfl
  | ok e => exact iff_of_true ⟨e, rfl⟩ nofun

theorem ofRouteList_eq_foldlM (list : String) : ofRouteList list =
    (fullEntries list).foldlM (fun d entry => RouteText.ofEntry entry >>= d.register) empty :=
  foldlM_addEntry empty _

theorem ofRouteList_eq_map (list : String) : ofRouteList list =
    ((fullEntries list).mapM fun entry => RouteText.ofEntry entry >>= RouteText.entry).map
      (·.foldl extend empty) :=
  (ofRouteList_eq_foldlM list).trans (foldlM_register empty _)

theorem ofRouteList_eq_error_iff : ofRouteList list = .error e ↔ ∃ front entry back,
    fullEntries list = front ++ entry :: back ∧ (∀ other ∈ front, ∀ e', ¬ IsFault other e') ∧
      IsFault entry e := by
  rw [ofRouteList_eq_map, map_eq_error, mapM_eq_error_iff]
  simp only [exists_entry_iff, isFault_iff]

theorem exists_error_iff : (∃ e, ofRouteList list = .error e) ↔
    ∃ entry ∈ fullEntries list, ∃ e, IsFault entry e := by
  constructor
  · intro h
    obtain ⟨e, he⟩ := h
    obtain ⟨front, entry, back, hentries, -, hfault⟩ := ofRouteList_eq_error_iff.1 he
    exact ⟨entry, hentries ▸ List.mem_append_right front List.mem_cons_self, e, hfault⟩
  · intro h
    obtain ⟨entry, hentry, e, hfault⟩ := h
    cases hlist : ofRouteList list with
    | error e => exact ⟨e, rfl⟩
    | ok d =>
      rw [ofRouteList_eq_map] at hlist
      obtain ⟨added, hadded, -⟩ := map_eq_ok.1 hlist
      have hread := exists_mapM_eq_ok_iff.1 ⟨added, hadded⟩ entry hentry
      exact absurd hfault (exists_entry_iff.1 hread e)

theorem readsList (list : String) : ReadsList list where
  fold := ofRouteList_eq_foldlM list
  fails := exists_error_iff
  first _ := ofRouteList_eq_error_iff
  reads d hd := by
    rw [ofRouteList_eq_map] at hd
    obtain ⟨added, hadded, rfl⟩ := map_eq_ok.1 hd
    obtain ⟨hentries, hdefault⟩ := entries_foldl_extend empty added
    rw [actionCount, hentries]
    exact ⟨length_of_mapM hadded, hadded, hdefault⟩

/-- Registering is ordered and leaves nothing half done. -/
theorem registers_in_order :
    (∀ r d, RouteText.Enters r d (r.enter.run.run d)) ∧
      (∀ rs d, RouteText.EntersAll rs d ((RouteText.enterAll rs).run d)) ∧
      ∀ list, ReadsList list :=
  ⟨RouteText.enters, RouteText.entersAll, readsList⟩

end RouteData
end Routes
