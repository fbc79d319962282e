import Routes.Proofs.FileStore
import Routes.SourceModule
/-!
Modules written to files. Putting one ends in one of four ways, and only the one that reports so
touches a file, the one at the path. Main statement: after any number of modules have been put, each
file is the text of the last one that was written at its place, or what it was at first.
-/
namespace Routes

namespace SourceModule
open FileStore (Location location)
variable {m : SourceModule} {path text : String} {force : Bool} {s : FileStore}

theorem render_eq_ok : m.render = .ok text ↔ isName m.name = true ∧ text = m.text := by
  rw [render]
  split
  · rename_i hname
    rw [Except.ok.injEq, eq_comm]
    exact (and_iff_right hname).symm
  · rename_i hname
    exact iff_of_false nofun fun h => hname h.1

theorem render_eq_error {e : Error} :
    m.render = .error e ↔ isName m.name = false ∧ e = .invalidName m.name := by
  rw [render]
  split
  · rename_i hname
    exact iff_of_false nofun fun h => Bool.false_ne_true (h.1.symm.trans hname)
  · rename_i hname
    rw [Except.error.injEq, eq_comm]
    exact (and_iff_right (Bool.eq_false_iff.2 hname)).symm

/-- A module may be put where nothing is or anything may be replaced. -/
def MayPut (path : String) (force : Bool) (s : FileStore) : Prop :=
  s.contains path = false ∨ force = true

theorem mayPut_iff : MayPut path force s ↔ ¬ (s.contains path && !force) = true := by
  rw [MayPut]
  cases s.contains path <;> cases force <;> simp

/-- The ways in which putting a module ends, with the files afterwards. -/
inductive Puts (m : SourceModule) (path : String) (force : Bool) (s : FileStore) :
    Except Error Bool → FileStore → Prop
  | kept : ¬ MayPut path force s → Puts m path force s (.ok false) s
  | invalid : MayPut path force s → isName m.name = false →
      Puts m path force s (.error (.invalidName m.name)) s
  | failed {e s'} : MayPut path force s → isName m.name = true → ¬ s.Writable path →
      (∀ l, s'.file? l = s.file? l) → Puts m path force s (.error (.file e)) s'
  | written {s'} : MayPut path force s → isName m.name = true → s'.read? path = some m.text →
      (∀ l, s'.file? l =
        if l = location s.working path then some (.text m.text) else s.file? l) →
      Puts m path force s (.ok true) s'

theorem puts_put (m : SourceModule) (path : String) (force : Bool) (s : FileStore) :
    Puts m path force s (m.put path force s).1 (m.put path force s).2 := by
  rw [put]
  split
  · rename_i hkept
    exact .kept fun hmay => mayPut_iff.1 hmay hkept
  · rename_i hmay
    rw [← mayPut_iff] at hmay
    split
    · rename_i e hrender
      obtain ⟨hname, rfl⟩ := render_eq_error.1 hrender
      exact .invalid hmay hname
    · rename_i text hrender
      obtain ⟨hname, rfl⟩ := render_eq_ok.1 hrender
      have hfiles := fun l => FileStore.file?_makeParents s path l
      have hworking := (FileStore.grows_makeParents s path).working
      split
      · rename_i e made hmade
        have hblocked : ¬ s.Writable path := by
          intro hwritable
          have hway := (FileStore.makeParents_of_writable hwritable).1
          rw [hmade] at hway
          cases hway
        rw [hmade] at hfiles
        exact .failed hmay hname hblocked hfiles
      · rename_i made hmade
        rw [hmade] at hfiles hworking
        split
        · rename_i e hfailed
          have hblocked : ¬ s.Writable path := by
            intro hwritable
            obtain ⟨written, hwritten⟩ := FileStore.write_of_writable hwritable m.text
            rw [hmade, hfailed] at hwritten
            cases hwritten
          exact .failed hmay hname hblocked hfiles
        · rename_i written hwritten
          refine .written hmay hname (FileStore.read?_write hwritten) fun l => ?_
          rw [FileStore.file?_write hwritten, hfiles, hworking]

theorem grows_put (m : SourceModule) (path : String) (force : Bool) (s : FileStore) :
    s.Grows (m.put path force s).2 := by
  have hmade := FileStore.grows_makeParents s path
  rw [put]
  split
  · exact .refl s
  · split
    · exact .refl s
    · split
      · rename_i e made hway
        rw [hway] at hmade
        exact hmade
      · rename_i made hway
        rw [hway] at hmade
        split
        · exact hmade
        · rename_i written hwritten
          exact hmade.trans (FileStore.grows_write hwritten)

theorem write_eq_ok {written : Bool} {s' : FileStore} :
    m.write path force s = .ok (written, s') ↔ m.put path force s = (.ok written, s') := by
  rw [write]
  obtain ⟨result, made⟩ := m.put path force s
  cases result <;> simp [Except.map]

/-- A module that was written is at its path. -/
theorem read?_of_write {s' : FileStore} (h : m.write path force s = .ok (true, s')) :
    s'.read? path = some m.text := by
  have hput := puts_put m path force s
  rw [write_eq_ok.1 h] at hput
  cases hput with
  | written _ _ hread _ => exact hread

end SourceModule

/-- A module that is to be put at a path. -/
structure Writing where
  module : SourceModule
  path : String
  force : Bool

namespace Writing
open FileStore (Location location)
open SourceModule (Error MayPut isName)
variable {w : Writing} {ws : List Writing} {s s' : FileStore} {l working : Location}

def apply (w : Writing) (s : FileStore) : Except Error Bool × FileStore :=
  w.module.put w.path w.force s

/-- Where a module is to be put, as one stands in a directory. -/
def place (working : Location) (w : Writing) : Location := location working w.path

/-- The files after some writings. -/
def run : List Writing → FileStore → FileStore
  | [], s => s
  | w :: ws, s => run ws (w.apply s).2

theorem run_append (before after : List Writing) (s : FileStore) :
    run (before ++ after) s = run after (run before s) := by
  induction before generalizing s with
  | nil => rfl
  | cons w before ih => exact ih (w.apply s).2

/-- The writings of a run that report that they have written. -/
def written : List Writing → FileStore → List Writing
  | [], _ => []
  | w :: ws, s =>
    match (w.apply s).1 with
    | .ok true => w :: written ws (w.apply s).2
    | _ => written ws (w.apply s).2

/-- The last of some writings at a place. -/
def lastAt? (working l : Location) (ws : List Writing) : Option Writing :=
  ws.reverse.find? fun w => w.place working == l

/-- What a writing reports and what it does to the files go together. -/
structure Guarded (w : Writing) (s : FileStore) (result : Except Error Bool) (s' : FileStore) :
    Prop where
  kept : s.contains w.path = true → w.force = false → result = .ok false ∧ s' = s
  checked : MayPut w.path w.force s → isName w.module.name = false →
    result = .error (.invalidName w.module.name)
  invalid : ∀ name, result = .error (.invalidName name) → s' = s
  written : result = .ok true → ∃ text, w.module.render = .ok text ∧
    s'.read? w.path = some text ∧
    ∀ l, s'.file? l = if l = w.place s.working then some (.text text) else s.file? l
  others : result ≠ .ok true → ∀ l, s'.file? l = s.file? l
  writes : MayPut w.path w.force s → isName w.module.name = true → s.Writable w.path →
    result = .ok true

theorem puts_apply (w : Writing) (s : FileStore) :
    w.module.Puts w.path w.force s (w.apply s).1 (w.apply s).2 :=
  SourceModule.puts_put w.module w.path w.force s

theorem guarded_of_puts {result : Except Error Bool}
    (h : w.module.Puts w.path w.force s result s') : w.Guarded s result s' := by
  have hkept : s.contains w.path = true → w.force = false → ¬ MayPut w.path w.force s := by
    intro hcontains hforce hmay
    simp [MayPut, hcontains, hforce] at hmay
  cases h with
  | kept hnot =>
    exact ⟨fun _ _ => ⟨rfl, rfl⟩, fun hmay => absurd hmay hnot, fun _ _ => rfl, nofun,
      fun _ _ => rfl, fun hmay => absurd hmay hnot⟩
  | invalid hmay hname =>
    refine ⟨fun hc hf => absurd hmay (hkept hc hf), fun _ _ => rfl, fun _ _ => rfl, nofun,
      fun _ _ => rfl, fun _ hvalid => ?_⟩
    rw [hname] at hvalid
    cases hvalid
  | failed hmay hname hblocked hfiles =>
    refine ⟨fun hc hf => absurd hmay (hkept hc hf), fun _ hinvalid => ?_, nofun, nofun,
      fun _ => hfiles, fun _ _ hwritable => absurd hwritable hblocked⟩
    rw [hname] at hinvalid
    cases hinvalid
  | written hmay hname hread hfiles =>
    refine ⟨fun hc hf => absurd hmay (hkept hc hf), fun _ hinvalid => ?_, nofun,
      fun _ => ⟨w.module.text, ?_, hread, hfiles⟩, fun hnot => absurd rfl hnot,
      fun _ _ _ => rfl⟩
    · rw [hname] at hinvalid
      cases hinvalid
    · exact SourceModule.render_eq_ok.2 ⟨hname, rfl⟩

theorem guarded_apply (w : Writing) (s : FileStore) :
    w.Guarded s (w.apply s).1 (w.apply s).2 := guarded_of_puts (puts_apply w s)

theorem lastAt?_cons (working l : Location) (w : Writing) (ws : List Writing) :
    lastAt? working l (w :: ws) =
      (lastAt? working l ws).or (if w.place working = l then some w else none) := by
  rw [lastAt?, List.reverse_cons, List.find?_append, List.find?_singleton]
  simp only [beq_iff_eq, lastAt?]

theorem grows_apply (w : Writing) (s : FileStore) : s.Grows (w.apply s).2 :=
  SourceModule.grows_put w.module w.path w.force s

theorem grows_run (ws : List Writing) (s : FileStore) : s.Grows (run ws s) := by
  induction ws generalizing s with
  | nil => exact .refl s
  | cons w ws ih => exact (grows_apply w s).trans (ih (w.apply s).2)

/-- A file is the text of the last module that was written at its place, or what it was at first. -/
theorem file?_run (ws : List Writing) (s : FileStore) (l : Location) : (run ws s).file? l =
    ((lastAt? s.working l (written ws s)).map fun w => .text w.module.text).or (s.file? l) := by
  induction ws generalizing s with
  | nil => rfl
  | cons w ws ih =>
    rw [run, ih, written, (grows_apply w s).working]
    have hguarded := guarded_apply w s
    split
    · rename_i hwritten
      obtain ⟨text, hrender, -, hfiles⟩ := hguarded.written hwritten
      obtain ⟨-, rfl⟩ := SourceModule.render_eq_ok.1 hrender
      rw [hfiles, lastAt?_cons, Option.map_or, Option.or_assoc]
      by_cases hl : l = w.place s.working
      · rw [if_pos hl, if_pos hl.symm]
        rfl
      · rw [if_neg hl, if_neg (Ne.symm hl)]
        rfl
    · rename_i hother
      rw [hguarded.others hother]

/-- The path of a module that was written can be followed from then on. -/
theorem reaches_of_mem_written (h : w ∈ written ws s) : (run ws s).Reaches w.path := by
  induction ws generalizing s with
  | nil => cases h
  | cons first ws ih =>
    rw [run]
    rw [written] at h
    split at h
    · rename_i hwritten
      rcases List.mem_cons.1 h with rfl | h
      · obtain ⟨text, -, hread, -⟩ := (guarded_apply w s).written hwritten
        exact (FileStore.reaches_of_read? hread).grows (grows_run ws _)
      · exact ih h
    · exact ih h

/-- No writing of a run touches a file but the one that it reports as written, and each file is
whole: what the last one at its place has written, or what it was before the run. Writings are at
one place where their paths lead there from the directory in which the run began. -/
theorem files_run (ws : List Writing) (s : FileStore) :
    (∀ before w after, ws = before ++ w :: after → (run before s).working = s.working ∧
      w.Guarded (run before s) (w.apply (run before s)).1 (run (before ++ [w]) s)) ∧
    (∀ l, (run ws s).file? l =
      ((lastAt? s.working l (written ws s)).map fun w => .text w.module.text).or (s.file? l)) ∧
    ∀ l w, lastAt? s.working l (written ws s) = some w →
      (run ws s).read? w.path = some w.module.text := by
  refine ⟨fun before w after _ => ⟨(grows_run before s).working, ?_⟩, file?_run ws s,
    fun l w hlast => ?_⟩
  · rw [run_append]
    exact guarded_apply w _
  · have hmem : w ∈ written ws s := List.mem_reverse.1 (List.mem_of_find?_eq_some hlast)
    have hplace : w.place s.working = l := by simpa using List.find?_some hlast
    have hfile := file?_run ws s l
    rw [hlast, ← hplace] at hfile
    rw [(reaches_of_mem_written hmem).read?_eq, (grows_run ws s).working, ← place, hfile]
    rfl

end Writing
end Routes
