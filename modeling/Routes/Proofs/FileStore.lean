import Routes.FileStore
import Routes.Proofs.Text.Split
/-!
What making directories and writing a file do to a store. The working directory stays, directories
only come to be, and a file is written whole at its location and at no other; what has been written
is read back by its path, and by every path that leads to the same location.
-/
namespace Routes.FileStore
variable {s s' s'' : FileStore} {l working : Location} {ls : List Location} {fresh : Bool}
  {path text : String}

section Paths

/-- A name that a location can be made of. -/
structure IsPlain (name : String) : Prop where
  nonempty : name ≠ ""
  noDots : name ≠ "." ∧ name ≠ ".."
  noSlash : '/' ∉ name.toList

/-- The path that spells a location from the root. -/
def absolute (l : Location) : String :=
  String.ofList ('/' :: Text.join '/' (l.map String.toList))

theorem mem_names_iff {name : String} : name ∈ names path ↔
    name.toList ∈ Text.pieces '/' path.toList ∧ name ≠ "" ∧ name ≠ "." := by
  have hempty : name.toList = [] ↔ name = "" := String.toList_eq_nil_iff
  have hdot : name.toList = ['.'] ↔ name = "." :=
    ⟨fun h => String.toList_inj.1 h, fun h => h ▸ rfl⟩
  rw [names, List.mem_map]
  constructor
  · rintro ⟨p, hp, rfl⟩
    obtain ⟨hmem, hkept⟩ := List.mem_filter.1 hp
    rw [String.toList_ofList] at hempty hdot ⊢
    obtain ⟨hne, hdots⟩ := of_decide_eq_true hkept
    exact ⟨hmem, fun h => hne (hempty.2 h), fun h => hdots (hdot.2 h)⟩
  · rintro ⟨hmem, hne, hdots⟩
    refine ⟨name.toList, List.mem_filter.2 ⟨hmem, decide_eq_true ⟨?_, ?_⟩⟩, String.ofList_toList⟩
    · exact fun h => hne (hempty.1 h)
    · exact fun h => hdots (hdot.1 h)

theorem isPlain_goTo {name : String} (hl : ∀ n ∈ l, IsPlain n) (hname : name ∈ names path) :
    ∀ n ∈ goTo l name, IsPlain n := by
  obtain ⟨hmem, hne, hdot⟩ := mem_names_iff.1 hname
  rw [goTo]
  split
  · exact fun n hn => hl n (List.dropLast_subset l hn)
  · rename_i hdots
    intro n hn
    rcases List.mem_append.1 hn with hn | hn
    · exact hl n hn
    · obtain rfl := List.mem_singleton.1 hn
      exact ⟨hne, ⟨hdot, hdots⟩, Text.sep_not_mem_of_mem_pieces hmem⟩

theorem isPlain_foldl_goTo {ns : List String} (hl : ∀ n ∈ l, IsPlain n) (hns : ns ⊆ names path) :
    ∀ n ∈ ns.foldl goTo l, IsPlain n := by
  induction ns generalizing l with
  | nil => exact hl
  | cons name ns ih =>
    rw [List.cons_subset] at hns
    exact ih (isPlain_goTo hl hns.1) hns.2

/-- Paths lead to plain names only. -/
theorem isPlain_location (h : ∀ n ∈ working, IsPlain n) (path : String) :
    ∀ n ∈ location working path, IsPlain n := by
  refine isPlain_foldl_goTo ?_ (List.Subset.refl (names path))
  rw [origin]
  split
  · exact fun n hn => nomatch hn
  · exact h

theorem foldl_goTo_of_isPlain {ns : List String} (h : ∀ n ∈ ns, IsPlain n) (l : Location) :
    ns.foldl goTo l = l ++ ns := by
  induction ns generalizing l with
  | nil => exact (List.append_nil l).symm
  | cons n ns ih =>
    rw [List.forall_mem_cons] at h
    rw [List.foldl_cons, goTo, if_neg h.1.noDots.2, ih h.2, List.append_assoc]
    rfl

theorem names_absolute (h : ∀ n ∈ l, IsPlain n) : names (absolute l) = l := by
  have hkept : ∀ p ∈ l.map String.toList, decide (p ≠ [] ∧ p ≠ ['.']) = true := by
    intro p hp
    obtain ⟨n, hn, rfl⟩ := List.mem_map.1 hp
    refine decide_eq_true ⟨fun hempty => ?_, fun hdot => ?_⟩
    · exact (h n hn).nonempty (String.toList_eq_nil_iff.1 hempty)
    · exact (h n hn).noDots.1 (String.toList_inj.1 hdot)
  have hslash : ∀ p ∈ l.map String.toList, '/' ∉ p := by
    intro p hp
    obtain ⟨n, hn, rfl⟩ := List.mem_map.1 hp
    exact (h n hn).noSlash
  have htext : (l.map String.toList).map String.ofList = l := by
    rw [List.map_map, Function.comp_def]
    simp only [String.ofList_toList, List.map_id']
  rw [names, absolute, String.toList_ofList, Text.pieces, if_pos rfl,
    List.filter_cons_of_neg (by simp)]
  by_cases hl : l = []
  · rw [hl]
    rfl
  · rw [Text.pieces_join (by simpa using hl) hslash, List.filter_eq_self.2 hkept, htext]

theorem location_absolute (h : ∀ n ∈ l, IsPlain n) (working : Location) :
    location working (absolute l) = l := by
  have horigin : origin working (absolute l) = [] := by
    refine if_pos ?_
    simp [absolute]
  rw [location, names_absolute h, horigin]
  exact foldl_goTo_of_isPlain h []

/-- Wherever one is, the location of a path is reached by spelling it from the root. -/
theorem location_absolute_location (h : ∀ n ∈ working, IsPlain n) (path : String)
    (working' : Location) :
    location working' (absolute (location working path)) = location working path :=
  location_absolute (isPlain_location h path) working'

/-- From the directory `w` one file is reached from the root, from where one is, and by way of the
directory that `w` lies in; above the root there is none. -/
example : ["/w/x", "x", "./x", "../w/x", "../../w//x"].map (location ["w"]) =
    List.replicate 5 ["w", "x"] := by
  cbv

end Paths

/-- A store in the same working directory that has no directory less. -/
structure Grows (s s' : FileStore) : Prop where
  working : s'.working = s.working
  isDirectory : ∀ l, s.isDirectory l = true → s'.isDirectory l = true

theorem Grows.refl (s : FileStore) : s.Grows s := ⟨rfl, fun _ h => h⟩

theorem Grows.trans (h : s.Grows s') (h' : s'.Grows s'') : s.Grows s'' :=
  ⟨h'.working.trans h.working, fun l hl => h'.isDirectory l (h.isDirectory l hl)⟩

theorem isDirectory_append (s : FileStore) (new : List Location) (l : Location) :
    isDirectory { s with directories := s.directories ++ new } l =
      (s.isDirectory l || new.contains l) := by
  simp only [isDirectory, List.contains_append, Bool.or_assoc]

theorem grows_append (s : FileStore) (new : List Location) :
    s.Grows { s with directories := s.directories ++ new } := by
  refine ⟨rfl, fun l hl => ?_⟩
  rw [isDirectory_append, hl, Bool.true_or]

section MakeWay

theorem files_makeWay (s : FileStore) (fresh : Bool) (ls : List Location) :
    (s.makeWay fresh ls).2.files = s.files := by
  induction ls generalizing s fresh with
  | nil => rfl
  | cons l ls ih =>
    rw [makeWay]
    split
    · exact ih s fresh
    · split
      · rfl
      · exact ih _ true

theorem grows_makeWay (s : FileStore) (fresh : Bool) (ls : List Location) :
    s.Grows (s.makeWay fresh ls).2 := by
  induction ls generalizing s fresh with
  | nil => exact .refl s
  | cons l ls ih =>
    rw [makeWay]
    split
    · exact ih s fresh
    · split
      · exact .refl s
      · exact (grows_append s [l]).trans (ih _ true)

/-- A way is made where no file stands on it, and then it consists of directories. No others are
made. -/
theorem makeWay_eq_ok (h : ∀ l ∈ ls, s.file? l = none) : (s.makeWay fresh ls).1 = .ok () ∧
    ∀ l, (s.makeWay fresh ls).2.isDirectory l = true ↔ s.isDirectory l = true ∨ l ∈ ls := by
  induction ls generalizing s fresh with
  | nil => exact ⟨rfl, fun l => (or_iff_left List.not_mem_nil).symm⟩
  | cons first ls ih =>
    rw [List.forall_mem_cons] at h
    rw [makeWay]
    split
    · rename_i hfirst
      obtain ⟨hok, hdirectories⟩ := ih h.2
      refine ⟨hok, fun l => ?_⟩
      rw [hdirectories, List.mem_cons]
      constructor
      · rintro (hl | hl)
        · exact .inl hl
        · exact .inr (.inr hl)
      · rintro (hl | rfl | hl)
        · exact .inl hl
        · exact .inl hfirst
        · exact .inr hl
    · rw [if_neg (by rw [h.1]; exact Bool.false_ne_true)]
      obtain ⟨hok, hdirectories⟩ := ih (s := { s with directories := s.directories ++ [first] }) h.2
      refine ⟨hok, fun l => ?_⟩
      rw [hdirectories, isDirectory_append, Bool.or_eq_true, List.contains_iff_mem,
        List.mem_singleton, List.mem_cons, or_assoc]

theorem file?_makeParents (s : FileStore) (path : String) (l : Location) :
    (s.makeParents path).2.file? l = s.file? l := by
  rw [makeParents]
  split
  · rfl
  · rw [file?, file?, files_makeWay]

theorem grows_makeParents (s : FileStore) (path : String) : s.Grows (s.makeParents path).2 := by
  rw [makeParents]
  split
  · exact .refl s
  · exact grows_makeWay s false _

end MakeWay

section Write

/-- The path of a file that can be followed. -/
structure Reaches (s : FileStore) (path : String) : Prop where
  flawless : flaw? path = none
  named : namesDirectory path = false
  way : ∀ l ∈ way s.working path, s.isDirectory l = true

theorem Reaches.grows (h : s.Reaches path) (hgrows : s.Grows s') : s'.Reaches path := by
  refine ⟨h.flawless, h.named, fun l hl => ?_⟩
  rw [hgrows.working] at hl
  exact hgrows.isDirectory l (h.way l hl)

theorem passed_eq_way (h : namesDirectory path = false) (working : Location) :
    passed working path = way working path := by
  obtain ⟨front, last, hpieces⟩ :=
    (List.eq_nil_or_concat (Text.pieces '/' path.toList)).resolve_left (Text.pieces_ne_nil _ _)
  rw [List.concat_eq_append] at hpieces
  rw [namesDirectory, hpieces, List.getLast?_concat] at h
  have hne : last ≠ [] := by
    rintro rfl
    cases h
  rw [passed, hpieces, List.filter_append, List.filter_cons_of_pos (by simpa using hne),
    List.filter_nil, List.getLast?_concat]
  split
  · rename_i hdot
    obtain rfl := Option.some.inj hdot
    cases h
  · rfl

theorem any_holdsZero_of_flaw? (h : flaw? path = none) :
    (names path).dropLast.any holdsZero = false := by
  have hzero : '\x00' ∉ path.toList := by
    intro hmem
    have hholds : holdsZero path = true := List.contains_iff_mem.2 hmem
    rw [flaw?, hholds] at h
    split at h <;> cases h
  rw [List.any_eq_false]
  intro name hname hholds
  have hpiece := (mem_names_iff.1 (List.dropLast_subset _ hname)).1
  exact hzero (Text.mem_of_mem_pieces hpiece (List.contains_iff_mem.1 hholds))

theorem obstacle?_eq_none_iff : s.obstacle? path = none ↔
    flaw? path = none ∧ ∀ l ∈ passed s.working path, s.isDirectory l = true := by
  rw [obstacle?, Option.or_eq_none_iff, Option.map_eq_none_iff, List.find?_eq_none]
  simp only [Bool.not_eq_true', Bool.not_eq_false]

theorem reaches_iff : s.Reaches path ↔ s.obstacle? path = none ∧ namesDirectory path = false := by
  rw [obstacle?_eq_none_iff]
  constructor
  · intro h
    rw [passed_eq_way h.named]
    exact ⟨⟨h.flawless, h.way⟩, h.named⟩
  · rintro ⟨⟨hflaw, hpassed⟩, hname⟩
    rw [passed_eq_way hname] at hpassed
    exact ⟨hflaw, hname, hpassed⟩

theorem write_eq_ok : s.write path text = .ok s' ↔ s.Reaches path ∧
    s.isDirectory (location s.working path) = false ∧ s' = { s with
      files := s.files.filter (·.1 != location s.working path) ++
        [(location s.working path, .text text)] } := by
  rw [write, reaches_iff]
  split
  · rename_i e hobstacle
    rw [hobstacle]
    exact iff_of_false nofun nofun
  · rename_i hobstacle
    rw [hobstacle]
    split
    · rename_i hplace
      refine iff_of_false nofun ?_
      rintro ⟨⟨-, hname⟩, hdirectory, -⟩
      rw [hdirectory, hname] at hplace
      cases hplace
    · rename_i hplace
      rw [Bool.not_eq_true, Bool.or_eq_false_iff] at hplace
      rw [Except.ok.injEq, eq_comm]
      simp only [hplace, true_and]

theorem file?_write (h : s.write path text = .ok s') (l : Location) :
    s'.file? l = if l = location s.working path then some (.text text) else s.file? l := by
  obtain ⟨-, -, rfl⟩ := write_eq_ok.1 h
  rw [file?, file?, List.find?_append, List.find?_filter]
  by_cases hl : l = location s.working path
  · have hgone : (s.files.find? fun f =>
        decide ((f.1 != location s.working path) = true ∧ (f.1 == l) = true)) = none := by
      rw [List.find?_eq_none, hl]
      simp
    rw [if_pos hl, hgone, hl, List.find?_cons_of_pos (by simp)]
    rfl
  · have hkept : (fun f : Location × Content =>
        decide ((f.1 != location s.working path) = true ∧ (f.1 == l) = true)) = (·.1 == l) := by
      funext f
      by_cases hf : f.1 = l <;> simp [hf, hl]
    rw [if_neg hl, hkept, List.find?_cons_of_neg (by simpa using Ne.symm hl)]
    simp

theorem grows_write (h : s.write path text = .ok s') : s.Grows s' := by
  obtain ⟨-, -, rfl⟩ := write_eq_ok.1 h
  exact ⟨rfl, fun l hl => hl⟩

/-- What is read by a path is what stands where it leads. -/
theorem Reaches.read?_eq (h : s.Reaches path) :
    s.read? path = (s.file? (location s.working path)).bind (·.text?) := by
  obtain ⟨hobstacle, hname⟩ := reaches_iff.1 h
  rw [read?, fileAt?, hobstacle, hname]
  rfl

/-- A directory that is missing is not led back from. -/
example :
    let s := ofFiles [] [("b", .text "kept")]
    s.contains "b" = true ∧ s.contains "a/../b" = false ∧
      location s.working "a/../b" = location s.working "b" := by
  decide +kernel

theorem reaches_of_read? (h : s.read? path = some text) : s.Reaches path := by
  obtain ⟨content, hfile, -⟩ := Option.bind_eq_some_iff.1 h
  rw [fileAt?] at hfile
  split at hfile
  · cases hfile
  · rename_i hfollowed
    rw [Bool.not_eq_true, Bool.or_eq_false_iff, Option.isSome_eq_false_iff,
      Option.isNone_iff_eq_none] at hfollowed
    exact reaches_iff.2 hfollowed

/-- What has been written is there. -/
theorem read?_write (h : s.write path text = .ok s') : s'.read? path = some text := by
  have hreaches := (write_eq_ok.1 h).1.grows (grows_write h)
  rw [hreaches.read?_eq, (grows_write h).working, file?_write h, if_pos rfl]
  rfl

/-- Nothing stands where a file is to be written, nor a file on the way there. The way may have to
be made, but it does not lead through the place of the file. -/
structure Writable (s : FileStore) (path : String) : Prop where
  named : flaw? path = none ∧ namesDirectory path = false
  clear : ∀ l ∈ way s.working path, s.file? l = none
  place : s.isDirectory (location s.working path) = false ∧
    location s.working path ∉ way s.working path

theorem makeParents_of_writable (h : s.Writable path) : (s.makeParents path).1 = .ok () ∧
    ∀ l, (s.makeParents path).2.isDirectory l = true ↔
      s.isDirectory l = true ∨ l ∈ way s.working path := by
  rw [makeParents, if_neg (by rw [any_holdsZero_of_flaw? h.named.1]; exact Bool.false_ne_true)]
  exact makeWay_eq_ok h.clear

theorem write_of_writable (h : s.Writable path) (text : String) :
    ∃ s', (s.makeParents path).2.write path text = .ok s' := by
  obtain ⟨-, hdirectories⟩ := makeParents_of_writable h
  have hworking := (grows_makeParents s path).working
  have hreaches : (s.makeParents path).2.Reaches path := by
    refine ⟨h.named.1, h.named.2, fun l hl => ?_⟩
    rw [hworking] at hl
    exact (hdirectories l).2 (.inr hl)
  have hplace : (s.makeParents path).2.isDirectory
      (location (s.makeParents path).2.working path) = false := by
    rw [← Bool.not_eq_true, hworking, hdirectories, not_or, Bool.not_eq_true]
    exact h.place
  exact ⟨_, write_eq_ok.2 ⟨hreaches, hplace, rfl⟩⟩

end Write

end Routes.FileStore
