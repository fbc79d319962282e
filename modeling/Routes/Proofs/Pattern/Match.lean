import Routes.Pattern.Match
/-!
Reading a path from left to right finds the captures exactly when the path is made of the parts, and
no path has two tuples of captures.
-/
namespace Routes

theorem ParamKind.slash_not_mem {k : ParamKind} {v : List Char} (h : k.accepts v = true) :
    '/' ∉ v := by
  cases k with
  | text =>
    simp only [accepts, Bool.and_eq_true, Bool.not_eq_true', List.contains_eq_mem] at h
    simpa using h.2
  | int =>
    simp only [accepts, Bool.and_eq_true, List.all_eq_true] at h
    intro hs
    exact absurd (h.2 '/' hs) (by decide)

theorem ParamKind.ne_nil {k : ParamKind} {v : List Char} (h : k.accepts v = true) : v ≠ [] := by
  rintro rfl
  cases k <;> simp [accepts] at h

namespace PathPart

/-- The texts that stand for one part, with the captures in them. -/
def Takes : PathPart → List Char → List (List Char) → Prop
  | .text cs, t, vs => t = cs ∧ vs = []
  | .capture k, t, vs => k.accepts t = true ∧ vs = [t]

def isCapture : PathPart → Bool
  | .text _ => false
  | .capture _ => true

/-- What may follow a part: nothing, or a slash. -/
def Ends (rest : List Char) : Prop := ∀ c ∈ rest.head?, c = '/'

theorem ends_cons (rest : List Char) : Ends ('/' :: rest) := by simp [Ends]

theorem ends_of_tail {t : List Char} (h : t = [] ∨ t = ['/']) : Ends t := by
  rcases h with rfl | rfl <;> simp [Ends]

theorem reads_nil_iff {ts vs : List (List Char)} : Reads [] ts vs ↔ ts = [] ∧ vs = [] := by
  constructor
  · rintro ⟨⟩
    exact ⟨rfl, rfl⟩
  · rintro ⟨rfl, rfl⟩
    exact .nil

theorem reads_cons_iff {p : PathPart} {ps : List PathPart} {ts vs : List (List Char)} :
    Reads (p :: ps) ts vs ↔ ∃ t ts' us vs', ts = t :: ts' ∧ vs = us ++ vs' ∧ Takes p t us ∧
      Reads ps ts' vs' := by
  cases p with
  | text cs =>
    constructor
    · rintro ⟨⟩
      exact ⟨_, _, [], _, rfl, rfl, ⟨rfl, rfl⟩, ‹_›⟩
    · rintro ⟨t, ts', us, vs', rfl, rfl, ⟨rfl, rfl⟩, h⟩
      exact .text h
  | capture k =>
    constructor
    · rintro ⟨⟩
      exact ⟨_, _, [_], _, rfl, rfl, ⟨‹_›, rfl⟩, ‹_›⟩
    · rintro ⟨t, ts', us, vs', rfl, rfl, ⟨ht, rfl⟩, h⟩
      exact .capture ht h

theorem takes_length {p : PathPart} {t : List Char} {vs : List (List Char)} (h : Takes p t vs) :
    vs.length = [p].countP isCapture := by
  cases p with
  | text cs => simp [h.2, isCapture]
  | capture k => simp [h.2, isCapture]

theorem reads_length {ps : List PathPart} {ts vs : List (List Char)} (h : Reads ps ts vs) :
    vs.length = ps.countP isCapture := by
  induction ps generalizing ts vs with
  | nil => rw [(reads_nil_iff.1 h).2]; rfl
  | cons p ps ih =>
    obtain ⟨t, ts', us, vs', -, rfl, ht, hts⟩ := reads_cons_iff.1 h
    rw [List.length_append, takes_length ht, ih hts, ← List.countP_append, List.singleton_append]

theorem Reads.texts_append {ps : List PathPart} {ts ws : List (List Char)} (h : Reads ps ts ws)
    (us : List (List Char)) : Reads (us.map .text ++ ps) (us ++ ts) ws := by
  induction us with
  | nil => exact h
  | cons u us ih => exact .text ih

theorem takes_of_take? {p : PathPart} {cs rest : List Char} {vs : List (List Char)}
    (h : p.take? cs = some (vs, rest)) : ∃ t, Takes p t vs ∧ cs = t ++ rest := by
  cases p with
  | text t =>
    obtain ⟨r, hr, he⟩ := Option.map_eq_some_iff.1 h
    cases he
    exact ⟨t, ⟨rfl, rfl⟩, Text.eq_append_of_after? hr⟩
  | capture k =>
    simp only [take?] at h
    split at h
    · cases h
      exact ⟨_, ⟨‹_›, rfl⟩, (List.takeWhile_append_dropWhile).symm⟩
    · cases h

theorem take?_append {p : PathPart} {t rest : List Char} {vs : List (List Char)}
    (h : Takes p t vs) (hr : Ends rest) : p.take? (t ++ rest) = some (vs, rest) := by
  cases p with
  | text cs =>
    obtain ⟨rfl, rfl⟩ := h
    simp [take?, Text.after?_append]
  | capture k =>
    obtain ⟨ht, rfl⟩ := h
    have hs := ParamKind.slash_not_mem ht
    have hall : ∀ c ∈ t, (c != '/') = true := by
      intro c hc
      simp only [bne_iff_ne, ne_eq]
      rintro rfl
      exact hs hc
    have hnone : rest.takeWhile (· != '/') = [] ∧ rest.dropWhile (· != '/') = rest := by
      cases rest with
      | nil => exact ⟨rfl, rfl⟩
      | cons c r =>
        have hc : c = '/' := hr c rfl
        simp [hc]
    have htake : (t ++ rest).takeWhile (· != '/') = t := by
      rw [List.takeWhile_append_of_pos hall, hnone.1, List.append_nil]
    have hdrop : (t ++ rest).dropWhile (· != '/') = rest := by
      rw [List.dropWhile_append_of_pos hall, hnone.2]
    simp only [take?, htake, hdrop, ht, if_pos]

theorem captures?_cons {p q : PathPart} {ps : List PathPart} {cs : List Char}
    {vs : List (List Char)} :
    captures? (p :: q :: ps) cs = some vs ↔ ∃ us rest vs', p.take? cs = some (us, '/' :: rest) ∧
      captures? (q :: ps) rest = some vs' ∧ vs = us ++ vs' := by
  rw [captures?.eq_3 _ _ _ (by simp)]
  split
  · rename_i us rest htake
    constructor
    · intro h
      obtain ⟨vs', hvs, rfl⟩ := Option.map_eq_some_iff.1 h
      exact ⟨us, rest, vs', htake, hvs, rfl⟩
    · rintro ⟨us', rest', vs', h, hvs, rfl⟩
      rw [htake] at h
      cases h
      simp [hvs]
  · rename_i hnone
    constructor
    · intro h
      cases h
    · rintro ⟨us, rest, vs', h, -, -⟩
      exact absurd h (hnone us rest)

theorem captures?_eq_some_iff {ps : List PathPart} {cs : List Char} {vs : List (List Char)} :
    captures? ps cs = some vs ↔ ∃ ts t, (t = [] ∨ t = ['/']) ∧ Reads ps ts vs ∧
      cs = Text.join '/' ts ++ t := by
  induction ps generalizing cs vs with
  | nil =>
    simp only [captures?, reads_nil_iff]
    constructor
    · intro h
      split at h
      · cases h
        exact ⟨[], cs, ‹_›, ⟨rfl, rfl⟩, rfl⟩
      · cases h
    · rintro ⟨ts, t, ht, ⟨rfl, rfl⟩, rfl⟩
      rw [if_pos (by simpa [Text.join] using ht)]
  | cons p ps ih =>
    cases ps with
    | nil =>
      simp only [captures?, reads_cons_iff, reads_nil_iff]
      constructor
      · intro h
        split at h
        · rename_i us rest htake
          split at h
          · cases h
            obtain ⟨t, ht, rfl⟩ := takes_of_take? htake
            exact ⟨[t], rest, ‹_›, ⟨t, [], _, [], rfl, by simp, ht, rfl, rfl⟩, by simp [Text.join]⟩
          · cases h
        · cases h
      · rintro ⟨ts, t, ht, ⟨u, ts', us, vs', rfl, rfl, hu, rfl, rfl⟩, rfl⟩
        have htake := take?_append hu (ends_of_tail ht)
        simp only [Text.join, List.intercalate_singleton, htake, if_pos ht, List.append_nil]
    | cons q ps =>
      rw [captures?_cons]
      constructor
      · rintro ⟨us, rest, vs', htake, hvs, rfl⟩
        obtain ⟨u, hu, rfl⟩ := takes_of_take? htake
        obtain ⟨ts, t, ht, hts, rfl⟩ := ih.1 hvs
        refine ⟨u :: ts, t, ht, reads_cons_iff.2 ⟨u, ts, us, vs', rfl, rfl, hu, hts⟩, ?_⟩
        obtain ⟨w, ts', -, -, rfl, -⟩ := reads_cons_iff.1 hts
        simp [Text.join, List.intercalate_cons_cons]
      · rintro ⟨ts, t, ht, hts, rfl⟩
        obtain ⟨u, ts', us, vs', rfl, rfl, hu, hts'⟩ := reads_cons_iff.1 hts
        obtain ⟨w, ts'', -, -, rfl, -⟩ := reads_cons_iff.1 hts'
        refine ⟨us, Text.join '/' (w :: ts'') ++ t, vs', ?_, ih.2 ⟨_, t, ht, hts', rfl⟩, rfl⟩
        have htake := take?_append hu (ends_cons (Text.join '/' (w :: ts'') ++ t))
        simpa [Text.join, List.intercalate_cons_cons] using htake

/-- A slash in front of a path that is read already leaves nothing for a capture to take: every
part up to the end is empty text. -/
theorem captures?_slash_cons {ps : List PathPart} {cs : List Char} {vs ws : List (List Char)}
    (hv : captures? ps cs = some vs) (hw : captures? ps ('/' :: cs) = some ws) : vs = ws := by
  induction ps generalizing cs vs ws with
  | nil =>
    obtain ⟨_, _, -, hvs, -⟩ := captures?_eq_some_iff.1 hv
    obtain ⟨_, _, -, hws, -⟩ := captures?_eq_some_iff.1 hw
    rw [(reads_nil_iff.1 hvs).2, (reads_nil_iff.1 hws).2]
  | cons p ps ih =>
    cases p with
    | capture k =>
      obtain ⟨ts, t, -, hts, he⟩ := captures?_eq_some_iff.1 hw
      obtain ⟨u, ts', us, vs', rfl, rfl, ⟨hu, -⟩, -⟩ := reads_cons_iff.1 hts
      obtain ⟨c, u, rfl⟩ := List.exists_cons_of_ne_nil (ParamKind.ne_nil hu)
      have hc : c = '/' := by
        cases ts' <;> simp [Text.join, List.intercalate_cons_cons] at he <;> exact he.1.symm
      exact absurd (hc ▸ List.mem_cons_self) (ParamKind.slash_not_mem hu)
    | text t =>
      cases ps with
      | nil =>
        obtain ⟨_, _, -, hvs, -⟩ := captures?_eq_some_iff.1 hv
        obtain ⟨_, _, -, hws, -⟩ := captures?_eq_some_iff.1 hw
        simp only [reads_cons_iff, reads_nil_iff, Takes] at hvs hws
        obtain ⟨_, _, _, _, -, rfl, ⟨-, rfl⟩, -, rfl⟩ := hvs
        obtain ⟨_, _, _, _, -, rfl, ⟨-, rfl⟩, -, rfl⟩ := hws
        rfl
      | cons q ps =>
        obtain ⟨us, r, vs', htv, hvs, rfl⟩ := captures?_cons.1 hv
        obtain ⟨us', r', ws', htw, hws, rfl⟩ := captures?_cons.1 hw
        obtain ⟨u, ⟨hu, rfl⟩, hcs⟩ := takes_of_take? htv
        obtain ⟨u', ⟨hu', rfl⟩, he⟩ := takes_of_take? htw
        rw [hu', hcs, hu] at he
        -- Both sides begin with `t` up to one character, so the rests differ by that character.
        have hr : r' = '/' :: r := by
          have he' : ('/' :: t) ++ '/' :: r = (t ++ ['/']) ++ r' := by simpa using he
          exact ((List.append_inj he' (by simp)).2).symm
        rw [ih hvs (hr ▸ hws)]

end PathPart

namespace Pattern
variable {p : Pattern} {base : String} {path : List Char} {vs ws : List (List Char)}

theorem countP_parts (p : Pattern) (base : String) :
    (p.parts base).countP PathPart.isCapture = p.captureCount := by
  have hbase : ((basePieces base).map PathPart.text).countP PathPart.isCapture = 0 := by
    simp [List.countP_eq_zero, PathPart.isCapture]
  have hsegs : (p.map Segment.pathPart).countP PathPart.isCapture = p.captureCount := by
    rw [captureCount, List.countP_map]
    exact List.countP_congr fun s _ => by
      cases s <;> simp [Segment.pathPart, Segment.isCapture, PathPart.isCapture]
  rw [parts, List.countP_append, hbase, hsegs, Nat.zero_add]

theorem matches_length (h : p.Matches base path vs) : vs.length = p.captureCount := by
  obtain ⟨_, _, _, -, -, hts, -⟩ := h
  rw [PathPart.reads_length hts, countP_parts]

theorem matches_iff : p.Matches base path vs ↔
    (∃ rest, path = '/' :: rest ∧ PathPart.captures? (p.parts base) rest = some vs) ∨
      PathPart.captures? (p.parts base) path = some vs := by
  simp only [PathPart.captures?_eq_some_iff, Matches]
  constructor
  · rintro ⟨_, t, ts, rfl | rfl, ht, hts, rfl⟩
    · exact .inr ⟨ts, t, ht, hts, rfl⟩
    · exact .inl ⟨Text.join '/' ts ++ t, rfl, ts, t, ht, hts, rfl⟩
  · rintro (⟨_, rfl, ts, t, ht, hts, rfl⟩ | ⟨ts, t, ht, hts, rfl⟩)
    · exact ⟨['/'], t, ts, .inr rfl, ht, hts, rfl⟩
    · exact ⟨[], t, ts, .inl rfl, ht, hts, rfl⟩

theorem matches_unique (hv : p.Matches base path vs) (hw : p.Matches base path ws) : vs = ws := by
  rcases matches_iff.1 hv with ⟨r, rfl, hv'⟩ | hv'
  · rcases matches_iff.1 hw with ⟨r', he, hw'⟩ | hw'
    · cases he
      exact Option.some.inj (hv'.symm.trans hw')
    · exact PathPart.captures?_slash_cons hv' hw'
  · rcases matches_iff.1 hw with ⟨r', rfl, hw'⟩ | hw'
    · exact (PathPart.captures?_slash_cons hw' hv').symm
    · exact Option.some.inj (hv'.symm.trans hw')

theorem captures?_eq_some_iff : p.captures? base path = some vs ↔ p.Matches base path vs := by
  constructor
  · intro h
    rw [matches_iff]
    simp only [captures?] at h
    split at h
    · split at h
      · cases h
        exact .inl ⟨_, rfl, ‹_›⟩
      · exact .inr h
    · exact .inr h
  · intro h
    have hm := h
    rw [matches_iff] at h
    simp only [captures?]
    split
    · rename_i rest
      split
      · rename_i us hus
        exact congrArg some (matches_unique (matches_iff.2 (.inl ⟨rest, rfl, hus⟩)) hm)
      · rename_i hnone
        rcases h with ⟨_, he, h⟩ | h
        · cases he
          rw [hnone] at h
          cases h
        · exact h
    · rename_i hne
      rcases h with ⟨rest, rfl, -⟩ | h
      · exact absurd rfl (hne rest)
      · exact h

theorem captures?_eq_none_iff : p.captures? base path = none ↔
    ∀ vs, ¬ p.Matches base path vs := by
  simp only [← captures?_eq_some_iff, Option.eq_none_iff_forall_ne_some, ne_eq]

end Pattern
end Routes
