import Routes.Proofs.Pattern.Match
import Routes.Proofs.Regex
/-!
The regular expression of a pattern, read as one, matches the paths that the pattern matches, and
its groups hold the captures. No text of a literal or of a base URL is read as an operator.
-/
namespace Routes

theorem Pattern.isMeta_iff {c : Char} : isMeta c = true ↔ c = '\\' ∨ c ∈ Regex.operators := by
  simp only [isMeta, Regex.operators, List.contains_eq_mem, decide_eq_true_eq, List.mem_cons,
    List.not_mem_nil, or_false]
  grind

namespace Regex.Reader
variable {d : Reader}

def pushAll (d : Reader) (rs : List Regex) : Reader :=
  { d with frame := { d.frame with items := rs.reverse ++ d.frame.items } }

theorem pushAll_append (d : Reader) (rs ss : List Regex) :
    d.pushAll (rs ++ ss) = (d.pushAll rs).pushAll ss := by
  simp [pushAll]

/-- Reading goes on behind what has been read. -/
def readText? (d : Reader) (cs : List Char) : Option Reader :=
  (signs? cs).bind fun signs => signs.foldlM step? d

theorem readText?_append {cs rest : List Char} {signs : List Sign}
    (h : signs? (cs ++ rest) = (signs? rest).map (signs ++ ·)) :
    d.readText? (cs ++ rest) = (signs.foldlM step? d).bind fun d => d.readText? rest := by
  cases hr : signs? rest with
  | none => cases hs : signs.foldlM step? d <;> simp [readText?, h, hr]
  | some s => simp [readText?, h, hr, List.foldlM_append]

theorem foldlM_plain (hd : d.inSet = none) (cs : List Char) :
    (cs.map Sign.plain).foldlM step? d = some (d.pushAll (cs.map char)) := by
  induction cs generalizing d with
  | nil => rfl
  | cons c cs ih =>
    have hstep : step? d (.plain c) = some (d.push (char c)) := by simp [step?, hd]
    rw [List.map_cons, List.foldlM_cons, hstep]
    simpa [pushAll, push, Frame.push] using ih (d := d.push (char c)) hd

end Regex.Reader

namespace PathPart

/-- A part as it is written in a regular expression. -/
def expression : PathPart → List Char
  | .text cs => Pattern.escape cs
  | .capture .int => "([0-9]+)".toList
  | .capture .text => "([^/]+)".toList

/-- What the expression of a part is read as. -/
def items : PathPart → List Regex
  | .text cs => cs.map .char
  | .capture .int => [.group (.seqAll [.plus (.set false [('0', '9')])])]
  | .capture .text => [.group (.seqAll [.plus (.set true [('/', '/')])])]

def joined (ps : List PathPart) : List Regex := List.intercalate [.char '/'] (ps.map items)

theorem joined_cons_cons (p q : PathPart) (ps : List PathPart) :
    joined (p :: q :: ps) = p.items ++ [.char '/'] ++ joined (q :: ps) := by
  simp [joined, List.intercalate_cons_cons]

theorem signs?_escape (cs rest : List Char) : Regex.signs? (Pattern.escape cs ++ rest) =
    (Regex.signs? rest).map (cs.map Regex.Sign.plain ++ ·) := by
  induction cs with
  | nil => simp [Pattern.escape]
  | cons c cs ih =>
    simp only [Pattern.escape, List.flatMap_cons, List.map_cons] at ih ⊢
    by_cases hc : Pattern.isMeta c = true
    · have hop := Pattern.isMeta_iff.1 hc
      simp only [hc, if_pos, List.cons_append, List.nil_append, Regex.signs?, hop, ih,
        Option.map_map]
      rfl
    · have hop := mt Pattern.isMeta_iff.2 hc
      rw [not_or] at hop
      simp only [hc, if_neg, List.cons_append, List.nil_append, Bool.false_eq_true,
        not_false_eq_true]
      rw [Regex.signs?.eq_3 _ _ (by rintro _ _ rfl; exact absurd rfl hop.1), if_neg hop.1]
      simp only [ih, Option.map_map, Regex.Sign.ofChar, if_neg hop.2]
      rfl

open Regex in
theorem readText?_part {d : Reader} (hd : d.inSet = none) (p : PathPart) (rest : List Char) :
    d.readText? (p.expression ++ rest) = (d.pushAll p.items).readText? rest := by
  obtain ⟨⟨before, items⟩, outer, inSet⟩ := d
  cases hd
  match p with
  | .text cs =>
    have h := Reader.readText?_append (d := ⟨⟨before, items⟩, outer, none⟩) (signs?_escape cs rest)
    rw [Reader.foldlM_plain (d := ⟨⟨before, items⟩, outer, none⟩) rfl] at h
    exact h
  | .capture .int =>
    have h : signs? ("([0-9]+)".toList ++ rest) = (signs? rest).map
        ([.op '(', .op '[', .plain '0', .op '-', .plain '9', .op ']', .op '+', .op ')'] ++ ·) := by
      simp [signs?, Sign.ofChar, operators]
      rfl
    exact (Reader.readText?_append h).trans rfl
  | .capture .text =>
    have h : signs? ("([^/]+)".toList ++ rest) = (signs? rest).map
        ([.op '(', .op '[', .op '^', .plain '/', .op ']', .op '+', .op ')'] ++ ·) := by
      simp [signs?, Sign.ofChar, operators]
      rfl
    exact (Reader.readText?_append h).trans rfl

open Regex in
theorem readText?_slash {d : Reader} (hd : d.inSet = none) (rest : List Char) :
    d.readText? ('/' :: rest) = (d.pushAll [.char '/']).readText? rest :=
  readText?_part hd (.text ['/']) rest

open Regex in
theorem readText?_join {d : Reader} (hd : d.inSet = none) (ps : List PathPart)
    (rest : List Char) : d.readText? (Text.join '/' (ps.map expression) ++ rest) =
      (d.pushAll (joined ps)).readText? rest := by
  induction ps generalizing d with
  | nil => rfl
  | cons p ps ih =>
    cases ps with
    | nil => simpa [Text.join, joined] using readText?_part hd p rest
    | cons q ps =>
      simp only [Text.join, List.map_cons, List.intercalate_cons_cons, List.append_assoc] at ih ⊢
      have hslash := readText?_slash (d := d.pushAll p.items) hd
      have hrest := ih (d := (d.pushAll p.items).pushAll [.char '/']) hd
      rw [readText?_part hd, List.singleton_append, hslash, hrest, joined_cons_cons,
        Reader.pushAll_append, Reader.pushAll_append]

theorem groups_items (p : PathPart) :
    (Regex.seqAll p.items).groups = if p.isCapture then 1 else 0 := by
  match p with
  | .text cs => exact Regex.groups_seqAll_chars cs
  | .capture .int => rfl
  | .capture .text => rfl

theorem groups_joined (ps : List PathPart) :
    (Regex.seqAll (joined ps)).groups = ps.countP isCapture := by
  induction ps with
  | nil => rfl
  | cons p ps ih =>
    have hp := groups_items p
    cases ps with
    | nil => simpa [joined, List.countP_cons] using hp
    | cons q ps =>
      rw [joined_cons_cons, Regex.groups_seqAll_append, Regex.groups_seqAll_append, ih, hp,
        List.countP_cons (a := p)]
      simp [Regex.seqAll, Regex.groups, Nat.add_comm]

section
variable {p : PathPart} {ps : List PathPart} {pre mid post : List Char}
  {held : List (Option (List Char))}

theorem accepts_int_iff {v : List Char} : ParamKind.int.accepts v = true ↔
    v ≠ [] ∧ ∀ c ∈ v, (Regex.inRanges [('0', '9')] c != false) = true := by
  simp only [ParamKind.accepts, Bool.and_eq_true, List.all_eq_true, Bool.not_eq_true',
    List.isEmpty_eq_false_iff]
  refine and_congr_right fun _ => forall_congr' fun c => imp_congr_right fun _ => ?_
  simp [Regex.inRanges, Char.isDigit, Char.le_def]

theorem accepts_text_iff {v : List Char} : ParamKind.text.accepts v = true ↔
    v ≠ [] ∧ ∀ c ∈ v, (Regex.inRanges [('/', '/')] c != true) = true := by
  simp only [ParamKind.accepts, Bool.and_eq_true, Bool.not_eq_true', List.isEmpty_eq_false_iff,
    List.contains_eq_mem, decide_eq_false_iff_not]
  refine and_congr_right fun _ => ⟨fun h c hc => ?_, fun h hs => ?_⟩
  · have hne : c ≠ '/' := fun he => h (he ▸ hc)
    have hnot : ¬('/' ≤ c ∧ c ≤ '/') := fun he => hne (Char.le_antisymm he.2 he.1)
    simp only [Regex.inRanges, List.any_cons, List.any_nil, decide_eq_false hnot]
    rfl
  · exact absurd (h '/' hs) (by decide)

theorem run_items_iff : (Regex.seqAll p.items).Run pre mid post held ↔
    ∃ vs, Takes p mid vs ∧ held = vs.map some := by
  match p with
  | .text cs =>
    simp only [items, Takes, Regex.run_seqAll_chars]
    constructor
    · rintro ⟨rfl, rfl⟩
      exact ⟨[], ⟨rfl, rfl⟩, rfl⟩
    · rintro ⟨_, ⟨rfl, rfl⟩, rfl⟩
      exact ⟨rfl, rfl⟩
  | .capture .int =>
    simp only [items, Takes, Regex.run_seqAll_singleton, Regex.run_group_iff,
      Regex.run_plus_set_iff, accepts_int_iff]
    constructor
    · rintro ⟨_, rfl, hne, hall, rfl⟩
      exact ⟨[mid], ⟨⟨hne, hall⟩, rfl⟩, rfl⟩
    · rintro ⟨_, ⟨⟨hne, hall⟩, rfl⟩, rfl⟩
      exact ⟨[], rfl, hne, hall, rfl⟩
  | .capture .text =>
    simp only [items, Takes, Regex.run_seqAll_singleton, Regex.run_group_iff,
      Regex.run_plus_set_iff, accepts_text_iff]
    constructor
    · rintro ⟨_, rfl, hne, hall, rfl⟩
      exact ⟨[mid], ⟨⟨hne, hall⟩, rfl⟩, rfl⟩
    · rintro ⟨_, ⟨⟨hne, hall⟩, rfl⟩, rfl⟩
      exact ⟨[], rfl, hne, hall, rfl⟩

theorem run_joined_iff : (Regex.seqAll (joined ps)).Run pre mid post held ↔
    ∃ ts vs, Reads ps ts vs ∧ mid = Text.join '/' ts ∧ held = vs.map some := by
  induction ps generalizing pre mid held with
  | nil =>
    constructor
    · rintro ⟨⟩
      exact ⟨[], [], .nil, rfl, rfl⟩
    · rintro ⟨_, _, ⟨⟩, rfl, rfl⟩
      exact .empty
  | cons p ps ih =>
    cases ps with
    | nil =>
      simp only [joined, List.map_cons, List.map_nil, List.intercalate_singleton, run_items_iff,
        reads_cons_iff, reads_nil_iff]
      constructor
      · rintro ⟨vs, h, rfl⟩
        exact ⟨[mid], vs, ⟨mid, [], vs, [], rfl, by simp, h, rfl, rfl⟩, by simp [Text.join], rfl⟩
      · rintro ⟨_, _, ⟨t, _, vs, _, rfl, rfl, h, rfl, rfl⟩, rfl, rfl⟩
        exact ⟨vs, by simpa [Text.join] using h, by simp⟩
    | cons q ps =>
      simp only [joined_cons_cons, Regex.run_seqAll_append, Regex.run_seqAll_singleton,
        Regex.run_char_iff, run_items_iff, ih]
      constructor
      · rintro ⟨_, _, _, _, rfl, rfl, ⟨u, _, _, _, rfl, rfl, ⟨us, hu, rfl⟩, rfl, rfl⟩,
          ts, vs, hts, rfl, rfl⟩
        refine ⟨u :: ts, us ++ vs, reads_cons_iff.2 ⟨u, ts, us, vs, rfl, rfl, hu, hts⟩, ?_, by simp⟩
        obtain ⟨w, ts', _, _, rfl, -⟩ := reads_cons_iff.1 hts
        simp [Text.join, List.intercalate_cons_cons]
      · rintro ⟨_, _, hts, rfl, rfl⟩
        obtain ⟨u, ts, us, vs, rfl, rfl, hu, hts'⟩ := reads_cons_iff.1 hts
        refine ⟨u ++ ['/'], Text.join '/' ts, us.map some, vs.map some, ?_, by simp,
          ⟨u, ['/'], us.map some, [], rfl, by simp, ⟨us, hu, rfl⟩, rfl, rfl⟩,
          ts, vs, hts', rfl, rfl⟩
        obtain ⟨w, ts', _, _, rfl, -⟩ := reads_cons_iff.1 hts'
        simp [Text.join, List.intercalate_cons_cons]

end
end PathPart

namespace Pattern

/-- What the expression of a pattern is read as. -/
def tree (p : Pattern) (base : String) : Regex :=
  .seqAll ([.start, .optional (.char '/')] ++ PathPart.joined (p.parts base) ++
    [.optional (.char '/'), .finish])

theorem expression_toList (p : Pattern) (base : String) : (p.expression base).toList =
    "^/?".toList ++ Text.join '/' ((p.parts base).map PathPart.expression) ++ "/?$".toList := by
  have hseg (s : Segment) : s.pathPart.expression = Segment.expression s := by
    match s with
    | .literal t => rfl
    | .capture .int => rfl
    | .capture .text => rfl
  have hparts : (p.parts base).map PathPart.expression =
      (basePieces base).map escape ++ p.map Segment.expression := by
    simp only [parts, List.map_append, List.map_map]
    congr 1
    exact List.map_congr_left fun s _ => hseg s
  rw [hparts]
  exact String.toList_ofList

open Regex in
theorem ofText?_expression (p : Pattern) (base : String) :
    ofText? (p.expression base) = some (p.tree base) := by
  have hread : ofText? (p.expression base) =
      ((Reader.readText? ⟨.empty, [], none⟩ (p.expression base).toList).bind Reader.finish?) := by
    cases h : signs? (p.expression base).toList <;> simp [ofText?, Reader.readText?, h]
  have hfront (rest : List Char) : Reader.readText? ⟨.empty, [], none⟩ ("^/?".toList ++ rest) =
      Reader.readText? ⟨⟨none, [.optional (.char '/'), .start]⟩, [], none⟩ rest := by
    have h : signs? ("^/?".toList ++ rest) =
        (signs? rest).map ([.op '^', .plain '/', .op '?'] ++ ·) := by
      simp [signs?, Sign.ofChar, operators]
      rfl
    exact (Reader.readText?_append h).trans rfl
  have hjoin := PathPart.readText?_join
    (d := ⟨⟨none, [.optional (.char '/'), .start]⟩, [], none⟩) rfl (p.parts base) "/?$".toList
  rw [hread, expression_toList, List.append_assoc, hfront, hjoin]
  simp [Reader.readText?, Reader.pushAll, signs?, Sign.ofChar, operators, Reader.step?,
    Reader.push, Reader.operator?, Reader.repeated?, Frame.repeated?, Frame.push, Reader.finish?,
    Frame.close, tree]

theorem groups_tree (p : Pattern) (base : String) : (p.tree base).groups = p.captureCount := by
  rw [tree, Regex.groups_seqAll_append, Regex.groups_seqAll_append, PathPart.groups_joined,
    countP_parts]
  simp [Regex.seqAll, Regex.groups]

theorem run_front_iff {pre mid post : List Char} {held : List (Option (List Char))} :
    (Regex.seqAll [.start, .optional (.char '/')]).Run pre mid post held ↔
      pre = [] ∧ (mid = [] ∨ mid = ['/']) ∧ held = [] := by
  rw [show [Regex.start, .optional (.char '/')] = [.start] ++ [.optional (.char '/')] from rfl]
  simp only [Regex.run_seqAll_append, Regex.run_seqAll_singleton, Regex.run_start_iff,
    Regex.run_optional_char_iff]
  constructor
  · rintro ⟨_, l, _, _, rfl, rfl, ⟨rfl, rfl, rfl⟩, hl, rfl⟩
    exact ⟨rfl, hl, rfl⟩
  · rintro ⟨rfl, hl, rfl⟩
    exact ⟨[], mid, [], [], rfl, rfl, ⟨rfl, rfl, rfl⟩, hl, rfl⟩

theorem run_back_iff {pre mid post : List Char} {held : List (Option (List Char))} :
    (Regex.seqAll [.optional (.char '/'), .finish]).Run pre mid post held ↔
      (mid = [] ∨ mid = ['/']) ∧ post = [] ∧ held = [] := by
  rw [show [Regex.optional (.char '/'), .finish] = [.optional (.char '/')] ++ [.finish] from rfl]
  simp only [Regex.run_seqAll_append, Regex.run_seqAll_singleton, Regex.run_finish_iff,
    Regex.run_optional_char_iff]
  constructor
  · rintro ⟨t, _, _, _, rfl, rfl, ⟨ht, rfl⟩, rfl, rfl, rfl⟩
    exact ⟨by simpa using ht, rfl, rfl⟩
  · rintro ⟨ht, rfl, rfl⟩
    exact ⟨mid, [], [], [], by simp, rfl, ⟨ht, rfl⟩, rfl, rfl, rfl⟩

theorem finds_tree_iff {p : Pattern} {base : String} {path : List Char}
    {held : List (Option (List Char))} :
    (p.tree base).Finds path held ↔ ∃ vs, p.Matches base path vs ∧ held = vs.map some := by
  simp only [Regex.Finds, tree, Regex.run_seqAll_append, run_front_iff, PathPart.run_joined_iff,
    run_back_iff, Matches]
  constructor
  · rintro ⟨_, _, _, rfl, _, t, _, _, rfl, rfl, ⟨l, _, _, _, rfl, rfl, ⟨rfl, hl, rfl⟩,
      ts, vs, hts, rfl, rfl⟩, ht, rfl, rfl⟩
    exact ⟨vs, ⟨l, t, ts, hl, ht, hts, by simp⟩, by simp⟩
  · rintro ⟨vs, ⟨l, t, ts, hl, ht, hts, rfl⟩, rfl⟩
    refine ⟨[], l ++ Text.join '/' ts ++ t, [], by simp, l ++ Text.join '/' ts, t, vs.map some, [],
      rfl, by simp, ?_, ht, rfl, rfl⟩
    exact ⟨l, Text.join '/' ts, [], vs.map some, rfl, rfl, ⟨rfl, hl, rfl⟩, ts, vs, hts, rfl, rfl⟩

/-- Whatever the texts of literals and of the base URL are, the printed expression is one with a
group for each capture, and it finds in a path exactly the texts of the parts with slashes between
them. The captures are determined by the path, and matching computes them. -/
theorem expression_matches (p : Pattern) (base : String) :
    ∃ r, Regex.ofText? (p.expression base) = some r ∧ r.groups = p.captureCount ∧
      (∀ path held, r.Finds path held ↔ ∃ vs, p.Matches base path vs ∧ held = vs.map some) ∧
      (∀ path vs ws, p.Matches base path vs → p.Matches base path ws → vs = ws) ∧
      ∀ path vs, p.captures? base path = some vs ↔ p.Matches base path vs :=
  ⟨p.tree base, ofText?_expression p base, groups_tree p base, fun _ _ => finds_tree_iff,
    fun _ _ _ => matches_unique, fun _ _ => captures?_eq_some_iff⟩

end Pattern
end Routes
