import Routes.Text.Split
/-!
Regular expressions with capture groups. `ofText?` reads an expression as it is written, and `Finds`
says what an expression matches in a text and what its groups hold then. Counted repetition, flags
and character classes by name are not read.
-/
namespace Routes

inductive Regex where
  | empty
  | char (c : Char)
  | any
  | set (negated : Bool) (ranges : List (Char × Char))
  | start
  | finish
  | group (r : Regex)
  | optional (r : Regex)
  | star (r : Regex)
  | plus (r : Regex)
  | seq (r s : Regex)
  | either (r s : Regex)
deriving DecidableEq, Repr

namespace Regex

/-- The number of capture groups. -/
def groups : Regex → Nat
  | empty | char _ | any | set _ _ | start | finish => 0
  | group r => r.groups + 1
  | optional r | star r | plus r => r.groups
  | seq r s | either r s => r.groups + s.groups

def seqAll (rs : List Regex) : Regex := rs.foldr seq empty

def inRanges (ranges : List (Char × Char)) (c : Char) : Bool :=
  ranges.any fun (a, b) => decide (a ≤ c ∧ c ≤ b)

/- Reading. A backslash is resolved first, so that a sign is either an operator or a character that
stands for itself. -/

inductive Sign where
  | plain (c : Char)
  | op (c : Char)
deriving DecidableEq, Repr

def operators : List Char :=
  ['.', '+', '*', '?', '(', ')', '|', '[', ']', '\x7b', '\x7d', '^', '$', '-', '&', '~', '#']

def Sign.ofChar (c : Char) : Sign := if c ∈ operators then .op c else .plain c

def signs? : List Char → Option (List Sign)
  | [] => some []
  | '\\' :: c :: cs =>
    if c = '\\' ∨ c ∈ operators then (signs? cs).map (.plain c :: ·) else none
  | c :: cs => if c = '\\' then none else (signs? cs).map (.ofChar c :: ·)

/-- A part that is still open: its earlier alternatives, and the items of the last one, the last
item first. -/
structure Frame where
  before : Option Regex
  items : List Regex
deriving DecidableEq, Repr

namespace Frame

def empty : Frame := ⟨none, []⟩

def push (f : Frame) (r : Regex) : Frame := { f with items := r :: f.items }

def close (f : Frame) : Regex :=
  match f.before with
  | none => seqAll f.items.reverse
  | some r => either r (seqAll f.items.reverse)

/-- An operator behind an item takes the item alone. One behind nothing or behind another operator
is not read. -/
def repeated? (f : Frame) (wrap : Regex → Regex) : Option Frame :=
  match f.items with
  | [] | optional _ :: _ | star _ :: _ | plus _ :: _ => none
  | r :: rs => some { f with items := wrap r :: rs }

end Frame

/-- A set whose closing bracket is still to come, its last range first. `dash` says that the last
character read begins a range. -/
structure OpenSet where
  negated : Bool
  ranges : List (Char × Char)
  dash : Bool
deriving DecidableEq, Repr

namespace OpenSet

def add? (s : OpenSet) : Sign → Option OpenSet
  | .plain c =>
    if s.dash then
      match s.ranges with
      | (a, _) :: rest => if a ≤ c then some ⟨s.negated, (a, c) :: rest, false⟩ else none
      | [] => none
    else some { s with ranges := (c, c) :: s.ranges }
  | .op '^' => if s = ⟨false, [], false⟩ then some { s with negated := true } else none
  | .op '-' =>
    match s.ranges with
    | (a, b) :: _ => if a = b ∧ !s.dash then some { s with dash := true } else none
    | [] => none
  | .op _ => none

def close? (s : OpenSet) : Option Regex :=
  if s.ranges = [] ∨ s.dash then none else some (set s.negated s.ranges.reverse)

end OpenSet

/-- What has been read: the innermost open part, the parts around it, and perhaps an open set. -/
structure Reader where
  frame : Frame
  outer : List Frame
  inSet : Option OpenSet
deriving DecidableEq, Repr

namespace Reader

def push (d : Reader) (r : Regex) : Reader := { d with frame := d.frame.push r }

def repeated? (d : Reader) (wrap : Regex → Regex) : Option Reader :=
  (d.frame.repeated? wrap).map fun f => { d with frame := f }

def operator? (d : Reader) (c : Char) : Option Reader :=
  match c with
  | '^' => some (d.push start)
  | '$' => some (d.push finish)
  | '.' => some (d.push any)
  | '?' => d.repeated? optional
  | '*' => d.repeated? star
  | '+' => d.repeated? plus
  | '|' => some { d with frame := ⟨some d.frame.close, []⟩ }
  | '(' => some ⟨.empty, d.frame :: d.outer, none⟩
  | ')' =>
    match d.outer with
    | [] => none
    | f :: outer => some ⟨f.push (group d.frame.close), outer, none⟩
  | '[' => some { d with inSet := some ⟨false, [], false⟩ }
  | '\x7b' => none
  | c => some (d.push (char c))

def step? (d : Reader) (sign : Sign) : Option Reader :=
  match d.inSet, sign with
  | some s, .op ']' => s.close?.map fun r => { d.push r with inSet := none }
  | some s, sign => (s.add? sign).map fun s => { d with inSet := some s }
  | none, .plain c => some (d.push (char c))
  | none, .op c => d.operator? c

def finish? (d : Reader) : Option Regex :=
  if d.outer.isEmpty && d.inSet.isNone then some d.frame.close else none

end Reader

/-- The regular expression that a text is written for. -/
def ofText? (text : String) : Option Regex := do
  let signs ← signs? text.toList
  let reader ← signs.foldlM Reader.step? ⟨.empty, [], none⟩
  reader.finish?

/- Meaning. -/

/-- A group that is read again keeps what it held unless it takes part again. -/
def later (old new : List (Option (List Char))) : List (Option (List Char)) :=
  List.zipWith (fun o n => n.or o) old new

/-- `Run r pre mid post held`: between `pre` and `post` the expression matches `mid`, and its
groups, in the order of their opening brackets, hold `held`. -/
inductive Run : Regex → List Char → List Char → List Char → List (Option (List Char)) → Prop
  | empty {pre post} : Run .empty pre [] post []
  | char {c pre post} : Run (.char c) pre [c] post []
  | any {c pre post} : c ≠ '\n' → Run .any pre [c] post []
  | set {negated ranges c pre post} : (inRanges ranges c != negated) = true →
      Run (.set negated ranges) pre [c] post []
  | start {post} : Run .start [] [] post []
  | finish {pre} : Run .finish pre [] [] []
  | group {r pre mid post held} : Run r pre mid post held →
      Run (.group r) pre mid post (some mid :: held)
  | skip {r pre post} : Run (.optional r) pre [] post (List.replicate r.groups none)
  | take {r pre mid post held} : Run r pre mid post held → Run (.optional r) pre mid post held
  | stop {r pre post} : Run (.star r) pre [] post (List.replicate r.groups none)
  | again {r pre a b post held held'} : Run r pre a (b ++ post) held →
      Run (.star r) (pre ++ a) b post held' → Run (.star r) pre (a ++ b) post (later held held')
  | plus {r pre a b post held held'} : Run r pre a (b ++ post) held →
      Run (.star r) (pre ++ a) b post held' → Run (.plus r) pre (a ++ b) post (later held held')
  | seq {r s pre a b post held held'} : Run r pre a (b ++ post) held →
      Run s (pre ++ a) b post held' → Run (.seq r s) pre (a ++ b) post (held ++ held')
  | left {r s pre mid post held} : Run r pre mid post held →
      Run (.either r s) pre mid post (held ++ List.replicate s.groups none)
  | right {r s pre mid post held} : Run s pre mid post held →
      Run (.either r s) pre mid post (List.replicate r.groups none ++ held)

/-- An expression may match any part of a text. -/
def Finds (r : Regex) (text : List Char) (held : List (Option (List Char))) : Prop :=
  ∃ pre mid post, text = pre ++ mid ++ post ∧ Run r pre mid post held

theorem run_char_iff {c : Char} {pre mid post : List Char} {held : List (Option (List Char))} :
    Run (.char c) pre mid post held ↔ mid = [c] ∧ held = [] := by
  constructor
  · rintro ⟨⟩
    exact ⟨rfl, rfl⟩
  · rintro ⟨rfl, rfl⟩
    exact .char

theorem run_start_iff {pre mid post : List Char} {held : List (Option (List Char))} :
    Run .start pre mid post held ↔ pre = [] ∧ mid = [] ∧ held = [] := by
  constructor
  · rintro ⟨⟩
    exact ⟨rfl, rfl, rfl⟩
  · rintro ⟨rfl, rfl, rfl⟩
    exact .start

theorem run_finish_iff {pre mid post : List Char} {held : List (Option (List Char))} :
    Run .finish pre mid post held ↔ mid = [] ∧ post = [] ∧ held = [] := by
  constructor
  · rintro ⟨⟩
    exact ⟨rfl, rfl, rfl⟩
  · rintro ⟨rfl, rfl, rfl⟩
    exact .finish

theorem run_group_iff {r : Regex} {pre mid post : List Char} {held : List (Option (List Char))} :
    Run (.group r) pre mid post held ↔
      ∃ inner, held = some mid :: inner ∧ Run r pre mid post inner := by
  constructor
  · rintro ⟨⟩
    exact ⟨_, rfl, ‹_›⟩
  · rintro ⟨inner, rfl, h⟩
    exact .group h

theorem run_seq_iff {r s : Regex} {pre mid post : List Char} {held : List (Option (List Char))} :
    Run (.seq r s) pre mid post held ↔ ∃ a b x y, mid = a ++ b ∧ held = x ++ y ∧
      Run r pre a (b ++ post) x ∧ Run s (pre ++ a) b post y := by
  constructor
  · rintro ⟨⟩
    exact ⟨_, _, _, _, rfl, rfl, ‹_›, ‹_›⟩
  · rintro ⟨a, b, x, y, rfl, rfl, hr, hs⟩
    exact .seq hr hs

theorem run_optional_char_iff {c : Char} {pre mid post : List Char}
    {held : List (Option (List Char))} :
    Run (.optional (.char c)) pre mid post held ↔ (mid = [] ∨ mid = [c]) ∧ held = [] := by
  constructor
  · intro h
    cases h with
    | skip => exact ⟨.inl rfl, rfl⟩
    | take h =>
      obtain ⟨rfl, rfl⟩ := run_char_iff.1 h
      exact ⟨.inr rfl, rfl⟩
  · rintro ⟨rfl | rfl, rfl⟩
    · exact .skip
    · exact .take .char

theorem run_set_iff {negated : Bool} {ranges : List (Char × Char)} {pre mid post : List Char}
    {held : List (Option (List Char))} :
    Run (.set negated ranges) pre mid post held ↔
      ∃ c, (inRanges ranges c != negated) = true ∧ mid = [c] ∧ held = [] := by
  constructor
  · rintro ⟨⟩
    exact ⟨_, ‹_›, rfl, rfl⟩
  · rintro ⟨c, hc, rfl, rfl⟩
    exact .set hc

theorem run_star_set {negated : Bool} {ranges : List (Char × Char)} {pre mid post : List Char}
    (h : ∀ c ∈ mid, (inRanges ranges c != negated) = true) :
    Run (.star (.set negated ranges)) pre mid post [] := by
  induction mid generalizing pre with
  | nil => exact .stop
  | cons c cs ih =>
    have hc : Run (.set negated ranges) pre [c] (cs ++ post) [] := .set (h c (by simp))
    exact .again hc (ih fun d hd => h d (List.mem_cons_of_mem c hd))

theorem all_of_run_star_set {negated : Bool} {ranges : List (Char × Char)}
    {pre mid post : List Char} {held : List (Option (List Char))}
    (h : Run (.star (.set negated ranges)) pre mid post held) :
    (∀ c ∈ mid, (inRanges ranges c != negated) = true) ∧ held = [] := by
  generalize hr : Regex.star (.set negated ranges) = r at h
  induction h with
  | stop =>
    cases hr
    exact ⟨by simp, rfl⟩
  | again hset _ _ ih =>
    cases hr
    obtain ⟨c, hc, rfl, rfl⟩ := run_set_iff.1 hset
    obtain ⟨hcs, rfl⟩ := ih rfl
    refine ⟨fun d hd => ?_, rfl⟩
    rcases List.mem_cons.1 hd with rfl | hd
    · exact hc
    · exact hcs d hd
  | _ => cases hr

theorem run_plus_set_iff {negated : Bool} {ranges : List (Char × Char)}
    {pre mid post : List Char} {held : List (Option (List Char))} :
    Run (.plus (.set negated ranges)) pre mid post held ↔
      mid ≠ [] ∧ (∀ c ∈ mid, (inRanges ranges c != negated) = true) ∧ held = [] := by
  constructor
  · intro h
    cases h with
    | plus hset hstar =>
      obtain ⟨c, hc, rfl, rfl⟩ := run_set_iff.1 hset
      obtain ⟨hcs, rfl⟩ := all_of_run_star_set hstar
      refine ⟨by simp, fun d hd => ?_, rfl⟩
      rcases List.mem_cons.1 hd with rfl | hd
      · exact hc
      · exact hcs d hd
  · rintro ⟨hne, hall, rfl⟩
    obtain ⟨c, cs, rfl⟩ := List.exists_cons_of_ne_nil hne
    have hc : Run (.set negated ranges) pre [c] (cs ++ post) [] := .set (hall c (by simp))
    exact .plus hc (run_star_set fun d hd => hall d (List.mem_cons_of_mem c hd))

theorem run_seqAll_append {rs ss : List Regex} {pre mid post : List Char}
    {held : List (Option (List Char))} :
    Run (seqAll (rs ++ ss)) pre mid post held ↔ ∃ a b x y, mid = a ++ b ∧ held = x ++ y ∧
      Run (seqAll rs) pre a (b ++ post) x ∧ Run (seqAll ss) (pre ++ a) b post y := by
  induction rs generalizing pre mid held with
  | nil =>
    constructor
    · intro h
      exact ⟨[], mid, [], held, rfl, rfl, .empty, by simpa using h⟩
    · rintro ⟨a, b, x, y, rfl, rfl, ⟨⟩, h⟩
      simpa using h
  | cons r rs ih =>
    simp only [List.cons_append, seqAll, List.foldr_cons, run_seq_iff] at ih ⊢
    constructor
    · rintro ⟨a, b, x, y, rfl, rfl, hr, h⟩
      obtain ⟨a', b', x', y', rfl, rfl, hrs, hss⟩ := ih.1 h
      refine ⟨a ++ a', b', x ++ x', y', by simp, by simp, ⟨a, a', x, x', rfl, rfl, ?_, hrs⟩, ?_⟩
      · simpa using hr
      · simpa using hss
    · rintro ⟨_, b, _, y, rfl, rfl, ⟨a, a', x, x', rfl, rfl, hr, hrs⟩, hss⟩
      refine ⟨a, a' ++ b, x, x' ++ y, by simp, by simp, by simpa using hr, ?_⟩
      exact ih.2 ⟨a', b, x', y, rfl, rfl, hrs, by simpa using hss⟩

theorem run_seqAll_singleton {r : Regex} {pre mid post : List Char}
    {held : List (Option (List Char))} :
    Run (seqAll [r]) pre mid post held ↔ Run r pre mid post held := by
  simp only [seqAll, List.foldr_cons, List.foldr_nil, run_seq_iff]
  constructor
  · rintro ⟨a, b, x, y, rfl, rfl, hr, ⟨⟩⟩
    simpa using hr
  · intro h
    exact ⟨mid, [], held, [], by simp, by simp, by simpa using h, .empty⟩

theorem run_seqAll_chars {cs pre mid post : List Char} {held : List (Option (List Char))} :
    Run (seqAll (cs.map char)) pre mid post held ↔ mid = cs ∧ held = [] := by
  induction cs generalizing pre mid held with
  | nil =>
    constructor
    · rintro ⟨⟩
      exact ⟨rfl, rfl⟩
    · rintro ⟨rfl, rfl⟩
      exact .empty
  | cons c cs ih =>
    simp only [seqAll, List.map_cons, List.foldr_cons, run_seq_iff] at ih ⊢
    constructor
    · rintro ⟨a, b, x, y, rfl, rfl, hc, hcs⟩
      obtain ⟨rfl, rfl⟩ := run_char_iff.1 hc
      obtain ⟨rfl, rfl⟩ := ih.1 hcs
      exact ⟨rfl, rfl⟩
    · rintro ⟨rfl, rfl⟩
      exact ⟨[c], cs, [], [], rfl, rfl, .char, ih.2 ⟨rfl, rfl⟩⟩

theorem groups_seqAll_append (rs ss : List Regex) :
    (seqAll (rs ++ ss)).groups = (seqAll rs).groups + (seqAll ss).groups := by
  induction rs with
  | nil => simp [seqAll, groups]
  | cons r rs ih =>
    simp only [List.cons_append, seqAll, List.foldr_cons, groups] at ih ⊢
    omega

theorem groups_seqAll_chars (cs : List Char) : (seqAll (cs.map char)).groups = 0 := by
  induction cs with
  | nil => rfl
  | cons c cs ih => simpa [seqAll, groups] using ih

end Regex
end Routes
