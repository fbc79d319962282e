import Routes.Proofs.RouteData.Spelling
import Routes.Proofs.SourceModule.Put
import Routes.Proofs.Text.Slash
/-!
The comment at the beginning of modules. Main statement: the lines above the first one of code hold
no code exactly where each text of the comment stays in it, so for all data without line breaks, as
data from a source is. The comment shows its texts unquoted, and one with a line break can leave it.
-/
namespace Routes
open Text (pieces)
open Token (IsRun)

variable {d : RouteData} {a : Action} {p : Pattern} {names : List String}

/-! Texts without line breaks. -/

def IsUnbroken (s : String) : Prop := '\n' ∉ s.toList

instance : DecidablePred IsUnbroken := fun s => inferInstanceAs (Decidable ('\n' ∉ s.toList))

structure Action.Unbroken (a : Action) : Prop where
  name : IsUnbroken a.name
  method : IsUnbroken a.method
  literals : ∀ text, .literal text ∈ a.pattern → IsUnbroken text
  params : ∀ name ∈ a.params, IsUnbroken name

structure Controller.Unbroken (c : Controller) : Prop where
  name : IsUnbroken c.name
  actions : ∀ a ∈ c.actions, a.Unbroken

structure RouteData.Unbroken (d : RouteData) : Prop where
  controllers : ∀ c ∈ d.controllers, c.Unbroken
  default : ∀ t, d.default = some t → IsUnbroken t.controller ∧ IsUnbroken t.action

section Unbroken

theorem isUnbroken_append {s t : String} :
    IsUnbroken (s ++ t) ↔ IsUnbroken s ∧ IsUnbroken t := by
  rw [IsUnbroken, String.toList_append, List.mem_append, not_or]
  rfl

theorem isUnbroken_of_isRun {s : String} (h : IsRun s.toList) : IsUnbroken s :=
  fun hmem => absurd (h.2 _ hmem) (by decide)

theorem Action.Spelled.unbroken (h : a.Spelled) : a.Unbroken := by
  obtain ⟨verb, hverb⟩ := h.verb
  have hmethod : IsUnbroken a.method := by
    rw [hverb]
    cases verb <;> decide
  exact ⟨isUnbroken_of_isRun h.name.1, hmethod,
    fun text htext => isUnbroken_of_isRun (h.literals text htext),
    fun name hname => isUnbroken_of_isRun (h.params name hname).1⟩

theorem Controller.Spelled.unbroken {c : Controller} (h : c.Spelled) : c.Unbroken :=
  ⟨isUnbroken_of_isRun h.name.1, fun a ha => (h.actions a ha).unbroken⟩

/-- A source cannot spell a text with a line break. -/
theorem RouteData.Spelled.unbroken (h : d.Spelled) : d.Unbroken where
  controllers c hc := (h.controllers c hc).unbroken
  default t ht :=
    ⟨isUnbroken_of_isRun (h.default t ht).1.1, isUnbroken_of_isRun (h.default t ht).2.1⟩

theorem Pattern.newline_not_mem_templateParts
    (hp : ∀ text, .literal text ∈ p → IsUnbroken text) (hnames : ∀ name ∈ names, IsUnbroken name) :
    '\n' ∉ templateParts p names := by
  induction p generalizing names with
  | nil => exact List.not_mem_nil
  | cons segment p ih =>
    have hrest := fun text htext => hp text (List.mem_cons_of_mem _ htext)
    cases segment with
    | literal text =>
      have htext : '\n' ∉ text.toList := hp text List.mem_cons_self
      simp only [templateParts, List.mem_cons, List.mem_append, not_or]
      exact ⟨by decide, htext, ih hrest hnames⟩
    | capture kind =>
      have hname : '\n' ∉ (names.head?.getD "?").toList := by
        cases names with
        | nil => decide
        | cons name names => exact hnames name List.mem_cons_self
      have hkind : '\n' ∉ kind.name.toList := by cases kind <;> decide
      simp only [templateParts, List.mem_cons, List.mem_append, not_or]
      exact ⟨by decide, by decide, hname, by decide, hkind, by decide,
        ih hrest fun name hmem => hnames name (List.mem_of_mem_tail hmem)⟩

theorem Action.Unbroken.template (h : a.Unbroken) : IsUnbroken a.template := by
  have hparts := Pattern.newline_not_mem_templateParts h.literals h.params
  rw [IsUnbroken, Action.template, Pattern.template]
  split
  · decide
  · rwa [String.toList_ofList]

end Unbroken

/-- A line of source text without code: it is empty or a comment. -/
def IsRemark (line : List Char) : Prop := line = [] ∨ ['/', '/'] <+: line

instance : DecidablePred IsRemark := fun line =>
  inferInstanceAs (Decidable (line = [] ∨ ['/', '/'] <+: line))

/-- Each line of a text but its first holds no code. -/
def StaysInComment (s : String) : Prop := ∀ line ∈ (pieces '\n' s.toList).tail, IsRemark line

theorem IsUnbroken.staysInComment {s : String} (h : IsUnbroken s) : StaysInComment s := by
  rw [StaysInComment, Text.pieces_of_not_mem h]
  exact fun line hline => absurd hline List.not_mem_nil

namespace SourceModule
variable {m : SourceModule} {text : String}

/-- The line that follows the comment and the empty line behind it. -/
def firstLine : List Char := "#[allow(unused_imports)]".toList

/-- What the comment says of a module's origin. -/
def originRemark (origin : Option String) : String :=
  " Generated by routedsl-gen" ++ origin.elim "" (" from " ++ ·) ++ ". Do not edit."

def routeRemark (e : String × Action) : String :=
  "   " ++ e.2.method ++ " " ++ e.2.template ++ " -> " ++ e.1 ++ "#" ++ e.2.name

def defaultRemark (t : Target) : String := "   default -> " ++ t.hashText

/-- The texts that the comment at the beginning shows, each on a line of its own. -/
def remarks (m : SourceModule) : List String :=
  [originRemark m.origin, "", " Routes:"] ++ m.data.entries.map routeRemark ++
    m.data.default.toList.map defaultRemark

theorem header_eq (m : SourceModule) : m.header = m.remarks.flatMap comment := by
  have hroutes : (m.data.entries.map routeRemark).flatMap comment =
      m.data.entries.flatMap fun e => comment (routeRemark e) := List.flatMap_map ..
  rw [remarks, List.flatMap_append, List.flatMap_append, hroutes, header]
  cases m.data.default <;>
    simp only [List.flatMap_cons, List.flatMap_nil, List.append_nil, List.append_assoc,
      Option.toList_none, Option.toList_some, List.map_nil, List.map_cons] <;> rfl

/-- The lines of a text in a comment. -/
def commentLines (s : String) : List (List Char) :=
  (pieces '\n' s.toList).modifyHead (['/', '/'] ++ ·)

/-- The lines of a module above its first line of code. -/
def head (m : SourceModule) : List (List Char) := m.remarks.flatMap commentLines ++ [[]]

theorem line_zero (cs : List Char) : line 0 cs = cs ++ ['\n'] := rfl

theorem comment_eq (s : String) : comment s = ['/', '/'] ++ s.toList ++ ['\n'] := rfl

theorem pieces_comment (s : String) (cs : List Char) :
    pieces '\n' (comment s ++ cs) = commentLines s ++ pieces '\n' cs := by
  have hslash : '\n' ∉ ['/', '/'] := by decide
  rw [comment_eq, List.append_assoc, List.singleton_append, Text.pieces_append_sep,
    Text.pieces_append_of_not_mem hslash]
  rfl

theorem pieces_comments (ss : List String) (cs : List Char) :
    pieces '\n' (ss.flatMap comment ++ cs) = ss.flatMap commentLines ++ pieces '\n' cs := by
  induction ss with
  | nil => rfl
  | cons s ss ih =>
    rw [List.flatMap_cons, List.append_assoc, pieces_comment, ih, List.flatMap_cons,
      List.append_assoc]

theorem exists_pieces_text (m : SourceModule) :
    ∃ rest, pieces '\n' m.text.toList = m.head ++ firstLine :: rest := by
  -- What follows the comment begins with an empty line, the last of `head`.
  obtain ⟨cs, hcs⟩ : ∃ cs, m.opening = line 0 [] ++ (line 0 firstLine ++ cs) := by
    simp only [opening, List.append_assoc]
    exact ⟨_, rfl⟩
  have hfirst : '\n' ∉ firstLine := by decide
  refine ⟨pieces '\n' (cs ++ expression m.data ++ closing), ?_⟩
  rw [SourceModule.text, String.toList_ofList, header_eq, hcs, line_zero, line_zero]
  simp only [List.append_assoc, List.nil_append, List.cons_append]
  rw [pieces_comments, pieces, if_pos rfl, Text.pieces_append hfirst, head, List.append_assoc,
    List.singleton_append]

theorem forall_commentLines_iff {s : String} :
    (∀ line ∈ commentLines s, IsRemark line) ↔ StaysInComment s := by
  obtain ⟨line, lines, hlines⟩ := List.exists_cons_of_ne_nil (Text.pieces_ne_nil '\n' s.toList)
  have hfirst : IsRemark (['/', '/'] ++ line) := .inr (List.prefix_append _ line)
  rw [commentLines, StaysInComment, hlines, List.modifyHead_cons, List.forall_mem_cons,
    List.tail_cons]
  exact and_iff_right hfirst

theorem forall_head_iff :
    (∀ line ∈ m.head, IsRemark line) ↔ ∀ s ∈ m.remarks, StaysInComment s := by
  have hlast : ∀ line ∈ [([] : List Char)], IsRemark line := by decide
  rw [head, List.forall_mem_append, and_iff_left hlast, List.forall_mem_flatMap]
  exact forall₂_congr fun s _ => forall_commentLines_iff

/-- Neither the origin of a module nor its data has a line break. -/
structure Unbroken (m : SourceModule) : Prop where
  origin : ∀ name, m.origin = some name → IsUnbroken name
  data : m.data.Unbroken

theorem isUnbroken_originRemark {origin : Option String}
    (h : ∀ name, origin = some name → IsUnbroken name) : IsUnbroken (originRemark origin) := by
  have hfrom : IsUnbroken (origin.elim "" (" from " ++ ·)) := by
    cases origin with
    | none => exact List.not_mem_nil
    | some name => exact isUnbroken_append.2 ⟨by decide, h name rfl⟩
  exact isUnbroken_append.2 ⟨isUnbroken_append.2 ⟨by decide, hfrom⟩, by decide⟩

theorem isUnbroken_routeRemark {c : String} (hc : IsUnbroken c) (ha : a.Unbroken) :
    IsUnbroken (routeRemark (c, a)) := by
  have hmethod := ha.method
  have hname := ha.name
  have htemplate := ha.template
  simp only [routeRemark, isUnbroken_append]
  exact ⟨⟨⟨⟨⟨⟨⟨by decide, hmethod⟩, by decide⟩, htemplate⟩, by decide⟩, hc⟩, by decide⟩, hname⟩

theorem isUnbroken_defaultRemark {t : Target} (hc : IsUnbroken t.controller)
    (ha : IsUnbroken t.action) : IsUnbroken (defaultRemark t) := by
  simp only [defaultRemark, Target.hashText, isUnbroken_append]
  exact ⟨by decide, ⟨hc, by decide⟩, ha⟩

theorem Unbroken.isUnbroken_of_mem_remarks (h : m.Unbroken) {s : String} (hs : s ∈ m.remarks) :
    IsUnbroken s := by
  simp only [remarks, List.mem_append, List.mem_cons, List.mem_map, Option.mem_toList,
    List.not_mem_nil, or_false] at hs
  rcases hs with ((rfl | rfl | rfl) | ⟨e, he, rfl⟩) | ⟨t, ht, rfl⟩
  · exact isUnbroken_originRemark h.origin
  · decide
  · decide
  · obtain ⟨c, hc, a, ha, rfl⟩ := RouteData.mem_entries_iff.1 he
    have hcontroller := h.data.controllers c hc
    exact isUnbroken_routeRemark hcontroller.name (hcontroller.actions a ha)
  · obtain ⟨hc, ha⟩ := h.data.default t ht
    exact isUnbroken_defaultRemark hc ha

theorem Unbroken.isRemark_of_mem_head (h : m.Unbroken) : ∀ line ∈ m.head, IsRemark line :=
  forall_head_iff.2 fun _ hs => (h.isUnbroken_of_mem_remarks hs).staysInComment

/-- The lines of a text above the first that reads as the first line of code does. -/
def linesAbove (text : String) : List (List Char) :=
  (pieces '\n' text.toList).takeWhile (· ≠ firstLine)

theorem linesAbove_text (h : firstLine ∉ m.head) : linesAbove m.text = m.head := by
  obtain ⟨rest, hpieces⟩ := exists_pieces_text m
  have hlines : ∀ line ∈ m.head, decide (line ≠ firstLine) = true := by
    intro line hline
    refine decide_eq_true ?_
    rintro rfl
    exact h hline
  rw [linesAbove, hpieces, List.takeWhile_append_of_pos hlines,
    List.takeWhile_cons_of_neg (by simp), List.append_nil]

theorem not_isRemark_firstLine : ¬IsRemark firstLine := by decide

/-- A text is rendered from a module, or it is found where the module has been written. -/
inductive Yields (m : SourceModule) (text : String) : Prop where
  | rendered : m.render = .ok text → Yields m text
  | written {path : String} {force : Bool} {store store' : FileStore} :
    m.write path force store = .ok (true, store') → store'.read? path = some text → Yields m text

theorem Yields.eq_text (h : m.Yields text) : text = m.text := by
  cases h with
  | rendered hrender => exact (render_eq_ok.1 hrender).2
  | written hwrite hread => exact Option.some.inj (hread.symm.trans (read?_of_write hwrite))

/-- Above the first line of code stands no code where each text of the comment stays in it, and
only there. Texts without line breaks do, and those that a source can spell. -/
theorem head_of_yields (h : m.Yields text) :
    (∃ rest, pieces '\n' text.toList = m.head ++ firstLine :: rest) ∧
    ((∀ line ∈ m.head, IsRemark line) ↔ ∀ s ∈ m.remarks, StaysInComment s) ∧
    (m.Unbroken → linesAbove text = m.head ∧ ∀ line ∈ linesAbove text, IsRemark line) ∧
    ∀ source, RouteData.ofSource source = .ok m.data → m.data.Unbroken := by
  rw [h.eq_text]
  refine ⟨exists_pieces_text m, forall_head_iff, fun hm => ?_, fun source hsource => ?_⟩
  · have hhead := hm.isRemark_of_mem_head
    have habove : linesAbove m.text = m.head :=
      linesAbove_text fun hmem => not_isRemark_firstLine (hhead _ hmem)
    exact ⟨habove, habove ▸ hhead⟩
  · exact (RouteData.spelled_of_ofSource hsource).unbroken

/-- Names that a source cannot spell, all without line breaks. -/
def oddModule : SourceModule :=
  ⟨"Table", "routes", some "odd \r file",
    ⟨[⟨"*/ A", [⟨"\"b\"", "get", [.literal "//", .capture .int], ["\t"]⟩]⟩],
      some ⟨"", "#![no_std]"⟩⟩⟩

theorem head_of_yields_odd : ∃ text, oddModule.Yields text ∧ oddModule.Unbroken ∧
    linesAbove text = ["// Generated by routedsl-gen from odd \r file. Do not edit.", "//",
      "// Routes:", "//   get ////<\t:int> -> */ A#\"b\"", "//   default -> ##![no_std]", ""].map
        String.toList ∧
    ∀ line ∈ linesAbove text, IsRemark line := by
  have hname : isName oddModule.name = true := by decide
  have hrender : oddModule.render = .ok oddModule.text := if_pos hname
  have haction : Action.Unbroken ⟨"\"b\"", "get", [.literal "//", .capture .int], ["\t"]⟩ :=
    ⟨by decide, by decide, by simp [IsUnbroken], by simp [IsUnbroken]⟩
  have hunbroken : oddModule.Unbroken := by
    refine ⟨?_, ⟨?_, ?_⟩⟩
    · rintro name ⟨⟩
      decide
    · intro c hc
      obtain rfl := List.mem_singleton.1 hc
      exact ⟨by decide, fun a ha => List.mem_singleton.1 ha ▸ haction⟩
    · rintro t ⟨⟩
      decide
  obtain ⟨-, -, habove, -⟩ := head_of_yields (.rendered hrender)
  obtain ⟨hlines, hremarks⟩ := habove hunbroken
  refine ⟨oddModule.text, .rendered hrender, hunbroken, hlines.trans ?_, hremarks⟩
  decide

/-- A controller whose name ends the comment and begins another one. -/
def breakModule : SourceModule :=
  ⟨"Table", "routes", none, ⟨[⟨"A\ntype X = u8;\n//", [⟨"a", "GET", [], []⟩]⟩], none⟩⟩

theorem exists_code_above : ∃ text, breakModule.render = .ok text ∧
    "type X = u8;".toList ∈ linesAbove text ∧ ¬IsRemark "type X = u8;".toList := by
  have hname : isName breakModule.name = true := by decide
  have hfirst : firstLine ∉ breakModule.head := by decide
  have hmem : "type X = u8;".toList ∈ breakModule.head := by decide
  exact ⟨breakModule.text, if_pos hname, linesAbove_text hfirst ▸ hmem, by decide⟩

end SourceModule
end Routes
