import Routes.Proofs.RouteData.Register
import Routes.Proofs.RouteData.Spelling
import Routes.Proofs.Request.Target
import Routes.Proofs.Text.Split
import Routes.Table.Resolve
/-!
Route data written out as a list of routes. Main statement: where a source has parameters for text
only, its list registers the same actions in the same order, so both lead to the same tables.
-/
namespace Routes
open Token (IsRun IsIdent isFragmentChar)

/-- The pieces of a path in a list: a literal as it is, a capture as its name behind a colon. -/
def Pattern.listPieces : Pattern → List String → List (List Char)
  | [], _ => []
  | .literal text :: p, names => text.toList :: listPieces p names
  | .capture _ :: p, names => (':' :: (names.head?.getD "").toList) :: listPieces p names.tail

def Action.listPath (a : Action) : List Char :=
  '/' :: Text.join '/' (a.pattern.listPieces a.params)

/-- An action with its controller as an entry of a list. -/
def RouteData.listEntry (e : String × Action) : List Char :=
  e.2.method.toList ++ ' ' :: (e.2.listPath ++ ' ' :: (e.1.toList ++ '.' :: e.2.name.toList))

/-- The actions in the order of their declaration, without the default. -/
def RouteData.listText (d : RouteData) : String :=
  String.ofList (Text.join ',' (d.entries.map listEntry))

theorem Token.IsRun.isWord {w : List Char} (h : IsRun w) : Text.IsWord w :=
  ⟨h.1, fun c hc => (Token.isBlank_of_isFragmentChar (h.2 c hc)).1⟩

theorem Token.IsIdent.dot_not_mem {w : List Char} (h : IsIdent w) : '.' ∉ w := by
  cases w with
  | nil => exact List.not_mem_nil
  | cons c w =>
    intro hmem
    rcases List.mem_cons.1 hmem with rfl | hmem
    · cases h.1
    · cases h.2 '.' hmem

namespace Pattern
variable {p : Pattern} {names : List String}

/-- A pattern as a list can have it: what a source allows, and captures of text only. -/
structure IsListed (p : Pattern) (names : List String) : Prop where
  literals : ∀ text, .literal text ∈ p → IsRun text.toList
  texts : .capture .int ∉ p
  named : ∀ name ∈ names, SpellsWord name
  captures : p.captureCount = names.length

theorem IsListed.tail {s : Segment} (h : IsListed (s :: p) names) (hs : s.isCapture = false) :
    IsListed p names where
  literals := fun text htext => h.literals text (List.mem_cons_of_mem s htext)
  texts := fun hmem => h.texts (List.mem_cons_of_mem s hmem)
  named := h.named
  captures := by
    rw [← h.captures, captureCount, captureCount, List.countP_cons_of_neg (by simp [hs])]

theorem IsListed.exists_name {k : ParamKind} (h : IsListed (.capture k :: p) names) :
    k = .text ∧ ∃ name rest, names = name :: rest ∧ SpellsWord name ∧ IsListed p rest := by
  have hk : k = .text := by
    cases k with
    | text => rfl
    | int => exact absurd List.mem_cons_self h.texts
  have hcount := h.captures
  rw [captureCount, List.countP_cons_of_pos rfl] at hcount
  cases names with
  | nil => cases hcount
  | cons name rest =>
    refine ⟨hk, name, rest, rfl, h.named name List.mem_cons_self, ?_⟩
    exact {
      literals := fun text htext => h.literals text (List.mem_cons_of_mem _ htext)
      texts := fun hmem => h.texts (List.mem_cons_of_mem _ hmem)
      named := fun n hn => h.named n (List.mem_cons_of_mem name hn)
      captures := Nat.succ.inj hcount }

theorem IsListed.chars (h : IsListed p names) : ∀ piece ∈ p.listPieces names,
    piece ≠ [] ∧ ∀ c ∈ piece, isFragmentChar c = true ∨ c = ':' := by
  induction p generalizing names with
  | nil => simp [listPieces]
  | cons s p ih =>
    cases s with
    | literal text =>
      have htext : IsRun text.toList := h.literals text List.mem_cons_self
      exact List.forall_mem_cons.2 ⟨⟨htext.1, fun c hc => .inl (htext.2 c hc)⟩, ih (h.tail rfl)⟩
    | capture k =>
      obtain ⟨rfl, name, rest, rfl, hname, hrest⟩ := h.exists_name
      refine List.forall_mem_cons.2 ⟨⟨List.cons_ne_nil _ _, ?_⟩, ih hrest⟩
      exact List.forall_mem_cons.2 ⟨.inr rfl, fun c hc => .inl (hname.1.2 c hc)⟩

theorem segmentOf_literal {text : String} (h : IsRun text.toList) :
    RouteData.segmentOf text.toList = (.literal text, none) := by
  unfold RouteData.segmentOf
  split
  · rename_i name hcolon
    have hc := h.2 ':' (hcolon ▸ List.mem_cons_self)
    cases hc
  · rw [String.ofList_toList]

/-- The pieces stand for the segments of the pattern and for its names. -/
theorem IsListed.segments (h : IsListed p names) :
    ((p.listPieces names).map RouteData.segmentOf).map (·.1) = p ∧
      ((p.listPieces names).map RouteData.segmentOf).filterMap (·.2) = names := by
  induction p generalizing names with
  | nil =>
    have hnil : names = [] := List.length_eq_zero_iff.1 h.captures.symm
    rw [hnil]
    exact ⟨rfl, rfl⟩
  | cons s p ih =>
    cases s with
    | literal text =>
      obtain ⟨hsegments, hnames⟩ := ih (h.tail rfl)
      have htext := segmentOf_literal (h.literals text List.mem_cons_self)
      simp [listPieces, htext, hsegments, hnames]
    | capture k =>
      obtain ⟨rfl, name, rest, rfl, -, hrest⟩ := h.exists_name
      obtain ⟨hsegments, hnames⟩ := ih hrest
      have hname : RouteData.segmentOf (':' :: name.toList) = (.capture .text, some name) := by
        rw [RouteData.segmentOf, String.ofList_toList]
      simp [listPieces, hname, hsegments, hnames]

end Pattern

namespace Action
variable {a : Action}

/-- An action that a list can register. -/
structure IsListed (a : Action) : Prop where
  spelled : a.Spelled
  texts : .capture .int ∉ a.pattern

theorem IsListed.pattern (h : a.IsListed) : a.pattern.IsListed a.params :=
  ⟨h.spelled.literals, h.texts, h.spelled.params, h.spelled.captures⟩

theorem IsListed.listPath_chars (h : a.IsListed) :
    ∀ c ∈ a.listPath, isFragmentChar c = true ∨ c = '/' ∨ c = ':' := by
  refine List.forall_mem_cons.2 ⟨.inr (.inl rfl), fun c hc => ?_⟩
  rcases Text.mem_join hc with hslash | ⟨piece, hpiece, hc⟩
  · exact .inr (.inl hslash)
  · exact ((h.pattern.chars piece hpiece).2 c hc).imp id .inr

theorem IsListed.isWord_listPath (h : a.IsListed) : Text.IsWord a.listPath := by
  refine ⟨List.cons_ne_nil _ _, fun c hc => ?_⟩
  rcases h.listPath_chars c hc with hfragment | rfl | rfl
  · exact (Token.isBlank_of_isFragmentChar hfragment).1
  · rfl
  · rfl

theorem IsListed.routePieces (h : a.IsListed) :
    RouteData.routePieces (String.ofList a.listPath) = a.pattern.listPieces a.params := by
  have hpieces := h.pattern.chars
  have hfront : ∀ cs : List Char, Text.pieces '/' ('/' :: cs) = [] :: Text.pieces '/' cs :=
    fun cs => Text.pieces_append (p := []) List.not_mem_nil cs
  rw [RouteData.routePieces, String.toList_ofList, listPath, hfront,
    List.filter_cons_of_neg (by simp)]
  cases hall : a.pattern.listPieces a.params with
  | nil => rfl
  | cons piece pieces =>
    rw [hall] at hpieces
    have hslash : ∀ q ∈ piece :: pieces, '/' ∉ q := by
      intro q hq hmem
      rcases (hpieces q hq).2 '/' hmem with hfragment | hcolon
      · cases hfragment
      · cases hcolon
    rw [Text.pieces_join (List.cons_ne_nil _ _) hslash, List.filter_eq_self]
    exact fun q hq => by simpa using (hpieces q hq).1

theorem Spelled.new_eq (h : a.Spelled) : Action.new a.name a.method a.pattern a.params = a := by
  obtain ⟨v, hv⟩ := h.verb
  have hupper : String.ofList (Text.upper a.method.toList) = a.method := by
    rw [hv]
    cases v <;> decide
  rw [Action.new, hupper]

end Action

namespace RouteData
variable {d : RouteData} {c : String} {a : Action}

theorem split?_target (hc : SpellsName c) (ha : SpellsName a.name) :
    Target.split? '.' '#' (c.toList ++ '.' :: a.name.toList) = some ⟨c, a.name⟩ := by
  have hcut : Text.cut? '.' (c.toList ++ '.' :: a.name.toList) =
      some (c.toList, a.name.toList) :=
    Text.cut?_append_cons hc.isIdent.dot_not_mem _
  have hblank : (c.toList.isEmpty || a.name.toList.isEmpty) = false := by
    rw [List.isEmpty_eq_false_iff.2 hc.1.1, List.isEmpty_eq_false_iff.2 ha.1.1, Bool.or_false]
  rw [Target.split?, hcut, Option.some_or]
  simp only [hc.1.isWord.trim, ha.1.isWord.trim, hblank, Bool.false_eq_true, if_false,
    String.ofList_toList]

/-- The entry of an action registers it behind all others. -/
theorem addEntry_listEntry (hc : SpellsName c) (ha : a.IsListed) (d : RouteData) :
    d.addEntry (listEntry (c, a)) = .ok { d with controllers := append c a d.controllers } := by
  have htarget : Text.IsWord (c.toList ++ '.' :: a.name.toList) := by
    refine ⟨fun hnil => hc.1.1 (List.append_eq_nil_iff.1 hnil).1, ?_⟩
    exact List.forall_mem_append.2 ⟨hc.1.isWord.2,
      List.forall_mem_cons.2 ⟨rfl, ha.spelled.name.1.isWord.2⟩⟩
  have hmethod : Text.IsWord a.method.toList := by
    obtain ⟨v, hv⟩ := ha.spelled.verb
    have hverb : v.name.toList ≠ [] ∧ v.name.toList.all (!Text.isBlank ·) = true := by
      cases v <;> decide
    rw [hv]
    exact ⟨hverb.1, fun c hc => by simpa using List.all_eq_true.1 hverb.2 c hc⟩
  obtain ⟨hsegments, hnames⟩ := ha.pattern.segments
  have hnamed : a.params.contains "" = false := by
    rw [List.contains_eq_mem, decide_eq_false_iff_not]
    exact fun hmem => (ha.spelled.params "" hmem).ne_empty rfl
  rw [addEntry, listEntry, Text.words_three hmethod ha.isWord_listPath htarget]
  simp only [addRoute, String.toList_ofList, split?_target hc ha.spelled.name, ha.routePieces,
    hsegments, hnames, hnamed, Bool.false_eq_true, if_false, String.ofList_toList,
    ha.spelled.new_eq]

theorem foldlM_listEntry {es : List (String × Action)}
    (hes : ∀ e ∈ es, SpellsName e.1 ∧ e.2.IsListed) (d : RouteData) :
    ∃ cs, (es.map listEntry).foldlM addEntry d = .ok ⟨cs, d.default⟩ ∧
      entries ⟨cs, d.default⟩ = d.entries ++ es := by
  induction es generalizing d with
  | nil => exact ⟨d.controllers, rfl, by simp⟩
  | cons e es ih =>
    rw [List.forall_mem_cons] at hes
    obtain ⟨cs, hcs, hentries⟩ := ih hes.2 { d with controllers := append e.1 e.2 d.controllers }
    refine ⟨cs, ?_, ?_⟩
    · rw [List.map_cons, List.foldlM_cons, addEntry_listEntry hes.1.1 hes.1.2 d]
      exact hcs
    · rw [hentries, entries_append, List.append_assoc]
      rfl

theorem comma_not_mem_listEntry (hc : SpellsName c) (ha : a.IsListed) :
    ',' ∉ listEntry (c, a) := by
  have hrun : ∀ w : List Char, IsRun w → ',' ∉ w := by
    intro w hw hmem
    cases hw.2 ',' hmem
  have hmethod : ',' ∉ a.method.toList := by
    obtain ⟨v, hv⟩ := ha.spelled.verb
    rw [hv]
    cases v <;> decide
  have hpath : ',' ∉ a.listPath := by
    intro hmem
    rcases ha.listPath_chars ',' hmem with hfragment | hslash | hcolon
    · cases hfragment
    · cases hslash
    · cases hcolon
  simp [listEntry, hmethod, hpath, hrun _ hc.1, hrun _ ha.spelled.name.1]

theorem Spelled.listed (h : d.Spelled) (htexts : ∀ e ∈ d.entries, .capture .int ∉ e.2.pattern) :
    ∀ e ∈ d.entries, SpellsName e.1 ∧ e.2.IsListed := by
  intro e he
  obtain ⟨hname, haction⟩ := h.entry he
  exact ⟨hname, haction, htexts e he⟩

theorem Spelled.exists_ofRouteList (h : d.Spelled)
    (htexts : ∀ e ∈ d.entries, .capture .int ∉ e.2.pattern) :
    ∃ cs, ofRouteList d.listText = .ok ⟨cs, none⟩ ∧ entries ⟨cs, none⟩ = d.entries := by
  have hlisted := h.listed htexts
  obtain ⟨cs, hcs, hentries⟩ := foldlM_listEntry hlisted empty
  refine ⟨cs, ?_, hentries⟩
  rw [ofRouteList, listText, String.toList_ofList]
  cases hes : d.entries with
  | nil =>
    rw [hes] at hcs
    exact hcs
  | cons e es =>
    rw [hes] at hcs hlisted
    have hcomma : ∀ entry ∈ (e :: es).map listEntry, ',' ∉ entry :=
      List.forall_mem_map.2 fun e' he' =>
        comma_not_mem_listEntry (hlisted e' he').1 (hlisted e' he').2
    rw [Text.pieces_join (by simp) hcomma]
    exact hcs

end RouteData

/-- A table depends on nothing in route data but the entries and the default. -/
theorem Table.build_congr {d d' : RouteData} (hentries : d'.entries = d.entries)
    (hdefault : d'.default = d.default) (s : Settings) : build d' s = build d s := by
  rw [build, build, hentries, defaultTarget, defaultTarget, hdefault]

/-- The list of a source whose parameters all take text is accepted. It registers the actions of the
source in their order, and whatever the settings, it leads to the table or to the error that the
data of the source without its default leads to. -/
theorem RouteData.ofRouteList_listText {source : String} {d : RouteData}
    (h : RouteData.ofSource source = .ok d)
    (htexts : ∀ e ∈ d.entries, .capture .int ∉ e.2.pattern) :
    ∃ listed, ofRouteList d.listText = .ok listed ∧ listed.entries = d.entries ∧
      listed.default = none ∧
      ∀ s, Table.build listed s = Table.build { d with default := none } s ∧
        Table.ofRouteList d.listText s =
          (Table.build { d with default := none } s).mapError .compile := by
  obtain ⟨cs, hlist, hentries⟩ := (RouteData.spelled_of_ofSource h).exists_ofRouteList htexts
  refine ⟨⟨cs, none⟩, hlist, hentries, rfl, fun s => ?_⟩
  have hbuild : Table.build ⟨cs, none⟩ s = Table.build { d with default := none } s :=
    Table.build_congr (d := { d with default := none }) hentries rfl s
  refine ⟨hbuild, ?_⟩
  rw [← hbuild, Table.ofRouteList, hlist]
  rfl

/-- Two controllers of one name stand side by side, and the root is among the paths. -/
def listSource : String :=
  "controller Notes actions all <- GET / find <- Put notes/<get>/:title end end " ++
    "controller Notes actions drop <- delete /2024/-x/ :default"

def listRoutes : RouteData :=
  ⟨[⟨"Notes", [⟨"all", "GET", [], []⟩,
      ⟨"find", "PUT", [.literal "notes", .capture .text, .capture .text], ["get", "title"]⟩]⟩,
    ⟨"Notes", [⟨"drop", "DELETE", [.literal "2024", .literal "-x"], []⟩]⟩],
    some ⟨"Notes", "drop"⟩⟩

theorem ofRouteList_listText_listRoutes : RouteData.ofSource listSource = .ok listRoutes ∧
    listRoutes.listText = "GET / Notes.all,PUT /notes/:get/:title Notes.find," ++
      "DELETE /2024/-x Notes.drop" ∧
    ∃ listed, RouteData.ofRouteList listRoutes.listText = .ok listed ∧
      listed.controllers.length = 1 ∧ listed.entries = listRoutes.entries ∧
      Table.ofRouteList listRoutes.listText ⟨"App", "/v1", "Notes.all"⟩ =
        (Table.build { listRoutes with default := none }
          ⟨"App", "/v1", "Notes.all"⟩).mapError .compile := by
  have hread : (RouteData.ofSource listSource).toOption = some listRoutes := by decide +kernel
  have hok := toOption_eq_some_iff.1 hread
  have htexts : ∀ e ∈ listRoutes.entries, .capture .int ∉ e.2.pattern := by decide
  have hcount : (RouteData.ofRouteList listRoutes.listText).toOption.map (·.controllers.length) =
      some 1 := by decide +kernel
  obtain ⟨listed, hlist, hentries, -, hbuild⟩ := RouteData.ofRouteList_listText hok htexts
  rw [hlist] at hcount
  exact ⟨hok, by decide +kernel, listed, hlist, Option.some.inj hcount, hentries,
    (hbuild ⟨"App", "/v1", "Notes.all"⟩).2⟩

end Routes
