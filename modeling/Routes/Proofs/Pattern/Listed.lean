import Routes.Proofs.Pattern.Mount
/-!
Paths as a table lists them, with a value written in the place of each parameter. Main statements:
such a path is the link of its pattern where the base URL has no two slashes side by side between
its ends, and no pattern takes it otherwise.
-/
namespace Routes
open Table (trimSlashes)
open Token (isFragmentChar IsRun)

/-- A text with values in its places, which are put between angle brackets. The flag tells whether
the text begins inside of a place; its value has been written then. -/
def fillPlaces : Bool → List Char → List String → List Char
  | _, [], _ => []
  | true, c :: cs, vs => fillPlaces (c != '>') cs vs
  | false, c :: cs, vs =>
    if c = '<' then (vs.headD "").toList ++ fillPlaces true cs vs.tail
    else c :: fillPlaces false cs vs

/-- A listed path with values for its parameters. -/
def fillListed (path : String) (vs : List String) : String :=
  String.ofList (fillPlaces false path.toList vs)

section Places
variable {w cs : List Char} {vs : List String}

theorem fillPlaces_text (h : '<' ∉ w) (cs : List Char) (vs : List String) :
    fillPlaces false (w ++ cs) vs = w ++ fillPlaces false cs vs := by
  induction w with
  | nil => rfl
  | cons c w ih =>
    rw [List.mem_cons, not_or] at h
    rw [List.cons_append, fillPlaces, if_neg (Ne.symm h.1), ih h.2, List.cons_append]

theorem fillPlaces_inside (h : '>' ∉ w) (cs : List Char) (vs : List String) :
    fillPlaces true (w ++ '>' :: cs) vs = fillPlaces false cs vs := by
  induction w with
  | nil => rfl
  | cons c w ih =>
    rw [List.mem_cons, not_or] at h
    have hc : (c != '>') = true := bne_iff_ne.2 (Ne.symm h.1)
    rw [List.cons_append, fillPlaces, hc, ih h.2]

theorem fillPlaces_place (h : '>' ∉ w) (v : String) :
    fillPlaces false ('<' :: (w ++ '>' :: cs)) (v :: vs) =
      v.toList ++ fillPlaces false cs vs := by
  rw [fillPlaces, if_pos rfl, List.tail_cons, fillPlaces_inside h]
  rfl

end Places

namespace Text

/-- A slash in front of each text, or in front of the first and between any two. -/
theorem flatMap_slash {ts : List (List Char)} (h : ts ≠ []) :
    ts.flatMap ('/' :: ·) = '/' :: join '/' ts := by
  induction ts with
  | nil => exact absurd rfl h
  | cons t ts ih =>
    cases ts with
    | nil => rw [List.flatMap_singleton, join_singleton]
    | cons u ts =>
      rw [List.flatMap_cons, ih (List.cons_ne_nil u ts), join_cons_cons, List.cons_append]

end Text

/-- Values that are written in a path as they are. -/
def IsPlainValue (v : String) : Prop := ∀ c ∈ v.toList, c.isAlphanum = true

namespace Pattern
variable {p q : Pattern} {base : String} {names vs : List String} {ws : List (List Char)}

theorem code_of_isPlainValue {v : String} (h : IsPlainValue v) : code v = v.toList :=
  Text.Percent.encode_of_keep fun c hc => by rw [isFragmentChar, h c hc]; rfl

theorem not_mem_place (hnames : ∀ name ∈ names, '>' ∉ name.toList) (kind : ParamKind) :
    '>' ∉ (names.head?.getD "?").toList ++ ':' :: kind.name.toList := by
  have hname : '>' ∉ (names.head?.getD "?").toList := by
    cases names with
    | nil => decide
    | cons name names => exact hnames name List.mem_cons_self
  have hkind : '>' ∉ ':' :: kind.name.toList := by cases kind <;> decide
  exact fun hmem => (List.mem_append.1 hmem).elim hname hkind

/-- Each segment of a template with its value is the text of the segment in a link. -/
theorem fillPlaces_templateParts (hp : ∀ text, .literal text ∈ p → '<' ∉ text.toList)
    (hnames : ∀ name ∈ names, '>' ∉ name.toList) (hvs : p.Chooses vs)
    (hplain : ∀ v ∈ vs, IsPlainValue v) :
    fillPlaces false (templateParts p names) vs = (p.fill vs).flatMap ('/' :: ·) := by
  have hslash : '<' ∉ ['/'] := by decide
  induction hvs generalizing names with
  | nil => rfl
  | @literal text p vs hvs ih =>
    have hrest := ih (fun text htext => hp text (List.mem_cons_of_mem _ htext)) hnames hplain
    have htext : '<' ∉ text.toList := hp text List.mem_cons_self
    rw [templateParts, ← List.singleton_append, fillPlaces_text hslash, fillPlaces_text htext,
      hrest]
    rfl
  | @capture kind p v vs hv hvs ih =>
    rw [List.forall_mem_cons] at hplain
    have hrest := ih (fun text htext => hp text (List.mem_cons_of_mem _ htext))
      (fun name hname => hnames name (List.mem_of_mem_tail hname)) hplain.2
    have hplace : templateParts (.capture kind :: p) names = ['/'] ++
        '<' :: (((names.head?.getD "?").toList ++ ':' :: kind.name.toList) ++
          '>' :: templateParts p names.tail) := by
      rw [templateParts, List.append_assoc]
      rfl
    rw [hplace, fillPlaces_text hslash, fillPlaces_place (not_mem_place hnames kind), hrest, fill,
      List.flatMap_cons, code_of_isPlainValue hplain.1]
    rfl

theorem fill_ne_nil (hvs : p.Chooses vs) (hne : p ≠ []) : p.fill vs ≠ [] := by
  cases hvs with
  | nil => exact absurd rfl hne
  | literal => exact List.cons_ne_nil _ _
  | capture => exact List.cons_ne_nil _ _

/-- The base URL as it is listed: one text without slashes at its ends, if there is any. -/
def listedBase (base : String) : List (List Char) :=
  if trimSlashes base.toList = [] then [] else [trimSlashes base.toList]

theorem template_nil (names : List String) : template [] names = "/" := rfl

theorem toList_template (hne : p ≠ []) (names : List String) :
    (p.template names).toList = templateParts p names := by
  obtain ⟨segment, p, rfl⟩ := List.exists_cons_of_ne_nil hne
  unfold template
  cases segment <;> exact String.toList_ofList

theorem template_ne_slash (hp : ∀ text, .literal text ∈ p → IsRun text.toList) (hne : p ≠ [])
    (names : List String) : p.template names ≠ "/" := by
  intro h
  have hparts := (toList_template hne names).symm.trans (congrArg String.toList h)
  obtain ⟨segment, p, rfl⟩ := List.exists_cons_of_ne_nil hne
  cases segment with
  | literal text =>
    have htext : text.toList ++ templateParts p names = [] := (List.cons.inj hparts).2
    exact (hp text List.mem_cons_self).1 (List.append_eq_nil_iff.1 htext).1
  | capture kind => cases hparts

/-- The texts of runs and of a base URL hold no brackets. -/
theorem bracket_not_mem {w : List Char} (h : ∀ c ∈ w, isFragmentChar c = true ∨ c = '/') :
    '<' ∉ w ∧ '>' ∉ w :=
  ⟨fun hmem => absurd (h '<' hmem) (by decide), fun hmem => absurd (h '>' hmem) (by decide)⟩

theorem bracket_not_mem_run {w : List Char} (h : IsRun w) : '<' ∉ w ∧ '>' ∉ w :=
  bracket_not_mem fun c hc => .inl (h.2 c hc)

theorem mem_trimSlashes {c : Char} {cs : List Char} (h : c ∈ trimSlashes cs) : c ∈ cs :=
  (List.dropWhile_sublist _).subset ((List.rdropWhile_prefix _ _).subset h)

theorem mem_of_mem_listedBase {w : List Char} {c : Char} (hw : w ∈ listedBase base) (hc : c ∈ w) :
    c ∈ base.toList := by
  unfold listedBase at hw
  split at hw
  · cases hw
  · rw [List.mem_singleton.1 hw] at hc
    exact mem_trimSlashes hc

theorem fillPlaces_template (hp : ∀ text, .literal text ∈ p → IsRun text.toList)
    (hnames : ∀ name ∈ names, IsRun name.toList) (hvs : p.Chooses vs)
    (hplain : ∀ v ∈ vs, IsPlainValue v) :
    fillPlaces false (p.template names).toList vs = '/' :: Text.join '/' (p.fill vs) := by
  by_cases hne : p = []
  · subst hne
    cases hvs
    rw [template_nil]
    decide
  · rw [toList_template hne, ← Text.flatMap_slash (fill_ne_nil hvs hne)]
    exact fillPlaces_templateParts (fun text htext => (bracket_not_mem_run (hp text htext)).1)
      (fun name hname => (bracket_not_mem_run (hnames name hname)).2) hvs hplain

/-- What a listed path with its values is made of. -/
theorem fillListed_fullPath {t : Table}
    (hbase : ∀ c ∈ t.baseUrl.toList, isFragmentChar c = true ∨ c = '/')
    (hp : ∀ text, .literal text ∈ p → IsRun text.toList)
    (hnames : ∀ name ∈ names, IsRun name.toList) (hvs : p.Chooses vs)
    (hplain : ∀ v ∈ vs, IsPlainValue v) :
    (fillListed (t.fullPath (p.template names)) vs).toList =
      '/' :: Text.join '/' (listedBase t.baseUrl ++ p.fill vs) := by
  have hfront : '<' ∉ '/' :: trimSlashes t.baseUrl.toList := by
    refine (bracket_not_mem fun c hc => ?_).1
    exact (List.mem_cons.1 hc).elim .inr fun hmem => hbase c (mem_trimSlashes hmem)
  have htemplate := fillPlaces_template hp hnames hvs hplain
  rw [fillListed, String.toList_ofList, Table.fullPath, listedBase]
  split
  · rename_i hnil
    rw [htemplate, if_pos hnil, List.nil_append]
  · rename_i hcons
    rw [if_neg hcons, List.singleton_append]
    by_cases hne : p = []
    · subst hne
      cases hvs
      have hbare := fillPlaces_text hfront [] []
      rw [List.append_nil] at hbare
      rw [template_nil, if_pos rfl, String.toList_ofList, hbare]
      simp [fill, fillPlaces, Text.join]
    · obtain ⟨u, us, hfill⟩ := List.exists_cons_of_ne_nil (fill_ne_nil hvs hne)
      rw [if_neg (template_ne_slash hp hne names), String.toList_append, String.toList_ofList,
        fillPlaces_text hfront, htemplate, hfill, Text.join_cons_cons, List.cons_append]

/-- Two slashes are side by side between the ends of a base URL. -/
def HasDoubleSlash (base : String) : Prop := ['/', '/'] <:+: trimSlashes base.toList

instance : DecidablePred HasDoubleSlash := fun base =>
  inferInstanceAs (Decidable (['/', '/'] <:+: trimSlashes base.toList))

/-- The base URL is listed with all of its slashes and matched with one between any two pieces. -/
theorem join_listedBase (hbase : ¬HasDoubleSlash base) (ts : List (List Char)) :
    Text.join '/' (listedBase base ++ ts) = Text.join '/' (basePieces base ++ ts) := by
  have hpieces : basePieces base = Text.fullPieces '/' (trimSlashes base.toList) :=
    (Text.fullPieces_trimSlashes base.toList).symm
  rw [listedBase]
  split
  · rename_i hnil
    rw [hpieces, hnil]
    rfl
  · rename_i hne
    have hjoin : Text.join '/' (basePieces base) = trimSlashes base.toList := by
      rw [hpieces]
      exact Text.join_fullPieces hne hbase (Text.head?_trimSlashes _) (Text.getLast?_trimSlashes _)
    have hpieces_ne : basePieces base ≠ [] := by
      intro hnil
      rw [hnil] at hjoin
      exact hne hjoin.symm
    cases ts with
    | nil =>
      rw [List.append_nil, List.append_nil, hjoin, Text.join_singleton]
    | cons t ts =>
      rw [Text.join_append hpieces_ne (List.cons_ne_nil t ts), hjoin, List.singleton_append,
        Text.join_cons_cons]

theorem link_of_not_hasDoubleSlash (hbase : ¬HasDoubleSlash base) (p : Pattern)
    (vs : List String) : (p.link base vs).toList =
      '/' :: Text.join '/' (listedBase base ++ p.fill vs) := by
  rw [link, String.toList_ofList, join_listedBase hbase]

/-- No path with two slashes side by side behind its front is matched. -/
theorem not_matches_of_infix (hq : ∀ text, .literal text ∈ q → IsRun text.toList)
    {rest : List Char} (h : ['/', '/'] <:+: rest) : ¬q.Matches base ('/' :: rest) ws := by
  rw [matches_base_iff]
  rintro ⟨l, t, ts, hl, ht, hts, hpath⟩
  have hpieces : ∀ piece ∈ basePieces base ++ ts, IsPiece piece := fun piece hpiece =>
    (List.mem_append.1 hpiece).elim isPiece_of_mem_basePieces (isPiece_of_reads hq hts piece)
  have halone := Text.not_infix_join hpieces ht
  rcases hl with rfl | rfl
  · exact halone (hpath ▸ h.trans (List.suffix_cons '/' rest).isInfix)
  · obtain rfl : rest = Text.join '/' (basePieces base ++ ts) ++ t := (List.cons.inj hpath).2
    exact halone h

theorem not_matches_of_hasDoubleSlash (hbase : HasDoubleSlash base)
    (hq : ∀ text, .literal text ∈ q → IsRun text.toList) (ts : List (List Char)) :
    ¬q.Matches base ('/' :: Text.join '/' (listedBase base ++ ts)) ws := by
  have hne : trimSlashes base.toList ≠ [] := by
    intro hnil
    rw [HasDoubleSlash, hnil] at hbase
    exact absurd hbase (by decide)
  refine not_matches_of_infix hq (hbase.trans ?_)
  rw [listedBase, if_neg hne, List.singleton_append]
  cases ts with
  | nil =>
    rw [Text.join_singleton]
  | cons t ts =>
    rw [Text.join_cons_cons]
    exact (List.prefix_append _ _).isInfix

end Pattern
end Routes
