import Routes.Proofs.Grammar.Parse
import Routes.Proofs.Token.Scan
import Routes.RouteData.Compile
/-!
What texts declarations can hold. A text that comes from a source is one that can be scanned: a name
is a run that is a name again, and a literal is a run.
-/
namespace Routes
open Token (IsRun ofRun)

/-- A text that stands for itself as a parameter name. -/
def SpellsWord (s : String) : Prop := IsRun s.toList ∧ (ofRun .start s).isWord = true

/-- A text that stands for itself as the name of a controller or an action. -/
def SpellsName (s : String) : Prop := IsRun s.toList ∧ (ofRun .start s).isName = true

def UrlPart.Spelled : UrlPart → Prop
  | literal text => IsRun text.toList
  | param name _ => SpellsWord name

structure ActionDecl.Spelled (a : ActionDecl) : Prop where
  name : SpellsName a.name
  parts : ∀ p ∈ a.url.parts, p.Spelled

structure ControllerDecl.Spelled (c : ControllerDecl) : Prop where
  name : SpellsName c.name
  actions : ∀ a ∈ c.actions, a.Spelled

structure DefaultDecl.Spelled (d : DefaultDecl) : Prop where
  controller : SpellsName d.controller
  action : SpellsName d.action

structure Declarations.Spelled (ds : Declarations) : Prop where
  controllers : ∀ c ∈ ds.controllers, c.Spelled
  defaults : ∀ d ∈ ds.defaults, d.Spelled

namespace Token
variable {t u : Token}

theorem isWord_congr (h : t.kind = u.kind) : t.isWord = u.isWord := by simp [isWord, h]

theorem isName_congr (h : t.kind = u.kind) : t.isName = u.isName := by simp [isName, h]

theorem isWord_of_isName (h : t.isName = true) : t.isWord = true := by
  unfold isName at h
  unfold isWord
  split at h
  · simp_all
  · simp_all
  · cases h

theorem Spelled.word (h : t.Spelled) (hw : t.isWord = true) : SpellsWord t.text := by
  obtain ⟨hrun, hk⟩ := h (.inl hw)
  refine ⟨hrun, ?_⟩
  rwa [← isWord_congr (t := t) hk]

theorem Spelled.name (h : t.Spelled) (hn : t.isName = true) : SpellsName t.text := by
  obtain ⟨hrun, hk⟩ := h (.inl (isWord_of_isName hn))
  refine ⟨hrun, ?_⟩
  rwa [← isName_congr (t := t) hk]

end Token

namespace Grammar

theorem IsPart.spelled {f : Token} {ts : List Token} {p : UrlPart} (h : IsPart f ts p)
    (hs : ∀ t ∈ f :: ts, t.Spelled) : p.Spelled := by
  cases h with
  | literal h => exact (hs _ (by simp) h.symm).1
  | bracket _ hn => exact (hs _ (by simp)).word hn
  | bracketKind _ hn => exact (hs _ (by simp)).word hn
  | colon _ hn => exact (hs _ (by simp)).word hn
  | colonKind _ hn => exact (hs _ (by simp)).word hn

theorem IsTail.spelled {last : Token} {ts : List Token} {ps : List UrlPart} (h : IsTail last ts ps)
    (hs : ∀ t ∈ ts, t.Spelled) : ∀ p ∈ ps, p.Spelled := by
  induction h with
  | done => simp
  | slash => simp
  | more _ _ _ hp _ ih =>
    intro p hmem
    rcases List.mem_cons.1 hmem with rfl | hmem
    · exact hp.spelled fun t hmem => hs t (by grind)
    · exact ih (fun t ht => hs t (by simp_all)) p hmem

theorem IsTail.spelled_cons {last f : Token} {ts rest : List Token} {p : UrlPart}
    {ps : List UrlPart} (ht : IsTail last rest ps) (hp : IsPart f ts p)
    (hs : ∀ t ∈ f :: (ts ++ rest), t.Spelled) : ∀ q ∈ p :: ps, q.Spelled := by
  refine List.forall_mem_cons.2 ⟨hp.spelled fun t hmem => hs t ?_, ht.spelled fun t hmem => hs t ?_⟩
  · rw [← List.cons_append]
    exact List.mem_append_left rest hmem
  · exact List.mem_cons_of_mem f (List.mem_append_right ts hmem)

theorem IsUrl.spelled {ts : List Token} {u : Url} (h : IsUrl ts u) (hs : ∀ t ∈ ts, t.Spelled) :
    ∀ p ∈ u.parts, p.Spelled := by
  cases h with
  | root => simp
  | absolute _ _ hp ht => exact ht.spelled_cons hp fun t hmem => hs t (List.mem_cons_of_mem _ hmem)
  | relative hp ht => exact ht.spelled_cons hp hs

theorem IsAction.spelled {ts rest : List Token} {a : ActionDecl} (h : IsAction ts rest a)
    (hs : ∀ t ∈ ts, t.Spelled) : a.Spelled ∧ ∀ t ∈ rest, t.Spelled := by
  cases h with
  | mk hn _ _ hurl =>
    refine ⟨⟨(hs _ (by simp)).name hn, hurl.spelled fun t ht => hs t (by simp [ht])⟩, ?_⟩
    exact fun t ht => hs t (by simp [ht])

theorem IsActions.spelled {ts rest : List Token} {as : List ActionDecl} (h : IsActions ts rest as)
    (hs : ∀ t ∈ ts, t.Spelled) : (∀ a ∈ as, a.Spelled) ∧ ∀ t ∈ rest, t.Spelled := by
  induction h with
  | nil => exact ⟨by simp, hs⟩
  | cons ha _ ih =>
    obtain ⟨ha, hrest⟩ := ha.spelled hs
    obtain ⟨has, hrest⟩ := ih hrest
    exact ⟨List.forall_mem_cons.2 ⟨ha, has⟩, hrest⟩

theorem IsController.spelled {ts rest : List Token} {d : ControllerDecl}
    (h : IsController ts rest d) (hs : ∀ t ∈ ts, t.Spelled) :
    d.Spelled ∧ ∀ t ∈ rest, t.Spelled := by
  cases h with
  | mk _ hn _ _ hacts =>
    obtain ⟨has, hrest⟩ := hacts.spelled fun t ht => hs t (by simp [ht])
    exact ⟨⟨(hs _ (by simp)).name hn, has⟩, fun t ht => hrest t (by simp [ht])⟩

theorem IsDefault.spelled {ts rest : List Token} {d : DefaultDecl} (h : IsDefault ts rest d)
    (hs : ∀ t ∈ ts, t.Spelled) : d.Spelled ∧ ∀ t ∈ rest, t.Spelled := by
  cases h with
  | mk _ _ hc _ ha =>
    exact ⟨⟨(hs _ (by simp)).name hc, (hs _ (by simp)).name ha⟩, fun t ht => hs t (by simp [ht])⟩

theorem IsSource.spelled {ts : List Token} {ds : Declarations} (h : IsSource ts ds)
    (hs : ∀ t ∈ ts, t.Spelled) : ds.Spelled := by
  induction h with
  | done => exact ⟨by simp [Declarations.empty], by simp [Declarations.empty]⟩
  | controller hd _ ih =>
    obtain ⟨hd, hrest⟩ := hd.spelled hs
    obtain ⟨hc, hdefaults⟩ := ih hrest
    exact ⟨List.forall_mem_cons.2 ⟨hd, hc⟩, hdefaults⟩
  | default hd _ ih =>
    obtain ⟨hd, hrest⟩ := hd.spelled hs
    obtain ⟨hc, hdefaults⟩ := ih hrest
    exact ⟨hc, List.forall_mem_cons.2 ⟨hd, hdefaults⟩⟩

end Grammar

/-- The declarations of a source are those that the grammar derives from its tokens. -/
theorem Declarations.ofSource_eq_ok_iff {source : String} {ds : Declarations} :
    Declarations.ofSource source = .ok ds ↔
      ∃ ts, Token.scan source = .ok ts ∧ Grammar.IsSource ts ds := by
  simp only [ofSource, bind_eq_ok, mapError_eq_ok]
  refine exists_congr fun ts => and_congr_right fun hscan => ?_
  obtain ⟨us, e, rfl, he, hus⟩ := Token.scanFrom_eq_ok hscan
  rw [ofTokens, Cursor.ofTokens_concat (fun t ht => (hus t ht).1) he]
  exact ⟨Cursor.isSource_of_declarations he, fun h => Cursor.declarations_of_isSource h rfl he⟩

theorem Declarations.spelled_of_ofSource {source : String} {ds : Declarations}
    (h : Declarations.ofSource source = .ok ds) : ds.Spelled := by
  obtain ⟨ts, hscan, hs⟩ := ofSource_eq_ok_iff.1 h
  obtain ⟨us, e, rfl, he, hus⟩ := Token.scanFrom_eq_ok hscan
  refine hs.spelled fun t ht => ?_
  rcases List.mem_append.1 ht with ht | ht
  · exact (hus t ht).2
  · obtain rfl := List.mem_singleton.1 ht
    exact fun h => by simp [Token.isWord, he] at h

end Routes
