import Routes.Proofs.Declaration.Spelling
/-!
Route data written out as a source. Main statement: what a source is compiled to is compiled from
its own listing again.
-/
namespace Routes
open Token (IsRun ofRun Scans scanFrom)
open Text (isBlank)

def Action.sourceLine (a : Action) : List Char :=
  a.name.toList ++ ' ' :: ("<-".toList ++ ' ' :: (a.method.toList ++ ' ' ::
    (a.template.toList ++ ['\n'])))

def Controller.openingLine (c : Controller) : List Char :=
  "controller".toList ++ ' ' :: (c.name.toList ++ ' ' :: ("actions".toList ++ ['\n']))

def Controller.closingLine : List Char := "end".toList ++ ' ' :: ("end".toList ++ ['\n'])

def Controller.sourceLines (c : Controller) : List Char :=
  c.openingLine ++ (c.actions.flatMap Action.sourceLine ++ closingLine)

def Target.defaultLine (t : Target) : List Char :=
  "default".toList ++ ' ' :: ("action".toList ++ ' ' :: (t.hashText.toList ++ ['\n']))

/-- Each controller with a line for each of its actions, and the default at the end. -/
def RouteData.sourceText (d : RouteData) : String := String.ofList
  (d.controllers.flatMap Controller.sourceLines ++ (d.default.map Target.defaultLine).getD [])

/-- A part of a URL as templates show it. -/
def UrlPart.text : UrlPart → List Char
  | literal text => text.toList
  | param name kind => '<' :: (name.toList ++ ':' :: (kind.name.toList ++ ['>']))

theorem Url.templateParts_eq (u : Url) : Pattern.templateParts u.segments u.names =
    u.parts.flatMap fun p => '/' :: p.text := by
  obtain ⟨absolute, parts⟩ := u
  induction parts with
  | nil => rfl
  | cons p ps ih =>
    cases p with
    | literal text => exact congrArg (fun cs => '/' :: (text.toList ++ cs)) ih
    | param name kind =>
      have hnames : Url.names ⟨absolute, .param name kind :: ps⟩ =
          name :: Url.names ⟨absolute, ps⟩ := rfl
      have hsegments : Url.segments ⟨absolute, .param name kind :: ps⟩ =
          .capture kind :: Url.segments ⟨absolute, ps⟩ := rfl
      rw [hnames, hsegments, Pattern.templateParts, List.flatMap_cons, List.tail_cons, ih]
      simp [UrlPart.text]

theorem SpellsWord.head {s : String} (h : SpellsWord s) : s.toList.head? ≠ some '-' := by
  intro hhead
  cases hs : s.toList with
  | nil => simp [hs] at hhead
  | cons c cs =>
    obtain rfl : c = '-' := by simpa [hs] using hhead
    have hword := h.2
    rw [ofRun, hs, Token.wordKind_dash] at hword
    cases hword

/-- An action as its line stands for it, without the mark of a default. -/
def ActionDecl.unmarked (a : ActionDecl) (p : Position) : ActionDecl :=
  ⟨a.name, a.verb, ⟨true, a.url.parts⟩, false, p⟩

theorem Text.isBlank_space : isBlank ' ' = true := by decide

namespace Token.Scans
variable {p : Position} {rest x : List Char} {ts : List Token} {s : String} {b : Char}

/-- A run in front of a blank, which cannot go on with it. -/
theorem word_blank (hs : IsRun s.toList) (hb : isBlank b = true)
    (hx : Scans ((p.advance s.toList).step b) x ts rest) :
    Scans p (s.toList ++ b :: x) (ofRun p s :: ts) rest := by
  have hnot : ((b :: x) ++ rest).head?.any isFragmentChar = false := by
    refine Bool.eq_false_iff.2 fun h => ?_
    have hfragment : isFragmentChar b = true := h
    rw [(isBlank_of_isFragmentChar hfragment).1] at hb
    cases hb
  exact (Scans.run hs hnot).append (.cons_blank hb hx)

theorem arrow_blank (hx : Scans ((p.advance "<-".toList).step ' ') x ts rest) :
    Scans p ("<-".toList ++ ' ' :: x) (⟨.symbol .arrow, "<-", p, 2⟩ :: ts) rest :=
  arrow.append (.cons_blank (by decide) hx)

theorem slash : Scans p ['/'] [⟨.symbol .slash, "/", p, 1⟩] rest :=
  symbol (by decide) rfl rfl

theorem greater : Scans p ['>'] [⟨.symbol .greater, ">", p, 1⟩] rest :=
  symbol (by decide) rfl rfl

theorem hash : Scans p ['#'] [⟨.symbol .hash, "#", p, 1⟩] rest :=
  symbol (by decide) rfl rfl

theorem less (h : rest.head? ≠ some '-') : Scans p ['<'] [⟨.symbol .less, "<", p, 1⟩] rest := by
  refine symbol (by decide) ?_ rfl
  cases rest with
  | nil => rfl
  | cons c cs =>
    have hc : ('-' == c) = false := beq_eq_false_iff_ne.2 fun he => h (he ▸ rfl)
    simp [List.isPrefixOf, hc]

/-- A colon in front of the name of a kind begins no marker. -/
theorem colon (k : ParamKind) :
    Scans p [':'] [⟨.symbol .colon, ":", p, 1⟩] (k.name.toList ++ ['>'] ++ rest) := by
  refine symbol (by decide) rfl ?_
  cases k <;> rfl

end Token.Scans

namespace Token
open Grammar

theorem scans_part {part : UrlPart} (hp : part.Spelled) (p : Position) {rest : List Char}
    (hrest : rest.head?.any isFragmentChar = false) :
    ∃ f ts, Scans p part.text (f :: ts) rest ∧ IsPart f ts part ∧ f.position = p ∧
      (ts.getLastD f).endOffset = (p.advance part.text).offset := by
  cases part with
  | literal text =>
    exact ⟨ofRun p text, [], .run hp hrest, .literal (isWord_or_fragment hp p).symm, rfl,
      (Position.advance_offset p text.toList).symm⟩
  | param name kind =>
    have hhead :
        ((name.toList ++ ':' :: (kind.name.toList ++ ['>'])) ++ rest).head? ≠ some '-' := by
      obtain ⟨c, cs, hc⟩ := List.exists_cons_of_ne_nil hp.1.1
      have hdash := hp.head
      rw [hc] at hdash ⊢
      exact hdash
    have hkindrun : IsRun kind.name.toList := by cases kind <;> decide
    have hkind : ∀ q, IsKind (ofRun q kind.name) kind := by
      intro q
      cases kind
      · exact .text rfl
      · exact .int rfl
    have hscan := (Scans.less (p := p) hhead).cons ((Scans.run hp.1 rfl).append
      ((Scans.colon kind).cons ((Scans.run hkindrun rfl).append Scans.greater)))
    refine ⟨_, _, hscan, .bracketKind rfl hp.2 rfl (hkind _) rfl, rfl, ?_⟩
    rw [UrlPart.text, Position.advance_cons, Position.advance_append, Position.advance_cons,
      Position.advance_append]
    exact (Position.advance_offset _ ['>']).symm

theorem scans_tail {parts : List UrlPart} (hp : ∀ part ∈ parts, part.Spelled) {last : Token}
    {p : Position} (hlast : last.endOffset = p.offset) {rest : List Char}
    (hrest : rest.head?.any isFragmentChar = false) :
    ∃ ts, Scans p (parts.flatMap fun part => '/' :: part.text) ts rest ∧ IsTail last ts parts ∧
      (ts.getLastD last).endOffset =
        (p.advance (parts.flatMap fun part => '/' :: part.text)).offset := by
  induction parts generalizing last p with
  | nil => exact ⟨[], .nil p rest, .done, hlast⟩
  | cons part parts ih =>
    rw [List.forall_mem_cons] at hp
    -- What follows a part is the slash of the next one, with which no run goes on.
    have hnext : ((parts.flatMap fun part => '/' :: part.text) ++ rest).head?.any isFragmentChar =
        false := by
      cases parts with
      | nil => exact hrest
      | cons => rfl
    obtain ⟨f, ts, hscan, hpart, hposition, hend⟩ := scans_part hp.1 (p.step '/') hnext
    obtain ⟨us, hscan', htail, hend'⟩ := ih hp.2 hend
    have hall := (Scans.slash (p := p)).cons (hscan.append hscan')
    refine ⟨_, hall, .more rfl hlast.symm ?_ hpart htail, ?_⟩
    · rw [Adjacent, hposition]
      exact (Position.advance_offset p ['/'])
    · have hlast : (ts ++ us).getLastD f = us.getLastD (ts.getLastD f) := by
        simp only [List.getLastD_eq_getLast?, List.getLast?_append]
        cases us.getLast? <;> rfl
      rw [List.flatMap_cons, Position.advance_append, Position.advance_cons, ← hend', ← hlast]
      simp only [List.nil_append, List.cons_append, List.getLastD_cons]

/-- A template is scanned as a URL with a slash in front, whose last token ends where it ends. -/
theorem scans_template {u : Url} (hp : ∀ part ∈ u.parts, part.Spelled) (p : Position)
    (rest : List Char) (hrest : rest.head?.any isFragmentChar = false) :
    ∃ ts, Scans p (u.segments.template u.names).toList ts rest ∧ IsUrl ts ⟨true, u.parts⟩ ∧
      ∀ last ∈ ts.getLast?,
        last.endOffset = (p.advance (u.segments.template u.names).toList).offset := by
  obtain ⟨absolute, parts⟩ := u
  cases parts with
  | nil =>
    have htext : (Pattern.template (Url.segments ⟨absolute, []⟩)
        (Url.names ⟨absolute, []⟩)).toList = ['/'] := by
      rw [Pattern.template, Url.templateParts_eq]
      simp
    rw [htext]
    refine ⟨[⟨.symbol .slash, "/", p, 1⟩], Scans.slash, .root rfl, fun last hlast => ?_⟩
    obtain rfl : _ = last := Option.some.inj hlast
    exact (Position.advance_offset p ['/']).symm
  | cons part parts =>
    have hstart : (finishAt p).endOffset = p.offset := rfl
    obtain ⟨ts, hscan, htail, hend⟩ := scans_tail hp hstart hrest
    have htext : (Pattern.template (Url.segments ⟨absolute, part :: parts⟩)
        (Url.names ⟨absolute, part :: parts⟩)).toList =
          (part :: parts).flatMap fun part => '/' :: part.text := by
      rw [Pattern.template, Url.templateParts_eq]
      exact String.toList_ofList
    rw [htext]
    refine ⟨ts, hscan, ?_, fun last hlast => ?_⟩
    · cases htail with
      | more hs _ hadj hpart htail => exact .absolute hs hadj hpart htail
    · rwa [List.getLastD_eq_getLast?, Option.mem_def.1 hlast] at hend

/-- A token behind a line break does not stand directly behind what is in front of it. -/
theorem greedy_of_newline {url us : List Token} {p : Position} {rest : List Char}
    (hend : ∀ last ∈ url.getLast?, last.endOffset = p.offset)
    (hus : scanFrom "%".toList (p.step '\n') rest = .ok us) : Greedy url us := by
  intro last hlast _ next hnext hadj
  cases us with
  | nil => cases hnext
  | cons t us =>
    obtain rfl : t = next := Option.some.inj hnext
    have hle := offset_le_of_scanFrom hus
    have hstep := Position.advance_offset p ['\n']
    have hsize : Text.byteLength ['\n'] = 1 := by decide
    rw [Position.advance_cons, Position.advance_nil, hsize, ← hend last hlast, ← hadj] at hstep
    omega

theorem scans_action {a : ActionDecl} {controller : String} {b : Action} (ha : a.Spelled)
    (hb : a.compile controller = .ok b) {p : Position} {rest : List Char} {us : List Token}
    (hus : scanFrom "%".toList (p.advance b.sourceLine) rest = .ok us) :
    ∃ ts, scanFrom "%".toList p (b.sourceLine ++ rest) = .ok ts ∧
      IsAction ts us (a.unmarked p) := by
  unfold ActionDecl.compile at hb
  split at hb
  · cases hb
  · cases hb
    have hverb : IsRun a.verb.name.toList := by cases a.verb <;> decide
    obtain ⟨url, hscan, hurl, hend⟩ := scans_template ha.parts
      ((((((p.advance a.name.toList).step ' ').advance "<-".toList).step ' ').advance
        a.verb.name.toList).step ' ') (['\n'] ++ rest) rfl
    have hline := Scans.word_blank ha.name.1 Text.isBlank_space
      (.arrow_blank (.word_blank hverb Text.isBlank_space
        (hscan.append (.cons_blank Text.isBlank_newline (.nil _ rest)))))
    refine ⟨_, hline us hus, ?_⟩
    simp only [Action.sourceLine, Action.template, Position.advance_append, Position.advance_cons,
      Position.advance_nil] at hus
    have hmax : Greedy url ([] ++ us) := greedy_of_newline hend hus
    have hname : (ofRun p a.name).isName = true := ha.name.2
    have hverb' : ∀ q, Cursor.verb? (ofRun q a.verb.name) = some a.verb := by
      intro q
      cases a.verb <;> rfl
    have haction : ∀ q r, IsAction (ofRun p a.name :: ⟨.symbol .arrow, "<-", q, 2⟩ ::
        ofRun r a.verb.name :: (url ++ ([] ++ us))) us (a.unmarked p) :=
      fun q r => .mk hname rfl (hverb' r) hurl hmax .absent
    simpa using haction _ _

theorem scans_actions {as : List ActionDecl} {controller : String} {bs : List Action}
    (has : ∀ a ∈ as, a.Spelled) (hbs : as.mapM (ActionDecl.compile controller) = .ok bs)
    {p : Position} {rest : List Char} {us : List Token}
    (hus : scanFrom "%".toList (p.advance (bs.flatMap Action.sourceLine)) rest = .ok us) :
    ∃ ts as', scanFrom "%".toList p (bs.flatMap Action.sourceLine ++ rest) = .ok ts ∧
      IsActions ts us as' ∧ as'.mapM (ActionDecl.compile controller) = .ok bs ∧
      ∀ a ∈ as', a.isDefault = false := by
  induction as generalizing bs p with
  | nil =>
    obtain rfl := mapM_nil_eq_ok.1 hbs
    exact ⟨us, [], hus, .nil, rfl, by simp⟩
  | cons a as ih =>
    obtain ⟨b, bs, hb, hbs', rfl⟩ := mapM_cons_eq_ok.1 hbs
    rw [List.forall_mem_cons] at has
    rw [List.flatMap_cons, Position.advance_append] at hus
    obtain ⟨ts, as', hts, hacts, hcompile, hunmarked⟩ := ih has.2 hbs' hus
    obtain ⟨ts', hts', hact⟩ := scans_action has.1 hb hts
    refine ⟨ts', a.unmarked p :: as', ?_, .cons hact hacts, ?_, ?_⟩
    · rw [List.flatMap_cons, List.append_assoc]
      exact hts'
    · exact mapM_cons_eq_ok.2 ⟨b, bs, hb, hcompile, rfl⟩
    · exact List.forall_mem_cons.2 ⟨rfl, hunmarked⟩

theorem scans_openingLine {name : String} (hn : SpellsName name) (as : List Action) (p : Position)
    (rest : List Char) : ∃ w n x, Scans p (Controller.openingLine ⟨name, as⟩) [w, n, x] rest ∧
      w.kind = .keyword .controller ∧ w.position = p ∧ n.isName = true ∧ n.text = name ∧
      x.kind = .keyword .actions := by
  have hcontroller : IsRun "controller".toList := by decide
  have hactions : IsRun "actions".toList := by decide
  have hword : wordKind "controller".toList = .keyword .controller := by decide
  have hword' : wordKind "actions".toList = .keyword .actions := by decide
  have hline := Scans.word_blank (p := p) hcontroller Text.isBlank_space (.word_blank hn.1
    Text.isBlank_space (.word_blank hactions Text.isBlank_newline (.nil _ rest)))
  exact ⟨_, _, _, hline, hword, rfl, hn.2, rfl, hword'⟩

theorem scans_closingLine (p : Position) (rest : List Char) :
    ∃ ts, Scans p Controller.closingLine ts rest ∧ ts.length = 2 ∧
      ∀ t ∈ ts, t.kind = .keyword .close := by
  have hclose : IsRun "end".toList := by decide
  have hword : wordKind "end".toList = .keyword .close := by decide
  have hline := Scans.word_blank (p := p) hclose Text.isBlank_space
    (.word_blank hclose Text.isBlank_newline (.nil _ rest))
  refine ⟨_, hline, rfl, fun t ht => ?_⟩
  simp only [List.mem_cons, List.not_mem_nil, or_false] at ht
  rcases ht with rfl | rfl <;> exact hword

theorem scans_controller {c : ControllerDecl} {d : Controller} (hc : c.Spelled)
    (hd : c.compile = .ok d) {p : Position} {rest : List Char} {us : List Token}
    (hus : scanFrom "%".toList (p.advance d.sourceLines) rest = .ok us) :
    ∃ ts c', scanFrom "%".toList p (d.sourceLines ++ rest) = .ok ts ∧ IsController ts us c' ∧
      c'.compile = .ok d ∧ c'.isDefault = false ∧ ∀ a ∈ c'.actions, a.isDefault = false := by
  obtain ⟨bs, hbs, h⟩ := bind_eq_ok.1 hd
  cases h
  -- The lines are scanned from the last one up, since each needs the tokens that follow it.
  rw [Controller.sourceLines, Position.advance_append, Position.advance_append] at hus
  obtain ⟨ends, hends, hlength, hclose⟩ := scans_closingLine
    ((p.advance (Controller.openingLine ⟨c.name, bs⟩)).advance (bs.flatMap Action.sourceLine)) rest
  obtain ⟨ts, as', hts, hacts, hcompile, hunmarked⟩ :=
    scans_actions hc.actions hbs (hends us hus)
  obtain ⟨w, n, x, hline, hword, hposition, hname, htext, hactions⟩ :=
    scans_openingLine hc.name bs p
      (bs.flatMap Action.sourceLine ++ (Controller.closingLine ++ rest))
  refine ⟨_, ⟨n.text, as', false, w.position⟩, ?_, .mk hword hname .absent hactions hacts
    (Nat.le_of_eq hlength) hclose, ?_, rfl, hunmarked⟩
  · rw [Controller.sourceLines, List.append_assoc, List.append_assoc]
    exact hline ts hts
  · rw [htext]
    exact bind_eq_ok.2 ⟨bs, hcompile, rfl⟩

theorem scans_controllers {cs : List ControllerDecl} {ds : List Controller}
    (hcs : ∀ c ∈ cs, c.Spelled) (hds : cs.mapM ControllerDecl.compile = .ok ds) {p : Position}
    {rest : List Char} {us : List Token} {defaults : List DefaultDecl}
    (hus : scanFrom "%".toList (p.advance (ds.flatMap Controller.sourceLines)) rest = .ok us)
    (hsource : IsSource us ⟨[], defaults⟩) :
    ∃ ts cs', scanFrom "%".toList p (ds.flatMap Controller.sourceLines ++ rest) = .ok ts ∧
      IsSource ts ⟨cs', defaults⟩ ∧ cs'.mapM ControllerDecl.compile = .ok ds ∧
      ∀ c ∈ cs', c.isDefault = false ∧ ∀ a ∈ c.actions, a.isDefault = false := by
  induction cs generalizing ds p with
  | nil =>
    obtain rfl := mapM_nil_eq_ok.1 hds
    exact ⟨us, [], hus, hsource, rfl, by simp⟩
  | cons c cs ih =>
    obtain ⟨d, ds, hd, hds', rfl⟩ := mapM_cons_eq_ok.1 hds
    rw [List.forall_mem_cons] at hcs
    rw [List.flatMap_cons, Position.advance_append] at hus
    obtain ⟨ts, cs', hts, hsource', hcompile, hunmarked⟩ := ih hcs.2 hds' hus
    obtain ⟨ts', c', hts', hcontroller, hd', hdefault, hactions⟩ := scans_controller hcs.1 hd hts
    refine ⟨ts', c' :: cs', ?_, .controller hcontroller hsource', ?_, ?_⟩
    · rw [List.flatMap_cons, List.append_assoc]
      exact hts'
    · exact mapM_cons_eq_ok.2 ⟨d, ds, hd', hcompile, rfl⟩
    · exact List.forall_mem_cons.2 ⟨⟨hdefault, hactions⟩, hunmarked⟩

theorem scans_defaultLine {t : Target} (hc : SpellsName t.controller) (ha : SpellsName t.action)
    (p : Position) : ∃ ts, scanFrom "%".toList p t.defaultLine = .ok ts ∧
      IsSource ts ⟨[], [⟨t.controller, t.action, p⟩]⟩ := by
  have hdefault : IsRun "default".toList := by decide
  have haction : IsRun "action".toList := by decide
  have hword : wordKind "default".toList = .keyword .default := by decide
  have hword' : wordKind "action".toList = .keyword .action := by decide
  have htext : t.hashText.toList ++ ['\n'] =
      t.controller.toList ++ ('#' :: (t.action.toList ++ ['\n'])) := by
    simp [Target.hashText]
  have hline := Scans.word_blank (p := p) hdefault Text.isBlank_space
    (.word_blank haction Text.isBlank_space ((Scans.run hc.1 rfl).append (Scans.hash.cons
      (.word_blank ha.1 Text.isBlank_newline (.nil _ [])))))
  have hscan := hline _ (scanFrom_done rfl)
  rw [List.append_nil, ← htext] at hscan
  have hcontroller : ∀ q, (ofRun q t.controller).isName = true := fun _ => hc.2
  have hname : ∀ q, (ofRun q t.action).isName = true := fun _ => ha.2
  exact ⟨_, hscan, .default (.mk hword hword' (hcontroller _) rfl (hname _)) (.done rfl)⟩

end Token

theorem mem_of_mem_dropRepeats {t : Target} {ts : List Target} (h : t ∈ dropRepeats ts) :
    t ∈ ts := by
  fun_induction dropRepeats ts with
  | case1 a rest ih => exact List.mem_cons_of_mem a (ih h)
  | case2 a b rest hne ih =>
    rcases List.mem_cons.1 h with rfl | h
    · exact List.mem_cons_self
    · exact List.mem_cons_of_mem a (ih h)
  | case3 => exact h

theorem ControllerDecl.Spelled.marks {c : ControllerDecl} (hc : c.Spelled) {ts : List Target}
    (h : c.marks = .ok ts) : ∀ t ∈ ts, SpellsName t.controller ∧ SpellsName t.action := by
  have hinner : ∀ t ∈ (c.actions.filter (·.isDefault)).map (fun a => Target.mk c.name a.name),
      SpellsName t.controller ∧ SpellsName t.action := by
    intro t ht
    obtain ⟨a, ha, rfl⟩ := List.mem_map.1 ht
    exact ⟨hc.name, (hc.actions a (List.mem_filter.1 ha).1).name⟩
  unfold ControllerDecl.marks at h
  split at h
  · split at h
    · cases h
    · rename_i a as hacts
      cases h
      exact List.forall_mem_cons.2 ⟨⟨hc.name, (hc.actions a (by simp [hacts])).name⟩, hinner⟩
  · cases h
    exact hinner

theorem ControllerDecl.marks_of_unmarked {c : ControllerDecl} (hc : c.isDefault = false)
    (ha : ∀ a ∈ c.actions, a.isDefault = false) : c.marks = .ok [] := by
  have hnone : c.actions.filter (·.isDefault) = [] := by
    simpa [List.filter_eq_nil_iff] using ha
  simp [marks, hc, hnone]

theorem spelled_of_mapM_marks {cs : List ControllerDecl} (hcs : ∀ c ∈ cs, c.Spelled)
    {ms : List (List Target)} (h : cs.mapM ControllerDecl.marks = .ok ms) :
    ∀ t ∈ ms.flatten, SpellsName t.controller ∧ SpellsName t.action := by
  induction cs generalizing ms with
  | nil =>
    obtain rfl := mapM_nil_eq_ok.1 h
    simp
  | cons c cs ih =>
    obtain ⟨m, ms, hm, hms, rfl⟩ := mapM_cons_eq_ok.1 h
    rw [List.forall_mem_cons] at hcs
    intro t ht
    rcases List.mem_append.1 (List.flatten_cons ▸ ht) with ht | ht
    · exact hcs.1.marks hm t ht
    · exact ih hcs.2 hms t ht

theorem mapM_marks_of_unmarked {cs : List ControllerDecl}
    (hcs : ∀ c ∈ cs, c.isDefault = false ∧ ∀ a ∈ c.actions, a.isDefault = false) :
    ∃ ms, cs.mapM ControllerDecl.marks = .ok ms ∧ ms.flatten = [] := by
  induction cs with
  | nil => exact ⟨[], rfl, rfl⟩
  | cons c cs ih =>
    rw [List.forall_mem_cons] at hcs
    obtain ⟨ms, hms, hnil⟩ := ih hcs.2
    exact ⟨[] :: ms, mapM_cons_eq_ok.2
      ⟨[], ms, ControllerDecl.marks_of_unmarked hcs.1.1 hcs.1.2, hms, rfl⟩, hnil⟩

theorem Declarations.Spelled.default {ds : Declarations} (hds : ds.Spelled) {t : Target}
    (h : ds.defaultTarget = .ok (some t)) : SpellsName t.controller ∧ SpellsName t.action := by
  unfold Declarations.defaultTarget at h
  split at h
  · rename_i only heq
    cases h
    have hd := hds.defaults only (by simp [heq])
    exact ⟨hd.controller, hd.action⟩
  · cases h
  · obtain ⟨ms, hms, h⟩ := bind_eq_ok.1 h
    split at h
    · cases h
    · rename_i only heq
      cases h
      refine spelled_of_mapM_marks hds.controllers hms t (mem_of_mem_dropRepeats ?_)
      rw [heq]
      exact List.mem_singleton_self t
    · cases h

theorem Token.scans_default {default : Option Target}
    (hd : ∀ t, default = some t → SpellsName t.controller ∧ SpellsName t.action) (p : Position) :
    ∃ ts defaults, scanFrom "%".toList p ((default.map Target.defaultLine).getD []) = .ok ts ∧
      Grammar.IsSource ts ⟨[], defaults⟩ ∧
      defaults.map (fun d => Target.mk d.controller d.action) = default.toList := by
  cases default with
  | none => exact ⟨_, [], scanFrom_done rfl, .done rfl, rfl⟩
  | some t =>
    obtain ⟨hc, ha⟩ := hd t rfl
    obtain ⟨ts, hts, hsource⟩ := scans_defaultLine hc ha p
    exact ⟨ts, _, hts, hsource, rfl⟩

theorem Declarations.defaultTarget_of_unmarked {ds : Declarations} {default : Option Target}
    (hcs : ∀ c ∈ ds.controllers, c.isDefault = false ∧ ∀ a ∈ c.actions, a.isDefault = false)
    (hd : ds.defaults.map (fun d => Target.mk d.controller d.action) = default.toList) :
    ds.defaultTarget = .ok default := by
  obtain ⟨ms, hms, hnil⟩ := mapM_marks_of_unmarked hcs
  unfold defaultTarget
  cases default with
  | none =>
    rw [Option.toList_none, List.map_eq_nil_iff] at hd
    rw [hd]
    exact bind_eq_ok.2 ⟨ms, hms, by rw [hnil]; rfl⟩
  | some t =>
    obtain ⟨only, hdefaults, rfl⟩ : ∃ only, ds.defaults = [only] ∧
        Target.mk only.controller only.action = t := by
      simpa [List.map_eq_singleton_iff] using hd
    rw [hdefaults]

/-- The listing of what declarations are compiled to holds other declarations, which have no marks
and are compiled to the same. -/
theorem Declarations.Spelled.exists_ofSource {ds : Declarations} (hds : ds.Spelled)
    {d : RouteData} (h : ds.compile = .ok d) :
    ∃ ds', Declarations.ofSource d.sourceText = .ok ds' ∧ ds'.compile = .ok d := by
  obtain ⟨bs, hbs, h⟩ := bind_eq_ok.1 h
  obtain ⟨default, hdefault, h⟩ := bind_eq_ok.1 h
  cases h
  obtain ⟨us, defaults, hus, hsource, hdefaults⟩ := Token.scans_default
    (fun t ht => hds.default (hdefault.trans (congrArg _ ht)))
    (Position.start.advance (bs.flatMap Controller.sourceLines))
  obtain ⟨ts, cs, hts, hsource', hcompile, hunmarked⟩ :=
    Token.scans_controllers hds.controllers hbs hus hsource
  have htext : (RouteData.sourceText ⟨bs, default⟩).toList =
      bs.flatMap Controller.sourceLines ++ (default.map Target.defaultLine).getD [] :=
    String.toList_ofList
  have hscan : Token.scan (RouteData.sourceText ⟨bs, default⟩) = .ok ts := by
    rw [Token.scan, Token.scanWith, htext]
    exact hts
  have htarget : Declarations.defaultTarget ⟨cs, defaults⟩ = .ok default :=
    defaultTarget_of_unmarked hunmarked hdefaults
  exact ⟨⟨cs, defaults⟩, ofSource_eq_ok_iff.2 ⟨ts, hscan, hsource'⟩,
    bind_eq_ok.2 ⟨bs, hcompile, bind_eq_ok.2 ⟨default, htarget, rfl⟩⟩⟩

/-- A source of the data that another source is compiled to, written out from the data alone. -/
theorem RouteData.ofSource_sourceText {source : String} {d : RouteData}
    (h : RouteData.ofSource source = .ok d) : RouteData.ofSource d.sourceText = .ok d := by
  simp only [RouteData.ofSource, bind_eq_ok, mapError_eq_ok] at h ⊢
  obtain ⟨ds, hds, hd⟩ := h
  exact (Declarations.spelled_of_ofSource hds).exists_ofSource hd

/-- Keywords stand for names here, and the default is marked twice. -/
def keywordSource : String :=
  "controller get :default actions int <- Post end/-x/2024/:string(int)/ :default"

def keywordRoutes : RouteData :=
  ⟨[⟨"get", [⟨"int", "POST", [.literal "end", .literal "-x", .literal "2024", .capture .int],
    ["string"]⟩]⟩], some ⟨"get", "int"⟩⟩

theorem ofSource_sourceText_keywordRoutes : RouteData.ofSource keywordSource = .ok keywordRoutes ∧
    RouteData.ofSource keywordRoutes.sourceText = .ok keywordRoutes := by
  have hread : (RouteData.ofSource keywordSource).toOption = some keywordRoutes := by
    decide +kernel
  have hok := toOption_eq_some_iff.1 hread
  exact ⟨hok, RouteData.ofSource_sourceText hok⟩

example : keywordRoutes.sourceText = "controller get actions\n" ++
    "int <- POST /end/-x/2024/<string:int>\n" ++ "end end\n" ++ "default action get#int\n" := by
  decide

end Routes
