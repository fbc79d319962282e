import Routes.Proofs.Declaration.Spelling
/-!
Streams of tokens that are read alike. Two streams are alike if their tokens have the same kinds and
texts and the same of them touch, where a parameter in one stream may stand in brackets and in the
other behind a colon. Main statement: the grammar derives the same declarations from them, but for
the places.
-/
namespace Routes

section Unplaced

/-! Declarations without their places: what a source says, wherever it says it. -/

def ActionDecl.unplaced (a : ActionDecl) : ActionDecl := { a with position := .zero }

def ControllerDecl.unplaced (c : ControllerDecl) : ControllerDecl :=
  ⟨c.name, c.actions.map ActionDecl.unplaced, c.isDefault, .zero⟩

def DefaultDecl.unplaced (d : DefaultDecl) : DefaultDecl := { d with position := .zero }

def Declarations.unplaced (ds : Declarations) : Declarations :=
  ⟨ds.controllers.map ControllerDecl.unplaced, ds.defaults.map DefaultDecl.unplaced⟩

end Unplaced

namespace Grammar

/-- What stands behind two tokens is alike. Of places the grammar sees no more than whether two
neighbours touch. -/
inductive Alike : Token → Token → List Token → List Token → Prop
  | nil {l l'} : Alike l l' [] []
  | same {l l' t t' ts ts'} : t.kind = t'.kind → t.text = t'.text →
      (Adjacent l t ↔ Adjacent l' t') → Alike t t' ts ts' → Alike l l' (t :: ts) (t' :: ts')
  | param {l l' b bs q qs ts ts' part} : b.kind = .symbol .less → q.kind = .symbol .colon →
      IsPart b bs part → IsPart q qs part → (Adjacent l b ↔ Adjacent l' q) →
      Alike (bs.getLastD b) (qs.getLastD q) ts ts' → Alike l l' (b :: (bs ++ ts)) (q :: (qs ++ ts'))

variable {l l' t f : Token} {ts us rest : List Token} {p : UrlPart} {ps : List UrlPart}

/-- Only a parameter in brackets has another notation. -/
theorem Alike.cons (h : Alike l l' (t :: ts) us) (ht : t.kind ≠ .symbol .less) : ∃ t' ts',
    us = t' :: ts' ∧ t.kind = t'.kind ∧ t.text = t'.text ∧ (Adjacent l t ↔ Adjacent l' t') ∧
      Alike t t' ts ts' := by
  cases h with
  | same hk htext hadj h => exact ⟨_, _, rfl, hk, htext, hadj, h⟩
  | param hb => exact absurd hb ht

theorem Alike.append (h : Alike l l' (ts ++ rest) us) (hts : ∀ t ∈ ts, t.kind ≠ .symbol .less) :
    ∃ ts' rest', us = ts' ++ rest' ∧ ts.map Token.kind = ts'.map Token.kind ∧
      Alike (ts.getLastD l) (ts'.getLastD l') rest rest' := by
  induction ts generalizing l l' us with
  | nil => exact ⟨[], us, rfl, rfl, h⟩
  | cons t ts ih =>
    rw [List.forall_mem_cons] at hts
    obtain ⟨t', us', rfl, hk, -, -, h⟩ := Alike.cons h hts.1
    obtain ⟨ts', rest', rfl, hkinds, h⟩ := ih h hts.2
    refine ⟨t' :: ts', rest', rfl, by rw [List.map_cons, List.map_cons, hk, hkinds], ?_⟩
    rwa [List.getLastD_cons, List.getLastD_cons]

theorem Alike.append_left (us : List Token) {ts' : List Token}
    (h : Alike (us.getLastD l) (us.getLastD l) ts ts') : Alike l l (us ++ ts) (us ++ ts') := by
  induction us generalizing l with
  | nil => exact h
  | cons u us ih =>
    rw [List.getLastD_cons] at h
    exact .same rfl rfl Iff.rfl (ih h)

theorem IsKind.unique {k k' : ParamKind} (h : IsKind t k) (h' : IsKind t k') : k = k' := by
  cases h with
  | int h => cases h' with
    | int => rfl
    | text h' => cases h.symm.trans h'
  | text h => cases h' with
    | int h' => cases h.symm.trans h'
    | text => rfl

/-- A bracket says which tokens the part behind it has. -/
theorem IsPart.unique {bs rest' : List Token} {p' : UrlPart} (hl : l.kind = .symbol .less)
    (h : IsPart l ts p) (h' : IsPart l bs p') (happend : ts ++ rest = bs ++ rest') :
    ts = bs ∧ p = p' ∧ rest = rest' := by
  have hword : l.isWord = false := by simp [Token.isWord, hl]
  cases h with
  | literal h => simp [hl, hword] at h
  | colon hq | colonKind hq => cases hl.symm.trans hq
  | bracket _ _ hg =>
    cases h' with
    | literal h => simp [hl, hword] at h
    | colon hq | colonKind hq => cases hl.symm.trans hq
    | bracket => simp_all
    | bracketKind _ _ hq =>
      simp only [List.cons_append, List.cons.injEq] at happend
      obtain ⟨-, rfl, -⟩ := happend
      cases hg.symm.trans hq
  | bracketKind _ _ hq hk =>
    cases h' with
    | literal h => simp [hl, hword] at h
    | colon hq | colonKind hq => cases hl.symm.trans hq
    | bracket _ _ hg =>
      simp only [List.cons_append, List.cons.injEq] at happend
      obtain ⟨-, rfl, -⟩ := happend
      cases hq.symm.trans hg
    | bracketKind _ _ _ hk' =>
      simp only [List.cons_append, List.nil_append, List.cons.injEq] at happend
      obtain ⟨rfl, rfl, rfl, rfl, rfl⟩ := happend
      exact ⟨rfl, congrArg _ (hk.unique hk'), rfl⟩

theorem getLastD_append (ts us : List Token) (t : Token) :
    (ts ++ us).getLastD t = us.getLastD (ts.getLastD t) := by
  cases hus : us.getLast? <;> simp [List.getLastD_eq_getLast?, List.getLast?_append, hus]

theorem not_less_of_isWord (h : t.isWord = true) : t.kind ≠ .symbol .less := by
  intro hk
  simp [Token.isWord, hk] at h

theorem not_less_of_isKind {k : ParamKind} (h : IsKind t k) : t.kind ≠ .symbol .less := by
  cases h with
  | int h | text h => simp [h]

theorem IsKind.congr {t' : Token} {k : ParamKind} (h : IsKind t k) (hk : t.kind = t'.kind) :
    IsKind t' k := by
  cases h with
  | int h => exact .int (hk.symm.trans h)
  | text h => exact .text (hk.symm.trans h)

theorem IsPart.alike (h : IsPart f ts p) (ha : Alike l l' (f :: (ts ++ rest)) us) :
    ∃ f' ts' rest', us = f' :: (ts' ++ rest') ∧ IsPart f' ts' p ∧ (Adjacent l f ↔ Adjacent l' f') ∧
      Alike (ts.getLastD f) (ts'.getLastD f') rest rest' := by
  generalize hs : f :: (ts ++ rest) = ss at ha
  cases ha with
  | nil => cases hs
  | param hb _ hbs hqs hadj ha =>
    -- Both say what stands in these brackets, so it is the same parameter.
    obtain ⟨rfl, happend⟩ := List.cons.inj hs
    obtain ⟨rfl, rfl, rfl⟩ := h.unique hb hbs happend
    exact ⟨_, _, _, rfl, hqs, hadj, ha⟩
  | @same _ _ _ f' _ us hf hftext hadj ha =>
    obtain ⟨rfl, rfl⟩ := List.cons.inj hs
    cases h with
    | literal h =>
      refine ⟨f', [], us, rfl, ?_, hadj, ha⟩
      rw [hftext]
      exact .literal (by rwa [← hf, ← Token.isWord_congr hf])
    | bracket hl hn hg =>
      obtain ⟨n', us, rfl, hn', hntext, -, ha⟩ := ha.cons (not_less_of_isWord hn)
      obtain ⟨g', us, rfl, hg', -, -, ha⟩ := ha.cons (by simp [hg])
      refine ⟨f', [n', g'], us, rfl, ?_, hadj, ha⟩
      rw [hntext]
      exact .bracket (hf.symm.trans hl) (Token.isWord_congr hn' ▸ hn) (hg'.symm.trans hg)
    | bracketKind hl hn hq ht hg =>
      obtain ⟨n', us, rfl, hn', hntext, -, ha⟩ := ha.cons (not_less_of_isWord hn)
      obtain ⟨q', us, rfl, hq', -, -, ha⟩ := ha.cons (by simp [hq])
      obtain ⟨t', us, rfl, ht', -, -, ha⟩ := ha.cons (not_less_of_isKind ht)
      obtain ⟨g', us, rfl, hg', -, -, ha⟩ := ha.cons (by simp [hg])
      refine ⟨f', [n', q', t', g'], us, rfl, ?_, hadj, ha⟩
      rw [hntext]
      exact .bracketKind (hf.symm.trans hl) (Token.isWord_congr hn' ▸ hn) (hq'.symm.trans hq)
        (ht.congr ht') (hg'.symm.trans hg)
    | colon hq hn hqn =>
      obtain ⟨n', us, rfl, hn', hntext, hqn', ha⟩ := ha.cons (not_less_of_isWord hn)
      refine ⟨f', [n'], us, rfl, ?_, hadj, ha⟩
      rw [hntext]
      exact .colon (hf.symm.trans hq) (Token.isWord_congr hn' ▸ hn) (hqn'.1 hqn)
    | colonKind hq hn hqn ho hno ht hp =>
      obtain ⟨n', us, rfl, hn', hntext, hqn', ha⟩ := ha.cons (not_less_of_isWord hn)
      obtain ⟨o', us, rfl, ho', -, hno', ha⟩ := ha.cons (by simp [ho])
      obtain ⟨t', us, rfl, ht', -, -, ha⟩ := ha.cons (not_less_of_isKind ht)
      obtain ⟨p', us, rfl, hp', -, -, ha⟩ := ha.cons (by simp [hp])
      refine ⟨f', [n', o', t', p'], us, rfl, ?_, hadj, ha⟩
      rw [hntext]
      exact .colonKind (hf.symm.trans hq) (Token.isWord_congr hn' ▸ hn) (hqn'.1 hqn)
        (ho'.symm.trans ho) (hno'.1 hno) (ht.congr ht') (hp'.symm.trans hp)

/-- The tokens at the end of two tails are slashes both or not at all. -/
theorem IsTail.alike (h : IsTail l ts ps) (ha : Alike l l' (ts ++ rest) us)
    (hl : l.kind ≠ .symbol .slash) (hl' : l'.kind ≠ .symbol .slash) :
    ∃ ts' rest', us = ts' ++ rest' ∧ IsTail l' ts' ps ∧
      ((ts.getLastD l).kind = .symbol .slash ↔ (ts'.getLastD l').kind = .symbol .slash) ∧
      Alike (ts.getLastD l) (ts'.getLastD l') rest rest' := by
  induction h generalizing l' us with
  | done => exact ⟨[], us, rfl, .done, iff_of_false hl hl', ha⟩
  | @slash _ s hs hadj =>
    obtain ⟨s', us, rfl, hs', -, hadj', ha⟩ := ha.cons (by simp [hs])
    have hslash := hs'.symm.trans hs
    exact ⟨[s'], us, rfl, .slash hslash (hadj'.1 hadj), iff_of_true hs hslash, ha⟩
  | @more _ s f fs part rest _ hs hadj hadj₂ hp _ ih =>
    rw [List.cons_append, List.cons_append, List.append_assoc] at ha
    obtain ⟨s', us, rfl, hs', -, hadj', ha⟩ := ha.cons (by simp [hs])
    obtain ⟨f', fs', us, rfl, hp', hadj₂', ha⟩ := hp.alike ha
    obtain ⟨ts', rest', rfl, htail, hend, ha⟩ := ih ha hp.last hp'.last
    refine ⟨s' :: f' :: (fs' ++ ts'), rest', by simp, ?_, ?_, ?_⟩
    · exact .more (hs'.symm.trans hs) (hadj'.1 hadj) (hadj₂'.1 hadj₂) hp' htail
    · simpa only [List.getLastD_cons, getLastD_append] using hend
    · simpa only [List.getLastD_cons, getLastD_append] using ha

theorem IsUrl.alike {u : Url} (h : IsUrl ts u) (ha : Alike l l' (ts ++ rest) us) :
    ∃ ts' rest', us = ts' ++ rest' ∧ IsUrl ts' u ∧
      ((ts.getLastD l).kind = .symbol .slash ↔ (ts'.getLastD l').kind = .symbol .slash) ∧
      Alike (ts.getLastD l) (ts'.getLastD l') rest rest' := by
  cases h with
  | root hs =>
    obtain ⟨s', us, rfl, hs', -, -, ha⟩ := ha.cons (by simp [hs])
    exact ⟨[s'], us, rfl, .root (hs'.symm.trans hs), iff_of_true hs (hs'.symm.trans hs), ha⟩
  | absolute hs hadj hp ht =>
    rw [List.cons_append, List.cons_append, List.append_assoc] at ha
    obtain ⟨s', us, rfl, hs', -, -, ha⟩ := ha.cons (by simp [hs])
    obtain ⟨f', fs', us, rfl, hp', hadj', ha⟩ := hp.alike ha
    obtain ⟨ts', rest', rfl, htail, hend, ha⟩ := ht.alike ha hp.last hp'.last
    refine ⟨s' :: f' :: (fs' ++ ts'), rest', by simp, ?_, ?_, ?_⟩
    · exact .absolute (hs'.symm.trans hs) (hadj'.1 hadj) hp' htail
    · simpa only [List.getLastD_cons, getLastD_append] using hend
    · simpa only [List.getLastD_cons, getLastD_append] using ha
  | relative hp ht =>
    rw [List.cons_append, List.append_assoc] at ha
    obtain ⟨f', fs', us, rfl, hp', -, ha⟩ := hp.alike ha
    obtain ⟨ts', rest', rfl, htail, hend, ha⟩ := ht.alike ha hp.last hp'.last
    refine ⟨f' :: (fs' ++ ts'), rest', by simp, .relative hp' htail, ?_, ?_⟩
    · simpa only [List.getLastD_cons, getLastD_append] using hend
    · simpa only [List.getLastD_cons, getLastD_append] using ha

theorem Alike.head? (h : Alike l l' rest us) {next' : Token} (hnext : next' ∈ us.head?) :
    ∃ next ∈ rest.head?, (Adjacent l next ↔ Adjacent l' next') ∧
      next.startsPart = next'.startsPart := by
  cases h with
  | nil => cases hnext
  | same hk _ hadj =>
    cases hnext
    exact ⟨_, rfl, hadj, by simp [Token.startsPart, Token.isWord, hk]⟩
  | param hb hq hbs hqs hadj =>
    cases hnext
    exact ⟨_, rfl, hadj, hbs.startsPart.trans hqs.startsPart.symm⟩

theorem Greedy.alike {ts' : List Token} (h : Greedy ts rest)
    (hend : (ts.getLastD l).kind = .symbol .slash ↔ (ts'.getLastD l').kind = .symbol .slash)
    (hne : ts ≠ []) (ha : Alike (ts.getLastD l) (ts'.getLastD l') rest us) : Greedy ts' us := by
  intro last' hlast' hslash next' hnext' hadj'
  have hlast : ts'.getLastD l' = last' := by
    rw [List.getLastD_eq_getLast?, Option.mem_def.1 hlast', Option.getD_some]
  rw [hlast] at hend ha
  obtain ⟨next, hnext, hadj, hstarts⟩ := ha.head? hnext'
  have hmem : ts.getLastD l ∈ ts.getLast? := by
    rw [List.getLastD_eq_getLast?, List.getLast?_eq_some_getLast hne]
    rfl
  rw [← hstarts]
  exact h _ hmem (hend.2 hslash) next hnext (hadj.2 hadj')

theorem IsMark.not_less {d : Bool} (h : IsMark ts d) : ∀ t ∈ ts, t.kind ≠ .symbol .less := by
  cases h with
  | absent => simp
  | present hm => simp [hm]

theorem IsMark.congr {ts' : List Token} {d : Bool} (h : IsMark ts d)
    (hkinds : ts.map Token.kind = ts'.map Token.kind) : IsMark ts' d := by
  cases h with
  | absent =>
    obtain rfl := List.map_eq_nil_iff.1 hkinds.symm
    exact .absent
  | present hm =>
    obtain ⟨m', rfl, hm'⟩ := List.map_eq_singleton_iff.1 hkinds.symm
    exact .present (hm'.trans hm)

theorem not_less_of_isName (h : t.isName = true) : t.kind ≠ .symbol .less :=
  not_less_of_isWord (Token.isWord_of_isName h)

theorem IsUrl.ne_nil {u : Url} (h : IsUrl ts u) : ts ≠ [] := by
  cases h <;> exact List.cons_ne_nil _ _

theorem IsAction.alike {a : ActionDecl} (h : IsAction ts rest a) (ha : Alike l l' ts us) :
    ∃ rest' a' m m', IsAction us rest' a' ∧ a'.unplaced = a.unplaced ∧ Alike m m' rest rest' := by
  cases h with
  | @mk n w v url mark _ verb u isDefault hn hw hv hurl hgreedy hmark =>
    obtain ⟨n', us, rfl, hn', hntext, -, ha⟩ := ha.cons (not_less_of_isName hn)
    obtain ⟨w', us, rfl, hw', -, -, ha⟩ := ha.cons (by simp [hw])
    obtain ⟨v', us, rfl, hv', -, -, ha⟩ := ha.cons fun hless => by simp [Cursor.verb?, hless] at hv
    obtain ⟨url', us, rfl, hurl', hend, ha⟩ := hurl.alike ha
    have hgreedy' := hgreedy.alike hend hurl.ne_nil ha
    obtain ⟨mark', rest', rfl, hkinds, ha⟩ := ha.append hmark.not_less
    have hverb : Cursor.verb? v' = some verb := by rwa [Cursor.verb?, ← hv']
    refine ⟨rest', _, _, _, .mk (Token.isName_congr hn' ▸ hn) (hw'.symm.trans hw) hverb hurl'
      hgreedy' (hmark.congr hkinds), ?_, ha⟩
    rw [ActionDecl.unplaced, ActionDecl.unplaced, hntext]

theorem IsActions.alike {as : List ActionDecl} (h : IsActions ts rest as) (ha : Alike l l' ts us) :
    ∃ rest' as' m m', IsActions us rest' as' ∧
      as'.map ActionDecl.unplaced = as.map ActionDecl.unplaced ∧ Alike m m' rest rest' := by
  induction h generalizing l l' us with
  | nil => exact ⟨us, [], l, l', .nil, rfl, ha⟩
  | cons haction _ ih =>
    obtain ⟨us', a', m, m', haction', hunplaced, ha⟩ := haction.alike ha
    obtain ⟨rest', as', m, m', hactions', hunplaced', ha⟩ := ih ha
    refine ⟨rest', a' :: as', m, m', .cons haction' hactions', ?_, ha⟩
    rw [List.map_cons, List.map_cons, hunplaced, hunplaced']

theorem IsController.alike {d : ControllerDecl} (h : IsController ts rest d)
    (ha : Alike l l' ts us) : ∃ rest' d' m m', IsController us rest' d' ∧
      d'.unplaced = d.unplaced ∧ Alike m m' rest rest' := by
  cases h with
  | @mk w n mark x _ ends _ as isDefault hw hn hmark hx hacts hlength hends =>
    obtain ⟨w', us, rfl, hw', -, -, ha⟩ := ha.cons (by simp [hw])
    obtain ⟨n', us, rfl, hn', hntext, -, ha⟩ := ha.cons (not_less_of_isName hn)
    obtain ⟨mark', us, rfl, hkinds, ha⟩ := ha.append hmark.not_less
    obtain ⟨x', us, rfl, hx', -, -, ha⟩ := ha.cons (by simp [hx])
    obtain ⟨us', as', m, m', hacts', hunplaced, ha⟩ := hacts.alike ha
    obtain ⟨ends', rest', rfl, hkinds', ha⟩ := ha.append fun t ht => by simp [hends t ht]
    have hlength' : ends'.length ≤ 2 := by
      have heq := congrArg List.length hkinds'
      rw [List.length_map, List.length_map] at heq
      rwa [← heq]
    have hends' : ∀ e ∈ ends', e.kind = .keyword .close := by
      intro e' he'
      have hmem : e'.kind ∈ ends'.map Token.kind := List.mem_map_of_mem he'
      rw [← hkinds'] at hmem
      obtain ⟨e, he, hk⟩ := List.mem_map.1 hmem
      exact hk.symm.trans (hends e he)
    refine ⟨rest', _, _, _, .mk (hw'.symm.trans hw) (Token.isName_congr hn' ▸ hn)
      (hmark.congr hkinds) (hx'.symm.trans hx) hacts' hlength' hends', ?_, ha⟩
    rw [ControllerDecl.unplaced, ControllerDecl.unplaced, hntext, hunplaced]

theorem IsDefault.alike {d : DefaultDecl} (h : IsDefault ts rest d) (ha : Alike l l' ts us) :
    ∃ rest' d' m m', IsDefault us rest' d' ∧ d'.unplaced = d.unplaced ∧ Alike m m' rest rest' := by
  cases h with
  | mk hw hx hc hh hact =>
    obtain ⟨w', us, rfl, hw', -, -, ha⟩ := ha.cons (by simp [hw])
    obtain ⟨x', us, rfl, hx', -, -, ha⟩ := ha.cons (by simp [hx])
    obtain ⟨c', us, rfl, hc', hctext, -, ha⟩ := ha.cons (not_less_of_isName hc)
    obtain ⟨h', us, rfl, hh', -, -, ha⟩ := ha.cons (by simp [hh])
    obtain ⟨a', us, rfl, ha', hatext, -, ha⟩ := ha.cons (not_less_of_isName hact)
    refine ⟨us, _, _, _, .mk (hw'.symm.trans hw) (hx'.symm.trans hx) (Token.isName_congr hc' ▸ hc)
      (hh'.symm.trans hh) (Token.isName_congr ha' ▸ hact), ?_, ha⟩
    rw [DefaultDecl.unplaced, DefaultDecl.unplaced, hctext, hatext]

/-- Streams that are alike declare the same, each at its own places. -/
theorem IsSource.alike {ds : Declarations} (h : IsSource ts ds) (ha : Alike l l' ts us) :
    ∃ ds', IsSource us ds' ∧ ds'.unplaced = ds.unplaced := by
  induction h generalizing l l' us with
  | done he =>
    obtain ⟨e', us, rfl, he', -, -, ha⟩ := ha.cons (by simp [he])
    cases ha
    exact ⟨_, .done (he'.symm.trans he), rfl⟩
  | controller hd _ ih =>
    obtain ⟨us', d', m, m', hd', hunplaced, ha⟩ := hd.alike ha
    obtain ⟨ds', hs', hunplaced'⟩ := ih ha
    refine ⟨_, .controller hd' hs', ?_⟩
    simp only [Declarations.unplaced, Declarations.mk.injEq, List.map_cons] at hunplaced' ⊢
    rw [hunplaced, hunplaced'.1, hunplaced'.2]
    exact ⟨rfl, rfl⟩
  | default hd _ ih =>
    obtain ⟨us', d', m, m', hd', hunplaced, ha⟩ := hd.alike ha
    obtain ⟨ds', hs', hunplaced'⟩ := ih ha
    refine ⟨_, .default hd' hs', ?_⟩
    simp only [Declarations.unplaced, Declarations.mk.injEq, List.map_cons] at hunplaced' ⊢
    rw [hunplaced, hunplaced'.1, hunplaced'.2]
    exact ⟨rfl, rfl⟩

end Grammar
end Routes
