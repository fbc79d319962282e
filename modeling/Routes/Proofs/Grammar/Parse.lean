import Routes.Proofs.Grammar
import Routes.Proofs.Token.Cursor
/-!
Reading declarations from tokens follows the grammar. Main statement: a stream is read as some
declarations exactly when the grammar derives them from it.
-/
namespace Routes
namespace Cursor
open Grammar
variable {c c' c₀ : Cursor}

theorem touches_iff {f : Token} {ts : List Token} (h : c₀.Reads (f :: ts) c) :
    c.touches = true ↔ Adjacent (ts.getLastD f) c.peek := by
  have hb : c.before = some (ts.getLastD f).endOffset := by
    rw [h.before, List.getLast?_cons, List.getLastD_eq_getLast?]
    rfl
  rw [touches, hb, beq_iff_eq, Option.some.injEq, Adjacent, eq_comm]

/-- A token of a kind that stands directly behind what has been read. -/
theorem reads_of_touches {f : Token} {ts : List Token} {k : Token.Kind} (hr : c₀.Reads (f :: ts) c)
    (h : (c.touches && c.sees k) = true) :
    ∃ t, t.kind = k ∧ Adjacent (ts.getLastD f) t ∧ c.Reads [t] (c.skip k).2 := by
  rw [Bool.and_eq_true] at h
  obtain ⟨t, c', hk, ht⟩ := sees_eq_true_iff.1 h.2
  have hadj := (touches_iff hr).1 h.1
  rw [peek_of_reads ht] at hadj
  rw [skip_of_reads ht hk]
  exact ⟨t, hk, hadj, ht⟩

theorem touches_of_reads {f t : Token} {ts us : List Token} (hr : c₀.Reads (f :: ts) c)
    (ht : c.Reads (t :: us) c') (hadj : Adjacent (ts.getLastD f) t) : c.touches = true :=
  (touches_iff hr).2 (by rwa [peek_of_reads ht])

theorem paramKind_eq_ok_iff {k : ParamKind} :
    c.paramKind = .ok (k, c') ↔ ∃ t, IsKind t k ∧ c.Reads [t] c' := by
  constructor
  · intro h
    unfold paramKind at h
    split at h
    · rename_i hint
      obtain ⟨t, c₁, hk, hr⟩ := sees_eq_true_iff.1 hint
      rw [skip_of_reads hr hk] at h
      cases h
      exact ⟨t, .int hk, hr⟩
    · split at h
      · rename_i htext
        obtain ⟨t, c₁, hk, hr⟩ := sees_eq_true_iff.1 htext
        rw [skip_of_reads hr hk] at h
        cases h
        exact ⟨t, .text hk, hr⟩
      · cases h
  · rintro ⟨t, hk, hr⟩
    have hsees := sees_of_reads hr
    have hpeek := peek_of_reads hr
    cases hk with
    | int hk =>
      rw [hk] at hsees
      simp [paramKind, hsees, skip_of_reads hr hk]
    | text hk =>
      have hnot : c.sees (.keyword .int) = false := not_sees_of_peek (by simp [hpeek, hk])
      rw [hk] at hsees
      simp [paramKind, hsees, hnot, skip_of_reads hr hk]

theorem kindAfterColon_eq_ok_iff {k : ParamKind} : c.kindAfterColon = .ok (k, c') ↔
    (∃ q t, q.kind = .symbol .colon ∧ IsKind t k ∧ c.Reads [q, t] c') ∨
      (k = .text ∧ c' = c ∧ c.sees (.symbol .colon) = false) := by
  cases hsees : c.sees (.symbol .colon) with
  | true =>
    obtain ⟨q, c₁, hq, hr⟩ := sees_eq_true_iff.1 hsees
    simp only [kindAfterColon, skip_of_reads hr hq, if_pos, paramKind_eq_ok_iff]
    constructor
    · rintro ⟨t, hk, ht⟩
      exact .inl ⟨q, t, hq, hk, hr.trans ht⟩
    · rintro (⟨q', t, -, hk, hqt⟩ | ⟨-, -, hnot⟩)
      · obtain ⟨c₂, hr', ht⟩ := hqt.cons
        have heq : q' = q := (peek_of_reads hr').symm.trans (peek_of_reads hr)
        cases heq
        cases hr.unique hr'
        exact ⟨t, hk, ht⟩
      · cases hnot
  | false =>
    simp only [kindAfterColon, skip_of_not_sees hsees, Bool.false_eq_true, if_false,
      Except.ok.injEq, Prod.mk.injEq, and_true]
    constructor
    · rintro ⟨rfl, rfl⟩
      exact .inr ⟨rfl, rfl⟩
    · rintro (⟨q, t, hq, -, hqt⟩ | ⟨rfl, rfl⟩)
      · have := sees_of_reads hqt
        rw [hq, hsees] at this
        cases this
      · exact ⟨rfl, rfl⟩

theorem bracketParam_eq_ok {p : UrlPart} (h : c.bracketParam = .ok (p, c')) {l : Token}
    (hl : l.kind = .symbol .less) : ∃ ts, IsPart l ts p ∧ c.Reads ts c' := by
  simp only [bracketParam, bind_eq_ok, pure_eq_ok] at h
  obtain ⟨⟨n, c₁⟩, hn, ⟨k, c₂⟩, hk, ⟨g, c₃⟩, hg, h⟩ := h
  cases h
  obtain ⟨hword, hr⟩ := takeIf_eq_ok_iff.1 hn
  obtain ⟨hgreater, hr'⟩ := take_eq_ok_iff.1 hg
  rcases kindAfterColon_eq_ok_iff.1 hk with ⟨q, t, hq, ht, hqt⟩ | ⟨rfl, rfl, -⟩
  · exact ⟨[n, q, t, g], .bracketKind hl hword hq ht hgreater, (hr.trans hqt).trans hr'⟩
  · exact ⟨[n, g], .bracket hl hword hgreater, hr.trans hr'⟩

theorem colonParam_eq_ok {p : UrlPart} (h : c.colonParam = .ok (p, c')) {q : Token}
    (hq : q.kind = .symbol .colon) (hr : c₀.Reads [q] c) :
    ∃ ts, IsPart q ts p ∧ c.Reads ts c' := by
  unfold colonParam at h
  split at h
  · cases h
  · rename_i htouch
    obtain ⟨⟨n, c₁⟩, hn, h⟩ := bind_eq_ok.1 h
    obtain ⟨hword, hr₁⟩ := takeIf_eq_ok_iff.1 hn
    have hadj : Adjacent q n := by
      have := (touches_iff hr).1 (by simpa using htouch)
      rwa [peek_of_reads hr₁] at this
    simp only at h
    split at h
    · rename_i hopen
      obtain ⟨o, ho, hadj', hr₂⟩ := reads_of_touches hr₁ hopen
      simp only [bind_eq_ok, pure_eq_ok] at h
      obtain ⟨⟨k, c₃⟩, hk, ⟨p', c₄⟩, hp, h⟩ := h
      obtain ⟨t, ht, hr₃⟩ := paramKind_eq_ok_iff.1 hk
      obtain ⟨hclose, hr₄⟩ := take_eq_ok_iff.1 hp
      cases h
      exact ⟨[n, o, t, p'], .colonKind hq hword hadj ho hadj' ht hclose,
        ((hr₁.trans hr₂).trans hr₃).trans hr₄⟩
    · cases h
      exact ⟨[n], .colon hq hword hadj, hr₁⟩

theorem urlPart_eq_ok {p : UrlPart} (h : c.urlPart = .ok (p, c')) :
    ∃ f ts, IsPart f ts p ∧ c.Reads (f :: ts) c' := by
  obtain ⟨⟨f, c₁⟩, hf, h⟩ := bind_eq_ok.1 h
  obtain ⟨hstarts, hr⟩ := takeIf_eq_ok_iff.1 hf
  simp only at h
  split at h
  · rename_i hless
    obtain ⟨ts, hp, hts⟩ := bracketParam_eq_ok h hless
    exact ⟨f, ts, hp, hr.trans hts⟩
  · rename_i hless
    split at h
    · rename_i hcolon
      obtain ⟨ts, hp, hts⟩ := colonParam_eq_ok h hcolon hr
      exact ⟨f, ts, hp, hr.trans hts⟩
    · rename_i hcolon
      cases h
      refine ⟨f, [], .literal ?_, hr⟩
      unfold Token.startsPart at hstarts
      split at hstarts
      · exact absurd ‹_› hless
      · exact absurd ‹_› hcolon
      · exact .inl ‹_›
      · exact .inr hstarts

/-- A bracket that stands directly behind the name after a colon belongs to the part, so a part is
read only where none is left. -/
theorem urlPart_of_isPart {f : Token} {ts : List Token} {p : UrlPart} (hp : IsPart f ts p)
    (hr : c.Reads (f :: ts) c') (hopen : c'.sees (.symbol .parenOpen) = false) :
    c.urlPart = .ok (p, c') := by
  obtain ⟨c₁, hr₁, hr'⟩ := hr.cons
  have htake : c.takeIf Token.startsPart .url = .ok (f, c₁) :=
    takeIf_eq_ok_iff.2 ⟨hp.startsPart, hr₁⟩
  simp only [urlPart, htake, bind, Except.bind]
  cases hp with
  | literal h =>
    have hkind : f.kind ≠ .symbol .less ∧ f.kind ≠ .symbol .colon := by
      rcases h with h | h
      · simp [h]
      · constructor <;> intro hk <;> simp [Token.isWord, hk] at h
    rw [if_neg hkind.1, if_neg hkind.2, hr'.eq_of_nil]
    rfl
  | bracket hl hn hg =>
    obtain ⟨c₂, hr₂, hr₃⟩ := hr'.cons
    have hnot : c₂.sees (.symbol .colon) = false :=
      not_sees_of_peek (by simp [peek_of_reads hr₃, hg])
    have hkind := kindAfterColon_eq_ok_iff.2 (.inr ⟨rfl, rfl, hnot⟩)
    simp [hl, bracketParam, takeIf_eq_ok_iff.2 ⟨hn, hr₂⟩, hkind, take_eq_ok_iff.2 ⟨hg, hr₃⟩, bind,
      Except.bind, pure, Except.pure]
  | bracketKind hl hn hq ht hg =>
    obtain ⟨c₂, hr₂, hr₃⟩ := hr'.cons
    obtain ⟨c₃, hr₄, hr₅⟩ := hr₃.split [_, _]
    have hkind := kindAfterColon_eq_ok_iff.2 (.inl ⟨_, _, hq, ht, hr₄⟩)
    simp [hl, bracketParam, takeIf_eq_ok_iff.2 ⟨hn, hr₂⟩, hkind, take_eq_ok_iff.2 ⟨hg, hr₅⟩, bind,
      Except.bind, pure, Except.pure]
  | colon hq hn hadj =>
    have htouch := touches_of_reads hr₁ hr' hadj
    simp [hq, colonParam, htouch, takeIf_eq_ok_iff.2 ⟨hn, hr'⟩, hopen, bind, Except.bind, pure,
      Except.pure]
  | colonKind hq hn hadj ho hadj' ht hclose =>
    obtain ⟨c₂, hr₂, hr₃⟩ := hr'.cons
    obtain ⟨c₃, hr₄, hr₅⟩ := hr₃.cons
    obtain ⟨c₄, hr₆, hr₇⟩ := hr₅.cons
    have htouch := touches_of_reads hr₁ hr₂ hadj
    have htouch' := touches_of_reads hr₂ hr₄ hadj'
    have hsees := sees_of_reads hr₄
    rw [ho] at hsees
    simp [hq, colonParam, htouch, takeIf_eq_ok_iff.2 ⟨hn, hr₂⟩, htouch', hsees,
      skip_of_reads hr₄ ho, paramKind_eq_ok_iff.2 ⟨_, ht, hr₆⟩, take_eq_ok_iff.2 ⟨hclose, hr₇⟩,
      bind, Except.bind, pure, Except.pure]

theorem urlParts_eq {p : UrlPart} (h : c.urlPart = .ok (p, c')) :
    c.urlParts =
      if c'.touches && c'.sees (.symbol .slash) then
        let c₂ := (c'.skip (.symbol .slash)).2
        if c₂.touches && c₂.ahead.head?.any Token.startsPart then
          (urlParts c₂).map fun (parts, c₃) => (p :: parts, c₃)
        else .ok ([p], c₂)
      else .ok ([p], c') := by
  rw [urlParts]
  split <;> rename_i he <;> cases h.symm.trans he
  rfl

theorem any_head?_ahead {test : Token → Bool} (h : test c.finish = false) :
    c.ahead.head?.any test = test c.peek := by
  unfold peek
  cases c.ahead with
  | nil => exact h.symm
  | cons t ts => rfl

theorem startsPart_of_finish {t : Token} (h : t.kind = .finish) : t.startsPart = false := by
  simp [Token.startsPart, Token.isWord, h]

theorem greedy_slash_iff {s : Token} (hf : c.finish.kind = .finish) (hs : s.kind = .symbol .slash)
    (hr : c₀.Reads [s] c) :
    Greedy [s] c.stream ↔ (c.touches && c.ahead.head?.any Token.startsPart) = false := by
  rw [any_head?_ahead (startsPart_of_finish hf), Bool.and_eq_false_imp, touches_iff hr]
  simp only [Greedy, List.getLast?_singleton, head?_stream, Option.mem_def, Option.some.injEq,
    forall_eq', hs, true_imp_iff, List.getLastD_nil]

theorem greedy_append_iff {ts us out : List Token} (hu : us ≠ []) :
    Greedy (ts ++ us) out ↔ Greedy us out := by
  have hlast : (ts ++ us).getLast? = us.getLast? := by
    rw [List.getLast?_append, List.getLast?_eq_some_getLast hu, Option.some_or]
  rw [Greedy, hlast, Greedy]

theorem greedy_part_iff {f : Token} {ts rest out : List Token} {p : UrlPart} (hp : IsPart f ts p) :
    Greedy (f :: (ts ++ rest)) out ↔ Greedy rest out := by
  by_cases hr : rest = []
  · subst hr
    refine iff_of_true ?_ (by simp [Greedy])
    intro last hlast hk
    rw [List.append_nil, List.getLast?_cons, Option.mem_def, Option.some.injEq,
      ← List.getLastD_eq_getLast?] at hlast
    exact absurd hk (hlast ▸ hp.last)
  · rw [← List.cons_append, greedy_append_iff hr]

theorem urlParts_eq_ok {ps : List UrlPart} (hf : c.finish.kind = .finish)
    (h : c.urlParts = .ok (ps, c')) : ∃ f ts part rest parts, ps = part :: parts ∧
      IsPart f ts part ∧ IsTail (ts.getLastD f) rest parts ∧ c.Reads (f :: (ts ++ rest)) c' ∧
      Greedy rest c'.stream := by
  fun_induction urlParts c generalizing ps with
  | case1 => cases h
  | case2 c part c₁ hpart hslash c₂ hmore =>
    rename_i ih
    obtain ⟨⟨ps', c₃⟩, hps, heq⟩ := map_eq_ok.1 h
    cases heq
    obtain ⟨f, ts, hp, hr⟩ := urlPart_eq_ok hpart
    rw [Bool.and_eq_true] at hmore
    obtain ⟨s, hs, hadj, hr'⟩ := reads_of_touches hr hslash
    obtain ⟨f', ts', part', rest, parts, rfl, hp', ht, hr'', hm⟩ :=
      ih (by rw [hr'.finish, hr.finish, hf]) hps
    have hadj' := (touches_iff hr').1 hmore.1
    rw [peek_of_reads hr''] at hadj'
    refine ⟨f, ts, part, s :: f' :: (ts' ++ rest), part' :: parts, rfl, hp,
      .more hs hadj hadj' hp' ht, hr.trans (hr'.trans hr''), ?_⟩
    rwa [← List.singleton_append, greedy_append_iff (by simp), greedy_part_iff hp']
  | case3 c part c₁ hpart hslash c₂ =>
    rename_i hmore
    simp only [Except.ok.injEq, Prod.mk.injEq] at h
    obtain ⟨rfl, rfl⟩ := h
    obtain ⟨f, ts, hp, hr⟩ := urlPart_eq_ok hpart
    obtain ⟨s, hs, hadj, hr'⟩ := reads_of_touches hr hslash
    exact ⟨f, ts, part, [s], [], rfl, hp, .slash hs hadj, hr.trans hr',
      (greedy_slash_iff (by rw [hr'.finish, hr.finish, hf]) hs hr').2 (by simpa using hmore)⟩
  | case4 c part c₁ hpart hslash =>
    cases h
    obtain ⟨f, ts, hp, hr⟩ := urlPart_eq_ok hpart
    exact ⟨f, ts, part, [], [], rfl, hp, .done, by rwa [List.append_nil], by simp [Greedy]⟩

theorem urlParts_of_isTail {f last : Token} {ts rest : List Token} {part : UrlPart}
    {parts : List UrlPart} (hp : IsPart f ts part) (ht : IsTail last rest parts)
    (hlast : ts.getLastD f = last) (hr : c.Reads (f :: (ts ++ rest)) c')
    (hf : c.finish.kind = .finish) (hm : Greedy rest c'.stream)
    (hopen : c'.sees (.symbol .parenOpen) = false) (hslash : c'.sees (.symbol .slash) = false) :
    c.urlParts = .ok (part :: parts, c') := by
  -- The first part is read again at each step, so the induction is on what follows it.
  induction ht generalizing c f ts part with
  | done =>
    rw [List.append_nil] at hr
    rw [urlParts_eq (urlPart_of_isPart hp hr hopen), hslash, Bool.and_false]
    rfl
  | slash hs hadj =>
    obtain ⟨c₁, hr₁, hr₂⟩ := hr.split (f :: ts)
    have hopen₁ : c₁.sees (.symbol .parenOpen) = false :=
      not_sees_of_peek (by simp [peek_of_reads hr₂, hs])
    have htouch := touches_of_reads hr₁ hr₂ (hlast ▸ hadj)
    have hsees := sees_of_reads hr₂
    rw [hs] at hsees
    have hf' : c'.finish.kind = .finish := by rw [hr.finish, hf]
    rw [urlParts_eq (urlPart_of_isPart hp hr₁ hopen₁), htouch, hsees, skip_of_reads hr₂ hs]
    simp only [(greedy_slash_iff hf' hs hr₂).1 hm]
    rfl
  | more hs hadj hadj' hp' ht ih =>
    rename_i s f' ts' part' rest parts
    obtain ⟨c₁, hr₁, hr'⟩ := hr.split (f :: ts)
    obtain ⟨c₂, hr₂, hr₃⟩ := hr'.cons
    have hopen₁ : c₁.sees (.symbol .parenOpen) = false :=
      not_sees_of_peek (by simp [peek_of_reads hr₂, hs])
    have htouch := touches_of_reads hr₁ hr₂ (hlast ▸ hadj)
    have htouch' := touches_of_reads hr₂ hr₃ hadj'
    have hsees := sees_of_reads hr₂
    rw [hs] at hsees
    have hf₂ : c₂.finish.kind = .finish := by rw [hr₂.finish, hr₁.finish, hf]
    have hstarts : c₂.ahead.head?.any Token.startsPart = true := by
      simp [hr₃.ahead, hp'.startsPart]
    rw [← List.singleton_append, greedy_append_iff (by simp), greedy_part_iff hp'] at hm
    rw [urlParts_eq (urlPart_of_isPart hp hr₁ hopen₁), htouch, hsees, skip_of_reads hr₂ hs]
    simp only [htouch', hstarts, ih hp' rfl hr₃ hf₂ hm]
    rfl

theorem url_eq_ok {u : Url} (hf : c.finish.kind = .finish) (h : c.url = .ok (u, c')) :
    ∃ ts, IsUrl ts u ∧ c.Reads ts c' ∧ Greedy ts c'.stream := by
  cases hsees : c.sees (.symbol .slash) with
  | true =>
    obtain ⟨s, c₁, hs, hr⟩ := sees_eq_true_iff.1 hsees
    simp only [url, skip_of_reads hr hs, if_pos] at h
    have hf₁ : c₁.finish.kind = .finish := by rw [hr.finish, hf]
    split at h
    · rename_i hmore
      obtain ⟨⟨ps, c₂⟩, hps, heq⟩ := map_eq_ok.1 h
      cases heq
      obtain ⟨f, ts, part, rest, parts, rfl, hp, ht, hr', hm⟩ := urlParts_eq_ok hf₁ hps
      rw [Bool.and_eq_true] at hmore
      have hadj := (touches_iff hr).1 hmore.1
      rw [peek_of_reads hr'] at hadj
      refine ⟨s :: f :: (ts ++ rest), .absolute hs hadj hp ht, hr.trans hr', ?_⟩
      rwa [← List.singleton_append, greedy_append_iff (by simp), greedy_part_iff hp]
    · rename_i hmore
      cases h
      exact ⟨[s], .root hs, hr, (greedy_slash_iff hf₁ hs hr).2 (by simpa using hmore)⟩
  | false =>
    simp only [url, skip_of_not_sees hsees, Bool.false_eq_true, if_false] at h
    obtain ⟨⟨ps, c₂⟩, hps, heq⟩ := map_eq_ok.1 h
    cases heq
    obtain ⟨f, ts, part, rest, parts, rfl, hp, ht, hr, hm⟩ := urlParts_eq_ok hf hps
    exact ⟨f :: (ts ++ rest), .relative hp ht, hr, (greedy_part_iff hp).2 hm⟩

theorem url_of_isUrl {ts : List Token} {u : Url} (hu : IsUrl ts u) (hr : c.Reads ts c')
    (hf : c.finish.kind = .finish) (hm : Greedy ts c'.stream)
    (hopen : c'.sees (.symbol .parenOpen) = false) (hslash : c'.sees (.symbol .slash) = false) :
    c.url = .ok (u, c') := by
  cases hu with
  | root hs =>
    have hf' : c'.finish.kind = .finish := by rw [hr.finish, hf]
    simp only [url, skip_of_reads hr hs, (greedy_slash_iff hf' hs hr).1 hm]
    rfl
  | absolute hs hadj hp ht =>
    obtain ⟨c₁, hr₁, hr₂⟩ := hr.cons
    have hf₁ : c₁.finish.kind = .finish := by rw [hr₁.finish, hf]
    have htouch := touches_of_reads hr₁ hr₂ hadj
    have hstarts : c₁.ahead.head?.any Token.startsPart = true := by
      simp [hr₂.ahead, hp.startsPart]
    rw [← List.singleton_append, greedy_append_iff (by simp), greedy_part_iff hp] at hm
    simp only [url, skip_of_reads hr₁ hs, htouch, hstarts,
      urlParts_of_isTail hp ht rfl hr₂ hf₁ hm hopen hslash]
    rfl
  | relative hp ht =>
    have hnot : c.sees (.symbol .slash) = false := by
      refine not_sees_of_peek fun hk => ?_
      have := hp.startsPart
      simp [Token.startsPart, Token.isWord, ← peek_of_reads hr, hk] at this
    simp only [url, skip_of_not_sees hnot,
      urlParts_of_isTail hp ht rfl hr hf ((greedy_part_iff hp).1 hm) hopen hslash]
    rfl

theorem isMark_skip (c : Cursor) : ∃ mark, IsMark mark (c.skip (.keyword .marker)).1 ∧
    c.Reads mark (c.skip (.keyword .marker)).2 := by
  cases hsees : c.sees (.keyword .marker) with
  | true =>
    obtain ⟨m, c', hm, hr⟩ := sees_eq_true_iff.1 hsees
    rw [skip_of_reads hr hm]
    exact ⟨[m], .present hm, hr⟩
  | false =>
    rw [skip_of_not_sees hsees]
    exact ⟨[], .absent, .nil c⟩

theorem skip_of_isMark {b : Bool} {mark : List Token} (hm : IsMark mark b) (hr : c.Reads mark c')
    (hnot : c'.sees (.keyword .marker) = false) : c.skip (.keyword .marker) = (b, c') := by
  cases hm with
  | absent =>
    cases hr.eq_of_nil
    exact skip_of_not_sees hnot
  | present hk => exact skip_of_reads hr hk

theorem verb_eq_ok_iff {v : Verb} :
    c.verb = .ok (v, c') ↔ ∃ t, verb? t = some v ∧ c.Reads [t] c' := by
  simp only [verb, bind_eq_ok, pure_eq_ok, Prod.exists, takeIf_eq_ok_iff, Option.isSome_iff_exists,
    Prod.mk.injEq]
  constructor
  · rintro ⟨t, c₁, ⟨⟨w, hw⟩, hr⟩, hv, rfl⟩
    rw [hw, Option.getD_some] at hv
    exact ⟨t, hv ▸ hw, hr⟩
  · rintro ⟨t, hv, hr⟩
    exact ⟨t, c', ⟨⟨v, hv⟩, hr⟩, by rw [hv, Option.getD_some], rfl⟩

theorem action_eq_ok {a : ActionDecl} (hf : c.finish.kind = .finish) (h : c.action = .ok (a, c')) :
    IsAction c.stream c'.stream a ∧ c'.finish = c.finish := by
  simp only [action, bind_eq_ok, pure_eq_ok] at h
  obtain ⟨⟨n, c₁⟩, hn, ⟨ar, c₂⟩, har, ⟨verb, c₃⟩, hv, ⟨u, c₄⟩, hu, h⟩ := h
  obtain ⟨hname, hr₁⟩ := takeIf_eq_ok_iff.1 hn
  obtain ⟨harrow, hr₂⟩ := take_eq_ok_iff.1 har
  obtain ⟨v, hverb, hr₃⟩ := verb_eq_ok_iff.1 hv
  have hf₃ : c₃.finish = c.finish := by rw [hr₃.finish, hr₂.finish, hr₁.finish]
  obtain ⟨ts, hurl, hr₄, hmax⟩ := url_eq_ok (by rw [hf₃, hf]) hu
  obtain ⟨mark, hmark, hr₅⟩ := isMark_skip c₄
  cases h
  rw [hr₅.stream] at hmax
  have hstream := (hr₁.trans (hr₂.trans (hr₃.trans (hr₄.trans hr₅)))).stream
  refine ⟨?_, by rw [hr₅.finish, hr₄.finish, hf₃]⟩
  rw [hstream, List.append_assoc]
  simpa using IsAction.mk hname harrow hverb hurl hmax hmark

theorem action_of_isAction {a : ActionDecl} {t : Token} {us : List Token}
    (ha : IsAction c.stream (t :: us) a) (ht : t.isName = true ∨ Closes t)
    (hf : c.finish.kind = .finish) :
    ∃ c', c.action = .ok (a, c') ∧ c'.stream = t :: us ∧ c'.finish = c.finish := by
  generalize hts : c.stream = ts at ha
  cases ha with
  | mk hname harrow hverb hurl hmax hmark =>
    obtain ⟨c₁, hr₁, h₁⟩ := reads_cons_of_stream hts (by simp)
    obtain ⟨c₂, hr₂, h₂⟩ := reads_cons_of_stream h₁ (by simp)
    obtain ⟨c₃, hr₃, h₃⟩ := reads_cons_of_stream h₂ (by simp)
    obtain ⟨c₄, hr₄, h₄⟩ := reads_of_stream h₃ (by simp)
    obtain ⟨c₅, hr₅, h₅⟩ := reads_of_stream h₄ (by simp)
    have hf₃ : c₃.finish.kind = .finish := by rw [hr₃.finish, hr₂.finish, hr₁.finish, hf]
    obtain ⟨hopen, hslash, hmarker⟩ := kind_of_follows ht
    have hpeek₅ := peek_of_stream h₅
    have hpeek₄ : c₄.peek.kind ≠ .symbol .parenOpen ∧ c₄.peek.kind ≠ .symbol .slash := by
      cases hmark with
      | absent =>
        cases hr₅.eq_of_nil
        rw [hpeek₅]
        exact ⟨hopen, hslash⟩
      | present hm => simp [peek_of_reads hr₅, hm]
    have hu := url_of_isUrl hurl hr₄ hf₃ (by rwa [h₄]) (not_sees_of_peek hpeek₄.1)
      (not_sees_of_peek hpeek₄.2)
    have hskip := skip_of_isMark hmark hr₅ (not_sees_of_peek (by rwa [hpeek₅]))
    refine ⟨c₅, ?_, h₅, by rw [hr₅.finish, hr₄.finish, hr₃.finish, hr₂.finish, hr₁.finish]⟩
    simp [action, takeIf_eq_ok_iff.2 ⟨hname, hr₁⟩, take_eq_ok_iff.2 ⟨harrow, hr₂⟩,
      verb_eq_ok_iff.2 ⟨_, hverb, hr₃⟩, hu, hskip, bind, Except.bind, pure, Except.pure]

theorem actions_eq_ok {as : List ActionDecl} (hf : c.finish.kind = .finish)
    (h : c.actions = .ok (as, c')) : IsActions c.stream c'.stream as ∧ c'.finish = c.finish := by
  fun_induction actions c generalizing as with
  | case1 => cases h
  | case2 c _ a c₁ ha ih =>
    obtain ⟨⟨as', c₂⟩, has, heq⟩ := map_eq_ok.1 h
    cases heq
    obtain ⟨hact, hf₁⟩ := action_eq_ok hf ha
    obtain ⟨hacts, hf₂⟩ := ih (by rw [hf₁, hf]) has
    exact ⟨.cons hact hacts, hf₂.trans hf₁⟩
  | case3 c _ =>
    cases h
    exact ⟨.nil, rfl⟩

theorem actions_eq {a : ActionDecl} (hn : c.ahead.head?.any Token.isName = true)
    (h : c.action = .ok (a, c')) :
    c.actions = (actions c').map fun (rest, c₂) => (a :: rest, c₂) := by
  rw [actions, if_pos hn]
  split <;> rename_i he <;> cases h.symm.trans he
  rfl

theorem isName_of_finish {t : Token} (h : t.kind = .finish) : t.isName = false := by
  simp [Token.isName, h]

theorem actions_of_isActions {ts us : List Token} {t : Token} {as : List ActionDecl}
    (ha : IsActions ts (t :: us) as) (hc : c.stream = ts) (ht : Closes t)
    (hf : c.finish.kind = .finish) :
    ∃ c', c.actions = .ok (as, c') ∧ c'.stream = t :: us ∧ c'.finish = c.finish := by
  generalize hrest : t :: us = rest at ha
  induction ha generalizing c with
  | nil =>
    subst hrest
    refine ⟨c, ?_, hc, rfl⟩
    rw [actions, any_head?_ahead (isName_of_finish hf), peek_of_stream hc, not_isName_of_closes ht]
    rfl
  | cons hact hacts ih =>
    rename_i ts us' rest a as
    -- Behind an action stands the name of the next one or what follows them all.
    obtain ⟨t', vs, rfl, ht'⟩ : ∃ t' vs, us' = t' :: vs ∧ (t'.isName = true ∨ Closes t') := by
      rcases hacts.head with ⟨-, rfl⟩ | ⟨t', vs, rfl, hname⟩
      · exact ⟨t, us, hrest.symm, .inr ht⟩
      · exact ⟨t', vs, rfl, .inl hname⟩
    obtain ⟨c₁, hc₁, h₁, hf₁⟩ := action_of_isAction (hc ▸ hact) ht' hf
    obtain ⟨c₂, hc₂, h₂, hf₂⟩ := ih h₁ (by rw [hf₁, hf]) hrest
    refine ⟨c₂, ?_, h₂, hf₂.trans hf₁⟩
    have hname : c.peek.isName = true := by
      cases hact with
      | mk hname => rwa [peek_of_stream hc]
    rw [actions_eq (by rwa [any_head?_ahead (isName_of_finish hf)]) hc₁, hc₂]
    rfl

theorem reads_skip (c : Cursor) (k : Token.Kind) : ∃ ts, ts.length ≤ 1 ∧ (∀ t ∈ ts, t.kind = k) ∧
    c.Reads ts (c.skip k).2 := by
  cases hsees : c.sees k with
  | true =>
    obtain ⟨t, c', hk, hr⟩ := sees_eq_true_iff.1 hsees
    rw [skip_of_reads hr hk]
    exact ⟨[t], by simp, by simpa using hk, hr⟩
  | false =>
    rw [skip_of_not_sees hsees]
    exact ⟨[], by simp, by simp, .nil c⟩

theorem controller_eq_ok {d : ControllerDecl} (hf : c.finish.kind = .finish)
    (h : c.controller = .ok (d, c')) :
    IsController c.stream c'.stream d ∧ c'.finish = c.finish := by
  simp only [controller, bind_eq_ok, pure_eq_ok] at h
  obtain ⟨⟨w, c₁⟩, hw, ⟨n, c₂⟩, hn, ⟨x, c₃⟩, hx, ⟨as, c₄⟩, has, h⟩ := h
  obtain ⟨hword, hr₁⟩ := take_eq_ok_iff.1 hw
  obtain ⟨hname, hr₂⟩ := takeIf_eq_ok_iff.1 hn
  obtain ⟨mark, hmark, hr₃⟩ := isMark_skip c₂
  obtain ⟨hactions, hr₄⟩ := take_eq_ok_iff.1 hx
  have hf₃ : c₃.finish = c.finish := by rw [hr₄.finish, hr₃.finish, hr₂.finish, hr₁.finish]
  obtain ⟨hacts, hf₄⟩ := actions_eq_ok (by rw [hf₃, hf]) has
  obtain ⟨xs, hxs, hx, hr₅⟩ := reads_skip c₄ (.keyword .close)
  obtain ⟨ys, hys, hy, hr₆⟩ := reads_skip (c₄.skip (.keyword .close)).2 (.keyword .close)
  cases h
  have hends := hr₅.trans hr₆
  refine ⟨?_, by rw [hends.finish, hf₄, hf₃]⟩
  have hstream := (hr₁.trans (hr₂.trans (hr₃.trans hr₄))).stream
  rw [hends.stream] at hacts
  rw [hstream]
  have hall : ∀ e ∈ xs ++ ys, e.kind = .keyword .close := by
    intro e he
    rcases List.mem_append.1 he with he | he
    · exact hx e he
    · exact hy e he
  have hlength : (xs ++ ys).length ≤ 2 := by rw [List.length_append]; omega
  simpa using IsController.mk hword hname hmark hactions hacts hlength hall

theorem skip_closes {ends us : List Token} {t : Token} (hc : c.stream = ends ++ t :: us)
    (hlength : ends.length ≤ 2) (hends : ∀ e ∈ ends, e.kind = .keyword .close)
    (ht : t.kind ≠ .keyword .close) :
    ((c.skip (.keyword .close)).2.skip (.keyword .close)).2.stream = t :: us ∧
      ((c.skip (.keyword .close)).2.skip (.keyword .close)).2.finish = c.finish := by
  have hstop : ∀ {c : Cursor}, c.stream = t :: us → c.skip (.keyword .close) = (false, c) :=
    fun h => skip_of_not_sees (not_sees_of_peek (by rwa [peek_of_stream h]))
  match ends, hc, hlength, hends with
  | [], hc, _, _ =>
    rw [hstop hc]
    dsimp only
    rw [hstop hc]
    exact ⟨hc, rfl⟩
  | [x], hc, _, hends =>
    obtain ⟨c₁, hr₁, h₁⟩ := reads_cons_of_stream hc (by simp)
    rw [skip_of_reads hr₁ (hends x (by simp))]
    dsimp only
    rw [hstop h₁]
    exact ⟨h₁, hr₁.finish⟩
  | [x, y], hc, _, hends =>
    obtain ⟨c₁, hr₁, h₁⟩ := reads_cons_of_stream hc (by simp)
    obtain ⟨c₂, hr₂, h₂⟩ := reads_cons_of_stream h₁ (by simp)
    rw [skip_of_reads hr₁ (hends x (by simp))]
    dsimp only
    rw [skip_of_reads hr₂ (hends y (by simp))]
    exact ⟨h₂, hr₂.finish.trans hr₁.finish⟩

theorem controller_of_isController {d : ControllerDecl} {t : Token} {us : List Token}
    (hd : IsController c.stream (t :: us) d) (ht : Closes t) (hclose : t.kind ≠ .keyword .close)
    (hf : c.finish.kind = .finish) :
    ∃ c', c.controller = .ok (d, c') ∧ c'.stream = t :: us ∧ c'.finish = c.finish := by
  generalize hts : c.stream = ts at hd
  cases hd with
  | mk hword hname hmark hactions hacts hlength hends =>
    rename_i w n mark x ts ends as isDefault
    obtain ⟨c₁, hr₁, h₁⟩ := reads_cons_of_stream hts (by simp)
    obtain ⟨c₂, hr₂, h₂⟩ := reads_cons_of_stream h₁ (by simp)
    obtain ⟨c₃, hr₃, h₃⟩ := reads_of_stream h₂ (by simp)
    have hne : ts ≠ [] := by
      rcases hacts.head with ⟨-, rfl⟩ | ⟨t', vs, rfl, -⟩ <;> simp
    obtain ⟨c₄, hr₄, h₄⟩ := reads_cons_of_stream h₃ hne
    have hf₄ : c₄.finish = c.finish := by rw [hr₄.finish, hr₃.finish, hr₂.finish, hr₁.finish]
    obtain ⟨t', us', hrest, ht'⟩ : ∃ t' us', ends ++ t :: us = t' :: us' ∧ Closes t' := by
      cases ends with
      | nil => exact ⟨t, us, rfl, ht⟩
      | cons e es => exact ⟨e, es ++ t :: us, rfl, .inr (.inr (.inr (hends e (by simp))))⟩
    obtain ⟨c₅, hc₅, h₅, hf₅⟩ :=
      actions_of_isActions (hrest ▸ hacts) h₄ ht' (by rw [hf₄, hf])
    obtain ⟨hstream, hfinish⟩ := skip_closes (h₅.trans hrest.symm) hlength hends hclose
    have hnot : c₃.sees (.keyword .marker) = false :=
      not_sees_of_peek (by simp [peek_of_stream h₃, hactions])
    refine ⟨_, ?_, hstream, by rw [hfinish, hf₅, hf₄]⟩
    simp [controller, take_eq_ok_iff.2 ⟨hword, hr₁⟩, takeIf_eq_ok_iff.2 ⟨hname, hr₂⟩,
      skip_of_isMark hmark hr₃ hnot, take_eq_ok_iff.2 ⟨hactions, hr₄⟩, hc₅, bind, Except.bind,
      pure, Except.pure]

theorem defaultAction_eq_ok {d : DefaultDecl} (h : c.defaultAction = .ok (d, c')) :
    IsDefault c.stream c'.stream d ∧ c'.finish = c.finish := by
  simp only [defaultAction, bind_eq_ok, pure_eq_ok] at h
  obtain ⟨⟨w, c₁⟩, hw, ⟨x, c₂⟩, hx, ⟨n, c₃⟩, hn, ⟨s, c₄⟩, hs, ⟨a, c₅⟩, ha, h⟩ := h
  obtain ⟨hword, hr₁⟩ := take_eq_ok_iff.1 hw
  obtain ⟨haction, hr₂⟩ := take_eq_ok_iff.1 hx
  obtain ⟨hcontroller, hr₃⟩ := takeIf_eq_ok_iff.1 hn
  obtain ⟨hhash, hr₄⟩ := take_eq_ok_iff.1 hs
  obtain ⟨hname, hr₅⟩ := takeIf_eq_ok_iff.1 ha
  cases h
  have hr := hr₁.trans (hr₂.trans (hr₃.trans (hr₄.trans hr₅)))
  refine ⟨?_, hr.finish⟩
  rw [hr.stream]
  exact .mk hword haction hcontroller hhash hname

theorem defaultAction_of_isDefault {d : DefaultDecl} {t : Token} {us : List Token}
    (hd : IsDefault c.stream (t :: us) d) :
    ∃ c', c.defaultAction = .ok (d, c') ∧ c'.stream = t :: us ∧ c'.finish = c.finish := by
  generalize hts : c.stream = ts at hd
  cases hd with
  | mk hword haction hcontroller hhash hname =>
    obtain ⟨c₁, hr₁, h₁⟩ := reads_cons_of_stream hts (by simp)
    obtain ⟨c₂, hr₂, h₂⟩ := reads_cons_of_stream h₁ (by simp)
    obtain ⟨c₃, hr₃, h₃⟩ := reads_cons_of_stream h₂ (by simp)
    obtain ⟨c₄, hr₄, h₄⟩ := reads_cons_of_stream h₃ (by simp)
    obtain ⟨c₅, hr₅, h₅⟩ := reads_cons_of_stream h₄ (by simp)
    refine ⟨c₅, ?_, h₅, by rw [hr₅.finish, hr₄.finish, hr₃.finish, hr₂.finish, hr₁.finish]⟩
    simp [defaultAction, take_eq_ok_iff.2 ⟨hword, hr₁⟩, take_eq_ok_iff.2 ⟨haction, hr₂⟩,
      takeIf_eq_ok_iff.2 ⟨hcontroller, hr₃⟩, take_eq_ok_iff.2 ⟨hhash, hr₄⟩,
      takeIf_eq_ok_iff.2 ⟨hname, hr₅⟩, bind, Except.bind, pure, Except.pure]

theorem isSource_of_declarations {ds : Declarations} (hf : c.finish.kind = .finish)
    (h : c.declarations = .ok ds) : IsSource c.stream ds := by
  fun_induction declarations c generalizing ds with
  | case1 => cases h
  | case2 c _ d c₁ hd ih =>
    obtain ⟨ds', hds, rfl⟩ := map_eq_ok.1 h
    obtain ⟨hcontroller, hf₁⟩ := controller_eq_ok hf hd
    exact .controller hcontroller (ih (by rw [hf₁, hf]) hds)
  | case3 => cases h
  | case4 c _ _ d c₁ hd ih =>
    obtain ⟨ds', hds, rfl⟩ := map_eq_ok.1 h
    obtain ⟨hdefault, hf₁⟩ := defaultAction_eq_ok hd
    exact .default hdefault (ih (by rw [hf₁, hf]) hds)
  | case5 c _ _ hnil =>
    cases h
    rw [List.isEmpty_iff] at hnil
    simpa [stream, hnil] using IsSource.done hf
  | case6 => cases h

theorem declarations_of_controller {d : ControllerDecl} (hs : c.sees (.keyword .controller) = true)
    (h : c.controller = .ok (d, c')) : c.declarations =
      (declarations c').map fun ds => { ds with controllers := d :: ds.controllers } := by
  rw [declarations, if_pos hs]
  split <;> rename_i he <;> cases h.symm.trans he
  rfl

theorem declarations_of_default {d : DefaultDecl} (hn : c.sees (.keyword .controller) = false)
    (hs : c.sees (.keyword .default) = true) (h : c.defaultAction = .ok (d, c')) :
    c.declarations =
      (declarations c').map fun ds => { ds with defaults := d :: ds.defaults } := by
  rw [declarations, if_neg (by simp [hn]), if_pos hs]
  split <;> rename_i he <;> cases h.symm.trans he
  rfl

theorem declarations_of_isSource {ts : List Token} {ds : Declarations} (hs : IsSource ts ds)
    (hc : c.stream = ts) (hf : c.finish.kind = .finish) : c.declarations = .ok ds := by
  induction hs generalizing c with
  | done he =>
    have hnil : c.ahead = [] := by simpa [stream] using congrArg List.length hc
    simp [declarations, sees, hnil]
  | controller hd hs ih =>
    obtain ⟨t, us, rfl, ht, hclose⟩ := hs.head
    obtain ⟨c₁, hc₁, h₁, hf₁⟩ := controller_of_isController (hc ▸ hd) ht hclose hf
    have hsees : c.sees (.keyword .controller) = true := by
      cases hd with
      | mk hword =>
        obtain ⟨c', hr, -⟩ := reads_cons_of_stream hc (by simp)
        exact hword ▸ sees_of_reads hr
    rw [declarations_of_controller hsees hc₁, ih h₁ (by rw [hf₁, hf])]
    rfl
  | default hd hs ih =>
    obtain ⟨t, us, rfl, -⟩ := hs.head
    obtain ⟨c₁, hc₁, h₁, hf₁⟩ := defaultAction_of_isDefault (hc ▸ hd)
    cases hd with
    | mk hword =>
      obtain ⟨c', hr, -⟩ := reads_cons_of_stream hc (by simp)
      have hnot : c.sees (.keyword .controller) = false :=
        not_sees_of_peek (by simp [peek_of_stream hc, hword])
      rw [declarations_of_default hnot (hword ▸ sees_of_reads hr) hc₁, ih h₁ (by rw [hf₁, hf])]
      rfl

/-- The cursor of a stream with the end of the input in no place but the last. -/
theorem ofTokens_concat {ts : List Token} {e : Token} (hts : ∀ t ∈ ts, t.kind ≠ .finish)
    (he : e.kind = .finish) : ofTokens (ts ++ [e]) = ⟨none, ts, e⟩ := by
  have hall : ∀ t ∈ ts, (t.kind != .finish) = true := fun t ht => bne_iff_ne.2 (hts t ht)
  simp [ofTokens, List.takeWhile_append_of_pos hall, List.dropWhile_append_of_pos hall, he]

end Cursor

/-- Reading succeeds exactly on the streams that the grammar derives, with what it derives. -/
theorem Declarations.ofTokens_eq_ok_iff {ts : List Token} {e : Token}
    (hts : ∀ t ∈ ts, t.kind ≠ .finish) (he : e.kind = .finish) (ds : Declarations) :
    Declarations.ofTokens (ts ++ [e]) = .ok ds ↔ Grammar.IsSource (ts ++ [e]) ds := by
  rw [Declarations.ofTokens, Cursor.ofTokens_concat hts he]
  constructor
  · exact Cursor.isSource_of_declarations he
  · exact fun h => Cursor.declarations_of_isSource h rfl he

/-- The tokens of `controller Todos actions show <- get /todos/:id` before the end of the input. -/
def todoTokens : List Token :=
  [⟨.keyword .controller, "controller", ⟨1, 1, 0⟩, 10⟩, ⟨.ident, "Todos", ⟨1, 12, 11⟩, 5⟩,
   ⟨.keyword .actions, "actions", ⟨1, 18, 17⟩, 7⟩, ⟨.ident, "show", ⟨1, 26, 25⟩, 4⟩,
   ⟨.symbol .arrow, "<-", ⟨1, 31, 30⟩, 2⟩, ⟨.keyword .get, "get", ⟨1, 34, 33⟩, 3⟩,
   ⟨.symbol .slash, "/", ⟨1, 38, 37⟩, 1⟩, ⟨.ident, "todos", ⟨1, 39, 38⟩, 5⟩,
   ⟨.symbol .slash, "/", ⟨1, 44, 43⟩, 1⟩, ⟨.symbol .colon, ":", ⟨1, 45, 44⟩, 1⟩,
   ⟨.ident, "id", ⟨1, 46, 45⟩, 2⟩]

theorem isSource_todoTokens : (∀ t ∈ todoTokens, t.kind ≠ .finish) ∧
    Grammar.IsSource (todoTokens ++ [.finishAt ⟨1, 48, 47⟩])
      ⟨[⟨"Todos", [⟨"show", .get, ⟨true, [.literal "todos", .param "id" .text]⟩, false,
        ⟨1, 26, 25⟩⟩], false, ⟨1, 1, 0⟩⟩], []⟩ := by
  have hts : ∀ t ∈ todoTokens, t.kind ≠ .finish := by decide
  have hread : (Declarations.ofTokens (todoTokens ++ [.finishAt ⟨1, 48, 47⟩])).toOption =
      some ⟨[⟨"Todos", [⟨"show", .get, ⟨true, [.literal "todos", .param "id" .text]⟩, false,
        ⟨1, 26, 25⟩⟩], false, ⟨1, 1, 0⟩⟩], []⟩ := by decide +kernel
  exact ⟨hts, (Declarations.ofTokens_eq_ok_iff hts rfl _).1 (toOption_eq_some_iff.1 hread)⟩

end Routes
