import Mathlib.Data.List.Chain
import Routes.Proofs.Grammar
/-!
URLs as runs of tokens. Outside of brackets each token of a URL begins where the one before it ends.
Inside of them the grammar asks for no such thing.
-/
namespace Routes.Grammar
variable {inside : Bool} {f s t last : Token} {ts us rest url : List Token} {p : UrlPart}
  {ps : List UrlPart} {u : Url} {a : ActionDecl}

instance : DecidableRel Adjacent := fun a b =>
  inferInstanceAs (Decidable (b.position.offset = a.endOffset))

/-- Whether a bracket is open behind a token, given whether one is open in front of it. -/
def isOpenBehind (inside : Bool) (t : Token) : Bool :=
  match t.kind with
  | .symbol .less | .symbol .parenOpen => true
  | .symbol .greater | .symbol .parenClose => false
  | _ => inside

/-- Outside of brackets every token begins where the one before it ends. -/
def IsJoined : Bool → List Token → Prop
  | inside, s :: t :: ts =>
    (isOpenBehind inside s = false → Adjacent s t) ∧ IsJoined (isOpenBehind inside s) (t :: ts)
  | _, _ => True

theorem IsJoined.isChain (h : IsJoined false ts)
    (hts : ∀ t ∈ ts, t.kind ≠ .symbol .less ∧ t.kind ≠ .symbol .parenOpen) :
    ts.IsChain Adjacent := by
  induction ts with
  | nil => exact .nil
  | cons s ts ih =>
    rw [List.forall_mem_cons] at hts
    have hopen : isOpenBehind false s = false := by
      unfold isOpenBehind
      split <;> simp_all
    cases ts with
    | nil => exact .singleton s
    | cons t ts =>
      rw [IsJoined, hopen] at h
      exact .cons_cons (h.1 rfl) (ih h.2 hts.2)

theorem isOpenBehind_of_isWord (h : t.isWord = true) : isOpenBehind inside t = inside := by
  unfold isOpenBehind
  unfold Token.isWord at h
  split <;> simp_all

/-- A bracket that closes a part leaves what follows it outside. -/
theorem isJoined_of_closes (hkind : t.kind = .symbol .greater ∨ t.kind = .symbol .parenClose)
    (h : IsJoined false (t :: rest)) : IsJoined inside (t :: rest) := by
  have hopen : ∀ b, isOpenBehind b t = false := by
    rcases hkind with hkind | hkind <;> simp [isOpenBehind, hkind]
  cases rest with
  | nil => trivial
  | cons u rest =>
    rw [IsJoined, hopen] at h ⊢
    exact h

theorem isJoined_inside (hopen : isOpenBehind inside s = true) (h : IsJoined true (t :: rest)) :
    IsJoined inside (s :: t :: rest) := by
  refine ⟨fun hfalse => ?_, ?_⟩
  · cases hopen.symm.trans hfalse
  · rwa [hopen]

theorem isJoined_outside (hopen : isOpenBehind false s = false) (hadj : Adjacent s t)
    (h : IsJoined false (t :: rest)) : IsJoined false (s :: t :: rest) := by
  refine ⟨fun _ => hadj, ?_⟩
  rwa [hopen]

theorem IsKind.isWord {k : ParamKind} (h : IsKind t k) : t.isWord = true := by
  cases h with
  | int h | text h => simp [Token.isWord, h]

theorem IsPart.isJoined_append (h : IsPart f ts p)
    (hrest : IsJoined false (ts.getLastD f :: rest)) : IsJoined false (f :: (ts ++ rest)) := by
  cases h with
  | literal => exact hrest
  | bracket hl hn hg =>
    refine isJoined_inside (by simp [isOpenBehind, hl]) (isJoined_inside ?_ ?_)
    · exact isOpenBehind_of_isWord hn
    · exact isJoined_of_closes (.inl hg) hrest
  | bracketKind hl hn hq ht hg =>
    refine isJoined_inside (by simp [isOpenBehind, hl]) (isJoined_inside ?_ (isJoined_inside ?_
      (isJoined_inside ?_ ?_)))
    · exact isOpenBehind_of_isWord hn
    · simp [isOpenBehind, hq]
    · exact isOpenBehind_of_isWord ht.isWord
    · exact isJoined_of_closes (.inl hg) hrest
  | colon hq _ hadj =>
    exact isJoined_outside (by simp [isOpenBehind, hq]) hadj hrest
  | colonKind hq hn hadj ho hadj' ht hp =>
    refine isJoined_outside (by simp [isOpenBehind, hq]) hadj (isJoined_outside ?_ hadj'
      (isJoined_inside ?_ (isJoined_inside ?_ ?_)))
    · exact isOpenBehind_of_isWord hn
    · simp [isOpenBehind, ho]
    · exact isOpenBehind_of_isWord ht.isWord
    · exact isJoined_of_closes (.inr hp) hrest

/-- No bracket is open behind a part. -/
theorem IsPart.isOpenBehind_last (h : IsPart f ts p) :
    isOpenBehind false (ts.getLastD f) = false := by
  cases h with
  | literal h =>
    rcases h with h | h
    · simp [isOpenBehind, h]
    · exact isOpenBehind_of_isWord h
  | bracket _ _ h | bracketKind _ _ _ _ h | colonKind _ _ _ _ _ _ h => simp [isOpenBehind, h]
  | colon _ h => exact isOpenBehind_of_isWord h

theorem IsTail.isJoined (h : IsTail last ts ps) (hlast : isOpenBehind false last = false) :
    IsJoined false (last :: ts) := by
  induction h with
  | done => trivial
  | slash _ hadj => exact isJoined_outside hlast hadj trivial
  | more hs hadj hadj' hp _ ih =>
    refine isJoined_outside hlast hadj (isJoined_outside (by simp [isOpenBehind, hs]) hadj' ?_)
    exact hp.isJoined_append (ih hp.isOpenBehind_last)

theorem IsUrl.isJoined (h : IsUrl url u) : IsJoined false url := by
  cases h with
  | root => trivial
  | absolute hs hadj hp ht =>
    refine isJoined_outside (by simp [isOpenBehind, hs]) hadj ?_
    exact hp.isJoined_append (ht.isJoined hp.isOpenBehind_last)
  | relative hp ht => exact hp.isJoined_append (ht.isJoined hp.isOpenBehind_last)

/-- An action among other tokens, and those of them that are its URL. -/
inductive HasUrl (ts : List Token) (a : ActionDecl) (url : List Token) : Prop
  | mk {before n w v mark rest} : ts = before ++ n :: w :: v :: (url ++ (mark ++ rest)) →
      n.text = a.name → n.position = a.position → w.kind = .symbol .arrow →
      Cursor.verb? v = some a.verb → IsUrl url a.url → Greedy url (mark ++ rest) →
      IsMark mark a.isDefault → HasUrl ts a url

theorem HasUrl.isUrl (h : HasUrl ts a url) : IsUrl url a.url := by
  cases h; assumption

theorem HasUrl.isInfix (h : HasUrl ts a url) : url <:+: ts := by
  obtain @⟨before, n, w, v, mark, rest, rfl, -⟩ := h
  exact ⟨before ++ [n, w, v], mark ++ rest, by simp⟩

theorem HasUrl.append (h : HasUrl ts a url) (front : List Token) : HasUrl (front ++ ts) a url := by
  cases h with
  | mk hts htext hplace hw hv hurl hgreedy hmark =>
    exact .mk (by rw [hts, List.append_assoc]) htext hplace hw hv hurl hgreedy hmark

/-- The tokens that an action leaves come behind those that it takes. -/
theorem IsAction.hasUrl (h : IsAction ts rest a) :
    (∃ url, HasUrl ts a url) ∧ ∃ front, ts = front ++ rest := by
  cases h with
  | @mk n w v url mark _ _ _ _ _ hw hv hurl hgreedy hmark =>
    refine ⟨⟨url, .mk (List.nil_append _).symm rfl rfl hw hv hurl hgreedy hmark⟩, ?_⟩
    exact ⟨n :: w :: v :: (url ++ mark), by simp⟩

theorem IsActions.hasUrl {as : List ActionDecl} (h : IsActions ts rest as) :
    (∀ a ∈ as, ∃ url, HasUrl ts a url) ∧ ∃ front, ts = front ++ rest := by
  induction h with
  | nil => exact ⟨by simp, [], rfl⟩
  | cons ha _ ih =>
    obtain ⟨hurl, front, rfl⟩ := ha.hasUrl
    obtain ⟨hurls, front', rfl⟩ := ih
    refine ⟨List.forall_mem_cons.2 ⟨hurl, fun b hb => ?_⟩, front ++ front', by simp⟩
    obtain ⟨url, hurl⟩ := hurls b hb
    exact ⟨url, hurl.append front⟩

theorem IsController.hasUrl {d : ControllerDecl} (h : IsController ts rest d) :
    (∀ a ∈ d.actions, ∃ url, HasUrl ts a url) ∧ ∃ front, ts = front ++ rest := by
  cases h with
  | @mk w n mark x us ends _ _ _ _ _ _ _ hacts _ _ =>
    obtain ⟨hurls, front, rfl⟩ := hacts.hasUrl
    refine ⟨fun a ha => ?_, w :: n :: (mark ++ x :: (front ++ ends)), by simp⟩
    obtain ⟨url, hurl⟩ := hurls a ha
    have hfront := hurl.append (w :: n :: (mark ++ [x]))
    exact ⟨url, by simpa using hfront⟩

theorem IsDefault.exists_front {d : DefaultDecl} (h : IsDefault ts rest d) :
    ∃ front, ts = front ++ rest := by
  cases h with
  | @mk w x c m b => exact ⟨[w, x, c, m, b], rfl⟩

/-- Every action of a source has its URL among the tokens. -/
theorem IsSource.hasUrl {ds : Declarations} (h : IsSource ts ds) :
    ∀ c ∈ ds.controllers, ∀ a ∈ c.actions, ∃ url, HasUrl ts a url := by
  induction h with
  | done => simp [Declarations.empty]
  | controller hd _ ih =>
    obtain ⟨hurls, front, rfl⟩ := hd.hasUrl
    refine List.forall_mem_cons.2 ⟨hurls, fun c hc a ha => ?_⟩
    obtain ⟨url, hurl⟩ := ih c hc a ha
    exact ⟨url, hurl.append front⟩
  | default hd _ ih =>
    obtain ⟨front, rfl⟩ := hd.exists_front
    intro c hc a ha
    obtain ⟨url, hurl⟩ := ih c hc a ha
    exact ⟨url, hurl.append front⟩

end Routes.Grammar
