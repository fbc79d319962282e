import Routes.Proofs.Grammar.Alike
/-!
The marks of defaults. A source declares as many defaults by marks as there are marks among its
tokens.
-/
namespace Routes

/-- How many controllers and actions are marked as default. -/
def Declarations.markCount (ds : Declarations) : Nat :=
  ds.controllers.countP (·.isDefault) + (ds.controllers.flatMap (·.actions)).countP (·.isDefault)

theorem Declarations.markCount_unplaced (ds : Declarations) :
    ds.unplaced.markCount = ds.markCount := by
  have hactions : ds.unplaced.controllers.flatMap (·.actions) =
      (ds.controllers.flatMap (·.actions)).map ActionDecl.unplaced := by
    rw [unplaced, List.flatMap_map, List.map_flatMap]
    rfl
  rw [markCount, markCount, hactions, unplaced, List.countP_map, List.countP_map]
  rfl

theorem Declarations.markCount_cons (c : ControllerDecl) (ds : Declarations) :
    Declarations.markCount { ds with controllers := c :: ds.controllers } =
      c.isDefault.toNat + c.actions.countP (·.isDefault) + ds.markCount := by
  rw [markCount, markCount, List.countP_cons, List.flatMap_cons, List.countP_append]
  cases c.isDefault <;> simp <;> omega

namespace Token
variable {t : Token}

def isMarker (t : Token) : Bool := t.kind == .keyword .marker

theorem isMarker_of_kind {k : Kind} (h : t.kind = k) (hk : k ≠ .keyword .marker) :
    t.isMarker = false := by
  rw [isMarker, h]
  exact beq_eq_false_iff_ne.2 hk

theorem isMarker_of_isWord (h : t.isWord = true) : t.isMarker = false := by
  refine beq_eq_false_iff_ne.2 fun hk => ?_
  simp [isWord, hk] at h

theorem isMarker_of_isName (h : t.isName = true) : t.isMarker = false := by
  refine beq_eq_false_iff_ne.2 fun hk => ?_
  simp [isName, hk] at h

theorem isMarker_of_verb? {v : Verb} (h : Cursor.verb? t = some v) : t.isMarker = false := by
  refine beq_eq_false_iff_ne.2 fun hk => ?_
  simp [Cursor.verb?, hk] at h

end Token

namespace Grammar
open Token (isMarker)
variable {f t last : Token} {ts rest : List Token} {p : UrlPart} {ps : List UrlPart}

theorem countP_cons_marker (h : t.isMarker = false) (ts : List Token) :
    (t :: ts).countP isMarker = ts.countP isMarker := List.countP_cons_of_neg (by simp [h])

theorem IsKind.isMarker {k : ParamKind} (h : IsKind t k) : t.isMarker = false := by
  cases h with
  | int h | text h => exact Token.isMarker_of_kind h (by decide)

theorem IsPart.markers (h : IsPart f ts p) : (f :: ts).countP isMarker = 0 := by
  rw [List.countP_eq_zero]
  cases h with
  | literal h =>
    have hf : f.isMarker = false := by
      rcases h with h | h
      · exact Token.isMarker_of_kind h (by decide)
      · exact Token.isMarker_of_isWord h
    simp [hf]
  | bracket hl hn hg =>
    simp [Token.isMarker_of_kind hl (by decide), Token.isMarker_of_isWord hn,
      Token.isMarker_of_kind hg (by decide)]
  | bracketKind hl hn hq ht hg =>
    simp [Token.isMarker_of_kind hl (by decide), Token.isMarker_of_isWord hn,
      Token.isMarker_of_kind hq (by decide), ht.isMarker, Token.isMarker_of_kind hg (by decide)]
  | colon hq hn _ =>
    simp [Token.isMarker_of_kind hq (by decide), Token.isMarker_of_isWord hn]
  | colonKind hq hn _ ho _ ht hp =>
    simp [Token.isMarker_of_kind hq (by decide), Token.isMarker_of_isWord hn,
      Token.isMarker_of_kind ho (by decide), ht.isMarker, Token.isMarker_of_kind hp (by decide)]

theorem IsTail.markers (h : IsTail last ts ps) : ts.countP isMarker = 0 := by
  induction h with
  | done => rfl
  | slash hs => exact countP_cons_marker (Token.isMarker_of_kind hs (by decide)) []
  | more hs _ _ hp _ ih =>
    rw [countP_cons_marker (Token.isMarker_of_kind hs (by decide)), ← List.cons_append,
      List.countP_append, hp.markers, ih]

theorem IsUrl.markers {u : Url} (h : IsUrl ts u) : ts.countP isMarker = 0 := by
  cases h with
  | root hs => exact countP_cons_marker (Token.isMarker_of_kind hs (by decide)) []
  | absolute hs _ hp ht =>
    rw [countP_cons_marker (Token.isMarker_of_kind hs (by decide)), ← List.cons_append,
      List.countP_append, hp.markers, ht.markers]
  | relative hp ht => rw [← List.cons_append, List.countP_append, hp.markers, ht.markers]

theorem IsMark.markers {d : Bool} (h : IsMark ts d) : ts.countP isMarker = d.toNat := by
  cases h with
  | absent => rfl
  | present hm => simp [isMarker, hm]

theorem IsAction.markers {a : ActionDecl} (h : IsAction ts rest a) :
    ts.countP isMarker = a.isDefault.toNat + rest.countP isMarker := by
  cases h with
  | mk hn hw hv hurl _ hmark =>
    rw [countP_cons_marker (Token.isMarker_of_isName hn),
      countP_cons_marker (Token.isMarker_of_kind hw (by decide)),
      countP_cons_marker (Token.isMarker_of_verb? hv), List.countP_append, List.countP_append,
      hurl.markers, hmark.markers, Nat.zero_add]

theorem IsActions.markers {as : List ActionDecl} (h : IsActions ts rest as) :
    ts.countP isMarker = as.countP (·.isDefault) + rest.countP isMarker := by
  induction h with
  | nil => exact (Nat.zero_add _).symm
  | @cons _ _ _ a as ha _ ih =>
    rw [ha.markers, ih, List.countP_cons]
    cases a.isDefault
    · simp only [Bool.toNat_false, Bool.false_eq_true, if_false]
      omega
    · simp only [Bool.toNat_true, if_true]
      omega

theorem IsController.markers {d : ControllerDecl} (h : IsController ts rest d) :
    ts.countP isMarker =
      d.isDefault.toNat + d.actions.countP (·.isDefault) + rest.countP isMarker := by
  cases h with
  | @mk w n mark x us ends _ as isDefault hw hn hmark hx hacts _ hends =>
    have hclose : ends.countP isMarker = 0 := by
      rw [List.countP_eq_zero]
      intro e he
      simp [Token.isMarker_of_kind (hends e he) (by decide)]
    rw [countP_cons_marker (Token.isMarker_of_kind hw (by decide)),
      countP_cons_marker (Token.isMarker_of_isName hn), List.countP_append,
      countP_cons_marker (Token.isMarker_of_kind hx (by decide)), hmark.markers, hacts.markers,
      List.countP_append, hclose, Nat.zero_add, ← Nat.add_assoc]

theorem IsDefault.markers {d : DefaultDecl} (h : IsDefault ts rest d) :
    ts.countP isMarker = rest.countP isMarker := by
  cases h with
  | mk hw hx hc hh ha =>
    rw [countP_cons_marker (Token.isMarker_of_kind hw (by decide)),
      countP_cons_marker (Token.isMarker_of_kind hx (by decide)),
      countP_cons_marker (Token.isMarker_of_isName hc),
      countP_cons_marker (Token.isMarker_of_kind hh (by decide)),
      countP_cons_marker (Token.isMarker_of_isName ha)]

theorem IsSource.markers {ds : Declarations} (h : IsSource ts ds) :
    ts.countP isMarker = ds.markCount := by
  induction h with
  | done he => exact countP_cons_marker (Token.isMarker_of_kind he (by decide)) []
  | controller hd _ ih => rw [hd.markers, ih, Declarations.markCount_cons]
  | default hd _ ih => rw [hd.markers, ih]; rfl

end Grammar
end Routes
