import Routes.Declaration.Parse
/-!
The grammar of the language. A production relates tokens to what they stand for. Inside a URL it
says which tokens stand without a gap; from actions on it also names the tokens that follow, since a
URL takes as many tokens as it can.
-/
namespace Routes.Grammar

/-- One token begins at the byte where another ends. -/
def Adjacent (a b : Token) : Prop := b.position.offset = a.endOffset

instance (a b : Token) : Decidable (Adjacent a b) :=
  inferInstanceAs (Decidable (b.position.offset = a.endOffset))

inductive IsKind : Token → ParamKind → Prop
  | int {t} : t.kind = .keyword .int → IsKind t .int
  | text {t} : t.kind = .keyword .string → IsKind t .text

/-- A part of a URL, its first token and those behind it. -/
inductive IsPart : Token → List Token → UrlPart → Prop
  | literal {t} : t.kind = .fragment ∨ t.isWord = true → IsPart t [] (.literal t.text)
  | bracket {l n g} : l.kind = .symbol .less → n.isWord = true → g.kind = .symbol .greater →
      IsPart l [n, g] (.param n.text .text)
  | bracketKind {l n q t g k} : l.kind = .symbol .less → n.isWord = true →
      q.kind = .symbol .colon → IsKind t k → g.kind = .symbol .greater →
      IsPart l [n, q, t, g] (.param n.text k)
  | colon {q n} : q.kind = .symbol .colon → n.isWord = true → Adjacent q n →
      IsPart q [n] (.param n.text .text)
  | colonKind {q n o t p k} : q.kind = .symbol .colon → n.isWord = true → Adjacent q n →
      o.kind = .symbol .parenOpen → Adjacent n o → IsKind t k → p.kind = .symbol .parenClose →
      IsPart q [n, o, t, p] (.param n.text k)

/-- What follows a part that ends in a given token: further parts with a slash in front of each, and
perhaps a slash at the end. -/
inductive IsTail : Token → List Token → List UrlPart → Prop
  | done {last} : IsTail last [] []
  | slash {last s} : s.kind = .symbol .slash → Adjacent last s → IsTail last [s] []
  | more {last s f ts part rest parts} : s.kind = .symbol .slash → Adjacent last s →
      Adjacent s f → IsPart f ts part → IsTail (ts.getLastD f) rest parts →
      IsTail last (s :: f :: (ts ++ rest)) (part :: parts)

inductive IsUrl : List Token → Url → Prop
  | root {s} : s.kind = .symbol .slash → IsUrl [s] ⟨true, []⟩
  | absolute {s f ts part rest parts} : s.kind = .symbol .slash → Adjacent s f →
      IsPart f ts part → IsTail (ts.getLastD f) rest parts →
      IsUrl (s :: f :: (ts ++ rest)) ⟨true, part :: parts⟩
  | relative {f ts part rest parts} : IsPart f ts part → IsTail (ts.getLastD f) rest parts →
      IsUrl (f :: (ts ++ rest)) ⟨false, part :: parts⟩

/-- No part that begins directly behind the slash at the end of a URL is left to what follows. -/
def Greedy (url rest : List Token) : Prop :=
  ∀ last ∈ url.getLast?, last.kind = .symbol .slash →
    ∀ next ∈ rest.head?, Adjacent last next → next.startsPart = false

/-- The optional mark of a default. -/
inductive IsMark : List Token → Bool → Prop
  | absent : IsMark [] false
  | present {m} : m.kind = .keyword .marker → IsMark [m] true

/-- An action in front of other tokens. -/
inductive IsAction : List Token → List Token → ActionDecl → Prop
  | mk {n a v url mark rest verb u isDefault} : n.isName = true → a.kind = .symbol .arrow →
      Cursor.verb? v = some verb → IsUrl url u → Greedy url (mark ++ rest) →
      IsMark mark isDefault →
      IsAction (n :: a :: v :: (url ++ (mark ++ rest))) rest
        ⟨n.text, verb, u, isDefault, n.position⟩

inductive IsActions : List Token → List Token → List ActionDecl → Prop
  | nil {rest} : IsActions rest rest []
  | cons {ts us rest a as} : IsAction ts us a → IsActions us rest as → IsActions ts rest (a :: as)

inductive IsController : List Token → List Token → ControllerDecl → Prop
  | mk {w n mark x ts ends rest as isDefault} : w.kind = .keyword .controller →
      n.isName = true → IsMark mark isDefault → x.kind = .keyword .actions →
      IsActions ts (ends ++ rest) as → ends.length ≤ 2 →
      (∀ e ∈ ends, e.kind = .keyword .close) →
      IsController (w :: n :: (mark ++ x :: ts)) rest ⟨n.text, as, isDefault, w.position⟩

inductive IsDefault : List Token → List Token → DefaultDecl → Prop
  | mk {w x c h a rest} : w.kind = .keyword .default → x.kind = .keyword .action →
      c.isName = true → h.kind = .symbol .hash → a.isName = true →
      IsDefault (w :: x :: c :: h :: a :: rest) rest ⟨c.text, a.text, w.position⟩

/-- A whole stream of tokens, the end of the input last. -/
inductive IsSource : List Token → Declarations → Prop
  | done {e} : e.kind = .finish → IsSource [e] .empty
  | controller {ts us d ds} : IsController ts us d → IsSource us ds →
      IsSource ts { ds with controllers := d :: ds.controllers }
  | default {ts us d ds} : IsDefault ts us d → IsSource us ds →
      IsSource ts { ds with defaults := d :: ds.defaults }

/-- The tokens that may follow the actions of a controller. -/
def Closes (t : Token) : Prop :=
  t.kind = .keyword .controller ∨ t.kind = .keyword .default ∨ t.kind = .finish ∨
    t.kind = .keyword .close

theorem IsPart.startsPart {f : Token} {ts : List Token} {p : UrlPart} (h : IsPart f ts p) :
    f.startsPart = true := by
  cases h with
  | literal h =>
    rcases h with h | h
    · simp [Token.startsPart, h]
    · unfold Token.startsPart
      split
      · rfl
      · rfl
      · rfl
      · exact h
  | bracket h | bracketKind h | colon h | colonKind h => simp [Token.startsPart, h]

theorem IsPart.last {f : Token} {ts : List Token} {p : UrlPart} (h : IsPart f ts p) :
    (ts.getLastD f).kind ≠ .symbol .slash := by
  cases h with
  | literal h =>
    rcases h with h | h
    · simp [h]
    · intro hk
      simp only [List.getLastD_nil] at hk
      simp [Token.isWord, hk] at h
  | bracket _ _ h | bracketKind _ _ _ _ h | colonKind _ _ _ _ _ _ h => simp [h]
  | colon _ h =>
    intro hk
    simp only [List.getLastD_cons, List.getLastD_nil] at hk
    simp [Token.isWord, hk] at h

theorem IsSource.head {ts : List Token} {ds : Declarations} (h : IsSource ts ds) :
    ∃ t us, ts = t :: us ∧ Closes t ∧ t.kind ≠ .keyword .close := by
  cases h with
  | done h => exact ⟨_, _, rfl, .inr (.inr (.inl h)), by simp [h]⟩
  | controller h _ =>
    cases h with
    | mk h => exact ⟨_, _, rfl, .inl h, by simp [h]⟩
  | default h _ =>
    cases h with
    | mk h => exact ⟨_, _, rfl, .inr (.inl h), by simp [h]⟩

theorem IsActions.head {ts rest : List Token} {as : List ActionDecl} (h : IsActions ts rest as) :
    (as = [] ∧ ts = rest) ∨ ∃ t us, ts = t :: us ∧ t.isName = true := by
  cases h with
  | nil => exact .inl ⟨rfl, rfl⟩
  | cons h _ =>
    cases h with
    | mk h => exact .inr ⟨_, _, rfl, h⟩

theorem not_isName_of_closes {t : Token} (h : Closes t) : t.isName = false := by
  rcases h with h | h | h | h <;> simp [Token.isName, h, Keyword.isStructural]

/-- Neither a name nor a token behind the actions goes on with a URL or a mark. -/
theorem kind_of_follows {t : Token} (h : t.isName = true ∨ Closes t) :
    t.kind ≠ .symbol .parenOpen ∧ t.kind ≠ .symbol .slash ∧ t.kind ≠ .keyword .marker := by
  rcases h with h | h
  · refine ⟨?_, ?_, ?_⟩ <;> intro hk <;> simp [Token.isName, hk] at h
  · rcases h with h | h | h | h <;> simp [h]

end Routes.Grammar
