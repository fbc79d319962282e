import Routes.Result
import Routes.Token
/-!
Reading tokens one after the other. A cursor never passes the end of the input: it holds the
tokens before the first end, so what stands behind that has no influence.
-/
namespace Routes

/-- What a reader needs where it cannot go on. -/
inductive Expected where
  | token (k : Token.Kind)
  | declaration
  | controllerName
  | actionName
  | verb
  | url
  | paramName
  | paramNameAtColon
  | paramKind
deriving DecidableEq, Repr

def Expected.describe : Expected → String
  | token k => k.describe
  | declaration => "'controller' or 'default'"
  | controllerName => "controller name"
  | actionName => "action name"
  | verb => "http method (get, post, put, delete)"
  | url => "url"
  | paramName => "parameter name"
  | paramNameAtColon => "parameter name directly after ':'"
  | paramKind => "parameter type ('int' or 'string')"

structure ParseError where
  expected : Expected
  found : Token
deriving DecidableEq, Repr

namespace ParseError

def position (e : ParseError) : Position := e.found.position

def message (e : ParseError) : String :=
  "parse error at " ++ e.position.label ++ ": expected " ++ e.expected.describe ++ ", found " ++
    e.found.display

end ParseError

/-- `before` is the offset at which the last token read ends, if one has been read. -/
structure Cursor where
  before : Option Nat
  ahead : List Token
  finish : Token
deriving DecidableEq, Repr

namespace Cursor

/-- The end of the input of tokens that have none: directly behind the last. -/
def finishAfter (ts : List Token) : Token :=
  .finishAt (match ts.getLast? with
    | some t => ⟨t.position.line, t.position.column, t.endOffset⟩
    | none => .zero)

def ofTokens (ts : List Token) : Cursor :=
  ⟨none, ts.takeWhile (·.kind != .finish),
    ((ts.dropWhile (·.kind != .finish)).head?).getD (finishAfter ts)⟩

def peek (c : Cursor) : Token := c.ahead.headD c.finish

def sees (c : Cursor) (k : Token.Kind) : Bool := c.ahead.head?.any (·.kind == k)

/-- The next token begins where the last one ends. -/
def touches (c : Cursor) : Bool := c.before == some c.peek.position.offset

def fail {α : Type} (c : Cursor) (e : Expected) : Except ParseError α := .error ⟨e, c.peek⟩

/-- Reads one token that passes a test. -/
def takeIf (c : Cursor) (test : Token → Bool) (e : Expected) :
    Except ParseError (Token × Cursor) :=
  match c.ahead with
  | t :: ts => if test t then .ok (t, ⟨some t.endOffset, ts, c.finish⟩) else c.fail e
  | [] => c.fail e

def take (c : Cursor) (k : Token.Kind) : Except ParseError (Token × Cursor) :=
  c.takeIf (·.kind == k) (.token k)

/-- Reads a token of a kind if it stands here, and says whether it did. -/
def skip (c : Cursor) (k : Token.Kind) : Bool × Cursor :=
  match c.ahead with
  | t :: ts => if t.kind == k then (true, ⟨some t.endOffset, ts, c.finish⟩) else (false, c)
  | [] => (false, c)

theorem takeIf_eq_ok {c c' : Cursor} {test : Token → Bool} {e : Expected} {t : Token}
    (h : c.takeIf test e = .ok (t, c')) :
    c.ahead = t :: c'.ahead ∧ test t = true ∧ c'.before = some t.endOffset ∧
      c'.finish = c.finish := by
  unfold takeIf at h
  split at h
  · split at h
    · cases h
      simp_all
    · simp [fail] at h
  · simp [fail] at h

theorem takeIf_length {c c' : Cursor} {test : Token → Bool} {e : Expected} {t : Token}
    (h : c.takeIf test e = .ok (t, c')) : c'.ahead.length + 1 = c.ahead.length := by
  simp [(takeIf_eq_ok h).1]

theorem take_length {c c' : Cursor} {k : Token.Kind} {t : Token}
    (h : c.take k = .ok (t, c')) : c'.ahead.length + 1 = c.ahead.length := takeIf_length h

theorem skip_length (c : Cursor) (k : Token.Kind) : (c.skip k).2.ahead.length ≤ c.ahead.length := by
  unfold skip
  split
  · split <;> simp_all
  · simp

end Cursor
end Routes
