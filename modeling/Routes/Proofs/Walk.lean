import Routes.Declaration.Parse
/-!
Reading tokens by their index. A walk looks at the token where it stands, or at the last one where
it stands behind that, and steps over it unless it is an end of the input. It comes to nothing where
it looks outside the tokens and where a loop turns round more often than it may; no definition here
says that it does neither.
-/
namespace Routes

/-- Tokens to walk over, and the number of times that a loop may turn round. Where a token ends may
be told in any way, also by a sum that wraps. -/
structure Tape where
  tokens : List Token
  ends : Token → Nat
  turns : Nat

/-- The index at which a walk stands, and those that it has looked at or stepped to. -/
structure Walk where
  index : Nat
  visited : List Nat
deriving DecidableEq, Repr

def Walk.forward (w : Walk) : Walk := ⟨w.index + 1, (w.index + 1) :: w.visited⟩

/-- What is read on a walk, if the walk comes to anything. -/
abbrev Walks := ExceptT ParseError (StateT Walk Option)

def Walks.nothing {α : Type} : Walks α := liftM (none : Option α)

def Walks.go {α : Type} (x : Walks α) (w : Walk) : Option (Except ParseError α × Walk) :=
  x.run.run w

namespace Tape

/-- The end of the input of tokens that have none last: directly behind them. -/
def finishAfter (ends : Token → Nat) (ts : List Token) : Token :=
  .finishAt (match ts.getLast? with
    | some t => ⟨t.position.line, t.position.column, ends t⟩
    | none => .zero)

def ofTokens (ends : Token → Nat) (turns : Nat) (ts : List Token) : Tape :=
  ⟨if ts.getLast?.any (·.kind == .finish) then ts else ts ++ [finishAfter ends ts], ends, turns⟩

def visit (i : Nat) : Walks Unit := modify fun w => { w with visited := i :: w.visited }

def forward : Walks Unit := modify Walk.forward

variable (T : Tape)

/-- The token at an index; nothing comes of looking at one outside the tokens. -/
def look (i : Nat) : Walks Token := do
  visit i
  T.tokens[i]?

def peek : Walks Token := do T.look (min (← get).index (T.tokens.length - 1))

def consume : Walks Token := do
  let t ← T.peek
  if t.kind ≠ .finish then forward
  return t

def fail {α : Type} (e : Expected) : Walks α := do throw ⟨e, ← T.peek⟩

def sees (test : Token → Bool) : Walks Bool := do return test (← T.peek)

/-- The token where the walk stands begins where the one in front of it ends. -/
def touches : Walks Bool := do
  match (← get).index with
  | 0 => return false
  | i + 1 =>
    visit i
    match T.tokens[i]? with
    | some t => return T.ends t == (← T.peek).position.offset
    | none => return false

def takeIf (test : Token → Bool) (e : Expected) : Walks Token := do
  if ← T.sees test then T.consume else T.fail e

def take (k : Token.Kind) : Walks Token := T.takeIf (·.kind == k) (.token k)

/-- Reads a token that stands for something. -/
def takeSome {α : Type} (meaning : Token → Option α) (e : Expected) : Walks α := do
  match meaning (← T.peek) with
  | some a =>
    let _ ← T.consume
    return a
  | none => T.fail e

def skip (k : Token.Kind) : Walks Bool := do
  if ← T.sees (·.kind == k) then
    let _ ← T.consume
    return true
  else return false

def paramKind? (t : Token) : Option ParamKind :=
  match t.kind with
  | .keyword .int => some .int
  | .keyword .string => some .text
  | _ => none

def paramKind : Walks ParamKind := T.takeSome paramKind? .paramKind

def kindAfterColon : Walks ParamKind := do
  if ← T.skip (.symbol .colon) then T.paramKind else return .text

def bracketParam : Walks UrlPart := do
  let name ← T.takeIf Token.isWord .paramName
  let kind ← T.kindAfterColon
  let _ ← T.take (.symbol .greater)
  return .param name.text kind

def colonParam : Walks UrlPart := do
  if ← T.touches then
    let name ← T.takeIf Token.isWord .paramName
    if ← T.touches <&&> T.sees (·.kind == .symbol .parenOpen) then
      let _ ← T.consume
      let kind ← T.paramKind
      let _ ← T.take (.symbol .parenClose)
      return .param name.text kind
    else return .param name.text .text
  else T.fail .paramNameAtColon

def urlPart : Walks UrlPart := do
  let t ← T.consume
  if t.kind = .symbol .less then T.bracketParam
  else if t.kind = .symbol .colon then T.colonParam
  else return .literal t.text

/-- The parts that stand here without a gap; in front of the first one a gap may be allowed. -/
def urlParts : Nat → Bool → Walks (List UrlPart)
  | 0, _ => .nothing
  | n + 1, gap => do
    if ← (pure gap <||> T.touches) <&&> T.sees Token.startsPart then
      let part ← T.urlPart
      if ← T.touches <&&> T.sees (·.kind == .symbol .slash) then
        let _ ← T.consume
        let parts ← urlParts n false
        return part :: parts
      else return [part]
    else return []

def url : Walks Url := do
  if ← T.skip (.symbol .slash) then
    let parts ← T.urlParts T.turns false
    return ⟨true, parts⟩
  else if ← T.sees Token.startsPart then
    let parts ← T.urlParts T.turns true
    return ⟨false, parts⟩
  else T.fail .url

def action : Walks ActionDecl := do
  let name ← T.takeIf Token.isName .actionName
  let _ ← T.take (.symbol .arrow)
  let verb ← T.takeSome Cursor.verb? .verb
  let url ← T.url
  let isDefault ← T.skip (.keyword .marker)
  return ⟨name.text, verb, url, isDefault, name.position⟩

def actions : Nat → Walks (List ActionDecl)
  | 0 => .nothing
  | n + 1 => do
    if ← T.sees Token.isName then
      let a ← T.action
      let rest ← actions n
      return a :: rest
    else return []

def controller : Walks ControllerDecl := do
  let word ← T.consume
  let name ← T.takeIf Token.isName .controllerName
  let isDefault ← T.skip (.keyword .marker)
  let _ ← T.take (.keyword .actions)
  let actions ← T.actions T.turns
  let _ ← T.skip (.keyword .close)
  let _ ← T.skip (.keyword .close)
  return ⟨name.text, actions, isDefault, word.position⟩

def defaultAction : Walks DefaultDecl := do
  let word ← T.consume
  let _ ← T.take (.keyword .action)
  let controller ← T.takeIf Token.isName .controllerName
  let _ ← T.take (.symbol .hash)
  let action ← T.takeIf Token.isName .actionName
  return ⟨controller.text, action.text, word.position⟩

def declarations : Nat → Walks Declarations
  | 0 => .nothing
  | n + 1 => do
    if ← T.sees (·.kind == .keyword .controller) then
      let d ← T.controller
      let ds ← declarations n
      return { ds with controllers := d :: ds.controllers }
    else if ← T.sees (·.kind == .keyword .default) then
      let d ← T.defaultAction
      let ds ← declarations n
      return { ds with defaults := d :: ds.defaults }
    else if ← T.sees (·.kind == .finish) then return .empty
    else T.fail .declaration

/-- A walk over all tokens, from the first on. -/
def parse : Option (Except ParseError Declarations × Walk) := (T.declarations T.turns).go ⟨0, []⟩

end Tape

namespace Walks
variable {α β : Type} {x : Walks α} {g : α → Walks β} {w v : Walk}

theorem go_bind_ok {a : α} (h : x.go w = some (.ok a, v)) : (x >>= g).go w = (g a).go v := by
  unfold go at h ⊢
  simp only [ExceptT.run_bind, StateT.run_bind, h]
  rfl

theorem go_bind_error {e : ParseError} (h : x.go w = some (.error e, v)) :
    (x >>= g).go w = some (.error e, v) := by
  unfold go at h ⊢
  simp only [ExceptT.run_bind, StateT.run_bind, h]
  rfl

end Walks
end Routes
