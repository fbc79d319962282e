import Routes.Declaration
import Routes.Token.Cursor
import Routes.Token.Scan
/-!
Reading declarations from tokens. An optional part is skipped when its first token is absent; a
mistake further inside it is an error. A URL is a run of tokens without gaps.
-/
namespace Routes

namespace Cursor

def paramKind (c : Cursor) : Except ParseError (ParamKind × Cursor) :=
  if c.sees (.keyword .int) then .ok (.int, (c.skip (.keyword .int)).2)
  else if c.sees (.keyword .string) then .ok (.text, (c.skip (.keyword .string)).2)
  else c.fail .paramKind

/-- A kind after a colon; text where there is no colon. -/
def kindAfterColon (c : Cursor) : Except ParseError (ParamKind × Cursor) :=
  let (typed, c) := c.skip (.symbol .colon)
  if typed then c.paramKind else .ok (.text, c)

/-- The rest of a parameter after `<`: a name, perhaps a kind, and `>`. -/
def bracketParam (c : Cursor) : Except ParseError (UrlPart × Cursor) := do
  let (name, c) ← c.takeIf Token.isWord .paramName
  let (kind, c) ← c.kindAfterColon
  let (_, c) ← c.take (.symbol .greater)
  return (.param name.text kind, c)

/-- The rest of a parameter after `:`: a name without a gap, and a kind in parentheses that
follows without a gap. -/
def colonParam (c : Cursor) : Except ParseError (UrlPart × Cursor) := do
  if !c.touches then c.fail .paramNameAtColon
  else
    let (name, c) ← c.takeIf Token.isWord .paramName
    if c.touches && c.sees (.symbol .parenOpen) then
      let (kind, c) ← (c.skip (.symbol .parenOpen)).2.paramKind
      let (_, c) ← c.take (.symbol .parenClose)
      return (.param name.text kind, c)
    else return (.param name.text .text, c)

def urlPart (c : Cursor) : Except ParseError (UrlPart × Cursor) := do
  let (t, c) ← c.takeIf Token.startsPart .url
  if t.kind = .symbol .less then c.bracketParam
  else if t.kind = .symbol .colon then c.colonParam
  else return (.literal t.text, c)

theorem paramKind_length {c c' : Cursor} {k : ParamKind} (h : c.paramKind = .ok (k, c')) :
    c'.ahead.length ≤ c.ahead.length := by
  unfold paramKind at h
  split at h
  · cases h; exact skip_length ..
  · split at h
    · cases h; exact skip_length ..
    · simp [fail] at h

theorem kindAfterColon_length {c c' : Cursor} {k : ParamKind}
    (h : c.kindAfterColon = .ok (k, c')) : c'.ahead.length ≤ c.ahead.length := by
  have := skip_length c (.symbol .colon)
  simp only [kindAfterColon] at h
  split at h
  · have := paramKind_length h; omega
  · cases h; omega

theorem bracketParam_length {c c' : Cursor} {p : UrlPart} (h : c.bracketParam = .ok (p, c')) :
    c'.ahead.length ≤ c.ahead.length := by
  simp only [bracketParam, bind_eq_ok, pure_eq_ok] at h
  obtain ⟨⟨t, c₁⟩, h₁, ⟨k, c₂⟩, h₂, ⟨u, c₃⟩, h₃, h⟩ := h
  have := takeIf_length h₁
  have := kindAfterColon_length h₂
  have := take_length h₃
  cases h
  dsimp only at *
  omega

theorem colonParam_length {c c' : Cursor} {p : UrlPart} (h : c.colonParam = .ok (p, c')) :
    c'.ahead.length ≤ c.ahead.length := by
  unfold colonParam at h
  split at h
  · simp [fail] at h
  · obtain ⟨⟨t, c₁⟩, h₁, h⟩ := bind_eq_ok.1 h
    have := takeIf_length h₁
    simp only at h
    split at h
    · simp only [bind_eq_ok, pure_eq_ok] at h
      obtain ⟨⟨k, c₂⟩, h₂, ⟨u, c₃⟩, h₃, h⟩ := h
      have := skip_length c₁ (.symbol .parenOpen)
      have := paramKind_length h₂
      have := take_length h₃
      cases h
      dsimp only at *
      omega
    · cases h
      omega

theorem urlPart_length {c c' : Cursor} {p : UrlPart} (h : c.urlPart = .ok (p, c')) :
    c'.ahead.length < c.ahead.length := by
  obtain ⟨⟨t, c₁⟩, h₁, h⟩ := bind_eq_ok.1 h
  have := takeIf_length h₁
  simp only at h
  split at h
  · have := bracketParam_length h; omega
  · split at h
    · have := colonParam_length h; omega
    · cases h; omega

/-- One part, and after a slash without gaps the parts that follow it without a gap. -/
def urlParts (c : Cursor) : Except ParseError (List UrlPart × Cursor) :=
  match _h : c.urlPart with
  | .error e => .error e
  | .ok (part, c₁) =>
    if c₁.touches && c₁.sees (.symbol .slash) then
      let c₂ := (c₁.skip (.symbol .slash)).2
      if c₂.touches && c₂.ahead.head?.any Token.startsPart then
        (urlParts c₂).map fun (parts, c₃) => (part :: parts, c₃)
      else .ok ([part], c₂)
    else .ok ([part], c₁)
termination_by c.ahead.length
decreasing_by
  have := urlPart_length _h
  have := skip_length c₁ (.symbol .slash)
  omega

def url (c : Cursor) : Except ParseError (Url × Cursor) :=
  let (absolute, c) := c.skip (.symbol .slash)
  if absolute then
    if c.touches && c.ahead.head?.any Token.startsPart then
      (urlParts c).map fun (parts, c) => (⟨true, parts⟩, c)
    else .ok (⟨true, []⟩, c)
  else (urlParts c).map fun (parts, c) => (⟨false, parts⟩, c)

def verb? (t : Token) : Option Verb :=
  match t.kind with
  | .keyword .get => some .get
  | .keyword .post => some .post
  | .keyword .put => some .put
  | .keyword .delete => some .delete
  | _ => none

def verb (c : Cursor) : Except ParseError (Verb × Cursor) := do
  let (t, c) ← c.takeIf (fun t => (verb? t).isSome) .verb
  return ((verb? t).getD .get, c)

def action (c : Cursor) : Except ParseError (ActionDecl × Cursor) := do
  let (name, c) ← c.takeIf Token.isName .actionName
  let (_, c) ← c.take (.symbol .arrow)
  let (verb, c) ← c.verb
  let (url, c) ← c.url
  let (isDefault, c) := c.skip (.keyword .marker)
  return (⟨name.text, verb, url, isDefault, name.position⟩, c)

theorem urlParts_length {c c' : Cursor} {ps : List UrlPart} (h : c.urlParts = .ok (ps, c')) :
    c'.ahead.length < c.ahead.length := by
  fun_induction urlParts c generalizing ps with
  | case1 => simp at h
  | case2 c part c₁ h₁ _ c₂ _ =>
    rename_i ih
    obtain ⟨r, h₂, hr⟩ := map_eq_ok.1 h
    have := urlPart_length h₁
    have h₃ : c₂.ahead.length ≤ c₁.ahead.length := skip_length c₁ (.symbol .slash)
    cases hr
    have := ih h₂
    omega
  | case3 c part c₁ h₁ _ c₂ =>
    have := urlPart_length h₁
    have h₃ : c₂.ahead.length ≤ c₁.ahead.length := skip_length c₁ (.symbol .slash)
    simp only [Except.ok.injEq, Prod.mk.injEq] at h
    rw [← h.2]
    omega
  | case4 c part c₁ h₁ _ =>
    have := urlPart_length h₁
    cases h
    omega

theorem url_length {c c' : Cursor} {u : Url} (h : c.url = .ok (u, c')) :
    c'.ahead.length ≤ c.ahead.length := by
  have h₀ := skip_length c (.symbol .slash)
  simp only [url] at h
  split at h
  · split at h
    · obtain ⟨r, h₁, hr⟩ := map_eq_ok.1 h
      have := urlParts_length h₁
      cases hr
      omega
    · cases h; omega
  · obtain ⟨r, h₁, hr⟩ := map_eq_ok.1 h
    have := urlParts_length h₁
    cases hr
    omega

theorem action_length {c c' : Cursor} {a : ActionDecl} (h : c.action = .ok (a, c')) :
    c'.ahead.length < c.ahead.length := by
  simp only [action, verb, bind_eq_ok, pure_eq_ok] at h
  obtain ⟨⟨t₁, c₁⟩, h₁, ⟨t₂, c₂⟩, h₂, ⟨v, c₃⟩, ⟨⟨t₃, c₄⟩, h₃, hv⟩, ⟨u, c₅⟩, h₅, h⟩ := h
  have := takeIf_length h₁
  have := take_length h₂
  have := takeIf_length h₃
  have := url_length h₅
  have := skip_length c₅ (.keyword .marker)
  cases hv
  cases h
  dsimp only at *
  omega

/-- The actions that stand here, up to the first token that names none. -/
def actions (c : Cursor) : Except ParseError (List ActionDecl × Cursor) :=
  if c.ahead.head?.any Token.isName then
    match _h : c.action with
    | .error e => .error e
    | .ok (a, c₁) => (actions c₁).map fun (rest, c₂) => (a :: rest, c₂)
  else .ok ([], c)
termination_by c.ahead.length
decreasing_by exact action_length _h

theorem actions_length {c c' : Cursor} {as : List ActionDecl} (h : c.actions = .ok (as, c')) :
    c'.ahead.length ≤ c.ahead.length := by
  fun_induction actions c generalizing as with
  | case1 => simp at h
  | case2 c _ a c₁ h₁ ih =>
    obtain ⟨r, h₂, hr⟩ := map_eq_ok.1 h
    have := action_length h₁
    cases hr
    have := ih h₂
    omega
  | case3 => cases h; exact Nat.le_refl _

/-- Up to two closing words follow the actions: one for them, one for the controller. -/
def controller (c : Cursor) : Except ParseError (ControllerDecl × Cursor) := do
  let (word, c) ← c.take (.keyword .controller)
  let (name, c) ← c.takeIf Token.isName .controllerName
  let (isDefault, c) := c.skip (.keyword .marker)
  let (_, c) ← c.take (.keyword .actions)
  let (actions, c) ← c.actions
  let (_, c) := c.skip (.keyword .close)
  let (_, c) := c.skip (.keyword .close)
  return (⟨name.text, actions, isDefault, word.position⟩, c)

def defaultAction (c : Cursor) : Except ParseError (DefaultDecl × Cursor) := do
  let (word, c) ← c.take (.keyword .default)
  let (_, c) ← c.take (.keyword .action)
  let (controller, c) ← c.takeIf Token.isName .controllerName
  let (_, c) ← c.take (.symbol .hash)
  let (action, c) ← c.takeIf Token.isName .actionName
  return (⟨controller.text, action.text, word.position⟩, c)

theorem controller_length {c c' : Cursor} {d : ControllerDecl}
    (h : c.controller = .ok (d, c')) : c'.ahead.length < c.ahead.length := by
  simp only [controller, bind_eq_ok, pure_eq_ok] at h
  obtain ⟨⟨t₁, c₁⟩, h₁, ⟨t₂, c₂⟩, h₂, ⟨t₃, c₃⟩, h₃, ⟨as, c₄⟩, h₄, h⟩ := h
  have := take_length h₁
  have := takeIf_length h₂
  have := skip_length c₂ (.keyword .marker)
  have := take_length h₃
  have := actions_length h₄
  have := skip_length c₄ (.keyword .close)
  have := skip_length (c₄.skip (.keyword .close)).2 (.keyword .close)
  cases h
  dsimp only at *
  omega

theorem defaultAction_length {c c' : Cursor} {d : DefaultDecl}
    (h : c.defaultAction = .ok (d, c')) : c'.ahead.length < c.ahead.length := by
  simp only [defaultAction, bind_eq_ok, pure_eq_ok] at h
  obtain ⟨⟨t₁, c₁⟩, h₁, ⟨t₂, c₂⟩, h₂, ⟨t₃, c₃⟩, h₃, ⟨t₄, c₄⟩, h₄, ⟨t₅, c₅⟩, h₅, h⟩ := h
  have := take_length h₁
  have := take_length h₂
  have := takeIf_length h₃
  have := take_length h₄
  have := takeIf_length h₅
  cases h
  dsimp only at *
  omega

/-- Controllers and default actions in any order, up to the end of the input. -/
def declarations (c : Cursor) : Except ParseError Declarations :=
  if c.sees (.keyword .controller) then
    match _h : c.controller with
    | .error e => .error e
    | .ok (d, c₁) => (declarations c₁).map fun ds => { ds with controllers := d :: ds.controllers }
  else if c.sees (.keyword .default) then
    match _h : c.defaultAction with
    | .error e => .error e
    | .ok (d, c₁) => (declarations c₁).map fun ds => { ds with defaults := d :: ds.defaults }
  else if c.ahead.isEmpty then .ok .empty
  else c.fail .declaration
termination_by c.ahead.length
decreasing_by
  · exact controller_length _h
  · exact defaultAction_length _h

end Cursor

namespace Declarations

/-- Only the tokens up to the first end of the input count. -/
def ofTokens (ts : List Token) : Except ParseError Declarations := (Cursor.ofTokens ts).declarations

end Declarations
end Routes
