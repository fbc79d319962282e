import Routes.Response
import Routes.Table.Resolve
import Routes.Text.Quoted
/-!
Handlers and the registries that hold them. A registry has at most one handler for a pair of a
controller and an action.
-/
namespace Routes

/-- How a handler breaks down: with a text or without one. -/
inductive Failure where
  | text (message : String)
  | other
deriving DecidableEq, Repr

/-- A handler answers an outcome; it is told how many times it has been called, this time
included. -/
abbrev Handler := Nat → Outcome → Except Failure Response

def Failure.message : Failure → String
  | text m => m
  | other => "unknown panic"

/-- A handler that breaks down answers with an error. -/
def Response.ofResult : Except Failure Response → Response
  | .ok r => r
  | .error f => .error 500 ("Handler panicked: " ++ f.message)

/-- `number` tells a registration from all others. -/
structure Registration where
  controller : String
  action : String
  number : Nat
  handler : Handler

abbrev Registry := List Registration

namespace Registry

def get? (r : Registry) (controller action : String) : Option Registration :=
  r.find? fun e => e.controller == controller && e.action == action

def contains (r : Registry) (controller action : String) : Bool := (r.get? controller action).isSome

/-- Puts a handler in place of the one for its pair. -/
def register (r : Registry) (e : Registration) : Registry :=
  r.filter (fun old => !(old.controller == e.controller && old.action == e.action)) ++ [e]

/-- The pairs that have a handler, in the order of their names. -/
def pairs (r : Registry) : List (String × String) :=
  (r.map fun e => (e.controller, e.action)).mergeSort fun a b =>
    a.1 < b.1 || (a.1 == b.1 && a.2 ≤ b.2)

def describe (r : Registry) : String :=
  "HandlerRegistry \x7b handlers: [" ++ ", ".intercalate (r.pairs.map fun (c, a) =>
    "(" ++ Text.Quoted.text c ++ ", " ++ Text.Quoted.text a ++ ")") ++ "] \x7d"

/-- The targets of a table without a handler, each once. -/
def missing (r : Registry) (t : Table) : List String :=
  let targets := t.routes.map (fun route => (route.controller, route.action)) ++
    [(t.default.controller, t.default.action)]
  targets.foldl (fun seen (c, a) =>
    let target := c ++ "#" ++ a
    if r.contains c a || seen.contains target then seen else seen ++ [target]) []

end Registry

/-- The pair that an outcome names has no handler. -/
structure MissingHandler where
  controller : String
  action : String
deriving DecidableEq, Repr

def MissingHandler.message (e : MissingHandler) : String :=
  "no handler registered for " ++ e.controller ++ "#" ++ e.action

end Routes
