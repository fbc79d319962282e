/-!
YAML documents as trees. A node can be named by a number and stand again elsewhere as an alias.
-/
namespace Routes.Yaml

/-- What stands in front of a node. -/
structure Props where
  anchor : Option Nat
  tag : Option String
deriving DecidableEq, Repr

def Props.none : Props := ⟨.none, .none⟩

inductive Node where
  | reference (number : Nat)
  | scalar (props : Props) (plain : Bool) (text : String)
  | sequence (props : Props) (items : List Node)
  | mapping (props : Props) (entries : List (Node × Node))

namespace Node

/-- What stands where nothing is written. -/
def empty : Node := .scalar .none true ""

mutual

/-- The last node with a number in the order of the text. -/
def find? (number : Nat) : Node → Option Node
  | reference _ => none
  | scalar p plain text => if p.anchor = some number then some (scalar p plain text) else none
  | sequence p items =>
    (findIn? number items).or (if p.anchor = some number then some (sequence p items) else none)
  | mapping p entries =>
    (findValue? number entries).or
      (if p.anchor = some number then some (mapping p entries) else none)

def findIn? (number : Nat) : List Node → Option Node
  | [] => none
  | item :: items => (findIn? number items).or (item.find? number)

def findValue? (number : Nat) : List (Node × Node) → Option Node
  | [] => none
  | (key, value) :: entries =>
    ((findValue? number entries).or (value.find? number)).or (key.find? number)

end

/-- The node that an alias inside a document stands for. -/
def resolve (document : Node) : Node → Node
  | reference n => (document.find? n).getD (reference n)
  | node => node

end Node
end Routes.Yaml
