import Routes.Position
/-!
The words of the route language. A token knows its kind, its spelling and where it stands.
-/
namespace Routes

inductive Keyword where
  | controller | actions | action | default | marker | close
  | get | post | put | delete | int | string
deriving DecidableEq, Repr

namespace Keyword

/-- Every keyword with its spelling in lower case. -/
def all : List (String × Keyword) :=
  [("controller", controller), ("actions", actions), ("action", action), ("default", default),
   (":default", marker), ("end", close), ("get", get), ("post", post), ("put", put),
   ("delete", delete), ("int", int), ("string", string)]

def spelling : Keyword → String
  | controller => "controller"
  | actions => "actions"
  | action => "action"
  | default => "default"
  | marker => ":default"
  | close => "end"
  | get => "get"
  | post => "post"
  | put => "put"
  | delete => "delete"
  | int => "int"
  | string => "string"

/-- The keywords that begin or end a block and so never name anything. -/
def isStructural : Keyword → Bool
  | actions | controller | default | close => true
  | _ => false

end Keyword

inductive Symbol where
  | arrow | parenOpen | parenClose | slash | colon | less | greater | hash
deriving DecidableEq, Repr

def Symbol.spelling : Symbol → String
  | arrow => "<-"
  | parenOpen => "("
  | parenClose => ")"
  | slash => "/"
  | colon => ":"
  | less => "<"
  | greater => ">"
  | hash => "#"

def Symbol.all : List Symbol :=
  [arrow, parenOpen, parenClose, slash, colon, less, greater, hash]

inductive Token.Kind where
  | symbol (s : Symbol)
  | keyword (k : Keyword)
  | ident
  | fragment
  | finish
deriving DecidableEq, Repr

/-- The name of a kind in messages. -/
def Token.Kind.describe : Token.Kind → String
  | .symbol s => "'" ++ s.spelling ++ "'"
  | .keyword k => "'" ++ k.spelling ++ "'"
  | .ident => "identifier"
  | .fragment => "url fragment"
  | .finish => "end of input"

/-- `size` is the length of the spelling in bytes. -/
structure Token where
  kind : Token.Kind
  text : String
  position : Position
  size : Nat
deriving DecidableEq, Repr

namespace Token

/-- The offset just behind a token. The sum has no bound: one of machine words would wrap for tokens
made by hand that end behind the largest offset, as no text has one there. -/
def endOffset (t : Token) : Nat := t.position.offset + t.size

/-- Identifiers, and the keywords spelled like one. -/
def isWord (t : Token) : Bool :=
  match t.kind with
  | .ident => true
  | .keyword k => k != .marker
  | _ => false

/-- The words that may name a controller or an action. -/
def isName (t : Token) : Bool :=
  match t.kind with
  | .ident => true
  | .keyword k => k != .marker && !k.isStructural
  | _ => false

/-- The tokens with which a part of a URL may begin. -/
def startsPart (t : Token) : Bool :=
  match t.kind with
  | .symbol .less | .symbol .colon | .fragment => true
  | _ => t.isWord

/-- A token as messages show it. -/
def display (t : Token) : String :=
  match t.kind with
  | .finish => t.kind.describe
  | k => k.describe ++ " \"" ++ t.text ++ "\""

/-- The end of the input at a place. -/
def finishAt (p : Position) : Token := ⟨.finish, "", p, 0⟩

end Token
end Routes
