import Routes.Text.Split
/-!
The methods under which a table holds routes.
-/
namespace Routes

inductive Method where
  | get | post | put | delete | patch | head | options
deriving DecidableEq, Repr

namespace Method

def name : Method → String
  | get => "GET"
  | post => "POST"
  | put => "PUT"
  | delete => "DELETE"
  | patch => "PATCH"
  | head => "HEAD"
  | options => "OPTIONS"

def all : List Method := [get, post, put, delete, patch, head, options]

/-- A method is known by its name in any case. -/
def ofName? (s : String) : Option Method :=
  all.find? fun m => m.name.toList == Text.upper s.toList

def isTokenChar (c : Char) : Bool :=
  c.isAlphanum || ['!', '#', '$', '%', '&', '\'', '*', '+', '-', '.', '^', '_', '\x60', '|',
    '~'].contains c

/-- A text that could be the name of a method, known or not. -/
def isToken (s : String) : Bool := !s.isEmpty && s.toList.all isTokenChar

/-- The method of a name that is spelled exactly. A name in another case is another method. -/
def ofExactName? (s : String) : Option Method := all.find? (·.name == s)

end Method
end Routes
