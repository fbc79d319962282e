import Routes.Json
/-!
What handlers answer. The names of headers are compared without regard to the case of ASCII
letters, and setting a header puts it last.
-/
namespace Routes

structure Response where
  status : Nat
  headers : List (String × String)
  body : Json

namespace Response

def json (status : Nat) (body : Json) : Response :=
  ⟨status, [("content-type", "application/json")], body⟩

def ok (body : Json) : Response := json 200 body

def error (status : Nat) (message : String) : Response :=
  json status (.ofFields [("error", .text message)])

/-- Two names are the same but for the case of ASCII letters. -/
def sameName (a b : String) : Bool := a.toList.map Char.toLower == b.toList.map Char.toLower

def header? (r : Response) (name : String) : Option String :=
  (r.headers.find? fun (n, _) => sameName n name).map (·.2)

def setHeader (r : Response) (name value : String) : Response :=
  { r with headers := (r.headers.filter fun (n, _) => !sameName n name) ++ [(name, value)] }

end Response
end Routes
