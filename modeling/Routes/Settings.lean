import Routes.RouteData
/-!
What a table is built with beside route data: where its paths are mounted, the namespace of its
controllers, and the default action for route data that names none.
-/
namespace Routes

structure Settings where
  nspace : String
  baseUrl : String
  defaultAction : String
deriving DecidableEq, Repr

/-- The environment variables that override settings. -/
structure Settings.Overrides where
  nspace : Option String
  baseUrl : Option String
  defaultAction : Option String
deriving DecidableEq, Repr

namespace Settings

/-- No namespace, no base URL, and the index of the index controller as default. -/
def standard : Settings := ⟨"", "", "Index.index"⟩

def override (s : Settings) (o : Overrides) : Settings :=
  ⟨o.nspace.getD s.nspace, o.baseUrl.getD s.baseUrl, o.defaultAction.getD s.defaultAction⟩

/-- A text without the pairs of colons at its end. The text is read in reverse. -/
def dropColonPairs : List Char → List Char
  | ':' :: ':' :: cs => dropColonPairs cs
  | cs => cs

/-- A controller inside the namespace. -/
def qualify (s : Settings) (controller : String) : String :=
  match (dropColonPairs s.nspace.toList.reverse).reverse with
  | [] => controller
  | ns => String.ofList ns ++ "::" ++ controller

end Settings
end Routes
