import Routes.Text.Percent
import Routes.Text.Split
/-!
Reading a query: pairs separated by ampersands, with percent coding and `+` for a space. A key
collects its values in order, and a key written with a pair of brackets at its end is the key
without them.
-/
namespace Routes.Request

/-- The keys in the order of their first appearance, each with its values. -/
abbrev Query := List (String × List String)

namespace Query

def lookup (q : Query) (key : String) : List String := ((q.find? (·.1 == key)).map (·.2)).getD []

/-- Puts a value behind those that its key has. -/
def insert : Query → String → String → Query
  | [], key, value => [(key, [value])]
  | (k, vs) :: rest, key, value =>
    if k = key then (k, vs ++ [value]) :: rest else (k, vs) :: insert rest key value

/-- The text that a key or a value is written for. Bytes that are not UTF-8 are replaced. -/
def decodeField (cs : List Char) : List Char :=
  Text.Utf8.decodeLossy (Text.Percent.decode (cs.map fun c => if c = '+' then ' ' else c))

/-- Without one pair of brackets at the end. -/
def bareKey (cs : List Char) : List Char :=
  match Text.after? [']', '['] cs.reverse with
  | some rest => rest.reverse
  | none => cs

/-- A pair is cut at its first equals sign; without one the value is empty. -/
def decodePair (piece : List Char) : String × String :=
  let (key, value) := (Text.cut? '=' piece).getD (piece, [])
  (String.ofList (bareKey (decodeField key)), String.ofList (decodeField value))

/-- The pairs of a query; empty pieces hold none. -/
def pairs (cs : List Char) : List (String × String) :=
  ((Text.pieces '&' cs).filter (!·.isEmpty)).map decodePair

def ofText (query : String) : Query :=
  (pairs query.toList).foldl (fun q (key, value) => q.insert key value) []

end Query
end Routes.Request
