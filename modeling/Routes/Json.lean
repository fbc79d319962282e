import Routes.Text.Split
/-!
JSON values and their text. A number is kept as it is written, and an object keeps the order of its
members.
-/
namespace Routes

/-- A string is kept as the text that it denotes; it denotes none when one of its escapes is half
of a surrogate pair. -/
inductive Json where
  | null
  | bool (b : Bool)
  | number (literal : String)
  | string (text : Option String)
  | array (items : List Json)
  | object (members : List (Option String × Json))

namespace Json

def text (s : String) : Json := .string (some s)

def nat (n : Nat) : Json := .number (toString n)

def ofFields (fields : List (String × Json)) : Json :=
  .object (fields.map fun (k, v) => (some k, v))

def texts (ss : List String) : Json := .array (ss.map text)

/-- A digit of a hexadecimal number in lower case. -/
def hexDigit (n : Nat) : Char := if n < 10 then Char.ofNat (48 + n) else Char.ofNat (87 + n)

/-- Quotes, backslashes and controls are escaped, five controls by a letter. -/
def escape (c : Char) : List Char :=
  if c = '"' then ['\\', '"']
  else if c = '\\' then ['\\', '\\']
  else if c = '\x08' then ['\\', 'b']
  else if c = '\x0c' then ['\\', 'f']
  else if c = '\n' then ['\\', 'n']
  else if c = '\r' then ['\\', 'r']
  else if c = '\t' then ['\\', 't']
  else if c.toNat < 0x20 then
    ['\\', 'u', '0', '0', hexDigit (c.toNat / 16), hexDigit (c.toNat % 16)]
  else [c]

def quote : Option String → List Char
  | some s => '"' :: (s.toList.flatMap escape ++ ['"'])
  | none => ['"', '\\', 'u', 'd', '8', '0', '0', '"']

def indent (depth : Nat) : List Char := '\n' :: List.replicate (2 * depth) ' '

mutual

/-- Each member of a list on a line of its own, two spaces deeper than the list. -/
def pretty (depth : Nat) : Json → List Char
  | null => "null".toList
  | bool true => "true".toList
  | bool false => "false".toList
  | number literal => literal.toList
  | string t => quote t
  | array [] => ['[', ']']
  | array (item :: items) =>
    '[' :: (indent (depth + 1) ++ pretty (depth + 1) item ++ prettyItems (depth + 1) items ++
      indent depth ++ [']'])
  | object [] => ['\x7b', '\x7d']
  | object ((key, value) :: members) =>
    '\x7b' :: (indent (depth + 1) ++ quote key ++ ": ".toList ++ pretty (depth + 1) value ++
      prettyMembers (depth + 1) members ++ indent depth ++ ['\x7d'])

def prettyItems (depth : Nat) : List Json → List Char
  | [] => []
  | item :: items => ',' :: (indent depth ++ pretty depth item ++ prettyItems depth items)

def prettyMembers (depth : Nat) : List (Option String × Json) → List Char
  | [] => []
  | (key, value) :: members =>
    ',' :: (indent depth ++ quote key ++ ": ".toList ++ pretty depth value ++
      prettyMembers depth members)

end

def toPretty (j : Json) : String := String.ofList (j.pretty 0)

end Json
end Routes
