import Routes.Yaml.Spelling
/-!
Writing YAML texts. Collections are blocks; the items of a list are not indented below their key.
-/
namespace Routes.Yaml

/-- What is written: keys are words, and texts can have a tag. -/
inductive Tree where
  | null
  | text (tag : Option String) (s : String)
  | list (items : List Tree)
  | record (fields : List (String × Tree))

namespace Tree

def taggedText (indent : Nat) (tag : Option String) (s : String) : List Char :=
  match tag with
  | some t => ' ' :: t.toList ++ ' ' :: spell (indent + 2) s
  | none => ' ' :: spell (indent + 2) s

mutual

/-- The text behind a key and its colon, where the key is indented. -/
def value (indent : Nat) : Tree → List Char
  | null => " null\n".toList
  | text tag s => taggedText indent tag s
  | list [] => " []\n".toList
  | list (x :: xs) => '\n' :: (spaces indent ++ '-' :: item indent x ++ items indent xs)
  | record [] => [' ', '\x7b', '\x7d', '\n']
  | record ((k, v) :: fs) =>
    '\n' :: (spaces (indent + 2) ++ k.toList ++ ':' :: value (indent + 2) v ++
      fields (indent + 2) fs)

/-- The text behind the dash of an item, where the dash is indented. -/
def item (indent : Nat) : Tree → List Char
  | null => " null\n".toList
  | text tag s => taggedText indent tag s
  | list [] => " []\n".toList
  | list (x :: xs) => ' ' :: '-' :: (item (indent + 2) x ++ items (indent + 2) xs)
  | record [] => [' ', '\x7b', '\x7d', '\n']
  | record ((k, v) :: fs) =>
    ' ' :: (k.toList ++ ':' :: value (indent + 2) v ++ fields (indent + 2) fs)

def items (indent : Nat) : List Tree → List Char
  | [] => []
  | x :: xs => spaces indent ++ '-' :: item indent x ++ items indent xs

def fields (indent : Nat) : List (String × Tree) → List Char
  | [] => []
  | (k, v) :: fs => spaces indent ++ k.toList ++ ':' :: value indent v ++ fields indent fs

end

/-- A whole text of a record. -/
def document (fs : List (String × Tree)) : String := String.ofList (fields 0 fs)

end Tree
end Routes.Yaml
