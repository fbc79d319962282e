import Routes.Text.Extending
import Routes.Text.Printable
/-!
Quoted literals. A character inside quotes stands for itself unless it is the quote, a backslash,
unprintable or extending; those are written after a backslash.
-/
namespace Routes.Text.Quoted

/-- The code point of a character in lower-case hexadecimal digits, between braces. -/
def codePoint (c : Char) : List Char :=
  '\\' :: 'u' :: '\x7b' :: (Nat.toDigits 16 c.toNat ++ ['\x7d'])

def escape (quote c : Char) : List Char :=
  if c = '\t' then ['\\', 't']
  else if c = '\r' then ['\\', 'r']
  else if c = '\n' then ['\\', 'n']
  else if c = '\x00' then ['\\', '0']
  else if c = '\\' then ['\\', '\\']
  else if c = quote then ['\\', quote]
  else if isExtending c || !isPrintable c then codePoint c
  else [c]

/-- A text between quotation marks. -/
def text (s : String) : String :=
  String.ofList ('"' :: (s.toList.flatMap (escape '"') ++ ['"']))

/-- One character between apostrophes. -/
def character (c : Char) : String :=
  String.ofList ('\'' :: (escape '\'' c ++ ['\'']))

end Routes.Text.Quoted
