import Routes.Text.Decimal
/-!
Plain scalars that do not stand for their own text but for null, a truth value or a number.
-/
namespace Routes.Yaml

def isNull (s : String) : Bool := ["null", "Null", "NULL", "~"].contains s

def isBool (s : String) : Bool :=
  ["true", "True", "TRUE", "false", "False", "FALSE"].contains s

/-- The value of a whole number without its sign, in one of four bases. -/
def unsigned? : List Char → Option Nat
  | '0' :: 'x' :: cs => Text.natOf? 16 cs
  | '0' :: 'o' :: cs => Text.natOf? 8 cs
  | '0' :: 'b' :: cs => Text.natOf? 2 cs
  | cs => Text.natOf? 10 cs

def unsign : List Char → List Char
  | '+' :: cs | '-' :: cs => cs
  | cs => cs

/-- Digits behind a zero, with or without a sign. They are no number. -/
def isZeroPadded (cs : List Char) : Bool :=
  match unsign cs with
  | '0' :: ds => !ds.isEmpty && ds.all Char.isDigit
  | _ => false

/-- A whole number that fits into 128 bits. -/
def isInt (cs : List Char) : Bool :=
  !isZeroPadded cs &&
    match cs with
    | '+' :: ds => (unsigned? ds).any (· < Nat.pow 2 128)
    | '-' :: ds => (unsigned? ds).any (· ≤ Nat.pow 2 127)
    | ds => (unsigned? ds).any (· < Nat.pow 2 128)

def isFloat (cs : List Char) : Bool :=
  [".inf", ".Inf", ".INF", "+.inf", "+.Inf", "+.INF", "-.inf", "-.Inf", "-.INF", ".nan", ".NaN",
    ".NAN"].any (·.toList == cs) ||
  (!isZeroPadded cs && (Text.Decimal.ofText? (unsign cs)).any fun (m, e) =>
    Text.Decimal.isFinite m e)

/-- A text that would be read as something else if it were written plain. -/
def readsOtherwise (s : String) : Bool :=
  let cs := s.toList
  s.isEmpty || isNull s || isBool s || isZeroPadded cs || isInt cs || isFloat cs

end Routes.Yaml
