import Routes.Text.Decimal
import Routes.Text.Split
/-!
The literals of TOML: truth values, whole and decimal numbers, dates and times.
-/
namespace Routes.Toml

/-- Digits, which single underscores may separate, without the underscores. -/
def digits? (p : Char → Bool) (cs : List Char) : Option (List Char) :=
  let groups := Text.pieces '_' cs
  if groups.all fun g => !g.isEmpty && g.all p then some groups.flatten else none

def isHexDigit (c : Char) : Bool :=
  c.isDigit || ('a' ≤ c && c ≤ 'f') || ('A' ≤ c && c ≤ 'F')

def isOctalDigit (c : Char) : Bool := '0' ≤ c && c ≤ '7'

def isBinaryDigit (c : Char) : Bool := c == '0' || c == '1'

/-- A number in digits that does not begin with a zero unless it is zero. -/
def whole? (cs : List Char) : Option (List Char) :=
  match digits? Char.isDigit cs with
  | some ('0' :: _ :: _) => none
  | other => other

def inRange (base limit : Nat) (ds : Option (List Char)) : Bool :=
  (ds.bind (Text.natOf? base)).any (· < limit)

/-- A whole number that fits into 128 bits. -/
def isInteger : List Char → Bool
  | '0' :: 'x' :: cs => inRange 16 (Nat.pow 2 128) (digits? isHexDigit cs)
  | '0' :: 'o' :: cs => inRange 8 (Nat.pow 2 128) (digits? isOctalDigit cs)
  | '0' :: 'b' :: cs => inRange 2 (Nat.pow 2 128) (digits? isBinaryDigit cs)
  | '+' :: cs => inRange 10 (Nat.pow 2 128) (whole? cs)
  | '-' :: cs => inRange 10 (Nat.pow 2 127 + 1) (whole? cs)
  | cs => inRange 10 (Nat.pow 2 128) (whole? cs)

def unsign : List Char → List Char
  | '+' :: cs | '-' :: cs => cs
  | cs => cs

def isExponentMark (c : Char) : Bool := c == 'e' || c == 'E'

/-- A number with a fraction, an exponent or both. -/
def isDecimal (cs : List Char) : Bool :=
  let cs := unsign cs
  let mantissa := cs.takeWhile (!isExponentMark ·)
  let exponent? : Option (List Char) := match cs.dropWhile (!isExponentMark ·) with
    | [] => some []
    | _ :: '-' :: e => (digits? Char.isDigit e).map ('e' :: '-' :: ·)
    | _ :: e => (digits? Char.isDigit (unsign e)).map ('e' :: ·)
  let mantissa? : Option (List Char) := match Text.cut? '.' mantissa with
    | some (w, f) => do return (← whole? w) ++ '.' :: (← digits? Char.isDigit f)
    | none => whole? mantissa
  match mantissa?, exponent? with
  | some m, some e =>
    (m.contains '.' || !e.isEmpty) &&
      (Text.Decimal.ofText? (m ++ e)).any fun (m, e) => Text.Decimal.isFinite m e
  | _, _ => false

def isSpecial (cs : List Char) : Bool :=
  let cs := unsign cs
  cs == "inf".toList || cs == "nan".toList

/-- Two digits of a number in a range. -/
def isPair (a b : Char) (least most : Nat) : Bool :=
  match Text.natOf? 10 [a, b] with
  | some n => least ≤ n && n ≤ most
  | none => false

def daysOf (year month : Nat) : Nat :=
  if month == 2 then
    if year % 4 == 0 && (year % 100 != 0 || year % 400 == 0) then 29 else 28
  else if [4, 6, 9, 11].contains month then 30
  else 31

/-- What follows a date. -/
def afterDate? : List Char → Option (List Char)
  | y₁ :: y₂ :: y₃ :: y₄ :: '-' :: m₁ :: m₂ :: '-' :: d₁ :: d₂ :: rest =>
    match Text.natOf? 10 [y₁, y₂, y₃, y₄], Text.natOf? 10 [m₁, m₂] with
    | some year, some month =>
      if isPair m₁ m₂ 1 12 && isPair d₁ d₂ 1 (daysOf year month) then some rest else none
    | _, _ => none
  | _ => none

/-- What follows a time of day; the seconds may be left out. -/
def afterTime? : List Char → Option (List Char)
  | h₁ :: h₂ :: ':' :: m₁ :: m₂ :: rest =>
    if isPair h₁ h₂ 0 23 && isPair m₁ m₂ 0 59 then
      match rest with
      | ':' :: s₁ :: s₂ :: rest =>
        if isPair s₁ s₂ 0 60 then
          match rest with
          | '.' :: fraction =>
            if fraction.head?.any Char.isDigit then some (fraction.dropWhile Char.isDigit) else none
          | _ => some rest
        else none
      | _ => some rest
    else none
  | _ => none

def isOffset : List Char → Bool
  | [] => true
  | [z] => z == 'Z' || z == 'z'
  | [s, h₁, h₂, ':', m₁, m₂] => (s == '+' || s == '-') && isPair h₁ h₂ 0 23 && isPair m₁ m₂ 0 59
  | _ => false

/-- A date, a time of day, or both with or without an offset from universal time. -/
def isTime (cs : List Char) : Bool :=
  match afterDate? cs with
  | none => afterTime? cs == some []
  | some [] => true
  | some (sep :: time) =>
    (sep == 'T' || sep == 't' || sep == ' ') && (afterTime? time).any isOffset

def isLiteral (cs : List Char) : Bool :=
  cs == "true".toList || cs == "false".toList || isInteger cs || isDecimal cs || isSpecial cs ||
    isTime cs

def isLiteralChar (c : Char) : Bool := c.isAlphanum || ['_', '+', '-', '.', ':'].contains c

/-- A literal at the front of a text. A space may separate a date from a time. -/
def readLiteral (cs : List Char) : Option (String × List Char) :=
  let run := cs.takeWhile isLiteralChar
  let rest := cs.dropWhile isLiteralChar
  let (run, rest) := match afterDate? run, rest with
    | some [], ' ' :: d :: more =>
      if d.isDigit then
        (run ++ ' ' :: (d :: more).takeWhile isLiteralChar, (d :: more).dropWhile isLiteralChar)
      else (run, rest)
    | _, _ => (run, rest)
  if isLiteral run then some (String.ofList run, rest) else none

end Routes.Toml
