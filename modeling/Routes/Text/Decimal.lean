/-!
Numbers written in digits, and whether a decimal number fits into a binary one of 64 bits.
-/
namespace Routes.Text

def digit? (c : Char) : Option Nat :=
  if c.isDigit then some (c.toNat - 48)
  else if 'a' ≤ c && c ≤ 'z' then some (c.toNat - 87)
  else if 'A' ≤ c && c ≤ 'Z' then some (c.toNat - 55)
  else none

/-- The value of digits of a base, of which there is at least one. -/
def natOf? (base : Nat) (cs : List Char) : Option Nat :=
  if cs.isEmpty then none
  else cs.foldlM (fun n c =>
    match digit? c with
    | some d => if d < base then some (base * n + d) else none
    | none => none) 0

namespace Decimal

/-- A decimal number without a sign: its digits without the point, and the power of ten that they
count. -/
def ofText? (cs : List Char) : Option (Nat × Int) :=
  let whole := cs.takeWhile Char.isDigit
  let (fraction, rest) := match cs.dropWhile Char.isDigit with
    | '.' :: r => (r.takeWhile Char.isDigit, r.dropWhile Char.isDigit)
    | r => ([], r)
  let exponent? : Option Int := match rest with
    | [] => some 0
    | e :: r =>
      if e == 'e' || e == 'E' then
        match r with
        | '-' :: ds => (natOf? 10 ds).map fun n => -(n : Int)
        | '+' :: ds => (natOf? 10 ds).map Int.ofNat
        | ds => (natOf? 10 ds).map Int.ofNat
      else none
  match natOf? 10 (whole ++ fraction), exponent? with
  | some m, some e => some (m, e - fraction.length)
  | _, _ => none

/-- A decimal number below the point from which numbers round to infinity. -/
def isFinite (m : Nat) (e : Int) : Bool :=
  let limit := Nat.pow 2 1024 - Nat.pow 2 970
  let size := (Nat.toDigits 10 m).length + e
  if m == 0 || size ≤ 308 then true
  else if 310 < size then false
  else if 0 ≤ e then m * Nat.pow 10 e.toNat < limit
  else m < limit * Nat.pow 10 (-e).toNat

end Decimal
end Routes.Text
