/-!
Reading UTF-8. A sequence of bytes is read as a list of characters with `none` for each maximal
ill-formed part, so that one reading serves both the strict and the forgiving use.
-/
namespace Routes.Text.Utf8

def encode (cs : List Char) : List UInt8 := cs.flatMap String.utf8EncodeChar

/-- A byte that continues a character. -/
def continues (b : UInt8) : Bool := 0x80 ≤ b && b ≤ 0xBF

/-- The bytes that may stand second after a first byte of a character of three bytes. -/
def second3 (a b : UInt8) : Bool :=
  if a == 0xE0 then 0xA0 ≤ b && b ≤ 0xBF
  else if a == 0xED then 0x80 ≤ b && b ≤ 0x9F
  else continues b

/-- The bytes that may stand second after a first byte of a character of four bytes. -/
def second4 (a b : UInt8) : Bool :=
  if a == 0xF0 then 0x90 ≤ b && b ≤ 0xBF
  else if a == 0xF4 then 0x80 ≤ b && b ≤ 0x8F
  else continues b

/-- The number that the low bits of the bytes make up, six for each continuing byte. -/
def combine (lead : UInt8) (bits : Nat) (rest : List UInt8) : Char :=
  Char.ofNat (rest.foldl (fun n b => n * 64 + b.toNat % 64) (lead.toNat % Nat.pow 2 bits))

def readings : List UInt8 → List (Option Char)
  | [] => []
  | a :: as =>
    if a < 0x80 then some (Char.ofNat a.toNat) :: readings as
    else if 0xC2 ≤ a && a ≤ 0xDF then
      match as with
      | b :: bs =>
        if continues b then some (combine a 5 [b]) :: readings bs else none :: readings (b :: bs)
      | [] => [none]
    else if 0xE0 ≤ a && a ≤ 0xEF then
      match as with
      | b :: c :: cs =>
        if second3 a b then
          if continues c then some (combine a 4 [b, c]) :: readings cs
          else none :: readings (c :: cs)
        else none :: readings (b :: c :: cs)
      | [b] => if second3 a b then [none] else none :: readings [b]
      | [] => [none]
    else if 0xF0 ≤ a && a ≤ 0xF4 then
      match as with
      | b :: c :: d :: ds =>
        if second4 a b then
          if continues c then
            if continues d then some (combine a 3 [b, c, d]) :: readings ds
            else none :: readings (d :: ds)
          else none :: readings (c :: d :: ds)
        else none :: readings (b :: c :: d :: ds)
      | [b, c] =>
        if second4 a b then if continues c then [none] else none :: readings [c]
        else none :: readings [b, c]
      | [b] => if second4 a b then [none] else none :: readings [b]
      | [] => [none]
    else none :: readings as

/-- The text of well-formed bytes. -/
def decode? (bs : List UInt8) : Option (List Char) := (readings bs).mapM id

/-- Every ill-formed part is read as the replacement character. -/
def decodeLossy (bs : List UInt8) : List Char := (readings bs).map (·.getD '\uFFFD')

end Routes.Text.Utf8
