import Routes.Text.Split
/-!
Labels of internationalized domain names in their ASCII form: the ASCII characters stand first,
and numbers after the last hyphen say which other characters go where.
-/
namespace Routes.Request.Punycode

def digit? (c : Char) : Option Nat :=
  if c.isLower then some (c.toNat - 97)
  else if c.isUpper then some (c.toNat - 65)
  else if c.isDigit then some (c.toNat - 22)
  else none

/-- Divides a distance until it is small and says how often. -/
def scale (d k : Nat) : Nat :=
  if 455 < d then scale (d / 35) (k + 36) else k + 36 * d / (d + 38)
termination_by d

/-- The bias for the next number. -/
def adapt (delta count : Nat) (first : Bool) : Nat :=
  let d := if first then delta / 700 else delta / 2
  scale (d + d / count) 0

/-- One number of variable length, with the digits that follow it. -/
def number? (bias : Nat) : (k weight value : Nat) → List Char → Option (Nat × List Char)
  | _, _, _, [] => none
  | k, weight, value, c :: cs =>
    match digit? c with
    | none => none
    | some d =>
      let value := value + d * weight
      let t := if k ≤ bias then 1 else if bias + 26 ≤ k then 26 else k - bias
      if 0xFFFFFFFF < value then none
      else if d < t then some (value, cs)
      else number? bias (k + 36) (weight * (36 - t)) value cs

def insertAt (cs : List Char) (i : Nat) (c : Char) : List Char := cs.take i ++ c :: cs.drop i

/-- Inserts one character for each number. A number tells how many insertions are skipped, counted
through all places of the text for one character and then for the next. -/
def decodeDigits : (fuel n i bias : Nat) → (output digits : List Char) → Option (List Char)
  | _, _, _, _, output, [] => some output
  | 0, _, _, _, _, _ :: _ => none
  | fuel + 1, n, i, bias, output, digits =>
    match number? bias 36 1 i digits with
    | none => none
    | some (j, rest) =>
      let count := output.length + 1
      let m := n + j / count
      if m.isValidChar then
        decodeDigits fuel m (j % count + 1) (adapt (j - i) count (i == 0))
          (insertAt output (j % count) (Char.ofNat m)) rest
      else none

/-- The label that an ASCII form stands for. -/
def decode? (cs : List Char) : Option (List Char) :=
  match Text.cut? '-' cs.reverse with
  | some (digits, base) =>
    if base.isEmpty then none
    else decodeDigits digits.length 128 0 72 base.reverse digits.reverse
  | none => decodeDigits cs.length 128 0 72 [] cs

end Routes.Request.Punycode
