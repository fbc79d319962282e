import Routes.Text.Percent
import Routes.Text.Split
/-!
Network addresses as the host of a URL: numbers of version four in their many spellings, and
addresses of version six, which stand in brackets.
-/
namespace Routes.Request.Address

/-- The value of a number, `none` where it is larger than any address. -/
abbrev Part := Option Nat

def digits? (base : Nat) (cs : List Char) : Option Nat :=
  cs.foldlM (fun n c =>
    match Text.Percent.hexValue? c with
    | some d => if d < base then some (n * base + d) else none
    | none => none) 0

/-- A number is hexadecimal after `0x`, octal after `0`, and decimal else. -/
def number? (cs : List Char) : Option Nat :=
  match cs with
  | [] => none
  | '0' :: 'x' :: ds | '0' :: 'X' :: ds => digits? 16 ds
  | '0' :: d :: ds => digits? 8 (d :: ds)
  | ds => digits? 10 ds

/-- The labels of a domain without an empty one at the end. -/
def labels (domain : List Char) : List (List Char) :=
  let ls := Text.pieces '.' domain
  match ls.reverse with
  | [] :: rest => rest.reverse
  | _ => ls

/-- A domain whose last label is a number is read as an address. -/
def endsInNumber (domain : List Char) : Bool :=
  match (labels domain).getLast? with
  | some l => (!l.isEmpty && l.all Char.isDigit) || (number? l).isSome
  | none => false

/-- Up to four numbers make an address: all but the last are bytes, and the last fills the bytes
that are left. -/
def isVersion4 (domain : List Char) : Bool :=
  let ls := labels domain
  match ls.mapM number? with
  | none => false
  | some ns =>
    match ns.reverse with
    | [] => false
    | last :: rest => ns.length ≤ 4 && rest.all (· ≤ 255) && last < Nat.pow 256 (4 - rest.length)

/-- A byte in decimal without leading zeros. -/
def isByte (cs : List Char) : Bool :=
  !cs.isEmpty && cs.all Char.isDigit && (cs.length == 1 || cs.head? != some '0') &&
    (digits? 10 cs).any (· ≤ 255)

def isDottedBytes (cs : List Char) : Bool :=
  let ps := Text.pieces '.' cs
  ps.length == 4 && ps.all isByte

/-- One to four hexadecimal digits. -/
def isGroup (cs : List Char) : Bool :=
  !cs.isEmpty && cs.length ≤ 4 && cs.all fun c => (Text.Percent.hexValue? c).isSome

/-- The number of groups that a text holds between colons, where four dotted bytes at the end of
the address count for two. -/
def groups? (atEnd : Bool) (cs : List Char) : Option Nat :=
  if cs.isEmpty then some 0
  else
    let ps := Text.pieces ':' cs
    if ps.all isGroup then some ps.length
    else if atEnd && ps.dropLast.all isGroup && ps.getLast?.any isDottedBytes then
      some (ps.length + 1)
    else none

/-- The texts before and after the first two colons in a row. -/
def cutGap? : List Char → Option (List Char × List Char)
  | ':' :: ':' :: cs => some ([], cs)
  | c :: cs => (cutGap? cs).map fun (a, b) => (c :: a, b)
  | [] => none

/-- Eight groups, or fewer with one gap that stands for the missing ones. -/
def isVersion6 (cs : List Char) : Bool :=
  match cutGap? cs with
  | none => groups? true cs == some 8
  | some (a, b) =>
    match groups? false a, groups? true b with
    | some m, some n => m + n ≤ 7
    | _, _ => false

end Routes.Request.Address
