import Routes.Request.DomainChars
import Routes.Request.Punycode
import Routes.Text.Percent
/-!
The domains that the host of a URL may name. A domain is brought into one spelling first: ASCII
letters in lower case, stand-ins replaced, and characters without meaning dropped. Two checks of
its labels are not made as the processing of such names has them: the rule for letters that are
written from right to left is left out, and of the two rules for joiners only one is applied.
-/
namespace Routes.Request.Domain

/-- The ASCII characters that no domain holds. -/
def isForbidden (c : Char) : Bool :=
  c.toNat < 0x20 || c.toNat == 0x7F ||
    [' ', '#', '/', ':', '<', '>', '?', '@', '[', '\\', ']', '^', '|', '%'].contains c

def standIn? (n : Nat) : Option Char :=
  (standIns.find? fun (lo, hi, _) => lo ≤ n && n ≤ hi).map fun (lo, _, first) =>
    Char.ofNat (first + (n - lo))

/-- What a character contributes to the one spelling; `none` where it is refused. -/
def mapChar (c : Char) : Option (List Char) :=
  let n := c.toNat
  if n < 0x80 then if isForbidden c then none else some [c.toLower]
  else if refused.holds n then none
  else if dropped.holds n then some []
  else match standIn? n with
    | some a => some [a]
    | none => some [c]

/-- Joiners stand behind a virama. That the joiner U+200C may also stand between letters that it
keeps apart is not described: a label that needs this is refused here. -/
def joinersFollow : List Char → Bool
  | a :: b :: cs =>
    (if b.toNat == 0x200C || b.toNat == 0x200D then viramas.holds a.toNat else true) &&
      joinersFollow (b :: cs)
  | _ => true

def startsWell (label : List Char) : Bool :=
  match label with
  | [] => true
  | c :: _ => !marks.holds c.toNat && c.toNat != 0x200C && c.toNat != 0x200D

/-- A label in the ASCII form of another must decode to one that no mapping would change. A label
that mixes directions of writing is taken here, whichever its letters are. -/
def isLabel (label : List Char) : Bool :=
  match Text.after? "xn--".toList label with
  | none => startsWell label && joinersFollow label
  | some coded =>
    match Punycode.decode? coded with
    | none => false
    | some cs =>
      cs.any (0x80 ≤ ·.toNat) && cs.all (fun c => mapChar c == some [c]) && startsWell cs &&
        joinersFollow cs

/-- The one spelling of a domain, if it is one. -/
def ofHost? (cs : List Char) : Option (List Char) :=
  match Text.Utf8.decode? (Text.Percent.decode cs) with
  | none => none
  | some cs =>
    match cs.mapM mapChar with
    | none => none
    | some css =>
      let domain := css.flatten
      if !domain.isEmpty && (Text.pieces '.' domain).all isLabel then some domain else none

end Routes.Request.Domain
