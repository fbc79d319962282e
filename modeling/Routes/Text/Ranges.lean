/-!
Sets of characters given as increasing ranges of code points, both ends included.
-/
namespace Routes.Text

abbrev Ranges := List (Nat × Nat)

/-- Ranges are increasing, so the search ends at the first that lies above. -/
def Ranges.holds (rs : Ranges) (n : Nat) : Bool :=
  match rs with
  | [] => false
  | (lo, hi) :: rest => lo ≤ n && (n ≤ hi || holds rest n)

end Routes.Text
