/-
Membership of a code point in a table of closed ranges.
-/

namespace ClassNaming.Text

/-- `n` lies in one of the closed ranges -/
def inRanges (ranges : Array (Nat × Nat)) (n : Nat) : Bool :=
  ranges.any fun (lo, hi) => lo ≤ n && n ≤ hi

end ClassNaming.Text
