/-!
Character classes given as closed ranges of code points.
-/

namespace HostLisp.Text

/-- The code points from `first` to `last`, both included. -/
structure CodeRange where
  first : Nat
  last : Nat
deriving DecidableEq, Repr

namespace CodeRange

def contains (range : CodeRange) (c : Char) : Bool :=
  decide (range.first ≤ c.toNat) && decide (c.toNat ≤ range.last)

theorem contains_iff (range : CodeRange) (c : Char) :
    range.contains c = true ↔ range.first ≤ c.toNat ∧ c.toNat ≤ range.last := by
  simp [contains]

end CodeRange

def inRanges (ranges : List CodeRange) (c : Char) : Bool :=
  ranges.any (·.contains c)

theorem inRanges_iff (ranges : List CodeRange) (c : Char) :
    inRanges ranges c = true ↔ ∃ range ∈ ranges, range.first ≤ c.toNat ∧ c.toNat ≤ range.last := by
  simp [inRanges, CodeRange.contains_iff]

end HostLisp.Text
