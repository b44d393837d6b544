/-!
# Text — Range sets

A set of characters given by the code points at which membership changes, in increasing order: the
first range starts at the first point and ends before the second, and so on.
-/

namespace Stencil.Text

/-- `n` lies in the set whose membership changes at `points`. -/
def inRanges : List Nat → Nat → Bool
  | [], _ => false
  | p :: ps, n => p ≤ n && !inRanges ps n

theorem inRanges_of_lt {p n : Nat} (h : n < p) (ps : List Nat) : inRanges (p :: ps) n = false := by
  simp [inRanges, Nat.not_le.2 h]

end Stencil.Text
