/-! Sets of characters as closed ranges of code points. -/

namespace Strongbox.Text

abbrev CodeRanges := List (Nat × Nat)

namespace CodeRanges

/-- Whether a code point lies in one of the ranges. -/
def covers (ranges : CodeRanges) (n : Nat) : Bool := ranges.any fun r => r.1 ≤ n && n ≤ r.2

/-- Each range is in order, and ends with a gap before the next one. -/
def ascending : CodeRanges → Bool
  | [] => true
  | [r] => r.1 ≤ r.2
  | r :: s :: rest => r.1 ≤ r.2 && r.2 + 1 < s.1 && ascending (s :: rest)

theorem covers_iff (ranges : CodeRanges) (n : Nat) :
    ranges.covers n ↔ ∃ r ∈ ranges, r.1 ≤ n ∧ n ≤ r.2 := by
  simp [covers]

end CodeRanges

end Strongbox.Text
