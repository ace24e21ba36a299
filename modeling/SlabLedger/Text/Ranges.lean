/-!
# Code point ranges

A character property given by a table is a list of inclusive code point ranges. The tables of
this library are ascending and disjoint; membership does not depend on that.
-/

namespace SlabLedger.Text

/-- Inclusive code point ranges `(first, last)`. -/
abbrev CodeRanges := Array (Nat × Nat)

/-- Whether the code point `n` lies in one of the ranges. -/
def CodeRanges.contains (ranges : CodeRanges) (n : Nat) : Bool :=
  ranges.any fun r => r.1 ≤ n && n ≤ r.2

end SlabLedger.Text
