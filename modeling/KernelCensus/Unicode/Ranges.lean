/-!
# Sets of code points as ranges

A property of the Unicode character database is kept as the ascending list of the inclusive
ranges of code points that have it.
-/

namespace KernelCensus.Unicode

/-- Inclusive ranges of code points. -/
abbrev Ranges := List (Nat × Nat)

/-- Whether a code point lies in one of the ranges. -/
def Ranges.holds (ranges : Ranges) (code : Nat) : Bool :=
  ranges.any fun range => range.1 ≤ code && code ≤ range.2

end KernelCensus.Unicode
