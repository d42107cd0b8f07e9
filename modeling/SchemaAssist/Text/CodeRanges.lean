/-
# SchemaAssist.Text.CodeRanges — ascending tables of code points

A character class that is data of a standard is kept as a list of closed
ranges in ascending order.  `CodeRanges.has` looks a code point up and stops
at the first range that starts beyond it, so that the common characters, which
stand in front, are decided after a few steps.
-/

namespace SchemaAssist.Text

set_option autoImplicit false

/-- Closed ranges of code points, in ascending order. -/
abbrev CodeRanges := List (Nat × Nat)

def CodeRanges.has : CodeRanges → Nat → Bool
  | [], _ => false
  | (lo, hi) :: rest, n => decide (lo ≤ n) && (decide (n ≤ hi) || has rest n)

end SchemaAssist.Text
