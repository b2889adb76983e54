/-
# Rounding to the nearest number

A ratio of natural numbers is rounded to the nearest magnitude of the format, and to the one of
even rank when it lies half way between two.  Since infinity stands in the scale at `2 ^ 1024`,
overflow needs no rule of its own: what lies at or above the midpoint of the largest finite number
and `2 ^ 1024` rounds to infinity.  All comparisons are made between natural numbers.
-/
import ScriptLexer.Binary64

namespace ScriptLexer.Binary64

/-- The rank of the largest magnitude that does not exceed `x` units. -/
def rankBelow (x : Nat) : Nat :=
  let shift := x.log2 - 52
  shift * binade + x / Nat.pow 2 shift

/-- The rank of the magnitude nearest to `numerator / denominator`, of two equally near ones the
even rank. -/
def nearestRank (numerator denominator : Nat) : Nat :=
  let scaled := numerator * Nat.pow 2 1074
  let below := rankBelow (scaled / denominator)
  if infinityRank ≤ below then infinityRank
  else
    let midpoint := (units below + units (below + 1)) * denominator
    if 2 * scaled < midpoint then below
    else if midpoint < 2 * scaled then below + 1
    else below + below % 2

/-- The number nearest to `numerator / denominator`. -/
def ofRatio (numerator denominator : Nat) : Binary64 :=
  ofRank (nearestRank numerator denominator)

/-- The number that a numeral denotes: the digits `whole` before the point, and the digits
`fraction` behind it, which may be none. -/
def ofDigits (whole fraction : List Char) : Binary64 :=
  ofRatio (Nat.ofDigitChars 10 (whole ++ fraction) 0) (Nat.pow 10 fraction.length)

end ScriptLexer.Binary64
