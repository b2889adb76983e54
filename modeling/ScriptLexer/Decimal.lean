/-
# Decimal numbers

A decimal number is a natural coefficient times a power of ten.  It is written positionally,
whatever its size: an exponent never appears, zeros take its place.
-/

namespace ScriptLexer

/-- The number `coefficient * 10 ^ exponent`. -/
structure Decimal where
  /-- The digits, read as a natural number. -/
  coefficient : Nat
  /-- The power of ten that the coefficient is scaled by. -/
  exponent : Int
deriving DecidableEq, Repr

namespace Decimal

/-- The digits of a whole number followed by `zeros` zeros. -/
def wholeDigits (coefficient zeros : Nat) : List Char :=
  Nat.toDigits 10 coefficient ++ List.replicate zeros '0'

/-- The digits of `coefficient`, of which the last `places` stand behind the point.  At least one
digit stands before it, so zeros are put in front where the digits are too few. -/
def pointedDigits (coefficient places : Nat) : List Char :=
  let digits := Nat.toDigits 10 coefficient
  let padded := List.replicate (places + 1 - digits.length) '0' ++ digits
  let whole := padded.length - places
  padded.take whole ++ '.' :: padded.drop whole

/-- The positional notation of a decimal number: a whole number has no point, any other has all
its places behind one. -/
def positional (d : Decimal) : List Char :=
  if 0 ≤ d.exponent then wholeDigits d.coefficient d.exponent.toNat
  else pointedDigits d.coefficient (-d.exponent).toNat

end Decimal

end ScriptLexer
