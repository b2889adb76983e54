/-
# Binary floating point numbers of 64 bits

A number literal denotes a number of the IEEE 754 format of 64 bits.  The type holds the bits
themselves, so that two numbers can be told apart bit by bit, and every question about the value
is answered in natural numbers.

The magnitudes of the format, from zero through the subnormal and normal numbers up to infinity,
are numbered in increasing order: the *rank* of a number is its bit pattern without the sign.
`units` gives the magnitude of a rank as a multiple of `2 ^ -1074`, the least positive number of
the format.  It continues past the finite numbers, where the rank of infinity gets the value
`2 ^ 1024` that the next binade would begin with.
-/

namespace ScriptLexer

/-- A number of the IEEE 754 binary format of 64 bits, given by its bits. -/
structure Binary64 where
  /-- The sign, eleven bits of exponent and fifty-two of fraction, from the top. -/
  bits : BitVec 64
deriving DecidableEq, Repr

namespace Binary64

/-- The number of ranks in one binade. -/
def binade : Nat := Nat.pow 2 52

/-- The rank of infinity: every smaller rank is that of a finite number, every larger one is
not a number. -/
def infinityRank : Nat := 2047 * binade

/-- The bits without the sign, which number the magnitudes in increasing order. -/
def rank (x : Binary64) : Nat := x.bits.toNat % Nat.pow 2 63

/-- The sign bit. -/
def isNegative (x : Binary64) : Bool := x.bits.msb

/-- The bit patterns that stand for no number. -/
def isNaN (x : Binary64) : Bool := infinityRank < x.rank

/-- The number with a clear sign bit and the given rank. -/
def ofRank (r : Nat) : Binary64 := ⟨BitVec.ofNat 64 r⟩

/-- Infinity with a clear sign. -/
def infinity : Binary64 := ⟨0x7ff0000000000000#64⟩

/-- The magnitude of rank `r` as a multiple of `2 ^ -1074`. -/
def units (r : Nat) : Nat :=
  if r < binade then r else (binade + r % binade) * Nat.pow 2 (r / binade - 1)

/-- Equality of numbers: what is not a number differs from everything, itself included, and the
two zeros are equal. -/
def equals (x y : Binary64) : Bool :=
  !x.isNaN && !y.isNaN && (x.bits == y.bits || (x.rank == 0 && y.rank == 0))

instance : BEq Binary64 := ⟨equals⟩

end Binary64

end ScriptLexer
