/-
# The shortest decimal of a number

A finite number is written with the fewest digits that round back to it.  The reals that round to
a positive magnitude form an interval, its *basin*, whose ends are the midpoints to the two
neighbours and belong to it exactly when the rank is even.  The decimals with at least a given
number of places behind the point form a grid.  The coarsest grid that meets the basin gives the
digits: of its points in the basin the one nearest to the number, and of two equally near ones the
larger.

The finest grid that is ever needed is that of `10 ^ -324`, because it is finer than every basin
is wide.  So lengths are measured in units of `2 ^ -1075 * 10 ^ -324`, in which the ends of a
basin and the points of every grid are natural numbers.
-/
import ScriptLexer.Binary64
import ScriptLexer.Decimal

namespace ScriptLexer.Binary64

/-- The number of places behind the point of the finest grid. -/
def finestPlaces : Nat := 324

/-- The distance of two neighbours in the grid of `10 ^ (i - 324)`. -/
def gridStep (i : Nat) : Nat := Nat.pow 10 i * Nat.pow 2 1075

/-- The reals that round to one magnitude, around the magnitude itself. -/
structure Basin where
  /-- The midpoint to the next smaller magnitude. -/
  lower : Nat
  /-- The magnitude itself. -/
  value : Nat
  /-- The midpoint to the next larger magnitude. -/
  upper : Nat
  /-- Whether the two midpoints belong to the basin. -/
  closed : Bool
deriving DecidableEq, Repr

/-- The basin of the magnitude of rank `r`. -/
def basin (r : Nat) : Basin where
  lower := (units (r - 1) + units r) * Nat.pow 10 finestPlaces
  value := 2 * units r * Nat.pow 10 finestPlaces
  upper := (units r + units (r + 1)) * Nat.pow 10 finestPlaces
  closed := r % 2 == 0

namespace Basin

/-- Whether the real number `x` rounds to the magnitude of the basin. -/
def contains (b : Basin) (x : Nat) : Bool :=
  if b.closed then b.lower ≤ x && x ≤ b.upper else b.lower < x && x < b.upper

/-- The multiple of `step` in the basin that is nearest to the magnitude, of two equally near ones
the larger, as a count of steps.  There is none if neither neighbour of the magnitude in the grid
lies in the basin. -/
def nearestOn (b : Basin) (step : Nat) : Option Nat :=
  let d := b.value / step
  let low := d * step
  let high := low + step
  match b.contains low, b.contains high with
  | true, true => if b.value - low < high - b.value then some d else some (d + 1)
  | true, false => some d
  | false, true => some (d + 1)
  | false, false => none

/-- The decimal of the coarsest grid that meets the basin, of the grids up to that of
`10 ^ (i - 324)`. -/
def shortestUpTo (b : Basin) : Nat → Decimal
  | 0 => ⟨(b.nearestOn (gridStep 0)).getD 0, -finestPlaces⟩
  | i + 1 =>
    match b.nearestOn (gridStep (i + 1)) with
    | some d => ⟨d, (i + 1 : Nat) - (finestPlaces : Int)⟩
    | none => b.shortestUpTo i

/-- The decimal with the fewest digits in the basin.  A grid whose step exceeds the upper end has
no positive point in it, and `8 ^ i ≤ 10 ^ i` bounds the grids that remain. -/
def shortest (b : Basin) : Decimal :=
  b.shortestUpTo ((b.upper / gridStep 0).log2 / 3)

end Basin

/-- The decimal that a finite magnitude is written as. -/
def decimalOfRank (r : Nat) : Decimal :=
  if r = 0 then ⟨0, 0⟩ else (basin r).shortest

/-- The text of a number: `NaN`, or the magnitude behind a minus sign if the sign bit is set. -/
def text (x : Binary64) : String :=
  if x.isNaN then "NaN"
  else
    let magnitude :=
      if x.rank = infinityRank then ['i', 'n', 'f'] else (decimalOfRank x.rank).positional
    String.ofList (if x.isNegative then '-' :: magnitude else magnitude)

end ScriptLexer.Binary64
