import HostMeter.Binary64
import HostMeter.Text.Numeral
/-!
# Decimal — the fewest digits that read back

Between a double and its two neighbours lie the real numbers that round to it; the ends of that
interval belong to it when the mantissa is even. The shortest decimal of a double is the one with the
fewest digits inside the interval and, among those, the nearest to the double.

On the grid of the multiples of a power of ten only the two neighbours of the double have to be
looked at: if any point of the grid is inside the interval, one of them is.

* `Shortest.decimal`: the digits and the exponent of a finite double that is not zero.
-/

namespace HostMeter.Decimal

/-- The decimal number `coefficient * 10 ^ exponent`. -/
structure Scientific where
  coefficient : Nat
  exponent : Int
  deriving DecidableEq, Repr

/-- The same number without zeros at the end of its coefficient, dropping at most `fuel` of them. -/
def Scientific.trimZeros : Nat → Scientific → Scientific
  | 0, d => d
  | fuel + 1, d =>
    if d.coefficient % 10 = 0 then trimZeros fuel ⟨d.coefficient / 10, d.exponent + 1⟩ else d

namespace Shortest

/-- The reals that round to one double, in quarters of a unit. -/
structure Interval where
  value : Nat
  lower : Nat
  upper : Nat
  /-- Do the ends belong to the interval? -/
  closed : Bool

/-- The reals that round to a finite double. Below a power of two the neighbour is only half as far
away as above it. -/
def interval (x : Binary64) : Interval :=
  let step := 1 <<< x.scale
  let nearBelow := x.mantissa == Binary64.fractionCount && 0 < x.scale
  { value := 4 * x.units
    lower := 4 * x.units - (if nearBelow then step else 2 * step)
    upper := 4 * x.units + 2 * step
    closed := x.mantissa % 2 == 0 }

/-- The number of quarters of a unit in one. -/
def quartersPerOne : Nat := 4 * Binary64.unitsPerOne

/-- The grid of the multiples of `10 ^ exponent`: the quarters in one step, as a quotient. -/
def gridStep (exponent : Int) : Nat × Nat :=
  if 0 ≤ exponent then (quartersPerOne * Nat.pow 10 exponent.toNat, 1)
  else (quartersPerOne, Nat.pow 10 (-exponent).toNat)

/-- Is the `n`-th point of a grid inside the interval? -/
def Interval.has (i : Interval) (grid : Nat × Nat) (n : Nat) : Bool :=
  let point := n * grid.1
  if i.closed then i.lower * grid.2 ≤ point && point ≤ i.upper * grid.2
  else i.lower * grid.2 < point && point < i.upper * grid.2

/-- The point of a grid that is inside the interval and nearest to the double, the even one of two
that are equally near. -/
def nearest? (i : Interval) (exponent : Int) : Option Scientific :=
  let grid := gridStep exponent
  let below := i.value * grid.2 / grid.1
  let rest := i.value * grid.2 % grid.1
  let above := below + 1
  let takeBelow : Bool := 2 * rest < grid.1 || (2 * rest == grid.1 && below % 2 == 0)
  match i.has grid below, i.has grid above with
  | true, true => some ⟨if takeBelow then below else above, exponent⟩
  | true, false => some ⟨below, exponent⟩
  | false, true => some ⟨above, exponent⟩
  | false, false => none

/-- The exponent of the leading digit: the largest `k` with `10 ^ k` at most the value. -/
def leadingExponent (value : Nat) : Int :=
  -- the lengths of the two numerals are at most one off
  let k : Int := (Text.digits value).length - (Text.digits quartersPerOne).length
  let grid := gridStep k
  if grid.1 ≤ value * grid.2 then k else k - 1

def maxDigits : Nat := 17

/-- The shortest decimal of a finite double that is not zero. -/
def decimal (x : Binary64) : Scientific :=
  let i := interval x
  let k := leadingExponent i.value
  -- the first grid with a hit has the fewest digits
  let found := (List.range maxDigits).findSome? fun (n : Nat) => nearest? i (k - n)
  (found.getD ⟨i.value, 0⟩).trimZeros maxDigits

end Shortest

end HostMeter.Decimal
