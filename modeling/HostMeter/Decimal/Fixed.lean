import HostMeter.Binary64
import HostMeter.Text.Numeral
/-!
# Decimal — a fixed number of places

A double is written with two decimal places: its exact binary value is rounded to the nearest
hundredth, a value half-way between two goes to the even hundredth, and there is never an exponent.
The sign is that of the sign bit, so that a negative zero keeps it.
-/

namespace HostMeter.Decimal

def places : Nat := 2

/-- The number of steps of the last decimal place in one. -/
def stepsPerOne : Nat := Nat.pow 10 places

/-- The number of steps of the last decimal place that is nearest to the magnitude of a finite double. -/
def scaled (x : Binary64) : Nat := roundDiv (x.units * stepsPerOne) Binary64.unitsPerOne

/-- The numeral of `n` with zeros before it up to a width. -/
def padded (width n : Nat) : List Char :=
  let ds := Text.digits n
  List.replicate (width - ds.length) '0' ++ ds

/-- A number of steps of the last decimal place with its point. -/
def withPoint (n : Nat) : List Char :=
  Text.digits (n / stepsPerOne) ++ '.' :: padded places (n % stepsPerOne)

/-- The text of a double with two decimal places. -/
def fixed (x : Binary64) : String :=
  let sign := if x.isNegative then ['-'] else []
  if x.isNaN then "NaN"
  else if x.isFinite then String.ofList (sign ++ withPoint (scaled x))
  else String.ofList (sign ++ ['i', 'n', 'f'])

end HostMeter.Decimal
