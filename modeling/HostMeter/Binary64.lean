import HostMeter.Rounding
/-!
# Binary64 — doubles as exact multiples of a unit

A double is kept as its 64 bits. Every finite double is a whole multiple of the *unit* `2 ^ -1074`,
so that its value is the natural number `units` and a sign, and arithmetic on doubles that are not
negative is exact arithmetic on natural numbers followed by one rounding (`ofQuotient`).

* `units`: the magnitude of a finite double, counted in units.
* `ofQuotient`: the double nearest to a quotient of units, the even one of two equally near.
* `ofNat`, `timesNat`, `divNat`, `div`: rounded operations on doubles that are not negative.
-/

namespace HostMeter

/-- A double-precision number, as the bits of its interchange format. -/
structure Binary64 where
  bits : UInt64
  deriving DecidableEq, Repr

namespace Binary64

/-! ## The parts of a double -/

/-- The number of fractions: they have fifty-two bits. -/
def fractionCount : Nat := 0x10000000000000

/-- The number of exponent fields: they have eleven bits. -/
def exponentCount : Nat := 0x800

/-- The exponent field of infinities and NaNs: all of its bits are set. -/
def topExponent : Nat := 0x7ff

def isNegative (x : Binary64) : Bool := exponentCount * fractionCount ≤ x.bits.toNat

def exponentField (x : Binary64) : Nat := x.bits.toNat / fractionCount % exponentCount

def fraction (x : Binary64) : Nat := x.bits.toNat % fractionCount

def isFinite (x : Binary64) : Bool := x.exponentField != topExponent

def isNaN (x : Binary64) : Bool := x.exponentField == topExponent && x.fraction != 0

/-- The significant bits of a finite double as a whole number. -/
def mantissa (x : Binary64) : Nat :=
  if x.exponentField = 0 then x.fraction else x.fraction + fractionCount

/-- The power of two by which the mantissa is scaled to units. -/
def scale (x : Binary64) : Nat := x.exponentField - 1

/-- The magnitude of a finite double in units. -/
def units (x : Binary64) : Nat := x.mantissa <<< x.scale

/-- One unit is two to the power of minus this. -/
def unitExponent : Nat := 1074

def unitsPerOne : Nat := 1 <<< unitExponent

theorem unitsPerOne_pos : 0 < unitsPerOne := by
  rw [unitsPerOne, Nat.one_shiftLeft]
  exact Nat.two_pow_pos unitExponent

/-! ## Constants -/

def zero : Binary64 := ⟨0⟩

@[simp] theorem units_zero : zero.units = 0 := by decide

/-- The bits of the positive infinity: an exponent field of ones. -/
def infinityBits : Nat := topExponent * fractionCount

/-! ## Rounding -/

/-- How far a quotient of units has to be scaled down for its mantissa to fit 53 bits. -/
def scaleOf (num den : Nat) : Nat := (num / den).log2 - 52

/-- The double nearest to `num / den` units. The scale and the mantissa add up to the bits, also
where rounding carries the mantissa to the next power of two or to infinity. -/
def ofQuotient (num den : Nat) : Binary64 :=
  let s := scaleOf num den
  ⟨UInt64.ofNat (min (s * fractionCount + roundDiv num (den <<< s)) infinityBits)⟩

def ofNat (n : Nat) : Binary64 := ofQuotient (n * unitsPerOne) 1

/-- The rounded product of a double that is not negative and a number. -/
def timesNat (x : Binary64) (n : Nat) : Binary64 := ofQuotient (x.units * n) 1

/-- The rounded quotient of a double that is not negative by a number. -/
def divNat (x : Binary64) (n : Nat) : Binary64 := ofQuotient x.units n

/-- The rounded quotient of two doubles that are not negative. -/
def div (x y : Binary64) : Binary64 := ofQuotient (x.units * unitsPerOne) y.units

/-- The smaller of two doubles that are not negative: their bits are in the order of their values. -/
def smaller (x y : Binary64) : Binary64 := if x.bits ≤ y.bits then x else y

end Binary64

end HostMeter
