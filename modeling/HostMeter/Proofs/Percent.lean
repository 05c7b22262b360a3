import HostMeter.Percent
import HostMeter.Proofs.Binary64.Nearest
/-!
# Percent — how far a share can be off

A share is rounded three times: both counters become doubles, the product with one hundred is rounded
and so is the quotient. The conversions keep the order of the counters and the quotient is rounded in
order too, but the product may be rounded up. So a part of a whole may come out above one hundred
percent, by one step of the doubles there and no more.

* `percent_le_next`: the next double after one hundred is never exceeded.
* `percent_le_hundred`: nor is one hundred, where the product is not rounded.
-/

namespace HostMeter

namespace Binary64

/-- Numbers of this size are far from infinity. -/
theorem scaleOf_lt_of_lt {num : Nat} (h : num < 2 ^ 100 * unitsPerOne) :
    scaleOf num 1 < topExponent - 1 := by
  have hscale : scaleOf num 1 ≤ 100 + unitExponent := by
    refine scaleOf_le_of_lt Nat.one_pos (Nat.lt_of_lt_of_le h ?_)
    rw [unitsPerOne, Nat.one_shiftLeft, Nat.one_mul, Nat.pow_add]
    generalize 2 ^ 100 * 2 ^ unitExponent = steps
    rw [fractionCount]
    omega
  exact Nat.lt_of_le_of_lt hscale (by decide)

/-- Rounding a number keeps the order. -/
theorem ofNat_mono {m n : Nat} (h : m ≤ n) : (ofNat m).units ≤ (ofNat n).units := by
  refine units_mono (not_isNegative_ofQuotient _ _) (not_isNegative_ofQuotient _ _) ?_
  refine ofQuotient_mono Nat.one_pos Nat.one_pos ?_
  exact Nat.mul_le_mul_right 1 (Nat.mul_le_mul_right unitsPerOne h)

/-- A number below `2 ^ 53` is not rounded. -/
theorem units_ofNat {n : Nat} (h : n < 2 * fractionCount) : (ofNat n).units = n * unitsPerOne := by
  refine units_ofQuotient_of_steps (k := unitExponent) ?_ h (by decide)
  rw [unitsPerOne, Nat.one_shiftLeft]

/-- The double of a number below `2 ^ 53` stands for that number. -/
theorem toRat_ofNat {n : Nat} (h : n < 2 * fractionCount) : (ofNat n).toRat = n := by
  have hsign : (ofNat n).isNegative = false := not_isNegative_ofQuotient _ _
  have hpositive : (unitsPerOne : ℚ) ≠ 0 := Nat.cast_ne_zero.mpr unitsPerOne_pos.ne'
  rw [toRat_of_not_negative hsign, units_ofNat h, Nat.cast_mul, mul_div_cancel_right₀ _ hpositive]

/-- A number that is not zero is not rounded to zero. -/
theorem units_ofNat_pos {n : Nat} (h : 0 < n) : 0 < (ofNat n).units := by
  have hone : (ofNat 1).units = 1 * unitsPerOne := units_ofNat (by decide)
  calc 0 < 1 * unitsPerOne := by rw [Nat.one_mul]; exact unitsPerOne_pos
    _ = (ofNat 1).units := hone.symm
    _ ≤ (ofNat n).units := ofNat_mono h

/-- A word as a double is less than twice the largest word. -/
theorem units_ofNat_lt (n : UInt64) : (ofNat n.toNat).units < 2 ^ 65 * unitsPerOne := by
  have hword : n.toNat < 2 ^ 64 := n.toNat_lt
  have hpos := unitsPerOne_pos
  have hsize : n.toNat * unitsPerOne < 2 ^ 64 * unitsPerOne := Nat.mul_lt_mul_of_pos_right hword hpos
  have hround : (ofNat n.toNat).units * (2 * fractionCount) ≤
      n.toNat * unitsPerOne * (2 * fractionCount + 1) :=
    units_ofQuotient_one_le (scaleOf_lt_of_lt (by omega))
  generalize (ofNat n.toNat).units = u at *
  generalize n.toNat * unitsPerOne = v at *
  simp only [fractionCount] at *
  omega

end Binary64

open Binary64

/-- The next double after one hundred. -/
def nextAfterHundred : Binary64 := ⟨0x4059000000000001⟩

theorem toRat_hundred : hundred.toRat = 100 := by
  rw [hundred_eq_ofNat, toRat_ofNat (by decide)]
  rfl

/-- The next double is a little more. -/
theorem toRat_nextAfterHundred : nextAfterHundred.toRat = 100 + 1 / 2 ^ 46 := by
  have hunits : nextAfterHundred.units * 2 ^ 46 = (100 * 2 ^ 46 + 1) * unitsPerOne := by
    decide +kernel
  have hone : (unitsPerOne : ℚ) ≠ 0 := Nat.cast_ne_zero.mpr (Nat.ne_of_gt unitsPerOne_pos)
  rw [toRat_of_not_negative (by decide), div_eq_iff hone]
  -- the two numbers are too large to be looked into
  generalize nextAfterHundred.units = u at *
  generalize unitsPerOne = one at *
  have hcast : (u : ℚ) * 2 ^ 46 = (100 * 2 ^ 46 + 1) * one := by exact_mod_cast hunits
  linarith

section Share

variable {part whole : UInt64}

/-- A share as rounded quotients of units. -/
theorem percent_of_pos (hwhole : 0 < whole.toNat) :
    percent part whole =
      ofQuotient ((ofQuotient ((ofNat part.toNat).units * 100) 1).units * unitsPerOne)
        (ofNat whole.toNat).units := by
  have hne : whole ≠ 0 := by
    rintro rfl
    exact absurd hwhole (by decide)
  rw [percent, if_neg hne]
  rfl

/-- A share is at most what its product, as rounded, is over the whole. -/
theorem percent_le_of_product {num den : Nat} (hden : 0 < den)
    (hproduct : 0 < whole.toNat → (ofQuotient ((ofNat part.toNat).units * 100) 1).units * den ≤
      (ofNat whole.toNat).units * num) :
    (percent part whole).bits ≤ (ofQuotient (num * unitsPerOne) den).bits := by
  by_cases hwhole : whole.toNat = 0
  · have hzero : whole = 0 := UInt64.toNat_inj.mp hwhole
    rw [percent, if_pos hzero]
    exact UInt64.le_iff_toNat_le.mpr (Nat.zero_le _)
  · have hpos := Nat.pos_of_ne_zero hwhole
    rw [percent_of_pos hpos]
    refine ofQuotient_mono (units_ofNat_pos hpos) hden ?_
    calc _ = (ofQuotient ((ofNat part.toNat).units * 100) 1).units * den * unitsPerOne := by ring
      _ ≤ (ofNat whole.toNat).units * num * unitsPerOne := Nat.mul_le_mul_right _ (hproduct hpos)
      _ = num * unitsPerOne * (ofNat whole.toNat).units := by ring

/-- **A share exceeds one hundred percent by one step of the doubles at most.** -/
theorem percent_le_next (h : part ≤ whole) : (percent part whole).bits ≤ nextAfterHundred.bits := by
  have hnext : nextAfterHundred =
      ofQuotient (100 * (2 * fractionCount + 1) * unitsPerOne) (2 * fractionCount) := by
    decide +kernel
  rw [hnext]
  refine percent_le_of_product (by decide) fun _ => ?_
  have hpart := units_ofNat_lt part
  have hproduct := units_ofQuotient_one_le (n := (ofNat part.toNat).units * 100)
    (scaleOf_lt_of_lt (by omega))
  calc _ ≤ (ofNat part.toNat).units * 100 * (2 * fractionCount + 1) := hproduct
    _ = (ofNat part.toNat).units * (100 * (2 * fractionCount + 1)) := Nat.mul_assoc _ _ _
    _ ≤ _ := Nat.mul_le_mul_right _ (ofNat_mono (UInt64.le_iff_toNat_le.mp h))

/-- **Where the product is not rounded, a share does not exceed one hundred percent.** One hundred is
`25` times a power of two, so `25` times the whole has to fit the mantissa. -/
theorem percent_le_hundred (h : part ≤ whole) (hsmall : 25 * whole.toNat < 2 * fractionCount) :
    (percent part whole).bits ≤ hundred.bits := by
  have hhundred : hundred = ofQuotient (100 * unitsPerOne) 1 := hundred_eq_ofNat
  have hle := UInt64.le_iff_toNat_le.mp h
  rw [hhundred]
  refine percent_le_of_product Nat.one_pos fun _ => ?_
  have hexact : (ofQuotient ((ofNat part.toNat).units * 100) 1).units =
      (ofNat part.toNat).units * 100 := by
    refine units_ofQuotient_of_steps (m := 25 * part.toNat) (k := unitExponent + 2) ?_ (by omega)
      (by decide)
    rw [units_ofNat (by omega), unitsPerOne, Nat.one_shiftLeft, Nat.pow_add]
    ring
  rw [hexact, Nat.mul_one]
  exact Nat.mul_le_mul_right 100 (ofNat_mono hle)

end Share

end HostMeter
