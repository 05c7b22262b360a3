import HostMeter.Binary64
import Mathlib.Tactic.Linarith
import Mathlib.Tactic.Ring
/-!
# Grid — doubles as steps of a power of two

A double that is not negative is a number of steps of `2 ^ s` units, and its bits add the two up. Fewer
than `2 ^ 53` steps are enough, and at least `2 ^ 52` are used wherever the step is more than one unit.
From this form follow the order of the doubles and what rounding a quotient to one of them does.

* `magnitude_eq`, `units_ofGrid`: from the bits to the grid, and back.
* `units_mono`, `toRat_mono`: units and values are in the order of the bits.
* `scaleOf_spec`, `scaleOf_eq`: the step to which a quotient is rounded.
* `roundDiv_eq`: what a quotient rounds to, told from its distance.
-/

namespace HostMeter

/-- A quotient rounds to the number that is at most one half away, and from half-way to an even one. -/
theorem roundDiv_eq {num den n : Nat} (hden : 0 < den) (hlow : 2 * (n * den) ≤ 2 * num + den)
    (hhigh : 2 * num ≤ 2 * (n * den) + den)
    (htie : 2 * (n * den) = 2 * num + den ∨ 2 * num = 2 * (n * den) + den → n % 2 = 0) :
    roundDiv num den = n := by
  have hdiv : num / den * den + num % den = num := by rw [Nat.mul_comm]; exact Nat.div_add_mod num den
  have hmod := Nat.mod_lt num hden
  -- the whole part is `n` itself, or the number before it
  have hle : num / den ≤ n := by
    by_contra hgt
    have := Nat.mul_le_mul_right den (Nat.lt_of_not_le hgt)
    rw [Nat.succ_mul] at this
    omega
  have hge : n ≤ num / den + 1 := by
    by_contra hgt
    have := Nat.mul_le_mul_right den (Nat.lt_of_not_le hgt)
    rw [Nat.succ_mul, Nat.add_mul] at this
    omega
  simp only [roundDiv]
  rcases Nat.eq_or_lt_of_le hle with heq | hlt
  · -- rounded down
    rw [heq] at hdiv ⊢
    split
    · rfl
    · split
      · omega
      · have : n % 2 = 0 := htie (by omega)
        omega
  · -- rounded up
    have hn : n = num / den + 1 := by omega
    have hprod : n * den = num / den * den + den := by rw [hn, Nat.add_mul, Nat.one_mul]
    split
    · omega
    · split
      · exact hn.symm
      · have : n % 2 = 0 := htie (by omega)
        omega

namespace Binary64

/-! ## Bits and grid

A double without its sign is a number of steps on a grid whose step is a power of two. The word is written
so that counting up carries from one grid to the next. -/

/-- A mantissa has 53 bits at most. -/
theorem mantissa_lt (x : Binary64) : x.mantissa < 2 * fractionCount := by
  have hfraction : x.fraction < fractionCount := Nat.mod_lt _ (by decide)
  rw [mantissa]
  split <;> omega

/-- On a grid coarser than the finest, the mantissa uses all bits. -/
theorem scale_eq_zero_or (x : Binary64) : x.scale = 0 ∨ fractionCount ≤ x.mantissa := by
  rw [scale, mantissa]
  split
  · exact Or.inl (by omega)
  · exact Or.inr (Nat.le_add_left _ _)

/-- Without the sign, the bits are the scale and the mantissa added up. -/
theorem magnitude_eq (x : Binary64) :
    x.bits.toNat % (exponentCount * fractionCount) = x.scale * fractionCount + x.mantissa := by
  have hsplit : x.bits.toNat % (exponentCount * fractionCount) =
      x.fraction + fractionCount * x.exponentField := by
    rw [Nat.mul_comm, Nat.mod_mul, fraction, exponentField]
  rw [hsplit, scale, mantissa]
  split
  · next hzero => rw [hzero, Nat.mul_zero, Nat.zero_sub, Nat.zero_mul, Nat.zero_add, Nat.add_zero]
  · next hpos =>
    obtain ⟨e, he⟩ := Nat.exists_eq_succ_of_ne_zero hpos
    rw [he, Nat.succ_sub_one, Nat.mul_succ, Nat.mul_comm e]
    omega

/-- Without a sign, the word is the magnitude. -/
theorem toNat_bits_of_not_negative {x : Binary64} (h : x.isNegative = false) :
    x.bits.toNat = x.scale * fractionCount + x.mantissa := by
  rw [← magnitude_eq, Nat.mod_eq_of_lt]
  exact Nat.lt_of_not_le (of_decide_eq_false h)

theorem units_eq (x : Binary64) : x.units = x.mantissa * 2 ^ x.scale := by
  rw [units, Nat.shiftLeft_eq]

/-- The double with a number of steps on the grid of a scale. -/
def ofGrid (scale steps : Nat) : Binary64 := ⟨UInt64.ofNat (scale * fractionCount + steps)⟩

section OfGrid

variable {s m : Nat}

/-- The word of a point of a grid, as long as it does not reach the sign. -/
theorem toNat_ofGrid (h : s * fractionCount + m < exponentCount * fractionCount) :
    (ofGrid s m).bits.toNat = s * fractionCount + m := by
  have hsize : exponentCount * fractionCount < UInt64.size := by decide
  exact UInt64.toNat_ofNat_of_lt' (by omega)

/-- A point of a grid has its steps as units, also where the steps carry to the next grid. -/
theorem units_ofGrid (hcanonical : s = 0 ∨ fractionCount ≤ m) (hm : m ≤ 2 * fractionCount)
    (h : s * fractionCount + m < exponentCount * fractionCount) :
    (ofGrid s m).units = m * 2 ^ s := by
  have hbits := toNat_ofGrid h
  have hnn : (ofGrid s m).isNegative = false := by
    rw [isNegative, hbits]
    exact decide_eq_false (by omega)
  have hsum : (ofGrid s m).scale * fractionCount + (ofGrid s m).mantissa = s * fractionCount + m := by
    rw [← toNat_bits_of_not_negative hnn, hbits]
  have hlt := mantissa_lt (ofGrid s m)
  have hform := scale_eq_zero_or (ofGrid s m)
  rw [units_eq]
  generalize (ofGrid s m).scale = e at hsum hform ⊢
  generalize (ofGrid s m).mantissa = n at hsum hlt hform ⊢
  simp only [fractionCount] at *
  rcases Nat.lt_or_ge m (2 * 0x10000000000000) with hless | hge
  · -- both forms are canonical, so they are the same
    obtain ⟨rfl, rfl⟩ : e = s ∧ n = m := by omega
    rfl
  · -- all steps of a grid are the first of those on the next
    obtain ⟨rfl, rfl, rfl⟩ : e = s + 1 ∧ n = 0x10000000000000 ∧ m = 2 * 0x10000000000000 := by omega
    rw [Nat.pow_succ]
    ring

end OfGrid

/-- Of two doubles without a sign, the larger word has more units. -/
theorem units_lt_units {x y : Binary64} (hx : x.isNegative = false) (hy : y.isNegative = false)
    (h : x.bits < y.bits) : x.units < y.units := by
  have hlt := UInt64.lt_iff_toNat_lt.mp h
  rw [toNat_bits_of_not_negative hx, toNat_bits_of_not_negative hy] at hlt
  have hxlt := x.mantissa_lt
  have hylt := y.mantissa_lt
  have hxform := x.scale_eq_zero_or
  have hyform := y.scale_eq_zero_or
  rw [units_eq, units_eq]
  generalize x.scale = s at *
  generalize x.mantissa = m at *
  generalize y.scale = s' at *
  generalize y.mantissa = m' at *
  have hpos := Nat.two_pow_pos s
  simp only [fractionCount] at *
  rcases Nat.lt_trichotomy s s' with hless | rfl | hgt
  · -- on a coarser grid there are always enough steps to be above
    have hpow : 2 * 2 ^ s ≤ 2 ^ s' := by
      rw [← Nat.pow_succ']
      exact Nat.pow_le_pow_right (by decide) hless
    calc m * 2 ^ s < 2 * 0x10000000000000 * 2 ^ s := Nat.mul_lt_mul_of_pos_right hxlt hpos
      _ = 0x10000000000000 * (2 * 2 ^ s) := by ring
      _ ≤ m' * 2 ^ s' := Nat.mul_le_mul (by omega) hpow
  · -- one grid, and more steps
    exact Nat.mul_lt_mul_of_pos_right (by omega) hpos
  · -- a finer grid has no larger word
    omega

/-- **The units are in the order of the bits.** -/
theorem units_mono {x y : Binary64} (hx : x.isNegative = false) (hy : y.isNegative = false)
    (h : x.bits ≤ y.bits) : x.units ≤ y.units := by
  rcases UInt64.lt_or_eq_of_le h with hlt | heq
  · exact Nat.le_of_lt (units_lt_units hx hy hlt)
  · rw [show x = y from congrArg Binary64.mk heq]

/-! ## Values

Numbers are rationals, so that what is said of doubles can be said without rounding. -/

/-- The number that a finite double stands for. -/
def toRat (x : Binary64) : ℚ := (if x.isNegative then -1 else 1) * ((x.units : ℚ) / unitsPerOne)

theorem toRat_of_not_negative {x : Binary64} (h : x.isNegative = false) :
    x.toRat = (x.units : ℚ) / unitsPerOne := by
  rw [toRat, h, if_neg Bool.false_ne_true, one_mul]

@[simp] theorem toRat_zero : zero.toRat = 0 := by
  rw [toRat_of_not_negative (by decide), units_zero, Nat.cast_zero, zero_div]

theorem toRat_nonneg {x : Binary64} (h : x.isNegative = false) : 0 ≤ x.toRat := by
  rw [toRat_of_not_negative h]
  exact div_nonneg (Nat.cast_nonneg _) (Nat.cast_nonneg _)

/-- The numbers are in the order of the bits. -/
theorem toRat_mono {x y : Binary64} (hx : x.isNegative = false) (hy : y.isNegative = false)
    (h : x.bits ≤ y.bits) : x.toRat ≤ y.toRat := by
  rw [toRat_of_not_negative hx, toRat_of_not_negative hy]
  exact div_le_div_of_nonneg_right (Nat.cast_le.mpr (units_mono hx hy h)) (Nat.cast_nonneg _)

/-- Doubles with different bits stand for different numbers, in the order of the bits. -/
theorem toRat_lt_toRat {x y : Binary64} (hx : x.isNegative = false) (hy : y.isNegative = false)
    (h : x.bits < y.bits) : x.toRat < y.toRat := by
  rw [toRat_of_not_negative hx, toRat_of_not_negative hy]
  exact div_lt_div_of_pos_right (Nat.cast_lt.mpr (units_lt_units hx hy h))
    (Nat.cast_pos.mpr unitsPerOne_pos)

/-- No two doubles without a sign stand for one number. -/
theorem toRat_injective {x y : Binary64} (hx : x.isNegative = false) (hy : y.isNegative = false)
    (h : x.toRat = y.toRat) : x = y := by
  have hle : x.bits ≤ y.bits := UInt64.not_lt.mp fun hlt => (toRat_lt_toRat hy hx hlt).ne h.symm
  have hge : y.bits ≤ x.bits := UInt64.not_lt.mp fun hlt => (toRat_lt_toRat hx hy hlt).ne h
  exact congrArg Binary64.mk (UInt64.le_antisymm hle hge)

/-- Below infinity a double is finite. -/
theorem isFinite_of_bits_lt {x : Binary64} (h : x.bits.toNat < infinityBits) : x.isFinite = true := by
  have hfield : x.bits.toNat / fractionCount < topExponent := Nat.div_lt_of_lt_mul (by
    rw [Nat.mul_comm]
    exact h)
  rw [isFinite, exponentField, Nat.mod_eq_of_lt (Nat.lt_trans hfield (by decide))]
  exact bne_iff_ne.mpr (Nat.ne_of_lt hfield)

/-! ## The step of a quotient

The grid is found from the logarithm of the whole part. -/

/-- A quotient is rounded on the finest grid on which it has fewer than `2 ^ 53` steps. -/
theorem scaleOf_spec (num : Nat) {den : Nat} (hden : 0 < den) :
    num < 2 * fractionCount * (den * 2 ^ scaleOf num den) ∧
      (scaleOf num den = 0 ∨ fractionCount * (den * 2 ^ scaleOf num den) ≤ num) := by
  have hdiv := Nat.div_add_mod num den
  have hmod := Nat.mod_lt num hden
  by_cases hzero : num / den = 0
  · -- less than one unit is rounded on the finest grid
    have hnum : num < den := by rw [hzero] at hdiv; omega
    have hs : scaleOf num den = 0 := by rw [scaleOf, hzero]; rfl
    rw [hs, fractionCount]
    omega
  · obtain ⟨hlow, hhigh⟩ := (Nat.log2_eq_iff hzero).mp rfl
    have hupper : num < den * 2 ^ ((num / den).log2 + 1) := by
      have := Nat.mul_le_mul_left den hhigh
      rw [Nat.mul_succ] at this
      omega
    have hlower : den * 2 ^ (num / den).log2 ≤ num := by
      have := Nat.mul_le_mul_left den hlow
      omega
    rw [scaleOf]
    generalize (num / den).log2 = k at *
    rcases Nat.lt_or_ge k 52 with hk | hk
    · -- below `2 ^ 53` units the grid has a step of one unit
      rw [show k - 52 = 0 by omega]
      refine ⟨Nat.lt_of_lt_of_le hupper ?_, Or.inl rfl⟩
      have : 2 ^ (k + 1) ≤ 2 ^ 53 := Nat.pow_le_pow_right (by decide) (by omega)
      have := Nat.mul_le_mul_left den this
      simp only [fractionCount]
      omega
    · obtain ⟨s, rfl⟩ := Nat.exists_eq_add_of_le hk
      rw [Nat.add_sub_cancel_left]
      have hpow : 2 ^ (52 + s) = fractionCount * 2 ^ s := Nat.pow_add 2 52 s
      rw [Nat.pow_succ, hpow] at hupper
      rw [hpow] at hlower
      refine ⟨by linarith, Or.inr (by linarith)⟩

/-- The grid of a quotient is the only one on which it has 53 bits, or the finest. -/
theorem scaleOf_eq {num den s : Nat} (hden : 0 < den)
    (hupper : num < 2 * fractionCount * (den * 2 ^ s))
    (hlower : s = 0 ∨ fractionCount * (den * 2 ^ s) ≤ num) : scaleOf num den = s := by
  obtain ⟨hupper', hlower'⟩ := scaleOf_spec num hden
  generalize scaleOf num den = s' at *
  -- of two different grids the coarser one has twice the step of the finer one at least
  have hstep : ∀ {a b : Nat}, a < b → 2 * (den * 2 ^ a) ≤ den * 2 ^ b := by
    intro a b hab
    have hpow : 2 * 2 ^ a ≤ 2 ^ b := by
      rw [← Nat.pow_succ']
      exact Nat.pow_le_pow_right (by decide) hab
    calc 2 * (den * 2 ^ a) = den * (2 * 2 ^ a) := by ring
      _ ≤ den * 2 ^ b := Nat.mul_le_mul_left den hpow
  rcases Nat.lt_trichotomy s' s with hlt | rfl | hgt
  · have := hstep hlt
    simp only [fractionCount] at *
    omega
  · rfl
  · have := hstep hgt
    simp only [fractionCount] at *
    omega

end Binary64

end HostMeter
