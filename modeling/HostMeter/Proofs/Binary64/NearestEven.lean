import HostMeter.Proofs.Binary64.Nearest
import Mathlib.Algebra.Order.Field.Basic
import Mathlib.Tactic.FieldSimp
/-!
# Nearest even — what a rounded operation has to give

`Nearest` says how a quotient is rounded on its grid. This module says what that comes to among all
doubles: none is nearer to the quotient, and of two that are equally near it is the one with an even
last bit. The relation knows nothing of grids, and it determines the double.

* `NearestEven`: the double that stands for a number; `NearestEven.unique`: there is at most one.
* `nearestEven_ofQuotient`: rounded quotients meet it.
* `nearestEven_ofNat`, `nearestEven_timesNat`, `nearestEven_divNat`, `nearestEven_div`: the operations
  on doubles give the exact result of the operation, rounded once.
-/

namespace HostMeter

/-! ## Whole numbers

Distances from a quotient, counted so that they are whole. -/

section RoundDiv

variable {num den : Nat}

/-- The distance of a number from `num / den`, in steps of one over `den`. -/
def distance (num den n : Nat) : Nat := ((n * den : Nat) - num : Int).natAbs

/-- A quotient is at most half a step away from what it is rounded to. -/
theorem two_mul_distance_roundDiv_le (num : Nat) (hden : 0 < den) :
    2 * distance num den (roundDiv num den) ≤ den := by
  have hhigh : 2 * (roundDiv num den * den) ≤ 2 * num + den := roundDiv_le hden
  have hlow : 2 * num ≤ 2 * (roundDiv num den * den) + den := le_roundDiv hden
  rw [distance]
  omega

/-- A quotient is at least half a step away from any number that it is not rounded to. -/
theorem den_le_two_mul_distance {n : Nat} (hden : 0 < den) (hn : n ≠ roundDiv num den) :
    den ≤ 2 * distance num den n := by
  have hhigh : 2 * (roundDiv num den * den) ≤ 2 * num + den := roundDiv_le hden
  have hlow : 2 * num ≤ 2 * (roundDiv num den * den) + den := le_roundDiv hden
  rw [distance]
  rcases Nat.lt_or_gt_of_ne hn with hlt | hgt
  · have := Nat.mul_le_mul_right den (Nat.succ_le_of_lt hlt)
    rw [Nat.succ_mul] at this
    omega
  · have := Nat.mul_le_mul_right den (Nat.succ_le_of_lt hgt)
    rw [Nat.succ_mul] at this
    omega

/-- No number is nearer. -/
theorem distance_roundDiv_le (num : Nat) (hden : 0 < den) (n : Nat) :
    distance num den (roundDiv num den) ≤ distance num den n := by
  by_cases hn : n = roundDiv num den
  · rw [hn]
  · have := two_mul_distance_roundDiv_le num hden
    have := den_le_two_mul_distance hden hn
    omega

/-- Of two numbers that are equally near the even one is taken. -/
theorem even_roundDiv_of_distance {n : Nat} (hden : 0 < den) (hn : n ≠ roundDiv num den)
    (h : distance num den n = distance num den (roundDiv num den)) : roundDiv num den % 2 = 0 := by
  have hhalf : 2 * distance num den (roundDiv num den) = den :=
    Nat.le_antisymm (two_mul_distance_roundDiv_le num hden) (h ▸ den_le_two_mul_distance hden hn)
  have hdiv : num / den * den + num % den = num := by rw [Nat.mul_comm]; exact Nat.div_add_mod num den
  have hmod := Nat.mod_lt num hden
  -- away from the half-way point the distance is not half a step
  simp only [roundDiv, distance] at hhalf ⊢
  split at hhalf
  · -- rounded down, so nearer than half a step
    omega
  · split at hhalf
    · rw [Nat.add_mul] at hhalf
      omega
    · next hless hmore =>
      -- half-way, where the even one is taken
      rw [if_neg hless, if_neg hmore]
      omega

end RoundDiv

namespace Binary64

/-! ## The relation

What the standard asks of an operation: the nearest double, and of two the even one. The relation speaks of
numbers and not of grids. -/

/-- The largest finite double. -/
def largest : Binary64 := ⟨0x7fefffffffffffff⟩

/-- A double stands for a number that is not negative and not above all of them: no double is nearer
to the number, and if another one is equally near then the last bit of this one is even. -/
structure NearestEven (q : ℚ) (x : Binary64) : Prop where
  nonneg : 0 ≤ q
  inRange : q ≤ largest.toRat
  notNegative : x.isNegative = false
  isFinite : x.isFinite = true
  nearest : ∀ y : Binary64, y.isFinite = true → |x.toRat - q| ≤ |y.toRat - q|
  even : ∀ y : Binary64, y.isFinite = true → y.toRat ≠ x.toRat → |y.toRat - q| = |x.toRat - q| →
    x.bits.toNat % 2 = 0

/-! ## Rounded quotients

A rounded quotient meets the relation. Any other double is compared with it on its grid; a double on a finer
grid is too small to be nearer. -/

section Quotient

variable {num den : Nat}

/-- How far a double is from a quotient, counted in whole numbers. -/
theorem abs_toRat_sub {x : Binary64} (hx : x.isNegative = false) (hden : 0 < den) :
    |x.toRat - (num : ℚ) / den / unitsPerOne| =
      (distance num den x.units : ℚ) / (den * unitsPerOne) := by
  have hone : (0 : ℚ) < unitsPerOne := Nat.cast_pos.mpr unitsPerOne_pos
  have hd : (0 : ℚ) < den := Nat.cast_pos.mpr hden
  have hsub : x.toRat - (num : ℚ) / den / unitsPerOne =
      (((x.units * den : Nat) - num : Int) : ℚ) / (den * unitsPerOne) := by
    rw [toRat_of_not_negative hx]
    push_cast
    field_simp
  rw [hsub, abs_div, abs_of_pos (mul_pos hd hone), distance, Nat.cast_natAbs, Int.cast_abs]

theorem distance_mul (num den n k : Nat) : distance num den (n * k) = distance num (den * k) n := by
  rw [distance, distance, Nat.mul_assoc, Nat.mul_comm k]

/-- The grid of a double is at least as fine as a given one, or the double lies below the part of that
grid on which all 53 bits are in use. -/
theorem exists_units_or_lt (x : Binary64) (s : Nat) :
    (∃ n, x.units = n * 2 ^ s) ∨ x.scale < s ∧ x.units < fractionCount * 2 ^ s := by
  rw [units_eq]
  rcases Nat.lt_or_ge x.scale s with hlt | hge
  · have hpow : 2 * 2 ^ x.scale ≤ 2 ^ s := by
      rw [← Nat.pow_succ']
      exact Nat.pow_le_pow_right (by decide) hlt
    refine Or.inr ⟨hlt, ?_⟩
    calc x.mantissa * 2 ^ x.scale < 2 * fractionCount * 2 ^ x.scale :=
          Nat.mul_lt_mul_of_pos_right x.mantissa_lt (Nat.two_pow_pos _)
      _ = fractionCount * (2 * 2 ^ x.scale) := by ring
      _ ≤ fractionCount * 2 ^ s := Nat.mul_le_mul_left _ hpow
  · obtain ⟨d, hd⟩ := Nat.exists_eq_add_of_le hge
    exact Or.inl ⟨x.mantissa * 2 ^ d, by rw [hd, Nat.pow_add]; ring⟩

/-- **No double is nearer than the rounded quotient**, and one that is equally near leaves it an even
number of steps. -/
theorem distance_stepsOf (hden : 0 < den) (y : Binary64) :
    distance num den (stepsOf num den * 2 ^ scaleOf num den) ≤ distance num den y.units ∧
      (y.units ≠ stepsOf num den * 2 ^ scaleOf num den →
        distance num den y.units = distance num den (stepsOf num den * 2 ^ scaleOf num den) →
        stepsOf num den % 2 = 0) := by
  have hstep : 0 < den * 2 ^ scaleOf num den := Nat.mul_pos hden (Nat.two_pow_pos _)
  rw [distance_mul num den (stepsOf num den), stepsOf]
  rcases y.exists_units_or_lt (scaleOf num den) with ⟨n, hn⟩ | ⟨hscale, hbelow⟩
  · -- the double is on the grid of the quotient
    rw [hn, distance_mul]
    refine ⟨distance_roundDiv_le num hstep n, fun hne heq => ?_⟩
    exact even_roundDiv_of_distance hstep (fun h => hne (by rw [h])) heq
  · -- the quotient is not below the part of its grid that uses all bits, so that is nearer
    have hlower := (scaleOf_spec num hden).2.resolve_left (by omega)
    have hless : y.units * den < fractionCount * (den * 2 ^ scaleOf num den) := by
      calc y.units * den < fractionCount * 2 ^ scaleOf num den * den :=
            Nat.mul_lt_mul_of_pos_right hbelow hden
        _ = fractionCount * (den * 2 ^ scaleOf num den) := by ring
    have hnear := distance_roundDiv_le num hstep fractionCount
    have hfar : distance num (den * 2 ^ scaleOf num den) fractionCount <
        distance num den y.units := by
      rw [distance, distance]
      omega
    exact ⟨by omega, fun _ heq => by omega⟩

/-- To a number that is not negative no double is nearer than one that is not negative. -/
theorem exists_not_negative (y : Binary64) {q : ℚ} (hq : 0 ≤ q) :
    ∃ z : Binary64, z.isNegative = false ∧ |z.toRat - q| ≤ |y.toRat - q| ∧
      (|y.toRat - q| = |z.toRat - q| → z.toRat = y.toRat) := by
  cases hy : y.isNegative with
  | false => exact ⟨y, hy, le_rfl, fun _ => rfl⟩
  | true =>
    have hvalue : y.toRat = -((y.units : ℚ) / unitsPerOne) := by
      rw [toRat, hy, if_pos rfl, neg_one_mul]
    have hunits : (0 : ℚ) ≤ (y.units : ℚ) / unitsPerOne :=
      div_nonneg (Nat.cast_nonneg _) (Nat.cast_nonneg _)
    refine ⟨zero, by decide, ?_⟩
    rw [toRat_zero, hvalue, abs_of_nonpos (by linarith), abs_of_nonpos (by linarith)]
    exact ⟨by linarith, fun h => by linarith⟩

theorem units_largest :
    largest.units = (2 * fractionCount - 1) * 2 ^ (topExponent - 2) := by decide +kernel

/-- A quotient that is not above all doubles is not rounded to infinity. -/
theorem toNat_bits_ofQuotient_lt (hden : 0 < den) (h : num ≤ largest.units * den) :
    (ofQuotient num den).bits.toNat < infinityBits := by
  have hlargest : largest = ofQuotient largest.units 1 := by decide +kernel
  have hle : (ofQuotient num den).bits ≤ (ofQuotient largest.units 1).bits :=
    ofQuotient_mono hden Nat.one_pos (by rwa [Nat.mul_one])
  rw [← hlargest] at hle
  exact Nat.lt_of_le_of_lt (UInt64.le_iff_toNat_le.mp hle) (by decide)

/-- A number that is no greater than the largest double is rounded on a grid below that of infinity. -/
theorem scaleOf_lt_of_le_largest (hden : 0 < den) (h : num ≤ largest.units * den) :
    scaleOf num den < topExponent - 1 := by
  have hscale : scaleOf num den ≤ topExponent - 2 := by
    refine scaleOf_le_of_lt hden (Nat.lt_of_le_of_lt h ?_)
    rw [units_largest]
    generalize topExponent - 2 = top
    have hstep : 0 < den * 2 ^ top := Nat.mul_pos hden (Nat.two_pow_pos top)
    calc (2 * fractionCount - 1) * 2 ^ top * den = (2 * fractionCount - 1) * (den * 2 ^ top) := by ring
      _ < 2 * fractionCount * (den * 2 ^ top) := Nat.mul_lt_mul_of_pos_right (by decide) hstep
  exact Nat.lt_of_le_of_lt hscale (by decide)

/-- **A quotient of units is rounded to the double that stands for it.** -/
theorem nearestEven_ofQuotient (hden : 0 < den)
    (h : (num : ℚ) / den / unitsPerOne ≤ largest.toRat) :
    NearestEven ((num : ℚ) / den / unitsPerOne) (ofQuotient num den) := by
  have hone : (0 : ℚ) < unitsPerOne := Nat.cast_pos.mpr unitsPerOne_pos
  have hd : (0 : ℚ) < den := Nat.cast_pos.mpr hden
  have hscaled : (0 : ℚ) < den * unitsPerOne := mul_pos hd hone
  have hnonneg : 0 ≤ (num : ℚ) / den / unitsPerOne :=
    div_nonneg (div_nonneg (Nat.cast_nonneg _) hd.le) hone.le
  have hle : num ≤ largest.units * den := by
    rw [toRat_of_not_negative (by decide), div_le_div_iff_of_pos_right hone, div_le_iff₀ hd] at h
    exact_mod_cast h
  have hsign := not_isNegative_ofQuotient num den
  have hbits := toNat_bits_ofQuotient_lt hden hle
  have hunits := units_ofQuotient hden (scaleOf_lt_of_le_largest hden hle)
  have hleast : ∀ z : Binary64, z.isNegative = false →
      |(ofQuotient num den).toRat - (num : ℚ) / den / unitsPerOne| ≤
        |z.toRat - (num : ℚ) / den / unitsPerOne| := by
    intro z hz
    rw [abs_toRat_sub hsign hden, abs_toRat_sub hz hden, hunits]
    exact div_le_div_of_nonneg_right (Nat.cast_le.mpr (distance_stepsOf hden z).1) hscaled.le
  refine ⟨hnonneg, h, hsign, isFinite_of_bits_lt hbits, fun y _ => ?_, fun y _ hne heq => ?_⟩
  · obtain ⟨z, hz, hnear, _⟩ := exists_not_negative y hnonneg
    exact (hleast z hz).trans hnear
  · -- the other double is as near as the result, so it is not negative either
    obtain ⟨z, hz, hnear, hsame⟩ := exists_not_negative y hnonneg
    have hvalue := hsame (le_antisymm (heq.le.trans (hleast z hz)) hnear)
    rw [← hvalue] at hne heq
    rw [abs_toRat_sub hsign hden, abs_toRat_sub hz hden, div_left_inj' hscaled.ne', Nat.cast_inj,
      hunits] at heq
    rw [toRat_of_not_negative hz, toRat_of_not_negative hsign, hunits] at hne
    have heven := (distance_stepsOf hden z).2 (fun hsteps => hne (by rw [hsteps])) heq
    have hF : fractionCount % 2 = 0 := by decide
    rw [toNat_ofQuotient] at hbits ⊢
    rw [Nat.min_eq_left (by omega), Nat.add_mod, Nat.mul_mod, hF, heven]
    rfl

end Quotient

/-! ## At most one double stands for a number

Because of this the relation can be used in place of the operation. -/

/-- A finite double without a sign is below infinity. -/
theorem bits_lt_of_isFinite {x : Binary64} (hx : x.isNegative = false) (hfinite : x.isFinite = true) :
    x.bits.toNat < infinityBits := by
  have hlt : x.bits.toNat < exponentCount * fractionCount := Nat.lt_of_not_le (of_decide_eq_false hx)
  have hfield : x.bits.toNat / fractionCount < exponentCount := Nat.div_lt_of_lt_mul (by
    rw [Nat.mul_comm]
    exact hlt)
  have hne := bne_iff_ne.mp hfinite
  rw [exponentField, Nat.mod_eq_of_lt hfield] at hne
  have hdiv := Nat.div_add_mod x.bits.toNat fractionCount
  have hmod : x.bits.toNat % fractionCount < fractionCount := Nat.mod_lt _ (by decide)
  simp only [exponentCount, topExponent, infinityBits, fractionCount] at *
  omega

namespace NearestEven

variable {q : ℚ} {x y : Binary64}

/-- Of two doubles for one number, the number would be half-way between them, and as both are even
there would be a third one in between, which is nearer. -/
theorem not_bits_lt (hx : NearestEven q x) (hy : NearestEven q y) : ¬x.bits < y.bits := by
  intro hlt
  have hvalues := toRat_lt_toRat hx.notNegative hy.notNegative hlt
  have heq : |x.toRat - q| = |y.toRat - q| :=
    le_antisymm (hx.nearest y hy.isFinite) (hy.nearest x hx.isFinite)
  have hmiddle : x.toRat + y.toRat = 2 * q := by
    rcases abs_eq_abs.mp heq with h | h
    · linarith
    · linarith
  -- both are even, so there is a double between them
  have hxeven := hx.even y hy.isFinite hvalues.ne' heq.symm
  have hyeven := hy.even x hx.isFinite hvalues.ne heq
  have hybits := bits_lt_of_isFinite hy.notNegative hy.isFinite
  have hlt' := UInt64.lt_iff_toNat_lt.mp hlt
  let z : Binary64 := ⟨UInt64.ofNat (x.bits.toNat + 1)⟩
  have hz : z.bits.toNat = x.bits.toNat + 1 := UInt64.toNat_ofNat_of_lt' (by
    have := y.bits.toNat_lt
    simp only [UInt64.size]
    omega)
  have hzbits : z.bits.toNat < infinityBits := by omega
  have hzsign : z.isNegative = false :=
    decide_eq_false (Nat.not_le_of_lt (Nat.lt_trans hzbits (by decide)))
  have hxz : x.toRat < z.toRat :=
    toRat_lt_toRat hx.notNegative hzsign (UInt64.lt_iff_toNat_lt.mpr (by omega))
  have hzy : z.toRat < y.toRat :=
    toRat_lt_toRat hzsign hy.notNegative (UInt64.lt_iff_toNat_lt.mpr (by omega))
  -- and it would be nearer than either
  have hnearest := hx.nearest z (isFinite_of_bits_lt hzbits)
  rw [abs_of_nonpos (by linarith : x.toRat - q ≤ 0)] at hnearest
  rcases abs_cases (z.toRat - q) with ⟨h, _⟩ | ⟨h, _⟩
  · linarith
  · linarith

/-- **A number has at most one double that stands for it.** -/
theorem unique (hx : NearestEven q x) (hy : NearestEven q y) : x = y :=
  congrArg Binary64.mk
    (UInt64.le_antisymm (UInt64.not_lt.mp (not_bits_lt hy hx)) (UInt64.not_lt.mp (not_bits_lt hx hy)))

/-- A double that is not below the number is not below the double that stands for it. -/
theorem le_of_le (hx : NearestEven q x) {z : Binary64} (hz : z.isFinite = true) (h : q ≤ z.toRat) :
    x.toRat ≤ z.toRat := by
  have hnearest := hx.nearest z hz
  rw [abs_of_nonneg (by linarith : 0 ≤ z.toRat - q)] at hnearest
  linarith [le_abs_self (x.toRat - q)]

/-- A double that is not above the number is not above the double that stands for it. -/
theorem ge_of_ge (hx : NearestEven q x) {z : Binary64} (hz : z.isFinite = true) (h : z.toRat ≤ q) :
    z.toRat ≤ x.toRat := by
  have hnearest := hx.nearest z hz
  rw [abs_of_nonpos (by linarith : z.toRat - q ≤ 0)] at hnearest
  linarith [neg_abs_le (x.toRat - q)]

theorem toRat_nonneg (hx : NearestEven q x) : 0 ≤ x.toRat := Binary64.toRat_nonneg hx.notNegative

end NearestEven

/-! ## Powers of two

Powers of two are doubles, and rounding is monotone. So the bounds of a product or a quotient survive its
rounding. -/

/-- A power of two in the range of the doubles is one of them. -/
theorem exists_toRat_eq_zpow {k : ℤ} (hlow : -1022 ≤ k) (hhigh : k ≤ 1023) :
    ∃ z : Binary64, z.isNegative = false ∧ z.isFinite = true ∧ z.toRat = 2 ^ k := by
  obtain ⟨s, hs⟩ : ∃ s : Nat, (s : ℤ) = k + 1022 := ⟨(k + 1022).toNat, by omega⟩
  have hsum : s * fractionCount + fractionCount < infinityBits := by
    simp only [infinityBits, topExponent, fractionCount]
    omega
  have hsize : s * fractionCount + fractionCount < exponentCount * fractionCount :=
    Nat.lt_trans hsum (by decide)
  have hbits := toNat_ofGrid hsize
  have hsign : (ofGrid s fractionCount).isNegative = false := by
    rw [isNegative, hbits]
    exact decide_eq_false (Nat.not_le_of_lt hsize)
  have hunits : (ofGrid s fractionCount).units = fractionCount * 2 ^ s :=
    units_ofGrid (Or.inr (Nat.le_refl _)) (by decide) hsize
  refine ⟨ofGrid s fractionCount, hsign, isFinite_of_bits_lt (by rwa [hbits]), ?_⟩
  have hfraction : ((fractionCount : Nat) : ℚ) = 2 ^ (52 : ℤ) := by norm_num [fractionCount]
  have hone : ((unitsPerOne : Nat) : ℚ) = 2 ^ (1074 : ℤ) := by
    rw [unitsPerOne, Nat.one_shiftLeft, Nat.cast_pow, Nat.cast_ofNat, ← zpow_natCast]
    rfl
  have hexponent : 52 + (s : ℤ) - 1074 = k := by omega
  rw [toRat_of_not_negative hsign, hunits, Nat.cast_mul, Nat.cast_pow, Nat.cast_ofNat, hfraction, hone,
    ← zpow_natCast, ← zpow_add₀ two_ne_zero, ← zpow_sub₀ two_ne_zero, hexponent]

/-- A power of two in the range is not above all doubles. -/
theorem zpow_le_largest {k : ℤ} (hlow : -1022 ≤ k) (hhigh : k ≤ 1023) : 2 ^ k ≤ largest.toRat := by
  obtain ⟨z, hz, hfinite, hvalue⟩ := exists_toRat_eq_zpow hlow hhigh
  have hbits := bits_lt_of_isFinite hz hfinite
  rw [← hvalue]
  refine toRat_mono hz (by decide) (UInt64.le_iff_toNat_le.mpr (Nat.le_of_lt_succ ?_))
  exact Nat.lt_of_lt_of_eq hbits (by decide)

namespace NearestEven

variable {q : ℚ} {x : Binary64} {k : ℤ}

/-- Rounding does not cross a power of two from below. -/
theorem le_zpow (hx : NearestEven q x) (hlow : -1022 ≤ k) (hhigh : k ≤ 1023) (h : q ≤ 2 ^ k) :
    x.toRat ≤ 2 ^ k := by
  obtain ⟨z, _, hfinite, hvalue⟩ := exists_toRat_eq_zpow hlow hhigh
  rw [← hvalue] at h ⊢
  exact hx.le_of_le hfinite h

/-- Rounding does not cross a power of two from above. -/
theorem zpow_le (hx : NearestEven q x) (hlow : -1022 ≤ k) (hhigh : k ≤ 1023) (h : 2 ^ k ≤ q) :
    2 ^ k ≤ x.toRat := by
  obtain ⟨z, _, hfinite, hvalue⟩ := exists_toRat_eq_zpow hlow hhigh
  rw [← hvalue] at h ⊢
  exact hx.ge_of_ge hfinite h

end NearestEven

/-! ## Operations

Each operation of the program rounds the exact result once. -/

section Operations

variable {x y : Binary64}

/-- A number as a double. -/
theorem nearestEven_ofNat {n : Nat} (h : (n : ℚ) ≤ largest.toRat) : NearestEven n (ofNat n) := by
  have hone : (unitsPerOne : ℚ) ≠ 0 := Nat.cast_ne_zero.mpr unitsPerOne_pos.ne'
  have hq : (n : ℚ) = ((n * unitsPerOne : Nat) : ℚ) / (1 : Nat) / unitsPerOne := by
    rw [Nat.cast_one, div_one, Nat.cast_mul, mul_div_cancel_right₀ _ hone]
  rw [hq] at h ⊢
  exact nearestEven_ofQuotient Nat.one_pos h

/-- A multiple of a double is rounded once. -/
theorem nearestEven_timesNat {n : Nat} (hx : x.isNegative = false)
    (h : x.toRat * n ≤ largest.toRat) : NearestEven (x.toRat * n) (x.timesNat n) := by
  have hq : x.toRat * n = ((x.units * n : Nat) : ℚ) / (1 : Nat) / unitsPerOne := by
    rw [toRat_of_not_negative hx, Nat.cast_one, div_one, Nat.cast_mul, div_mul_eq_mul_div]
  rw [hq] at h ⊢
  exact nearestEven_ofQuotient Nat.one_pos h

/-- A double divided by a number is rounded once. -/
theorem nearestEven_divNat {n : Nat} (hx : x.isNegative = false) (hn : 0 < n)
    (h : x.toRat / n ≤ largest.toRat) : NearestEven (x.toRat / n) (x.divNat n) := by
  have hq : x.toRat / n = (x.units : ℚ) / n / unitsPerOne := by
    rw [toRat_of_not_negative hx, div_right_comm]
  rw [hq] at h ⊢
  exact nearestEven_ofQuotient hn h

/-- The quotient of two doubles is rounded once. -/
theorem nearestEven_div (hx : x.isNegative = false) (hy : y.isNegative = false) (hpos : 0 < y.toRat)
    (h : x.toRat / y.toRat ≤ largest.toRat) : NearestEven (x.toRat / y.toRat) (x.div y) := by
  have hone : (unitsPerOne : ℚ) ≠ 0 := Nat.cast_ne_zero.mpr unitsPerOne_pos.ne'
  have hunits : 0 < y.units := by
    refine Nat.pos_of_ne_zero fun hzero => hpos.ne' ?_
    rw [toRat_of_not_negative hy, hzero, Nat.cast_zero, zero_div]
  have hne : (y.units : ℚ) ≠ 0 := Nat.cast_ne_zero.mpr hunits.ne'
  have hq : x.toRat / y.toRat =
      ((x.units * unitsPerOne : Nat) : ℚ) / y.units / unitsPerOne := by
    rw [toRat_of_not_negative hx, toRat_of_not_negative hy, Nat.cast_mul]
    field_simp
  rw [hq] at h ⊢
  exact nearestEven_ofQuotient hunits h

end Operations

end Binary64

end HostMeter
