import HostMeter.Decimal.Fixed
import HostMeter.Proofs.Binary64.NearestEven
import Mathlib.Algebra.Order.Round
import Mathlib.Data.Rat.Floor
/-!
# Hundredths — rounding to two decimal places

A number is rounded to the nearest whole number of hundredths, and one that lies half-way between two to the
even one. The relation is told on rationals and knows nothing of doubles; it determines the number of
hundredths, keeps the order of the numbers, and is never off by more than half a hundredth.

* `NearestHundredth`, `NearestHundredth.abs_sub_le`, `NearestHundredth.le_of_le`: the relation.
* `nearestHundredth_roundDiv`: quotients of whole numbers.
* `nearestHundredth_scaled`: doubles, of either sign and of any size.
-/

namespace HostMeter

/-! ## The relation

Which hundredths stand for a number is told by distances, without saying how they are found. From the two
facts alone follow the bound on the error, the order, and the sign. -/

/-- A number of hundredths stands for a number: no other is nearer, and if another one is equally near then
this one is even. -/
structure NearestHundredth (q : ℚ) (k : ℤ) : Prop where
  nearest : ∀ j : ℤ, |q - k / 100| ≤ |q - j / 100|
  even : ∀ j : ℤ, j ≠ k → |q - j / 100| = |q - k / 100| → Even k

namespace NearestHundredth

variable {q r : ℚ} {k l : ℤ}

/-- The number is at most half a hundredth away. -/
theorem abs_sub_le (h : NearestHundredth q k) : |q - k / 100| ≤ 1 / 200 := by
  have hround : |100 * q - round (100 * q)| ≤ 1 / 2 := abs_sub_round (100 * q)
  have hscale : q - (round (100 * q) : ℚ) / 100 = (100 * q - round (100 * q)) / 100 := by ring
  calc |q - k / 100| ≤ |q - (round (100 * q) : ℚ) / 100| := h.nearest _
    _ = |100 * q - round (100 * q)| / 100 := by rw [hscale, abs_div, abs_of_pos (by norm_num : (0 : ℚ) < 100)]
    _ ≤ 1 / 200 := by linarith

/-- **The order is kept.** If it were not, the two would be neighbours and both numbers would be the one
half-way between them; both neighbours would then be even. -/
theorem le_of_le (hk : NearestHundredth q k) (hl : NearestHundredth r l) (h : q ≤ r) : k ≤ l := by
  by_contra hlt
  have hstep : l + 1 ≤ k := Int.add_one_le_iff.mpr (Int.lt_of_not_ge hlt)
  have hstep' : (l : ℚ) + 1 ≤ k := by exact_mod_cast hstep
  obtain ⟨hlow, _⟩ := abs_le.mp hk.abs_sub_le
  obtain ⟨_, hhigh⟩ := abs_le.mp hl.abs_sub_le
  -- the two lie at most one apart, and each is at most half a hundredth from its number
  have hneighbours : (k : ℚ) = l + 1 := by linarith
  have hk' : q - k / 100 = -(1 / 200) := by linarith
  have hl' : q - l / 100 = 1 / 200 := by linarith
  -- so both numbers are the middle between them
  have hr : r = q := by linarith
  rw [hr] at hl
  have hequal : |q - l / 100| = |q - k / 100| := by rw [hk', hl', abs_neg]
  have hne : l ≠ k := by omega
  -- of two neighbours only one is even
  obtain ⟨a, ha⟩ := hk.even l hne hequal
  obtain ⟨b, hb⟩ := hl.even k hne.symm hequal.symm
  have hsucc : k = l + 1 := by exact_mod_cast hneighbours
  omega

/-- Rounding does not depend on the sign. -/
theorem neg (h : NearestHundredth q k) : NearestHundredth (-q) (-k) := by
  have hflip : ∀ j : ℤ, |-q - (j : ℚ) / 100| = |q - ((-j : ℤ) : ℚ) / 100| := by
    intro j
    rw [← abs_neg]
    congr 1
    push_cast
    ring
  refine ⟨fun j => ?_, fun j hne heq => ?_⟩
  · rw [hflip, hflip, neg_neg]
    exact h.nearest (-j)
  · rw [hflip, hflip, neg_neg] at heq
    exact (h.even (-j) (fun hj => hne (by rw [← hj, neg_neg])) heq).neg

end NearestHundredth

/-! ## Quotients

A quotient of whole numbers is not negative, so the hundredths below zero need only be shown to be farther
away. -/

section Quotient

variable {num den : Nat}

/-- How far a quotient is from a number of hundredths, counted in whole numbers. -/
theorem abs_sub_hundredth (num : Nat) (hden : 0 < den) (n : Nat) :
    |(num : ℚ) / den - n / 100| = (distance (num * 100) den n : ℚ) / (den * 100) := by
  have hd : (0 : ℚ) < den := Nat.cast_pos.mpr hden
  have hsub : (num : ℚ) / den - n / 100 =
      -((((n * den : Nat) - (num * 100 : Nat) : Int) : ℚ) / (den * 100)) := by
    push_cast
    field_simp
    ring
  rw [hsub, abs_neg, abs_div, abs_of_pos (mul_pos hd (by norm_num : (0 : ℚ) < 100)), distance,
    Nat.cast_natAbs, Int.cast_abs]

/-- A quotient of whole numbers is rounded to the hundredths that stand for it. -/
theorem nearestHundredth_roundDiv (num : Nat) (hden : 0 < den) :
    NearestHundredth ((num : ℚ) / den) (roundDiv (num * 100) den : Nat) := by
  have hscaled : (0 : ℚ) < den * 100 := mul_pos (Nat.cast_pos.mpr hden) (by norm_num)
  have hnonneg : 0 ≤ (num : ℚ) / den := div_nonneg (Nat.cast_nonneg _) (Nat.cast_nonneg _)
  have hleast : ∀ n : Nat, |(num : ℚ) / den - (roundDiv (num * 100) den : Nat) / 100| ≤
      |(num : ℚ) / den - n / 100| := by
    intro n
    rw [abs_sub_hundredth num hden, abs_sub_hundredth num hden]
    exact div_le_div_of_nonneg_right (Nat.cast_le.mpr (distance_roundDiv_le _ hden n)) hscaled.le
  -- what is below zero is farther away than zero is
  have hbelow : ∀ j : ℤ, j < 0 →
      |(num : ℚ) / den - ((0 : Nat) : ℚ) / 100| < |(num : ℚ) / den - j / 100| := by
    intro j hj
    have hj' : (j : ℚ) < 0 := by exact_mod_cast hj
    rw [abs_of_nonneg (by push_cast; linarith), abs_of_nonneg (by linarith)]
    push_cast
    linarith
  refine ⟨fun j => ?_, fun j hne heq => ?_⟩
  · rcases lt_or_ge j 0 with hj | hj
    · exact (hleast 0).trans (hbelow j hj).le
    · obtain ⟨n, rfl⟩ := Int.eq_ofNat_of_zero_le hj
      exact hleast n
  · rcases lt_or_ge j 0 with hj | hj
    · exact absurd heq ((hleast 0).trans_lt (hbelow j hj)).ne'
    · obtain ⟨n, rfl⟩ := Int.eq_ofNat_of_zero_le hj
      have heq' : |(num : ℚ) / den - n / 100| =
          |(num : ℚ) / den - (roundDiv (num * 100) den : Nat) / 100| := heq
      rw [abs_sub_hundredth num hden, abs_sub_hundredth num hden, div_left_inj' hscaled.ne',
        Nat.cast_inj] at heq'
      have heven := even_roundDiv_of_distance hden (fun hn => hne (by rw [hn])) heq'
      exact (Nat.even_iff.mpr heven).natCast

end Quotient

/-! ## Doubles

A double is rounded by its magnitude, and its sign is put in front. -/

namespace Decimal

/-- The hundredths that are written for a double. -/
def hundredths (x : Binary64) : ℤ := if x.isNegative then -(scaled x : ℤ) else scaled x

/-- **A double is written in the hundredths that stand for it.** -/
theorem nearestHundredth_scaled (x : Binary64) : NearestHundredth x.toRat (hundredths x) := by
  have hmagnitude : NearestHundredth ((x.units : ℚ) / Binary64.unitsPerOne) (scaled x : ℤ) :=
    nearestHundredth_roundDiv x.units Binary64.unitsPerOne_pos
  rw [Binary64.toRat, hundredths]
  cases x.isNegative with
  | false =>
    rw [if_neg Bool.false_ne_true, if_neg Bool.false_ne_true, one_mul]
    exact hmagnitude
  | true =>
    rw [if_pos rfl, if_pos rfl, neg_one_mul]
    exact hmagnitude.neg

end Decimal

end HostMeter
