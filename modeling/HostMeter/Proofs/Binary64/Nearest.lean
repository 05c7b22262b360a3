import HostMeter.Proofs.Binary64.Grid
/-!
# Nearest — rounding a quotient to a double

A quotient of units is rounded to the nearest step of its grid. This module says what that means for
the doubles: which of two quotients rounds to the larger one, how far the result is from the quotient,
when it is the quotient itself, and which quotients round to one given double.

* `ofQuotient_mono`: rounding keeps the order.
* `units_ofQuotient_of_steps`, `units_ofQuotient_one_le`: numbers that are not rounded, and how far off
  any other is.
* `Near`, `ofQuotient_eq_of_near`: the quotients that round to a point of a grid.
-/

namespace HostMeter

/-! ## Whole numbers

Rounding a quotient of whole numbers to the nearest one, and from half-way to an even one. -/

/-- Only the quotient counts, not the terms in which it is given. -/
theorem roundDiv_mul_mul_right (num den : Nat) {k : Nat} (hk : 0 < k) :
    roundDiv (num * k) (den * k) = roundDiv num den := by
  have hless : 2 * (num % den * k) < den * k ↔ 2 * (num % den) < den := by
    rw [← Nat.mul_assoc]
    exact Nat.mul_lt_mul_right hk
  have hmore : den * k < 2 * (num % den * k) ↔ den < 2 * (num % den) := by
    rw [← Nat.mul_assoc]
    exact Nat.mul_lt_mul_right hk
  simp only [roundDiv, Nat.mul_div_mul_right num den hk, Nat.mul_mod_mul_right, hless, hmore]

/-- Rounding keeps the order of quotients. -/
theorem roundDiv_le_roundDiv {a b c d : Nat} (hb : 0 < b) (hd : 0 < d) (h : a * d ≤ c * b) :
    roundDiv a b ≤ roundDiv c d := by
  rw [← roundDiv_mul_mul_right a b hd, ← roundDiv_mul_mul_right c d hb, Nat.mul_comm d b]
  exact roundDiv_mono h

theorem roundDiv_mul_left (n : Nat) {den : Nat} (hden : 0 < den) : roundDiv (n * den) den = n :=
  roundDiv_eq hden (by omega) (by omega) (by omega)

namespace Binary64

/-! ## Doubles

A quotient of units is rounded on a grid of its own. Where it carries to the next grid, the word carries as
well. -/

/-- The steps to which a quotient is rounded, on its grid. -/
def stepsOf (num den : Nat) : Nat := roundDiv num (den * 2 ^ scaleOf num den)

variable {num den : Nat}

/-- A quotient has 53 bits of steps, and may carry to one more. -/
theorem stepsOf_le (num : Nat) (hden : 0 < den) : stepsOf num den ≤ 2 * fractionCount := by
  have hstep : 0 < den * 2 ^ scaleOf num den := Nat.mul_pos hden (Nat.two_pow_pos _)
  have hupper := (scaleOf_spec num hden).1
  calc stepsOf num den
      ≤ roundDiv (2 * fractionCount * (den * 2 ^ scaleOf num den)) (den * 2 ^ scaleOf num den) :=
        roundDiv_mono (Nat.le_of_lt hupper)
    _ = 2 * fractionCount := roundDiv_mul_left _ hstep

/-- On a coarser grid the steps use all bits, also after rounding. -/
theorem scaleOf_eq_zero_or (num : Nat) (hden : 0 < den) :
    scaleOf num den = 0 ∨ fractionCount ≤ stepsOf num den := by
  have hstep : 0 < den * 2 ^ scaleOf num den := Nat.mul_pos hden (Nat.two_pow_pos _)
  rcases (scaleOf_spec num hden).2 with hzero | hlower
  · exact Or.inl hzero
  · refine Or.inr ?_
    calc fractionCount
        = roundDiv (fractionCount * (den * 2 ^ scaleOf num den)) (den * 2 ^ scaleOf num den) :=
          (roundDiv_mul_left _ hstep).symm
      _ ≤ stepsOf num den := roundDiv_mono hlower

/-- The word of a rounded quotient, which stops at infinity. -/
theorem toNat_ofQuotient (num den : Nat) :
    (ofQuotient num den).bits.toNat =
      min (scaleOf num den * fractionCount + stepsOf num den) infinityBits := by
  have hsize : infinityBits < UInt64.size := by decide
  rw [ofQuotient, Nat.shiftLeft_eq]
  exact UInt64.toNat_ofNat_of_lt' (Nat.lt_of_le_of_lt (Nat.min_le_right _ _) hsize)

/-- A rounded quotient has no sign. -/
theorem not_isNegative_ofQuotient (num den : Nat) : (ofQuotient num den).isNegative = false := by
  have hsign : infinityBits < exponentCount * fractionCount := by decide
  rw [isNegative, toNat_ofQuotient]
  exact decide_eq_false (by omega)

/-- Up to infinity a rounded quotient is the point of its grid. -/
theorem ofQuotient_eq_ofGrid (h : scaleOf num den * fractionCount + stepsOf num den ≤ infinityBits) :
    ofQuotient num den = ofGrid (scaleOf num den) (stepsOf num den) := by
  simp only [ofQuotient, ofGrid, stepsOf, Nat.shiftLeft_eq] at h ⊢
  rw [Nat.min_eq_left h]

/-! ## Order

The order is kept on one grid, and from one grid to the next. -/

/-- A quotient that fits a grid is not rounded on a coarser one. -/
theorem scaleOf_le_of_lt {k : Nat} (hden : 0 < den) (h : num < 2 * fractionCount * (den * 2 ^ k)) :
    scaleOf num den ≤ k := by
  rcases (scaleOf_spec num hden).2 with hzero | hlower
  · omega
  · by_contra hgt
    have hpow : 2 * 2 ^ k ≤ 2 ^ scaleOf num den := by
      rw [← Nat.pow_succ']
      exact Nat.pow_le_pow_right (by decide) (Nat.lt_of_not_le hgt)
    have hstep : 2 * (den * 2 ^ k) ≤ den * 2 ^ scaleOf num den :=
      calc 2 * (den * 2 ^ k) = den * (2 * 2 ^ k) := by ring
        _ ≤ den * 2 ^ scaleOf num den := Nat.mul_le_mul_left den hpow
    simp only [fractionCount] at *
    omega

/-- **Rounding keeps the order**: of two quotients the larger one is not rounded to the smaller double. -/
theorem ofQuotient_mono {num' den' : Nat} (hden : 0 < den) (hden' : 0 < den')
    (h : num * den' ≤ num' * den) : (ofQuotient num den).bits ≤ (ofQuotient num' den').bits := by
  have hscale : scaleOf num den ≤ scaleOf num' den' := by
    refine scaleOf_le_of_lt hden (Nat.lt_of_mul_lt_mul_right (a := den') ?_)
    calc num * den' ≤ num' * den := h
      _ < 2 * fractionCount * (den' * 2 ^ scaleOf num' den') * den :=
        Nat.mul_lt_mul_of_pos_right (scaleOf_spec num' hden').1 hden
      _ = 2 * fractionCount * (den * 2 ^ scaleOf num' den') * den' := by ring
  have hsum : scaleOf num den * fractionCount + stepsOf num den ≤
      scaleOf num' den' * fractionCount + stepsOf num' den' := by
    rcases Nat.eq_or_lt_of_le hscale with heq | hlt
    · -- one grid: the steps are in order
      have hsteps : stepsOf num den ≤ stepsOf num' den' := by
        rw [stepsOf, stepsOf, heq]
        have hpow := Nat.two_pow_pos (scaleOf num' den')
        refine roundDiv_le_roundDiv (Nat.mul_pos hden hpow) (Nat.mul_pos hden' hpow) ?_
        rw [← Nat.mul_assoc, ← Nat.mul_assoc]
        exact Nat.mul_le_mul_right _ h
      rw [heq]
      omega
    · -- a coarser grid starts where the finer one carries to it
      have hupper := stepsOf_le num hden
      have hlower := (scaleOf_eq_zero_or num' hden').resolve_left (by omega)
      simp only [fractionCount] at *
      omega
  rw [UInt64.le_iff_toNat_le, toNat_ofQuotient, toNat_ofQuotient]
  exact Nat.le_min.mpr ⟨Nat.le_trans (Nat.min_le_left _ _) hsum, Nat.min_le_right _ _⟩

/-- Only the quotient counts, not its terms. -/
theorem ofQuotient_congr {num' den' : Nat} (hden : 0 < den) (hden' : 0 < den')
    (h : num * den' = num' * den) : ofQuotient num den = ofQuotient num' den' := by
  have hle := ofQuotient_mono hden hden' (Nat.le_of_eq h)
  have hge := ofQuotient_mono hden' hden (Nat.le_of_eq h.symm)
  cases hx : ofQuotient num den
  cases hy : ofQuotient num' den'
  rw [hx, hy] at hle hge
  exact congrArg Binary64.mk (UInt64.le_antisymm hle hge)

/-! ## Units

How far a rounded number of units is from the exact one. -/

/-- Below infinity the units of a rounded quotient are its steps on its grid. -/
theorem units_ofQuotient (hden : 0 < den) (h : scaleOf num den < topExponent - 1) :
    (ofQuotient num den).units = stepsOf num den * 2 ^ scaleOf num den := by
  have hsteps := stepsOf_le num hden
  have hform := scaleOf_eq_zero_or num hden
  have hfinite : scaleOf num den * fractionCount + stepsOf num den ≤ infinityBits := by
    simp only [topExponent, infinityBits, fractionCount] at *
    omega
  rw [ofQuotient_eq_ofGrid hfinite]
  refine units_ofGrid hform hsteps (Nat.lt_of_le_of_lt hfinite ?_)
  decide

/-- A number of units that has fewer than `2 ^ 53` steps of some power of two is not rounded. -/
theorem units_ofQuotient_of_steps {n m k : Nat} (hn : n = m * 2 ^ k) (hm : m < 2 * fractionCount)
    (hk : k < topExponent - 1) : (ofQuotient n 1).units = n := by
  have hscale : scaleOf n 1 ≤ k := by
    refine scaleOf_le_of_lt Nat.one_pos ?_
    rw [hn, Nat.one_mul]
    exact Nat.mul_lt_mul_of_pos_right hm (Nat.two_pow_pos k)
  rw [units_ofQuotient Nat.one_pos (Nat.lt_of_le_of_lt hscale hk), stepsOf, Nat.one_mul]
  obtain ⟨d, hd⟩ := Nat.exists_eq_add_of_le hscale
  generalize scaleOf n 1 = s at *
  have hsteps : n = m * 2 ^ d * 2 ^ s := by rw [hn, hd, Nat.pow_add]; ring
  rw [hsteps, roundDiv_mul_left _ (Nat.two_pow_pos s)]

/-- A rounded number of units exceeds it by at most its `2 ^ 53`-th part. -/
theorem units_ofQuotient_one_le {n : Nat} (h : scaleOf n 1 < topExponent - 1) :
    (ofQuotient n 1).units * (2 * fractionCount) ≤ n * (2 * fractionCount + 1) := by
  rw [units_ofQuotient Nat.one_pos h, stepsOf, Nat.one_mul]
  have hround : 2 * (roundDiv n (2 ^ scaleOf n 1) * 2 ^ scaleOf n 1) ≤ 2 * n + 2 ^ scaleOf n 1 :=
    roundDiv_le (Nat.two_pow_pos _)
  have hlower := (scaleOf_spec n Nat.one_pos).2
  rw [Nat.one_mul] at hlower
  rcases hlower with hzero | hlower
  · -- on a grid of single units nothing is rounded
    have hexact := roundDiv_mul_left n Nat.one_pos
    rw [Nat.mul_one] at hexact
    rw [hzero, Nat.pow_zero, hexact, Nat.mul_one]
    exact Nat.mul_le_mul_left n (Nat.le_succ _)
  · -- the error is half a step, and the number has `2 ^ 52` steps
    generalize roundDiv n (2 ^ scaleOf n 1) * 2 ^ scaleOf n 1 = p at *
    generalize 2 ^ scaleOf n 1 = q at *
    simp only [fractionCount] at *
    omega

/-! ## Which quotients round to a point of a grid

Being near to a point is a matter of half steps, but for the points on which a finer grid ends: below them
half a step of that grid decides. -/

/-- A quotient is near the point of a grid with a number of steps: at most half a step away, and less
if the number is odd. Below a power of two the doubles are closer, so half of that. -/
structure Near (s m num den : Nat) : Prop where
  high : 2 * num ≤ 2 * (m * (den * 2 ^ s)) + den * 2 ^ s
  low : 2 * (m * (den * 2 ^ s)) ≤ 2 * num + den * 2 ^ s
  tie : 2 * (m * (den * 2 ^ s)) = 2 * num + den * 2 ^ s ∨
    2 * num = 2 * (m * (den * 2 ^ s)) + den * 2 ^ s → m % 2 = 0
  narrow : m = fractionCount → s ≠ 0 → 4 * (m * (den * 2 ^ s)) ≤ 4 * num + den * 2 ^ s

/-- A quotient is the point with its steps on its grid. -/
theorem ofQuotient_eq_of_steps {s : Nat} (hscale : scaleOf num den = s) {n : Nat}
    (hsteps : stepsOf num den = n) (hfinite : s * fractionCount + n ≤ infinityBits) :
    ofQuotient num den = ofGrid s n := by
  rw [ofQuotient_eq_ofGrid (by rwa [hscale, hsteps]), hscale, hsteps]

namespace Near

variable {s m : Nat}

/-- What is near to a point of a grid is not above the grid. -/
theorem lt_top (h : Near s m num den) (hden : 0 < den) (hm : m < 2 * fractionCount) :
    num < 2 * fractionCount * (den * 2 ^ s) := by
  have hhigh := h.high
  have hstep : 0 < den * 2 ^ s := Nat.mul_pos hden (Nat.two_pow_pos s)
  have hmost := Nat.mul_le_mul_right (den * 2 ^ s) (Nat.le_sub_one_of_lt hm)
  simp only [fractionCount] at *
  omega

/-- The quotient is rounded on the grid of the point. -/
theorem ofQuotient_eq (h : Near s m num den) (hden : 0 < den) (hm : m < 2 * fractionCount)
    (hs : s < topExponent - 1) (hlower : s = 0 ∨ fractionCount * (den * 2 ^ s) ≤ num) :
    ofQuotient num den = ofGrid s m := by
  have hscale := scaleOf_eq hden (h.lt_top hden hm) hlower
  refine ofQuotient_eq_of_steps hscale ?_ ?_
  · rw [stepsOf, hscale]
    exact roundDiv_eq (Nat.mul_pos hden (Nat.two_pow_pos s)) h.low h.high h.tie
  · simp only [topExponent, infinityBits, fractionCount] at *
    omega

/-- Just below a power of two the quotient is rounded on the next finer grid, from which it carries. -/
theorem ofQuotient_eq_of_lt (h : Near s m num den) (hden : 0 < den) (hcanonical : fractionCount ≤ m)
    (hs : s < topExponent - 1) (hs0 : s ≠ 0) (hless : num < fractionCount * (den * 2 ^ s)) :
    ofQuotient num den = ofGrid s m := by
  have hlow := h.low
  have hmF : m = fractionCount := by
    refine Nat.le_antisymm ?_ hcanonical
    by_contra hmore
    have hnext := Nat.mul_le_mul_right (den * 2 ^ s) (Nat.lt_of_not_le hmore)
    simp only [fractionCount] at *
    omega
  have hquarter := h.narrow hmF hs0
  obtain ⟨t, rfl⟩ := Nat.exists_eq_succ_of_ne_zero hs0
  have hdouble : den * 2 ^ (t + 1) = 2 * (den * 2 ^ t) := by rw [Nat.pow_succ]; ring
  have hstep : 0 < den * 2 ^ t := Nat.mul_pos hden (Nat.two_pow_pos t)
  rw [Nat.succ_eq_add_one, hdouble] at hless hquarter
  rw [hmF] at hquarter ⊢
  have hscale : scaleOf num den = t := by
    refine scaleOf_eq hden ?_ (Or.inr ?_)
    all_goals simp only [fractionCount] at *; omega
  have hsteps : stepsOf num den = 2 * fractionCount := by
    rw [stepsOf, hscale]
    refine roundDiv_eq hstep ?_ ?_ (fun _ => Nat.mul_mod_right 2 _)
    all_goals simp only [fractionCount] at *; omega
  have hcarry : t * fractionCount + 2 * fractionCount = (t + 1) * fractionCount + fractionCount := by
    ring
  rw [ofQuotient_eq_of_steps hscale hsteps, ofGrid, ofGrid, hcarry]
  simp only [topExponent, infinityBits, fractionCount] at *
  omega

end Near

/-- **A quotient near a point of a grid rounds to it.** -/
theorem ofQuotient_eq_of_near {s m : Nat} (hden : 0 < den) (hcanonical : s = 0 ∨ fractionCount ≤ m)
    (hm : m < 2 * fractionCount) (hs : s < topExponent - 1) (h : Near s m num den) :
    ofQuotient num den = ofGrid s m := by
  by_cases hlower : s = 0 ∨ fractionCount * (den * 2 ^ s) ≤ num
  · exact h.ofQuotient_eq hden hm hs hlower
  · obtain ⟨hs0, hless⟩ := not_or.mp hlower
    exact h.ofQuotient_eq_of_lt hden (hcanonical.resolve_left hs0) hs hs0 (Nat.lt_of_not_le hless)

end Binary64

end HostMeter
