import HostMeter.Percent
import HostMeter.Proofs.Binary64.NearestEven
import Mathlib.Tactic.NormNum
/-!
# Quotients — what shares and rates of counters are

The shares and the rates that the probes report are computed in a few rounded steps. Here they are told
by the exact numbers: each step takes the exact result of its operation to the double that stands for
it, so that the counters alone determine what comes out.

* `IsPercent`, `isPercent_percent`: a part of a whole in percent.
* `IsPerSecond`, `isPerSecond_perSecond`: an amount for each second of a time in milliseconds; it is
  zero exactly if the amount is (`IsPerSecond.eq_zero_iff`).
-/

namespace HostMeter

open Binary64

/-- A double is the share of a part in a whole: both as doubles, the part times one hundred, and the
quotient of the two. -/
inductive IsPercent (part whole : Nat) : Binary64 → Prop where
  | intro {p w product x : Binary64} (hp : NearestEven part p) (hw : NearestEven whole w)
      (hproduct : NearestEven (p.toRat * 100) product)
      (hx : NearestEven (product.toRat / w.toRat) x) : IsPercent part whole x

/-- A double is the amount for each second: the time as a double, its thousandth, the amount as a
double, and the quotient of the two. -/
inductive IsPerSecond (amount elapsed : Nat) : Binary64 → Prop where
  | intro {a ms s x : Binary64} (ha : NearestEven amount a) (hms : NearestEven elapsed ms)
      (hs : NearestEven (ms.toRat / 1000) s) (hx : NearestEven (a.toRat / s.toRat) x) :
      IsPerSecond amount elapsed x

/-- There is one double for a share, since each step of it has one. -/
theorem IsPercent.unique {part whole : Nat} {x y : Binary64} (hx : IsPercent part whole x)
    (hy : IsPercent part whole y) : x = y := by
  obtain ⟨hp, hw, hproduct, hx⟩ := hx
  obtain ⟨hp', hw', hproduct', hy⟩ := hy
  cases hp.unique hp'
  cases hw.unique hw'
  cases hproduct.unique hproduct'
  exact hx.unique hy

/-- A share is a rounded number. -/
theorem IsPercent.nearestEven {part whole : Nat} {x : Binary64} (hx : IsPercent part whole x) :
    ∃ q, NearestEven q x := by
  obtain ⟨_, _, _, hx⟩ := hx
  exact ⟨_, hx⟩

/-- A rate is a rounded number. -/
theorem IsPerSecond.nearestEven {amount elapsed : Nat} {x : Binary64}
    (hx : IsPerSecond amount elapsed x) : ∃ q, NearestEven q x := by
  obtain ⟨_, _, _, hx⟩ := hx
  exact ⟨_, hx⟩

/-- There is one double for a rate. -/
theorem IsPerSecond.unique {amount elapsed : Nat} {x y : Binary64} (hx : IsPerSecond amount elapsed x)
    (hy : IsPerSecond amount elapsed y) : x = y := by
  obtain ⟨ha, hms, hs, hx⟩ := hx
  obtain ⟨ha', hms', hs', hy⟩ := hy
  cases ha.unique ha'
  cases hms.unique hms'
  cases hs.unique hs'
  exact hx.unique hy

/-! ## Words as doubles

Words of 64 bits are rounded to 53, and stay in their range. -/

namespace Binary64

/-- Words are below a power of two. -/
theorem word_le_zpow (n : UInt64) : (n.toNat : ℚ) ≤ 2 ^ (64 : ℤ) := by
  have h : (n.toNat : ℚ) < (2 ^ 64 : Nat) := Nat.cast_lt.mpr n.toNat_lt
  refine h.le.trans (le_of_eq ?_)
  norm_num

/-- A word has a double that stands for it. -/
theorem nearestEven_word (n : UInt64) : NearestEven n.toNat (ofNat n.toNat) :=
  nearestEven_ofNat ((word_le_zpow n).trans (zpow_le_largest (by decide) (by decide)))

variable {n : UInt64} {x : Binary64}

theorem NearestEven.le_of_word (hx : NearestEven n.toNat x) : x.toRat ≤ 2 ^ (64 : ℤ) :=
  hx.le_zpow (by decide) (by decide) (word_le_zpow n)

/-- The double for a word that is not zero is one at least. -/
theorem NearestEven.one_le_of_word (hx : NearestEven n.toNat x) (h : n ≠ 0) : 1 ≤ x.toRat := by
  have hpos : 1 ≤ n.toNat := Nat.pos_of_ne_zero fun hzero => h (UInt64.toNat_inj.mp hzero)
  have hle : 2 ^ (0 : ℤ) ≤ x.toRat := by
    refine hx.zpow_le (by decide) (by decide) ?_
    rw [zpow_zero]
    exact_mod_cast hpos
  rwa [zpow_zero] at hle

/-- Zero is rounded to zero. -/
theorem NearestEven.eq_zero (hx : NearestEven 0 x) : x = zero := by
  have hzero : NearestEven ((0 : Nat) : ℚ) (ofNat 0) :=
    nearestEven_word 0
  rw [Nat.cast_zero] at hzero
  exact hx.unique hzero

end Binary64

/-! ## Shares

The product with a hundred is rounded before the division. -/

/-- **The program computes shares**: no step of it leaves the range of the doubles. -/
theorem isPercent_percent {part whole : UInt64} (hwhole : whole ≠ 0) :
    IsPercent part.toNat whole.toNat (percent part whole) := by
  have hp := nearestEven_word part
  have hw := nearestEven_word whole
  have hlow := hw.one_le_of_word hwhole
  have hhigh : (ofNat part.toNat).toRat * 100 ≤ 2 ^ (71 : ℤ) := by
    have := hp.le_of_word
    norm_num at this ⊢
    linarith
  have hproduct : NearestEven ((ofNat part.toNat).toRat * 100) ((ofNat part.toNat).timesNat 100) :=
    nearestEven_timesNat hp.notNegative (hhigh.trans (zpow_le_largest (by decide) (by decide)))
  have hquotient : ((ofNat part.toNat).timesNat 100).toRat / (ofNat whole.toNat).toRat ≤
      2 ^ (71 : ℤ) :=
    (div_le_self hproduct.toRat_nonneg hlow).trans
      (hproduct.le_zpow (by decide) (by decide) hhigh)
  rw [percent, if_neg hwhole]
  refine .intro hp hw hproduct ?_
  exact nearestEven_div hproduct.notNegative hw.notNegative (lt_of_lt_of_le one_pos hlow)
    (hquotient.trans (zpow_le_largest (by decide) (by decide)))

/-! ## Rates

The time is turned into seconds first, which rounds it; then the amount is divided by it. -/

section Rates

variable {amount elapsed : UInt64}

/-- A thousandth of a time, which is the same in seconds, is neither too small nor too large to be
divided by. -/
theorem seconds_bounds {ms s : Binary64} (helapsed : elapsed ≠ 0) (hms : NearestEven elapsed.toNat ms)
    (hs : NearestEven (ms.toRat / 1000) s) :
    2 ^ (-10 : ℤ) ≤ s.toRat ∧ s.toRat ≤ 2 ^ (64 : ℤ) := by
  have hlow := hms.one_le_of_word helapsed
  have hhigh := hms.le_of_word
  refine ⟨hs.zpow_le (by decide) (by decide) ?_, hs.le_zpow (by decide) (by decide) ?_⟩
  · norm_num
    linarith
  · exact (div_le_self hms.toRat_nonneg (by norm_num)).trans hhigh

/-- **The program computes rates**, likewise. -/
theorem isPerSecond_perSecond (helapsed : elapsed ≠ 0) :
    IsPerSecond amount.toNat elapsed.toNat (perSecond amount elapsed) := by
  have ha := nearestEven_word amount
  have hms := nearestEven_word elapsed
  have hs : NearestEven ((ofNat elapsed.toNat).toRat / 1000) ((ofNat elapsed.toNat).divNat 1000) := by
    have hhigh := (div_le_self hms.toRat_nonneg (by norm_num : (1 : ℚ) ≤ 1000)).trans hms.le_of_word
    exact nearestEven_divNat hms.notNegative (by decide)
      (hhigh.trans (zpow_le_largest (by decide) (by decide)))
  have hlow := (seconds_bounds helapsed hms hs).1
  have hpos : 0 < ((ofNat elapsed.toNat).divNat 1000).toRat :=
    lt_of_lt_of_le (zpow_pos two_pos _) hlow
  have hquotient : (ofNat amount.toNat).toRat / ((ofNat elapsed.toNat).divNat 1000).toRat ≤
      2 ^ (74 : ℤ) := by
    rw [div_le_iff₀ hpos]
    calc (ofNat amount.toNat).toRat ≤ 2 ^ (64 : ℤ) := ha.le_of_word
      _ = 2 ^ (74 : ℤ) * 2 ^ (-10 : ℤ) := by norm_num
      _ ≤ _ := mul_le_mul_of_nonneg_left hlow (zpow_nonneg two_pos.le _)
  exact .intro ha hms hs (nearestEven_div ha.notNegative hs.notNegative hpos
    (hquotient.trans (zpow_le_largest (by decide) (by decide))))

/-- **A rate is zero only if there was nothing**, however long the time: the two roundings of a positive
quotient do not lose it. -/
theorem IsPerSecond.eq_zero_iff {x : Binary64} (helapsed : elapsed ≠ 0)
    (hx : IsPerSecond amount.toNat elapsed.toNat x) : x = zero ↔ amount = 0 := by
  obtain ⟨ha, hms, hs, hx⟩ := hx
  obtain ⟨hlow, hhigh⟩ := seconds_bounds helapsed hms hs
  have hpos := lt_of_lt_of_le (zpow_pos two_pos _) hlow
  constructor
  · -- an amount that is not zero keeps the quotient away from zero
    rintro rfl
    by_contra hne
    have hquotient : (2 : ℚ) ^ (-64 : ℤ) ≤ zero.toRat := by
      refine hx.zpow_le (by decide) (by decide) ?_
      rw [le_div_iff₀ hpos]
      calc 2 ^ (-64 : ℤ) * _ ≤ (2 : ℚ) ^ (-64 : ℤ) * 2 ^ (64 : ℤ) :=
            mul_le_mul_of_nonneg_left hhigh (zpow_nonneg two_pos.le _)
        _ = 1 := by norm_num
        _ ≤ _ := ha.one_le_of_word hne
    rw [toRat_zero] at hquotient
    exact absurd (zpow_pos two_pos _) (not_lt.mpr hquotient)
  · -- nothing in any time is nothing
    rintro rfl
    rw [UInt64.toNat_zero, Nat.cast_zero] at ha
    rw [ha.eq_zero, toRat_zero, zero_div] at hx
    exact hx.eq_zero

end Rates

end HostMeter
