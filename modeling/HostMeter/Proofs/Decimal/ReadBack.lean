import HostMeter.Decimal.Shortest
import HostMeter.Proofs.Binary64.Nearest
/-!
# Read back — the shortest decimal of a double

The shortest decimal of a double lies among the reals that round to it, so reading it gives the double
again. There is always one with seventeen digits: the multiples of a power of ten that is `10 ^ 16`
times smaller than the double are closer to each other than the ends of its interval.

* `Scientific.nearest`: the double nearest to a decimal; zeros at the end do not matter.
* `Shortest.near_of_has`: what is in the interval of a double rounds to it.
* `Shortest.exists_nearest?`: a grid that is fine enough has a point in the interval.
* `Shortest.nearest_decimal`: the shortest decimal reads back.
-/

namespace HostMeter

namespace Decimal

/-! ## Decimals

A decimal may have zeros at its end, which the writer cuts off; the number stays the same. -/

/-- The double nearest to a decimal. -/
def Scientific.nearest (d : Scientific) : Binary64 :=
  Binary64.ofQuotient (d.coefficient * 10 ^ d.exponent.toNat * Binary64.unitsPerOne)
    (10 ^ (-d.exponent).toNat)

/-- The same decimal with zeros at the end of its coefficient. -/
def Scientific.addZeros (d : Scientific) (k : Nat) : Scientific :=
  ⟨d.coefficient * 10 ^ k, d.exponent - k⟩

/-- Zeros at the end of a coefficient do not change the number. -/
theorem Scientific.nearest_addZeros (d : Scientific) (k : Nat) :
    (d.addZeros k).nearest = d.nearest := by
  have hten : 0 < 10 := by decide
  refine Binary64.ofQuotient_congr (Nat.pow_pos hten) (Nat.pow_pos hten) ?_
  have hpow : 10 ^ k * 10 ^ (d.exponent - k).toNat * 10 ^ (-d.exponent).toNat =
      10 ^ d.exponent.toNat * 10 ^ (-(d.exponent - k)).toNat := by
    rw [← Nat.pow_add, ← Nat.pow_add, ← Nat.pow_add]
    congr 1
    omega
  calc d.coefficient * 10 ^ k * 10 ^ (d.exponent - k).toNat * Binary64.unitsPerOne *
        10 ^ (-d.exponent).toNat
      = d.coefficient * Binary64.unitsPerOne *
        (10 ^ k * 10 ^ (d.exponent - k).toNat * 10 ^ (-d.exponent).toNat) := by ring
    _ = d.coefficient * Binary64.unitsPerOne *
        (10 ^ d.exponent.toNat * 10 ^ (-(d.exponent - k)).toNat) := by rw [hpow]
    _ = d.coefficient * 10 ^ d.exponent.toNat * Binary64.unitsPerOne *
        10 ^ (-(d.exponent - k)).toNat := by ring

/-- The zeros that are cut off can be put back. -/
theorem Scientific.exists_addZeros_trimZeros (fuel : Nat) (d : Scientific) :
    ∃ k, d = (d.trimZeros fuel).addZeros k := by
  induction fuel generalizing d with
  | zero => exact ⟨0, by simp [trimZeros, addZeros]⟩
  | succ fuel ih =>
    unfold trimZeros
    split
    · next hzero =>
      -- a last digit of zero is cut off, and more may follow
      obtain ⟨k, hk⟩ := ih ⟨d.coefficient / 10, d.exponent + 1⟩
      have hcoefficient := congrArg coefficient hk
      have hexponent := congrArg exponent hk
      refine ⟨k + 1, ?_⟩
      generalize trimZeros fuel _ = t at *
      cases d
      simp only [addZeros, mk.injEq, Nat.pow_succ, ← Nat.mul_assoc] at *
      constructor
      · omega
      · omega
    · -- there is nothing to cut off
      exact ⟨0, by simp [addZeros]⟩

namespace Shortest

/-! ## Grids

The decimals with a given exponent are a grid. Its distances are compared with the distances of doubles, all
in whole numbers. -/

/-- The distance of two points of a grid, as a quotient of whole numbers. -/
theorem gridStep_eq (e : Int) : gridStep e = (quartersPerOne * 10 ^ e.toNat, 10 ^ (-e).toNat) := by
  unfold gridStep
  split
  · next h => rw [show (-e).toNat = 0 by omega]; rfl
  · next h => rw [show e.toNat = 0 by omega, Nat.pow_zero, Nat.mul_one]; rfl

/-- No grid has a distance of zero. -/
theorem gridStep_pos (e : Int) : 0 < (gridStep e).1 ∧ 0 < (gridStep e).2 := by
  have hquarters : 0 < quartersPerOne := Nat.mul_pos (by decide) Binary64.unitsPerOne_pos
  rw [gridStep_eq]
  exact ⟨Nat.mul_pos hquarters (Nat.pow_pos (by decide)), Nat.pow_pos (by decide)⟩

/-- Sixteen digits further, a grid is `10 ^ 16` times as fine. -/
theorem gridStep_sub (e : Int) :
    (gridStep e).1 * (gridStep (e - 16)).2 = 10 ^ 16 * (gridStep (e - 16)).1 * (gridStep e).2 := by
  rw [gridStep_eq, gridStep_eq]
  have hpow : 10 ^ e.toNat * 10 ^ (-(e - 16)).toNat =
      10 ^ 16 * 10 ^ (e - 16).toNat * 10 ^ (-e).toNat := by
    rw [← Nat.pow_add, ← Nat.pow_add, ← Nat.pow_add]
    congr 1
    omega
  calc quartersPerOne * 10 ^ e.toNat * 10 ^ (-(e - 16)).toNat
      = quartersPerOne * (10 ^ e.toNat * 10 ^ (-(e - 16)).toNat) := Nat.mul_assoc _ _ _
    _ = quartersPerOne * (10 ^ 16 * 10 ^ (e - 16).toNat * 10 ^ (-e).toNat) := by rw [hpow]
    _ = 10 ^ 16 * (quartersPerOne * 10 ^ (e - 16).toNat) * 10 ^ (-e).toNat := by ring

theorem lt_pow_length_digits (n : Nat) : n < 10 ^ (Text.digits n).length :=
  (Nat.length_toDigits_le_iff (by decide) Nat.length_toDigits_pos).mp (Nat.le_refl _)

/-- A number that is not zero reaches the power of ten of its length. -/
theorem pow_length_digits_le {n : Nat} (h : 0 < n) : 10 ^ ((Text.digits n).length - 1) ≤ n := by
  rcases Nat.eq_zero_or_pos ((Text.digits n).length - 1) with hone | hmore
  · rw [hone]
    exact h
  · refine Nat.le_of_not_lt fun hlt => ?_
    have hshort := (Nat.length_toDigits_le_iff (b := 10) (by decide) hmore).mpr hlt
    have hpos : 0 < (Text.digits n).length := Nat.length_toDigits_pos
    exact absurd hshort (by unfold Text.digits at *; omega)

/-- The leading digit of a number is not zero: its grid is no coarser than the number. -/
theorem gridStep_leadingExponent_le {value : Nat} (h : 0 < value) :
    (gridStep (leadingExponent value)).1 ≤ value * (gridStep (leadingExponent value)).2 := by
  unfold leadingExponent
  dsimp only
  split
  · next hle => exact hle
  · -- one power less is reached by the lengths of the numerals alone
    rw [gridStep_eq]
    have hlow := pow_length_digits_le h
    have hhigh := lt_pow_length_digits quartersPerOne
    have hpos : 0 < (Text.digits value).length := Nat.length_toDigits_pos
    generalize (Text.digits value).length = lv at *
    generalize (Text.digits quartersPerOne).length = lq at *
    show quartersPerOne * 10 ^ (_ : Int).toNat ≤ value * 10 ^ (_ : Int).toNat
    have hsum : lq + ((lv : Int) - lq - 1).toNat = lv - 1 + (-((lv : Int) - lq - 1)).toNat := by omega
    calc quartersPerOne * 10 ^ ((lv : Int) - lq - 1).toNat
        ≤ 10 ^ lq * 10 ^ ((lv : Int) - lq - 1).toNat := Nat.mul_le_mul_right _ (Nat.le_of_lt hhigh)
      _ = 10 ^ (lv - 1) * 10 ^ (-((lv : Int) - lq - 1)).toNat := by
        rw [← Nat.pow_add, hsum, Nat.pow_add]
      _ ≤ value * 10 ^ (-((lv : Int) - lq - 1)).toNat := Nat.mul_le_mul_right _ hlow

/-! ## Intervals

The interval of a double holds the numbers that are read back as it. It is taken in quarters of a unit, so
that its ends are whole. -/

section Interval

variable {x : Binary64}

/-- The value of a double in quarters of a unit. -/
theorem value_mul (x : Binary64) (den : Nat) :
    (interval x).value * den = 4 * (x.mantissa * (den * 2 ^ x.scale)) := by
  show 4 * x.units * den = _
  rw [Binary64.units_eq]
  ring

/-- The upper end of its interval is half a step of its scale away. -/
theorem upper_mul (x : Binary64) (den : Nat) :
    (interval x).upper * den = 4 * (x.mantissa * (den * 2 ^ x.scale)) + 2 * (den * 2 ^ x.scale) := by
  show (4 * x.units + 2 * (1 <<< x.scale)) * den = _
  rw [Binary64.units_eq, Nat.one_shiftLeft]
  ring

/-- The lower end is so too, but half as far below a power of two. -/
theorem lower_mul (x : Binary64) (den : Nat) :
    (interval x).lower * den = 4 * (x.mantissa * (den * 2 ^ x.scale)) -
      (if x.mantissa = Binary64.fractionCount ∧ 0 < x.scale then den * 2 ^ x.scale
        else 2 * (den * 2 ^ x.scale)) := by
  have hvalue : 4 * x.units * den = 4 * (x.mantissa * (den * 2 ^ x.scale)) := value_mul x den
  have hstep : (1 <<< x.scale) * den = den * 2 ^ x.scale := by
    rw [Nat.one_shiftLeft, Nat.mul_comm]
  simp only [interval, Nat.sub_mul, hvalue, Bool.and_eq_true, beq_iff_eq, decide_eq_true_eq]
  split
  · rw [hstep]
  · rw [Nat.mul_assoc, hstep]

/-- Whether a point of a grid is in the interval; the ends belong to it for an even mantissa. -/
theorem has_iff {grid : Nat × Nat} {n : Nat} :
    (interval x).has grid n = true ↔
      if x.mantissa % 2 = 0 then
        (interval x).lower * grid.2 ≤ n * grid.1 ∧ n * grid.1 ≤ (interval x).upper * grid.2
      else (interval x).lower * grid.2 < n * grid.1 ∧ n * grid.1 < (interval x).upper * grid.2 := by
  have hclosed : (interval x).closed = true ↔ x.mantissa % 2 = 0 := beq_iff_eq
  unfold Interval.has
  simp only [hclosed]
  split <;> simp

/-- What is in the interval of a double is near to it. -/
theorem near_of_has (hx : 0 < x.mantissa) {n num : Nat} {grid : Nat × Nat} (hgrid : 0 < grid.2)
    (h : (interval x).has grid n = true) (hpoint : n * grid.1 = 4 * num) :
    Binary64.Near x.scale x.mantissa num grid.2 := by
  have hstep : 0 < grid.2 * 2 ^ x.scale := Nat.mul_pos hgrid (Nat.two_pow_pos _)
  have hone := Nat.le_mul_of_pos_left (grid.2 * 2 ^ x.scale) hx
  rw [has_iff, lower_mul, upper_mul, hpoint] at h
  generalize hX : x.mantissa * (grid.2 * 2 ^ x.scale) = X at *
  constructor
  · -- below the upper end
    rw [hX]
    split at h <;> split at h <;> omega
  · rw [hX]
    split at h <;> split at h <;> omega
  · -- above the lower end, which may be the nearer one
    rw [hX]
    intro htie
    split at h
    · assumption
    · split at h <;> omega
  · intro hF hs
    have hnarrow : x.mantissa = Binary64.fractionCount ∧ 0 < x.scale := ⟨hF, Nat.pos_of_ne_zero hs⟩
    rw [if_pos hnarrow] at h
    rw [hX]
    split at h <;> omega

/-- A point between the ends is in the interval. -/
theorem has_of_lt {grid : Nat × Nat} {n : Nat} (hlower : (interval x).lower * grid.2 < n * grid.1)
    (hupper : n * grid.1 < (interval x).upper * grid.2) : (interval x).has grid n = true := by
  rw [has_iff]
  split
  · exact ⟨Nat.le_of_lt hlower, Nat.le_of_lt hupper⟩
  · exact ⟨hlower, hupper⟩

/-- On a grid that is fine enough, one of the two neighbours of a double is in its interval. -/
theorem has_neighbour (x : Binary64) {grid : Nat × Nat} (hgrid : 0 < grid.1)
    (hfine : 10 ^ 16 * grid.1 ≤ (interval x).value * grid.2) :
    (interval x).has grid ((interval x).value * grid.2 / grid.1) = true ∨
      (interval x).has grid ((interval x).value * grid.2 / grid.1 + 1) = true := by
  have hdiv := Nat.div_add_mod ((interval x).value * grid.2) grid.1
  have hmod := Nat.mod_lt ((interval x).value * grid.2) hgrid
  have hmantissa := Nat.mul_le_mul_right (grid.2 * 2 ^ x.scale) (Nat.le_sub_one_of_lt x.mantissa_lt)
  -- half a step of the grid is less than the distance to the nearer end
  have hlower : 2 * ((interval x).lower * grid.2) + grid.1 < 2 * ((interval x).value * grid.2) := by
    rw [lower_mul]
    rw [value_mul] at *
    split
    · next hnarrow =>
      -- just above a power of two, where the lower end is nearer
      have hpower : x.mantissa * (grid.2 * 2 ^ x.scale) =
          Binary64.fractionCount * (grid.2 * 2 ^ x.scale) := by rw [hnarrow.1]
      simp only [Binary64.fractionCount] at *
      omega
    · simp only [Binary64.fractionCount] at *
      omega
  have hupper : 2 * ((interval x).value * grid.2) + grid.1 < 2 * ((interval x).upper * grid.2) := by
    rw [upper_mul]
    rw [value_mul] at *
    simp only [Binary64.fractionCount] at *
    omega
  rw [Nat.mul_comm] at hdiv
  generalize (interval x).value * grid.2 / grid.1 = below at *
  rcases Nat.lt_or_ge grid.1 (2 * ((interval x).value * grid.2 % grid.1)) with hmore | hless
  · refine Or.inr (has_of_lt ?_ ?_)
    all_goals rw [Nat.succ_mul]; omega
  · refine Or.inl (has_of_lt ?_ ?_)
    all_goals omega

end Interval

/-- What is chosen on a grid is a point of it in the interval. -/
theorem has_of_nearest? {i : Interval} {e : Int} {d : Scientific} (h : nearest? i e = some d) :
    d.exponent = e ∧ i.has (gridStep e) d.coefficient = true := by
  unfold nearest? at h
  dsimp only at h
  split at h
  · next hbelow habove =>
    -- both neighbours are in the interval, and the nearer one is chosen
    cases h
    refine ⟨rfl, ?_⟩
    show i.has _ (if _ then _ else _) = true
    split
    · exact hbelow
    · exact habove
  · next hbelow _ =>
    -- only the one below
    cases h
    exact ⟨rfl, hbelow⟩
  · next _ habove =>
    -- only the one above
    cases h
    exact ⟨rfl, habove⟩
  · cases h

/-- If one of the two neighbours of a double on a grid is in the interval, one is chosen. -/
theorem exists_of_has {i : Interval} {e : Int}
    (h : i.has (gridStep e) (i.value * (gridStep e).2 / (gridStep e).1) = true ∨
      i.has (gridStep e) (i.value * (gridStep e).2 / (gridStep e).1 + 1) = true) :
    ∃ d, nearest? i e = some d := by
  unfold nearest?
  dsimp only
  split
  · exact ⟨_, rfl⟩
  · exact ⟨_, rfl⟩
  · exact ⟨_, rfl⟩
  · next hbelow habove =>
    rw [hbelow, habove] at h
    simp at h

/-- **Seventeen digits are enough.** -/
theorem exists_nearest? {x : Binary64} (hx : 0 < x.mantissa) :
    ∃ d, nearest? (interval x) (leadingExponent (interval x).value - 16) = some d := by
  have hvalue : 0 < (interval x).value := by
    show 0 < 4 * x.units
    rw [Binary64.units_eq]
    exact Nat.mul_pos (by decide) (Nat.mul_pos hx (Nat.two_pow_pos _))
  have hleading := gridStep_leadingExponent_le hvalue
  generalize leadingExponent (interval x).value = k at *
  refine exists_of_has (has_neighbour x (gridStep_pos _).1 ?_)
  -- the step of the grid is compared through the grid of the leading digit
  refine Nat.le_of_mul_le_mul_right ?_ (gridStep_pos k).2
  calc 10 ^ 16 * (gridStep (k - 16)).1 * (gridStep k).2
      = (gridStep k).1 * (gridStep (k - 16)).2 := (gridStep_sub k).symm
    _ ≤ (interval x).value * (gridStep k).2 * (gridStep (k - 16)).2 := Nat.mul_le_mul_right _ hleading
    _ = (interval x).value * (gridStep (k - 16)).2 * (gridStep k).2 := Nat.mul_right_comm _ _ _

/-- The shortest decimal is a point of a grid in the interval, without the zeros at its end. -/
theorem exists_point_decimal {x : Binary64} (hx : 0 < x.mantissa) :
    ∃ d : Scientific, (interval x).has (gridStep d.exponent) d.coefficient = true ∧
      ∃ k, d = (decimal x).addZeros k := by
  obtain ⟨d, hd⟩ := exists_nearest? hx
  have hany : ((List.range maxDigits).findSome?
      fun (n : Nat) => nearest? (interval x) (leadingExponent (interval x).value - n)).isSome := by
    rw [List.isSome_findSome?, List.any_eq_true]
    exact ⟨16, by decide, Option.isSome_iff_exists.mpr ⟨d, hd⟩⟩
  obtain ⟨found, hfound⟩ := Option.isSome_iff_exists.mp hany
  obtain ⟨n, _, hn⟩ := List.exists_of_findSome?_eq_some hfound
  obtain ⟨hexponent, hhas⟩ := has_of_nearest? hn
  refine ⟨found, by rw [hexponent]; exact hhas, ?_⟩
  unfold decimal
  dsimp only
  rw [hfound]
  exact Scientific.exists_addZeros_trimZeros maxDigits found

/-- Zero is in the interval of no double but zero. -/
theorem coefficient_pos_of_has {x : Binary64} (hx : 0 < x.mantissa) {grid : Nat × Nat}
    (hgrid : 0 < grid.2) {n : Nat} (h : (interval x).has grid n = true) : 0 < n := by
  have hstep : 0 < grid.2 * 2 ^ x.scale := Nat.mul_pos hgrid (Nat.two_pow_pos _)
  have hone := Nat.le_mul_of_pos_left (grid.2 * 2 ^ x.scale) hx
  refine Nat.pos_of_ne_zero fun hzero => ?_
  rw [has_iff, lower_mul, hzero, Nat.zero_mul] at h
  split at h <;> split at h <;> omega

/-- **The shortest decimal of a double reads back.** -/
theorem nearest_decimal {x : Binary64} (hfinite : x.isFinite = true) (hx : 0 < x.mantissa) :
    0 < (decimal x).coefficient ∧ (decimal x).nearest = .ofGrid x.scale x.mantissa := by
  obtain ⟨d, hhas, k, hd⟩ := exists_point_decimal hx
  have hpos := coefficient_pos_of_has hx (gridStep_pos _).2 hhas
  have hpoint : d.coefficient * (gridStep d.exponent).1 =
      4 * (d.coefficient * 10 ^ d.exponent.toNat * Binary64.unitsPerOne) := by
    rw [gridStep_eq]
    show d.coefficient * (4 * Binary64.unitsPerOne * 10 ^ d.exponent.toNat) = _
    ring
  have hscale : x.scale < Binary64.topExponent - 1 := by
    have hfield : x.exponentField ≠ Binary64.topExponent := bne_iff_ne.mp hfinite
    have hcount : x.exponentField < Binary64.exponentCount := Nat.mod_lt _ (by decide)
    simp only [Binary64.scale, Binary64.topExponent, Binary64.exponentCount] at *
    omega
  -- what is near to the double is rounded to it
  have hround := Binary64.ofQuotient_eq_of_near (gridStep_pos _).2 x.scale_eq_zero_or x.mantissa_lt
    hscale (near_of_has hx (gridStep_pos _).2 hhas hpoint)
  constructor
  · rw [hd] at hpos
    exact Nat.pos_of_mul_pos_right hpos
  · rw [← Scientific.nearest_addZeros _ k, ← hd, ← hround, gridStep_eq]
    rfl

end Shortest

end Decimal

end HostMeter
