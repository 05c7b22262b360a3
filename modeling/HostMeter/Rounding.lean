/-!
# Rounding — the nearest whole number

A quotient is rounded to the nearest whole number, and one that lies half-way between two to the even
one. This single rule is behind the rounding of binary fractions and of decimal places.

* `roundDiv_le`, `le_roundDiv`: the result is within one half of the quotient.
* `roundDiv_mono`: larger numerators do not round to smaller numbers.
* `roundDiv_even`: a quotient half-way between two numbers goes to the even one.
-/

namespace HostMeter

/-- The whole number nearest to `num / den`, the even one of two that are equally near. -/
def roundDiv (num den : Nat) : Nat :=
  let q := num / den
  let r := num % den
  if 2 * r < den then q
  else if den < 2 * r then q + 1
  else q + q % 2

/-- The result exceeds the quotient by at most one half. -/
theorem roundDiv_le {num den : Nat} (h : 0 < den) : 2 * (roundDiv num den * den) ≤ 2 * num + den := by
  have hd := Nat.div_add_mod num den
  have hm := Nat.mod_lt num h
  have h2 : num / den % 2 < 2 := Nat.mod_lt _ (by decide)
  rw [Nat.mul_comm den] at hd
  simp only [roundDiv]
  split
  · omega
  · split
    · rw [Nat.add_mul]; omega
    · have : num / den % 2 * den ≤ 1 * den := Nat.mul_le_mul_right _ (by omega)
      rw [Nat.add_mul]; omega

/-- The result falls short of the quotient by at most one half. -/
theorem le_roundDiv {num den : Nat} (h : 0 < den) : 2 * num ≤ 2 * (roundDiv num den * den) + den := by
  have hd := Nat.div_add_mod num den
  have hm := Nat.mod_lt num h
  rw [Nat.mul_comm den] at hd
  simp only [roundDiv]
  split
  · omega
  · split
    · rw [Nat.add_mul]; omega
    · rw [Nat.add_mul]; omega

/-- A quotient half-way between two numbers goes to the even one. -/
theorem roundDiv_even {q den : Nat} (h : 0 < den) :
    roundDiv (2 * q * den + den) (2 * den) % 2 = 0 := by
  -- the quotient is `q` and one half, so the remainder is exactly `den`
  have hq : (2 * q * den + den) / (2 * den) = q := by
    rw [show 2 * q * den + den = den + 2 * den * q by rw [Nat.mul_right_comm]; omega,
      Nat.add_mul_div_left _ _ (by omega), Nat.div_eq_of_lt (by omega)]
    omega
  have hr : (2 * q * den + den) % (2 * den) = den := by
    rw [show 2 * q * den + den = den + 2 * den * q by rw [Nat.mul_right_comm]; omega,
      Nat.add_mul_mod_self_left, Nat.mod_eq_of_lt (by omega)]
  simp only [roundDiv, hq, hr, Nat.lt_irrefl, if_false]
  omega

/-- Larger numerators do not round to smaller numbers. -/
theorem roundDiv_mono {a b den : Nat} (hab : a ≤ b) :
    roundDiv a den ≤ roundDiv b den := by
  have hq : a / den ≤ b / den := Nat.div_le_div_right hab
  have ha := Nat.div_add_mod a den
  have hb := Nat.div_add_mod b den
  rcases Nat.lt_or_ge (a / den) (b / den) with hlt | hge
  · -- whole parts that differ leave room for one rounding up
    have h1 : roundDiv a den ≤ a / den + 1 := by
      simp only [roundDiv]; split
      · omega
      · split <;> omega
    have h2 : b / den ≤ roundDiv b den := by
      simp only [roundDiv]; split
      · omega
      · split <;> omega
    omega
  · -- with equal whole parts the remainders decide
    have he : a / den = b / den := by omega
    have hr : a % den ≤ b % den := by rw [he] at ha; omega
    simp only [roundDiv, he]
    split <;> split <;> (try split) <;> (try split) <;> omega

end HostMeter
