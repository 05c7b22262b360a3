/-!
# Words — counters that stop at their largest value

Kernel counters are 64-bit words. Sums and products of counters stop at the largest word instead of
wrapping round, and a difference exists only when the counter did not go backwards.

Each operation is stated through the numbers the words stand for (`toNat_satAdd`, `toNat_satMul`,
`toNat_satSub`, `diff?_eq_some_iff`).
-/

namespace HostMeter.Word

def top : Nat := UInt64.size - 1

/-- The word nearest to a number: the number itself, or the largest word. -/
def cap (n : Nat) : UInt64 := UInt64.ofNat (min n top)

@[simp] theorem toNat_cap (n : Nat) : (cap n).toNat = min n top := by
  have h : min n top < UInt64.size := Nat.lt_of_le_of_lt (Nat.min_le_right n top) (by decide)
  rw [cap, UInt64.toNat_ofNat', Nat.mod_eq_of_lt h]

/-- A sum that stops at the largest word. -/
def satAdd (a b : UInt64) : UInt64 := cap (a.toNat + b.toNat)

@[simp] theorem toNat_satAdd (a b : UInt64) :
    (satAdd a b).toNat = min (a.toNat + b.toNat) top := toNat_cap _

/-- A product that stops at the largest word. -/
def satMul (a b : UInt64) : UInt64 := cap (a.toNat * b.toNat)

@[simp] theorem toNat_satMul (a b : UInt64) :
    (satMul a b).toNat = min (a.toNat * b.toNat) top := toNat_cap _

/-- A difference that stops at zero. -/
def satSub (a b : UInt64) : UInt64 := if b ≤ a then a - b else 0

@[simp] theorem toNat_satSub (a b : UInt64) : (satSub a b).toNat = a.toNat - b.toNat := by
  unfold satSub
  split
  · next h => exact UInt64.toNat_sub_of_le _ _ h
  · next h =>
    have : a.toNat < b.toNat := by simpa [UInt64.le_iff_toNat_le] using h
    simp; omega

/-- How far a counter moved on, unless it went backwards. -/
def diff? (later earlier : UInt64) : Option UInt64 :=
  if earlier ≤ later then some (later - earlier) else none

theorem diff?_eq_some_iff {later earlier d : UInt64} :
    diff? later earlier = some d ↔ earlier.toNat + d.toNat = later.toNat := by
  unfold diff?
  split
  · next h =>
    have hs := UInt64.toNat_sub_of_le _ _ h
    have hle := UInt64.le_iff_toNat_le.1 h
    simp only [Option.some.injEq, ← UInt64.toNat_inj, hs]
    omega
  · next h =>
    have : later.toNat < earlier.toNat := by simpa [UInt64.le_iff_toNat_le] using h
    simp; omega

end HostMeter.Word
