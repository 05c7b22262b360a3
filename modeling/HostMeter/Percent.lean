import HostMeter.Binary64
/-!
# Percent — shares and rates of counters

The two quotients of counters that the probes report, computed as doubles: every conversion, product
and quotient is rounded by itself.

* `percent part whole`: `part` times one hundred, over `whole`.
* `perSecond amount elapsed`: `amount` over the seconds in `elapsed` milliseconds.
-/

namespace HostMeter

def hundred : Binary64 := ⟨0x4059000000000000⟩

theorem hundred_eq_ofNat : hundred = Binary64.ofNat 100 := by decide +kernel

/-- The share of a part in a whole in percent; nothing is zero percent of nothing. -/
def percent (part whole : UInt64) : Binary64 :=
  if whole = 0 then .zero
  else ((Binary64.ofNat part.toNat).timesNat 100).div (Binary64.ofNat whole.toNat)

/-- An amount for each second of an elapsed time in milliseconds. -/
def perSecond (amount elapsed : UInt64) : Binary64 :=
  (Binary64.ofNat amount.toNat).div ((Binary64.ofNat elapsed.toNat).divNat 1000)

end HostMeter
