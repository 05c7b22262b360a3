import HostMeter.Bank
/-!
# Clock — clocks that are set by hand

A clock shows milliseconds as a 64-bit word and is set or moved on by hand; moving it past the
largest word starts again at zero. A copy of a clock shares its time with it.
-/

namespace HostMeter

/-- Clocks, some of which share their time. -/
abbrev ClockBank := Bank UInt64

def ClockBank.empty : ClockBank := Bank.empty

/-- Moves a clock on, and all that share its time. -/
def Bank.advance (b : ClockBank) (clock : Nat) (time : UInt64) : ClockBank :=
  b.modify clock (· + time)

end HostMeter
