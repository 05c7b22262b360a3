import HostMeter.Bank
import HostMeter.Host.Memory
/-!
# Host — hosts in memory that are shared

A copy of a host in memory shares its store, so a host can be handed on and still be changed from
outside. Each step takes a copy or changes the store behind one of the copies.
-/

namespace HostMeter

/-- Hosts in memory, some of which are copies of others. -/
abbrev HostBank := Bank MemoryHost

namespace HostBank

/-- A single host in memory, with one handle. -/
def single (h : MemoryHost) : HostBank := Bank.empty.add h

inductive Step where
  | copy (handle : Nat)
  | change (handle : Nat) (change : MemoryHost.Change)
  deriving DecidableEq, Repr

def step (b : HostBank) : Step → HostBank
  | .copy handle => b.copy handle
  | .change handle c => b.modify handle fun h => h.apply c

/-- The bank after steps, the first of which comes first. -/
def run (b : HostBank) (steps : List Step) : HostBank := steps.foldl step b

end HostBank

end HostMeter
