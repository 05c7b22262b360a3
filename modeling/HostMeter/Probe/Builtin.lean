import HostMeter.Probe.Battery
import HostMeter.Probe.Cpu
import HostMeter.Probe.Network
import HostMeter.Probe.Ram
import HostMeter.Probe.Storage
/-!
# Probes — the built-in ones

The library has five kinds of probes. A built-in probe is one of them, and works as its kind does.
-/

namespace HostMeter

/-- A probe of one of the built-in kinds. -/
inductive Builtin where
  | cpu (probe : CpuProbe)
  | ram (probe : RamProbe)
  | battery (probe : BatteryProbe)
  | network (probe : NetworkProbe)
  | storage (probe : StorageProbe)
  deriving DecidableEq, Repr

namespace Builtin

inductive Kind where
  | cpu
  | ram
  | battery
  | network
  | storage
  deriving DecidableEq, Repr

namespace Kind

/-- The kinds in the order in which they take part in a round. -/
def all : List Kind := [.cpu, .ram, .battery, .network, .storage]

theorem mem_all (k : Kind) : k ∈ all := by
  cases k <;> decide

def name : Kind → String
  | .cpu => CpuProbe.name
  | .ram => RamProbe.name
  | .battery => BatteryProbe.name
  | .network => NetworkProbe.name
  | .storage => StorageProbe.name

def ofName? (name : String) : Option Kind := all.find? fun k => k.name == name

def create (k : Kind) (c : Context) : Except Fault Builtin :=
  match k with
  | .cpu => Builtin.cpu <$> CpuProbe.create c
  | .ram => Builtin.ram <$> RamProbe.create c
  | .battery => Builtin.battery <$> BatteryProbe.create c
  | .network => Builtin.network <$> NetworkProbe.create c
  | .storage => Builtin.storage <$> StorageProbe.create c

end Kind

def sampled : Builtin → Bool
  | .cpu p => Sampler.sampled p
  | .ram p => Sampler.sampled p
  | .battery p => Sampler.sampled p
  | .network p => Sampler.sampled p
  | .storage p => Sampler.sampled p

def refresh (p : Builtin) (now : UInt64) (host : HostView) : Except Fault Builtin :=
  match p with
  | .cpu p => Builtin.cpu <$> Sampler.refresh p now host
  | .ram p => Builtin.ram <$> Sampler.refresh p now host
  | .battery p => Builtin.battery <$> Sampler.refresh p now host
  | .network p => Builtin.network <$> Sampler.refresh p now host
  | .storage p => Builtin.storage <$> Sampler.refresh p now host

def metrics : Builtin → List Metric
  | .cpu p => Sampler.metrics p
  | .ram p => Sampler.metrics p
  | .battery p => Sampler.metrics p
  | .network p => Sampler.metrics p
  | .storage p => Sampler.metrics p

instance : Sampler Builtin := ⟨sampled, refresh, metrics⟩

instance : Probe Builtin := ⟨Sampler.poll⟩

end Builtin

end HostMeter
