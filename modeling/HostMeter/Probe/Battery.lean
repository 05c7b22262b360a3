import HostMeter.Counters.Attribute
import HostMeter.Binary64
import HostMeter.Probe.Basic
/-!
# Probes — the battery

Reports the charge and the state of one battery. The battery is chosen when the probe starts: of the
power supplies whose name starts with `BAT` and that have a capacity, the first in path order. Its
capacity must be readable; a state that is absent or empty is unknown.
-/

namespace HostMeter

/-- A battery at one moment. -/
structure BatterySample where
  charge : UInt32
  status : String
  deriving DecidableEq, Repr

namespace BatterySample

/-- The greatest charge that is reported. -/
def fullCharge : UInt32 := 100

/-- The state of a battery that does not tell it. -/
def unknownStatus : String := "unknown"

/-- The state in which a battery is being charged. -/
def chargingStatus : String := "Charging"

def isCharging (s : BatterySample) : Bool := equalsIgnoringCase s.status chargingStatus

/-- The state that the text of an attribute tells. -/
def statusOf (text : Option String) : String :=
  match text.map fun t => Text.trim t.toList with
  | none => unknownStatus
  | some cs => if cs.isEmpty then unknownStatus else String.ofList cs

end BatterySample

structure BatteryProbe where
  capacitySource : Path
  statusSource : Path
  last : Option BatterySample
  deriving DecidableEq, Repr

namespace BatteryProbe

def name : String := "battery"

/-- What the names of batteries start with. -/
def nameStart : List Char := ['B', 'A', 'T']

/-- Is this the directory of a battery with a capacity? -/
def isBattery (host : HostView) (entry : Path) : Bool :=
  (match entry.fileName? with
   | some cs => nameStart.isPrefixOf cs
   | none => false) && host.has (entry.join "capacity")

/-- The battery to follow: the first one in path order. -/
def choose? (host : HostView) (directory : Path) : Option Path :=
  match host.entries directory with
  | .ok entries => (entries.mergeSort Path.le).find? (isBattery host)
  | .error _ => none

def create (c : Context) : Except Fault BatteryProbe :=
  let directory := c.sysPath "class/power_supply"
  match choose? c.host directory with
  | some battery =>
    .ok { capacitySource := battery.join "capacity"
          statusSource := battery.join "status"
          last := none }
  | none => .error (.notSupported ("no battery under " ++ directory.text))

def refresh (p : BatteryProbe) (host : HostView) : Except Fault BatteryProbe := do
  let text ← readSource host p.capacitySource
  let capacity ← (Attribute.parse text).mapError (malformed p.capacitySource)
  -- a state that cannot be read is no failure
  let status := BatterySample.statusOf (host.read p.statusSource).toOption
  return { p with last := some ⟨min capacity BatterySample.fullCharge, status⟩ }

def metricsOf (s : BatterySample) : List Metric :=
  [⟨"battery.percent", some "%", .double (Binary64.ofNat s.charge.toNat)⟩,
   ⟨"battery.is_charging", none, .int64 (if s.isCharging then 1 else 0)⟩,
   ⟨"battery.status", none, .text s.status⟩]

def metrics (p : BatteryProbe) : List Metric :=
  match p.last with
  | some s => metricsOf s
  | none => []

instance : Sampler BatteryProbe where
  sampled p := p.last.isSome
  refresh p _ host := p.refresh host
  metrics := metrics

end BatteryProbe

end HostMeter
