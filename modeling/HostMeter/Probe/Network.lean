import HostMeter.Counters.Interface
import HostMeter.Percent
import HostMeter.Probe.Basic
import HostMeter.Word
/-!
# Probes — the network

Reports the traffic of one interface and its rates. The interface is chosen when the probe starts,
by its configured name or as the first one that is not the loopback, and is followed from then on by
that name. A rate is the growth of a counter between two samples over the time between them; it is
zero if the counter went backwards, or if the time did not go forwards.
-/

namespace HostMeter

/-- The counters of the followed interface at one moment. -/
structure TrafficSample where
  received : UInt64
  sent : UInt64
  /-- The time of the sample in milliseconds. -/
  time : UInt64
  deriving DecidableEq, Repr

/-- Bytes for each second. -/
structure TrafficRates where
  received : Binary64
  sent : Binary64
  deriving DecidableEq, Repr

namespace TrafficRates

/-- The rates of an interface that has been sampled once. -/
def zero : TrafficRates := ⟨.zero, .zero⟩

/-- The rates between two samples. -/
def between (earlier later : TrafficSample) : TrafficRates :=
  let elapsed := Word.satSub later.time earlier.time
  if elapsed = 0 then zero
  else
    { received := perSecond (Word.satSub later.received earlier.received) elapsed
      sent := perSecond (Word.satSub later.sent earlier.sent) elapsed }

end TrafficRates

structure NetworkProbe where
  source : Path
  interface : String
  last : Option TrafficSample
  /-- The rates between the last two samples. -/
  rates : TrafficRates
  deriving DecidableEq, Repr

namespace NetworkProbe

def name : String := "network"

/-- The interface on which a host talks to itself. -/
def loopback : String := "lo"

/-- The interface to follow: the requested one, or the first that the loopback policy allows. -/
def choose? (interfaces : List Interface) (requested : Option String) (includeLoopback : Bool) :
    Option Interface :=
  match requested with
  | some name => interfaces.find? fun i => i.name == name
  | none => interfaces.find? fun i => includeLoopback || i.name != loopback

def create (c : Context) : Except Fault NetworkProbe := do
  let requested := c.option? "interface"
  let source := c.procPath "net/dev"
  let text ← (readSource c.host source).mapError Fault.asUnsupported
  match choose? (Interface.parse text) requested (c.flag "include_loopback" false), requested with
  | some i, _ => return { source, interface := i.name, last := none, rates := .zero }
  | none, some name => throw (.notSupported ("interface " ++ name ++ " not found"))
  | none, none => throw (.notSupported "no usable network interface")

/-- Reads the counters of the followed interface. -/
def readCounters (p : NetworkProbe) (now : UInt64) (host : HostView) :
    Except Fault TrafficSample := do
  let text ← readSource host p.source
  match (Interface.parse text).find? fun i => i.name == p.interface with
  | some i => return { received := i.received, sent := i.sent, time := now }
  | none => throw (.io (readingContext p.source) (.interfaceGone p.interface))

def record (p : NetworkProbe) (s : TrafficSample) : NetworkProbe :=
  let rates :=
    match p.last with
    | some l => TrafficRates.between l s
    | none => .zero
  { p with last := some s, rates }

def refresh (p : NetworkProbe) (now : UInt64) (host : HostView) : Except Fault NetworkProbe := do
  return p.record (← p.readCounters now host)

def metricsOf (interface : String) (s : TrafficSample) (r : TrafficRates) : List Metric :=
  [⟨"network.interface", none, .text interface⟩,
   ⟨"network.rx_bytes", some "B", .uint64 s.received⟩,
   ⟨"network.tx_bytes", some "B", .uint64 s.sent⟩,
   ⟨"network.rx_bytes_per_sec", some "B/s", .double r.received⟩,
   ⟨"network.tx_bytes_per_sec", some "B/s", .double r.sent⟩]

def metrics (p : NetworkProbe) : List Metric :=
  match p.last with
  | some s => metricsOf p.interface s p.rates
  | none => []

instance : Sampler NetworkProbe where
  sampled p := p.last.isSome
  refresh := refresh
  metrics := metrics

end NetworkProbe

end HostMeter
