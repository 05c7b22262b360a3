import HostMeter.Counters.Processor
import HostMeter.Percent
import HostMeter.Probe.Basic
/-!
# Probes — the processor

Reports which share of the time between two samples the processors were busy, and their number. Two
samples are *usable* together when all ticks grew, the idle ticks did not shrink, and the idle ticks
grew by no more than all ticks. Samples that are not usable leave the share as it was; before the
first usable pair it is zero.
-/

namespace HostMeter

structure TickSample where
  total : UInt64
  idle : UInt64
  deriving DecidableEq, Repr

namespace TickSample

def ofTimes (t : CpuTimes) : TickSample := ⟨t.total, t.idleAll⟩

/-- The busy share between two samples in percent, if they are usable together. -/
def usage? (earlier later : TickSample) : Option Binary64 := do
  -- a counter that went backwards, or an idle share above the whole, is noise
  let total ← Word.diff? later.total earlier.total
  let idle ← Word.diff? later.idle earlier.idle
  if total = 0 || total < idle then none
  else some ((percent (total - idle) total).smaller hundred)

end TickSample

structure CpuProbe where
  source : Path
  cores : UInt32
  last : Option TickSample
  /-- The busy share of the last usable pair of samples. -/
  usage : Binary64
  deriving DecidableEq, Repr

namespace CpuProbe

def name : String := "cpu"

def readStat (host : HostView) (source : Path) : Except Fault CpuStat := do
  let text ← readSource host source
  (CpuStat.parse text).mapError (malformed source)

/-- Starts the probe. A host whose statistics cannot be read does not support it. -/
def create (c : Context) : Except Fault CpuProbe := do
  let source := c.procPath "stat"
  let stat ← (readStat c.host source).mapError Fault.asUnsupported
  return { source, cores := stat.cores, last := none, usage := .zero }

def record (p : CpuProbe) (s : TickSample) : CpuProbe :=
  -- a pair that is not usable leaves the last share, yet the sample is kept for the next pair
  { p with last := some s, usage := (p.last.bind fun l => l.usage? s).getD p.usage }

def refresh (p : CpuProbe) (host : HostView) : Except Fault CpuProbe := do
  let stat ← readStat host p.source
  return p.record (TickSample.ofTimes stat.aggregate)

/-- The busy share, and the number of cores if there are any. -/
def metrics (p : CpuProbe) : List Metric :=
  ⟨"cpu.usage_percent", some "%", .double p.usage⟩ ::
    (if p.cores = 0 then [] else [⟨"cpu.core_count", none, .uint64 p.cores.toUInt64⟩])

instance : Sampler CpuProbe where
  sampled p := p.last.isSome
  refresh p _ host := p.refresh host
  metrics := metrics

end CpuProbe

end HostMeter
