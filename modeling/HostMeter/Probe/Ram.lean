import HostMeter.Counters.Memory
import HostMeter.Percent
import HostMeter.Probe.Basic
import HostMeter.Word
/-!
# Probes — memory

Reports how much of the memory is in use. The total is that of the moment at which the probe started,
and it is never zero; the free part is what is available, or the free amount where the host does not
say what is available, and none if it claims to exceed the total.
-/

namespace HostMeter

/-- Memory in use at one moment, in bytes. -/
structure RamSample where
  used : UInt64
  free : UInt64
  usedPercent : Binary64
  deriving DecidableEq, Repr

def bytesPerKibibyte : UInt64 := 1024

namespace RamSample

/-- The amount in kibibytes that counts as free. -/
def freeKibibytes (info : MemInfo) : UInt64 :=
  if 0 < info.available then info.available else info.free

/-- The free part of a total, in bytes. -/
def freeBytes (total : UInt64) (info : MemInfo) : UInt64 :=
  let free := Word.satMul (freeKibibytes info) bytesPerKibibyte
  if total < free then 0 else free

/-- The free part is a part of the total, so that the used part is never less than nothing. -/
theorem freeBytes_le (total : UInt64) (info : MemInfo) : freeBytes total info ≤ total := by
  unfold freeBytes
  dsimp only
  split
  · exact UInt64.zero_le
  · next h => exact UInt64.not_lt.mp h

def ofInfo (total : UInt64) (info : MemInfo) : RamSample :=
  let free := freeBytes total info
  let used := total - free
  { used, free, usedPercent := percent used total }

end RamSample

structure RamProbe where
  source : Path
  total : UInt64
  last : Option RamSample
  deriving DecidableEq, Repr

namespace RamProbe

def name : String := "ram"

/-- Starts the probe. A host that does not say how much memory it has does not support it. -/
def create (c : Context) : Except Fault RamProbe := do
  let source := c.procPath "meminfo"
  let text ← (readSource c.host source).mapError Fault.asUnsupported
  let info := MemInfo.parse text
  if info.total = 0 then throw (.notSupported ("MemTotal not found in " ++ source.text))
  return { source, total := Word.satMul info.total bytesPerKibibyte, last := none }

def refresh (p : RamProbe) (host : HostView) : Except Fault RamProbe := do
  let text ← readSource host p.source
  return { p with last := some (RamSample.ofInfo p.total (MemInfo.parse text)) }

/-- The share is left out where there is no memory to have a share in. -/
def metricsOf (total : UInt64) (s : RamSample) : List Metric :=
  ⟨"ram.total_bytes", some "B", .uint64 total⟩ ::
  ⟨"ram.used_bytes", some "B", .uint64 s.used⟩ ::
  ⟨"ram.free_bytes", some "B", .uint64 s.free⟩ ::
    (if 0 < total then [⟨"ram.used_percent", some "%", .double s.usedPercent⟩] else [])

def metrics (p : RamProbe) : List Metric :=
  match p.last with
  | some s => metricsOf p.total s
  | none => []

instance : Sampler RamProbe where
  sampled p := p.last.isSome
  refresh p _ host := p.refresh host
  metrics := metrics

end RamProbe

end HostMeter
