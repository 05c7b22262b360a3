import HostMeter.Percent
import HostMeter.Probe.Basic
import HostMeter.Word
/-!
# Probes — storage

Reports how full the file system at a configured path is, or at the root of all paths. A file system
that claims more free space than it has counts as empty.
-/

namespace HostMeter

structure StorageProbe where
  path : Path
  last : Option Usage
  deriving DecidableEq, Repr

namespace Usage

def used (u : Usage) : UInt64 := Word.satSub u.total u.free

def usedPercent (u : Usage) : Binary64 := percent u.used u.total

end Usage

namespace StorageProbe

def name : String := "storage"

/-- The path without a configured one. -/
def defaultPath : String := "/"

def failure (path : Path) : String := "statvfs " ++ path.text ++ " failed"

def create (c : Context) : Except Fault StorageProbe :=
  let path : Path := ⟨(c.option? "path").getD defaultPath⟩
  match c.host.usage path with
  | .ok _ => .ok { path, last := none }
  | .error cause => .error (.notSupported (failure path ++ ": " ++ cause.message))

def refresh (p : StorageProbe) (host : HostView) : Except Fault StorageProbe :=
  match host.usage p.path with
  | .ok usage => .ok { p with last := some usage }
  | .error cause => .error (.io (failure p.path) cause)

def metricsOf (path : Path) (u : Usage) : List Metric :=
  [⟨"storage.path", none, .text path.text⟩,
   ⟨"storage.total_bytes", some "B", .uint64 u.total⟩,
   ⟨"storage.used_bytes", some "B", .uint64 u.used⟩,
   ⟨"storage.free_bytes", some "B", .uint64 u.free⟩,
   ⟨"storage.available_bytes", some "B", .uint64 u.available⟩,
   ⟨"storage.used_percent", some "%", .double u.usedPercent⟩]

def metrics (p : StorageProbe) : List Metric :=
  match p.last with
  | some u => metricsOf p.path u
  | none => []

instance : Sampler StorageProbe where
  sampled p := p.last.isSome
  refresh p _ host := p.refresh host
  metrics := metrics

end StorageProbe

end HostMeter
