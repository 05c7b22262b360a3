import HostMeter.Monitor.Round
import HostMeter.Probe.Builtin
/-!
# Monitor — over the built-in probes

The registry of the built-in probes and the monitor over it.
-/

namespace HostMeter

/-- A built-in probe under a name of its own. -/
def Builtin.Kind.descriptor (k : Builtin.Kind) (name : String) : Descriptor Id Builtin :=
  ⟨name, k.create⟩

/-- The built-in probes under their names. -/
def builtinRegistry : List (Descriptor Id Builtin) :=
  Builtin.Kind.all.map fun k => k.descriptor k.name

/-- The monitor over the built-in probes. -/
def Monitor.ofSettings (settings : Ini) (host : HostView) (roots : Roots) :
    Except Fault (Monitor Builtin) :=
  Id.run (Monitor.build settings host roots builtinRegistry)

end HostMeter
