import HostMeter.Fault
import HostMeter.Path
/-!
# Host — what a probe can ask

A probe sees its host only through four queries. A view answers them as the host stands at one
moment, so a probe is a function of its state and a view, and two hosts whose views agree on a
probe's own questions cannot be told apart by it.
-/

namespace HostMeter

/-- How full a mounted file system is, in bytes. -/
structure Usage where
  total : UInt64
  free : UInt64
  /-- The free space that is open to every user. -/
  available : UInt64
  deriving DecidableEq, Repr

/-- The answers of a host at one moment. -/
structure HostView where
  read : Path → Except HostFault String
  has : Path → Bool
  /-- The entries of a directory, in any order. -/
  entries : Path → Except HostFault (List Path)
  usage : Path → Except HostFault Usage

end HostMeter
