import HostMeter.Binary64
/-!
# Snapshot — metrics and their order

A metric is a named measurement of one of four types, and a snapshot is the list of metrics that one
round has taken, in the order in which they were added. Names may repeat; a look-up finds the first.
-/

namespace HostMeter

inductive MetricType where
  | double
  | int64
  | uint64
  | text
  deriving DecidableEq, Repr

inductive MetricValue where
  | double (value : Binary64)
  | int64 (value : Int64)
  | uint64 (value : UInt64)
  | text (value : String)
  deriving DecidableEq, Repr

namespace MetricValue

def type : MetricValue → MetricType
  | .double _ => .double
  | .int64 _ => .int64
  | .uint64 _ => .uint64
  | .text _ => .text

def double? : MetricValue → Option Binary64
  | .double x => some x
  | _ => none

def int64? : MetricValue → Option Int64
  | .int64 i => some i
  | _ => none

def uint64? : MetricValue → Option UInt64
  | .uint64 n => some n
  | _ => none

def text? : MetricValue → Option String
  | .text s => some s
  | _ => none

end MetricValue

structure Metric where
  name : String
  unit : Option String
  value : MetricValue
  deriving DecidableEq, Repr

/-- The metrics of one round, in order. -/
structure Snapshot where
  metrics : List Metric
  deriving DecidableEq, Repr

namespace Snapshot

def empty : Snapshot := ⟨[]⟩

def size (s : Snapshot) : Nat := s.metrics.length

def isEmpty (s : Snapshot) : Bool := s.metrics.isEmpty

def get? (s : Snapshot) (index : Nat) : Option Metric := s.metrics[index]?

def find? (s : Snapshot) (name : String) : Option Metric :=
  s.metrics.find? fun m => m.name == name

end Snapshot

end HostMeter
