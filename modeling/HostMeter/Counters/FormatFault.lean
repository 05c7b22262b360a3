import HostMeter.Text.Quoted
/-!
# Counters — faults of the kernel's text formats

Why the text of a counter file or an attribute file could not be read.
-/

namespace HostMeter

/-- Why a kernel text is malformed. -/
inductive FormatFault where
  | shortAggregate
  | noAggregate
  | notInteger (text : String)
  deriving DecidableEq, Repr

def FormatFault.message : FormatFault → String
  | .shortAggregate => "unexpected /proc/stat cpu line format"
  | .noAggregate => "missing aggregate cpu line"
  | .notInteger text => "invalid integer attribute " ++ Text.quoted text

/-- A fault's message on a line of its own. -/
def FormatFault.display (f : FormatFault) : String := "Parse error: " ++ f.message

end HostMeter
