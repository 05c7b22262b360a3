import HostMeter.Counters.FormatFault
import HostMeter.Text.Blank
/-!
# Counters — attributes

An attribute file holds one number, with blanks around it.
-/

namespace HostMeter.Attribute

/-- Reads an attribute that holds a 32-bit number. -/
def parse (text : String) : Except FormatFault UInt32 :=
  let cs := Text.trim text.toList
  match Text.uint32? cs with
  | some n => .ok n
  | none => .error (.notInteger (String.ofList cs))

end HostMeter.Attribute
