import HostMeter.Text.Line
import HostMeter.Text.Numeral
/-!
# Counters — memory

Each line of the memory statistics starts with a label that ends in a colon; the second token of the
line is an amount in kibibytes. Three labels count, the last line of a label decides, and an amount
that is absent or no numeral is zero. Every text can be read.
-/

namespace HostMeter

/-- Amounts of memory in kibibytes. -/
structure MemInfo where
  total : UInt64
  free : UInt64
  available : UInt64
  deriving DecidableEq, Repr

namespace MemInfo

/-- The amount on a line. -/
def amount (line : List Char) : UInt64 :=
  ((Text.words line)[1]?.bind Text.uint64?).getD 0

/-- What is known before the first line. -/
def unknown : MemInfo := ⟨0, 0, 0⟩

/-- One more line: its amount takes the place of the one that was known for its label. -/
def step (m : MemInfo) (line : List Char) : MemInfo :=
  if "MemTotal:".toList.isPrefixOf line then { m with total := amount line }
  else if "MemFree:".toList.isPrefixOf line then { m with free := amount line }
  else if "MemAvailable:".toList.isPrefixOf line then { m with available := amount line }
  else m

def parse (text : String) : MemInfo := (Text.lines text.toList).foldl step unknown

end MemInfo

end HostMeter
