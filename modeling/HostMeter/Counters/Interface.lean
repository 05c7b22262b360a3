import HostMeter.Text.Line
import HostMeter.Text.Numeral
/-!
# Counters — network interfaces

A row of the interface statistics is a name, a colon and at least nine tokens; the first token is the
number of bytes received, the ninth the number of bytes sent, and a token that is no numeral counts
as zero. Lines with a bar are headings; they and blank lines are skipped, and lines of any other shape
are passed over. The order of the rows is kept.
-/

namespace HostMeter

/-- The traffic of one interface since the host started. -/
structure Interface where
  name : String
  received : UInt64
  sent : UInt64
  deriving DecidableEq, Repr

namespace Interface

/-- The number of tokens that a row needs. -/
def columnCount : Nat := 9

def counter (ws : List (List Char)) (column : Nat) : UInt64 :=
  (ws[column]?.bind Text.uint64?).getD 0

def ofLine? (line : List Char) : Option Interface :=
  if line.contains '|' || (Text.trim line).isEmpty then none
  else
    match Text.cut? ':' line with
    | none => none
    | some (name, rest) =>
      let ws := Text.words rest
      if ws.length < columnCount then none
      else some
        { name := String.ofList (Text.trim name)
          received := counter ws 0
          sent := counter ws 8 }

def parse (text : String) : List Interface := (Text.lines text.toList).filterMap ofLine?

end Interface

end HostMeter
