import HostMeter.Counters.FormatFault
import HostMeter.Text.Line
import HostMeter.Word
/-!
# Counters — processor time

The processor statistics are lines of blank-separated tokens. The line labelled `cpu` carries the
ticks of all processors together in up to eight columns, of which the first four are required; each
line labelled `cpu` and a number stands for one core; other lines say nothing about processors.

* `CpuTimes`: the eight columns, with `idleAll` and `total`.
* `CpuStat.Scan`: what is known after some of the lines.
* `CpuStat.parse`: reads the text; of several aggregate lines each must be sound and the last counts.
-/

namespace HostMeter

/-- Ticks spent by all processors since the host started, by kind of work. -/
structure CpuTimes where
  user : UInt64
  nice : UInt64
  system : UInt64
  idle : UInt64
  iowait : UInt64
  irq : UInt64
  softirq : UInt64
  steal : UInt64
  deriving DecidableEq, Repr

namespace CpuTimes

/-- The columns in the order in which the kernel writes them. -/
def columns (t : CpuTimes) : List UInt64 :=
  [t.user, t.nice, t.system, t.idle, t.iowait, t.irq, t.softirq, t.steal]

/-- The times whose columns are the first eight of a list; a missing column is zero. -/
def ofColumns (cs : List UInt64) : CpuTimes where
  user := cs.getD 0 0
  nice := cs.getD 1 0
  system := cs.getD 2 0
  idle := cs.getD 3 0
  iowait := cs.getD 4 0
  irq := cs.getD 5 0
  softirq := cs.getD 6 0
  steal := cs.getD 7 0

@[simp] theorem ofColumns_columns (t : CpuTimes) : ofColumns t.columns = t := rfl

/-- Ticks in which no processor worked, waiting for a device included. -/
def idleAll (t : CpuTimes) : UInt64 := Word.satAdd t.idle t.iowait

def total (t : CpuTimes) : UInt64 := t.columns.foldl Word.satAdd 0

end CpuTimes

/-- What the processor statistics say: the ticks and the number of cores. -/
structure CpuStat where
  aggregate : CpuTimes
  cores : UInt32
  deriving DecidableEq, Repr

namespace CpuStat

/-- The longest leading run of numerals. -/
def leadingNumerals : List (List Char) → List UInt64
  | [] => []
  | w :: ws =>
    match Text.uint64? w with
    | some n => n :: leadingNumerals ws
    | none => []

def aggregateLabel : List Char := ['c', 'p', 'u']

/-- Is this the label of the line of one core: `cpu` and its number? -/
def isCoreLabel (w : List Char) : Bool :=
  match w with
  | 'c' :: 'p' :: 'u' :: id => !id.isEmpty && id.all Char.isDigit
  | _ => false

/-- The ticks on an aggregate line, given the tokens after its label. -/
def times (ws : List (List Char)) : Except FormatFault CpuTimes :=
  let cs := leadingNumerals ws
  if cs.length < 4 then .error .shortAggregate else .ok (CpuTimes.ofColumns cs)

/-- What is known after some of the lines: the ticks of the last aggregate line and the number of lines
of cores. -/
structure Scan where
  aggregate : Option CpuTimes
  cores : UInt32

namespace Scan

def start : Scan := ⟨none, 0⟩

/-- One more line, given by its tokens. -/
def step (s : Scan) : List (List Char) → Except FormatFault Scan
  | [] => .ok s
  | label :: ws =>
    if label = aggregateLabel then (times ws).map fun t => { s with aggregate := some t }
    else if isCoreLabel label then .ok { s with cores := s.cores + 1 }
    else .ok s

/-- What is known after the last line. -/
def finish (s : Scan) : Except FormatFault CpuStat :=
  match s.aggregate with
  | none => .error .noAggregate
  | some t => .ok ⟨t, s.cores⟩

end Scan

/-- The statistics in the lines of a text, each given by its tokens. The first unsound line ends it. -/
def ofRows (rows : List (List (List Char))) : Except FormatFault CpuStat :=
  rows.foldlM Scan.step Scan.start >>= Scan.finish

def parse (text : String) : Except FormatFault CpuStat :=
  ofRows ((Text.lines text.toList).map Text.words)

end CpuStat

end HostMeter
