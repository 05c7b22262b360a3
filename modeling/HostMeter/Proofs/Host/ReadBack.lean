import HostMeter.Counters.Attribute
import HostMeter.Counters.Interface
import HostMeter.Counters.Memory
import HostMeter.Counters.Processor
import HostMeter.Host.Scenario
import HostMeter.Proofs.Counters.Interface
import HostMeter.Proofs.Counters.Memory
import HostMeter.Proofs.Counters.Processor
import HostMeter.Proofs.Counters.Totals
import HostMeter.Proofs.Host.History
import HostMeter.Proofs.Path.Components
import HostMeter.Proofs.Text.Columns
/-!
# Read back — made-up hosts say what they were told

The texts that a made-up host gets are in the kernel's formats: labels, columns, padding, headings and
lines that do not count. The readers of these formats find in them the very numbers the texts were made of,
for all words and for tables of any length.

* `Scenario.parse_processorText`, `Scenario.parse_memoryText`, `Scenario.parse_interfacesText`,
  `Scenario.parse_capacityText`: each text read back.
* `Scenario.read_back`: the files of a host, read back after the host was told what to say.
-/

namespace HostMeter

open Text

namespace Scenario

/-! ## The processor

The text starts with the line of all processors, whose label ends in a blank, so that two blanks follow it.
The lines of the cores have the same letters and a number behind them, which is what tells them apart. -/

/-- The columns of a line of processor ticks. -/
def tickColumns (busy idle : Nat) : List Nat := [busy, 0, 0, idle, 0, 0, 0, 0, 0, 0]

def tickChars (label : String) (busy idle : Nat) : List Char :=
  label.toList ++ ' ' :: columns (tickColumns busy idle)

/-- A line of ticks is its columns after the label, with a line feed at the end. -/
theorem toList_tickLine (label : String) (busy idle : Nat) :
    (tickLine label busy idle).toList = tickChars label busy idle ++ ['\n'] := by
  simp [tickLine, tickChars, columns, tickColumns, ofNat, List.intercalate_cons_cons]
  rfl

theorem words_tickChars (label : String) (busy idle : Nat) :
    words (tickChars label busy idle) = words label.toList ++ (tickColumns busy idle).map digits := by
  rw [tickChars, words_append_cons rfl, words_columns]

theorem isLine_tickChars {label : String} (h : '\n' ∉ label.toList) (busy idle : Nat) :
    IsLine (tickChars label busy idle) := by
  rw [tickChars, List.append_cons]
  refine .append (by simp [h]) (isLine_columns _) (columns_ne_nil (List.cons_ne_nil _ _))

/-- The label of the line of a core. -/
def coreLabel (core : Nat) : String := "cpu" ++ ofNat core

theorem toList_coreLabel (core : Nat) :
    (coreLabel core).toList = CpuStat.aggregateLabel ++ digits core := by
  simp [coreLabel, ofNat, CpuStat.aggregateLabel]

/-- The lines below those of the processor, which say nothing about it. -/
def otherLines : List (List Char) :=
  ["ctxt 500000".toList, "btime 1700000000".toList, "processes 10000".toList]

/-- The lines of the processor statistics: that of all processors, those of the cores, and others. -/
def processorLines (busy idle : UInt64) : List (List Char) :=
  tickChars "cpu " busy.toNat idle.toNat ::
    ((List.range coreCount).map fun core =>
      tickChars (coreLabel core) (busy.toNat / coreCount) (idle.toNat / coreCount)) ++
    otherLines

theorem toList_processorText (busy idle : UInt64) :
    (processorText busy idle).toList = (processorLines busy idle).flatMap (· ++ ['\n']) := by
  simp [processorText, processorLines, toList_tickLine, String.toList_join, List.flatMap_map,
    coreLabel, otherLines]

/-- Each of these lines stands on a line of its own. -/
theorem isLine_of_mem_processorLines {busy idle : UInt64} {line : List Char}
    (h : line ∈ processorLines busy idle) : IsLine line := by
  rw [processorLines, List.cons_append] at h
  rcases List.mem_cons.mp h with rfl | h
  · -- the line of all processors
    exact isLine_tickChars (by decide) _ _
  · rcases List.mem_append.mp h with h | h
    · -- neither the letters nor the number of a core hold a line feed
      obtain ⟨core, _, rfl⟩ := List.mem_map.mp h
      refine isLine_tickChars ?_ _ _
      rw [toList_coreLabel]
      intro hmem
      rcases List.mem_append.mp hmem with hmem | hmem
      · exact absurd hmem (by decide)
      · exact absurd (isDigit_of_mem_digits hmem) (by decide)
    · have hother : ∀ line ∈ otherLines, IsLine line := by
        simp only [otherLines, String.reduceToList]
        decide
      exact hother line h

/-- The label of a core is one token: there is no blank between the letters and the number. -/
theorem words_coreLabel (core : Nat) :
    words (coreLabel core).toList = [CpuStat.aggregateLabel ++ digits core] := by
  have hblank : ∀ c ∈ (coreLabel core).toList, isBlank c = false := by
    rw [toList_coreLabel]
    intro c hc
    rcases List.mem_append.mp hc with hc | hc
    · have hlabel : ∀ c ∈ CpuStat.aggregateLabel, isBlank c = false := by
        simp [CpuStat.aggregateLabel, isBlank, blanks]
      exact hlabel c hc
    · exact isBlank_of_isDigit (isDigit_of_mem_digits hc)
  rw [words_of_forall hblank, toList_coreLabel]
  rfl

/-- The tokens of the line of a core. -/
def coreRow (busy idle core : Nat) : List (List Char) :=
  (CpuStat.aggregateLabel ++ digits core) :: (tickColumns busy idle).map digits

/-- The tokens of the processor statistics, line by line. -/
theorem map_words_processorLines (busy idle : UInt64) :
    (processorLines busy idle).map words =
      (CpuStat.aggregateLabel :: (tickColumns busy.toNat idle.toNat).map digits) ::
        (List.range coreCount).map (coreRow (busy.toNat / coreCount) (idle.toNat / coreCount)) ++
        otherLines.map words := by
  rw [processorLines, List.map_append, List.map_cons, words_tickChars, List.map_map]
  congr 2
  refine List.map_congr_left fun core _ => ?_
  rw [Function.comp_apply, words_tickChars, words_coreLabel]
  rfl

/-- The line of a core is not taken for that of all processors. -/
theorem aggregateTokens?_coreRow (busy idle core : Nat) :
    CpuStat.aggregateTokens? (coreRow busy idle core) = none := by
  rw [coreRow, CpuStat.aggregateTokens?, if_neg]
  -- the number of the core makes the label longer
  exact fun h => digits_ne_nil core (List.append_right_eq_self.mp h)

/-- The line of a core counts as one. -/
theorem isCoreRow_coreRow (busy idle core : Nat) :
    CpuStat.isCoreRow (coreRow busy idle core) = true := by
  show (!(digits core).isEmpty && (digits core).all Char.isDigit) = true
  rw [Bool.and_eq_true, List.all_eq_true]
  exact ⟨by simp [digits_ne_nil], fun _ => isDigit_of_mem_digits⟩

/-- Numbers that are written as words are read back, all of them. -/
theorem leadingNumerals_map_digits (ws : List UInt64) :
    CpuStat.leadingNumerals (ws.map fun w => digits w.toNat) = ws := by
  induction ws with
  | nil => rfl
  | cons w ws ih => rw [List.map_cons, CpuStat.leadingNumerals, uint64?_digits, ih]

/-- The ticks that are written: busy ones as user time, idle ones, and nothing else. -/
def ticks (busy idle : UInt64) : CpuTimes := ⟨busy, 0, 0, idle, 0, 0, 0, 0⟩

/-- The ten columns of a line are read as the eight that are kept. -/
theorem times_tickColumns (busy idle : UInt64) :
    CpuStat.times ((tickColumns busy.toNat idle.toNat).map digits) = .ok (ticks busy idle) := by
  have hcolumns : (tickColumns busy.toNat idle.toNat).map digits =
      [busy, 0, 0, idle, 0, 0, 0, 0, 0, 0].map fun w : UInt64 => digits w.toNat := rfl
  rw [CpuStat.times, hcolumns, leadingNumerals_map_digits]
  rfl

/-- **Processor statistics are read back**: the ticks, and four cores. -/
theorem parse_processorText (busy idle : UInt64) :
    CpuStat.parse (processorText busy idle) = .ok ⟨ticks busy idle, 4⟩ := by
  have hlines : lines (processorText busy idle).toList = processorLines busy idle := by
    rw [toList_processorText, lines_flatMap fun _ => isLine_of_mem_processorLines]
  have hother : (otherLines.map words).filterMap CpuStat.aggregateTokens? = [] ∧
      (otherLines.map words).countP CpuStat.isCoreRow = 0 := by
    simp only [otherLines, String.reduceToList]
    decide
  -- only the first line is that of all processors, and those below it name the cores
  have haggregates : ((processorLines busy idle).map words).filterMap CpuStat.aggregateTokens? =
      [(tickColumns busy.toNat idle.toNat).map digits] := by
    rw [map_words_processorLines, List.filterMap_append, hother.1, List.filterMap_cons,
      List.filterMap_map]
    simp only [Function.comp_def, aggregateTokens?_coreRow, List.filterMap_none]
    rfl
  -- the cores are counted over the same lines
  have hcores : ((processorLines busy idle).map words).countP CpuStat.isCoreRow = coreCount := by
    rw [map_words_processorLines, List.countP_append, hother.2, List.countP_cons, List.countP_map]
    simp only [Function.comp_def, isCoreRow_coreRow, List.countP_true, List.length_range]
    rfl
  rw [CpuStat.parse, hlines, CpuStat.ofRows_eq, haggregates, hcores, List.mapM_cons, times_tickColumns]
  rfl

/-- Busy and idle ticks add up, and stop at the largest word. -/
theorem toNat_total_ticks (busy idle : UInt64) :
    (ticks busy idle).total.toNat = min (busy.toNat + idle.toNat) Word.top := by
  rw [CpuTimes.toNat_total, CpuTimes.sum_columns, ticks]
  simp only [UInt64.toNat_zero, Nat.add_zero]

/-! ## Memory

The three lines that count come first. Their labels are as long as it takes for the amounts to stand in one
column, and the lines below name other fields. -/

/-- A line of the memory statistics: a label, blanks, an amount and its unit. -/
def amountChars (label : List Char) (amount : Nat) : List Char :=
  label ++ ' ' :: (digits amount ++ ' ' :: ['k', 'B'])

/-- The amount in a line is read back, whatever blanks the label ends in. -/
theorem amount_amountChars {label w : List Char} (h : words label = [w]) (amount : UInt64) :
    MemInfo.amount (amountChars label amount.toNat) = amount := by
  -- the amount is the second token, after the label and before the unit
  have hwords : words (amountChars label amount.toNat) = [w, digits amount.toNat, ['k', 'B']] := by
    have hdigits : words (digits amount.toNat) = [digits amount.toNat] := by
      rw [words_of_forall fun c hc => isBlank_of_isDigit (isDigit_of_mem_digits hc),
        List.filter_cons_of_pos (by simp [digits_ne_nil]), List.filter_nil]
    rw [amountChars, words_append_cons rfl, words_append_cons rfl, h, hdigits]
    rfl
  rw [MemInfo.amount, hwords]
  exact getD_uint64?_digits amount 0

theorem isLine_amountChars {label : List Char} (h : '\n' ∉ label) (amount : Nat) :
    IsLine (amountChars label amount) := by
  have hdigits : '\n' ∉ digits amount := fun hmem => absurd (isDigit_of_mem_digits hmem) (by decide)
  rw [amountChars, List.append_cons, ← List.append_assoc]
  exact .append (by simp [h, hdigits]) (by decide) (by decide)

/-- The lines of the memory statistics, those with fixed amounts last. -/
def memoryLines (total free available : UInt64) : List (List Char) :=
  [amountChars "MemTotal:      ".toList total.toNat, amountChars "MemFree:       ".toList free.toNat,
    amountChars "MemAvailable:  ".toList available.toNat, "Buffers:          512000 kB".toList,
    "Cached:          2048000 kB".toList, "SwapTotal:       4096000 kB".toList,
    "SwapFree:        4096000 kB".toList]

/-- The memory statistics are these lines, one after the other. -/
theorem toList_memoryText (total free available : UInt64) :
    (memoryText total free available).toList =
      (memoryLines total free available).flatMap (· ++ ['\n']) := by
  -- the space before an amount is the one that parts it from its label
  have htotal : "MemTotal:       " = "MemTotal:      " ++ " " := by decide
  have hfree : "MemFree:        " = "MemFree:       " ++ " " := by decide
  have havailable : "MemAvailable:   " = "MemAvailable:  " ++ " " := by decide
  have hunit : " kB\n".toList = [' ', 'k', 'B', '\n'] := rfl
  have hbuffers : "Buffers:          512000 kB\n" = "Buffers:          512000 kB" ++ "\n" := by decide
  have hcached : "Cached:          2048000 kB\n" = "Cached:          2048000 kB" ++ "\n" := by decide
  have hswap : "SwapTotal:       4096000 kB\n" = "SwapTotal:       4096000 kB" ++ "\n" := by decide
  have hspare : "SwapFree:        4096000 kB\n" = "SwapFree:        4096000 kB" ++ "\n" := by decide
  have hspace : " ".toList = [' '] := rfl
  have hnewline : "\n".toList = ['\n'] := rfl
  -- the equation of the definition is too large to be made
  delta memoryText
  simp only [memoryLines, amountChars, ofNat, htotal, hfree, havailable, hbuffers, hcached, hswap, hspare,
    String.toList_append, String.toList_ofList, hunit, hspace, hnewline, List.flatMap_cons,
    List.flatMap_nil, List.append_assoc, List.cons_append, List.nil_append, List.append_nil]

theorem isLine_of_mem_memoryLines {total free available : UInt64} :
    ∀ line ∈ memoryLines total free available, IsLine line := by
  simp only [memoryLines, List.forall_mem_cons, String.reduceToList]
  exact ⟨isLine_amountChars (by decide) _, isLine_amountChars (by decide) _,
    isLine_amountChars (by decide) _, by decide⟩

/-- A line that is written for a field is an entry of it. -/
theorem entryOf?_amountChars {before w : List Char} {f : MemInfo.Field} (amount : UInt64)
    (hfield : MemInfo.field? (amountChars before amount.toNat) = some f) (hwords : words before = [w]) :
    MemInfo.entryOf? (amountChars before amount.toNat) = some (f, amount) := by
  rw [MemInfo.entryOf?, hfield, Option.map_some, amount_amountChars hwords]

/-- **Memory statistics are read back**: the three amounts, and nothing from the other lines. -/
theorem parse_memoryText (total free available : UInt64) :
    MemInfo.parse (memoryText total free available) = ⟨total, free, available⟩ := by
  have hlines : lines (memoryText total free available).toList = memoryLines total free available := by
    rw [toList_memoryText, lines_flatMap isLine_of_mem_memoryLines]
  have htotal : MemInfo.entryOf? (amountChars "MemTotal:      ".toList total.toNat) = some (.total, total) := by
    refine entryOf?_amountChars total ?_ (w := "MemTotal:".toList) ?_
    · simp only [amountChars, String.reduceToList]
      rfl
    · simp only [String.reduceToList]
      decide
  have hfree : MemInfo.entryOf? (amountChars "MemFree:       ".toList free.toNat) = some (.free, free) := by
    refine entryOf?_amountChars free ?_ (w := "MemFree:".toList) ?_
    · simp only [amountChars, String.reduceToList]
      rfl
    · simp only [String.reduceToList]
      decide
  have havailable : MemInfo.entryOf? (amountChars "MemAvailable:  ".toList available.toNat) =
      some (.available, available) := by
    refine entryOf?_amountChars available ?_ (w := "MemAvailable:".toList) ?_
    · simp only [amountChars, String.reduceToList]
      rfl
    · simp only [String.reduceToList]
      decide
  -- no other line names one of the three fields
  have hother : ["Buffers:          512000 kB".toList, "Cached:          2048000 kB".toList,
      "SwapTotal:       4096000 kB".toList, "SwapFree:        4096000 kB".toList].filterMap
        MemInfo.entryOf? = [] := by
    simp only [String.reduceToList]
    decide
  rw [MemInfo.parse_eq, hlines, memoryLines, List.filterMap_cons_some htotal, List.filterMap_cons_some hfree,
    List.filterMap_cons_some havailable, hother]
  rfl

/-! ## Interfaces

A row is cut at its first colon and its name is trimmed. So a name is read back if it has no colon and no
bar in it, does not break its line and has no blanks around it. -/

/-- A name that can stand before the colon of a row. -/
structure IsInterfaceName (name : String) : Prop where
  colon_not_mem : ':' ∉ name.toList
  bar_not_mem : '|' ∉ name.toList
  newline_not_mem : '\n' ∉ name.toList
  trimmed : Trimmed name.toList

instance (name : String) : Decidable (IsInterfaceName name) :=
  decidable_of_iff
    (':' ∉ name.toList ∧ '|' ∉ name.toList ∧ '\n' ∉ name.toList ∧ Trimmed name.toList)
    ⟨fun ⟨colon, bar, newline, trimmed⟩ => ⟨colon, bar, newline, trimmed⟩,
      fun ⟨colon, bar, newline, trimmed⟩ => ⟨colon, bar, newline, trimmed⟩⟩

/-- The numbers of a row: received bytes come first, sent ones ninth. -/
def trafficColumns (received sent : Nat) : List Nat :=
  [received, 100, 0, 0, 0, 0, 0, 0, sent, 80, 0, 0, 0, 0, 0, 0]

/-- What stands before the colon of a row: the name, filled up with spaces on its left. -/
def paddedName (name : String) : List Char :=
  List.replicate (nameWidth - name.length) ' ' ++ name.toList

/-- A row of the table: the name before the colon and the numbers behind it. -/
def interfaceChars (name : String) (received sent : UInt64) : List Char :=
  paddedName name ++ ':' :: ' ' :: columns (trafficColumns received.toNat sent.toNat)

theorem toList_interfaceLine (name : String) (received sent : UInt64) :
    (interfaceLine name received sent).toList = interfaceChars name received sent ++ ['\n'] := by
  simp [interfaceLine, interfaceChars, paddedName, columns, trafficColumns, ofNat,
    List.intercalate_cons_cons]
  rfl

/-- The padding of a name is of spaces and brings no other character. -/
theorem not_mem_paddedName {name : String} {c : Char} (hspace : c ≠ ' ') (h : c ∉ name.toList) :
    c ∉ paddedName name := by
  intro hmem
  rcases List.mem_append.mp hmem with hmem | hmem
  · exact hspace (List.eq_of_mem_replicate hmem)
  · exact h hmem

/-- A row stands on a line of its own, as there is no line feed in the name. -/
theorem isLine_interfaceChars {name : String} (h : IsInterfaceName name) (received sent : UInt64) :
    IsLine (interfaceChars name received sent) := by
  have hname := not_mem_paddedName (by decide) h.newline_not_mem
  rw [interfaceChars, List.append_cons, List.append_cons]
  exact .append (by simp [hname]) (isLine_columns _) (columns_ne_nil (List.cons_ne_nil _ _))

/-- **A row is read back** with its name and its two numbers. -/
theorem ofLine?_interfaceChars {name : String} (h : IsInterfaceName name) (received sent : UInt64) :
    Interface.ofLine? (interfaceChars name received sent) = some ⟨name, received, sent⟩ := by
  -- neither the name nor the numbers have a bar
  have hbar : (interfaceChars name received sent).contains '|' = false := by
    have hname := not_mem_paddedName (by decide) h.bar_not_mem
    have hcolumns : '|' ∉ columns (trafficColumns received.toNat sent.toNat) :=
      not_mem_columns (by decide) (by decide)
    rw [Bool.eq_false_iff, ne_eq, List.contains_iff_mem]
    simp [interfaceChars, hname, hcolumns]
  have hcut : cut? ':' (interfaceChars name received sent) =
      some (paddedName name, ' ' :: columns (trafficColumns received.toNat sent.toNat)) :=
    cut?_eq_some_iff.mpr ⟨rfl, not_mem_paddedName (by decide) h.colon_not_mem⟩
  have hname : trim (paddedName name) = name.toList :=
    (trim_blanks_append (fun b hb => by rw [List.eq_of_mem_replicate hb]; rfl) _).trans h.trimmed.trim_eq
  have hwords : words (' ' :: columns (trafficColumns received.toNat sent.toNat)) =
      (trafficColumns received.toNat sent.toNat).map digits := by
    rw [← List.nil_append (' ' :: _), words_append_cons rfl, words_columns]
    rfl
  -- the row is cut at its first colon, which is none of the name's
  rw [Interface.ofLine?_eq, hbar, if_neg Bool.false_ne_true, hcut]
  dsimp only
  rw [hwords, hname, if_neg (by simp [trafficColumns, Interface.columnCount]), String.ofList_toList]
  have hreceived : Interface.counter ((trafficColumns received.toNat sent.toNat).map digits) 0 = received :=
    getD_uint64?_digits received 0
  have hsent : Interface.counter ((trafficColumns received.toNat sent.toNat).map digits) 8 = sent :=
    getD_uint64?_digits sent 0
  rw [hreceived, hsent]

/-- The two headings, of which each has a bar. -/
def headingLines : List (List Char) :=
  ["Inter-".toList ++ '|' :: "   Receive                                                |  Transmit".toList,
    " face ".toList ++ '|' :: ("bytes    packets errs drop fifo frame compressed multicast".toList ++
      "|bytes    packets errs drop fifo colls carrier compressed".toList)]

/-- The heading is two lines with a bar each. -/
theorem toList_interfaceHeading : interfaceHeading.toList = headingLines.flatMap (· ++ ['\n']) := by
  have hheading : interfaceHeading =
      "Inter-" ++ "|" ++ "   Receive                                                |  Transmit" ++ "\n" ++
        (" face " ++ "|" ++ "bytes    packets errs drop fifo frame compressed multicast" ++
          "|bytes    packets errs drop fifo colls carrier compressed" ++ "\n") := by decide +kernel
  have hbar : "|".toList = ['|'] := rfl
  have hnewline : "\n".toList = ['\n'] := rfl
  simp only [hheading, headingLines, String.toList_append, hbar, hnewline, List.flatMap_cons,
    List.flatMap_nil, List.append_assoc, List.cons_append, List.nil_append, List.append_nil]

theorem isLine_of_mem_headingLines : ∀ line ∈ headingLines, IsLine line := by
  simp only [headingLines, String.reduceToList]
  decide

/-- A line with a bar is none of the rows. -/
theorem filterMap_headingLines : headingLines.filterMap Interface.ofLine? = [] := by
  have hbar : ∀ before after : List Char, Interface.ofLine? (before ++ '|' :: after) = none :=
    fun _ _ => Interface.ofLine?_of_bar (by simp)
  rw [headingLines, List.filterMap_cons, hbar, List.filterMap_cons, hbar, List.filterMap_nil]

/-- The table is the headings and the rows, one line after the other. -/
theorem toList_interfacesText (rows : List (String × UInt64 × UInt64)) :
    (interfacesText rows).toList =
      (headingLines ++ rows.map fun row => interfaceChars row.1 row.2.1 row.2.2).flatMap (· ++ ['\n']) := by
  rw [interfacesText, String.toList_append, toList_interfaceHeading, List.flatMap_append,
    String.toList_join]
  simp [List.flatMap_map, toList_interfaceLine]

/-- **A table of interfaces is read back**, with all its rows and in their order. -/
theorem parse_interfacesText {rows : List (String × UInt64 × UInt64)}
    (h : ∀ row ∈ rows, IsInterfaceName row.1) :
    Interface.parse (interfacesText rows) = rows.map fun row => ⟨row.1, row.2.1, row.2.2⟩ := by
  have hlines : lines (interfacesText rows).toList =
      headingLines ++ rows.map fun row => interfaceChars row.1 row.2.1 row.2.2 := by
    rw [toList_interfacesText, lines_flatMap]
    intro line hline
    rcases List.mem_append.mp hline with hline | hline
    · exact isLine_of_mem_headingLines line hline
    · obtain ⟨row, hrow, rfl⟩ := List.mem_map.mp hline
      exact isLine_interfaceChars (h row hrow) _ _
  have hrows : rows.filterMap (Interface.ofLine? ∘ fun row => interfaceChars row.1 row.2.1 row.2.2) =
      rows.filterMap (some ∘ fun row => ⟨row.1, row.2.1, row.2.2⟩) :=
    List.filterMap_congr fun row hrow => ofLine?_interfaceChars (h row hrow) _ _
  rw [Interface.parse, hlines, List.filterMap_append, filterMap_headingLines, List.nil_append,
    List.filterMap_map, hrows, List.filterMap_eq_map]

/-! ## Attributes -/

/-- **A capacity is read back**, the line feed behind it being trimmed. -/
theorem parse_capacityText (capacity : UInt32) : Attribute.parse (capacityText capacity) = .ok capacity := by
  have htrim : trim (capacityText capacity).toList = digits capacity.toNat := by
    have htext : (capacityText capacity).toList = digits capacity.toNat ++ ['\n'] := by
      simp [capacityText, ofNat]
    rw [htext, trim_append_blanks (List.forall_mem_singleton.mpr rfl), (trimmed_digits _).trim_eq]
  rw [Attribute.parse, htrim, uint32?_digits]

/-! ## The files of a host

Each text is put into a file of the host and read from there. The two files of a battery have different
names, so that neither is written over the other. -/

/-- A file that was just added is read as it is. -/
theorem read_addFile (h : MemoryHost) (p : Path) (content : String) :
    (h.apply (.addFile p content)).view.read p = .ok content := by
  rw [MemoryHost.view_read_eq_ok_iff, MemoryHost.file_apply, MemoryHost.Change.file?,
    if_pos (Path.Same.refl p), Option.getD_some]

/-- A capacity and a status stand in two files, however the battery is called. -/
theorem not_same_status_capacity (base : String) :
    ¬(Path.mk (base ++ "/status")).Same ⟨base ++ "/capacity"⟩ := by
  intro hsame
  have hstatus := Path.getLast?_components_append (w := "status") ⟨by decide, by decide, by decide⟩ base
  have hcapacity := Path.getLast?_components_append (w := "capacity") ⟨by decide, by decide, by decide⟩ base
  rw [String.append_assoc] at hstatus hcapacity
  have heq := hstatus.symm.trans ((congrArg List.getLast? hsame).trans hcapacity)
  exact absurd heq (by decide)

/-- The capacity file of a battery is read as it was set, although the status is set after it. -/
theorem read_capacity (h : MemoryHost) (name : String) (capacity : UInt32) (status : String) :
    (h.applyAll (setBattery name capacity status)).view.read
      ⟨"/sys/class/power_supply/" ++ name ++ "/capacity"⟩ = .ok (capacityText capacity) := by
  have hother := not_same_status_capacity ("/sys/class/power_supply/" ++ name)
  rw [setBattery, MemoryHost.applyAll_cons, MemoryHost.applyAll_cons, MemoryHost.applyAll_nil,
    MemoryHost.view_read_eq_ok_iff, MemoryHost.file_apply, MemoryHost.Change.file?, if_neg hother,
    Option.getD_none]
  exact MemoryHost.view_read_eq_ok_iff.mp (read_addFile h _ _)

/-- **A made-up host says what it was told.** Of the files that were set, as they are read from the host:
the processor statistics say the busy ticks as user time, the idle ticks and nothing else, add up to their
sum or to the largest word, and name four cores; the memory statistics say the three amounts; the table of
interfaces says its rows; and a battery's capacity file says its capacity. -/
theorem read_back (h : MemoryHost) (busy idle total free available : UInt64)
    {rows : List (String × UInt64 × UInt64)} (hrows : ∀ row ∈ rows, IsInterfaceName row.1)
    (name status : String) (capacity : UInt32) :
    (∃ text stat, (h.applyAll (setProcessor busy idle)).view.read ⟨"/proc/stat"⟩ = .ok text ∧
      CpuStat.parse text = .ok stat ∧ stat.aggregate = ⟨busy, 0, 0, idle, 0, 0, 0, 0⟩ ∧
      stat.aggregate.total.toNat = min (busy.toNat + idle.toNat) (2 ^ 64 - 1) ∧ stat.cores = 4) ∧
    (∃ text, (h.applyAll (setMemory total free available)).view.read ⟨"/proc/meminfo"⟩ = .ok text ∧
      MemInfo.parse text = ⟨total, free, available⟩) ∧
    (∃ text, (h.applyAll (setInterfaces rows)).view.read ⟨"/proc/net/dev"⟩ = .ok text ∧
      Interface.parse text = rows.map fun row => ⟨row.1, row.2.1, row.2.2⟩) ∧
    (∃ text, (h.applyAll (setBattery name capacity status)).view.read
        ⟨"/sys/class/power_supply/" ++ name ++ "/capacity"⟩ = .ok text ∧
      Attribute.parse text = .ok capacity) :=
  ⟨⟨_, _, read_addFile h _ _, parse_processorText busy idle, rfl, toNat_total_ticks busy idle, rfl⟩,
    ⟨_, read_addFile h _ _, parse_memoryText total free available⟩,
    ⟨_, read_addFile h _ _, parse_interfacesText hrows⟩,
    ⟨_, read_capacity h name capacity status, parse_capacityText capacity⟩⟩

/-- The largest word of busy ticks, and interfaces with no name, a blank and a carriage return inside, a
long name, and one name twice. -/
theorem read_back_rows :
    let rows : List (String × UInt64 × UInt64) :=
      [("", 1, 2), ("br 0\rx", 18446744073709551615, 0), ("enx00e04c680001", 7, 8), ("lo", 5, 5), ("lo", 6, 6)]
    (∀ row ∈ rows, IsInterfaceName row.1) ∧
      (∃ text stat, (laptop.applyAll (setProcessor 18446744073709551615 3)).view.read ⟨"/proc/stat"⟩ =
          .ok text ∧ CpuStat.parse text = .ok stat ∧ stat.aggregate.total.toNat = 2 ^ 64 - 1) ∧
      ∃ text, (laptop.applyAll (setInterfaces rows)).view.read ⟨"/proc/net/dev"⟩ = .ok text ∧
        Interface.parse text = rows.map fun row => ⟨row.1, row.2.1, row.2.2⟩ := by
  intro rows
  have hrows : ∀ row ∈ rows, IsInterfaceName row.1 := by decide
  obtain ⟨⟨text, stat, hread, hparse, _, htotal, _⟩, _, hinterfaces, _⟩ :=
    read_back laptop 18446744073709551615 3 0 0 0 hrows "BAT0" "Full" 100
  exact ⟨hrows, ⟨text, stat, hread, hparse, htotal⟩, hinterfaces⟩

end Scenario

end HostMeter
