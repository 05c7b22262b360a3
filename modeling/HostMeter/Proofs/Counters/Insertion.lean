import HostMeter.Proofs.Counters.Interface
import HostMeter.Proofs.Counters.Memory
import HostMeter.Proofs.Counters.Processor
/-!
# Insertion — one more line in a text of the kernel

The kernel adds lines to its texts from one version to the next. Each of the three readers goes by the
lines that it knows, so a line of another kind makes no difference to it, wherever it is put and however it
ends, and one more row of the table of interfaces is one more interface at the place of the row.

* `CpuStat.row?`, `CpuStat.foldlM_rows`: the processor statistics without the lines of other kinds.
* `CpuStat.parse_of_inserted`, `MemInfo.parse_of_inserted`, `Interface.parse_of_inserted`: one more line,
  for each of the readers.
* `counters_of_inserted`: what none of them notices, and what a row adds.
-/

namespace HostMeter

open Text

/-! ## Processor time

The reader keeps a state along the lines. Lines of other kinds do not touch it, so they can be left out
before the reading starts. -/

namespace CpuStat

/-- The tokens of a line that says something about processors. -/
def row? (line : List Char) : Option (List (List Char)) :=
  if IsAggregateLine line ∨ IsCoreLine line then some (words line) else none

theorem row?_eq_none_iff {line : List Char} :
    row? line = none ↔ ¬IsAggregateLine line ∧ ¬IsCoreLine line := by
  simp [row?]

/-- Rows are read line by line, carriage returns or not. -/
theorem lineWise_row? : LineWise row? where
  nil := by decide
  concat_return line := by
    have haggregate : IsAggregateLine (line ++ ['\r']) ↔ IsAggregateLine line := by
      rw [IsAggregateLine, words_concat_return, IsAggregateLine]
    have hcore : IsCoreLine (line ++ ['\r']) ↔ IsCoreLine line := by
      rw [IsCoreLine, words_concat_return, IsCoreLine]
    exact if_congr (or_congr haggregate hcore) (congrArg some (words_concat_return line)) rfl

/-- A line of another kind leaves everything as it is. -/
theorem Scan.step_of_row?_eq_none {line : List Char} (h : row? line = none) (s : Scan) :
    s.step (words line) = .ok s := by
  obtain ⟨haggregate, hcore⟩ := row?_eq_none_iff.mp h
  rw [← isCoreRow_words_iff] at hcore
  rw [Scan.step_eq, aggregateTokens?_words, if_neg haggregate, Bool.eq_false_iff.mpr hcore]
  exact congrArg (fun cores => Except.ok { s with cores }) (UInt32.add_zero s.cores)

/-- **All lines**: those of other kinds can be left out. -/
theorem foldlM_rows (s : Scan) (ls : List (List Char)) :
    (ls.map words).foldlM Scan.step s = (ls.filterMap row?).foldlM Scan.step s := by
  induction ls generalizing s with
  | nil => rfl
  | cons line ls ih =>
    rw [List.map_cons, List.foldlM_cons]
    cases hrow : row? line with
    | none =>
      rw [List.filterMap_cons_none hrow, Scan.step_of_row?_eq_none hrow]
      exact ih s
    | some row =>
      obtain ⟨-, rfl⟩ : _ ∧ words line = row := by simpa [row?] using hrow
      rw [List.filterMap_cons_some hrow, List.foldlM_cons]
      exact congrArg _ (funext ih)

theorem parse_eq_ofRows (text : String) : parse text = ofRows ((lines text.toList).filterMap row?) := by
  rw [parse, ofRows, foldlM_rows, ofRows]

/-- An inserted line that says nothing about processors makes no difference. -/
theorem parse_of_inserted {line a b text : String} (hline : '\n' ∉ line.toList)
    (hinserted : Inserted line a b text) (haggregate : ¬IsAggregateLine line.toList)
    (hcore : ¬IsCoreLine line.toList) : parse text = parse (a ++ b) := by
  have hrow : row? line.toList = none := row?_eq_none_iff.mpr ⟨haggregate, hcore⟩
  rw [parse_eq_ofRows, lineWise_row?.eq_of_inserted hline hinserted hrow, ← parse_eq_ofRows]

end CpuStat

/-! ## Memory

A field has an entry on the lines that start with its label. -/

/-- An inserted line without a label of the memory makes no difference. -/
theorem MemInfo.parse_of_inserted {line a b text : String} (hline : '\n' ∉ line.toList)
    (hinserted : Inserted line a b text) (hlabel : ∀ f : Field, ¬f.label <+: line.toList) :
    parse text = parse (a ++ b) := by
  have hentry : entryOf? line.toList = none := by rw [entryOf?, field?_eq_none_iff.mpr hlabel, Option.map_none]
  rw [parse_eq, lineWise_entryOf?.eq_of_inserted hline hinserted hentry, ← parse_eq]

/-! ## Interfaces

Each row stands for itself, so an inserted line shows only as itself. -/

namespace Interface

/-- An inserted line adds its interface between those of the two parts, or nothing. -/
theorem parse_of_inserted {line a b text : String} (hline : '\n' ∉ line.toList)
    (hinserted : Inserted line a b text) :
    parse text = parse a ++ (ofLine? line.toList).toList ++ parse b :=
  lineWise_ofLine?.of_inserted hline hinserted

/-- A table is read in parts at the place of an insertion. -/
theorem parse_of_parts {line a b text : String} (hinserted : Inserted line a b text) :
    parse (a ++ b) = parse a ++ parse b :=
  lineWise_ofLine?.of_parts hinserted

end Interface

/-! ## All three

The three formats together, and what the order of the lines means to two of them. -/

/-- **Lines that the readers of the kernel's texts do not know make no difference to them.** Whatever stands
before a place where a line can stand and behind it, and however the lines end, a line put there

* leaves the processor statistics as they are, be they accepted or refused, if its first token is neither
  `cpu` nor `cpu` and a number;
* leaves the amounts of memory as they are if it starts with none of the three labels, and where no label
  starts two lines the order of all lines does not matter either;
* leaves the interfaces as they are if it has a bar, no colon, or too few tokens behind its first colon;
* and adds just its own interface at its own place if it is a row. -/
theorem counters_of_inserted :
    (∀ line a b text : String, '\n' ∉ line.toList → Inserted line a b text →
      (¬CpuStat.IsAggregateLine line.toList → ¬CpuStat.IsCoreLine line.toList →
        CpuStat.parse text = CpuStat.parse (a ++ b)) ∧
      ((∀ f : MemInfo.Field, ¬f.label <+: line.toList) → MemInfo.parse text = MemInfo.parse (a ++ b)) ∧
      ('|' ∈ line.toList ∨ ':' ∉ line.toList ∨
        (∃ name rest, line.toList = name ++ ':' :: rest ∧ ':' ∉ name ∧ (words rest).length < 9) →
          Interface.parse text = Interface.parse (a ++ b)) ∧
      ∀ i, Interface.IsRow line.toList i →
        Interface.parse (a ++ b) = Interface.parse a ++ Interface.parse b ∧
        Interface.parse text = Interface.parse a ++ i :: Interface.parse b) ∧
    ∀ text text' : String,
      (∀ f : MemInfo.Field, (lines text.toList).countP f.label.isPrefixOf ≤ 1) →
      ((lines text.toList).map dropReturn).Perm ((lines text'.toList).map dropReturn) →
        MemInfo.parse text' = MemInfo.parse text := by
  refine ⟨fun line a b text hline hinserted => ⟨?_, ?_, fun hother => ?_, fun i hrow => ?_⟩, fun text text' => ?_⟩
  · exact CpuStat.parse_of_inserted hline hinserted
  · exact MemInfo.parse_of_inserted hline hinserted
  · rw [Interface.parse_of_inserted hline hinserted, Interface.ofLine?_eq_none_iff.mpr hother,
      Option.toList_none, List.append_nil, Interface.parse_of_parts hinserted]
  · refine ⟨Interface.parse_of_parts hinserted, ?_⟩
    rw [Interface.parse_of_inserted hline hinserted, Interface.ofLine?_eq_some_iff.mpr hrow,
      Option.toList_some, List.append_assoc, List.singleton_append]
  · exact MemInfo.parse_of_perm

/-- A line with a bar in a text whose lines end in both ways, a row behind a last line that has no end, and
the amounts of memory in both orders. -/
theorem counters_of_inserted_mixed :
    let stat := "cpu 1 2 3 4\r\n"
    let cores := "cpu0 1\ncpu1 1"
    let meminfo := "MemTotal: 5 kB\n"
    let other := " MemFree: cpu 7|"
    let row := "wlan0:1 2 3 4 5 6 7 8 9"
    CpuStat.parse (stat ++ other ++ "\r\n" ++ cores) = CpuStat.parse (stat ++ cores) ∧
      MemInfo.parse (meminfo ++ "\n" ++ other ++ "") = MemInfo.parse (meminfo ++ "") ∧
      Interface.parse (row ++ "\r\n" ++ other ++ "\n") = Interface.parse (row ++ "") ∧
      Interface.parse (other ++ "\n" ++ row ++ "") =
        Interface.parse other ++ ⟨"wlan0", 1, 9⟩ :: Interface.parse "" ∧
      MemInfo.parse "MemTotal: 5 kB\nMemFree: 2 kB" = MemInfo.parse "MemFree: 2 kB\r\nMemTotal: 5 kB\r\n" := by
  intro stat cores meminfo other row
  have hother : '\n' ∉ other.toList := by decide
  have hstat : Inserted other stat cores (stat ++ other ++ "\r\n" ++ cores) :=
    .between (Or.inr ⟨"cpu 1 2 3 4\r".toList, by decide⟩) (Or.inr (by decide))
  have hmeminfo : Inserted other meminfo "" (meminfo ++ "\n" ++ other ++ "") :=
    .atEnd (Or.inr (Or.inl (by decide))) (Or.inl rfl)
  have hrow : Inserted other row "" (row ++ "\r\n" ++ other ++ "\n") :=
    .atEnd (Or.inr (Or.inr (by decide))) (Or.inr (Or.inl (by decide)))
  have hnew : Inserted row other "" (other ++ "\n" ++ row ++ "") :=
    .atEnd (Or.inr (Or.inl (by decide))) (Or.inl rfl)
  refine ⟨?_, ?_, ?_, ?_, ?_⟩
  · exact (counters_of_inserted.1 _ _ _ _ hother hstat).1 (by decide +kernel) (by decide +kernel)
  · exact (counters_of_inserted.1 _ _ _ _ hother hmeminfo).2.1 fun f => by cases f <;> decide
  · exact (counters_of_inserted.1 _ _ _ _ hother hrow).2.2.1 (Or.inl (by decide))
  · have hwlan : Interface.IsRow row.toList ⟨"wlan0", 1, 9⟩ :=
      Interface.ofLine?_eq_some_iff.mp (by decide +kernel)
    exact ((counters_of_inserted.1 _ _ _ _ (by decide) hnew).2.2.2 _ hwlan).2
  · exact counters_of_inserted.2 _ _ (fun f => by cases f <;> decide +kernel) (by decide +kernel)

end HostMeter
