import HostMeter.Counters.Processor
import HostMeter.Proofs.Text.Numerals
import Mathlib.Data.List.Forall2
import Mathlib.Data.List.TakeWhile
/-!
# Processor — what the processor statistics say

The reader goes through the lines once, with the ticks of the last aggregate line and a count of the
lines of cores. A step lemma says what one line does to the two. The run lemma says that the ticks are those
of the last aggregate line, if all of them are sound, and that every line of a core counts, wherever it
stands.

* `forall₂_leadingNumerals`, `CpuTimes.columns_ofColumns`: the columns are the leading numerals, filled up
  with zeros; `times_counted`: the tokens that have no influence.
* `Scan.step_eq`, `Scan.foldlM_step`: one line, and all lines.
* `parse_eq`: the reader in terms of the aggregate lines and the lines of cores of a text.
* `parse_of_sole_aggregate`: texts with one aggregate line, and texts without any.
-/

namespace HostMeter

open Text

/-! ## Columns

How many columns there are is not said anywhere in the text. Tokens are taken as far as they are numerals,
and eight at most. -/

/-- The first entries of a list, with zeros behind its end. -/
theorem CpuTimes.map_getD_range (cs : List UInt64) (k : Nat) :
    (List.range k).map (fun i => cs.getD i 0) = cs.take k ++ List.replicate (k - cs.length) 0 := by
  induction k generalizing cs with
  | zero => simp
  | succ k ih =>
    rw [List.range_succ_eq_map, List.map_cons, List.map_map]
    cases cs with
    | nil =>
      have hnil := ih []
      simp only [List.take_nil, List.nil_append, List.length_nil, Nat.sub_zero] at hnil ⊢
      rw [List.replicate_succ, ← hnil]
      rfl
    | cons c cs =>
      rw [List.take_succ_cons, List.length_cons, Nat.add_sub_add_right, List.cons_append, ← ih cs]
      rfl

/-- The columns of the times are the first eight of the list, and zeros in place of missing ones. -/
theorem CpuTimes.columns_ofColumns (cs : List UInt64) :
    (ofColumns cs).columns = cs.take 8 ++ List.replicate (8 - cs.length) 0 :=
  map_getD_range cs 8

namespace CpuStat

/-- The leading numerals are those of the longest leading run of tokens that are numerals of a word. -/
theorem forall₂_leadingNumerals (ws : List (List Char)) :
    List.Forall₂ (fun w n => IsNumeral w n.toNat) (ws.takeWhile IsWord64) (leadingNumerals ws) := by
  induction ws with
  | nil => exact .nil
  | cons w ws ih =>
    rw [List.takeWhile_cons, leadingNumerals]
    cases hw : uint64? w with
    | none =>
      have hword : ¬IsWord64 w := by rw [← isSome_uint64?_iff, hw]; exact Bool.false_ne_true
      rw [decide_eq_false hword]
      exact .nil
    | some n =>
      have hword : IsWord64 w := isSome_uint64?_iff.mp (by rw [hw]; rfl)
      rw [decide_eq_true hword]
      exact .cons (uint64?_eq_some_iff.mp hw) ih

/-- The tokens that the ticks depend on: no more than eight, and none from the first that is no numeral
of a word. -/
def counted (ws : List (List Char)) : List (List Char) := (ws.takeWhile IsWord64).take 8

theorem forall₂_counted (ws : List (List Char)) :
    List.Forall₂ (fun w n => IsNumeral w n.toNat) (counted ws) ((leadingNumerals ws).take 8) :=
  List.forall₂_take 8 (forall₂_leadingNumerals ws)

/-- A token is a numeral of one word at most, so the tokens that count determine the leading numerals. -/
theorem leadingNumerals_counted (ws : List (List Char)) :
    leadingNumerals (counted ws) = (leadingNumerals ws).take 8 := by
  have hself : (counted ws).takeWhile IsWord64 = counted ws := by
    refine List.takeWhile_eq_self_iff.mpr fun w hw => ?_
    have hrun : w ∈ ws.takeWhile IsWord64 := List.mem_of_mem_take hw
    have hword := List.mem_takeWhile_imp hrun
    exact hword
  have hread := forall₂_leadingNumerals (counted ws)
  rw [hself] at hread
  refine List.right_unique_forall₂' (fun w n m hn hm => ?_) hread (forall₂_counted ws)
  exact Option.some.inj ((uint64?_eq_some_iff.mpr hn).symm.trans (uint64?_eq_some_iff.mpr hm))

/-- A leading run is long enough if all that many elements belong to it. -/
theorem le_length_takeWhile_iff {α : Type} {p : α → Prop} [DecidablePred p] {as : List α} {k : Nat} :
    k ≤ (as.takeWhile p).length ↔ k ≤ as.length ∧ ∀ a ∈ as.take k, p a := by
  induction as generalizing k with
  | nil => simp
  | cons a as ih =>
    cases k with
    | zero => simp
    | succ k =>
      rw [List.takeWhile_cons, List.take_succ_cons, List.forall_mem_cons]
      by_cases ha : p a
      · simp [ha, ih]
      · simp [ha]

/-! ## The aggregate line

Old kernels write four columns. A line with fewer leading numerals is refused. -/

/-- An aggregate line is accepted with four leading numerals, and its ticks are the columns. -/
theorem times_eq_ok_iff {ws : List (List Char)} {t : CpuTimes} :
    times ws = .ok t ↔ 4 ≤ (leadingNumerals ws).length ∧ CpuTimes.ofColumns (leadingNumerals ws) = t := by
  by_cases hshort : (leadingNumerals ws).length < 4
  · simp [times, hshort, Nat.not_le.mpr hshort]
  · simp [times, hshort, Nat.not_lt.mp hshort]

/-- An aggregate line is sound if its first four columns are. -/
theorem exists_times_iff {ws : List (List Char)} :
    (∃ t, times ws = .ok t) ↔ 4 ≤ ws.length ∧ ∀ w ∈ ws.take 4, IsWord64 w := by
  rw [← le_length_takeWhile_iff, (forall₂_leadingNumerals ws).length_eq]
  simp [times_eq_ok_iff]

/-- Tokens past the eighth, or from the first that is no numeral of a word, have no influence. -/
theorem times_counted (ws : List (List Char)) : times (counted ws) = times ws := by
  have hlength : ((leadingNumerals ws).take 8).length < 4 ↔ (leadingNumerals ws).length < 4 := by
    rw [List.length_take]
    omega
  have hcolumns :
      CpuTimes.ofColumns ((leadingNumerals ws).take 8) = CpuTimes.ofColumns (leadingNumerals ws) := by
    simp [CpuTimes.ofColumns, List.getD_eq_getElem?_getD]
  simp only [times, leadingNumerals_counted, hlength, hcolumns]

/-! ## One line, and all lines

The reader goes through the lines with a state, of the last ticks and the number of cores. Told without the
state, it reads all aggregate lines and counts those of cores. -/

/-- The tokens after the label, for an aggregate line. -/
def aggregateTokens? : List (List Char) → Option (List (List Char))
  | label :: ws => if label = aggregateLabel then some ws else none
  | [] => none

def isCoreRow : List (List Char) → Bool
  | label :: _ => isCoreLabel label
  | [] => false

/-- An aggregate line is not that of a core. -/
theorem isCoreRow_of_aggregateTokens? {row ws : List (List Char)}
    (h : aggregateTokens? row = some ws) : isCoreRow row = false := by
  cases row with
  | nil => rfl
  | cons label tail =>
    rw [aggregateTokens?] at h
    split at h
    · next hlabel =>
      rw [hlabel]
      rfl
    · cases h

namespace Scan

/-- **One line**: ticks if it is an aggregate line, one more core if it is that of a core, and nothing
otherwise. -/
theorem step_eq (s : Scan) (row : List (List Char)) :
    s.step row = match aggregateTokens? row with
      | some ws => (times ws).map fun t => { s with aggregate := some t }
      | none => .ok { s with cores := s.cores + UInt32.ofNat (isCoreRow row).toNat } := by
  cases row with
  | nil => rw [step, aggregateTokens?, isCoreRow]; simp
  | cons label ws =>
    rw [step, aggregateTokens?, isCoreRow]
    split
    · rfl
    · cases isCoreLabel label <;> simp

/-- **All lines**: the last aggregate line, if each of them is sound, and the lines of cores. -/
theorem foldlM_step (s : Scan) (rows : List (List (List Char))) :
    rows.foldlM step s = ((rows.filterMap aggregateTokens?).mapM times).map fun ts =>
      ⟨ts.getLast?.or s.aggregate, s.cores + UInt32.ofNat (rows.countP isCoreRow)⟩ := by
  induction rows generalizing s with
  | nil => simp [Except.map, pure, Except.pure]
  | cons row rows ih =>
    rw [List.foldlM_cons, step_eq, List.filterMap_cons, List.countP_cons]
    cases hrow : aggregateTokens? row with
    -- no aggregate line, but it may be that of a core
    | none =>
      have hcores : s.cores + UInt32.ofNat (isCoreRow row).toNat +
          UInt32.ofNat (rows.countP isCoreRow) =
          s.cores + UInt32.ofNat (rows.countP isCoreRow + if isCoreRow row then 1 else 0) := by
        rw [UInt32.add_assoc, ← UInt32.ofNat_add, Nat.add_comm]
        cases isCoreRow row <;> rfl
      show rows.foldlM step _ = _
      rw [ih, hcores]
    -- an aggregate line, which has to be sound
    | some ws =>
      dsimp only
      rw [isCoreRow_of_aggregateTokens? hrow, List.mapM_cons]
      cases times ws with
      | error f => rfl
      | ok t =>
        show rows.foldlM step _ = _
        rw [ih]
        cases (rows.filterMap aggregateTokens?).mapM times with
        | error f => rfl
        | ok ts =>
          simp [Except.map, bind, Except.bind, pure, Except.pure, List.getLast?_cons]

end Scan

/-- The reader without a state. -/
theorem ofRows_eq (rows : List (List (List Char))) :
    ofRows rows = (rows.filterMap aggregateTokens?).mapM times >>= fun ts =>
      Scan.finish ⟨ts.getLast?, UInt32.ofNat (rows.countP isCoreRow)⟩ := by
  rw [ofRows, Scan.foldlM_step]
  cases (rows.filterMap aggregateTokens?).mapM times with
  | error f => rfl
  | ok ts =>
    show Scan.finish ⟨ts.getLast?.or none, 0 + UInt32.ofNat (rows.countP isCoreRow)⟩ = Scan.finish _
    rw [Option.or_none, UInt32.zero_add]

/-! ## Texts

Lines, as they stand in the file. -/

/-- Is the first token of the line the label `cpu`? -/
def IsAggregateLine (line : List Char) : Prop := (words line).head? = some aggregateLabel

instance : DecidablePred IsAggregateLine := fun line =>
  inferInstanceAs (Decidable ((words line).head? = some aggregateLabel))

/-- Is the first token of the line `cpu` with digits behind it and nothing else? -/
def IsCoreLine (line : List Char) : Prop :=
  ∃ ds, (words line).head? = some (aggregateLabel ++ ds) ∧ ds ≠ [] ∧ ∀ c ∈ ds, c.isDigit = true

/-- The label of a core has digits behind the letters, and nothing else. -/
theorem isCoreLabel_iff {w : List Char} :
    isCoreLabel w = true ↔ ∃ ds, w = aggregateLabel ++ ds ∧ ds ≠ [] ∧ ∀ c ∈ ds, c.isDigit = true := by
  unfold isCoreLabel
  split
  · next ds => simp [aggregateLabel]
  · next hother =>
    constructor
    · intro h
      cases h
    · rintro ⟨ds, rfl, -⟩
      exact absurd rfl (hother ds)

/-- The line of a core is told by its first token. -/
theorem isCoreRow_words_iff {line : List Char} : isCoreRow (words line) = true ↔ IsCoreLine line := by
  unfold IsCoreLine
  cases words line with
  | nil => simp [isCoreRow]
  | cons label ws => simp [isCoreRow, isCoreLabel_iff]

instance : DecidablePred IsCoreLine := fun _ => decidable_of_iff _ isCoreRow_words_iff

/-- The tokens of a line behind its label. -/
def tokens (line : List Char) : List (List Char) := (words line).tail

def aggregateLines (text : String) : List (List Char) := (lines text.toList).filter IsAggregateLine

def coreLineCount (text : String) : Nat := (lines text.toList).countP IsCoreLine

/-- An aggregate line has its tokens behind the label. -/
theorem aggregateTokens?_words (line : List Char) :
    aggregateTokens? (words line) = if IsAggregateLine line then some (tokens line) else none := by
  rw [tokens]
  cases hwords : words line with
  | nil =>
    have hother : ¬IsAggregateLine line := by simp [IsAggregateLine, hwords]
    rw [if_neg hother]
    rfl
  | cons label ws =>
    have hlabel : IsAggregateLine line ↔ label = aggregateLabel := by simp [IsAggregateLine, hwords]
    simp only [hlabel]
    rfl

/-- **The reader of texts**: every aggregate line has to be sound and the last one counts, and the cores
are the lines of cores. -/
theorem parse_eq (text : String) :
    parse text = ((aggregateLines text).map tokens).mapM times >>= fun ts =>
      Scan.finish ⟨ts.getLast?, UInt32.ofNat (coreLineCount text)⟩ := by
  have haggregates : ((lines text.toList).map words).filterMap aggregateTokens? =
      (aggregateLines text).map tokens := by
    rw [aggregateLines, List.filterMap_map, ← List.filterMap_eq_map, List.filterMap_filter]
    refine List.filterMap_congr fun line _ => ?_
    rw [Function.comp_apply, aggregateTokens?_words]
    simp
  have hcores : ((lines text.toList).map words).countP isCoreRow = coreLineCount text := by
    rw [coreLineCount, List.countP_map]
    exact List.countP_congr fun line _ => by simp [isCoreRow_words_iff]
  rw [parse, ofRows_eq, haggregates, hcores]

/-- With one aggregate line, the reader gives the ticks on it and the number of the lines of cores. -/
theorem parse_eq_of_sole {text : String} {line : List Char} (h : aggregateLines text = [line]) :
    parse text = (times (tokens line)).map fun t => ⟨t, UInt32.ofNat (coreLineCount text)⟩ := by
  rw [parse_eq, h, List.map_singleton, List.mapM_cons, List.mapM_nil]
  cases times (tokens line) <;> rfl

/-- **Texts with one aggregate line, and texts without.** Without such a line a text is refused. With one,
and with fewer lines than a word of 32 bits counts:
* it is accepted exactly if the line has at least four tokens behind its label and the first four are
  numerals of a word;
* then the ticks are the leading tokens that are, no more than eight, with zeros in place of missing ones,
  and the cores are the lines whose label is `cpu` and a number;
* no other token of the line has any influence. -/
theorem parse_of_sole_aggregate (text : String) :
    (aggregateLines text = [] → ∃ f, parse text = .error f) ∧
    ∀ line, aggregateLines text = [line] → (lines text.toList).length < 2 ^ 32 →
      ((∃ stat, parse text = .ok stat) ↔
        4 ≤ (tokens line).length ∧ ∀ w ∈ (tokens line).take 4, IsWord64 w) ∧
      (∀ stat, parse text = .ok stat →
        (∃ ns, List.Forall₂ (fun w n => IsNumeral w n.toNat) (counted (tokens line)) ns ∧
          stat.aggregate.columns = ns ++ List.replicate (8 - ns.length) 0) ∧
        stat.cores.toNat = coreLineCount text) ∧
      ∀ text' line', aggregateLines text' = [line'] → coreLineCount text' = coreLineCount text →
        counted (tokens line') = counted (tokens line) → parse text' = parse text := by
  refine ⟨fun hnone => ⟨.noAggregate, by rw [parse_eq, hnone]; rfl⟩, fun line hline hlength => ?_⟩
  have hparse := parse_eq_of_sole hline
  refine ⟨?_, ?_, ?_⟩
  · -- it is accepted exactly with four leading numerals
    rw [← exists_times_iff, hparse]
    cases times (tokens line) <;> simp [Except.map]
  · -- the ticks are the columns, and the cores are counted anywhere
    intro stat hstat
    rw [hparse] at hstat
    cases htimes : times (tokens line) with
    | error f =>
      rw [htimes] at hstat
      cases hstat
    | ok t =>
      rw [htimes] at hstat
      cases hstat
      obtain ⟨-, rfl⟩ := times_eq_ok_iff.mp htimes
      refine ⟨⟨_, forall₂_counted (tokens line), ?_⟩, ?_⟩
      · rw [CpuTimes.columns_ofColumns, List.length_take]
        congr 2
        omega
      · exact UInt32.toNat_ofNat_of_lt' (Nat.lt_of_le_of_lt List.countP_le_length hlength)
  · -- nothing else in the text matters
    intro text' line' hline' hcores hcounted
    rw [parse_eq_of_sole hline', hparse, hcores, ← times_counted, hcounted, times_counted]

/-- An aggregate line between two lines of cores: its fifth column is no numeral, so it is zero, and what
follows it does not matter. -/
theorem parse_of_sole_aggregate_garbled :
    let text := "cpu3 1\ncpu\t+1 002 3 4 x 6\n cpu12 9 9\ncpux 1\n"
    let text' := "cpu +1 002 3 4 y\ncpu0\r\ncpu1"
    aggregateLines text = ["cpu\t+1 002 3 4 x 6".toList] ∧ (lines text.toList).length < 2 ^ 32 ∧
      parse text' = parse text ∧
      (∃ stat, parse text = .ok stat ∧ stat.cores.toNat = 2 ∧
        ∃ ns, List.Forall₂ (fun w n => IsNumeral w n.toNat)
          ["+1".toList, "002".toList, "3".toList, "4".toList] ns ∧
          stat.aggregate.columns = ns ++ List.replicate (8 - ns.length) 0) ∧
      aggregateLines "cpu0 1 2 3 4" = [] ∧ ∃ f, parse "cpu0 1 2 3 4" = .error f := by
  intro text text'
  have hline : aggregateLines text = ["cpu\t+1 002 3 4 x 6".toList] := by decide +kernel
  have hline' : aggregateLines text' = ["cpu +1 002 3 4 y".toList] := by decide +kernel
  have hlength : (lines text.toList).length < 2 ^ 32 := by decide +kernel
  have hcounted : counted (tokens "cpu\t+1 002 3 4 x 6".toList) =
      ["+1".toList, "002".toList, "3".toList, "4".toList] := by decide +kernel
  have hnone : aggregateLines "cpu0 1 2 3 4" = [] := by decide +kernel
  obtain ⟨haccepted, hread, hsame⟩ := (parse_of_sole_aggregate text).2 _ hline hlength
  obtain ⟨stat, hstat⟩ := haccepted.mpr (by decide +kernel)
  obtain ⟨hcolumns, hcores⟩ := hread stat hstat
  refine ⟨hline, hlength, hsame text' _ hline' (by decide +kernel) (by decide +kernel),
    ⟨stat, hstat, ?_, ?_⟩, hnone, (parse_of_sole_aggregate _).1 hnone⟩
  · rw [hcores]
    decide +kernel
  · rwa [hcounted] at hcolumns

end CpuStat

end HostMeter
