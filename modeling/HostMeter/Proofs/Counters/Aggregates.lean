import HostMeter.Proofs.Counters.Processor
/-!
# Aggregates — texts with several aggregate lines

The kernel writes one aggregate line. The reader goes through the whole text, so of several such lines each
has to be sound, and each puts its ticks in the place of those before it: what is left are the ticks of the
last. The first line alone decides nothing, unless the last one repeats it.

* `IsSound`, `Carries`: what the reader asks of an aggregate line, and the ticks on it.
* `times_eq_ok_iff_carries`, `times_eq_error_iff`: one line.
* `mapM_times_of_sound`, `mapM_times_of_unsound`: all lines.
* `ticks_of_aggregates`: when a text is refused and for what reason, and which line has the ticks.
-/

namespace HostMeter.CpuStat

open Text

/-! ## One line

Soundness and the ticks on a line are told by its tokens, without the function that reads them. -/

/-- Are there at least four numbers behind the label of the line? -/
def IsSound (line : List Char) : Prop :=
  4 ≤ (tokens line).length ∧ ∀ w ∈ (tokens line).take 4, IsWord64 w

instance : DecidablePred IsSound := fun line =>
  inferInstanceAs (Decidable (4 ≤ (tokens line).length ∧ ∀ w ∈ (tokens line).take 4, IsWord64 w))

/-- Are these the ticks on the line: its leading numbers, no more than eight, with zeros in place of
missing ones? -/
def Carries (line : List Char) (t : CpuTimes) : Prop :=
  ∃ ns, List.Forall₂ (fun w n => IsNumeral w n.toNat) (counted (tokens line)) ns ∧
    t.columns = ns ++ List.replicate (8 - ns.length) 0

/-- There are no two ways to read a line. -/
theorem Carries.unique {line : List Char} {t t' : CpuTimes} (h : Carries line t) (h' : Carries line t') :
    t = t' := by
  obtain ⟨ns, hns, hcolumns⟩ := h
  obtain ⟨ns', hns', hcolumns'⟩ := h'
  have hsame : ns = ns' := by
    refine List.right_unique_forall₂' (fun w n m hn hm => ?_) hns hns'
    exact Option.some.inj ((uint64?_eq_some_iff.mpr hn).symm.trans (uint64?_eq_some_iff.mpr hm))
  rw [hsame, ← hcolumns'] at hcolumns
  rw [← CpuTimes.ofColumns_columns t, hcolumns, CpuTimes.ofColumns_columns]

/-- The columns that the program reads off a line are the ticks on it. -/
theorem carries_ofColumns (line : List Char) :
    Carries line (CpuTimes.ofColumns (leadingNumerals (tokens line))) := by
  refine ⟨_, forall₂_counted (tokens line), ?_⟩
  rw [CpuTimes.columns_ofColumns, List.length_take]
  congr 2
  omega

/-- A line gives ticks exactly if it is sound, and then those on it. -/
theorem times_eq_ok_iff_carries {line : List Char} {t : CpuTimes} :
    times (tokens line) = .ok t ↔ IsSound line ∧ Carries line t := by
  have hread : ∀ {t'}, times (tokens line) = .ok t' → Carries line t' := by
    intro t' h
    obtain ⟨-, rfl⟩ := times_eq_ok_iff.mp h
    exact carries_ofColumns line
  constructor
  · intro h
    exact ⟨exists_times_iff.mp ⟨t, h⟩, hread h⟩
  · rintro ⟨hsound, hcarries⟩
    obtain ⟨t', ht'⟩ := exists_times_iff.mpr hsound
    rwa [hcarries.unique (hread ht')]

/-- A line that is not sound is refused, always for the same reason. -/
theorem times_eq_error_iff {line : List Char} {f : FormatFault} :
    times (tokens line) = .error f ↔ ¬IsSound line ∧ f = .shortAggregate := by
  have hsound : IsSound line ↔ ∃ t, times (tokens line) = .ok t := exists_times_iff.symm
  rw [hsound, times]
  split
  · simp [eq_comm]
  · simp

/-! ## All lines

The aggregate lines are read one after the other, and each has to be sound, although only the last one
counts. -/

/-- Sound lines give the ticks on them, line by line. -/
theorem mapM_times_of_sound {ls : List (List Char)} (h : ∀ line ∈ ls, IsSound line) :
    ∃ ts, (ls.map tokens).mapM times = .ok ts ∧ List.Forall₂ Carries ls ts := by
  induction ls with
  | nil => exact ⟨[], rfl, .nil⟩
  | cons line ls ih =>
    obtain ⟨hline, hrest⟩ := List.forall_mem_cons.mp h
    obtain ⟨t, ht⟩ := exists_times_iff.mpr hline
    obtain ⟨ts, hts, hcarries⟩ := ih hrest
    refine ⟨t :: ts, ?_, .cons (times_eq_ok_iff_carries.mp ht).2 hcarries⟩
    rw [List.map_cons, List.mapM_cons, ht, hts]
    rfl

/-- Whichever of the lines is unsound, and whatever stands on the others, the fault is the same. -/
theorem mapM_times_of_unsound {ls : List (List Char)} (h : ∃ line ∈ ls, ¬IsSound line) :
    (ls.map tokens).mapM times = .error .shortAggregate := by
  induction ls with
  | nil =>
    obtain ⟨line, hline, _⟩ := h
    cases hline
  | cons line ls ih =>
    rw [List.map_cons, List.mapM_cons]
    cases htimes : times (tokens line) with
    -- this line is unsound itself
    | error f =>
      rw [(times_eq_error_iff.mp htimes).2]
      rfl
    | ok t =>
      -- this line is sound, so the unsound one is a later one
      have hlater : ∃ l ∈ ls, ¬IsSound l := by
        obtain ⟨l, hl, hunsound⟩ := h
        rcases List.mem_cons.mp hl with rfl | hl
        · exact absurd (times_eq_ok_iff_carries.mp htimes).1 hunsound
        · exact ⟨l, hl, hunsound⟩
      rw [ih hlater]
      rfl

/-! ## Texts

What comes of a text, and when it is what its first aggregate line says. -/

/-- **The last aggregate line has the ticks**, if all of them are sound. -/
theorem parse_of_sound {text : String} {before : List (List Char)} {line : List Char}
    (hlines : aggregateLines text = before ++ [line]) (h : ∀ l ∈ aggregateLines text, IsSound l) :
    ∃ t, parse text = .ok ⟨t, UInt32.ofNat (coreLineCount text)⟩ ∧ Carries line t := by
  obtain ⟨ts, hts, hcarries⟩ := mapM_times_of_sound h
  -- read from the end, the ticks of the last line come first
  rw [hlines] at hcarries
  have hback := List.forall₂_reverse_iff.mpr hcarries
  rw [List.reverse_append, List.reverse_singleton, List.singleton_append] at hback
  obtain ⟨t, _, ht, _, hreverse⟩ := List.forall₂_cons_left_iff.mp hback
  have hlast : ts.getLast? = some t := by rw [List.getLast?_eq_head?_reverse, hreverse, List.head?_cons]
  refine ⟨t, ?_, ht⟩
  rw [parse_eq, hts]
  show Scan.finish ⟨ts.getLast?, _⟩ = _
  rw [hlast]
  rfl

/-- One unsound aggregate line, and the text is refused. -/
theorem parse_of_unsound {text : String} (h : ∃ line ∈ aggregateLines text, ¬IsSound line) :
    parse text = .error .shortAggregate := by
  rw [parse_eq, mapM_times_of_unsound h]
  rfl

/-- A text without an aggregate line is refused. -/
theorem parse_of_none {text : String} (h : aggregateLines text = []) : parse text = .error .noAggregate := by
  rw [parse_eq, h]
  rfl

/-- What can come of a text. -/
inductive Outcome (text : String) : Except FormatFault CpuStat → Prop where
  | none (hlines : aggregateLines text = []) : Outcome text (.error .noAggregate)
  | unsound (hlines : ∃ line ∈ aggregateLines text, ¬IsSound line) : Outcome text (.error .shortAggregate)
  | last {before line stat} (hlines : aggregateLines text = before ++ [line])
      (hsound : ∀ l ∈ aggregateLines text, IsSound l) (hticks : Carries line stat.aggregate) :
      Outcome text (.ok stat)

/-- **There are three ends for a text**, and they exclude each other. -/
theorem outcome_parse (text : String) : Outcome text (parse text) := by
  by_cases hunsound : ∃ line ∈ aggregateLines text, ¬IsSound line
  · rw [parse_of_unsound hunsound]
    exact .unsound hunsound
  · rcases List.eq_nil_or_concat' (aggregateLines text) with hnil | ⟨before, line, hlines⟩
    · rw [parse_of_none hnil]
      exact .none hnil
    · have hsound : ∀ l ∈ aggregateLines text, IsSound l := by simpa using hunsound
      obtain ⟨t, hparse, ht⟩ := parse_of_sound hlines hsound
      rw [hparse]
      exact .last hlines hsound ht

/-- The first fault says that there is no aggregate line. -/
theorem parse_eq_noAggregate_iff {text : String} :
    parse text = .error .noAggregate ↔ aggregateLines text = [] := by
  refine ⟨fun h => ?_, parse_of_none⟩
  have houtcome := outcome_parse text
  rw [h] at houtcome
  cases houtcome with
  | none hlines => exact hlines

/-- The second one says that one of them is unsound. -/
theorem parse_eq_shortAggregate_iff {text : String} :
    parse text = .error .shortAggregate ↔ ∃ line ∈ aggregateLines text, ¬IsSound line := by
  refine ⟨fun h => ?_, parse_of_unsound⟩
  have houtcome := outcome_parse text
  rw [h] at houtcome
  cases houtcome with
  | unsound hlines => exact hlines

/-- The last of some lines, seen from the first one. -/
theorem eq_getLast?_of_cons {α : Type} {first last : α} {later before : List α}
    (h : first :: later = before ++ [last]) : last = later.getLast?.getD first := by
  have hlast := congrArg List.getLast? h
  rw [List.getLast?_concat, List.getLast?_cons] at hlast
  exact (Option.some.inj hlast).symm

/-- **When the first aggregate line has the ticks**: the lines behind it are sound, and the last of them
repeats it. -/
theorem carries_first_iff {text : String} {first : List Char} {later : List (List Char)}
    (hlines : aggregateLines text = first :: later) (hfirst : IsSound first) :
    (∃ stat, parse text = .ok stat ∧ Carries first stat.aggregate) ↔
      (∀ l ∈ later, IsSound l) ∧ ∀ last ∈ later.getLast?, ∃ t, Carries first t ∧ Carries last t := by
  constructor
  · -- the last line has the ticks, so it repeats those of the first
    rintro ⟨stat, hparse, hcarries⟩
    have houtcome := outcome_parse text
    rw [hparse] at houtcome
    cases houtcome with
    | last hbefore hsound hticks =>
      rw [hlines] at hbefore hsound
      refine ⟨fun l hl => hsound l (List.mem_cons_of_mem first hl), fun last hlast => ?_⟩
      have heq := eq_getLast?_of_cons hbefore
      rw [Option.mem_def.mp hlast, Option.getD_some] at heq
      exact ⟨stat.aggregate, hcarries, heq ▸ hticks⟩
  · -- all lines are sound, and the last has the ticks of the first
    rintro ⟨hlater, hrepeats⟩
    have hsound : ∀ l ∈ aggregateLines text, IsSound l := by
      rw [hlines]
      exact List.forall_mem_cons.mpr ⟨hfirst, hlater⟩
    obtain ⟨before, last, hbefore⟩ := (List.eq_nil_or_concat' (first :: later)).resolve_left (List.cons_ne_nil _ _)
    obtain ⟨t, hparse, ht⟩ := parse_of_sound (hlines.trans hbefore) hsound
    have heq := eq_getLast?_of_cons hbefore
    refine ⟨_, hparse, ?_⟩
    cases hlast : later.getLast? with
    | none =>
      -- there is no line behind the first
      rw [hlast, Option.getD_none] at heq
      exact heq ▸ ht
    -- the last line is one behind the first
    | some l =>
      rw [hlast, Option.getD_some] at heq
      obtain ⟨t', hfirst', hlast'⟩ := hrepeats l hlast
      rw [ht.unique (heq ▸ hlast')]
      exact hfirst'

/-- **Which aggregate line has the ticks.**

* A text without an aggregate line is refused for that reason, and one with a line that is not sound for
  the other, wherever this line stands.
* Any other text is accepted, with the ticks of its last aggregate line.
* So the ticks of the first line, if it is sound, are those of the text exactly if all later aggregate
  lines are sound too and the last of them carries the same ticks again. -/
theorem ticks_of_aggregates (text : String) :
    (parse text = .error .noAggregate ↔ aggregateLines text = []) ∧
    (parse text = .error .shortAggregate ↔ ∃ line ∈ aggregateLines text, ¬IsSound line) ∧
    (∀ before line, aggregateLines text = before ++ [line] → (∀ l ∈ aggregateLines text, IsSound l) →
      ∃ stat, parse text = .ok stat ∧ Carries line stat.aggregate) ∧
    ∀ first later, aggregateLines text = first :: later → IsSound first →
      ((∃ stat, parse text = .ok stat ∧ Carries first stat.aggregate) ↔
        (∀ l ∈ later, IsSound l) ∧ ∀ last ∈ later.getLast?, ∃ t, Carries first t ∧ Carries last t) := by
  refine ⟨parse_eq_noAggregate_iff, parse_eq_shortAggregate_iff, fun before line hlines hsound => ?_,
    fun first later => carries_first_iff⟩
  obtain ⟨t, hparse, ht⟩ := parse_of_sound hlines hsound
  exact ⟨_, hparse, ht⟩

/-- Two aggregate lines, the second with more columns, and the line of a core: the ticks are those of the
second, which are not those of the first. -/
theorem ticks_of_aggregates_two :
    let text := "cpu 1 2 3 4\ncpu0 1 2 3 4\ncpu  5 6 7 8 9\n"
    aggregateLines text = ["cpu 1 2 3 4".toList] ++ ["cpu  5 6 7 8 9".toList] ∧
      (∀ l ∈ aggregateLines text, IsSound l) ∧
      (∃ stat, parse text = .ok stat ∧ Carries "cpu  5 6 7 8 9".toList stat.aggregate) ∧
      IsSound "cpu 1 2 3 4".toList ∧
      ¬∃ stat, parse text = .ok stat ∧ Carries "cpu 1 2 3 4".toList stat.aggregate := by
  intro text
  have hlines : aggregateLines text = ["cpu 1 2 3 4".toList] ++ ["cpu  5 6 7 8 9".toList] := by
    decide +kernel
  have hfirst : IsSound "cpu 1 2 3 4".toList := by decide +kernel
  have hsecond : IsSound "cpu  5 6 7 8 9".toList := by decide +kernel
  have hsound : ∀ l ∈ aggregateLines text, IsSound l := by
    rw [hlines]
    exact List.forall_mem_cons.mpr ⟨hfirst, List.forall_mem_singleton.mpr hsecond⟩
  obtain ⟨_, _, hlast, hrepeats⟩ := ticks_of_aggregates text
  refine ⟨hlines, hsound, hlast _ _ hlines hsound, hfirst, fun hcarries => ?_⟩
  obtain ⟨_, hsame⟩ := (hrepeats _ _ hlines hfirst).mp hcarries
  obtain ⟨t, ht, ht'⟩ := hsame _ rfl
  have hticks := (ht.unique (carries_ofColumns _)).symm.trans (ht'.unique (carries_ofColumns _))
  exact absurd hticks (by decide +kernel)

/-- The first aggregate line does not decide: a second one puts its own ticks in place of those of the
first, and one without numbers makes the whole text be refused. -/
theorem first_aggregate_overridden :
    let first := "cpu 1 2 3 4".toList
    let text := "cpu 1 2 3 4\ncpu 5 6 7 8\n"
    let text' := "cpu 1 2 3 4\ncpu\n"
    IsSound first ∧ Carries first ⟨1, 2, 3, 4, 0, 0, 0, 0⟩ ∧
      (aggregateLines text).head? = some first ∧ parse text = .ok ⟨⟨5, 6, 7, 8, 0, 0, 0, 0⟩, 0⟩ ∧
      (aggregateLines text').head? = some first ∧ parse text' = .error .shortAggregate ∧
      ¬∀ text first, (aggregateLines text).head? = some first → IsSound first →
        ∃ stat, parse text = .ok stat ∧ Carries first stat.aggregate := by
  intro first text text'
  have hsound : IsSound first := by decide +kernel
  have hcarries : Carries first ⟨1, 2, 3, 4, 0, 0, 0, 0⟩ := by
    have hcolumns : CpuTimes.ofColumns (leadingNumerals (tokens first)) = ⟨1, 2, 3, 4, 0, 0, 0, 0⟩ := by
      decide +kernel
    exact hcolumns ▸ carries_ofColumns first
  have hhead : (aggregateLines text).head? = some first := by decide +kernel
  have hparse : parse text = .ok ⟨⟨5, 6, 7, 8, 0, 0, 0, 0⟩, 0⟩ := by decide +kernel
  have hhead' : (aggregateLines text').head? = some first := by decide +kernel
  have hparse' : parse text' = .error .shortAggregate := by decide +kernel
  refine ⟨hsound, hcarries, hhead, hparse, hhead', hparse', fun hclaim => ?_⟩
  obtain ⟨stat, hstat, _⟩ := hclaim text' first hhead' hsound
  rw [hparse'] at hstat
  cases hstat

end HostMeter.CpuStat
