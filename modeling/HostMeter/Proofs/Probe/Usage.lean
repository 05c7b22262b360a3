import HostMeter.Proofs.Percent
import HostMeter.Proofs.Probe.Runs
import HostMeter.Proofs.Quotients
import Mathlib.Data.List.Induction
/-!
# Usage — the busy share of the processors over a run

The probe of the processors keeps its last sample and the last share that it could tell. Over a run the
share is told by the samples alone: it is that of the latest two neighbours among them that are usable
together, however many samples, usable or not, there were before and after.

* `TickSample.Usable`, `TickSample.IsUsage`: the rules, told on unbounded numbers;
  `TickSample.usage?_of_usable`, `TickSample.usage?_of_not_usable`.
* `TickSample.latestUsable?`: the latest two neighbours that are usable together.
* `CpuProbe.usage_of_run`: the law.
-/

namespace HostMeter

open Binary64

/-! ## One pair of samples

The share is computed from two differences of words. That it can be computed is said of unbounded numbers,
and what it then is, of exact quotients. -/

/-- The smaller of two numbers is their minimum. -/
theorem Binary64.toRat_smaller {x y : Binary64} (hx : x.isNegative = false) (hy : y.isNegative = false) :
    (x.smaller y).toRat = min x.toRat y.toRat := by
  rw [smaller]
  split
  · next h => rw [min_eq_left (toRat_mono hx hy h)]
  · next h => rw [min_eq_right (toRat_mono hy hx (UInt64.le_of_lt (UInt64.not_le.mp h)))]

/-- The smaller of two doubles is one of them. -/
theorem Binary64.smaller_cases (x y : Binary64) : x.smaller y = x ∨ x.smaller y = y := by
  rw [smaller]
  split
  · exact Or.inl rfl
  · exact Or.inr rfl

namespace TickSample

/-- Two samples are usable together: all ticks grew, the idle ticks did not shrink, and the idle ticks
grew by no more than all ticks. -/
def Usable (a b : TickSample) : Prop :=
  a.total.toNat < b.total.toNat ∧ a.idle.toNat ≤ b.idle.toNat ∧
    b.idle.toNat - a.idle.toNat ≤ b.total.toNat - a.total.toNat

instance (a b : TickSample) : Decidable (a.Usable b) :=
  inferInstanceAs (Decidable (_ ∧ _ ∧ _))

/-- A double is the busy share between two samples: the busy ticks in percent of all ticks, kept between
zero and one hundred. -/
structure IsUsage (a b : TickSample) (u : Binary64) : Prop where
  notNegative : u.isNegative = false
  isFinite : u.isFinite = true
  value : ∃ x,
    IsPercent ((b.total.toNat - a.total.toNat) - (b.idle.toNat - a.idle.toNat))
      (b.total.toNat - a.total.toNat) x ∧
    u.toRat = max 0 (min x.toRat 100)

/-- The busy share between two samples is one double. -/
theorem IsUsage.unique {a b : TickSample} {u v : Binary64} (hu : IsUsage a b u) (hv : IsUsage a b v) :
    u = v := by
  obtain ⟨x, hx, hxu⟩ := hu.value
  obtain ⟨y, hy, hyv⟩ := hv.value
  refine toRat_injective hu.notNegative hv.notNegative ?_
  rw [hxu, hyv, hx.unique hy]

/-- A busy share lies between zero and a hundred. -/
theorem IsUsage.bounds {a b : TickSample} {u : Binary64} (hu : IsUsage a b u) :
    0 ≤ u.toRat ∧ u.toRat ≤ 100 := by
  obtain ⟨x, _, hx⟩ := hu.value
  rw [hx]
  exact ⟨le_max_left _ _, max_le (by norm_num) (min_le_right _ _)⟩

/-- A percentage that is cut at a hundred is a busy share; it is not negative anyway. -/
theorem isUsage_smaller {a b : TickSample} {x : Binary64}
    (hx : IsPercent ((b.total.toNat - a.total.toNat) - (b.idle.toNat - a.idle.toNat))
      (b.total.toNat - a.total.toNat) x) : IsUsage a b (x.smaller hundred) := by
  obtain ⟨q, hq⟩ := hx.nearestEven
  refine ⟨?_, ?_, x, hx, ?_⟩
  · rcases smaller_cases x hundred with h | h
    · rw [h]; exact hq.notNegative
    · rw [h]; rfl
  · rcases smaller_cases x hundred with h | h
    · rw [h]; exact hq.isFinite
    · rw [h]; rfl
  · -- what is not negative needs no lower bound
    have hmin : 0 ≤ min x.toRat 100 := le_min hq.toRat_nonneg (by norm_num)
    rw [toRat_smaller hq.notNegative rfl, toRat_hundred, max_eq_right hmin]

/-- Between usable samples there is a busy share. -/
theorem usage?_of_usable {a b : TickSample} (h : a.Usable b) :
    ∃ u, a.usage? b = some u ∧ IsUsage a b u := by
  obtain ⟨htotal, hidle, hle⟩ := h
  obtain ⟨t, ht⟩ : ∃ t, Word.diff? b.total a.total = some t :=
    ⟨_, if_pos (UInt64.le_iff_toNat_le.mpr htotal.le)⟩
  obtain ⟨i, hi⟩ : ∃ i, Word.diff? b.idle a.idle = some i :=
    ⟨_, if_pos (UInt64.le_iff_toNat_le.mpr hidle)⟩
  have hgrown := Word.diff?_eq_some_iff.mp ht
  have hidled := Word.diff?_eq_some_iff.mp hi
  -- the ticks grew, so there is something to divide by
  have hne : t ≠ 0 := by
    rintro rfl
    rw [UInt64.toNat_zero] at hgrown
    omega
  have hit : i ≤ t := UInt64.le_iff_toNat_le.mpr (by omega)
  have husage : a.usage? b = some ((percent (t - i) t).smaller hundred) := by
    simp [usage?, ht, hi, hne, hit]
  refine ⟨_, husage, isUsage_smaller ?_⟩
  have hpercent : IsPercent (t - i).toNat t.toNat (percent (t - i) t) := isPercent_percent hne
  rwa [UInt64.toNat_sub_of_le _ _ hit, show t.toNat = b.total.toNat - a.total.toNat by omega,
    show i.toNat = b.idle.toNat - a.idle.toNat by omega] at hpercent

/-- Between samples that are not usable there is none, for each of the three reasons. -/
theorem usage?_of_not_usable {a b : TickSample} (h : ¬a.Usable b) : a.usage? b = none := by
  cases ht : Word.diff? b.total a.total with
  -- all ticks shrank
  | none => simp [usage?, ht]
  | some t =>
    cases hi : Word.diff? b.idle a.idle with
    | none => simp [usage?, hi]
    -- nothing grew, or the idle ticks grew by more than all of them
    | some i =>
      have hgrown := Word.diff?_eq_some_iff.mp ht
      have hidled := Word.diff?_eq_some_iff.mp hi
      have hnoise : t = 0 ∨ t < i := by
        by_contra hsound
        obtain ⟨hne, hit⟩ := not_or.mp hsound
        have hpos : 0 < t.toNat := Nat.pos_of_ne_zero fun hzero => hne (UInt64.toNat_inj.mp hzero)
        have hle := UInt64.le_iff_toNat_le.mp (UInt64.not_lt.mp hit)
        exact h ⟨by omega, by omega, by omega⟩
      simp [usage?, ht, hi, hnoise]

end TickSample

/-! ## The samples of a run

Which pair a probe shows is told from the list of its samples. -/

/-- The latest two neighbours among some samples that are usable together. -/
def TickSample.latestUsable? (ss : List TickSample) : Option (TickSample × TickSample) :=
  ((neighbours ss).filter fun x => x.1.Usable x.2).getLast?

/-- One more sample makes the latest usable pair with the one before it, or leaves that pair as it was. -/
theorem TickSample.latestUsable?_concat (ss : List TickSample) (a b : TickSample) :
    latestUsable? (ss ++ [a, b]) = if a.Usable b then some (a, b) else latestUsable? (ss ++ [a]) := by
  rw [latestUsable?, neighbours_concat, List.filter_append, latestUsable?]
  split
  · next h => simp [h]
  · next h => simp [h]

theorem TickSample.latestUsable?_eq_none_iff (ss : List TickSample) :
    latestUsable? ss = none ↔ ∀ x ∈ neighbours ss, ¬x.1.Usable x.2 := by
  simp [latestUsable?]

/-- The latest usable pair is usable. -/
theorem TickSample.usable_of_latestUsable? {ss : List TickSample} {a b : TickSample}
    (h : latestUsable? ss = some (a, b)) : a.Usable b := by
  have hmem : (a, b) ∈ (neighbours ss).filter fun x => x.1.Usable x.2 := List.mem_of_getLast? h
  exact of_decide_eq_true (List.mem_filter.mp hmem).2

/-! ## Runs

A probe with no samples shows zero, and it shows zero until two of its samples are usable together. -/

namespace CpuProbe

/-- A probe that has recorded some samples. The induction adds one sample at the end: its own pair
decides if it is usable, and otherwise the share stays. -/
theorem foldl_record {p : CpuProbe} (hp : p.last = none) (ss : List TickSample) :
    (ss.foldl record p).last = ss.getLast? ∧
      (ss.foldl record p).usage =
        ((TickSample.latestUsable? ss).bind fun x => x.1.usage? x.2).getD p.usage := by
  induction ss using List.reverseRecOn with
  | nil => exact ⟨hp, rfl⟩
  | append_singleton ss s ih =>
    obtain ⟨hlast, husage⟩ := ih
    rw [List.foldl_append]
    refine ⟨by rw [List.getLast?_concat]; rfl, ?_⟩
    show (((ss.foldl record p).last.bind fun l => l.usage? s).getD (ss.foldl record p).usage) = _
    rw [hlast, husage]
    rcases List.eq_nil_or_concat ss with rfl | ⟨earlier, l, hconcat⟩
    · rfl
    · rw [List.concat_eq_append] at hconcat
      rw [hconcat, List.getLast?_concat, List.append_assoc, List.cons_append, List.nil_append,
        TickSample.latestUsable?_concat, Option.bind_some]
      split
      · next h =>
        -- the new pair is usable, and its share takes the place of the old one
        obtain ⟨u, hu, _⟩ := TickSample.usage?_of_usable h
        rw [Option.bind_some, hu]
        rfl
      · -- it is not, and the share stays
        next h => rw [TickSample.usage?_of_not_usable h, Option.getD_none]

/-- After some samples a probe shows the busy share of the latest usable pair. -/
theorem isUsage_foldl_record {p : CpuProbe} (hp : p.last = none) {ss : List TickSample}
    {a b : TickSample} (h : TickSample.latestUsable? ss = some (a, b)) :
    TickSample.IsUsage a b (ss.foldl record p).usage := by
  obtain ⟨u, hu, hisUsage⟩ := TickSample.usage?_of_usable (TickSample.usable_of_latestUsable? h)
  rw [(foldl_record hp ss).2, h, Option.bind_some, hu]
  exact hisUsage

/-- The text of the processor is there if it can be read and parsed. -/
theorem readStat_eq_ok_iff {host : HostView} {source : Path} {stat : CpuStat} :
    readStat host source = .ok stat ↔
      ∃ text, host.read source = .ok text ∧ CpuStat.parse text = .ok stat := by
  rw [readStat, readSource_eq]
  cases host.read source with
  | error cause =>
    constructor
    · intro h
      cases h
    · rintro ⟨text, htext, _⟩
      cases htext
  | ok text =>
    simp only [bind, Except.bind, Except.ok.injEq, exists_eq_left']
    cases CpuStat.parse text <;> simp [Except.mapError]

/-- A sample of ticks is there if the text can be read and parsed. -/
theorem read_eq_ok_iff {p : CpuProbe} {now : UInt64} {host : HostView} {s : TickSample} :
    Recorder.read p now host = .ok s ↔
      ∃ text stat, host.read p.source = .ok text ∧ CpuStat.parse text = .ok stat ∧
        s = ⟨stat.aggregate.total, stat.aggregate.idleAll⟩ := by
  constructor
  · intro h
    obtain ⟨stat, hstat, rfl⟩ := exists_of_map_ok h
    obtain ⟨text, htext, hparse⟩ := readStat_eq_ok_iff.mp hstat
    exact ⟨text, stat, htext, hparse, rfl⟩
  · rintro ⟨text, stat, htext, hparse, rfl⟩
    show _ <$> readStat host p.source = _
    rw [readStat_eq_ok_iff.mpr ⟨text, htext, hparse⟩]
    rfl

/-- **The law of the busy share.** Take a probe of the processors that has just been created, and any
occasions on which it is asked, the last of which is `o`.

* It takes a sample if one is due or there is none yet, and the statistics can be read. It answers with
  metrics if it does, or repeats its last sample, and otherwise adds nothing. The last sample is the one
  that it keeps.
* The share that it then shows is zero as long as no two neighbours among the samples are usable
  together, and otherwise that of the latest two neighbours that are.
* Whatever happened, the share is a finite double between zero and one hundred. -/
theorem usage_of_run {c : Context} {p : CpuProbe} (hp : create c = .ok p) (os : List Occasion)
    (o : Occasion) :
    let samples := Recorder.samples p (os ++ [o])
    let q := Sampler.after p (os ++ [o])
    let answer := Sampler.answer (Sampler.after p os) o
    (∀ s, Recorder.sample? (Sampler.after p os) o = some s ↔
      (o.due = true ∨ Recorder.samples p os = []) ∧
        ∃ text stat, o.host.read (c.procPath "stat") = .ok text ∧ CpuStat.parse text = .ok stat ∧
          s = ⟨stat.aggregate.total, stat.aggregate.idleAll⟩) ∧
    (answer.fault = none ↔
      o.due = false ∧ Recorder.samples p os ≠ [] ∨
        ∃ s, Recorder.sample? (Sampler.after p os) o = some s) ∧
    (answer.fault ≠ none → answer.builder = o.builder) ∧
    (answer.fault = none → answer.builder.items.toList = o.builder.items.toList ++
      ⟨"cpu.usage_percent", some "%", .double q.usage⟩ ::
        (if q.cores = 0 then [] else [⟨"cpu.core_count", none, .uint64 q.cores.toUInt64⟩])) ∧
    q.last = samples.getLast? ∧
    ((∀ x ∈ neighbours samples, ¬x.1.Usable x.2) → q.usage = .zero) ∧
    (∀ a b, TickSample.latestUsable? samples = some (a, b) →
      ∀ u, TickSample.IsUsage a b u ↔ u = q.usage) ∧
    q.usage.isFinite = true ∧ 0 ≤ q.usage.toRat ∧ q.usage.toRat ≤ 100 := by
  intro samples q answer
  obtain ⟨cores, hcreated⟩ := eq_of_create hp
  have hsource : p.source = c.procPath "stat" := by rw [hcreated]
  have hnone : p.last = none := by rw [hcreated]
  have hstart : p.usage = .zero := by rw [hcreated]
  have hsampled : Sampler.sampled p = false := congrArg Option.isSome hnone
  have hq : q = samples.foldl record p := Recorder.after_eq_foldl p (os ++ [o])
  obtain ⟨hlast, husage⟩ := foldl_record hnone samples
  rw [← hq] at hlast husage
  have hlatest : ∀ a b, TickSample.latestUsable? samples = some (a, b) →
      TickSample.IsUsage a b q.usage := fun a b h => by
    rw [hq]
    exact isUsage_foldl_record hnone h
  have hzero : TickSample.latestUsable? samples = none → q.usage = .zero := fun h => by
    rw [husage, h]
    exact hstart
  refine ⟨fun s => ?_, Recorder.fault_answer_iff hsampled os o, Sampler.builder_answer, fun h => ?_, hlast,
    fun h => ?_, fun a b h u => ?_, ?_⟩
  · rw [Recorder.sample?_after_eq_some_iff hsampled, read_eq_ok_iff, hsource]
  · have hemitted := Sampler.toList_answer h
    rw [← Sampler.after_concat] at hemitted
    exact hemitted
  · exact hzero ((TickSample.latestUsable?_eq_none_iff samples).mpr h)
  · exact ⟨fun hu => hu.unique (hlatest a b h), fun hu => hu ▸ hlatest a b h⟩
  · cases h : TickSample.latestUsable? samples with
    -- no pair was usable, and the share is zero
    | none =>
      rw [hzero h, toRat_zero]
      exact ⟨rfl, le_rfl, by norm_num⟩
    | some x => exact ⟨(hlatest x.1 x.2 h).isFinite, (hlatest x.1 x.2 h).bounds⟩

end CpuProbe

/-! ## An example

Counters that start again. -/

namespace CpuProbe

/-- A probe that has just been created. -/
def ofStat : CpuProbe := ⟨⟨"/proc/stat"⟩, 0, none, .zero⟩

/-- The example is created on a host that tells of ticks. -/
theorem create_ofStat :
    create ⟨"cpu", .empty, .telling "cpu 100 0 0 100", .standard⟩ = .ok ofStat := rfl

/-- Between two usable samples a refresh fails, and after them the counters start again: the share stays
that of the two, and the sample after the restart is the one that the next pair starts from. -/
theorem usage_of_run_restarted :
    let os : List Occasion :=
      [⟨0, true, .telling "cpu 100 0 0 100", .empty⟩, ⟨1000, true, .failing .noEntry, .empty⟩,
       ⟨2000, true, .telling "cpu 200 0 0 200", .empty⟩]
    let o : Occasion := ⟨3000, true, .telling "cpu 10 0 0 10", .empty⟩
    let q := Sampler.after ofStat (os ++ [o])
    create ⟨"cpu", .empty, .telling "cpu 100 0 0 100", .standard⟩ = .ok ofStat ∧
      Recorder.samples ofStat (os ++ [o]) = [⟨200, 100⟩, ⟨400, 200⟩, ⟨20, 10⟩] ∧
      q.last = some ⟨20, 10⟩ ∧ TickSample.IsUsage ⟨200, 100⟩ ⟨400, 200⟩ q.usage := by
  intro os o q
  have hsamples : Recorder.samples ofStat (os ++ [o]) = [⟨200, 100⟩, ⟨400, 200⟩, ⟨20, 10⟩] := rfl
  obtain ⟨_, _, _, _, hlast, _, hlatest, _⟩ := usage_of_run create_ofStat os o
  rw [hsamples] at hlast hlatest
  exact ⟨create_ofStat, hsamples, hlast, (hlatest _ _ (by decide) _).mpr rfl⟩

end CpuProbe

end HostMeter
