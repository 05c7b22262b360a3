import HostMeter.Proofs.Probe.Runs
import HostMeter.Proofs.Quotients
import Mathlib.Data.List.Induction
/-!
# Rates — the traffic of an interface over a run

The probe of the network keeps its last sample and the rates between the last two. Over a run the rates
are told by the last two samples alone, each by its own counter and the times of the two, whatever else
happened between them.

* `Direction`: the two ways that the traffic takes; `TrafficSample.count`, `TrafficRates.rate`.
* `TrafficSample.IsRate`: the rule, told on unbounded numbers; `TrafficRates.isRate_between`.
* `NetworkProbe.rates_of_run`: the law.
-/

namespace HostMeter

open Binary64

/-! ## One pair of samples

Both directions are treated alike, so everything is said of one direction. -/

/-- The two ways that the traffic of an interface takes. -/
inductive Direction where
  | received
  | sent
  deriving DecidableEq, Repr

def TrafficSample.count (s : TrafficSample) : Direction → UInt64
  | .received => s.received
  | .sent => s.sent

def TrafficRates.rate (r : TrafficRates) : Direction → Binary64
  | .received => r.received
  | .sent => r.sent

/-- A double is the rate of a counter between two samples. Neither sample's other counter matters. -/
structure TrafficSample.IsRate (a b : TrafficSample) (d : Direction) (x : Binary64) : Prop where
  isFinite : x.isFinite = true
  notNegative : x.isNegative = false
  eq_zero_iff : x = zero ↔ b.time ≤ a.time ∨ b.count d ≤ a.count d
  isPerSecond : a.time < b.time → a.count d < b.count d →
    IsPerSecond ((b.count d).toNat - (a.count d).toNat) (b.time.toNat - a.time.toNat) x

theorem Word.satSub_eq_zero_iff {a b : UInt64} : satSub a b = 0 ↔ a ≤ b := by
  rw [← UInt64.toNat_inj, toNat_satSub, UInt64.toNat_zero, UInt64.le_iff_toNat_le]
  exact Nat.sub_eq_zero_iff_le

namespace TrafficRates

/-- The rate of a counter depends on the times and on this counter alone. -/
theorem rate_between (a b : TrafficSample) (d : Direction) :
    (between a b).rate d =
      if b.time ≤ a.time then Binary64.zero
      else perSecond (Word.satSub (b.count d) (a.count d)) (Word.satSub b.time a.time) := by
  simp only [between, Word.satSub_eq_zero_iff]
  split
  · cases d <;> rfl
  · cases d <;> rfl

/-- **The rates between two samples keep to the rule.** -/
theorem isRate_between (a b : TrafficSample) (d : Direction) : a.IsRate b d ((between a b).rate d) := by
  rw [rate_between]
  split
  · next hstill =>
    exact ⟨rfl, rfl, iff_of_true rfl (Or.inl hstill), fun h => absurd hstill (UInt64.not_le.mpr h)⟩
  · next hforward =>
    have helapsed : Word.satSub b.time a.time ≠ 0 := mt Word.satSub_eq_zero_iff.mp hforward
    have hx : IsPerSecond (Word.satSub (b.count d) (a.count d)).toNat (Word.satSub b.time a.time).toNat _ :=
      isPerSecond_perSecond helapsed
    obtain ⟨q, hq⟩ := hx.nearestEven
    refine ⟨hq.isFinite, hq.notNegative, ?_, fun _ _ => ?_⟩
    · rw [hx.eq_zero_iff helapsed, Word.satSub_eq_zero_iff, or_iff_right hforward]
    · rwa [Word.toNat_satSub, Word.toNat_satSub] at hx

/-! ## The samples of a run

Only the last two samples count. A single one makes no rate. -/

/-- The rates that some samples lead to: those between the last two, if there are two. -/
def ofSamples (ss : List TrafficSample) : TrafficRates :=
  ((neighbours ss).getLast?.map fun x => between x.1 x.2).getD zero

/-- The last two samples make the rates. -/
theorem ofSamples_concat (ss : List TrafficSample) (a b : TrafficSample) :
    ofSamples (ss ++ [a, b]) = between a b := by
  rw [ofSamples, neighbours_concat, List.getLast?_concat]
  rfl

/-- The rate of a counter, told by the samples alone. -/
structure IsLatest (ss : List TrafficSample) (d : Direction) (x : Binary64) : Prop where
  isFinite : x.isFinite = true
  notNegative : x.isNegative = false
  eq_zero_iff : x = .zero ↔ ss.length = 1 ∨
    ∃ a b, (neighbours ss).getLast? = some (a, b) ∧ (b.time ≤ a.time ∨ b.count d ≤ a.count d)
  isPerSecond : ∀ a b, (neighbours ss).getLast? = some (a, b) →
    a.time < b.time → a.count d < b.count d →
      IsPerSecond ((b.count d).toNat - (a.count d).toNat) (b.time.toNat - a.time.toNat) x

/-- The rates that some samples lead to are those of the last two, or zero for a single one. -/
theorem isLatest_ofSamples {ss : List TrafficSample} (hss : ss ≠ []) (d : Direction) :
    IsLatest ss d ((ofSamples ss).rate d) := by
  obtain ⟨earlier, b, rfl⟩ := (List.eq_nil_or_concat' ss).resolve_left hss
  rcases List.eq_nil_or_concat' earlier with rfl | ⟨earlier, a, rfl⟩
  · -- there is but one sample
    have hrate : (ofSamples [b]).rate d = .zero := by cases d <;> rfl
    exact ⟨by rw [List.nil_append, hrate]; rfl, by rw [List.nil_append, hrate]; rfl,
      iff_of_true hrate (Or.inl rfl), nofun⟩
  · -- the last two samples are the last pair of neighbours
    have hpair : earlier ++ [a] ++ [b] = earlier ++ [a, b] := List.append_assoc _ _ _
    have hlast : (neighbours (earlier ++ [a, b])).getLast? = some (a, b) := by
      rw [neighbours_concat, List.getLast?_concat]
    have hlength : (earlier ++ [a, b]).length ≠ 1 := by simp
    have hrate := isRate_between a b d
    rw [hpair, ofSamples_concat]
    refine ⟨hrate.isFinite, hrate.notNegative, ?_, fun a' b' h => ?_⟩
    · rw [hrate.eq_zero_iff, or_iff_right hlength, hlast]
      simp
    · rw [hlast] at h
      cases h
      exact hrate.isPerSecond

end TrafficRates

/-! ## Runs

Since a probe keeps its last sample and the rates from it, an induction along the samples is enough. -/

namespace NetworkProbe

/-- A sample of traffic is there if the file can be read and has a row of the interface. -/
theorem read_eq_ok_iff {p : NetworkProbe} {now : UInt64} {host : HostView} {s : TrafficSample} :
    Recorder.read p now host = .ok s ↔
      ∃ text i, host.read p.source = .ok text ∧
        (Interface.parse text).find? (fun i => i.name == p.interface) = some i ∧
        s = ⟨i.received, i.sent, now⟩ := by
  show p.readCounters now host = .ok s ↔ _
  rw [readCounters, readSource_eq]
  cases host.read p.source with
  -- the file cannot be read
  | error cause =>
    constructor
    · intro h
      cases h
    · rintro ⟨text, i, htext, _⟩
      cases htext
  | ok text =>
    simp only [bind, Except.bind, Except.ok.injEq, exists_and_left, exists_eq_left']
    cases (Interface.parse text).find? fun i => i.name == p.interface with
    -- the interface has no row
    | none =>
      constructor
      · intro h
        cases h
      · rintro ⟨i, hi, _⟩
        cases hi
    | some i => simp [pure, Except.pure, eq_comm]

/-- A probe that has recorded some samples keeps the last one, and the rates between the last two. -/
theorem foldl_record {p : NetworkProbe} (hp : p.last = none) (hrates : p.rates = .zero)
    (ss : List TrafficSample) :
    ss.foldl record p =
      { p with last := ss.getLast?, rates := TrafficRates.ofSamples ss } := by
  induction ss using List.reverseRecOn with
  | nil =>
    cases p
    cases hp
    cases hrates
    rfl
  | append_singleton ss s ih =>
    rw [List.foldl_append, ih, List.getLast?_concat]
    rcases List.eq_nil_or_concat' ss with rfl | ⟨earlier, l, rfl⟩
    · rfl
    · rw [List.getLast?_concat, List.append_assoc, List.cons_append, List.nil_append,
        TrafficRates.ofSamples_concat]
      rfl

/-- **The law of the rates.** Take a probe of the network that has just been created, and any occasions
on which it is asked, the last of which is `o`.

* It takes a sample if one is due or there is none yet, and the statistics have a row of its interface.
  It answers with metrics if it does, or repeats its last sample, and otherwise adds nothing.
* The counters that it then shows are those of the last sample, and the rates are finite doubles that
  are not negative. The rate of a counter is zero exactly if there is but one sample, or the last is not
  later than the one before it, or the counter did not increase between these two; otherwise it is the
  increase for each second of the time between these two. -/
theorem rates_of_run {c : Context} {p : NetworkProbe} (hp : create c = .ok p) (os : List Occasion)
    (o : Occasion) :
    let samples := Recorder.samples p (os ++ [o])
    let answer := Sampler.answer (Sampler.after p os) o
    (∀ s, Recorder.sample? (Sampler.after p os) o = some s ↔
      (o.due = true ∨ Recorder.samples p os = []) ∧
        ∃ text i, o.host.read (c.procPath "net/dev") = .ok text ∧
          (Interface.parse text).find? (fun i => i.name == p.interface) = some i ∧
          s = ⟨i.received, i.sent, o.now⟩) ∧
    (answer.fault = none ↔
      o.due = false ∧ Recorder.samples p os ≠ [] ∨
        ∃ s, Recorder.sample? (Sampler.after p os) o = some s) ∧
    (answer.fault ≠ none → answer.builder = o.builder) ∧
    (answer.fault = none → ∃ (s : TrafficSample) (rates : Direction → Binary64),
      samples.getLast? = some s ∧
      answer.builder.items.toList = o.builder.items.toList ++
        [⟨"network.interface", none, .text p.interface⟩,
         ⟨"network.rx_bytes", some "B", .uint64 (s.count .received)⟩,
         ⟨"network.tx_bytes", some "B", .uint64 (s.count .sent)⟩,
         ⟨"network.rx_bytes_per_sec", some "B/s", .double (rates .received)⟩,
         ⟨"network.tx_bytes_per_sec", some "B/s", .double (rates .sent)⟩] ∧
      ∀ d, (rates d).isFinite = true ∧ (rates d).isNegative = false ∧
        (rates d = .zero ↔ samples.length = 1 ∨
          ∃ a b, (neighbours samples).getLast? = some (a, b) ∧
            (b.time ≤ a.time ∨ b.count d ≤ a.count d)) ∧
        ∀ a b, (neighbours samples).getLast? = some (a, b) → a.time < b.time →
          a.count d < b.count d → ∀ x,
            IsPerSecond ((b.count d).toNat - (a.count d).toNat) (b.time.toNat - a.time.toNat) x ↔
              x = rates d) := by
  intro samples answer
  obtain ⟨interface, hcreated⟩ := eq_of_create hp
  have hsource : p.source = c.procPath "net/dev" := by rw [hcreated]
  have hlast : p.last = none := by rw [hcreated]
  have hrates : p.rates = .zero := by rw [hcreated]
  have hsampled : Sampler.sampled p = false := congrArg Option.isSome hlast
  have hfault := Recorder.fault_answer_iff hsampled os o
  refine ⟨fun s => ?_, hfault, Sampler.builder_answer, fun h => ?_⟩
  · -- which samples are taken
    rw [Recorder.sample?_after_eq_some_iff hsampled, read_eq_ok_iff, hsource]
  · -- what the probe emits when it answers
    have hafter : Sampler.after p (os ++ [o]) =
        { p with last := samples.getLast?, rates := TrafficRates.ofSamples samples } :=
      (Recorder.after_eq_foldl _ _).trans (foldl_record hlast hrates samples)
    have hemitted := Sampler.toList_answer h
    rw [← Sampler.after_concat, hafter] at hemitted
    -- a probe that answers has taken a sample, on this occasion or before it
    have hsamples : Recorder.samples p (os ++ [o]) ≠ [] := by
      rw [Recorder.samples_concat]
      rcases hfault.mp h with ⟨_, hsome⟩ | ⟨s, hs⟩
      · exact List.append_ne_nil_of_left_ne_nil hsome _
      · rw [hs]
        exact List.append_ne_nil_of_right_ne_nil _ (List.cons_ne_nil s [])
    obtain ⟨s, hs⟩ := Option.ne_none_iff_exists'.mp (mt List.getLast?_eq_none_iff.mp hsamples)
    refine ⟨s, (TrafficRates.ofSamples samples).rate, hs, ?_, fun d => ?_⟩
    · have hshown : samples.getLast? = some s := hs
      rw [hshown] at hemitted
      exact hemitted
    · have hlatest := TrafficRates.isLatest_ofSamples hsamples d
      exact ⟨hlatest.isFinite, hlatest.notNegative, hlatest.eq_zero_iff, fun a b h ht hc x =>
        ⟨fun hx => hx.unique (hlatest.isPerSecond a b h ht hc),
          fun hx => hx ▸ hlatest.isPerSecond a b h ht hc⟩⟩

/-! ## An example

A counter that starts again while the other one grows. -/

/-- A probe that has just been created. -/
def ofDev : NetworkProbe := ⟨⟨"/proc/net/dev"⟩, "eth0", none, .zero⟩

/-- The example is created on a host with one interface. -/
theorem create_ofDev :
    create ⟨"network", .empty, .telling "eth0: 100 0 0 0 0 0 0 0 900 0", .standard⟩ = .ok ofDev := rfl

/-- Between two samples a refresh fails, and a sample is repeated; one counter grew between them, and the
other started again. -/
theorem rates_of_run_restarted :
    let os : List Occasion :=
      [⟨1000, true, .telling "eth0: 100 0 0 0 0 0 0 0 900 0", .empty⟩,
       ⟨2000, true, .failing .noEntry, .empty⟩,
       ⟨2500, false, .telling "eth0: 700 0 0 0 0 0 0 0 999 0", .empty⟩]
    let o : Occasion := ⟨3000, true, .telling "eth0: 1100 0 0 0 0 0 0 0 50 0", .empty⟩
    create ⟨"network", .empty, .telling "eth0: 100 0 0 0 0 0 0 0 900 0", .standard⟩ = .ok ofDev ∧
      Recorder.samples ofDev (os ++ [o]) = [⟨100, 900, 1000⟩, ⟨1100, 50, 3000⟩] ∧
      ∃ x, IsPerSecond 1000 2000 x ∧
        (Sampler.answer (Sampler.after ofDev os) o).builder.items.toList =
          [⟨"network.interface", none, .text "eth0"⟩,
           ⟨"network.rx_bytes", some "B", .uint64 1100⟩,
           ⟨"network.tx_bytes", some "B", .uint64 50⟩,
           ⟨"network.rx_bytes_per_sec", some "B/s", .double x⟩,
           ⟨"network.tx_bytes_per_sec", some "B/s", .double .zero⟩] := by
  intro os o
  have hsamples : Recorder.samples ofDev (os ++ [o]) = [⟨100, 900, 1000⟩, ⟨1100, 50, 3000⟩] := rfl
  obtain ⟨_, hfault, _, hlaw⟩ := rates_of_run create_ofDev os o
  have hsample : Recorder.sample? (Sampler.after ofDev os) o = some ⟨1100, 50, 3000⟩ := rfl
  obtain ⟨s, rates, hs, hitems, hrates⟩ := hlaw (hfault.mpr (Or.inr ⟨_, hsample⟩))
  rw [hsamples] at hs hrates
  cases hs
  obtain ⟨_, _, _, hreceived⟩ := hrates .received
  obtain ⟨_, _, hsent, _⟩ := hrates .sent
  have hzero : rates .sent = .zero := hsent.mpr (Or.inr ⟨_, _, rfl, Or.inr (by decide)⟩)
  refine ⟨create_ofDev, hsamples, rates .received, ?_, ?_⟩
  · exact (hreceived _ _ rfl (by decide) (by decide) _).mpr rfl
  · rw [hitems, hzero]
    rfl

end NetworkProbe

end HostMeter
