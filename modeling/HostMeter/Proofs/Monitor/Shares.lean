import HostMeter.Proofs.Monitor.Keeping
import HostMeter.Proofs.Percent
import HostMeter.Proofs.Probe.Layout
/-!
# Shares — the percentages in use

Two kinds of probes report how much of something is in use, as a share of the total that they report
beside it. A probe of memory keeps the share that it computed, so that a run has to keep what the share
was computed from; the invariant is `Builtin.Measured`.

* `IsShare`: a metric is the share of a part in a total that the same segment reports.
* `Monitor.shares_of_run`: the law; `Monitor.share_above_hundred`: its bound is reached.
-/

namespace HostMeter

/-! ## Samples

The part in use is a difference that stops at zero, or what is left of the total. So it never exceeds the
total, and that is what the bounds of a share rest on. -/

/-- A sample of memory was made for the total of its probe. -/
def Builtin.Measured : Builtin → Prop
  | .ram p => ∀ s, p.last = some s → ∃ info, s = RamSample.ofInfo p.total info
  | _ => True

/-- A refresh of memory makes the sample from what it reads and the total of the probe. -/
theorem Builtin.measured_of_refresh {p q : Builtin} {now : UInt64} {host : HostView}
    (h : Sampler.refresh p now host = .ok q) : q.Measured := by
  cases p with
  | ram p =>
    obtain ⟨q, hq, rfl⟩ := exists_of_map_ok h
    obtain ⟨text, _, rfl⟩ := RamProbe.exists_of_refresh hq
    intro s hs
    exact ⟨MemInfo.parse text, (Option.some.inj hs).symm⟩
  | cpu p => obtain ⟨q, _, rfl⟩ := exists_of_map_ok h; trivial
  | battery p => obtain ⟨q, _, rfl⟩ := exists_of_map_ok h; trivial
  | network p => obtain ⟨q, _, rfl⟩ := exists_of_map_ok h; trivial
  | storage p => obtain ⟨q, _, rfl⟩ := exists_of_map_ok h; trivial

/-- Of a probe without a sample there is nothing to say. -/
theorem Builtin.measured_of_not_sampled {p : Builtin} (h : Sampler.sampled p = false) :
    p.Measured := by
  cases p with
  | ram p =>
    intro s hs
    have hnone : p.last.isSome = false := h
    rw [hs] at hnone
    cases hnone
  | cpu p => trivial
  | battery p => trivial
  | network p => trivial
  | storage p => trivial

/-- No more memory is in use than there is in total, whatever the host tells to be free. -/
theorem RamSample.used_le (total : UInt64) (info : MemInfo) : (ofInfo total info).used ≤ total := by
  show total - freeBytes total info ≤ total
  rw [UInt64.le_iff_toNat_le, UInt64.toNat_sub_of_le _ _ (freeBytes_le total info)]
  omega

theorem Usage.used_le (u : Usage) : u.used ≤ u.total := by
  rw [UInt64.le_iff_toNat_le, used, Word.toNat_satSub]
  omega

/-! ## Metrics

A share is known by its name. Within the layout of a probe there is at most one metric of this name, and
most kinds have none. -/

/-- Is the metric the share of a part in the total that a kind of probe reports in a segment? -/
def IsShare (k : Builtin.Kind) (segment : List Metric) (x : Metric) : Prop :=
  ∃ part total : UInt64, part ≤ total ∧ x.value = .double (percent part total) ∧
    ⟨k.name ++ ".total_bytes", some "B", .uint64 total⟩ ∈ segment

/-- A name that is none of the five is not that of a share. -/
theorem Builtin.Kind.ne_share (k : Builtin.Kind) (name : String)
    (h : name ∉ all.map fun k => k.name ++ ".used_percent") : name ≠ k.name ++ ".used_percent" := by
  rintro rfl
  exact h (List.mem_map.mpr ⟨k, k.mem_all, rfl⟩)

/-- The mark of a fault is not named like a share. -/
theorem errorMetricName_ne_share (name : String) (k : Builtin.Kind) :
    errorMetricName name ≠ k.name ++ ".used_percent" := by
  intro h
  -- no kind has a name that starts as the namespace of the marks does
  have hhead := congrArg (fun s => s.toList.head?) h
  cases k <;> simp [errorMetricName, Builtin.Kind.name, CpuProbe.name, RamProbe.name,
    BatteryProbe.name, NetworkProbe.name, StorageProbe.name] at hhead

theorem Builtin.Kind.eq_of_share {k k' : Builtin.Kind}
    (h : k.name ++ ".used_percent" = k'.name ++ ".used_percent") : k = k' := by
  cases k <;> cases k' <;> first | rfl | exact absurd h (by decide)

section Metrics

variable {k : Builtin.Kind} {x : Metric}

/-- The share of memory in use is one of the total that stands beside it. -/
theorem RamProbe.isShare {p : RamProbe} (hp : (Builtin.ram p).Measured) (hx : x ∈ p.metrics)
    (hname : x.name = k.name ++ ".used_percent") : IsShare k p.metrics x := by
  unfold metrics at hx ⊢
  cases hs : p.last with
  -- without a sample there are no metrics
  | none =>
    rw [hs] at hx
    cases hx
  | some s =>
    obtain ⟨info, rfl⟩ := hp s hs
    simp only [hs, metricsOf, List.mem_cons, List.mem_ite_nil_right, List.not_mem_nil, or_false] at hx ⊢
    rcases hx with rfl | rfl | rfl | ⟨-, rfl⟩
    · exact absurd hname (k.ne_share "ram.total_bytes" (by decide))
    · exact absurd hname (k.ne_share "ram.used_bytes" (by decide))
    · exact absurd hname (k.ne_share "ram.free_bytes" (by decide))
    · -- the only metric of the name is the share itself
      obtain rfl : .ram = k := Builtin.Kind.eq_of_share hname
      exact ⟨_, p.total, RamSample.used_le p.total info, rfl, List.mem_cons_self⟩

/-- The share of a file system in use is one of the total that stands beside it. -/
theorem StorageProbe.isShare {p : StorageProbe} (hx : x ∈ p.metrics)
    (hname : x.name = k.name ++ ".used_percent") : IsShare k p.metrics x := by
  unfold metrics at hx ⊢
  cases hs : p.last with
  -- without a sample there are no metrics
  | none =>
    rw [hs] at hx
    cases hx
  | some u =>
    simp only [hs, metricsOf, List.mem_cons, List.not_mem_nil, or_false] at hx ⊢
    rcases hx with rfl | rfl | rfl | rfl | rfl | rfl
    · exact absurd hname (k.ne_share "storage.path" (by decide))
    · exact absurd hname (k.ne_share "storage.total_bytes" (by decide))
    · exact absurd hname (k.ne_share "storage.used_bytes" (by decide))
    · exact absurd hname (k.ne_share "storage.free_bytes" (by decide))
    · exact absurd hname (k.ne_share "storage.available_bytes" (by decide))
    · -- the only metric of the name is the share itself
      obtain rfl : .storage = k := Builtin.Kind.eq_of_share hname
      exact ⟨u.used, u.total, u.used_le, rfl, List.mem_cons_of_mem _ List.mem_cons_self⟩

/-- A probe whose layout has no share emits none. -/
theorem ne_share_of_layout {σ : Type} [Sampler σ] [LaidOut σ] {p : σ}
    (hlayout : ((LaidOut.layout p).all fun y =>
      y.name ∉ Builtin.Kind.all.map fun k => k.name ++ ".used_percent") = true)
    (hsampled : Sampler.sampled p = true) (hx : x ∈ Sampler.metrics p) :
    x.name ≠ k.name ++ ".used_percent" := by
  have hmem : x.shape ∈ (Sampler.metrics p).map Metric.shape := List.mem_map_of_mem hx
  rw [LaidOut.shape_metrics hsampled] at hmem
  exact k.ne_share _ (of_decide_eq_true (List.all_eq_true.mp hlayout x.shape hmem))

/-- Whatever a probe emits under the name of a share is one. -/
theorem isShare_of_metrics {p : Builtin} (hp : p.Measured) (hsampled : Sampler.sampled p = true)
    (hx : x ∈ Sampler.metrics p) (hname : x.name = k.name ++ ".used_percent") :
    IsShare k (Sampler.metrics p) x := by
  cases p with
  | ram p => exact RamProbe.isShare hp hx hname
  | storage p => exact StorageProbe.isShare hx hname
  -- the other kinds report no share
  | cpu p =>
    refine absurd hname (ne_share_of_layout (p := p) ?_ hsampled hx)
    show (_ :: (if p.cores = 0 then [] else _)).all _ = true
    split <;> rfl
  | battery p => exact absurd hname (ne_share_of_layout (p := p) rfl hsampled hx)
  | network p => exact absurd hname (ne_share_of_layout (p := p) rfl hsampled hx)

end Metrics

/-! ## Turns and runs

That a sample was made for the total of its probe is what turns have to keep; from there a share is bounded
wherever it is shown. -/

/-- A slot whose records agree and whose sample was made for its total. -/
structure Slot.Measured (s : Slot Builtin) : Prop where
  inStep : s.InStep
  probe : ∀ p, s.probe = some p → p.Measured

/-- Every refresh makes a measured probe, on any host. -/
theorem Turn.refreshKeeps_measured (t : Turn Builtin) : t.RefreshKeeps Builtin.Measured :=
  fun _ _ _ => Builtin.measured_of_refresh

theorem Slot.Measured.keeps {s : Slot Builtin} (h : s.Measured) : s.Keeps Builtin.Measured :=
  ⟨h.inStep, h.probe⟩

theorem Slot.Measured.after {t : Turn Builtin} (h : t.slot.Measured) : t.after.Measured :=
  have hafter := h.keeps.after t.refreshKeeps_measured
  ⟨hafter.inStep, hafter.probe⟩

/-- Whatever the turn of a measured slot shows under the name of a share is one. -/
theorem Slot.Measured.isShare {t : Turn Builtin} (h : t.slot.Measured) {x : Metric}
    (hx : x ∈ t.segment) {k : Builtin.Kind} (hname : x.name = k.name ++ ".used_percent") :
    IsShare k t.segment x := by
  rcases h.keeps.segment_of_mem t.refreshKeeps_measured hx with
    ⟨p, hp, hsampled, hsegment⟩ | ⟨p, f, _, _, _, hsegment⟩
  · rw [hsegment] at hx ⊢
    exact isShare_of_metrics hp hsampled hx hname
  · rw [hsegment] at hx
    cases List.mem_singleton.mp hx
    exact absurd hname (errorMetricName_ne_share _ k)

/-- A share is a finite number from zero to a little above a hundred, and not above it if the total has few
enough digits for the multiplication to be exact. -/
theorem IsShare.bounds {k : Builtin.Kind} {segment : List Metric} {x : Metric}
    (h : IsShare k segment x) :
    ∃ share total, x.value = .double share ∧ share.isFinite = true ∧
      0 ≤ share.toRat ∧ share.toRat ≤ 100 + 1 / 2 ^ 46 ∧
      ⟨k.name ++ ".total_bytes", some "B", .uint64 total⟩ ∈ segment ∧
      (25 * total.toNat < 2 ^ 53 → share.toRat ≤ 100) := by
  obtain ⟨part, total, hle, hvalue, htotal⟩ := h
  have hnext := percent_le_next hle
  have hfinite : (percent part total).bits.toNat < Binary64.infinityBits :=
    Nat.lt_of_le_of_lt (UInt64.le_iff_toNat_le.mp hnext) (by decide)
  have hsign : (percent part total).isNegative = false :=
    decide_eq_false (Nat.not_le_of_lt (Nat.lt_trans hfinite (by decide)))
  refine ⟨_, total, hvalue, Binary64.isFinite_of_bits_lt hfinite, Binary64.toRat_nonneg hsign, ?_,
    htotal, fun hsmall => ?_⟩
  · rw [← toRat_nextAfterHundred]
    exact Binary64.toRat_mono hsign (by decide) hnext
  · rw [← toRat_hundred]
    exact Binary64.toRat_mono hsign (by decide) (percent_le_hundred hle hsmall)

namespace Monitor

/-- The slots of a monitor start measured, since they have no samples. -/
theorem Built.measured {m : Monitor Builtin} (hm : m.Built) : ∀ s ∈ m.slots, s.Measured := by
  intro s hs
  refine ⟨hm.inStep [] s hs, fun p hp => ?_⟩
  exact Builtin.measured_of_not_sampled ((hm.starts hs).2 p hp)

/-- **The law of shares.** Take a monitor over built-in probes and any run of it. Whatever a round
reports as the share in use is a finite double, not negative, and at most one step of the doubles above
one hundred. It is at most one hundred if `25` times the total beside it is below `2 ^ 53`. -/
theorem shares_of_run {m : Monitor Builtin} (hm : m.Built) (ts : List Moment) {r : Round Builtin}
    (hr : r ∈ m.rounds ts) :
    ∃ snapshot, r.outcome = .ok snapshot ∧ ∀ x ∈ snapshot.metrics, ∀ k : Builtin.Kind,
      x.name = k.name ++ ".used_percent" → ∃ t ∈ r.turns, x ∈ t.segment ∧
        ∃ share total, x.value = .double share ∧ share.isFinite = true ∧
          0 ≤ share.toRat ∧ share.toRat ≤ 100 + 1 / 2 ^ 46 ∧
          ⟨k.name ++ ".total_bytes", some "B", .uint64 total⟩ ∈ t.segment ∧
          (25 * total.toNat < 2 ^ 53 → share.toRat ≤ 100) := by
  refine ⟨_, r.outcome_builtin, fun x hx k hname => ?_⟩
  obtain ⟨t, ht, hx⟩ := List.mem_flatMap.mp hx
  have hmeasured := kept_of_mem_turns (fun _ h => h.after) hm.measured hr ht
  exact ⟨t, ht, hx, (hmeasured.isShare hx hname).bounds⟩

end Monitor

/-! ## An example

A full file system, whose total decides whether the share is above a hundred. -/

/-- A host whose file systems are full. -/
def HostView.full (total : UInt64) : HostView :=
  { HostView.wired with usage := fun _ => .ok ⟨total, 0, 0⟩ }

/-- A probe of one file system. -/
def Monitor.ofDisk : Monitor Builtin :=
  ⟨1000, [⟨"disk", 1000, some (.storage ⟨⟨"/"⟩, none⟩), none⟩], none⟩

/-- The example is the construction over one section. -/
theorem Monitor.built_ofDisk : ofDisk.Built :=
  ⟨⟨[⟨"module.disk", "refresh_ms", "1000"⟩]⟩, .full 1000, .standard, [(.storage, "disk")], rfl⟩

/-- The first round of the example shows the whole file system in use. -/
theorem Monitor.outcome_ofDisk (total : UInt64) :
    (Round.mk ofDisk ⟨0, .full total⟩).outcome = .ok ⟨StorageProbe.metricsOf ⟨"/"⟩ ⟨total, 0, 0⟩⟩ :=
  rfl

namespace Monitor

/-- The bounds in a round of the example. -/
theorem shares_of_run_ofDisk :
    ofDisk.Built ∧ ∃ r ∈ ofDisk.rounds [⟨0, .full 1000⟩], ∃ snapshot, r.outcome = .ok snapshot ∧
      ∃ x ∈ snapshot.metrics, x.name = "storage.used_percent" ∧
        ∃ share, x.value = .double share ∧ 0 ≤ share.toRat ∧ share.toRat ≤ 100 + 1 / 2 ^ 46 := by
  have hr : Round.mk ofDisk ⟨0, .full 1000⟩ ∈ ofDisk.rounds [⟨0, .full 1000⟩] :=
    List.mem_singleton.mpr rfl
  obtain ⟨snapshot, hok, hshares⟩ := shares_of_run built_ofDisk _ hr
  have hx : ∃ x ∈ snapshot.metrics, x.name = "storage.used_percent" := by
    rw [← Except.ok.inj ((outcome_ofDisk 1000).symm.trans hok)]
    exact ⟨_, List.mem_of_getElem? (i := 5) rfl, rfl⟩
  obtain ⟨x, hx, hname⟩ := hx
  obtain ⟨t, _, _, share, _, hvalue, _, hlow, hhigh, _⟩ := hshares x hx .storage hname
  exact ⟨built_ofDisk, _, hr, snapshot, hok, x, hx, hname, share, hvalue, hlow, hhigh⟩

/-- **The bound is reached**, by a full file system whose total is just too large. -/
theorem share_above_hundred :
    ofDisk.Built ∧ ∃ r ∈ ofDisk.rounds [⟨0, .full 360287970189643⟩], ∃ snapshot,
      r.outcome = .ok snapshot ∧ ∃ x ∈ snapshot.metrics, x.name = "storage.used_percent" ∧
        ∃ share, x.value = .double share ∧ 100 < share.toRat := by
  have hshare : Usage.usedPercent ⟨360287970189643, 0, 0⟩ = nextAfterHundred := by decide +kernel
  refine ⟨built_ofDisk, _, List.mem_singleton.mpr rfl, _, outcome_ofDisk _, _,
    List.mem_of_getElem? (i := 5) rfl, rfl, _, rfl, ?_⟩
  rw [hshare, toRat_nextAfterHundred]
  norm_num

end Monitor

end HostMeter
