import HostMeter.Probe.Builtin
/-!
# Sampling — what the kinds of probes have in common

Each kind of probe has its own refresh, its own last sample and its own metrics. What the monitor
relies on is the same for all of them and is collected in `LawfulSampler`, so that it is proved once
for each kind and used for any of them.

* `CpuProbe.refresh_eq` and its siblings: a refresh as the answers of the host that it depends on;
  `CpuProbe.exists_of_refresh` and its siblings: what a refresh that succeeds has read, and made of it.
* `LawfulSampler`: a refresh leaves a sample, asks the host, and fails without exhausting memory;
  every metric has a name.
* `Sampler.emit_eq`, `Sampler.toList_emit`, `Sampler.toList_poll`: what a probe does to the builder.
-/

namespace HostMeter

/-! ## Refreshes, one kind at a time

Each refresh as one match on what the host answers, in the order in which it is asked. These equations are
the only place where the refreshes are opened; what follows cites them. -/

/-- Reading a source fails with the cause that the host gives, in the context of the source. -/
theorem readSource_eq (host : HostView) (p : Path) :
    readSource host p =
      match host.read p with
      | .ok text => .ok text
      | .error cause => .error (.io (readingContext p) cause) := by
  rw [readSource]
  cases host.read p <;> rfl

/-- A refresh of the processor reads its file, parses the text, and records the sum of all ticks and that of
the idle ones. -/
theorem CpuProbe.refresh_eq (p : CpuProbe) (host : HostView) :
    p.refresh host =
      match host.read p.source with
      | .error cause => .error (.io (readingContext p.source) cause)
      | .ok text =>
        match CpuStat.parse text with
        | .error f => .error (malformed p.source f)
        | .ok stat => .ok (p.record (TickSample.ofTimes stat.aggregate)) := by
  rw [refresh, readStat, readSource_eq]
  cases host.read p.source with
  | error cause => rfl
  | ok text =>
    simp only [bind, Except.bind]
    cases CpuStat.parse text <;> rfl

/-- A refresh of the memory reads its file. The text of it cannot be malformed. -/
theorem RamProbe.refresh_eq (p : RamProbe) (host : HostView) :
    p.refresh host =
      match host.read p.source with
      | .error cause => .error (.io (readingContext p.source) cause)
      | .ok text => .ok { p with last := some (RamSample.ofInfo p.total (MemInfo.parse text)) } := by
  rw [refresh, readSource_eq]
  cases host.read p.source <;> rfl

/-- A refresh of the battery needs the charge; a state that cannot be read is told as unknown. -/
theorem BatteryProbe.refresh_eq (p : BatteryProbe) (host : HostView) :
    p.refresh host =
      match host.read p.capacitySource with
      | .error cause => .error (.io (readingContext p.capacitySource) cause)
      | .ok text =>
        match Attribute.parse text with
        | .error f => .error (malformed p.capacitySource f)
        | .ok capacity =>
          .ok { p with
            last := some ⟨min capacity BatterySample.fullCharge,
              BatterySample.statusOf (host.read p.statusSource).toOption⟩ } := by
  rw [refresh, readSource_eq]
  cases host.read p.capacitySource with
  | error cause => rfl
  -- the state is read in any case, and a failure of that is no fault
  | ok text =>
    simp only [bind, Except.bind]
    cases Attribute.parse text <;> rfl

/-- A refresh of traffic fails if the file cannot be read, or if the interface has vanished from it. -/
theorem NetworkProbe.refresh_eq (p : NetworkProbe) (now : UInt64) (host : HostView) :
    p.refresh now host =
      match host.read p.source with
      | .error cause => .error (.io (readingContext p.source) cause)
      | .ok text =>
        match (Interface.parse text).find? fun i => i.name == p.interface with
        | none => .error (.io (readingContext p.source) (.interfaceGone p.interface))
        | some i => .ok (p.record ⟨i.received, i.sent, now⟩) := by
  rw [refresh, readCounters, readSource_eq]
  cases host.read p.source with
  | error cause => rfl
  | ok text =>
    simp only [bind, Except.bind]
    cases (Interface.parse text).find? fun i => i.name == p.interface <;> rfl

/-- A refresh of the storage asks for the usage of its path, and reads no file. -/
theorem StorageProbe.refresh_eq (p : StorageProbe) (host : HostView) :
    p.refresh host =
      match host.usage p.path with
      | .error cause => .error (.io (failure p.path) cause)
      | .ok usage => .ok { p with last := some usage } := by
  rw [refresh]
  cases host.usage p.path <;> rfl

/-! ### Refreshes that succeed

Read from their end, the equations say what a host must have answered for a refresh to succeed, and which
probe it then leads to. -/

/-- A refresh of the processor that succeeds comes from a text that could be read and parsed. -/
theorem CpuProbe.exists_of_refresh {p q : CpuProbe} {host : HostView} (h : p.refresh host = .ok q) :
    ∃ text stat, host.read p.source = .ok text ∧ CpuStat.parse text = .ok stat ∧
      q = p.record (TickSample.ofTimes stat.aggregate) := by
  rw [p.refresh_eq] at h
  split at h
  · -- the file cannot be read
    cases h
  · next text htext =>
    split at h
    · -- its text is malformed
      cases h
    · next stat hstat => exact ⟨text, stat, htext, hstat, (Except.ok.inj h).symm⟩

/-- A refresh of the memory that succeeds comes from a text, and keeps the total. -/
theorem RamProbe.exists_of_refresh {p q : RamProbe} {host : HostView} (h : p.refresh host = .ok q) :
    ∃ text, host.read p.source = .ok text ∧
      q = { p with last := some (RamSample.ofInfo p.total (MemInfo.parse text)) } := by
  rw [p.refresh_eq] at h
  split at h
  · cases h
  · next text htext => exact ⟨text, htext, (Except.ok.inj h).symm⟩

/-- A refresh of the battery that succeeds comes from a numeral, cut at a full charge. -/
theorem BatteryProbe.exists_of_refresh {p q : BatteryProbe} {host : HostView}
    (h : p.refresh host = .ok q) :
    ∃ text capacity, host.read p.capacitySource = .ok text ∧ Attribute.parse text = .ok capacity ∧
      q = { p with
        last := some ⟨min capacity BatterySample.fullCharge,
          BatterySample.statusOf (host.read p.statusSource).toOption⟩ } := by
  rw [p.refresh_eq] at h
  split at h
  · -- the charge cannot be read
    cases h
  · next text htext =>
    split at h
    · -- it is no numeral
      cases h
    · next capacity hcapacity => exact ⟨text, capacity, htext, hcapacity, (Except.ok.inj h).symm⟩

/-- A refresh of traffic that succeeds comes from the first row of its interface. -/
theorem NetworkProbe.exists_of_refresh {p q : NetworkProbe} {now : UInt64} {host : HostView}
    (h : p.refresh now host = .ok q) :
    ∃ text i, host.read p.source = .ok text ∧
      (Interface.parse text).find? (fun i => i.name == p.interface) = some i ∧
      q = p.record ⟨i.received, i.sent, now⟩ := by
  rw [p.refresh_eq] at h
  split at h
  · -- the file cannot be read
    cases h
  · next text htext =>
    split at h
    · -- no row is that of the interface
      cases h
    · next i hi => exact ⟨text, i, htext, hi, (Except.ok.inj h).symm⟩

/-- A refresh of the storage that succeeds takes the usage as it is told. -/
theorem StorageProbe.exists_of_refresh {p q : StorageProbe} {host : HostView}
    (h : p.refresh host = .ok q) :
    ∃ usage, host.usage p.path = .ok usage ∧ q = { p with last := some usage } := by
  rw [p.refresh_eq] at h
  split at h
  · cases h
  · next usage husage => exact ⟨usage, husage, (Except.ok.inj h).symm⟩

/-! ## What the monitor relies on

Three properties of a kind of probe carry all that is said about rounds: where refreshes lead, that they ask
the host, and that the metrics have names. -/

/-- A host that fails every query, always for the same cause. -/
def HostView.failing (cause : HostFault) : HostView where
  read _ := .error cause
  has _ := false
  entries _ := .error cause
  usage _ := .error cause

/-- What a refresh may lead to: a probe with a sample, or a fault that is not fatal. -/
def Sampler.Settled {σ : Type} [Sampler σ] : Except Fault σ → Prop
  | .ok q => sampled q = true
  | .error f => f.isFatal = false

/-- A kind of probe that the monitor can rely on. -/
class LawfulSampler (σ : Type) [Sampler σ] : Prop where
  settled_refresh (p : σ) (now : UInt64) (host : HostView) :
    Sampler.Settled (Sampler.refresh p now host)
  /-- A refresh asks the host, and fails with it. -/
  refresh_failing (p : σ) (now : UInt64) (cause : HostFault) :
    ∃ context, Sampler.refresh p now (.failing cause) = .error (.io context cause)
  /-- Every metric has a name. -/
  named (p : σ) : ∀ m ∈ Sampler.metrics p, m.name ≠ ""

instance : LawfulSampler CpuProbe where
  settled_refresh p now host := by
    show Sampler.Settled (p.refresh host)
    rw [p.refresh_eq]
    split
    · rfl
    · split <;> rfl
  refresh_failing p _ cause := ⟨_, p.refresh_eq (.failing cause)⟩
  named p := by
    show ∀ m ∈ p.metrics, _
    rw [CpuProbe.metrics]
    split <;> simp

instance : LawfulSampler RamProbe where
  settled_refresh p now host := by
    show Sampler.Settled (p.refresh host)
    rw [p.refresh_eq]
    split <;> rfl
  refresh_failing p _ cause := ⟨_, p.refresh_eq (.failing cause)⟩
  named p := by
    show ∀ m ∈ p.metrics, _
    rw [RamProbe.metrics]
    split
    · rw [RamProbe.metricsOf]
      split <;> simp
    · simp

instance : LawfulSampler BatteryProbe where
  settled_refresh p now host := by
    show Sampler.Settled (p.refresh host)
    rw [p.refresh_eq]
    split
    · rfl
    · split <;> rfl
  refresh_failing p _ cause := ⟨_, p.refresh_eq (.failing cause)⟩
  named p := by
    show ∀ m ∈ p.metrics, _
    rw [BatteryProbe.metrics]
    split <;> simp [BatteryProbe.metricsOf]

instance : LawfulSampler NetworkProbe where
  settled_refresh p now host := by
    show Sampler.Settled (p.refresh now host)
    rw [p.refresh_eq]
    split
    · rfl
    · split <;> rfl
  refresh_failing p now cause := ⟨_, p.refresh_eq now (.failing cause)⟩
  named p := by
    show ∀ m ∈ p.metrics, _
    rw [NetworkProbe.metrics]
    split <;> simp [NetworkProbe.metricsOf]

instance : LawfulSampler StorageProbe where
  settled_refresh p now host := by
    show Sampler.Settled (p.refresh host)
    rw [p.refresh_eq]
    split <;> rfl
  refresh_failing p _ cause := ⟨_, p.refresh_eq (.failing cause)⟩
  named p := by
    show ∀ m ∈ p.metrics, _
    rw [StorageProbe.metrics]
    split <;> simp [StorageProbe.metricsOf]

/-! ## A built-in probe works as its kind does

A built-in probe is one of five, and its functions are those of the kind under a constructor. -/

/-- What is settled of a refresh stays so for a probe among the built-in ones. -/
theorem Sampler.Settled.map {α β : Type} [Sampler α] [Sampler β] (f : α → β)
    (hf : ∀ a : α, sampled (f a) = sampled a) {x : Except Fault α} (h : Settled x) :
    Settled (f <$> x) := by
  cases x with
  | error fault => exact h
  | ok a => exact (hf a).trans h

/-- A refresh that fails with its host fails in the same way for a probe among the built-in ones. -/
theorem LawfulSampler.map_refresh_failing {α β : Type} [Sampler α] [LawfulSampler α] (f : α → β)
    (p : α) (now : UInt64) (cause : HostFault) :
    ∃ context, f <$> Sampler.refresh p now (.failing cause) = .error (.io context cause) := by
  obtain ⟨context, h⟩ := refresh_failing p now cause
  exact ⟨context, by rw [h]; rfl⟩

instance : LawfulSampler Builtin where
  settled_refresh p now host := by
    cases p with
    | cpu p => exact .map Builtin.cpu (fun _ => rfl) (LawfulSampler.settled_refresh p now host)
    | ram p => exact .map Builtin.ram (fun _ => rfl) (LawfulSampler.settled_refresh p now host)
    | battery p => exact .map Builtin.battery (fun _ => rfl) (LawfulSampler.settled_refresh p now host)
    | network p => exact .map Builtin.network (fun _ => rfl) (LawfulSampler.settled_refresh p now host)
    | storage p => exact .map Builtin.storage (fun _ => rfl) (LawfulSampler.settled_refresh p now host)
  refresh_failing p now cause := by
    cases p with
    | cpu p => exact LawfulSampler.map_refresh_failing Builtin.cpu p now cause
    | ram p => exact LawfulSampler.map_refresh_failing Builtin.ram p now cause
    | battery p => exact LawfulSampler.map_refresh_failing Builtin.battery p now cause
    | network p => exact LawfulSampler.map_refresh_failing Builtin.network p now cause
    | storage p => exact LawfulSampler.map_refresh_failing Builtin.storage p now cause
  named p := by
    cases p with
    | cpu p => exact LawfulSampler.named p
    | ram p => exact LawfulSampler.named p
    | battery p => exact LawfulSampler.named p
    | network p => exact LawfulSampler.named p
    | storage p => exact LawfulSampler.named p

/-! ## What a probe does to the builder

Since every metric has a name, none is refused. So the faults of a probe are those of its refreshes, and
they come before anything is added. -/

namespace Sampler

variable {σ : Type} [Sampler σ] [LawfulSampler σ] {p q : σ} {now : UInt64} {host : HostView}

/-- After a refresh there is a sample. -/
theorem sampled_of_refresh (h : refresh p now host = .ok q) : sampled q = true := by
  have hs := LawfulSampler.settled_refresh p now host
  rw [h] at hs
  exact hs

/-- A refresh has no fatal fault. -/
theorem isFatal_of_refresh {f : Fault} (h : refresh p now host = .error f) :
    f.isFatal = false := by
  have hs := LawfulSampler.settled_refresh p now host
  rw [h] at hs
  exact hs

/-- Emitting always succeeds, and puts the metrics of the last sample behind what is there. -/
theorem emit_eq (p : σ) (b : Builder) :
    emit p b = ⟨p, (b.pushAll (metrics p)).1, none⟩ := by
  rw [emit, ← (Builder.pushAll_of_named (LawfulSampler.named p) b).2]

/-- The metrics of a probe stand behind what was in the builder. -/
theorem toList_emit (p : σ) (b : Builder) :
    (emit p b).builder.items.toList = b.items.toList ++ metrics p := by
  rw [emit_eq]
  show (b.pushAll (metrics p)).1.items.toList = _
  rw [(Builder.pushAll_of_named (LawfulSampler.named p) b).1]
  simp

/-- A probe that is asked has no fatal fault. -/
theorem isFatal_of_poll {due : Bool} {b : Builder} {f : Fault}
    (h : (poll p now due host b).fault = some f) : f.isFatal = false := by
  cases hasks : due || !sampled p with
  -- nothing is asked, and emitting has no fault
  | false =>
    rw [poll, hasks, if_neg Bool.false_ne_true, emit_eq] at h
    cases h
  | true =>
    cases hr : refresh p now host with
    -- the new sample is emitted
    | ok q =>
      rw [poll_of_refresh_ok hasks hr, emit_eq] at h
      cases h
    -- the fault is that of the refresh
    | error fault =>
      rw [poll_of_refresh_error hasks hr] at h
      cases h
      exact isFatal_of_refresh hr

/-- What a probe that keeps its last sample does to the builder, in any round: nothing, or it adds the
metrics of the sample that it then has. -/
theorem toList_poll (p : σ) (now : UInt64) (due : Bool) (host : HostView) (b : Builder) :
    ∃ added, (poll p now due host b).builder.items.toList = b.items.toList ++ added := by
  rw [poll]
  split
  · cases refresh p now host with
    | error f => exact ⟨[], (List.append_nil _).symm⟩
    | ok q => exact ⟨metrics q, toList_emit q b⟩
  · exact ⟨metrics p, toList_emit p b⟩

end Sampler

end HostMeter
