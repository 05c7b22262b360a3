import HostMeter.Proofs.Monitor.RoundLaw
import HostMeter.Proofs.Monitor.Start
/-!
# Coupling — the schedule and the samples

Whether a probe asks its host again is decided twice: the monitor keeps the time of the last refresh,
and each probe keeps its last sample and asks again if it has none. The two records agree in every
state that a run can reach, so the second decision never differs from the first.

* `Slot.InStep`: the two records of a slot agree.
* `Turn.Outcome`: the three turns that a slot in step can have; `Turn.outcome_of_inStep` is what
  every statement about a run of built-in probes starts from.
* `Slot.InStep.after`, `Monitor.Built.inStep`: one turn, and a whole run.
* `Monitor.schedule_coupled`: the law.
-/

namespace HostMeter

/-! ## Asking the host

That a probe asks its host is not said of its code. It is said of its answers: there are two hosts that it
would answer differently on. -/

/-- Does the answer of a probe to a round depend on the host? -/
def Probe.Consults {σ : Type} [Probe σ] (p : σ) (now : UInt64) (due : Bool) (b : Builder) : Prop :=
  ∃ host other, Probe.poll p now due host b ≠ Probe.poll p now due other b

/-- A built-in probe asks its host if it is told to or has no sample. Two hosts that fail for
different causes are told apart by the fault that the probe then meets. -/
theorem Builtin.consults_iff (p : Builtin) (now : UInt64) (due : Bool) (b : Builder) :
    Probe.Consults p now due b ↔ (due || !Sampler.sampled p) = true := by
  constructor
  · -- a probe that does not ask emits what it holds, on any host
    rintro ⟨host, other, hne⟩
    refine Decidable.byContradiction fun hidle => ?_
    have hcached : ∀ view, Probe.poll p now due view b = Sampler.emit p b := by
      intro view
      show Sampler.poll p now due view b = _
      rw [Sampler.poll, if_neg hidle]
    exact hne ((hcached host).trans (hcached other).symm)
  · -- one that asks repeats the cause for which its host fails
    intro hasks
    obtain ⟨context, h⟩ := LawfulSampler.refresh_failing p now .noEntry
    obtain ⟨context', h'⟩ := LawfulSampler.refresh_failing p now .notText
    refine ⟨.failing .noEntry, .failing .notText, fun heq => ?_⟩
    have hfault := congrArg Polled.fault heq
    rw [show Probe.poll p now due (.failing .noEntry) b = ⟨p, b, some (.io context .noEntry)⟩ from
        Sampler.poll_of_refresh_error hasks h,
      show Probe.poll p now due (.failing .notText) b = ⟨p, b, some (.io context' .notText)⟩ from
        Sampler.poll_of_refresh_error hasks h'] at hfault
    cases hfault

/-! ## One turn

The invariant speaks of one slot. Where it holds, the two tests of the turn come to one, and there are three
ways for the turn to go. -/

/-- The monitor's record of a slot and the probe's own agree. -/
structure Slot.InStep (s : Slot Builtin) : Prop where
  /-- A time is recorded exactly if the probe has a sample. -/
  sampled : ∀ p, s.probe = some p → (Sampler.sampled p = true ↔ ∃ t, s.lastRefresh = some t)
  /-- A sample of traffic was taken at the recorded time. -/
  timed : ∀ q l, s.probe = some (.network q) → q.last = some l → s.lastRefresh = some l.time

/-- A slot that is not due has a recorded time. -/
theorem Slot.lastRefresh_of_not_due {σ : Type} {s : Slot σ} {now : UInt64}
    (h : s.due now = false) : ∃ last, s.lastRefresh = some last := by
  cases hlast : s.lastRefresh with
  | none =>
    have hdue := (s.due_iff_cases now).mpr (Or.inr (Or.inl hlast))
    rw [h] at hdue
    cases hdue
  | some last => exact ⟨last, rfl⟩

/-- In a slot in step, the probe's own test never asks for more than the schedule does. -/
theorem Slot.InStep.asks_eq_due {s : Slot Builtin} (h : s.InStep) {p : Builtin}
    (hp : s.probe = some p) (now : UInt64) : (s.due now || !Sampler.sampled p) = s.due now := by
  cases hdue : s.due now with
  | true => rfl
  | false =>
    have hsampled := (h.sampled p hp).mpr (Slot.lastRefresh_of_not_due hdue)
    rw [hsampled]
    rfl

/-- What the turn of a slot with a built-in probe can be. -/
inductive Turn.Outcome (t : Turn Builtin) (p : Builtin) : Prop where
  | cached (hdue : t.slot.due t.now = false) (hsampled : Sampler.sampled p = true)
      (hanswer : t.answer? = some (Sampler.emit p t.builder)) (hafter : t.after = t.slot)
  | fresh (q : Builtin) (hdue : t.slot.due t.now = true)
      (hrefresh : Sampler.refresh p t.now t.host = .ok q)
      (hanswer : t.answer? = some (Sampler.emit q t.builder))
      (hafter : t.after = { t.slot with probe := some q, lastRefresh := some t.now })
  | failed (f : Fault) (hdue : t.slot.due t.now = true)
      (hrefresh : Sampler.refresh p t.now t.host = .error f)
      (hanswer : t.answer? = some ⟨p, t.builder, some f⟩) (hafter : t.after = t.slot)

/-- **A slot in step has one of three turns.** -/
theorem Turn.outcome_of_inStep {t : Turn Builtin} {p : Builtin} (h : t.slot.InStep)
    (hp : t.slot.probe = some p) : t.Outcome p := by
  have hasks := h.asks_eq_due hp t.now
  have hpoll : t.answer? = some (Sampler.poll p t.now (t.slot.due t.now) t.host t.builder) :=
    Turn.answer?_eq_some hp
  cases hdue : t.slot.due t.now with
  | false =>
    have hsampled : Sampler.sampled p = true := by
      rw [hdue] at hasks
      simpa using hasks
    have hanswer : t.answer? = some (Sampler.emit p t.builder) := by
      rw [hpoll, hdue, Sampler.poll_of_not_due hsampled]
    refine .cached hdue hsampled hanswer ?_
    -- the time on record stays, since no refresh was due
    rw [Turn.after_of_succeeded hanswer (by rw [Sampler.emit_eq]), hdue, Sampler.emit_eq, ← hp]
    rfl
  | true =>
    rw [hdue] at hasks
    cases hr : Sampler.refresh p t.now t.host with
    -- the refresh succeeds: the probe and the time are taken over
    | ok q =>
      have hanswer : t.answer? = some (Sampler.emit q t.builder) := by
        rw [hpoll, hdue, Sampler.poll_of_refresh_ok hasks hr]
      refine .fresh q hdue hr hanswer ?_
      rw [Turn.after_of_succeeded hanswer (by rw [Sampler.emit_eq]), hdue, Sampler.emit_eq]
      rfl
    -- the refresh fails: the probe is as it was, and no time is recorded
    | error f =>
      have hanswer : t.answer? = some ⟨p, t.builder, some f⟩ := by
        rw [hpoll, hdue, Sampler.poll_of_refresh_error hasks hr]
      refine .failed f hdue hr hanswer ?_
      rw [Turn.after_of_failed hanswer rfl, ← hp]

/-- A refresh of traffic dates its sample with the time of the round. -/
theorem NetworkProbe.time_of_refresh {p q : NetworkProbe} {now : UInt64} {host : HostView}
    {l : TrafficSample} (h : p.refresh now host = .ok q) (hl : q.last = some l) : l.time = now := by
  obtain ⟨_, _, _, _, rfl⟩ := exists_of_refresh h
  cases hl
  rfl

/-- Only a probe of traffic refreshes to one. -/
theorem Builtin.refresh_eq_network {p : Builtin} {q : NetworkProbe} {now : UInt64} {host : HostView}
    (h : Sampler.refresh p now host = .ok (.network q)) :
    ∃ p', p = .network p' ∧ p'.refresh now host = .ok q := by
  cases p with
  | network p =>
    obtain ⟨a, ha, hq⟩ := exists_of_map_ok h
    cases hq
    exact ⟨p, rfl, ha⟩
  | cpu p => obtain ⟨a, _, hq⟩ := exists_of_map_ok h; cases hq
  | ram p => obtain ⟨a, _, hq⟩ := exists_of_map_ok h; cases hq
  | battery p => obtain ⟨a, _, hq⟩ := exists_of_map_ok h; cases hq
  | storage p => obtain ⟨a, _, hq⟩ := exists_of_map_ok h; cases hq

/-- **A turn keeps a slot in step.** -/
theorem Slot.InStep.after {t : Turn Builtin} (h : t.slot.InStep) : t.after.InStep := by
  cases hp : t.slot.probe with
  -- a slot without a probe has no turn
  | none =>
    rw [Turn.after, Turn.answer?_eq_none hp]
    exact h
  | some p =>
    cases Turn.outcome_of_inStep h hp with
    | cached _ _ _ hafter =>
      rw [hafter]
      exact h
    | failed _ _ _ _ hafter =>
      rw [hafter]
      exact h
    -- both records are made new, at the same time
    | fresh q hdue hrefresh hanswer hafter =>
      rw [hafter]
      constructor
      · intro q' hq'
        rw [← Option.some.inj hq']
        exact ⟨fun _ => ⟨t.now, rfl⟩, fun _ => Sampler.sampled_of_refresh hrefresh⟩
      · intro q' l hq' hl
        rw [Option.some.inj hq'] at hrefresh
        obtain ⟨p', _, hp'⟩ := Builtin.refresh_eq_network hrefresh
        exact congrArg some (NetworkProbe.time_of_refresh hp' hl).symm

/-! ## Runs

The invariant holds of the slots of a monitor that has just been built, since neither record is there, and
every turn keeps it. -/

namespace Monitor

/-- In every state that a run of a monitor reaches, all slots are in step. -/
theorem Built.inStep {m : Monitor Builtin} (hm : m.Built) (ts : List Moment) :
    ∀ s ∈ (m.after ts).slots, s.InStep := by
  refine run_preserves (fun _ h => h.after) m ts fun s hs => ?_
  obtain ⟨hnone, hfresh⟩ := hm.starts hs
  constructor
  · -- there is neither a time nor a sample
    intro p hp
    rw [hfresh p hp, hnone]
    constructor
    · intro h
      cases h
    · rintro ⟨t, ht⟩
      cases ht
  · -- a sample of traffic would be a sample
    intro q l hq hl
    have hlast : q.last.isSome = false := hfresh _ hq
    rw [hl] at hlast
    cases hlast

/-- **The schedule and the samples never drift apart.** In every state that a run over built-in probes
reaches, a slot has a recorded time exactly if its probe has a sample, a sample of traffic was taken
at the recorded time, and the probe's answer depends on the host in exactly the rounds in which the
schedule tells it to refresh. In these it takes over the refreshed sample, in the others it stays as
it is. -/
theorem schedule_coupled {m : Monitor Builtin} (hm : m.Built) (ts : List Moment)
    {s : Slot Builtin} (hs : s ∈ (m.after ts).slots) {p : Builtin} (hp : s.probe = some p) :
    (Sampler.sampled p = true ↔ ∃ t, s.lastRefresh = some t) ∧
    (∀ q l, p = .network q → q.last = some l → s.lastRefresh = some l.time) ∧
    (∀ now b, Probe.Consults p now (s.due now) b ↔ s.due now = true) ∧
    (∀ now host b, (Probe.poll p now (s.due now) host b).probe =
      if s.due now then
        match Sampler.refresh p now host with
        | .ok q => q
        | .error _ => p
      else p) := by
  have h := hm.inStep ts s hs
  refine ⟨h.sampled p hp, ?_, ?_, ?_⟩
  · intro q l hq hl
    exact h.timed q l (by rw [hp, hq]) hl
  · intro now b
    rw [p.consults_iff, h.asks_eq_due hp]
  · intro now host b
    show (Sampler.poll p now (s.due now) host b).probe = _
    rw [Sampler.poll, h.asks_eq_due hp]
    split
    · cases Sampler.refresh p now host with
      | ok q => exact congrArg Polled.probe (Sampler.emit_eq q b)
      | error f => rfl
    · exact congrArg Polled.probe (Sampler.emit_eq p b)

/-- A refresh that fails, between two that are due, leaves the two records as they were. -/
theorem schedule_coupled_ofWire :
    let moments : List Moment := [⟨7, .wired⟩, ⟨2000, .failing .noEntry⟩]
    let q : NetworkProbe := ⟨⟨"/proc/net/dev"⟩, "eth0", some ⟨700, 300, 7⟩, .zero⟩
    let s : Slot Builtin := ⟨"uplink", 1000, some (.network q), some 7⟩
    ofWire.Built ∧ s ∈ (ofWire.after moments).slots ∧
    Sampler.sampled (Builtin.network q) = true ∧ s.lastRefresh = some 7 ∧
    ¬ Probe.Consults (Builtin.network q) 1006 (s.due 1006) .empty ∧
    Probe.Consults (Builtin.network q) 1007 (s.due 1007) .empty := by
  intro moments q s
  have hs : s ∈ (ofWire.after moments).slots := List.mem_of_getElem? (i := 0) rfl
  obtain ⟨hsampled, htimed, hconsults, _⟩ := schedule_coupled built_ofWire moments hs rfl
  refine ⟨built_ofWire, hs, hsampled.mpr ⟨7, rfl⟩, htimed q _ rfl rfl, ?_, ?_⟩
  · rw [hconsults]
    decide
  · rw [hconsults]
    decide

end Monitor

end HostMeter
