import HostMeter.Proofs.Monitor.Isolation
/-!
# Keeping — what refreshes keep of the probes

A turn changes a probe by a refresh or not at all. So a property that refreshes keep of probes is kept of
a slot by every turn, and whatever a turn shows comes from a probe with the property.

* `Slot.Keeps`: a slot in step whose probe has a property; `Slot.Keeps.after`: turns keep it.
* `Slot.Keeps.segment_of_mem`: where the metrics of a turn come from.
-/

namespace HostMeter

/-- A slot whose records agree and whose probe has a property. -/
structure Slot.Keeps (P : Builtin → Prop) (s : Slot Builtin) : Prop where
  inStep : s.InStep
  probe : ∀ p, s.probe = some p → P p

/-- Does a refresh at this turn keep a property of probes? -/
def Turn.RefreshKeeps (t : Turn Builtin) (P : Builtin → Prop) : Prop :=
  ∀ p q, P p → Sampler.refresh p t.now t.host = .ok q → P q

namespace Slot.Keeps

variable {P : Builtin → Prop} {t : Turn Builtin}

/-- **What a refresh keeps of a probe, a turn keeps of its slot.** -/
theorem after (h : t.slot.Keeps P) (hrefresh : t.RefreshKeeps P) : t.after.Keeps P where
  inStep := h.inStep.after
  probe := by
    intro q hq
    cases hp : t.slot.probe with
    | none =>
      rw [Turn.after, Turn.answer?_eq_none hp, hp] at hq
      cases hq
    | some p =>
      cases Turn.outcome_of_inStep h.inStep hp with
      | cached _ _ _ hafter => exact h.probe q (by rw [← hafter, hq])
      | failed _ _ _ _ hafter => exact h.probe q (by rw [← hafter, hq])
      | fresh q' _ hfresh _ hafter =>
        rw [hafter] at hq
        rw [← Option.some.inj hq]
        exact hrefresh p q' (h.probe p hp) hfresh

/-- **Where a metric comes from**: from a probe with the property and a sample, or from its fault. -/
theorem segment_of_mem (h : t.slot.Keeps P) (hrefresh : t.RefreshKeeps P) {x : Metric}
    (hx : x ∈ t.segment) :
    (∃ p, P p ∧ Sampler.sampled p = true ∧ t.segment = Sampler.metrics p) ∨
    ∃ p f, t.slot.probe = some p ∧ P p ∧ Sampler.refresh p t.now t.host = .error f ∧
      t.segment = [errorMetric t.slot.name f] := by
  cases hp : t.slot.probe with
  | none =>
    rw [Turn.segment_of_no_probe hp] at hx
    cases hx
  | some p =>
    cases Turn.outcome_of_inStep h.inStep hp with
    | cached _ hsampled hanswer _ =>
      exact Or.inl ⟨p, h.probe p hp, hsampled, (Turn.segment_of_emit hanswer).2⟩
    | fresh q _ hfresh hanswer _ =>
      exact Or.inl ⟨q, hrefresh p q (h.probe p hp) hfresh, Sampler.sampled_of_refresh hfresh,
        (Turn.segment_of_emit hanswer).2⟩
    | failed f _ hfailed hanswer _ =>
      exact Or.inr ⟨p, f, rfl, h.probe p hp, hfailed, (Turn.eq_of_fault hp hanswer).1⟩

end Slot.Keeps

end HostMeter
