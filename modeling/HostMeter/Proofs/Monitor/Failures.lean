import HostMeter.Proofs.Monitor.Isolation
/-!
# Failures — rounds that leave no trace

A probe that fails has touched neither itself nor the builder, and the monitor records nothing of a
slot that failed but the wording of the fault. So a run may be told without the rounds in which a slot
failed: in all other rounds the slot shows the same, and its rates and shares reach across the gap.

* `Sampler.poll_of_fault`, `Round.slot_after_of_failed`: one answer, and one round.
* `unmarked`: what is left of a list without its marked entries.
* `Monitor.failures_leave_no_trace`: the law, for any choice of failed rounds to leave out.
-/

namespace HostMeter

/-! ## One failure

A built-in probe fails only when it asks for a new sample, and it does so before it touches anything. -/

/-- A probe that keeps its last sample, and fails, has changed neither itself nor the builder. -/
theorem Sampler.poll_of_fault {σ : Type} [Sampler σ] [LawfulSampler σ] {p : σ} {now : UInt64}
    {due : Bool} {host : HostView} {b : Builder} {f : Fault}
    (h : (poll p now due host b).fault = some f) : poll p now due host b = ⟨p, b, some f⟩ := by
  cases hasks : due || !sampled p with
  | false =>
    -- nothing is asked, and emitting cannot fail
    rw [poll, hasks, if_neg Bool.false_ne_true, emit_eq] at h
    cases h
  | true =>
    cases hr : refresh p now host with
    -- a refresh that succeeds is emitted, so there is no fault
    | ok q =>
      rw [poll_of_refresh_ok hasks hr, emit_eq] at h
      cases h
    -- the fault is that of the refresh, which has changed nothing
    | error fault =>
      rw [poll_of_refresh_error hasks hr] at h ⊢
      cases h
      rfl

/-- A turn with a fault leaves its slot as it was. -/
theorem Turn.after_of_fault? {t : Turn Builtin} {f : Fault} (h : t.fault? = some f) :
    t.after = t.slot := by
  cases hp : t.slot.probe with
  -- no probe, no fault
  | none =>
    rw [fault?, answer?_eq_none hp] at h
    cases h
  | some p =>
    have hanswer := answer?_eq_some hp
    rw [fault?_of_answer? hanswer] at h
    have hsame : Probe.poll p t.now (t.slot.due t.now) t.host t.builder = ⟨p, t.builder, some f⟩ :=
      Sampler.poll_of_fault h
    rw [hsame] at hanswer
    exact (eq_of_fault hp hanswer).2

namespace Round

/-- Did the slot at a position fail? -/
def failed {σ : Type} [Probe σ] (r : Round σ) (index : Nat) : Bool :=
  (r.turn? index).any fun t => t.fault?.isSome

/-- A round in which a slot failed leaves this slot as it found it. -/
theorem slot_after_of_failed {r : Round Builtin} {index : Nat} (h : r.failed index = true) :
    r.after.slots[index]? = r.monitor.slots[index]? := by
  obtain ⟨t, ht, hfault⟩ := (Option.any_eq_true _ _).mp h
  obtain ⟨f, hf⟩ := Option.isSome_iff_exists.mp hfault
  rw [after_of_turn? ht, slot_of_turn? ht, Turn.after_of_fault? hf]

end Round

/-! ## Runs with rounds left out

The moments of a run carry marks, and the marked rounds are those to leave out. Leaving them out gives
another run, with other rounds; the slot that failed in them cannot tell the two apart. -/

/-- The entries of a list that carry no mark. -/
def unmarked {α : Type} (xs : List (α × Bool)) : List α := (xs.filter fun x => !x.2).map Prod.fst

namespace Monitor

/-- The rounds of a run whose moments carry marks, each with the mark of its moment. -/
def markedRounds (m : Monitor Builtin) (run : List (Moment × Bool)) : List (Round Builtin × Bool) :=
  (m.rounds (run.map Prod.fst)).zip (run.map Prod.snd)

/-- Two runs of one slot, of which the second leaves out marked rounds. The induction is on the run: a
round that is left out moves on the first monitor alone, and does not touch the slot. -/
theorem shown_unmarked {m m' : Monitor Builtin} {index : Nat} {s : Slot Builtin}
    (hs : m.slots[index]? = some s) (hs' : m'.slots[index]? = some s) {run : List (Moment × Bool)}
    (hfailed : ∀ r ∈ m.markedRounds run, r.2 = true → r.1.failed index = true) :
    (unmarked (m.markedRounds run)).map (fun r => r.shown index) =
        (m'.rounds (unmarked run)).map (fun r => r.shown index) ∧
      (m.after (run.map Prod.fst)).slots[index]? = (m'.after (unmarked run)).slots[index]? := by
  induction run generalizing m m' s with
  | nil => exact ⟨rfl, hs.trans hs'.symm⟩
  | cons entry run ih =>
    obtain ⟨t, mark⟩ := entry
    have hlater : ∀ r ∈ (Round.mk m t).after.markedRounds run, r.2 = true → r.1.failed index = true :=
      fun r hr => hfailed r (List.mem_cons_of_mem _ hr)
    cases mark with
    | true =>
      -- the second run stays where it is, and so does the slot in the first
      have hfails : (Round.mk m t).failed index = true :=
        hfailed (⟨m, t⟩, true) List.mem_cons_self rfl
      have hsame : (Round.mk m t).after.slots[index]? = some s :=
        (Round.slot_after_of_failed hfails).trans hs
      exact ih hsame hs' hlater
    -- both runs take the round, and the slot shows the same in both
    | false =>
      have hshown : (Round.mk m t).shown index = (Round.mk m' t).shown index :=
        Round.shown_of_alike hs hs' rfl fun _ _ q _ => HostView.Alike.refl _ q
      obtain ⟨u, _, hafter, hafter'⟩ := Round.exists_after_of_shown (r := ⟨m, t⟩) hs hshown
      obtain ⟨hrounds, hend⟩ := ih hafter hafter' hlater
      exact ⟨congrArg₂ List.cons hshown hrounds, hend⟩

/-- **Failures leave no trace.** A built-in probe that fails, in whatever state it is asked, is as it
was, and so is the builder. Hence, if any rounds in which the slot at a position failed are left out of
a run over built-in probes, then in every round that is kept the slot shows the same segment of the
snapshot and is the same slot afterwards, its recorded time included, and so it is in the end. -/
theorem failures_leave_no_trace {m : Monitor Builtin} {index : Nat} {s : Slot Builtin}
    (hs : m.slots[index]? = some s) {run : List (Moment × Bool)}
    (hfailed : ∀ r ∈ m.markedRounds run, r.2 = true → r.1.failed index = true) :
    (∀ (p : Builtin) (now : UInt64) (due : Bool) (host : HostView) (b : Builder) (f : Fault),
      (Probe.poll p now due host b).fault = some f →
        Probe.poll p now due host b = ⟨p, b, some f⟩) ∧
    (unmarked (m.markedRounds run)).map (fun r => (r.segment index, r.after.slots[index]?)) =
      (m.rounds (unmarked run)).map (fun r => (r.segment index, r.after.slots[index]?)) ∧
    (m.after (run.map Prod.fst)).slots[index]? = (m.after (unmarked run)).slots[index]? ∧
    (∀ r ∈ m.rounds (run.map Prod.fst) ++ m.rounds (unmarked run),
      r.outcome = .ok ⟨r.turns.flatMap Turn.segment⟩) := by
  obtain ⟨hrounds, hend⟩ := shown_unmarked hs hs hfailed
  exact ⟨fun _ _ _ _ _ _ => Sampler.poll_of_fault, hrounds, hend, fun r _ => r.outcome_builtin⟩

/-- Two failures between two refreshes: the rates of the last round reach back to the first. -/
theorem failures_leave_no_trace_ofWire :
    let later : HostView :=
      { HostView.wired with read := fun _ => .ok "eth0: 4700 9 0 0 0 0 0 0 2300 5" }
    let run : List (Moment × Bool) :=
      [(⟨0, .wired⟩, false), (⟨1000, .failing .noEntry⟩, true), (⟨1500, .failing .notText⟩, true),
       (⟨2000, later⟩, false)]
    (∃ s, ofWire.slots[0]? = some s) ∧
    (∀ r ∈ ofWire.markedRounds run, r.2 = true → r.1.failed 0 = true) ∧
    unmarked run = [(⟨0, .wired⟩ : Moment), ⟨2000, later⟩] ∧
    (unmarked (ofWire.markedRounds run)).map (fun r => (r.segment 0, r.after.slots[0]?)) =
      (ofWire.rounds (unmarked run)).map (fun r => (r.segment 0, r.after.slots[0]?)) := by
  intro later run
  have hfailed : ∀ r ∈ ofWire.markedRounds run, r.2 = true → r.1.failed 0 = true := by decide
  have hs : ∃ s, ofWire.slots[0]? = some s := ⟨_, rfl⟩
  obtain ⟨_, hrounds, _⟩ := failures_leave_no_trace hs.choose_spec hfailed
  exact ⟨hs, hfailed, rfl, hrounds⟩

end Monitor

end HostMeter
