import HostMeter.Proofs.Monitor.History
import HostMeter.Proofs.Probe.Sampling
/-!
# Segments — the snapshot of a round, slot by slot

The slots share one builder. If every probe only adds to it, what a round leaves in the builder falls
into one segment for each turn, in the order of the slots: a probe that fails is taken back to the
mark and leaves the wording of its fault, whatever it had added before.

* `AppendOnly`: the kinds of probes that add to the builder and take nothing away.
* `Turn.toList_leaves`: a turn puts its segment behind what it was handed.
* `toList_builder_of_turns_eq`: a turn is handed the segments of the turns before it.
* `Round.outcome_of_not_ends`, `Round.outcome_of_ends`: the snapshot of a round, or its fault.
-/

namespace HostMeter

variable {σ : Type} [Probe σ]

/-- A kind of probe that adds to the builder and takes nothing away. -/
class AppendOnly (σ : Type) [Probe σ] : Prop where
  appends (p : σ) (now : UInt64) (due : Bool) (host : HostView) (b : Builder) :
    ∃ added, (Probe.poll p now due host b).builder.items.toList = b.items.toList ++ added

instance : AppendOnly Builtin where
  appends p now due host b := Sampler.toList_poll p now due host b

/-! ## One turn

A probe that only appends can be taken back to the mark without a loss: what stood before the mark is what
the turn was handed. -/

namespace Turn

variable [AppendOnly σ]

/-- What a probe emitted stands behind what the builder held. -/
theorem toList_answer {t : Turn σ} {a : Polled σ} (h : t.answer? = some a) :
    a.builder.items.toList = t.builder.items.toList ++ t.emitted := by
  cases hp : t.slot.probe with
  | none =>
    rw [answer?_eq_none hp] at h
    cases h
  | some p =>
    obtain ⟨added, hadded⟩ := AppendOnly.appends p t.now (t.slot.due t.now) t.host t.builder
    have ha : a = Probe.poll p t.now (t.slot.due t.now) t.host t.builder := by
      rw [answer?_eq_some hp] at h
      exact (Option.some.inj h).symm
    rw [emitted, h]
    show _ = _ ++ a.builder.items.toList.drop t.builder.size
    rw [ha, hadded, Builder.size, ← Array.length_toList, List.drop_left]

/-- **A turn puts its segment behind what it was handed.** Taking a failed probe back to the mark
gives back exactly the builder's contents before the turn. -/
theorem toList_leaves {t : Turn σ} (h : t.ends = false) :
    t.leaves.items.toList = t.builder.items.toList ++ t.segment := by
  cases ha : t.answer? with
  | none =>
    rw [leaves, segment, fault?, emitted, ha]
    exact (List.append_nil _).symm
  | some a =>
    cases hf : a.fault with
    | none =>
      -- the probe succeeded, and its metrics stay
      have hfault : t.fault? = none := (fault?_of_answer? ha).trans hf
      rw [leaves, segment, ha, hfault]
      simp only [hf]
      exact toList_answer ha
    | some f =>
      have hfault : t.fault? = some f := (fault?_of_answer? ha).trans hf
      -- the probe failed: its metrics go, and the mark of its fault comes
      have hfatal : f.isFatal = false := by
        rw [ends, hfault] at h
        exact h
      have hback : (a.builder.rollback t.builder.size).items.toList = t.builder.items.toList := by
        show (a.builder.items.take t.builder.size).toList = _
        rw [Array.take, Array.toList_extract, toList_answer ha, List.extract_eq_take_drop,
          List.drop_zero, Nat.sub_zero, Builder.size, ← Array.length_toList, List.take_left]
      rw [leaves, segment, ha, hfault]
      simp only [hf, hfatal, Bool.false_eq_true, if_false, Builder.add, Array.toList_push, hback]

end Turn

/-! ## The turns of a round

One segment after the other fills the builder, and what it holds in the end is the snapshot. -/

variable [AppendOnly σ] {now : UInt64} {host : HostView}

/-- **A turn is handed the segments of the turns before it.** The induction is on the slots; a turn that
goes on puts its segment where the next one starts. -/
theorem toList_builder_of_turns_eq {slots : List (Slot σ)} {b : Builder} {earlier later : List (Turn σ)}
    {t : Turn σ} (h : turns now host slots b = earlier ++ t :: later) :
    t.builder.items.toList = b.items.toList ++ earlier.flatMap Turn.segment := by
  induction slots generalizing b earlier with
  | nil => exact absurd h (by simp [turns])
  | cons s rest ih =>
    -- the first turn is handed `b` itself, and in a round that it ends there is no other one
    cases he : (Turn.mk s now host b).ends with
    | true =>
      rw [turns_cons_of_ends rest he] at h
      cases earlier with
      | nil =>
        rw [← (List.cons.inj h).1]
        exact (List.append_nil _).symm
      | cons u earlier => exact absurd (List.cons.inj h).2 (by simp)
    | false =>
      rw [turns_cons_of_not_ends rest he] at h
      cases earlier with
      | nil =>
        rw [← (List.cons.inj h).1]
        exact (List.append_nil _).symm
      | cons u earlier =>
        obtain ⟨rfl, hrest⟩ := List.cons.inj h
        rw [ih hrest, Turn.toList_leaves he, List.flatMap_cons, List.append_assoc]

/-- A round that goes to its end leaves the segments of all its turns in the builder. -/
theorem toList_builder_pollSlots {slots : List (Slot σ)} {b : Builder} (lastFault : Option String)
    (h : ∀ t ∈ turns now host slots b, t.ends = false) :
    (pollSlots now host slots b lastFault).builder.items.toList =
      b.items.toList ++ (turns now host slots b).flatMap Turn.segment := by
  induction slots generalizing b lastFault with
  | nil => exact (List.append_nil _).symm
  | cons s rest ih =>
    have he := not_ends_of_cons h
    rw [turns_cons_of_not_ends rest he] at h ⊢
    rw [pollSlots_cons, he]
    show (pollSlots now host rest _ _).builder.items.toList = _
    rw [ih _ fun t ht => h t (List.mem_cons_of_mem _ ht), Turn.toList_leaves he, List.flatMap_cons,
      List.append_assoc]

namespace Round

/-- **A round that no turn ends gives the segments of its turns as the snapshot.** -/
theorem outcome_of_not_ends {r : Round σ} (h : ∀ t ∈ r.turns, t.ends = false) :
    r.outcome = .ok ⟨r.turns.flatMap Turn.segment⟩ := by
  rw [outcome, Monitor.poll]
  simp only [ended_pollSlots_of_not_ends r.monitor.lastFault h]
  show Except.ok (Snapshot.mk (pollSlots _ _ _ _ _).builder.items.toList) = _
  rw [toList_builder_pollSlots r.monitor.lastFault h]
  rfl

omit [AppendOnly σ] in
/-- A turn with a fatal fault makes the outcome of its round this fault. -/
theorem outcome_of_ends {r : Round σ} {t : Turn σ} {f : Fault} (h : t ∈ r.turns)
    (hf : t.fault? = some f) (hfatal : f.isFatal = true) : r.outcome = .error f := by
  rw [outcome, Monitor.poll]
  simp only [ended_pollSlots_of_ends r.monitor.lastFault h hf hfatal]

end Round

end HostMeter
