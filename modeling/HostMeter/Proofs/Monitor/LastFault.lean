import HostMeter.Proofs.Monitor.Segments
import HostMeter.Proofs.Monitor.Start
/-!
# Last fault — what a monitor remembers of the faults of a run

The monitor keeps the wording of one fault. It is overwritten in two places, in the turn of a probe
that fails and by the fault that ends a round, and nothing ever clears it; so it is that of the last
fault of the run, counted through the rounds and, in a round, through the turns.

* `Round.faults`, `Monitor.faults`: the faults of a round and of a run, in the order of time.
* `lastFault_pollSlots`: one round over some slots, by induction on the slots.
* `Round.exists_last_fault`: the last turn of a round that failed, and its mark in the snapshot.
* `Monitor.last_fault_of_run`: the law.
-/

namespace HostMeter

/-- The wording on record after some faults, of which the last one counts. -/
def latest (faults : List Fault) (before : Option String) : Option String :=
  (faults.getLast?.map Fault.message).or before

@[simp] theorem latest_nil (before : Option String) : latest [] before = before := rfl

/-- Of two stretches of faults the second counts, unless it is empty. -/
theorem latest_append (fs gs : List Fault) (before : Option String) :
    latest (fs ++ gs) before = latest gs (latest fs before) := by
  rw [latest, latest, latest, List.getLast?_append]
  cases gs.getLast? <;> rfl

theorem latest_eq_none_iff {fs : List Fault} {before : Option String} :
    latest fs before = none ↔ fs = [] ∧ before = none := by
  rw [latest, Option.or_eq_none_iff, Option.map_eq_none_iff, List.getLast?_eq_none_iff]

/-! ## What is told of a monitor

A monitor starts without a fault on record. What its status tells of a slot, apart from the time of the last
refresh, depends on the fixed part of the slots alone. -/

namespace Monitor

variable {σ : Type}

/-- A monitor that has just been built has no fault on record, whatever its registry and whatever the
creation of its probes did. -/
theorem lastFault_of_build {ω : Type} {settings : Ini} {host : HostView} {roots : Roots}
    {registry : List (Descriptor (StateM ω) σ)} {world world' : ω} {m : Monitor σ}
    (h : (build settings host roots registry).run world = (.ok m, world')) : m.lastFault = none := by
  rw [build] at h
  split at h
  · cases h
  · split at h
    · cases h
    · rw [StateT.run_bind] at h
      cases hslots : (makeSlots settings host roots registry).run world with
      | mk outcome world'' =>
        rw [hslots] at h
        cases outcome with
        | error f => cases h
        | ok slots =>
          cases h
          rfl

/-- What is fixed about the slots, as the status tells it. -/
def fixedStatus (m : Monitor σ) : List (String × Bool × UInt32) :=
  m.status.map fun s => (s.name, s.enabled, s.refresh)

/-- What the status tells of names, paces and enabled slots is what is fixed about them. -/
theorem fixedStatus_eq (m : Monitor σ) :
    m.fixedStatus = (m.slots.map Slot.fixed).map fun s => (s.1, s.2.2, s.2.1) := by
  rw [fixedStatus, status, List.map_map, List.map_map]
  rfl

/-- The number of enabled slots is fixed as well. -/
theorem enabledCount_eq (m : Monitor σ) :
    m.enabledCount = (m.slots.map Slot.fixed).countP fun s => s.2.2 := by
  rw [enabledCount, List.countP_map]
  rfl

end Monitor

variable {σ : Type} [Probe σ]

/-! ## One round

The wording that a round leaves is found by going through its turns, each of which overwrites it with its
own fault or leaves it. -/

/-- A turn notes its own fault, or keeps the wording that it finds. -/
theorem Turn.notes_eq (t : Turn σ) (before : Option String) :
    t.notes before = latest t.fault?.toList before := by
  rw [notes]
  cases t.fault? <;> rfl

/-- The faults of a round begin with that of its first turn. -/
theorem filterMap_fault?_cons (t : Turn σ) (ts : List (Turn σ)) :
    (t :: ts).filterMap Turn.fault? = t.fault?.toList ++ ts.filterMap Turn.fault? := by
  rw [List.filterMap_cons]
  cases t.fault? <;> rfl

/-- **The wording on record after a round is that of the last of its faults.** The induction is on the
slots; a turn that ends the round is the last one, and the others pass on what they note. -/
theorem lastFault_pollSlots {now : UInt64} {host : HostView} (slots : List (Slot σ)) (b : Builder)
    (before : Option String) :
    (pollSlots now host slots b before).lastFault =
      latest ((turns now host slots b).filterMap Turn.fault?) before := by
  induction slots generalizing b before with
  | nil => rfl
  | cons s rest ih =>
    let t : Turn σ := ⟨s, now, host, b⟩
    rw [pollSlots_cons]
    cases he : t.ends with
    -- the slots behind are not asked
    | true =>
      rw [turns_cons_of_ends rest he, filterMap_fault?_cons, latest_append, ← Turn.notes_eq]
      rfl
    -- what the first turn notes is what the others find
    | false =>
      rw [turns_cons_of_not_ends rest he, filterMap_fault?_cons, latest_append, ← Turn.notes_eq, ← ih]
      rfl

namespace Round

def faults (r : Round σ) : List Fault := r.turns.filterMap Turn.fault?

/-- A round notes the faults of its turns, in their order. -/
theorem lastFault_after (r : Round σ) : r.after.lastFault = latest r.faults r.monitor.lastFault := by
  rw [faults, turns, ← lastFault_pollSlots, after, Monitor.poll]
  split <;> rfl

theorem faults_eq_nil_iff (r : Round σ) : r.faults = [] ↔ ∀ t ∈ r.turns, t.fault? = none :=
  List.filterMap_eq_nil_iff

/-- In a round with a snapshot no turn ended the round. -/
theorem not_ends_of_outcome {r : Round σ} {snapshot : Snapshot} (h : r.outcome = .ok snapshot) :
    ∀ t ∈ r.turns, t.ends = false := by
  intro t ht
  rw [Bool.eq_false_iff]
  intro hends
  obtain ⟨f, hf, hfatal⟩ := t.ends_iff.mp hends
  rw [outcome_of_ends ht hf hfatal] at h
  cases h

/-- A round without a snapshot was ended by its last turn, with the fault that the round gives. -/
theorem exists_end_of_outcome {r : Round σ} {f : Fault} (h : r.outcome = .error f) :
    ∃ earlier t, r.turns = earlier ++ [t] ∧ t.fault? = some f := by
  by_cases hends : ∃ t ∈ r.turns, t.ends = true
  · -- the turn that ended the round is the last, and gave the fault
    obtain ⟨t, ht, he⟩ := hends
    obtain ⟨g, hg, hfatal⟩ := t.ends_iff.mp he
    obtain ⟨earlier, heq, _⟩ := turns_eq_append_of_ends ht he
    rw [outcome_of_ends ht hg hfatal] at h
    cases h
    exact ⟨earlier, t, heq, hg⟩
  · -- without such a turn the round would have had a snapshot
    have hgo : ∀ t ∈ r.turns, t.ends = false := fun t ht =>
      Bool.eq_false_iff.mpr fun he => hends ⟨t, ht, he⟩
    rw [outcome, Monitor.poll] at h
    simp only [ended_pollSlots_of_not_ends r.monitor.lastFault hgo] at h
    cases h

/-- The fault that ends a round is on record afterwards. -/
theorem lastFault_of_outcome {r : Round σ} {f : Fault} (h : r.outcome = .error f) :
    r.after.lastFault = some f.message := by
  obtain ⟨earlier, t, heq, hf⟩ := exists_end_of_outcome h
  rw [lastFault_after, faults, heq, List.filterMap_append, latest_append, filterMap_fault?_cons, hf]
  rfl

end Round

/-- A turn that failed, and went on, leaves the mark of its fault at the end of the builder. -/
theorem Turn.getLast?_leaves {t : Turn σ} {f : Fault} (hf : t.fault? = some f)
    (hgo : t.ends = false) :
    t.leaves.items.toList.getLast? = some (errorMetric t.slot.name f) := by
  obtain ⟨a, ha, haf⟩ := Option.bind_eq_some_iff.mp hf
  -- the fault is not fatal, so the builder is taken back and marked
  have hfatal : f.isFatal = false := by
    rw [ends, hf] at hgo
    exact hgo
  have hleaves : t.leaves = (a.builder.rollback t.builder.size).add (errorMetric t.slot.name f) := by
    rw [leaves, ha]
    simp only [haf, hfatal, Bool.false_eq_true, if_false]
  rw [hleaves, Builder.add, Array.toList_push, List.getLast?_concat]

/-- **The last failure of a round.** A round with failures has a last turn that failed. The wording of
its fault is on record afterwards, and if the round has a snapshot, the turn has left its mark in the
builder. -/
theorem Round.exists_last_fault {r : Round σ} (h : r.faults ≠ []) :
    ∃ earlier t later f, r.turns = earlier ++ t :: later ∧ t.fault? = some f ∧
      (∀ u ∈ later, u.fault? = none) ∧ r.after.lastFault = some f.message := by
  obtain ⟨f, hf⟩ := Option.ne_none_iff_exists'.mp (mt List.getLast?_eq_none_iff.mp h)
  have hlast : r.after.lastFault = some f.message := by
    rw [r.lastFault_after, latest, hf]
    rfl
  -- read from its end, the round meets this turn first
  rw [faults, List.getLast?_filterMap, List.findSome?_eq_some_iff] at hf
  obtain ⟨later, t, earlier, heq, ht, hlater⟩ := hf
  refine ⟨earlier.reverse, t, later.reverse, f, ?_, ht, ?_, hlast⟩
  · rw [← List.reverse_inj, heq]
    simp
  · intro u hu
    exact hlater u (List.mem_reverse.mp hu)

/-! ## Runs

A run is its rounds, one after the other, and the faults of a run are those of its rounds. -/

namespace Monitor

def faults (m : Monitor σ) (ts : List Moment) : List Fault := (m.rounds ts).flatMap Round.faults

/-- **The wording on record after a run is that of its last fault**, or the one from before. -/
theorem lastFault_after (m : Monitor σ) (ts : List Moment) :
    (m.after ts).lastFault = latest (m.faults ts) m.lastFault := by
  induction ts generalizing m with
  | nil => rfl
  | cons t ts ih =>
    rw [after_cons, ih, (Round.mk m t).lastFault_after, ← latest_append]
    rfl

/-- **The law of the last fault.** Take a monitor that has just been built, over any registry, and any
run of it. The wording on record is that of the last fault of the run, and there is none exactly if no
probe has failed. A round without failures leaves it, and a fault that ends a round is on record
afterwards. In a round that has a snapshot but had failures it is the text of the mark that the last
failure has left, which stands in the snapshot unless a later probe takes metrics away. Whatever
fails, the slots keep their names, their paces and whether they are enabled. -/
theorem last_fault_of_run {ω : Type} {settings : Ini} {host : HostView} {roots : Roots}
    {registry : List (Descriptor (StateM ω) σ)} {world world' : ω} {m : Monitor σ}
    (hm : (build settings host roots registry).run world = (.ok m, world')) (ts : List Moment) :
    (m.after ts).lastFault = (m.faults ts).getLast?.map Fault.message ∧
    ((m.after ts).lastFault = none ↔ ∀ r ∈ m.rounds ts, ∀ t ∈ r.turns, t.fault? = none) ∧
    (∀ r ∈ m.rounds ts,
      ((∀ t ∈ r.turns, t.fault? = none) → r.after.lastFault = r.monitor.lastFault) ∧
      (∀ f, r.outcome = .error f → r.after.lastFault = some f.message) ∧
      (∀ snapshot, r.outcome = .ok snapshot → (∃ t ∈ r.turns, t.fault? ≠ none) →
        ∃ earlier t later f, r.turns = earlier ++ t :: later ∧ t.fault? = some f ∧
          (∀ u ∈ later, u.fault? = none) ∧ r.after.lastFault = some f.message ∧
          let mark : Metric := ⟨"module." ++ t.slot.name ++ ".error", none, .text f.message⟩
          t.leaves.items.toList.getLast? = some mark ∧
          (AppendOnly σ → snapshot.metrics =
            earlier.flatMap Turn.segment ++ mark :: later.flatMap Turn.segment)) ∧
      r.after.fixedStatus = m.fixedStatus ∧ r.after.enabledCount = m.enabledCount) := by
  have hnone := lastFault_of_build hm
  refine ⟨?_, ?_, fun r hr => ⟨?_, fun f => Round.lastFault_of_outcome, ?_, ?_, ?_⟩⟩
  · rw [lastFault_after, hnone, latest, Option.or_none]
  · rw [lastFault_after, hnone, latest_eq_none_iff]
    simp only [faults, List.flatMap_eq_nil_iff, Round.faults_eq_nil_iff, and_true]
  · -- a round without failures
    intro hquiet
    rw [r.lastFault_after, r.faults_eq_nil_iff.mpr hquiet, latest_nil]
  · -- a round with a snapshot in which something failed
    rintro snapshot hok ⟨u, hu, hfailed⟩
    have hfaults : r.faults ≠ [] := fun hnil => hfailed (r.faults_eq_nil_iff.mp hnil u hu)
    obtain ⟨earlier, t, later, f, heq, hf, hlater, hlast⟩ := Round.exists_last_fault hfaults
    have hgo := Round.not_ends_of_outcome hok
    have ht : t ∈ r.turns := by rw [heq]; exact List.mem_append_right _ List.mem_cons_self
    refine ⟨earlier, t, later, f, heq, hf, hlater, hlast, Turn.getLast?_leaves hf (hgo t ht), ?_⟩
    intro _
    rw [Round.outcome_of_not_ends hgo] at hok
    rw [← Except.ok.inj hok, heq, List.flatMap_append, List.flatMap_cons, Turn.segment, hf]
    rfl
  · rw [fixedStatus_eq, fixedStatus_eq, r.fixed_after, fixed_of_mem_rounds hr]
  · rw [enabledCount_eq, enabledCount_eq, r.fixed_after, fixed_of_mem_rounds hr]

/-- The interface is gone, comes back, and is gone again for another cause. -/
theorem last_fault_of_run_ofWire :
    let wire : Descriptor (StateM Unit) Builtin :=
      ⟨"uplink", fun _ => pure (.ok (.network ⟨⟨"/proc/net/dev"⟩, "eth0", none, .zero⟩))⟩
    let moments : List Moment :=
      [⟨0, .failing .noEntry⟩, ⟨1000, .wired⟩, ⟨2000, .failing .notText⟩, ⟨3000, .wired⟩]
    ∃ m : Monitor Builtin, (build .empty .wired .standard [wire]).run () = (.ok m, ()) ∧
      (m.after moments).lastFault =
        some "failed to read /proc/net/dev: stream did not contain valid UTF-8" ∧
      ∀ r ∈ m.rounds moments, r.after.enabledCount = 1 := by
  intro wire moments
  let m : Monitor Builtin :=
    ⟨1000, [⟨"uplink", 0, some (.network ⟨⟨"/proc/net/dev"⟩, "eth0", none, .zero⟩), none⟩], none⟩
  have hm : (build .empty .wired .standard [wire]).run () = (.ok m, ()) := rfl
  obtain ⟨hlast, _, hrounds⟩ := last_fault_of_run hm moments
  refine ⟨m, hm, hlast.trans ?_, fun r hr => (hrounds r hr).2.2.2.2⟩
  rfl

end Monitor

end HostMeter
