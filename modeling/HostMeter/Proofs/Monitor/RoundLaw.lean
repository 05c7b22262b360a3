import HostMeter.Proofs.Monitor.Segments
/-!
# Round law — what one round does

The law of a round says what becomes of the slots and of the snapshot without saying how the round
goes about it: who is asked, in which order, when, with what in the builder, and what each answer
leads to.

* `IsRound`: the law.
* `Monitor.pollBy_isRound`: every round over probes that only add to the builder obeys it, and reads
  its clock once.
-/

namespace HostMeter

variable {σ : Type} [Probe σ]

/-- **The law of a round.** Some slots at the front of the registry have their turns, the rest is
untouched. -/
structure IsRound (m : Monitor σ) (now : UInt64) (host : HostView) (turns : List (Turn σ))
    (untouched : List (Slot σ)) (after : Monitor σ) (outcome : Except Fault Snapshot) : Prop where
  order : m.slots = turns.map Turn.slot ++ untouched
  moment : ∀ t ∈ turns, t.now = now ∧ t.host = host
  /-- A turn finds the segments of the turns before it in the builder, and nothing else. -/
  handed : ∀ earlier t later, turns = earlier ++ t :: later →
    t.builder.items.toList = earlier.flatMap Turn.segment
  /-- The schedule, counted over unbounded numbers. -/
  due : ∀ t ∈ turns, t.slot.due now = true ↔
    t.slot.refresh = 0 ∨ t.slot.lastRefresh = none ∨
      ∃ last, t.slot.lastRefresh = some last ∧ last.toNat + t.slot.refresh.toNat ≤ now.toNat
  asked : ∀ t ∈ turns, t.answer? =
    t.slot.probe.map fun p => Probe.poll p now (t.slot.due now) host t.builder
  /-- A slot without a probe contributes nothing. -/
  disabled : ∀ t ∈ turns, t.slot.probe = none → t.segment = [] ∧ t.after = t.slot
  /-- A probe that succeeds contributes all that it added, and a due refresh is recorded. -/
  succeeded : ∀ t ∈ turns, ∀ a, t.answer? = some a → a.fault = none →
    a.builder.items.toList = t.builder.items.toList ++ t.segment ∧
    t.after = { t.slot with
      probe := some a.probe
      lastRefresh := if t.slot.due now then some now else t.slot.lastRefresh }
  /-- A probe that fails contributes the wording of its fault and nothing of what it added. -/
  failed : ∀ t ∈ turns, ∀ a f, t.answer? = some a → a.fault = some f →
    t.segment = [⟨"module." ++ t.slot.name ++ ".error", none, .text f.message⟩] ∧
    t.after = { t.slot with probe := some a.probe }
  slots : after.slots = turns.map Turn.after ++ untouched
  interval : after.interval = m.interval
  /-- Without exhausted memory, every slot has its turn and the segments are the snapshot. -/
  completes : (∀ t ∈ turns, ∀ f, t.fault? = some f → f.kind ≠ .outOfMemory) →
    untouched = [] ∧ outcome = .ok ⟨turns.flatMap Turn.segment⟩
  /-- Exhausted memory ends the round in the turn in which it is met, without a snapshot. -/
  aborts : ∀ t ∈ turns, ∀ f, t.fault? = some f → f.kind = .outOfMemory →
    outcome = .error f ∧ ∃ earlier, turns = earlier ++ [t]

/-- A slot is due if it has no pace, if it has not refreshed, or if its pace has passed since it did. The
last is said of unbounded numbers: nothing wraps around. -/
theorem Slot.due_iff_cases {σ : Type} (s : Slot σ) (now : UInt64) :
    s.due now = true ↔
      s.refresh = 0 ∨ s.lastRefresh = none ∨
        ∃ last, s.lastRefresh = some last ∧ last.toNat + s.refresh.toNat ≤ now.toNat := by
  rw [s.due_iff]
  cases s.lastRefresh with
  | none => simp
  | some last => simp

/-- A round takes place at what its clock shows, and leaves the clock as one reading does. -/
theorem Monitor.run_pollBy {κ : Type} (m : Monitor σ) (clock : StateM κ UInt64) (c : κ)
    (host : HostView) :
    (m.pollBy clock host).run c = (m.poll (clock.run c).1 host, (clock.run c).2) := rfl

/-- **Every round obeys the law and reads its clock once.** The clock may be any source of times,
with a state `κ` that changes whenever it is read. -/
theorem Monitor.pollBy_isRound [AppendOnly σ] {κ : Type} (m : Monitor σ) (clock : StateM κ UInt64)
    (c : κ) (host : HostView) :
    ∃ turns untouched after outcome,
      (m.pollBy clock host).run c = ((after, outcome), (clock.run c).2) ∧
      IsRound m (clock.run c).1 host turns untouched after outcome := by
  let r : Round σ := ⟨m, (clock.run c).1, host⟩
  have hmoment : ∀ t ∈ r.turns, t.now = r.moment.now ∧ t.host = r.moment.host :=
    fun t ht => moment_of_mem_turns ht
  refine ⟨r.turns, m.slots.drop r.turns.length, r.after, r.outcome, m.run_pollBy clock c host, ?_⟩
  exact {
    order := slots_eq_turns r.moment.now r.moment.host m.slots .empty
    moment := hmoment
    handed := fun earlier t later h => toList_builder_of_turns_eq h
    due := fun t _ => t.slot.due_iff_cases _
    asked := by
      intro t ht
      obtain ⟨hnow, hhost⟩ := hmoment t ht
      rw [Turn.answer?, hnow, hhost]
    disabled := by
      intro t _ hp
      have ha := Turn.answer?_eq_none hp
      constructor
      · rw [Turn.segment, Turn.fault?, Turn.emitted, ha]
        rfl
      · rw [Turn.after, ha]
    succeeded := by
      intro t ht a ha hf
      have hfault : t.fault? = none := (Turn.fault?_of_answer? ha).trans hf
      constructor
      · rw [Turn.segment, hfault]
        exact Turn.toList_answer ha
      · rw [Turn.after_of_succeeded ha hf, (hmoment t ht).1]
    failed := by
      intro t _ a f ha hf
      have hfault : t.fault? = some f := (Turn.fault?_of_answer? ha).trans hf
      constructor
      · rw [Turn.segment, hfault]
        rfl
      · exact Turn.after_of_failed ha hf
    slots := r.slots_after
    interval := r.interval_after
    completes := by
      intro hmemory
      have hgo : ∀ t ∈ r.turns, t.ends = false := by
        intro t ht
        rw [Bool.eq_false_iff]
        intro hends
        obtain ⟨f, hf, hfatal⟩ := t.ends_iff.mp hends
        exact hmemory t ht f hf (f.isFatal_iff.mp hfatal)
      refine ⟨?_, Round.outcome_of_not_ends hgo⟩
      rw [show r.turns.length = m.slots.length from length_turns hgo, List.drop_length]
    aborts := by
      intro t ht f hf hkind
      have hfatal := f.isFatal_iff.mpr hkind
      obtain ⟨earlier, heq, _⟩ := turns_eq_append_of_ends ht (t.ends_iff.mpr ⟨f, hf, hfatal⟩)
      exact ⟨Round.outcome_of_ends ht hf hfatal, earlier, heq⟩ }

/-! ## Scripted probes

The law is not about the probes of this library alone. Probes that follow a script can fail in any way, also
after they have added metrics without names. -/

/-- A probe that answers every round alike: it adds its metrics, named or not, and then meets its
fault, if it has one. -/
structure Script where
  metrics : List Metric
  fault : Option Fault

instance : Probe Script where
  poll p _ _ _ b := ⟨p, { b with items := b.items ++ p.metrics.toArray }, p.fault⟩

instance : AppendOnly Script where
  appends p _ _ _ _ := ⟨p.metrics, Array.toList_append⟩

/-- A probe that fails half way, one that succeeds, one that exhausts the memory, and one that is not
reached. -/
def Monitor.scripted : Monitor Script :=
  let metric : Metric := ⟨"value", none, .uint64 1⟩
  { interval := 1000
    slots :=
      [⟨"partial", 0, some ⟨[metric], some (.io "reading" .noEntry)⟩, none⟩,
       ⟨"steady", 500, some ⟨[metric], none⟩, none⟩,
       ⟨"greedy", 0, some ⟨[metric], some (.outOfMemory "buffer")⟩, none⟩,
       ⟨"late", 0, some ⟨[metric], none⟩, none⟩]
    lastFault := none }

/-- A clock that counts how often it was read. -/
def countedClock : StateM Nat UInt64 := fun readings => (7000, readings + 1)

/-- Here a round that is ended by its third slot, read off a clock that counts its readings. -/
theorem Monitor.pollBy_isRound_scripted :
    AppendOnly Script ∧ ∃ turns untouched after outcome,
      (scripted.pollBy countedClock (.failing .noEntry)).run 3 = ((after, outcome), 4) ∧
      IsRound scripted 7000 (.failing .noEntry) turns untouched after outcome :=
  ⟨inferInstance, scripted.pollBy_isRound countedClock 3 (.failing .noEntry)⟩

end HostMeter
