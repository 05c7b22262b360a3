import HostMeter.Proofs.Monitor.Turns
/-!
# History — the rounds of a run

A run is a list of moments. Its *history* is the list of rounds that take place, each with the monitor
that it finds; what a slot did over a run is then a statement about a list.

* `Round`: a round, with its turns, its outcome and the monitor afterwards.
* `Monitor.rounds`: the history of a run. `Monitor.rounds_append` and `Monitor.after_append` cut it
  between two moments, `Monitor.exists_cut_of_mem_rounds` at one of its rounds.
* `Round.slot_after`: what becomes of the slot at one position.
* `Monitor.run_preserves`, `Monitor.exists_kept_of_mem_rounds`: what every turn keeps of a slot, a whole
  run keeps of all slots, and every round of it finds of the slot at a position.
-/

namespace HostMeter

/-! ## One round

A round is told by its turns. Either the turns reach a position, and the slot there is what its turn made of
it, or the round has ended before, and the slot is as it was; both cases are one equation. -/

/-- A round: the monitor that it finds and the moment at which it takes place. -/
structure Round (σ : Type) where
  monitor : Monitor σ
  moment : Moment

namespace Round

variable {σ : Type} [Probe σ]

def turns (r : Round σ) : List (Turn σ) :=
  HostMeter.turns r.moment.now r.moment.host r.monitor.slots .empty

/-- The turn of the slot at a position, if the round reaches it. -/
def turn? (r : Round σ) (index : Nat) : Option (Turn σ) := r.turns[index]?

def after (r : Round σ) : Monitor σ := (r.monitor.poll r.moment.now r.moment.host).1

/-- The snapshot, or the fault that ended the round. -/
def outcome (r : Round σ) : Except Fault Snapshot :=
  (r.monitor.poll r.moment.now r.moment.host).2

def refreshed (r : Round σ) (index : Nat) : Bool := (r.turn? index).any Turn.refreshed

/-- What the slot at a position contributed to the snapshot. -/
def segment (r : Round σ) (index : Nat) : List Metric := ((r.turn? index).map Turn.segment).getD []

/-- The slots that had their turn are changed by it, the others are as before. -/
theorem slots_after (r : Round σ) :
    r.after.slots = r.turns.map Turn.after ++ r.monitor.slots.drop r.turns.length := by
  rw [turns, ← slots_pollSlots r.monitor.slots .empty r.monitor.lastFault, after, Monitor.poll]
  split <;> rfl

theorem interval_after (r : Round σ) : r.after.interval = r.monitor.interval := by
  rw [after, Monitor.poll]
  split <;> rfl

/-- What is fixed about the slots, a round keeps: whether a slot had its turn or not, it keeps its name, its
pace and whether it is enabled. -/
theorem fixed_after (r : Round σ) :
    r.after.slots.map Slot.fixed = r.monitor.slots.map Slot.fixed := by
  have horder := slots_eq_turns r.moment.now r.moment.host r.monitor.slots .empty
  have hturns : (r.turns.map Turn.after).map Slot.fixed = (r.turns.map Turn.slot).map Slot.fixed := by
    rw [List.map_map, List.map_map]
    exact List.map_congr_left fun t _ => t.fixed_after
  rw [r.slots_after, List.map_append, hturns, ← List.map_append]
  exact congrArg (List.map Slot.fixed) horder.symm

/-- The turn at a position is one of the slot that stands there. -/
theorem slot_of_turn? {r : Round σ} {index : Nat} {t : Turn σ} (h : r.turn? index = some t) :
    r.monitor.slots[index]? = some t.slot := by
  have hlt : index < r.turns.length := (List.getElem?_eq_some_iff.mp h).1
  rw [slots_eq_turns r.moment.now r.moment.host r.monitor.slots .empty]
  show (r.turns.map Turn.slot ++ _)[index]? = _
  rw [List.getElem?_append_left (by rw [List.length_map]; exact hlt), List.getElem?_map]
  show (r.turn? index).map Turn.slot = _
  rw [h]
  rfl

/-- **What becomes of one slot.** It is changed by its turn, or it is as before. -/
theorem slot_after (r : Round σ) (index : Nat) :
    r.after.slots[index]? =
      match r.turn? index with
      | some t => some t.after
      | none => r.monitor.slots[index]? := by
  have hafter := r.slots_after
  cases ht : r.turn? index with
  | some t =>
    -- the turns come first among the slots after the round
    have hlt : index < r.turns.length := (List.getElem?_eq_some_iff.mp ht).1
    rw [hafter, List.getElem?_append_left (by rw [List.length_map]; exact hlt), List.getElem?_map]
    show (r.turn? index).map Turn.after = _
    rw [ht]
    rfl
  | none =>
    -- the slot is one of those that the round did not reach
    have hle : r.turns.length ≤ index := List.getElem?_eq_none_iff.mp ht
    rw [hafter, List.getElem?_append_right (by rw [List.length_map]; exact hle), List.length_map,
      List.getElem?_drop, Nat.add_sub_cancel' hle]

theorem moment_of_turn? {r : Round σ} {index : Nat} {t : Turn σ} (h : r.turn? index = some t) :
    t.now = r.moment.now ∧ t.host = r.moment.host :=
  moment_of_mem_turns (List.mem_of_getElem? h)

theorem slot_eq_of_turn? {r : Round σ} {index : Nat} {t : Turn σ} {s : Slot σ}
    (h : r.turn? index = some t) (hs : r.monitor.slots[index]? = some s) : t.slot = s :=
  Option.some.inj ((slot_of_turn? h).symm.trans hs)

theorem after_of_turn? {r : Round σ} {index : Nat} {t : Turn σ} (h : r.turn? index = some t) :
    r.after.slots[index]? = some t.after := by
  rw [r.slot_after, h]

theorem refreshed_of_turn? {r : Round σ} {index : Nat} {t : Turn σ} (h : r.turn? index = some t) :
    r.refreshed index = t.refreshed := by
  rw [refreshed, h]
  rfl

/-- A turn is known by its slot, the moment of the round, and the builder that it is given. -/
theorem turn?_eq {r : Round σ} {index : Nat} {t : Turn σ} {s : Slot σ}
    (h : r.turn? index = some t) (hs : r.monitor.slots[index]? = some s) :
    t = ⟨s, r.moment.now, r.moment.host, t.builder⟩ := by
  obtain ⟨hnow, hhost⟩ := moment_of_turn? h
  rw [← hnow, ← hhost, ← slot_eq_of_turn? h hs]

/-- A slot refreshed if it had its turn and the turn was a refresh. -/
theorem refreshed_iff (r : Round σ) (index : Nat) :
    r.refreshed index = true ↔ ∃ t, r.turn? index = some t ∧ t.refreshed = true := by
  rw [refreshed, Option.any_eq_true]

/-- Only a slot that is due refreshes. -/
theorem due_of_refreshed {r : Round σ} {index : Nat} {s : Slot σ}
    (hs : r.monitor.slots[index]? = some s) (h : r.refreshed index = true) :
    s.due r.moment.now = true := by
  obtain ⟨t, ht, href⟩ := (r.refreshed_iff index).mp h
  rw [turn?_eq ht hs, Turn.refreshed, Bool.and_eq_true] at href
  exact href.1

/-- **What a round records about one slot.** Its pace stays, and the time of the round is recorded
exactly if the slot refreshed. -/
theorem exists_slot_after {r : Round σ} {index : Nat} {s : Slot σ}
    (hs : r.monitor.slots[index]? = some s) :
    ∃ s', r.after.slots[index]? = some s' ∧ s'.fixed = s.fixed ∧
      s'.lastRefresh = if r.refreshed index then some r.moment.now else s.lastRefresh := by
  cases ht : r.turn? index with
  | none =>
    -- the round ended before it reached the slot
    have hafter := r.slot_after index
    have href : r.refreshed index = false := by rw [refreshed, ht]; rfl
    rw [ht] at hafter
    exact ⟨s, hafter.trans hs, rfl, by rw [href]; rfl⟩
  | some t =>
    have hslot := slot_eq_of_turn? ht hs
    refine ⟨t.after, after_of_turn? ht, by rw [t.fixed_after, hslot], ?_⟩
    rw [t.lastRefresh_after, refreshed_of_turn? ht, hslot, (moment_of_turn? ht).1]

end Round

/-! ## The rounds of a run

The history is defined by recursion on the moments. What holds of all its rounds is not proved by that
recursion each time: a round cuts the run in two, and it finds what a run of the moments before it leaves.
-/

namespace Monitor

variable {σ : Type} [Probe σ]

/-- The history of a run. -/
def rounds (m : Monitor σ) : List Moment → List (Round σ)
  | [] => []
  | t :: ts => ⟨m, t⟩ :: (m.poll t.now t.host).1.rounds ts

def after (m : Monitor σ) (ts : List Moment) : Monitor σ := (m.run ts).1

@[simp] theorem after_cons (m : Monitor σ) (t : Moment) (ts : List Moment) :
    m.after (t :: ts) = (Round.mk m t).after.after ts := rfl

@[simp] theorem rounds_cons (m : Monitor σ) (t : Moment) (ts : List Moment) :
    m.rounds (t :: ts) = ⟨m, t⟩ :: (Round.mk m t).after.rounds ts := rfl

/-- A run of moments and then of others is two runs, the second from where the first ends. -/
theorem after_append (m : Monitor σ) (ts us : List Moment) :
    m.after (ts ++ us) = (m.after ts).after us := by
  induction ts generalizing m with
  | nil => rfl
  | cons t ts ih => exact ih _

/-- What is fixed about the slots, a run keeps. -/
theorem fixed_after (m : Monitor σ) (ts : List Moment) :
    (m.after ts).slots.map Slot.fixed = m.slots.map Slot.fixed := by
  induction ts generalizing m with
  | nil => rfl
  | cons t ts ih =>
    rw [after_cons, ih]
    exact (Round.mk m t).fixed_after

/-- The history of a run of moments and then of others is that of the two runs. -/
theorem rounds_append (m : Monitor σ) (ts us : List Moment) :
    m.rounds (ts ++ us) = m.rounds ts ++ (m.after ts).rounds us := by
  induction ts generalizing m with
  | nil => rfl
  | cons t ts ih =>
    rw [List.cons_append, rounds_cons, rounds_cons, ih]
    rfl

/-- The outcomes of a run are those of the rounds of its history. -/
theorem outcomes_run (m : Monitor σ) (ts : List Moment) :
    (m.run ts).2 = (m.rounds ts).map Round.outcome := by
  induction ts generalizing m with
  | nil => rfl
  | cons t ts ih =>
    rw [rounds_cons, List.map_cons, ← ih]
    rfl

/-- There is a round for each moment. -/
theorem length_rounds (m : Monitor σ) (ts : List Moment) : (m.rounds ts).length = ts.length := by
  induction ts generalizing m with
  | nil => rfl
  | cons t ts ih => exact congrArg Nat.succ (ih _)

/-- **A round cuts its run.** The moments of a run are those before the round, its own, and those
behind it, and the round finds the monitor that the moments before it leave. -/
theorem exists_cut_of_mem_rounds {m : Monitor σ} {ts : List Moment} {r : Round σ}
    (hr : r ∈ m.rounds ts) :
    ∃ earlier later, ts = earlier ++ r.moment :: later ∧ r.monitor = m.after earlier := by
  induction ts generalizing m with
  | nil => cases hr
  | cons t ts ih =>
    rw [rounds_cons] at hr
    rcases List.mem_cons.mp hr with rfl | hr
    · exact ⟨[], ts, rfl, rfl⟩
    · obtain ⟨earlier, later, heq, hmonitor⟩ := ih hr
      exact ⟨t :: earlier, later, by rw [heq]; rfl, hmonitor⟩

/-- A round takes place at one of the moments of the run. -/
theorem moment_mem_of_mem_rounds {m : Monitor σ} {ts : List Moment} {r : Round σ}
    (hr : r ∈ m.rounds ts) : r.moment ∈ ts := by
  obtain ⟨earlier, later, rfl, _⟩ := exists_cut_of_mem_rounds hr
  exact List.mem_append_right earlier List.mem_cons_self

/-- What is fixed about the slots, every round of a run finds as it was at the start. -/
theorem fixed_of_mem_rounds {m : Monitor σ} {ts : List Moment} {r : Round σ} (hr : r ∈ m.rounds ts) :
    r.monitor.slots.map Slot.fixed = m.slots.map Slot.fixed := by
  obtain ⟨earlier, _, _, hmonitor⟩ := exists_cut_of_mem_rounds hr
  rw [hmonitor, fixed_after]

/-- What every turn keeps of a slot, a run keeps of the slot at a position. -/
theorem exists_kept_after {P : Slot σ → Prop} (hturn : ∀ t : Turn σ, P t.slot → P t.after)
    {m : Monitor σ} (ts : List Moment) {index : Nat} {s : Slot σ} (hs : m.slots[index]? = some s)
    (hkept : P s) : ∃ s', (m.after ts).slots[index]? = some s' ∧ P s' := by
  induction ts generalizing m s with
  | nil => exact ⟨s, hs, hkept⟩
  | cons t ts ih =>
    have hafter := (Round.mk m t).slot_after index
    cases hu : (Round.mk m t).turn? index with
    | none =>
      -- the round ended before it reached the slot
      rw [hu] at hafter
      exact ih (hafter.trans hs) hkept
    | some u =>
      rw [hu] at hafter
      refine ih hafter (hturn u ?_)
      rw [Round.slot_eq_of_turn? hu hs]
      exact hkept

/-- What every turn keeps of a slot, every round of a run finds of the slot at a position. -/
theorem exists_kept_of_mem_rounds {P : Slot σ → Prop} (hturn : ∀ t : Turn σ, P t.slot → P t.after)
    {m : Monitor σ} {ts : List Moment} {r : Round σ} {index : Nat} {s : Slot σ}
    (hs : m.slots[index]? = some s) (hkept : P s) (hr : r ∈ m.rounds ts) :
    ∃ s', r.monitor.slots[index]? = some s' ∧ P s' := by
  obtain ⟨earlier, _, _, hmonitor⟩ := exists_cut_of_mem_rounds hr
  rw [hmonitor]
  exact exists_kept_after hturn earlier hs hkept

/-- Every round of a run finds a slot at the position of a slot, with the same name and pace. -/
theorem slot_of_mem_rounds {m : Monitor σ} {ts : List Moment} {r : Round σ} {index : Nat}
    {s : Slot σ} (hs : m.slots[index]? = some s) (hr : r ∈ m.rounds ts) :
    ∃ s', r.monitor.slots[index]? = some s' ∧ s'.fixed = s.fixed :=
  exists_kept_of_mem_rounds (P := fun u => u.fixed = s.fixed) (fun t h => t.fixed_after.trans h)
    hs rfl hr

/-- What the turns of a round keep of their slots, the round keeps of all slots. -/
theorem poll_preserves_of_turns {P : Slot σ → Prop} (r : Round σ)
    (hturn : ∀ t ∈ r.turns, P t.slot → P t.after) (h : ∀ s ∈ r.monitor.slots, P s) :
    ∀ s ∈ r.after.slots, P s := by
  intro s hs
  obtain ⟨index, hindex⟩ := List.mem_iff_getElem?.mp hs
  rw [r.slot_after] at hindex
  cases ht : r.turn? index with
  -- a slot that had its turn: the turn keeps it
  | some t =>
    rw [ht] at hindex
    rw [← Option.some.inj hindex]
    exact hturn t (List.mem_of_getElem? ht) (h _ (List.mem_of_getElem? (Round.slot_of_turn? ht)))
  -- a slot that the round did not reach is one that it found
  | none =>
    rw [ht] at hindex
    exact h s (List.mem_of_getElem? hindex)

/-- What every turn at the moments of a run keeps of a slot, the run keeps of all slots. The induction
is on the run; a turn of its first round takes place at the first moment. -/
theorem run_preserves_at {P : Slot σ → Prop} {m : Monitor σ} {ts : List Moment}
    (hturn : ∀ t : Turn σ, ⟨t.now, t.host⟩ ∈ ts → P t.slot → P t.after) (h : ∀ s ∈ m.slots, P s) :
    ∀ s ∈ (m.after ts).slots, P s := by
  induction ts generalizing m with
  | nil => exact h
  | cons u ts ih =>
    refine ih (fun v hv => hturn v (List.mem_cons_of_mem u hv)) ?_
    refine poll_preserves_of_turns ⟨m, u⟩ (fun v hv => hturn v ?_) h
    obtain ⟨hnow, hhost⟩ := moment_of_mem_turns hv
    rw [hnow, hhost]
    exact List.mem_cons_self

/-- **What every turn keeps of a slot, a whole run keeps of all slots.** -/
theorem run_preserves {P : Slot σ → Prop} (hturn : ∀ t : Turn σ, P t.slot → P t.after)
    (m : Monitor σ) (ts : List Moment) (h : ∀ s ∈ m.slots, P s) : ∀ s ∈ (m.after ts).slots, P s :=
  run_preserves_at (fun t _ => hturn t) h

/-- What every turn at the moments of a run keeps of a slot, every turn of the run finds of its slot:
the round of the turn finds what the moments before it leave. -/
theorem kept_of_mem_turns_at {P : Slot σ → Prop} {m : Monitor σ} {ts : List Moment}
    (hturn : ∀ t : Turn σ, ⟨t.now, t.host⟩ ∈ ts → P t.slot → P t.after) (h : ∀ s ∈ m.slots, P s)
    {r : Round σ} (hr : r ∈ m.rounds ts) {t : Turn σ} (ht : t ∈ r.turns) : P t.slot := by
  obtain ⟨earlier, later, rfl, hmonitor⟩ := exists_cut_of_mem_rounds hr
  have hfound : ∀ s ∈ r.monitor.slots, P s := by
    rw [hmonitor]
    exact run_preserves_at (fun u hu => hturn u (List.mem_append_left _ hu)) h
  refine hfound t.slot ?_
  rw [slots_eq_turns r.moment.now r.moment.host r.monitor.slots .empty]
  exact List.mem_append_left _ (List.mem_map_of_mem ht)

/-- What every turn keeps of a slot, every turn of a run finds of its slot. -/
theorem kept_of_mem_turns {P : Slot σ → Prop} (hturn : ∀ t : Turn σ, P t.slot → P t.after)
    {m : Monitor σ} {ts : List Moment} (h : ∀ s ∈ m.slots, P s) {r : Round σ} (hr : r ∈ m.rounds ts)
    {t : Turn σ} (ht : t ∈ r.turns) : P t.slot :=
  kept_of_mem_turns_at (fun t _ => hturn t) h hr ht

end Monitor

end HostMeter
