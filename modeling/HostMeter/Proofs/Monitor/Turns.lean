import HostMeter.Monitor.Round
/-!
# Turns — a round taken apart

`pollSlots` carries the slots, the builder and the last fault through one recursion and may stop in
its middle. This module tells the same round as the list of the *turns* that take place in it, so
that a statement about a round becomes one about a single turn.

* `Turn`: a slot's turn. What it is handed is data, what it does (`Turn.answer?`, `Turn.after`,
  `Turn.leaves`, `Turn.segment`) follows from that.
* `turns`: the turns of a round. A turn that ends the round is the last one.
* `pollSlots_cons`: one step of `pollSlots`, told as a turn. All the lemmas after it are inductions
  on the slots with this equation as their step.
-/

namespace HostMeter

/-! ## One turn

What a turn is handed is the data that one pass of the recursion is given. What it does is read off the
answer of the probe, in one definition for each part of the state. -/

/-- What is fixed about a slot when the monitor is built: its name, its pace, and whether it takes
part in rounds. -/
def Slot.fixed {σ : Type} (s : Slot σ) : String × UInt32 × Bool := (s.name, s.refresh, s.enabled)

/-- A slot's turn in a round: the slot as the round finds it, the time and the host of the round, and
the builder that the turn is handed. -/
structure Turn (σ : Type) where
  slot : Slot σ
  now : UInt64
  host : HostView
  builder : Builder

namespace Turn

variable {σ : Type} [Probe σ]

/-- The answer of the slot's probe; a slot without a probe gives none. -/
def answer? (t : Turn σ) : Option (Polled σ) :=
  t.slot.probe.map fun p => Probe.poll p t.now (t.slot.due t.now) t.host t.builder

def fault? (t : Turn σ) : Option Fault := t.answer?.bind Polled.fault

def succeeded (t : Turn σ) : Bool := t.answer?.any fun a => a.fault.isNone

/-- Did the slot refresh: was a refresh due, and did the probe succeed? -/
def refreshed (t : Turn σ) : Bool := t.slot.due t.now && t.succeeded

def ends (t : Turn σ) : Bool := t.fault?.any Fault.isFatal

def after (t : Turn σ) : Slot σ :=
  match t.answer? with
  | none => t.slot
  | some a =>
    { t.slot with
      probe := some a.probe
      lastRefresh := if t.refreshed then some t.now else t.slot.lastRefresh }

/-- What the probe added to the builder, whether it succeeded or not. -/
def emitted (t : Turn σ) : List Metric :=
  match t.answer? with
  | none => []
  | some a => a.builder.items.toList.drop t.builder.size

/-- What the turn contributes to the snapshot: the metrics of the probe, or the mark of its fault in
their place. -/
def segment (t : Turn σ) : List Metric :=
  match t.fault? with
  | none => t.emitted
  | some f => [errorMetric t.slot.name f]

/-- The builder afterwards. A probe that failed is taken back to where it found the builder. -/
def leaves (t : Turn σ) : Builder :=
  match t.answer? with
  | none => t.builder
  | some a =>
    match a.fault with
    | none => a.builder
    | some f =>
      if f.isFatal then a.builder
      else (a.builder.rollback t.builder.size).add (errorMetric t.slot.name f)

/-- The wording of the last fault afterwards, from the one before. -/
def notes (t : Turn σ) (lastFault : Option String) : Option String :=
  match t.fault? with
  | none => lastFault
  | some f => some f.message

/-! ### What a turn does -/

theorem answer?_eq_none {t : Turn σ} (h : t.slot.probe = none) : t.answer? = none := by
  rw [answer?, h]
  rfl

/-- A slot with a probe is asked with the time of the round, its own due rule, the host, and the builder as
it stands. -/
theorem answer?_eq_some {t : Turn σ} {p : σ} (h : t.slot.probe = some p) :
    t.answer? = some (Probe.poll p t.now (t.slot.due t.now) t.host t.builder) := by
  rw [answer?, h]
  rfl

/-- A turn keeps the name and the pace of its slot, and whether it is enabled. -/
theorem fixed_after (t : Turn σ) : t.after.fixed = t.slot.fixed := by
  cases h : t.slot.probe with
  | none => rw [after, answer?_eq_none h]
  | some p =>
    rw [after, answer?_eq_some h]
    -- whatever the probe answers, it is a probe again
    show (t.slot.name, t.slot.refresh, true) = (t.slot.name, t.slot.refresh, t.slot.probe.isSome)
    rw [h]
    rfl

/-- The time of the round is recorded if the turn is a refresh, and nothing else changes it. -/
theorem lastRefresh_after (t : Turn σ) :
    t.after.lastRefresh = if t.refreshed then some t.now else t.slot.lastRefresh := by
  cases h : t.slot.probe with
  | none =>
    -- without an answer there is no success to record
    have hs : t.succeeded = false := by rw [succeeded, answer?_eq_none h]; rfl
    rw [after, answer?_eq_none h, refreshed, hs, Bool.and_false]
    rfl
  | some p =>
    rw [after, answer?_eq_some h]

/-- The fault of a turn is that of the answer. -/
theorem fault?_of_answer? {t : Turn σ} {a : Polled σ} (ha : t.answer? = some a) :
    t.fault? = a.fault := by
  rw [fault?, ha]
  rfl

/-- A turn without a fault takes over the probe, and the time if a refresh was due. -/
theorem after_of_succeeded {t : Turn σ} {a : Polled σ} (ha : t.answer? = some a)
    (hf : a.fault = none) :
    t.after = { t.slot with
      probe := some a.probe
      lastRefresh := if t.slot.due t.now then some t.now else t.slot.lastRefresh } := by
  have hs : t.succeeded = true := by
    rw [succeeded, ha]
    exact Option.isNone_iff_eq_none.mpr hf
  rw [after, ha, refreshed, hs, Bool.and_true]

/-- A turn with a fault takes over the probe and records nothing. -/
theorem after_of_failed {t : Turn σ} {a : Polled σ} {f : Fault} (ha : t.answer? = some a)
    (hf : a.fault = some f) : t.after = { t.slot with probe := some a.probe } := by
  have hs : t.succeeded = false := by
    rw [succeeded, ha]
    show a.fault.isNone = false
    rw [hf]
    rfl
  rw [after, ha, refreshed, hs, Bool.and_false]
  rfl

theorem ends_iff (t : Turn σ) : t.ends = true ↔ ∃ f, t.fault? = some f ∧ f.isFatal = true := by
  rw [ends, Option.any_eq_true]

end Turn

/-! ## The turns of a round

The list of the turns runs along the slots and hands the builder from one to the next. `pollSlots_cons` says
that the recursion of a round does the same. -/

section Turns

variable {σ : Type} [Probe σ]

/-- The turns of a round over some slots. The first turn that ends the round is the last one. -/
def turns (now : UInt64) (host : HostView) : List (Slot σ) → Builder → List (Turn σ)
  | [], _ => []
  | s :: rest, b =>
    let t : Turn σ := ⟨s, now, host, b⟩
    if t.ends then [t] else t :: turns now host rest t.leaves

variable {now : UInt64} {host : HostView}

/-- A first turn that ends the round is its only turn. -/
theorem turns_cons_of_ends {s : Slot σ} {b : Builder} (rest : List (Slot σ))
    (h : (Turn.mk s now host b).ends = true) :
    turns now host (s :: rest) b = [⟨s, now, host, b⟩] := by
  rw [turns]
  exact if_pos h

/-- A first turn that goes on hands what it leaves of the builder to the next. -/
theorem turns_cons_of_not_ends {s : Slot σ} {b : Builder} (rest : List (Slot σ))
    (h : (Turn.mk s now host b).ends = false) :
    turns now host (s :: rest) b =
      ⟨s, now, host, b⟩ :: turns now host rest (Turn.mk s now host b).leaves := by
  rw [turns]
  exact if_neg (by rw [h]; exact Bool.false_ne_true)

/-- The mark of a fault is never refused, since it has a name. -/
theorem push_errorMetric (b : Builder) (name : String) (f : Fault) :
    b.push (errorMetric name f) = .ok (b.add (errorMetric name f)) := by
  have hname : (errorMetric name f).name ≠ "" := by
    intro h
    have hl := congrArg String.length h
    simp [errorMetric, errorMetricName, String.length_append] at hl
  rw [Builder.push, Builder.refusal?_eq_none hname]

/-- **One step of a round is a turn.** The slots behind a turn that ends the round stay as they are;
otherwise the round goes on with what the turn leaves. -/
theorem pollSlots_cons (s : Slot σ) (rest : List (Slot σ)) (b : Builder)
    (lastFault : Option String) :
    let t : Turn σ := ⟨s, now, host, b⟩
    pollSlots now host (s :: rest) b lastFault =
      if t.ends then ⟨t.after :: rest, t.leaves, t.notes lastFault, t.fault?⟩
      else (pollSlots now host rest t.leaves (t.notes lastFault)).cons t.after := by
  intro t
  rw [pollSlots]
  cases hp : s.probe with
  | none =>
    -- the slot is passed by, and the builder as well
    have ha : t.answer? = none := Turn.answer?_eq_none hp
    simp only [Turn.ends, Turn.fault?, Turn.leaves, Turn.notes, Turn.after, ha, Option.bind_none,
      Option.any_none, Bool.false_eq_true, if_false]
    rfl
  | some p =>
    have ha : t.answer? = some (Probe.poll p now (s.due now) host b) := Turn.answer?_eq_some hp
    cases hf : (Probe.poll p now (s.due now) host b).fault with
    | none =>
      simp only [Slot.poll, hf, Turn.ends, Turn.fault?, Turn.leaves, Turn.notes, Turn.after,
        Turn.refreshed, Turn.succeeded, ha, Option.bind_some, Option.any_none, Option.any_some,
        Option.isNone_none, Bool.and_true, Bool.false_eq_true, if_false]
      rfl
    | some f =>
      have hafter : t.after = { s with probe := some (Probe.poll p now (s.due now) host b).probe } :=
        Turn.after_of_failed ha hf
      -- a fatal fault stops here, any other one is marked in place of what the probe added
      cases hfatal : f.isFatal with
      | true =>
        simp only [Slot.poll, hf, hfatal, Turn.ends, Turn.fault?, Turn.leaves, Turn.notes, ha,
          hafter, Option.bind_some, Option.any_some, if_true]
      | false =>
        simp only [Slot.poll, hf, hfatal, Turn.ends, Turn.fault?, Turn.leaves, Turn.notes, ha,
          hafter, Option.bind_some, Option.any_some, push_errorMetric, Bool.false_eq_true, if_false]
        rfl

/-! ### Where the turns take place -/

/-- All turns of a round see its time and its host. -/
theorem moment_of_mem_turns {slots : List (Slot σ)} {b : Builder} {t : Turn σ}
    (h : t ∈ turns now host slots b) : t.now = now ∧ t.host = host := by
  fun_induction turns now host slots b with
  | case1 => cases h
  -- the turn that ends the round
  | case2 s rest b t' _ =>
    rw [List.mem_singleton.mp h]
    exact ⟨rfl, rfl⟩
  | case3 s rest b t' _ ih =>
    rcases List.mem_cons.mp h with rfl | hrest
    · exact ⟨rfl, rfl⟩
    · exact ih hrest

/-- The turns go through the slots in order, each slot once, from the first one on. -/
theorem slots_eq_turns (now : UInt64) (host : HostView) (slots : List (Slot σ)) (b : Builder) :
    slots = (turns now host slots b).map Turn.slot ++ slots.drop (turns now host slots b).length := by
  fun_induction turns now host slots b with
  | case1 => rfl
  | case2 s rest b t _ => rfl
  | case3 s rest b t _ ih =>
    show s :: rest = t.slot :: (_ ++ rest.drop _)
    rw [← ih]

/-- A turn that ends the round is the last one, and none before it does. -/
theorem turns_eq_append_of_ends {slots : List (Slot σ)} {b : Builder} {t : Turn σ}
    (h : t ∈ turns now host slots b) (he : t.ends = true) :
    ∃ earlier, turns now host slots b = earlier ++ [t] ∧ ∀ u ∈ earlier, u.ends = false := by
  fun_induction turns now host slots b with
  | case1 => cases h
  -- the first turn ends the round, and there are no others
  | case2 s rest b t' _ => exact ⟨[], by rw [List.mem_singleton.mp h]; rfl, by simp⟩
  -- the first turn goes on, so the one in question comes later
  | case3 s rest b t' hgo ih =>
    rcases List.mem_cons.mp h with rfl | hrest
    · exact absurd he hgo
    · obtain ⟨earlier, heq, hall⟩ := ih hrest
      refine ⟨t' :: earlier, by rw [heq]; rfl, ?_⟩
      intro u hu
      rcases List.mem_cons.mp hu with rfl | hu
      · exact Bool.eq_false_iff.mpr hgo
      · exact hall u hu

/-- If no turn ends the round, every slot has its turn. -/
theorem length_turns {slots : List (Slot σ)} {b : Builder}
    (h : ∀ t ∈ turns now host slots b, t.ends = false) :
    (turns now host slots b).length = slots.length := by
  fun_induction turns now host slots b with
  | case1 => rfl
  | case2 s rest b t he => exact absurd he (by rw [h t List.mem_cons_self]; exact Bool.false_ne_true)
  | case3 s rest b t _ ih =>
    rw [List.length_cons, List.length_cons, ih fun u hu => h u (List.mem_cons_of_mem t hu)]

/-! ### What a round does -/

/-- After a round, the slots that had their turn are what the turns made of them, and the others are as
before. -/
theorem slots_pollSlots (slots : List (Slot σ)) (b : Builder) (lastFault : Option String) :
    (pollSlots now host slots b lastFault).slots =
      (turns now host slots b).map Turn.after ++ slots.drop (turns now host slots b).length := by
  induction slots generalizing b lastFault with
  | nil => rfl
  | cons s rest ih =>
    rw [pollSlots_cons]
    cases he : (Turn.mk s now host b).ends with
    -- the slots behind stay as they are
    | true =>
      rw [turns_cons_of_ends rest he]
      rfl
    -- the slot is changed by its turn, and the others by theirs
    | false =>
      rw [turns_cons_of_not_ends rest he]
      show (Turn.mk s now host b).after :: (pollSlots now host rest _ _).slots = _
      rw [ih]
      rfl

/-- The fault of a turn that ends the round is what the round ends with. -/
theorem ended_pollSlots_of_ends {slots : List (Slot σ)} {b : Builder} {t : Turn σ} {f : Fault}
    (lastFault : Option String) (h : t ∈ turns now host slots b) (hf : t.fault? = some f)
    (hfatal : f.isFatal = true) : (pollSlots now host slots b lastFault).ended = some f := by
  have hends : t.ends = true := t.ends_iff.mpr ⟨f, hf, hfatal⟩
  induction slots generalizing b lastFault with
  | nil => cases h
  | cons s rest ih =>
    rw [pollSlots_cons]
    cases he : (Turn.mk s now host b).ends with
    -- the first turn ends the round, and it is the one in question
    | true =>
      rw [turns_cons_of_ends rest he] at h
      rw [List.mem_singleton.mp h] at hf
      exact hf
    | false =>
      rw [turns_cons_of_not_ends rest he] at h
      rcases List.mem_cons.mp h with rfl | hrest
      · -- the first turn does not end the round, so it is not the one in question
        rw [he] at hends
        cases hends
      · exact ih _ hrest

/-- If no turn of a round ends it, the first does not. -/
theorem not_ends_of_cons {s : Slot σ} {rest : List (Slot σ)} {b : Builder}
    (h : ∀ t ∈ turns now host (s :: rest) b, t.ends = false) :
    (Turn.mk s now host b).ends = false := by
  cases he : (Turn.mk s now host b).ends with
  | true =>
    rw [turns_cons_of_ends rest he] at h
    rw [← he]
    exact h _ (List.mem_singleton.mpr rfl)
  | false => rfl

/-- If no turn ends the round, the round is not ended. -/
theorem ended_pollSlots_of_not_ends {slots : List (Slot σ)} {b : Builder}
    (lastFault : Option String) (h : ∀ t ∈ turns now host slots b, t.ends = false) :
    (pollSlots now host slots b lastFault).ended = none := by
  induction slots generalizing b lastFault with
  | nil => rfl
  | cons s rest ih =>
    have he := not_ends_of_cons h
    rw [turns_cons_of_not_ends rest he] at h
    rw [pollSlots_cons, he]
    exact ih _ fun t ht => h t (List.mem_cons_of_mem _ ht)

end Turns

end HostMeter
