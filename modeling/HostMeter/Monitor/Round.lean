import HostMeter.Monitor.Basic
/-!
# Monitor — rounds

In a round the slots are asked in their order, all at the same time of the clock. A probe that fails
contributes nothing but a metric with the wording of its fault, and the round goes on; a fatal fault
ends the round without a snapshot and leaves the later slots untouched.

* `errorMetricName`: the name of the metric for a failure.
* `Slot.poll`: asks one slot.
* `pollSlots`: asks the slots of a round.
* `Monitor.poll`: a whole round at a given time.
* `Monitor.pollBy`: a whole round at the time that a clock shows.
* `Monitor.run`: rounds one after the other.
-/

namespace HostMeter

def errorMetricName (probe : String) : String := "module." ++ probe ++ ".error"

def errorMetric (probe : String) (fault : Fault) : Metric :=
  ⟨errorMetricName probe, none, .text fault.message⟩

variable {σ : Type} [Probe σ]

/-- Asks the probe of a slot. The time of a refresh is recorded when the probe has succeeded. -/
def Slot.poll (s : Slot σ) (probe : σ) (now : UInt64) (host : HostView) (b : Builder) :
    Slot σ × Builder × Option Fault :=
  let due := s.due now
  let answer := Probe.poll probe now due host b
  match answer.fault with
  | none =>
    ({ s with probe := some answer.probe,
              lastRefresh := if due then some now else s.lastRefresh }, answer.builder, none)
  | some fault => ({ s with probe := some answer.probe }, answer.builder, some fault)

/-- How far a round has come. -/
structure RoundState (σ : Type) where
  slots : List (Slot σ)
  builder : Builder
  lastFault : Option String
  /-- The fault that ended the round. -/
  ended : Option Fault

def RoundState.cons (s : Slot σ) (r : RoundState σ) : RoundState σ :=
  { r with slots := s :: r.slots }

def pollSlots (now : UInt64) (host : HostView) :
    List (Slot σ) → Builder → Option String → RoundState σ
  | [], b, lastFault => ⟨[], b, lastFault, none⟩
  | s :: rest, b, lastFault =>
    match s.probe with
    | none => (pollSlots now host rest b lastFault).cons s
    | some probe =>
      match s.poll probe now host b with
      | (s, after, none) => (pollSlots now host rest after lastFault).cons s
      | (s, after, some fault) =>
        -- a fatal fault keeps the builder to itself, any other one gives back what was added
        if fault.isFatal then ⟨s :: rest, after, some fault.message, some fault⟩
        else
          match (after.rollback b.size).push (errorMetric s.name fault) with
          | .ok marked => (pollSlots now host rest marked (some fault.message)).cons s
          | .error refused => ⟨s :: rest, after, some refused.message, some refused⟩

/-- A round at a time of the clock: the monitor afterwards and the snapshot, or the fault that ended
the round. -/
def Monitor.poll (m : Monitor σ) (now : UInt64) (host : HostView) :
    Monitor σ × Except Fault Snapshot :=
  let r := pollSlots now host m.slots .empty m.lastFault
  let m := { m with slots := r.slots, lastFault := r.lastFault }
  match r.ended with
  | some fault => (m, .error fault)
  | none => (m, .ok r.builder.finalize.1)

/-- A round by a clock, which is read once, before the first slot is asked. The effects of `μ` are
those that reading the clock has. -/
def Monitor.pollBy {μ : Type → Type} [Monad μ] (m : Monitor σ) (clock : μ UInt64)
    (host : HostView) : μ (Monitor σ × Except Fault Snapshot) := do
  let now ← clock
  return m.poll now host

/-! ## Runs -/

structure Moment where
  now : UInt64
  host : HostView

/-- Rounds at one moment after the other: the monitor afterwards and the outcome of each round. -/
def Monitor.run (m : Monitor σ) : List Moment → Monitor σ × List (Except Fault Snapshot)
  | [] => (m, [])
  | t :: ts =>
    let (m, outcome) := m.poll t.now t.host
    let (m, outcomes) := m.run ts
    (m, outcome :: outcomes)

end HostMeter
