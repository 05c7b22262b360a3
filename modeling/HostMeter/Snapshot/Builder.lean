import HostMeter.Fault
import HostMeter.Snapshot.Basic
/-!
# Snapshot — building one

A builder collects the metrics of a round. It takes metrics one at a time at its end, gives up those
added after a mark, and hands over what it holds as a snapshot. Its buffer has room for a number of
metrics that starts at `firstCapacity` and doubles whenever the buffer is full; giving metrics up
keeps the room, handing over and resetting give it back.

* `push`: adds a metric, unless its name is empty.
* `pushAll`: adds metrics until one is refused.
* `rollback`, `reset`, `finalize`.
-/

namespace HostMeter

/-- The metrics collected so far. -/
structure Builder where
  items : Array Metric
  /-- The number of metrics that the buffer has room for. -/
  capacity : Nat
  deriving DecidableEq, Repr

namespace Builder

/-- The room that the first metric makes. -/
def firstCapacity : Nat := 32

def empty : Builder := ⟨#[], 0⟩

def size (b : Builder) : Nat := b.items.size

def isEmpty (b : Builder) : Bool := b.items.isEmpty

/-- The room after making place for one more metric. -/
def grown (b : Builder) : Nat :=
  if b.size < b.capacity then b.capacity
  else if b.capacity = 0 then firstCapacity
  else 2 * b.capacity

/-- What a metric is refused for: having no name. -/
def refusal? (m : Metric) : Option Fault :=
  if m.name.isEmpty then some (.invalidArgument "metric name must not be empty") else none

def add (b : Builder) (m : Metric) : Builder :=
  -- the room comes first, so that the buffer has one owner when it grows
  let capacity := b.grown
  { items := b.items.push m, capacity }

/-- Adds a metric. A metric needs a name; without one the builder stays as it was. -/
def push (b : Builder) (m : Metric) : Except Fault Builder :=
  match refusal? m with
  | some f => .error f
  | none => .ok (b.add m)

/-- Adds metrics up to the first that is refused, and says why it was. -/
def pushAll (b : Builder) : List Metric → Builder × Option Fault
  | [] => (b, none)
  | m :: ms =>
    match refusal? m with
    | some f => (b, some f)
    | none => (b.add m).pushAll ms

/-- Adding a list is adding its metrics one by one. -/
theorem pushAll_cons (b : Builder) (m : Metric) (ms : List Metric) :
    b.pushAll (m :: ms) =
      match b.push m with
      | .ok b' => b'.pushAll ms
      | .error f => (b, some f) := by
  rw [pushAll, push]
  cases refusal? m <;> rfl

/-- A metric with a name is not refused. -/
theorem refusal?_eq_none {m : Metric} (h : m.name ≠ "") : refusal? m = none := by
  have : m.name.isEmpty = false := by
    rw [Bool.eq_false_iff]
    intro he
    exact h (String.isEmpty_iff.1 he)
  simp [refusal?, this]

/-- Metrics with names are all taken, behind those that are there. -/
theorem pushAll_of_named {ms : List Metric} (h : ∀ m ∈ ms, m.name ≠ "") (b : Builder) :
    (b.pushAll ms).1.items = b.items ++ ms.toArray ∧ (b.pushAll ms).2 = none := by
  induction ms generalizing b with
  | nil => simp [pushAll]
  | cons m ms ih =>
    obtain ⟨hi, hf⟩ := ih (fun x hx => h x (List.mem_cons_of_mem _ hx)) (b.add m)
    rw [pushAll, refusal?_eq_none (h m List.mem_cons_self)]
    refine ⟨?_, hf⟩
    rw [hi]
    simp [add]

/-- Gives up the metrics after the first `mark`. -/
def rollback (b : Builder) (mark : Nat) : Builder := { b with items := b.items.take mark }

def reset (_ : Builder) : Builder := empty

/-- Hands the metrics over as a snapshot and starts afresh. -/
def finalize (b : Builder) : Snapshot × Builder := (⟨b.items.toList⟩, empty)

end Builder

end HostMeter
