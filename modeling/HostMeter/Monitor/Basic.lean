import HostMeter.Probe.Basic
import HostMeter.Word
/-!
# Monitor — probes and their schedule

A monitor keeps a slot for every registered probe, in the order of the registry. A slot without a
probe is one that the configuration disabled or the host does not support; it never reports anything.

* `Slot.due`: when a slot's probe has to refresh.
* `Monitor.build`: settles the configuration and creates the probes, in order and each at most once.
* `Monitor.status`, `Monitor.enabledCount`: what the monitor tells about itself.
-/

namespace HostMeter

/-! ## Slots -/

/-- The place of one registered probe. -/
structure Slot (σ : Type) where
  name : String
  /-- The least number of milliseconds between two refreshes; zero refreshes in every round. -/
  refresh : UInt32
  probe : Option σ
  /-- The time of the last round in which a refresh was due and the probe succeeded. -/
  lastRefresh : Option UInt64
  deriving DecidableEq, Repr

namespace Slot

variable {σ : Type}

def due (s : Slot σ) (now : UInt64) : Bool :=
  s.refresh == 0 ||
    match s.lastRefresh with
    | none => true
    -- behind a clock that went backwards the difference is zero
    | some last => s.refresh.toUInt64 ≤ Word.satSub now last

/-- A refresh is due unless the last one is too recent, counted over unbounded numbers. A clock that
went backwards is no reason to refresh. -/
theorem due_iff (s : Slot σ) (now : UInt64) :
    s.due now = true ↔
      s.refresh = 0 ∨ ∀ last, s.lastRefresh = some last →
        last.toNat + s.refresh.toNat ≤ now.toNat := by
  unfold due
  rw [Bool.or_eq_true, beq_iff_eq]
  by_cases hzero : s.refresh = 0
  · simp only [hzero, true_or]
  · -- the difference that stops at zero is read off as a sum because the pace is not zero
    have hpos : 0 < s.refresh.toNat :=
      Nat.pos_of_ne_zero fun h => hzero (UInt32.toNat_inj.mp h)
    cases h : s.lastRefresh with
    | none => simp
    | some last =>
      rw [decide_eq_true_eq, UInt64.le_iff_toNat_le, Word.toNat_satSub, UInt32.toNat_toUInt64]
      simp only [hzero, false_or, Option.some.injEq, forall_eq']
      omega

def enabled (s : Slot σ) : Bool := s.probe.isSome

end Slot

/-- What a monitor tells about a slot. -/
structure SlotStatus where
  name : String
  enabled : Bool
  refresh : UInt32
  lastRefresh : Option UInt64
  deriving DecidableEq, Repr

/-- Probes with their schedule. -/
structure Monitor (σ : Type) where
  /-- Milliseconds that the caller shall wait between rounds. -/
  interval : UInt32
  slots : List (Slot σ)
  /-- The wording of the last fault that a round met. -/
  lastFault : Option String
  deriving DecidableEq, Repr

namespace Monitor

variable {σ : Type}

def status (m : Monitor σ) : List SlotStatus :=
  m.slots.map fun s => ⟨s.name, s.enabled, s.refresh, s.lastRefresh⟩

def enabledCount (m : Monitor σ) : Nat := m.slots.countP Slot.enabled

end Monitor

/-! ## Building a monitor -/

/-- How a registered probe is created. The effects of `μ` are those that creating probes has. -/
structure Descriptor (μ : Type → Type) (σ : Type) where
  name : String
  create : Context → μ (Except Fault σ)

namespace Monitor

variable {μ : Type → Type} [Monad μ] {σ : Type}

/-- The slot that the outcome of a probe's creation leads to. A probe that the host does not support
leaves its slot without a probe; every other fault ends the building of the monitor. -/
def slotOf (name : String) (own : ProbeSettings) : Except Fault σ → Except Fault (Slot σ)
  | .ok probe => .ok ⟨name, own.refresh, some probe, none⟩
  | .error fault =>
    if fault.kind = .notSupported then .ok ⟨name, own.refresh, none, none⟩ else .error fault

/-- The slot of a registered probe. A disabled probe is not created. -/
def makeSlot (settings : Ini) (host : HostView) (roots : Roots) (d : Descriptor μ σ) :
    μ (Except Fault (Slot σ)) :=
  match ProbeSettings.ofIni settings d.name with
  | .error fault => pure (.error fault.toFault)
  | .ok own =>
    if own.enabled then slotOf d.name own <$> d.create ⟨d.name, settings, host, roots⟩
    else pure (.ok ⟨d.name, own.refresh, none, none⟩)

/-- The slots of registered probes, up to the first that cannot be made. -/
def makeSlots (settings : Ini) (host : HostView) (roots : Roots) :
    List (Descriptor μ σ) → μ (Except Fault (List (Slot σ)))
  | [] => pure (.ok [])
  | d :: ds => do
    match ← makeSlot settings host roots d with
    | .error fault => pure (.error fault)
    | .ok slot =>
      let later ← makeSlots settings host roots ds
      pure (later.map (slot :: ·))

/-- Builds a monitor over a registry, which must not be empty. -/
def build (settings : Ini) (host : HostView) (roots : Roots) (registry : List (Descriptor μ σ)) :
    μ (Except Fault (Monitor σ)) :=
  if registry.isEmpty then pure (.error (.internal "no module variants registered"))
  else
    match MonitorSettings.ofIni settings with
    | .error fault => pure (.error fault.toFault)
    | .ok own => do
      let slots ← makeSlots settings host roots registry
      pure (slots.map fun slots => { interval := own.interval, slots, lastFault := none })

end Monitor

end HostMeter
