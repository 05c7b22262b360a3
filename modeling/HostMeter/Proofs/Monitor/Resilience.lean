import HostMeter.Proofs.Monitor.Caching
import HostMeter.Proofs.Settings.Numbers
/-!
# Resilience — no host breaks a monitor over the built-in probes

Whether the monitor can be built is decided by the configuration alone, although the settings of one
probe are looked at only after the probes before it were created. The reason is that a built-in probe
which cannot start is always one that the host does not support.

* `Builtin.Kind.kind_of_create_error`: the class of a failed creation.
* `Monitor.failure?_makeSlots`: slots fail with the first fault on the way.
* `Monitor.demands`: what the configuration has to provide, in order.
* `Monitor.resilience`: when the monitor can be built, and that no round fails from then on.
-/

namespace HostMeter

/-! ## Errors in sequence

Of constructions that fail at the first error, only the errors are of interest here. -/

section Errors

variable {ε α β : Type}

/-- The error of an outcome, if it is one. -/
def failure? : Except ε α → Option ε
  | .error e => some e
  | .ok _ => none

theorem failure?_eq_some_iff {x : Except ε α} {e : ε} : failure? x = some e ↔ x = .error e := by
  cases x <;> simp [failure?]

theorem failure?_eq_none_iff {x : Except ε α} : failure? x = none ↔ ∃ a, x = .ok a := by
  cases x <;> simp [failure?]

theorem failure?_map (x : Except ε α) (f : α → β) : failure? (x.map f) = failure? x := by
  cases x <;> rfl

end Errors

/-! ## Creation

Each of the five creations meets the faults of reading and of parsing, and words them as a lack of support.
None of them is fatal. -/

section Creation

variable {c : Context} {f : Fault}

/-- A fault that is not fatal is reworded to one of a kind that a monitor accepts. -/
theorem Fault.kind_asUnsupported_of_not_fatal (h : f.isFatal = false) :
    f.asUnsupported.kind = .notSupported := by
  rw [kind_asUnsupported, h]
  rfl

/-- A source that cannot be read is no fatal fault. -/
theorem isFatal_of_readSource {host : HostView} {p : Path} (h : readSource host p = .error f) :
    f.isFatal = false := by
  obtain ⟨cause, _, rfl⟩ := exists_of_mapError h
  rfl

/-- A text of the processor that cannot be read or understood is no fatal fault. -/
theorem CpuProbe.isFatal_of_readStat {host : HostView} {source : Path}
    (h : readStat host source = .error f) : f.isFatal = false := by
  rcases error_of_bind h with h | ⟨text, _, h⟩
  · exact isFatal_of_readSource h
  · obtain ⟨g, _, rfl⟩ := exists_of_mapError h
    rfl

/-- A probe of the processor that cannot start is not supported. -/
theorem CpuProbe.kind_of_create_error (h : create c = .error f) : f.kind = .notSupported := by
  rcases error_of_bind h with h | ⟨stat, _, h⟩
  · obtain ⟨g, hg, rfl⟩ := exists_of_mapError h
    exact Fault.kind_asUnsupported_of_not_fatal (isFatal_of_readStat hg)
  · cases h

/-- A probe of the memory that cannot start is not supported, nor is one whose total is zero. -/
theorem RamProbe.kind_of_create_error (h : create c = .error f) : f.kind = .notSupported := by
  rcases error_of_bind h with h | ⟨text, _, h⟩
  · obtain ⟨g, hg, rfl⟩ := exists_of_mapError h
    exact Fault.kind_asUnsupported_of_not_fatal (isFatal_of_readSource hg)
  · dsimp only at h
    split at h
    · cases h
      rfl
    · cases h

/-- A host without a battery does not support the probe. -/
theorem BatteryProbe.kind_of_create_error (h : create c = .error f) : f.kind = .notSupported := by
  rw [create] at h
  split at h
  · cases h
  · cases h
    rfl

/-- A probe of traffic without an interface is not supported. -/
theorem NetworkProbe.kind_of_create_error (h : create c = .error f) : f.kind = .notSupported := by
  rcases error_of_bind h with h | ⟨text, _, h⟩
  · obtain ⟨g, hg, rfl⟩ := exists_of_mapError h
    exact Fault.kind_asUnsupported_of_not_fatal (isFatal_of_readSource hg)
  · split at h
    · cases h
    · cases h
      rfl
    · cases h
      rfl

/-- A probe of a file system that cannot be asked is not supported. -/
theorem StorageProbe.kind_of_create_error (h : create c = .error f) : f.kind = .notSupported := by
  rw [create] at h
  split at h
  · cases h
  · cases h
    rfl

/-- **A built-in probe that cannot start is one that the host does not support.** -/
theorem Builtin.Kind.kind_of_create_error {k : Builtin.Kind} (h : k.create c = .error f) :
    f.kind = .notSupported := by
  cases k with
  | cpu => exact CpuProbe.kind_of_create_error (error_of_map h)
  | ram => exact RamProbe.kind_of_create_error (error_of_map h)
  | battery => exact BatteryProbe.kind_of_create_error (error_of_map h)
  | network => exact NetworkProbe.kind_of_create_error (error_of_map h)
  | storage => exact StorageProbe.kind_of_create_error (error_of_map h)

end Creation

/-! ## What the configuration has to provide

What is left to fail is the configuration: the interval, and the pace of each kind, whether it is enabled or
not. -/

/-- The settings of the monitor fail exactly if the interval is not as demanded. -/
theorem MonitorSettings.failure?_ofIni (ini : Ini) :
    (failure? (ofIni ini)).map SettingFault.toFault = Demand.interval.fault? ini := by
  have hread : ini.word32 Demand.interval.heading Demand.interval.key Demand.interval.default =
      ini.word32 heading "interval_ms" defaultInterval := rfl
  rw [ofIni, Demand.fault?, hread]
  cases ini.word32 heading "interval_ms" defaultInterval with
  | error f => rfl
  | ok w =>
    by_cases hzero : w = 0
    · rw [hzero]
      rfl
    · have hpositive : (Demand.interval.positive && w == 0) = false := beq_eq_false_iff_ne.mpr hzero
      simp only [bind, Except.bind, if_neg hzero, hpositive]
      rfl

/-- The settings of a probe fail exactly if its pace is not as demanded. -/
theorem ProbeSettings.failure?_ofIni (ini : Ini) (probe : String) :
    (failure? (ofIni ini probe)).map SettingFault.toFault = (Demand.refresh probe).fault? ini := by
  have hread : ini.word32 (Demand.refresh probe).heading (Demand.refresh probe).key
      (Demand.refresh probe).default = ini.word32 (heading probe) "refresh_ms" 0 := rfl
  rw [ofIni, Demand.fault?, hread]
  cases ini.word32 (heading probe) "refresh_ms" 0 <;> rfl

namespace Monitor

/-- What the monitor over the built-in probes needs from its configuration, in the order in which it
is looked at. -/
def demands : List Demand :=
  [.interval, .refresh "cpu", .refresh "ram", .refresh "battery", .refresh "network",
    .refresh "storage"]

section Slots

variable {settings : Ini} {host : HostView} {roots : Roots}

/-- A slot for a built-in probe fails only with its settings, whatever the host answers. -/
theorem failure?_makeSlot (k : Builtin.Kind) (name : String) :
    failure? (makeSlot settings host roots (k.descriptor name) : Except Fault (Slot Builtin)) =
      (Demand.refresh name).fault? settings := by
  rw [← ProbeSettings.failure?_ofIni]
  cases hown : ProbeSettings.ofIni settings name with
  | error f =>
    rw [makeSlot_of_unusable (d := k.descriptor name) hown]
    rfl
  | ok own =>
    cases henabled : own.enabled with
    -- disabled: nothing is asked
    | false =>
      rw [makeSlot_of_disabled (d := k.descriptor name) hown henabled]
      rfl
    | true =>
      -- the only case in which the host is asked
      rw [makeSlot_of_enabled (d := k.descriptor name) hown henabled]
      show failure? (slotOf name own (k.create ⟨name, settings, host, roots⟩)) = none
      cases hcreate : k.create ⟨name, settings, host, roots⟩ with
      | ok p => rfl
      | error f =>
        rw [slotOf, if_pos (Builtin.Kind.kind_of_create_error hcreate)]
        rfl

/-- The slots of a registry fail with the first descriptor that does. -/
theorem failure?_makeSlots {σ : Type} (ds : List (Descriptor Id σ)) :
    failure? (makeSlots settings host roots ds : Except Fault (List (Slot σ))) =
      ds.findSome? fun d => failure? (makeSlot settings host roots d : Except Fault (Slot σ)) := by
  induction ds with
  | nil => rfl
  | cons d ds ih =>
    rw [List.findSome?_cons, ← ih, makeSlots]
    simp only [bind]
    cases makeSlot settings host roots d with
    | error f => rfl
    | ok s => exact failure?_map _ (s :: ·)

/-- **The construction fails with the first demand that is not met**, on any host. -/
theorem failure?_ofSettings :
    failure? (ofSettings settings host roots) = demands.findSome? (·.fault? settings) := by
  have hdemands : demands = .interval :: Builtin.Kind.all.map fun k => .refresh k.name := rfl
  have hslots : failure? (Id.run (makeSlots settings host roots builtinRegistry)) =
      (Builtin.Kind.all.map fun k => Demand.refresh k.name).findSome? (·.fault? settings) := by
    refine (failure?_makeSlots builtinRegistry).trans ?_
    rw [builtinRegistry, List.findSome?_map, List.findSome?_map]
    simp only [Function.comp_def, failure?_makeSlot]
  rw [hdemands, List.findSome?_cons, ← hslots, ← MonitorSettings.failure?_ofIni, ofSettings, build]
  cases MonitorSettings.ofIni settings with
  | error f => rfl
  | ok own => exact failure?_map _ _

end Slots

/-- **No host breaks the monitor.** It can be built exactly if the configuration meets all demands, those
of disabled probes too, and otherwise fails with the first that is not met. In any state every round has
a snapshot, whatever becomes of the host and whatever the clock shows. -/
theorem resilience (settings : Ini) (host : HostView) (roots : Roots) :
    ((∃ m, ofSettings settings host roots = .ok m) ↔ ∀ d ∈ demands, d.Met settings) ∧
    (∀ f, ofSettings settings host roots = .error f ↔
      ∃ earlier d later, demands = earlier ++ d :: later ∧ d.Fails settings f ∧
        ∀ e ∈ earlier, e.Met settings) ∧
    (∀ (m : Monitor Builtin) (history : List Moment),
      ∃ snapshots : List Snapshot, snapshots.length = history.length ∧
        (m.run history).2 = snapshots.map Except.ok) := by
  -- both halves of the first two parts are read off the first demand with a fault
  refine ⟨?_, fun f => ?_, fun m history => ?_⟩
  · rw [← failure?_eq_none_iff, failure?_ofSettings, List.findSome?_eq_none_iff]
    simp only [Demand.fault?_eq_none_iff]
  · rw [← failure?_eq_some_iff, failure?_ofSettings, List.findSome?_eq_some_iff]
    simp only [Demand.fault?_eq_none_iff, Demand.fault?_eq_some_iff]
  · refine ⟨(m.rounds history).map fun r => ⟨r.turns.flatMap Turn.segment⟩, ?_, ?_⟩
    · rw [List.length_map, length_rounds]
    · rw [outcomes_run, List.map_map]
      exact List.map_congr_left fun r _ => r.outcome_builtin

/-- An empty configuration meets all demands. In the other one the battery has a pace that no word holds,
although it is disabled, and the pace of the storage is not even looked at. -/
theorem resilience_of_misfit :
    let settings : Ini :=
      ⟨[⟨"module.storage", "refresh_ms", "-1"⟩, ⟨"module.battery", "enabled", "no"⟩,
        ⟨"module.battery", "refresh_ms", "4294967296"⟩]⟩
    let f : Fault :=
      .parse ("invalid module.battery.refresh_ms = \"4294967296\"" ++
        " (must be an unsigned 32-bit integer)")
    (∀ d ∈ demands, d.Met .empty) ∧ ofSettings settings .wired .standard = .error f ∧
      ∃ earlier d later, demands = earlier ++ d :: later ∧ d.Fails settings f ∧
        ∀ e ∈ earlier, e.Met settings := by
  intro settings f
  have hempty : ∃ m, ofSettings .empty .wired .standard = .ok m := ⟨_, rfl⟩
  have hmisfit : ofSettings settings .wired .standard = .error f := rfl
  exact ⟨(resilience .empty .wired .standard).1.mp hempty, hmisfit,
    ((resilience settings .wired .standard).2.1 f).mp hmisfit⟩

end Monitor

end HostMeter
