import HostMeter.Monitor.Builtin
/-!
# Start — a monitor that has just been built

* `CpuProbe.eq_of_create` and its siblings: the probe that a creation leads to.
* `Builtin.Kind.sampled_of_create`: a probe starts without a sample, whatever the host told it.
* `Monitor.slots_of_build`: a slot starts without a recorded time, and its probe is one that a
  registered descriptor has created.
* `Monitor.Built`: the monitors over built-in probes; `Monitor.Built.starts` sums up their slots.
-/

namespace HostMeter

/-! ## Outcomes in sequence

Creation and refreshing are sequences of steps that may fail. These lemmas take such a sequence apart, so
that the functions of the probes need not be opened by hand. -/

/-- A sequence of two steps succeeds only if both do. -/
theorem exists_of_bind_ok {ε α β : Type} {x : Except ε α} {f : α → Except ε β} {b : β}
    (h : x >>= f = .ok b) : ∃ a, x = .ok a ∧ f a = .ok b := by
  cases x with
  | error e => cases h
  | ok a => exact ⟨a, rfl, h⟩

/-- What is made of a result is made of one that is there. -/
theorem exists_of_map_ok {ε α β : Type} {x : Except ε α} {f : α → β} {b : β}
    (h : f <$> x = .ok b) : ∃ a, x = .ok a ∧ f a = b := by
  cases x with
  | error e => cases h
  | ok a => exact ⟨a, rfl, Except.ok.inj h⟩

/-- A sequence of two steps fails with the fault of the first, or with that of the second. -/
theorem error_of_bind {ε α β : Type} {x : Except ε α} {f : α → Except ε β} {e : ε}
    (h : x >>= f = .error e) : x = .error e ∨ ∃ a, x = .ok a ∧ f a = .error e := by
  cases x with
  | error e' => exact Or.inl (congrArg Except.error (Except.error.inj h))
  | ok a => exact Or.inr ⟨a, rfl, h⟩

/-- What is made of a result adds no fault. -/
theorem error_of_map {ε α β : Type} {x : Except ε α} {f : α → β} {e : ε} (h : f <$> x = .error e) :
    x = .error e := by
  cases x with
  | error e' => exact congrArg Except.error (Except.error.inj h)
  | ok a => cases h

/-- A reworded fault comes from one that was there. -/
theorem exists_of_mapError {ε ε' α : Type} {x : Except ε' α} {g : ε' → ε} {e : ε}
    (h : x.mapError g = .error e) : ∃ e', x = .error e' ∧ g e' = e := by
  cases x with
  | error e' => exact ⟨e', rfl, Except.error.inj h⟩
  | ok a => cases h

theorem toOption_eq_some_iff {ε α : Type} {x : Except ε α} {a : α} : x.toOption = some a ↔ x = .ok a := by
  cases x <;> simp [Except.toOption]

/-! ## Probes

What a probe holds when it starts. Everything but the sample is settled by the creation, and the sample is
empty, although the creation has asked the host before. -/

/-- A probe of the processor starts with the number of cores that it was told, and nothing else. -/
theorem CpuProbe.eq_of_create {c : Context} {p : CpuProbe} (h : create c = .ok p) :
    ∃ cores, p = ⟨c.procPath "stat", cores, none, .zero⟩ := by
  obtain ⟨stat, _, hp⟩ := exists_of_bind_ok h
  cases hp
  exact ⟨stat.cores, rfl⟩

/-- A probe of the memory starts with the total that it was told. -/
theorem RamProbe.eq_of_create {c : Context} {p : RamProbe} (h : create c = .ok p) :
    ∃ total, p = ⟨c.procPath "meminfo", total, none⟩ := by
  obtain ⟨text, _, hp⟩ := exists_of_bind_ok h
  dsimp only at hp
  split at hp
  · cases hp
  · cases hp
    exact ⟨_, rfl⟩

/-- A total in bytes is not zero if the one in kibibytes is not. -/
theorem RamProbe.satMul_kibibyte_pos {kibibytes : UInt64} (h : kibibytes ≠ 0) :
    0 < Word.satMul kibibytes bytesPerKibibyte := by
  have hpos : kibibytes.toNat ≠ 0 := fun hzero => h (UInt64.toNat_inj.mp hzero)
  have hkibibyte : bytesPerKibibyte.toNat = 1024 := rfl
  have htop : 0 < Word.top := by decide
  rw [UInt64.lt_iff_toNat_lt, Word.toNat_satMul, hkibibyte, UInt64.toNat_zero]
  omega

/-- The total of a probe is not zero: where the host tells none, there is no probe. So the probe always has
a share to show. -/
theorem RamProbe.total_pos_of_create {c : Context} {p : RamProbe} (h : create c = .ok p) : 0 < p.total := by
  obtain ⟨text, _, hp⟩ := exists_of_bind_ok h
  dsimp only at hp
  split at hp
  · -- a total of zero is refused
    cases hp
  · next htotal =>
    cases hp
    exact satMul_kibibyte_pos htotal

/-- A probe of a battery starts with the two files of the supply that was chosen. -/
theorem BatteryProbe.eq_of_create {c : Context} {p : BatteryProbe} (h : create c = .ok p) :
    ∃ battery, choose? c.host (c.sysPath "class/power_supply") = some battery ∧
      p = ⟨battery.join "capacity", battery.join "status", none⟩ := by
  rw [create] at h
  split at h
  · next battery hbattery =>
    cases h
    exact ⟨battery, hbattery, rfl⟩
  · -- no supply was found
    cases h

/-- A probe of traffic starts with the name of its interface. -/
theorem NetworkProbe.eq_of_create {c : Context} {p : NetworkProbe} (h : create c = .ok p) :
    ∃ interface, p = ⟨c.procPath "net/dev", interface, none, .zero⟩ := by
  obtain ⟨text, _, hp⟩ := exists_of_bind_ok h
  split at hp
  · cases hp
    exact ⟨_, rfl⟩
  · cases hp
  · cases hp

/-- A probe of a storage starts with the path that is configured, or the one it has by default. -/
theorem StorageProbe.eq_of_create {c : Context} {p : StorageProbe} (h : create c = .ok p) :
    p = ⟨⟨(c.option? "path").getD defaultPath⟩, none⟩ := by
  rw [create] at h
  split at h
  · cases h
    rfl
  · cases h

/-- **A probe starts without a sample.** -/
theorem Builtin.Kind.sampled_of_create {k : Builtin.Kind} {c : Context} {p : Builtin}
    (h : k.create c = .ok p) : Sampler.sampled p = false := by
  cases k with
  | cpu =>
    obtain ⟨q, hq, rfl⟩ := exists_of_map_ok h
    obtain ⟨cores, rfl⟩ := CpuProbe.eq_of_create hq
    rfl
  | ram =>
    obtain ⟨q, hq, rfl⟩ := exists_of_map_ok h
    obtain ⟨total, rfl⟩ := RamProbe.eq_of_create hq
    rfl
  | battery =>
    obtain ⟨q, hq, rfl⟩ := exists_of_map_ok h
    obtain ⟨battery, _, rfl⟩ := BatteryProbe.eq_of_create hq
    rfl
  | network =>
    obtain ⟨q, hq, rfl⟩ := exists_of_map_ok h
    obtain ⟨interface, rfl⟩ := NetworkProbe.eq_of_create hq
    rfl
  | storage =>
    obtain ⟨q, hq, rfl⟩ := exists_of_map_ok h
    rw [StorageProbe.eq_of_create hq]
    rfl

/-! ## Slots

What a registered descriptor leads to: the three ways of making one slot, then the slots of a whole
registry, by induction along it. -/

namespace Monitor

section MakeSlot

variable {μ : Type → Type} [Monad μ] {σ : Type} {settings : Ini} {host : HostView} {roots : Roots}
  {d : Descriptor μ σ}

/-- A section that cannot be used ends the making of the slot before the probe is created. -/
theorem makeSlot_of_unusable {f : SettingFault} (h : ProbeSettings.ofIni settings d.name = .error f) :
    makeSlot settings host roots d = pure (.error f.toFault) := by
  rw [makeSlot, h]

/-- The probe of a disabled slot is not created. -/
theorem makeSlot_of_disabled {own : ProbeSettings} (h : ProbeSettings.ofIni settings d.name = .ok own)
    (hdisabled : own.enabled = false) :
    makeSlot settings host roots d = pure (.ok ⟨d.name, own.refresh, none, none⟩) := by
  rw [makeSlot, h]
  exact if_neg (by rw [hdisabled]; exact Bool.false_ne_true)

/-- The probe of an enabled slot is created, and the slot is made of the answer. -/
theorem makeSlot_of_enabled {own : ProbeSettings} (h : ProbeSettings.ofIni settings d.name = .ok own)
    (henabled : own.enabled = true) :
    makeSlot settings host roots d =
      slotOf d.name own <$> d.create ⟨d.name, settings, host, roots⟩ := by
  rw [makeSlot, h]
  exact if_pos henabled

end MakeSlot

variable {σ : Type} {settings : Ini} {host : HostView} {roots : Roots}

/-- A slot as it starts: no time is recorded, and its probe was created by one of some descriptors. -/
def Starts (registry : List (Descriptor Id σ)) (s : Slot σ) : Prop :=
  s.lastRefresh = none ∧ ∀ p, s.probe = some p → ∃ d ∈ registry, ∃ c, d.create c = Except.ok p

/-- A slot as it is made: it has the name of the descriptor and no recorded time, and its probe is the one
that the descriptor created. -/
theorem created_of_makeSlot {d : Descriptor Id σ} {s : Slot σ}
    (h : makeSlot settings host roots d = Except.ok s) :
    s.name = d.name ∧ s.lastRefresh = none ∧
      ∀ p, s.probe = some p → d.create ⟨d.name, settings, host, roots⟩ = Except.ok p := by
  cases hown : ProbeSettings.ofIni settings d.name with
  -- a section that cannot be used leads to no slot
  | error f =>
    rw [makeSlot_of_unusable hown] at h
    cases h
  | ok own =>
    cases henabled : own.enabled with
    -- disabled: the slot is made without a probe
    | false =>
      rw [makeSlot_of_disabled hown henabled] at h
      cases h
      exact ⟨rfl, rfl, fun p hp => by cases hp⟩
    -- enabled: the slot is made of the answer of the descriptor
    | true =>
      rw [makeSlot_of_enabled hown henabled] at h
      cases hc : d.create ⟨d.name, settings, host, roots⟩ with
      -- not supported, so without a probe; any other fault makes no slot
      | error fault =>
        replace h : slotOf d.name own (.error fault) = Except.ok s := by rw [← hc]; exact h
        rw [slotOf] at h
        split at h
        · cases h
          exact ⟨rfl, rfl, fun p hp => by cases hp⟩
        · cases h
      | ok p =>
        replace h : slotOf d.name own (.ok p) = Except.ok s := by rw [← hc]; exact h
        cases h
        refine ⟨rfl, rfl, fun q hq => ?_⟩
        rw [← Option.some.inj hq]

/-- A configuration enables a probe exactly if it decides so. -/
theorem enabled_iff_of_ofIni {probe : String} {own : ProbeSettings} {b : Bool}
    (h : ProbeSettings.ofIni settings probe = .ok own) :
    own.enabled = b ↔ settings.Decides (ProbeSettings.heading probe) "enabled" true b := by
  rw [ProbeSettings.ofIni] at h
  obtain ⟨refresh, _, hown⟩ := exists_of_bind_ok h
  cases hown
  exact Ini.flag_eq_iff

/-- **When a slot does not take part**: its probe is disabled, or it cannot be created. -/
theorem enabled_eq_false_iff_of_makeSlot {d : Descriptor Id σ} {s : Slot σ}
    (h : makeSlot settings host roots d = Except.ok s) :
    s.enabled = false ↔ settings.Decides (ProbeSettings.heading d.name) "enabled" true false ∨
      ∃ f, d.create ⟨d.name, settings, host, roots⟩ = Except.error f := by
  cases hown : ProbeSettings.ofIni settings d.name with
  -- a section that cannot be used leads to no slot
  | error f =>
    rw [makeSlot_of_unusable hown] at h
    cases h
  | ok own =>
    rw [← enabled_iff_of_ofIni hown]
    cases henabled : own.enabled with
    | false =>
      rw [makeSlot_of_disabled hown henabled] at h
      cases h
      exact iff_of_true rfl (Or.inl rfl)
    | true =>
      rw [makeSlot_of_enabled hown henabled] at h
      cases hc : d.create ⟨d.name, settings, host, roots⟩ with
      | error fault =>
        -- the slot is without a probe, or there is no slot at all
        replace h : slotOf d.name own (.error fault) = Except.ok s := by rw [← hc]; exact h
        rw [slotOf] at h
        split at h
        · cases h
          exact iff_of_true rfl (Or.inr ⟨fault, rfl⟩)
        · cases h
      -- the probe is there, and neither of the two reasons holds
      | ok p =>
        replace h : slotOf d.name own (.ok p) = Except.ok s := by rw [← hc]; exact h
        cases h
        refine iff_of_false nofun ?_
        rintro (hfalse | ⟨f, hf⟩)
        · cases hfalse
        · cases hf

/-- The slots of a registry are that of its first descriptor, and those of the others behind it. -/
theorem exists_of_makeSlots_cons {d : Descriptor Id σ} {ds : List (Descriptor Id σ)}
    {slots : List (Slot σ)} (h : makeSlots settings host roots (d :: ds) = Except.ok slots) :
    ∃ slot later, makeSlot settings host roots d = Except.ok slot ∧
      makeSlots settings host roots ds = Except.ok later ∧ slots = slot :: later := by
  rw [makeSlots] at h
  cases hd : makeSlot settings host roots d with
  | error fault =>
    simp only [bind, hd] at h
    cases h
  | ok slot =>
    simp only [bind, hd] at h
    obtain ⟨later, hlater, rfl⟩ := exists_of_map_ok (f := (slot :: ·)) h
    exact ⟨slot, later, rfl, hlater, rfl⟩

/-- Every slot is made from a registered descriptor. -/
theorem exists_descriptor_of_makeSlots {registry : List (Descriptor Id σ)} {slots : List (Slot σ)}
    (h : makeSlots settings host roots registry = Except.ok slots) {s : Slot σ} (hs : s ∈ slots) :
    ∃ d ∈ registry, makeSlot settings host roots d = Except.ok s := by
  induction registry generalizing slots with
  | nil =>
    cases h
    cases hs
  | cons d ds ih =>
    obtain ⟨slot, later, hd, hlater, rfl⟩ := exists_of_makeSlots_cons h
    rcases List.mem_cons.mp hs with rfl | hs
    · exact ⟨d, List.mem_cons_self, hd⟩
    · obtain ⟨e, he, hmake⟩ := ih hlater hs
      exact ⟨e, List.mem_cons_of_mem d he, hmake⟩

/-- The slots of a registry start without a recorded time, with probes that were created. -/
theorem starts_of_makeSlots {registry : List (Descriptor Id σ)} {slots : List (Slot σ)}
    (h : makeSlots settings host roots registry = Except.ok slots) :
    ∀ s ∈ slots, Starts registry s := by
  intro s hs
  obtain ⟨d, hd, hmake⟩ := exists_descriptor_of_makeSlots h hs
  obtain ⟨_, hnone, hcreated⟩ := created_of_makeSlot hmake
  exact ⟨hnone, fun p hp => ⟨d, hd, _, hcreated p hp⟩⟩

/-- The descriptor at a position leads to the slot at this position. -/
theorem exists_slot_of_makeSlots {registry : List (Descriptor Id σ)} {slots : List (Slot σ)}
    (h : makeSlots settings host roots registry = Except.ok slots) {index : Nat}
    {d : Descriptor Id σ} (hd : registry[index]? = some d) :
    ∃ s, slots[index]? = some s ∧ makeSlot settings host roots d = Except.ok s := by
  induction registry generalizing slots index with
  | nil => cases hd
  | cons e es ih =>
    obtain ⟨slot, later, he, hlater, rfl⟩ := exists_of_makeSlots_cons h
    cases index with
    -- the first descriptor and the first slot
    | zero =>
      rw [← Option.some.inj hd]
      exact ⟨slot, rfl, he⟩
    | succ index => exact ih hlater hd

/-- The slots have the names of the descriptors, in their order. -/
theorem names_of_makeSlots {registry : List (Descriptor Id σ)} {slots : List (Slot σ)}
    (h : makeSlots settings host roots registry = Except.ok slots) :
    slots.map Slot.name = registry.map Descriptor.name := by
  induction registry generalizing slots with
  | nil =>
    cases h
    rfl
  | cons d ds ih =>
    obtain ⟨slot, later, hd, hlater, rfl⟩ := exists_of_makeSlots_cons h
    rw [List.map_cons, List.map_cons, ih hlater, (created_of_makeSlot hd).1]

/-- The slots of a monitor are those that its registry leads to. -/
theorem makeSlots_of_build {registry : List (Descriptor Id σ)} {m : Monitor σ}
    (h : build settings host roots registry = Except.ok m) :
    makeSlots settings host roots registry = Except.ok m.slots := by
  rw [build] at h
  split at h
  · cases h
  · split at h
    · cases h
    · -- the interval and the slots are both there
      obtain ⟨slots, hslots, rfl⟩ := exists_of_map_ok h
      exact hslots

/-- **The slots of a monitor that has just been built.** -/
theorem slots_of_build {registry : List (Descriptor Id σ)} {m : Monitor σ}
    (h : build settings host roots registry = Except.ok m) : ∀ s ∈ m.slots, Starts registry s :=
  starts_of_makeSlots (makeSlots_of_build h)

/-- A monitor that was built over built-in probes, each under a name of its own. -/
def Built (m : Monitor Builtin) : Prop :=
  ∃ (settings : Ini) (host : HostView) (roots : Roots) (registry : List (Builtin.Kind × String)),
    Id.run (build settings host roots (registry.map fun d => d.1.descriptor d.2)) = .ok m

/-- A slot over a built-in probe starts without a recorded time and without a sample. -/
theorem Built.starts {m : Monitor Builtin} (h : m.Built) {s : Slot Builtin} (hs : s ∈ m.slots) :
    s.lastRefresh = none ∧ ∀ p, s.probe = some p → Sampler.sampled p = false := by
  obtain ⟨settings, host, roots, registry, hbuild⟩ := h
  obtain ⟨hnone, hcreated⟩ := slots_of_build hbuild s hs
  refine ⟨hnone, fun p hp => ?_⟩
  obtain ⟨d, hd, c, hc⟩ := hcreated p hp
  obtain ⟨⟨k, name⟩, _, rfl⟩ := List.mem_map.mp hd
  exact Builtin.Kind.sampled_of_create hc

end Monitor

/-! ## An example

A small monitor that the other modules run as an example. -/

/-- A host that lists one interface and nothing else. -/
def HostView.wired : HostView where
  read _ := .ok "eth0: 700 9 0 0 0 0 0 0 300 5"
  has _ := false
  entries _ := .error .noEntry
  usage _ := .error .noUsage

/-- A probe of traffic that has to refresh once in a second. -/
def Monitor.ofWire : Monitor Builtin :=
  let probe : NetworkProbe := ⟨⟨"/proc/net/dev"⟩, "eth0", none, .zero⟩
  ⟨1000, [⟨"uplink", 1000, some (.network probe), none⟩], none⟩

theorem Monitor.built_ofWire : ofWire.Built :=
  ⟨⟨[⟨"module.uplink", "refresh_ms", "1000"⟩]⟩, .wired, .standard, [(.network, "uplink")], rfl⟩

end HostMeter
