import HostMeter.Proofs.Monitor.Start
import Mathlib.Data.List.Forall2
/-!
# Construction — the way through a registry

A monitor is built by going through the registry and stopping at the first descriptor that fails. What
a descriptor answers is open: creating a probe may change any world `ω`, and a second call may answer
otherwise than the first. So that "called exactly once" can be said at all, every call is taken down.

* `Descriptor.logged`: a descriptor whose calls are taken down.
* `Visit`: what the way through the registry meets at one descriptor.
* `IsWay`, `IsConstruction`: the law of the way, and of the whole construction.
* `Monitor.build_isConstruction`: every construction obeys it.
-/

namespace HostMeter

/-! ## Calls

Taking calls down adds a second component to the world, which no descriptor looks at. -/

/-- A call to create a probe. -/
structure Call (σ : Type) where
  context : Context
  answer : Except Fault σ

variable {ω σ : Type}

/-- The same descriptor, with every call to it taken down behind those that are there. -/
def Descriptor.logged (d : Descriptor (StateM ω) σ) :
    Descriptor (StateM (ω × List (Call σ))) σ where
  name := d.name
  create c := fun (world, calls) =>
    let (answer, world) := (d.create c).run world
    (answer, world, calls ++ [⟨c, answer⟩])

/-- Does a monitor go on after this answer? It does without a probe that the host does not support. -/
def Accepted (answer : Except Fault σ) : Prop :=
  ∀ f, answer = .error f → f.kind = .notSupported

/-! ## Visits

A visit is what the way meets at one descriptor. It is told without the code that makes slots: by the
settings, by the answer to the call, and by the slot or the fault that these two lead to. -/

/-- A visit to a registered descriptor: the settings of its own, or why they cannot be used, and the
answer to the call that created its probe, if there was one. -/
structure Visit (ω σ : Type) where
  descriptor : Descriptor (StateM ω) σ
  settings : Except SettingFault ProbeSettings
  answer? : Option (Except Fault σ)

namespace Visit

/-- The fault that a visit ends the construction with. Unusable settings come before the call. -/
def fault? (v : Visit ω σ) : Option Fault :=
  match v.settings with
  | .error f => some f.toFault
  | .ok _ =>
    match v.answer? with
    | some (.error f) => if f.kind = .notSupported then none else some f
    | _ => none

/-- Does a visit follow the configuration? The probe is created exactly if it is enabled. -/
structure Regular (settings : Ini) (v : Visit ω σ) : Prop where
  own : v.settings = ProbeSettings.ofIni settings v.descriptor.name
  called : v.answer?.isSome = true ↔ ∃ own, v.settings = .ok own ∧ own.enabled = true

/-- Is this the slot that a visit leads to? -/
structure Makes (v : Visit ω σ) (s : Slot σ) : Prop where
  name : s.name = v.descriptor.name
  refresh : ∃ own, v.settings = .ok own ∧ s.refresh = own.refresh
  /-- The slot is enabled exactly if a probe was created, and holds that probe. -/
  probe : ∀ p, s.probe = some p ↔ v.answer? = some (.ok p)
  lastRefresh : s.lastRefresh = none

def call? (settings : Ini) (host : HostView) (roots : Roots) (v : Visit ω σ) : Option (Call σ) :=
  v.answer?.map fun answer => ⟨⟨v.descriptor.name, settings, host, roots⟩, answer⟩

/-- What a visit means for the construction: its slot, or the fault that ends it. -/
def LeadsTo (v : Visit ω σ) : Except Fault (Slot σ) → Prop
  | .ok s => v.fault? = none ∧ v.Makes s
  | .error f => v.fault? = some f

/-- The call of a visit carries the answer of the visit. -/
theorem answer?_of_call? {settings : Ini} {host : HostView} {roots : Roots} {v : Visit ω σ}
    {c : Call σ} (h : v.call? settings host roots = some c) : v.answer? = some c.answer := by
  obtain ⟨a, ha, rfl⟩ := Option.map_eq_some_iff.mp h
  exact ha

/-- A visit has no fault if its settings can be used and its answer, if there is one, is accepted. -/
theorem fault?_eq_none_iff {v : Visit ω σ} :
    v.fault? = none ↔ (∃ own, v.settings = .ok own) ∧ ∀ a, v.answer? = some a → Accepted a := by
  rw [fault?]
  cases v.settings with
  -- the settings cannot be used, so both sides fail
  | error f => simp
  | ok own =>
    cases v.answer? with
    -- nothing was created, and nothing is asked of the answer
    | none => simp
    | some a =>
      cases a with
      -- a probe is accepted
      | ok p => simp [Accepted]
      | error f =>
        simp only [Accepted, Except.ok.injEq, exists_eq', Option.some.injEq, forall_eq',
          Except.error.injEq, true_and]
        split
        · next h => simp [h]
        · next h => simp [h]

end Visit

/-- What is made of an answer is what the visit with this answer leads to. -/
theorem Monitor.leadsTo_slotOf (d : Descriptor (StateM ω) σ) (own : ProbeSettings)
    (answer : Except Fault σ) :
    (Visit.mk d (.ok own) (some answer)).LeadsTo (slotOf d.name own answer) := by
  cases answer with
  | ok p => exact ⟨rfl, rfl, ⟨own, rfl, rfl⟩, fun q => by simp, rfl⟩
  | error f =>
    rw [slotOf]
    by_cases hkind : f.kind = .notSupported
    · -- a slot without a probe
      rw [if_pos hkind]
      exact ⟨if_pos hkind, rfl, ⟨own, rfl, rfl⟩, fun q => by simp, rfl⟩
    · rw [if_neg hkind]
      exact if_neg hkind

/-! ## One visit

What the making of one slot does, in both worlds at once, is a visit. -/

section Visits

variable (settings : Ini) (host : HostView) (roots : Roots)

/-- **What is met at one descriptor.** The call that is taken down, if there is one, is the only trace
of the visit, and taking it down changes nothing else. -/
theorem Monitor.exists_visit (d : Descriptor (StateM ω) σ) (world : ω) (calls : List (Call σ)) :
    ∃ (v : Visit ω σ) (world' : ω) (outcome : Except Fault (Slot σ)),
      v.descriptor = d ∧ v.Regular settings ∧ v.LeadsTo outcome ∧
      (makeSlot settings host roots d).run world = (outcome, world') ∧
      (makeSlot settings host roots d.logged).run (world, calls) =
        (outcome, world', calls ++ (v.call? settings host roots).toList) := by
  -- a world stays as it is unless there is a call
  cases hown : ProbeSettings.ofIni settings d.name with
  | error f =>
    refine ⟨⟨d, .error f, none⟩, world, .error f.toFault, rfl, ⟨hown.symm, by simp⟩, rfl, ?_, ?_⟩
    · rw [makeSlot_of_unusable hown]
      rfl
    · rw [makeSlot_of_unusable (d := d.logged) hown]
      exact congrArg (fun log => (_, world, log)) (List.append_nil calls).symm
  | ok own =>
    cases henabled : own.enabled with
    -- disabled: there is no call, and nothing is put into the log
    | false =>
      refine ⟨⟨d, .ok own, none⟩, world, .ok ⟨d.name, own.refresh, none, none⟩, rfl,
        ⟨hown.symm, by simp [henabled]⟩, ⟨rfl, rfl, ⟨own, rfl, rfl⟩, by simp, rfl⟩, ?_, ?_⟩
      · rw [makeSlot_of_disabled hown henabled]
        rfl
      · rw [makeSlot_of_disabled (d := d.logged) hown henabled]
        exact congrArg (fun log => (_, world, log)) (List.append_nil calls).symm
    -- enabled: the call is made once, and its answer makes the slot
    | true =>
      let c : Context := ⟨d.name, settings, host, roots⟩
      let answer := ((d.create c).run world).1
      refine ⟨⟨d, .ok own, some answer⟩, ((d.create c).run world).2, slotOf d.name own answer, rfl,
        ⟨hown.symm, by simp [henabled]⟩, leadsTo_slotOf d own answer, ?_, ?_⟩
      · rw [makeSlot_of_enabled hown henabled]
        rfl
      · rw [makeSlot_of_enabled (d := d.logged) hown henabled]
        rfl

/-! ## The way

The visits follow each other until one of them has a fault. -/

variable {settings host roots}

/-- **The law of the way through a registry.** Descriptors at the front are visited, in order, and the
rest is not. Either all are visited and lead to a slot each, or the last visit is the first with a
fault. -/
structure IsWay (settings : Ini) (registry : List (Descriptor (StateM ω) σ))
    (visits : List (Visit ω σ)) (unvisited : List (Descriptor (StateM ω) σ))
    (outcome : Except Fault (List (Slot σ))) : Prop where
  order : registry = visits.map Visit.descriptor ++ unvisited
  regular : ∀ v ∈ visits, v.Regular settings
  made : ∀ slots, outcome = .ok slots →
    unvisited = [] ∧ (∀ v ∈ visits, v.fault? = none) ∧ List.Forall₂ Visit.Makes visits slots
  failed : ∀ f, outcome = .error f →
    ∃ earlier v, visits = earlier ++ [v] ∧ v.fault? = some f ∧ ∀ u ∈ earlier, u.fault? = none

namespace IsWay

/-- The way through no descriptors ends well at once. -/
theorem nil : IsWay (ω := ω) (σ := σ) settings [] [] [] (.ok []) where
  order := rfl
  regular := by simp
  made := by
    rintro slots ⟨rfl⟩
    exact ⟨rfl, by simp, .nil⟩
  failed := by
    intro f h
    cases h

/-- A visit with a fault ends the way, and what is behind it is not visited. -/
theorem stop {v : Visit ω σ} {f : Fault} (hv : v.Regular settings) (hf : v.fault? = some f)
    (rest : List (Descriptor (StateM ω) σ)) :
    IsWay settings (v.descriptor :: rest) [v] rest (.error f) where
  order := rfl
  regular := by simpa using hv
  made := by
    intro slots h
    cases h
  failed := by
    intro g h
    cases h
    exact ⟨[], v, rfl, hf, by simp⟩

/-- A visit without a fault puts its slot in front of what the rest of the way leads to. -/
theorem cons {v : Visit ω σ} {s : Slot σ} {rest : List (Descriptor (StateM ω) σ)}
    {visits : List (Visit ω σ)} {unvisited : List (Descriptor (StateM ω) σ)}
    {outcome : Except Fault (List (Slot σ))} (hv : v.Regular settings) (hnone : v.fault? = none)
    (hs : v.Makes s) (h : IsWay settings rest visits unvisited outcome) :
    IsWay settings (v.descriptor :: rest) (v :: visits) unvisited (outcome.map (s :: ·)) where
  order := by rw [h.order]; rfl
  regular := List.forall_mem_cons.mpr ⟨hv, h.regular⟩
  made := by
    intro slots hok
    obtain ⟨later, hlater, rfl⟩ := exists_of_map_ok (f := (s :: ·)) hok
    obtain ⟨hall, hnones, hmakes⟩ := h.made later hlater
    exact ⟨hall, List.forall_mem_cons.mpr ⟨hnone, hnones⟩, .cons hs hmakes⟩
  failed := by
    intro f herror
    cases outcome with
    | ok slots => cases herror
    | error g =>
      cases herror
      obtain ⟨earlier, u, heq, hu, hearlier⟩ := h.failed _ rfl
      exact ⟨v :: earlier, u, by rw [heq]; rfl, hu, List.forall_mem_cons.mpr ⟨hnone, hearlier⟩⟩

/-- The way ends well exactly if the settings of every registered descriptor can be used and every
answer is accepted. -/
theorem ok_iff (host : HostView) (roots : Roots) {registry : List (Descriptor (StateM ω) σ)}
    {visits : List (Visit ω σ)} {unvisited : List (Descriptor (StateM ω) σ)}
    {outcome : Except Fault (List (Slot σ))}
    (h : IsWay settings registry visits unvisited outcome) :
    (∃ slots, outcome = .ok slots) ↔
      (∀ d ∈ registry, ∃ own, ProbeSettings.ofIni settings d.name = .ok own) ∧
        ∀ c ∈ visits.filterMap (Visit.call? settings host roots), Accepted c.answer := by
  constructor
  · rintro ⟨slots, hok⟩
    obtain ⟨hall, hnone, _⟩ := h.made slots hok
    refine ⟨fun d hd => ?_, fun c hc => ?_⟩
    · -- all descriptors were visited, and a visit without a fault has settings
      rw [h.order, hall, List.append_nil] at hd
      obtain ⟨v, hv, rfl⟩ := List.mem_map.mp hd
      rw [← (h.regular v hv).own]
      exact (Visit.fault?_eq_none_iff.mp (hnone v hv)).1
    · -- the answer of a call is that of a visit without a fault
      obtain ⟨v, hv, hcall⟩ := List.mem_filterMap.mp hc
      exact (Visit.fault?_eq_none_iff.mp (hnone v hv)).2 _ (Visit.answer?_of_call? hcall)
  · rintro ⟨husable, haccepted⟩
    cases outcome with
    | ok slots => exact ⟨slots, rfl⟩
    | error f =>
      -- the last visit would have no fault after all
      obtain ⟨earlier, v, heq, hfault, _⟩ := h.failed f rfl
      have hv : v ∈ visits := by rw [heq]; exact List.mem_append_right _ List.mem_cons_self
      have hnone : v.fault? = none := by
        refine Visit.fault?_eq_none_iff.mpr ⟨?_, fun a ha => ?_⟩
        · rw [(h.regular v hv).own]
          refine husable v.descriptor ?_
          rw [h.order]
          exact List.mem_append_left _ (List.mem_map_of_mem hv)
        · have hcall : v.call? settings host roots =
              some ⟨⟨v.descriptor.name, settings, host, roots⟩, a⟩ := by
            rw [Visit.call?, ha]
            rfl
          exact haccepted _ (List.mem_filterMap.mpr ⟨v, hv, hcall⟩)
      rw [hnone] at hfault
      cases hfault

end IsWay

section Steps

variable {α : Type} {d : Descriptor (StateM α) σ} {a a' : α}

-- one step on the way, in any world, so that it serves with the calls taken down and without
/-- If the first descriptor fails, the world is as this left it. -/
theorem Monitor.run_makeSlots_cons_of_error {f : Fault}
    (h : (makeSlot settings host roots d).run a = (.error f, a'))
    (ds : List (Descriptor (StateM α) σ)) :
    (makeSlots settings host roots (d :: ds)).run a = (.error f, a') := by
  rw [makeSlots, StateT.run_bind, h]
  rfl

/-- If the first descriptor leads to a slot, the others are made in the world that it left. -/
theorem Monitor.run_makeSlots_cons_of_ok {s : Slot σ}
    (h : (makeSlot settings host roots d).run a = (.ok s, a'))
    {ds : List (Descriptor (StateM α) σ)} {outcome : Except Fault (List (Slot σ))} {a'' : α}
    (hds : (makeSlots settings host roots ds).run a' = (outcome, a'')) :
    (makeSlots settings host roots (d :: ds)).run a = (outcome.map (s :: ·), a'') := by
  rw [makeSlots, StateT.run_bind, h]
  show (StateT.run (makeSlots settings host roots ds >>= _) a' : Id _) = _
  rw [StateT.run_bind, hds]
  rfl

/-- A construction with a usable interval does to the world what making the slots does. -/
theorem Monitor.run_build_of_makeSlots {registry : List (Descriptor (StateM α) σ)}
    (hne : registry ≠ []) {own : MonitorSettings}
    (hown : MonitorSettings.ofIni settings = .ok own) {outcome : Except Fault (List (Slot σ))}
    (h : (makeSlots settings host roots registry).run a = (outcome, a')) :
    (build settings host roots registry).run a =
      (outcome.map fun slots => ⟨own.interval, slots, none⟩, a') := by
  have hsome : registry.isEmpty = false := List.isEmpty_eq_false_iff.mpr hne
  simp only [build, hsome, hown, Bool.false_eq_true, if_false]
  rw [StateT.run_bind, h]
  rfl

/-- An interval that cannot be used ends the construction before anything is created. -/
theorem Monitor.run_build_of_unusable {registry : List (Descriptor (StateM α) σ)}
    (hne : registry ≠ []) {f : SettingFault} (hown : MonitorSettings.ofIni settings = .error f) :
    (build settings host roots registry).run a = (.error f.toFault, a) := by
  have hsome : registry.isEmpty = false := List.isEmpty_eq_false_iff.mpr hne
  simp only [build, hsome, hown, Bool.false_eq_true, if_false]
  rfl

end Steps

/-- Going through a registry obeys the law of the way. The induction is on the registry; the calls
that are there are carried along, since each visit puts its own behind them. -/
theorem Monitor.makeSlots_isWay (settings : Ini) (host : HostView) (roots : Roots)
    (registry : List (Descriptor (StateM ω) σ)) (world : ω) (calls : List (Call σ)) :
    ∃ visits unvisited world' outcome,
      (makeSlots settings host roots registry).run world = (outcome, world') ∧
      (makeSlots settings host roots (registry.map Descriptor.logged)).run (world, calls) =
        (outcome, world', calls ++ visits.filterMap (Visit.call? settings host roots)) ∧
      IsWay settings registry visits unvisited outcome := by
  induction registry generalizing world calls with
  | nil => exact ⟨[], [], world, .ok [], rfl, by rw [List.filterMap_nil, List.append_nil]; rfl, .nil⟩
  | cons d ds ih =>
    obtain ⟨v, world', slot, rfl, hregular, hleads, hplain, hlogged⟩ :=
      exists_visit settings host roots d world calls
    cases slot with
    | error f =>
      -- the descriptors behind this one are not visited
      refine ⟨[v], ds, world', .error f, run_makeSlots_cons_of_error hplain ds, ?_,
        .stop hregular hleads ds⟩
      rw [List.map_cons, run_makeSlots_cons_of_error hlogged]
      cases hcall : v.call? settings host roots <;> simp [hcall]
    -- the rest of the way starts from the world and the calls of this visit
    | ok s =>
      obtain ⟨hnone, hmakes⟩ := hleads
      obtain ⟨visits, unvisited, world'', outcome, hplain', hlogged', hway⟩ :=
        ih world' (calls ++ (v.call? settings host roots).toList)
      refine ⟨v :: visits, unvisited, world'', outcome.map (s :: ·),
        run_makeSlots_cons_of_ok hplain hplain', ?_, .cons hregular hnone hmakes hway⟩
      rw [List.map_cons, run_makeSlots_cons_of_ok hlogged hlogged']
      cases hcall : v.call? settings host roots <;> simp [hcall]

/-! ## The construction

Two demands are put before the way: that the registry is not empty, and that the interval can be used. -/

/-- **The law of a construction.** The calls are those of the visits, in order: one for a descriptor
that is enabled and none for any other. -/
structure IsConstruction (settings : Ini) (host : HostView) (roots : Roots)
    (registry : List (Descriptor (StateM ω) σ)) (visits : List (Visit ω σ))
    (unvisited : List (Descriptor (StateM ω) σ)) (calls : List (Call σ))
    (result : Except Fault (Monitor σ)) : Prop where
  order : registry = visits.map Visit.descriptor ++ unvisited
  regular : ∀ v ∈ visits, v.Regular settings
  calls_eq : calls = visits.filterMap (Visit.call? settings host roots)
  /-- An empty registry fails before the configuration is looked at. -/
  empty : registry = [] → result = .error (.internal "no module variants registered")
  interval : ∀ f, registry ≠ [] → MonitorSettings.ofIni settings = .error f →
    visits = [] ∧ result = .error f.toFault
  /-- Otherwise the last visit is the first with a fault, and the construction ends with that. -/
  failed : ∀ own f, registry ≠ [] → MonitorSettings.ofIni settings = .ok own → result = .error f →
    ∃ earlier v, visits = earlier ++ [v] ∧ v.fault? = some f ∧ ∀ u ∈ earlier, u.fault? = none
  built : ∀ m, result = .ok m →
    unvisited = [] ∧ (∀ v ∈ visits, v.fault? = none) ∧
      MonitorSettings.ofIni settings = .ok ⟨m.interval⟩ ∧
      List.Forall₂ Visit.Makes visits m.slots ∧ m.lastFault = none
  succeeds : (∃ m, result = .ok m) ↔
    registry ≠ [] ∧ (∃ own, MonitorSettings.ofIni settings = .ok own) ∧
      (∀ d ∈ registry, ∃ own, ProbeSettings.ofIni settings d.name = .ok own) ∧
      ∀ c ∈ calls, Accepted c.answer

namespace IsConstruction

/-- The construction over an empty registry. -/
theorem of_empty :
    IsConstruction (ω := ω) (σ := σ) settings host roots [] [] [] []
      (.error (.internal "no module variants registered")) where
  order := rfl
  regular := by simp
  calls_eq := rfl
  empty _ := rfl
  interval _ h := absurd rfl h
  failed _ _ h := absurd rfl h
  built m h := by cases h
  succeeds := by simp

/-- The construction with an interval that cannot be used. -/
theorem of_interval {registry : List (Descriptor (StateM ω) σ)} (hne : registry ≠ [])
    {f : SettingFault} (hf : MonitorSettings.ofIni settings = .error f) :
    IsConstruction settings host roots registry [] registry [] (.error f.toFault) where
  order := rfl
  regular := by simp
  calls_eq := rfl
  empty h := absurd h hne
  interval g _ hg := by
    rw [hf] at hg
    cases hg
    exact ⟨rfl, rfl⟩
  failed own g _ hown := by
    rw [hf] at hown
    cases hown
  built m h := by cases h
  succeeds := by simp [hf]

/-- Once the interval is settled, the construction is the way through the registry. -/
theorem of_way {registry : List (Descriptor (StateM ω) σ)} (hne : registry ≠ [])
    {own : MonitorSettings} (hown : MonitorSettings.ofIni settings = .ok own)
    {visits : List (Visit ω σ)} {unvisited : List (Descriptor (StateM ω) σ)}
    {outcome : Except Fault (List (Slot σ))}
    (h : IsWay settings registry visits unvisited outcome) :
    IsConstruction settings host roots registry visits unvisited
      (visits.filterMap (Visit.call? settings host roots))
      (outcome.map fun slots => ⟨own.interval, slots, none⟩) where
  order := h.order
  regular := h.regular
  calls_eq := rfl
  empty h := absurd h hne
  interval f _ hf := by
    rw [hown] at hf
    cases hf
  failed _ f _ _ herror := by
    cases outcome with
    | ok slots => cases herror
    | error g =>
      cases herror
      exact h.failed _ rfl
  built m hok := by
    obtain ⟨slots, hslots, rfl⟩ := exists_of_map_ok hok
    obtain ⟨hall, hnone, hmakes⟩ := h.made slots hslots
    exact ⟨hall, hnone, hown, hmakes, rfl⟩
  succeeds := by
    have hiff : (∃ m : Monitor σ, (outcome.map fun slots => ⟨own.interval, slots, none⟩) = .ok m) ↔
        ∃ slots, outcome = .ok slots := by
      cases outcome <;> simp [Except.map]
    rw [hiff, h.ok_iff host roots]
    simp [hne, hown]

end IsConstruction

/-- **Every construction obeys the law.** Creating a probe may change the world, and taking the calls
down changes neither the result nor the world. -/
theorem Monitor.build_isConstruction (settings : Ini) (host : HostView) (roots : Roots)
    (registry : List (Descriptor (StateM ω) σ)) (world : ω) :
    ∃ visits unvisited calls world' result,
      (build settings host roots registry).run world = (result, world') ∧
      (build settings host roots (registry.map Descriptor.logged)).run (world, []) =
        (result, world', calls) ∧
      IsConstruction settings host roots registry visits unvisited calls result := by
  cases registry with
  | nil => exact ⟨[], [], [], world, _, rfl, rfl, .of_empty⟩
  | cons d ds =>
    have hne : d :: ds ≠ [] := List.cons_ne_nil d ds
    have hne' : (d :: ds).map Descriptor.logged ≠ [] := List.cons_ne_nil _ _
    cases hown : MonitorSettings.ofIni settings with
    -- the interval cannot be used, and there are no visits
    | error f =>
      exact ⟨[], d :: ds, [], world, .error f.toFault, run_build_of_unusable hne hown,
        run_build_of_unusable hne' hown, .of_interval hne hown⟩
    -- the construction is the way through the registry
    | ok own =>
      obtain ⟨visits, unvisited, world', outcome, hplain, hlogged, hway⟩ :=
        makeSlots_isWay settings host roots (d :: ds) world []
      exact ⟨visits, unvisited, _, world', _, run_build_of_makeSlots hne hown hplain,
        run_build_of_makeSlots hne' hown hlogged, .of_way hne hown hway⟩

/-- A probe that the host supports once: registered twice, and once more where it is disabled. -/
theorem Monitor.build_isConstruction_of_spare :
    let settings : Ini := ⟨[⟨"module.spare", "enabled", "no"⟩, ⟨"module.lamp", "refresh_ms", "40"⟩]⟩
    let once (name : String) : Descriptor (StateM Nat) Nat :=
      ⟨name, fun _ n => (if n = 0 then .ok n else .error (.notSupported "in use"), n + 1)⟩
    let registry := [once "lamp", once "spare", once "lamp"]
    let c : Context := ⟨"lamp", settings, .wired, .standard⟩
    let slots : List (Slot Nat) :=
      [⟨"lamp", 40, some 0, none⟩, ⟨"spare", 0, none, none⟩, ⟨"lamp", 40, none, none⟩]
    ∃ visits unvisited, IsConstruction settings .wired .standard registry visits unvisited
      [⟨c, .ok 0⟩, ⟨c, .error (.notSupported "in use")⟩] (.ok ⟨1000, slots, none⟩) := by
  intro settings once registry c slots
  obtain ⟨visits, unvisited, calls, world', result, _, hlogged, hlaw⟩ :=
    build_isConstruction settings .wired .standard registry 0
  have hrun : (build settings .wired .standard (registry.map Descriptor.logged)).run (0, []) =
      (.ok ⟨1000, slots, none⟩, 2, [⟨c, .ok 0⟩, ⟨c, .error (.notSupported "in use")⟩]) := rfl
  rw [hrun] at hlogged
  cases hlogged
  exact ⟨visits, unvisited, hlaw⟩

end Visits

end HostMeter
