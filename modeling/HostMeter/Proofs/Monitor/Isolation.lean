import HostMeter.Proofs.Monitor.Caching
import HostMeter.Proofs.Probe.Sources
/-!
# Isolation — a slot shows nothing of the others

The probes of a monitor share its configuration, its host, the builder of a round and the loop over
the slots. Still, what a slot puts into the snapshot and what becomes of it follow from its own
settings, from the times of the rounds and from what the host answers about its own sources.

* `Turn.eq_of_alike`, `Round.shown_of_alike`, `Monitor.shown_of_alike`: two turns, rounds and runs of
  one slot, in whatever company.
* `Monitor.isolation`: two monitors that agree on what concerns one kind of probe show the same of it.
-/

namespace HostMeter

/-! ## Two turns

A turn is handed a builder that others have filled, and a host that answers about much more than the probe
asks for. Neither shows. -/

/-- A probe that is asked twice in one state, of hosts that answer its queries alike, does the same:
both times it emits the metrics of one sample, or both times it fails and stays as it is. -/
theorem Sampler.poll_of_alike {σ : Type} [Sampler σ] [Sourced σ] {p : σ} {host other : HostView}
    (h : ∀ q ∈ Sourced.sources p, host.Alike other q) (now : UInt64) (due : Bool)
    (b b' : Builder) :
    (∃ q, poll p now due host b = emit q b ∧ poll p now due other b' = emit q b') ∨
    (∃ f, poll p now due host b = ⟨p, b, some f⟩ ∧ poll p now due other b' = ⟨p, b', some f⟩) := by
  cases hasks : due || !sampled p with
  | false =>
    refine Or.inl ⟨p, ?_, ?_⟩
    · rw [poll, hasks, if_neg Bool.false_ne_true]
    · rw [poll, hasks, if_neg Bool.false_ne_true]
  | true =>
    have hsame : refresh p now other = refresh p now host := (Sourced.refresh_congr h).symm
    cases hr : refresh p now host with
    | ok q => exact Or.inl ⟨q, poll_of_refresh_ok hasks hr, poll_of_refresh_ok hasks (hsame.trans hr)⟩
    | error f =>
      exact Or.inr ⟨f, poll_of_refresh_error hasks hr, poll_of_refresh_error hasks (hsame.trans hr)⟩

namespace Turn

/-- A slot without a probe contributes nothing. -/
theorem segment_of_no_probe {σ : Type} [Probe σ] {t : Turn σ} (h : t.slot.probe = none) :
    t.segment = [] := by
  rw [segment, fault?, emitted, answer?_eq_none h]
  rfl

/-- A turn in which the probe fails and stays as it is contributes the wording of the fault, and
leaves the slot alone. -/
theorem eq_of_fault {σ : Type} [Probe σ] {t : Turn σ} {p : σ} {f : Fault}
    (hp : t.slot.probe = some p) (h : t.answer? = some ⟨p, t.builder, some f⟩) :
    t.segment = [errorMetric t.slot.name f] ∧ t.after = t.slot := by
  constructor
  · rw [segment, fault?_of_answer? h]
  · rw [after_of_failed h rfl, ← hp]

/-- **Of its company a turn shows nothing.** Two turns of a slot at one time do the same if the hosts
answer the queries of its probe alike, whatever is in the builders that they are handed. -/
theorem eq_of_alike {t u : Turn Builtin} (hslot : t.slot = u.slot) (hnow : t.now = u.now)
    (halike : ∀ p, u.slot.probe = some p → ∀ q ∈ Sourced.sources p, t.host.Alike u.host q) :
    t.segment = u.segment ∧ t.after = u.after := by
  cases hp : u.slot.probe with
  -- without a probe, neither turn does anything
  | none =>
    have hp' : t.slot.probe = none := by rw [hslot, hp]
    constructor
    · rw [segment_of_no_probe hp, segment_of_no_probe hp']
    · rw [after, after, answer?_eq_none hp, answer?_eq_none hp', hslot]
  | some p =>
    have hp' : t.slot.probe = some p := by rw [hslot, hp]
    have hanswer : t.answer? = some (Sampler.poll p u.now (u.slot.due u.now) t.host t.builder) := by
      rw [answer?_eq_some hp', hnow, hslot]
      rfl
    have hanswer' : u.answer? = some (Sampler.poll p u.now (u.slot.due u.now) u.host u.builder) :=
      answer?_eq_some hp
    rcases Sampler.poll_of_alike (halike p hp) u.now (u.slot.due u.now) t.builder u.builder with
      ⟨q, hq, hq'⟩ | ⟨f, hf, hf'⟩
    · -- both emit the metrics of one probe, behind what their builders hold
      rw [hq] at hanswer
      rw [hq'] at hanswer'
      constructor
      · rw [(segment_of_emit hanswer).2, (segment_of_emit hanswer').2]
      · rw [after_of_succeeded hanswer (by rw [Sampler.emit_eq]),
          after_of_succeeded hanswer' (by rw [Sampler.emit_eq]), Sampler.emit_eq, Sampler.emit_eq,
          hslot, hnow]
    · -- both fail with one fault, and leave the probe as it was
      rw [hf] at hanswer
      rw [hf'] at hanswer'
      obtain ⟨hsegment, hafter⟩ := eq_of_fault hp' hanswer
      obtain ⟨hsegment', hafter'⟩ := eq_of_fault hp hanswer'
      rw [hsegment, hafter, hsegment', hafter', hslot]
      exact ⟨rfl, rfl⟩

end Turn

/-! ## Two rounds

Two rounds of different monitors are compared at one position. -/

/-- What a round shows of the slot at a position: its segment of the snapshot, and the slot
afterwards. -/
def Round.shown {σ : Type} [Probe σ] (r : Round σ) (index : Nat) : List Metric × Option (Slot σ) :=
  (r.segment index, r.after.slots[index]?)

/-- What a round shows of a slot is what its turn does. -/
theorem Round.shown_of_turn? {σ : Type} [Probe σ] {r : Round σ} {index : Nat} {t : Turn σ}
    (h : r.turn? index = some t) : r.shown index = (t.segment, some t.after) := by
  rw [shown, segment, after_of_turn? h, h]
  rfl

/-- Two rounds at one time show the same of a slot that both find, if their hosts answer its queries alike.
-/
theorem Round.shown_of_alike {r r' : Round Builtin} {index : Nat} {s : Slot Builtin}
    (hs : r.monitor.slots[index]? = some s) (hs' : r'.monitor.slots[index]? = some s)
    (hnow : r.moment.now = r'.moment.now)
    (halike : ∀ p, s.probe = some p → ∀ q ∈ Sourced.sources p,
      r.moment.host.Alike r'.moment.host q) : r.shown index = r'.shown index := by
  obtain ⟨t, ht, _⟩ := exists_turn? hs
  obtain ⟨u, hu, _⟩ := exists_turn? hs'
  have htwin : t.segment = u.segment ∧ t.after = u.after := by
    rw [turn?_eq ht hs, turn?_eq hu hs']
    exact Turn.eq_of_alike rfl hnow halike
  rw [shown_of_turn? ht, shown_of_turn? hu, htwin.1, htwin.2]

/-- If two rounds show the same of a slot, both leave the same slot, and it is what a turn made of the one
before. -/
theorem Round.exists_after_of_shown {r r' : Round Builtin} {index : Nat} {s : Slot Builtin}
    (hs : r.monitor.slots[index]? = some s) (hshown : r.shown index = r'.shown index) :
    ∃ t : Turn Builtin, t.slot = s ∧ r.after.slots[index]? = some t.after ∧
      r'.after.slots[index]? = some t.after := by
  obtain ⟨t, ht, hslot⟩ := exists_turn? hs
  have hafter := after_of_turn? ht
  exact ⟨t, hslot, hafter, (congrArg Prod.snd hshown).symm.trans hafter⟩

/-! ## Two runs

From round to round the two runs keep the same slot at the position. What carries the induction besides is
that its probe keeps asking about the same sources. -/

/-- Does the probe of a slot ask about nothing but these sources? -/
def Slot.AsksOnly (sources : List Query) (s : Slot Builtin) : Prop :=
  ∀ p, s.probe = some p → ∀ q ∈ Sourced.sources p, q ∈ sources

/-- A turn does not change what the probe of a slot asks about. -/
theorem Slot.AsksOnly.after {sources : List Query} {t : Turn Builtin}
    (h : t.slot.AsksOnly sources) : t.after.AsksOnly sources := by
  cases hp : t.slot.probe with
  | none =>
    rw [Turn.after, Turn.answer?_eq_none hp]
    exact h
  | some p =>
    have hanswer := Turn.answer?_eq_some hp
    have hkept : Sourced.sources (Probe.poll p t.now (t.slot.due t.now) t.host t.builder).probe =
        Sourced.sources p := by
      show Sourced.sources (Sampler.poll p t.now (t.slot.due t.now) t.host t.builder).probe = _
      rw [Sampler.poll]
      split
      · -- a refresh keeps the sources, and a failed one keeps the probe
        cases hr : Sampler.refresh p t.now t.host with
        | ok q =>
          show Sourced.sources (Sampler.emit q t.builder).probe = _
          rw [Sampler.emit_eq]
          exact Sourced.sources_refresh hr
        | error f => rfl
      · rw [Sampler.emit_eq]
    intro q hq
    rw [Turn.after, hanswer] at hq
    rw [← Option.some.inj hq, hkept]
    exact h p hp

/-- A moment at which two hosts are asked. -/
structure TwinMoment where
  now : UInt64
  host : HostView
  other : HostView

def TwinMoment.first (t : TwinMoment) : Moment := ⟨t.now, t.host⟩

def TwinMoment.second (t : TwinMoment) : Moment := ⟨t.now, t.other⟩

namespace Monitor

/-- **Two runs of one slot.** If they start from the same slot and the hosts answer its queries alike,
every round shows the same of it. The induction is on the run; what carries it is that both runs have
the same slot at the position, whose probe still asks about the same sources. -/
theorem shown_of_alike {m m' : Monitor Builtin} {index : Nat} {s : Slot Builtin}
    (hs : m.slots[index]? = some s) (hs' : m'.slots[index]? = some s) {sources : List Query}
    (hasks : s.AsksOnly sources) {history : List TwinMoment}
    (halike : ∀ t ∈ history, ∀ q ∈ sources, t.host.Alike t.other q) :
    (m.rounds (history.map TwinMoment.first)).map (fun r => r.shown index) =
      (m'.rounds (history.map TwinMoment.second)).map fun r => r.shown index := by
  induction history generalizing m m' s with
  | nil => rfl
  | cons t history ih =>
    let r : Round Builtin := ⟨m, t.first⟩
    let r' : Round Builtin := ⟨m', t.second⟩
    have hshown : r.shown index = r'.shown index :=
      Round.shown_of_alike hs hs' rfl fun p hp q hq =>
        halike t List.mem_cons_self q (hasks p hp q hq)
    obtain ⟨u, rfl, hafter, hafter'⟩ := Round.exists_after_of_shown (r := r) hs hshown
    have hlater := ih hafter hafter' hasks.after fun v hv => halike v (List.mem_cons_of_mem t hv)
    exact congrArg₂ List.cons hshown hlater

/-! ## Two monitors

Two constructions agree about a kind if its section and the answers about its sources agree. -/

section Twins

variable {settings settings' : Ini} {host host' : HostView} {roots : Roots}

/-- The slot of a kind of probe depends on its own section and on its own sources. -/
theorem makeSlot_congr {k : Builtin.Kind} {name : String}
    (hown : ∀ key, settings.get? (ProbeSettings.heading name) key =
      settings'.get? (ProbeSettings.heading name) key)
    (hhost : ∀ q ∈ k.sources ⟨name, settings, host, roots⟩, host.Alike host' q) :
    makeSlot settings host roots (k.descriptor name) =
      makeSlot settings' host' roots (k.descriptor name) := by
  have hsettings : ProbeSettings.ofIni settings name = ProbeSettings.ofIni settings' name := by
    rw [ProbeSettings.ofIni, ProbeSettings.ofIni, Ini.flag, Ini.flag, Ini.word32, Ini.word32, hown,
      hown]
  have hcreate : k.create ⟨name, settings, host, roots⟩ = k.create ⟨name, settings', host', roots⟩ :=
    Builtin.Kind.create_congr ⟨rfl, hown, rfl⟩ hhost
  rw [makeSlot, makeSlot]
  simp only [Builtin.Kind.descriptor, hsettings, hcreate]

/-- The slot of a kind asks about nothing but the sources of the kind. -/
theorem asksOnly_of_makeSlot {k : Builtin.Kind} {name : String} {s : Slot Builtin}
    (h : makeSlot settings host roots (k.descriptor name) = Except.ok s) :
    s.AsksOnly (k.sources ⟨name, settings, host, roots⟩) :=
  fun p hp => Builtin.Kind.sources_of_create ((created_of_makeSlot h).2.2 p hp)

end Twins

/-- Every kind has its place in the registry. -/
theorem exists_index_of_kind (k : Builtin.Kind) :
    ∃ index : Nat, Builtin.Kind.all[index]? = some k ∧
      builtinRegistry[index]? = some (k.descriptor k.name) := by
  obtain ⟨index, hindex⟩ := List.mem_iff_getElem?.mp k.mem_all
  refine ⟨index, hindex, ?_⟩
  rw [builtinRegistry, List.getElem?_map, hindex]
  rfl

/-- **Isolation.** Take two monitors over the built-in probes, built below the same roots from
configurations that agree on the section of one kind and on hosts that answer alike about its sources,
and let both go through rounds at the same times, on hosts that again answer alike about them. Both
monitors start with the same slot for the kind, at its place in the registry, so the kind takes part in
both or in neither; and in every round its segment of the snapshot and its status are the same,
whatever else is configured, whatever else the hosts answer, and whichever other probes fail. -/
theorem isolation (k : Builtin.Kind) {settings settings' : Ini} {host host' : HostView}
    {roots : Roots} {m m' : Monitor Builtin} (hm : ofSettings settings host roots = .ok m)
    (hm' : ofSettings settings' host' roots = .ok m')
    (hown : ∀ key, settings.get? (ProbeSettings.heading k.name) key =
      settings'.get? (ProbeSettings.heading k.name) key)
    (hhost : ∀ q ∈ k.sources ⟨k.name, settings, host, roots⟩, host.Alike host' q)
    (history : List TwinMoment)
    (hhistory : ∀ t ∈ history, ∀ q ∈ k.sources ⟨k.name, settings, host, roots⟩,
      t.host.Alike t.other q) :
    ∃ index s, Builtin.Kind.all[index]? = some k ∧ s.name = k.name ∧
      m.slots[index]? = some s ∧ m'.slots[index]? = some s ∧
      (m.rounds (history.map TwinMoment.first)).map
          (fun r => (r.segment index, r.after.status[index]?)) =
        (m'.rounds (history.map TwinMoment.second)).map
          (fun r => (r.segment index, r.after.status[index]?)) ∧
      (∀ r ∈ m.rounds (history.map TwinMoment.first) ++ m'.rounds (history.map TwinMoment.second),
        r.outcome = .ok ⟨r.turns.flatMap Turn.segment⟩ ∧
        ∃ t, r.turn? index = some t ∧ t.slot.name = k.name) := by
  obtain ⟨index, hindex, hdescriptor⟩ := exists_index_of_kind k
  have hbuild : build settings host roots builtinRegistry = Except.ok m := hm
  have hbuild' : build settings' host' roots builtinRegistry = Except.ok m' := hm'
  obtain ⟨s, hs, hmake⟩ := exists_slot_of_makeSlots (makeSlots_of_build hbuild) hdescriptor
  obtain ⟨s', hs', hmake'⟩ := exists_slot_of_makeSlots (makeSlots_of_build hbuild') hdescriptor
  -- both monitors made the slot from the same data
  have hsame : s' = s := by
    rw [← makeSlot_congr hown hhost] at hmake'
    exact Except.ok.inj (hmake'.symm.trans hmake)
  rw [hsame] at hs'
  have hshown := shown_of_alike hs hs' (asksOnly_of_makeSlot hmake) hhistory
  have hname : s.name = k.name := (created_of_makeSlot hmake).1
  refine ⟨index, s, hindex, hname, hs, hs', ?_, fun r hr => ⟨r.outcome_builtin, ?_⟩⟩
  rotate_left
  · -- no round changes the name of a slot
    have hfound : ∃ u, r.monitor.slots[index]? = some u ∧ u.fixed = s.fixed := by
      rcases List.mem_append.mp hr with hr | hr
      · exact slot_of_mem_rounds hs hr
      · exact slot_of_mem_rounds hs' hr
    obtain ⟨u, hu, hfixed⟩ := hfound
    obtain ⟨t, ht, hslot⟩ := Round.exists_turn? hu
    refine ⟨t, ht, ?_⟩
    rw [hslot, show u.name = s.name from congrArg Prod.fst hfixed, hname]
  -- the status of a slot is told from the slot
  let tell : List Metric × Option (Slot Builtin) → List Metric × Option SlotStatus := fun x =>
    (x.1, x.2.map fun s => ⟨s.name, s.enabled, s.refresh, s.lastRefresh⟩)
  have htell : ∀ r : Round Builtin,
      tell (r.shown index) = (r.segment index, r.after.status[index]?) := by
    intro r
    rw [status, List.getElem?_map]
    rfl
  have hmap := congrArg (List.map tell) hshown
  rw [List.map_map, List.map_map] at hmap
  simpa only [Function.comp_def, htell] using hmap

/-- One monitor paces a storage that its host does not have; the other one has it, and switches its
processor off. In the second round the interface cannot be read. -/
theorem isolation_ofWire :
    let settings : Ini :=
      ⟨[⟨"module.storage", "refresh_ms", "7"⟩, ⟨"module.network", "refresh_ms", "1000"⟩]⟩
    let settings' : Ini :=
      ⟨[⟨"module.cpu", "enabled", "off"⟩, ⟨"module.network", "refresh_ms", "1000"⟩]⟩
    let mounted : HostView := { HostView.wired with usage := fun _ => .ok ⟨1000, 400, 300⟩ }
    let history : List TwinMoment :=
      [⟨5, .wired, mounted⟩,
       ⟨2000, .failing .noEntry, { mounted with read := fun _ => .error .noEntry }⟩,
       ⟨2500, .wired, mounted⟩]
    let sources := Builtin.Kind.network.sources ⟨"network", settings, .wired, .standard⟩
    ∃ m m' : Monitor Builtin, ofSettings settings .wired .standard = .ok m ∧
      ofSettings settings' mounted .standard = .ok m' ∧ m.enabledCount = 1 ∧ m'.enabledCount = 2 ∧
      (∀ key, settings.get? "module.network" key = settings'.get? "module.network" key) ∧
      (∀ q ∈ sources, HostView.wired.Alike mounted q) ∧
      (∀ t ∈ history, ∀ q ∈ sources, t.host.Alike t.other q) ∧
      ∃ index : Nat, (m.rounds (history.map TwinMoment.first)).map
          (fun r => (r.segment index, r.after.status[index]?)) =
        (m'.rounds (history.map TwinMoment.second)).map
          (fun r => (r.segment index, r.after.status[index]?)) := by
  intro settings settings' mounted history sources
  have hown : ∀ key, settings.get? "module.network" key = settings'.get? "module.network" key :=
    fun _ => rfl
  have halike : ∀ q ∈ sources, HostView.wired.Alike mounted q := by
    intro q hq
    rw [List.mem_singleton.mp hq]
    rfl
  have hhistory : ∀ t ∈ history, ∀ q ∈ sources, t.host.Alike t.other q := by
    intro t ht q hq
    rw [List.mem_singleton.mp hq]
    simp only [history, List.mem_cons, List.not_mem_nil, or_false] at ht
    rcases ht with rfl | rfl | rfl <;> rfl
  obtain ⟨index, _, _, _, _, _, hshown, _⟩ :=
    isolation .network (rfl : ofSettings settings .wired .standard = .ok _)
      (rfl : ofSettings settings' mounted .standard = .ok _) hown halike history hhistory
  exact ⟨_, _, rfl, rfl, rfl, rfl, hown, halike, hhistory, index, hshown⟩

end Monitor

end HostMeter
