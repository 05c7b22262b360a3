import HostMeter.Proofs.Monitor.Isolation
import HostMeter.Proofs.Probe.Layout
import HostMeter.Proofs.Snapshot.Members
import Mathlib.Data.List.Nodup
/-!
# Names — what the metrics of a snapshot are called

A metric belongs to one slot, and its name tells to which. So the slots of a monitor over the built-in
probes never get into each other's way: the names of a snapshot are distinct, those of a slot that does
not take part never occur, and a slot that succeeds emits the layout that its probe was created with.

* `Owns`: the names that are a probe's own; `Owns.unique`: no name belongs to two kinds.
* `Turn.Segment`: the two segments that the turn of a live slot can have.
* `Slot.Follows`: what a run keeps of a slot and its layout.
* `Monitor.names_of_run`: the law.
-/

namespace HostMeter

/-! ## Names and their owners

The owner can be read off a name, by its dots. That no name has two owners is therefore not a comparison of
ten lists of names. -/

/-- Is this a name in the namespace of the probe, or that of the mark of its faults? -/
def Owns (probe name : String) : Prop :=
  (∃ rest, name = probe ++ "." ++ rest) ∨ name = "module." ++ probe ++ ".error"

namespace Builtin.Kind

theorem name_injective {k k' : Kind} (h : k.name = k'.name) : k = k' := by
  cases k <;> cases k' <;> first | rfl | exact absurd h (by decide)

theorem dot_not_mem_name (k : Kind) : '.' ∉ k.name.toList := by
  cases k <;> decide

theorem name_ne_module (k : Kind) : k.name.toList ≠ "module".toList := by
  cases k <;> decide

end Builtin.Kind

theorem cut?_append_dot {space rest : List Char} (h : '.' ∉ space) :
    Text.cut? '.' (space ++ '.' :: rest) = some (space, rest) :=
  Text.cut?_eq_some_iff.mpr ⟨rfl, h⟩

/-- Whose name this is: what stands before the first dot, or behind it if that is the namespace of the
marks. -/
def owner? (name : String) : Option (List Char) :=
  (Text.cut? '.' name.toList).bind fun (space, rest) =>
    if space = "module".toList then (Text.cut? '.' rest).map Prod.fst else some space

/-- The owner of a name that a kind owns is this kind. -/
theorem owner?_of_owns {k : Builtin.Kind} {name : String} (h : Owns k.name name) :
    owner? name = some k.name.toList := by
  rcases h with ⟨rest, rfl⟩ | rfl
  · have hname : (k.name ++ "." ++ rest).toList = k.name.toList ++ '.' :: rest.toList := by simp
    rw [owner?, hname, cut?_append_dot k.dot_not_mem_name, Option.bind_some]
    exact if_neg k.name_ne_module
  · have hname : ("module." ++ k.name ++ ".error").toList =
        "module".toList ++ '.' :: (k.name.toList ++ '.' :: "error".toList) := by simp
    rw [owner?, hname, cut?_append_dot (by decide), Option.bind_some]
    dsimp only
    rw [if_pos rfl, cut?_append_dot k.dot_not_mem_name]
    rfl

/-- **No name belongs to two kinds.** -/
theorem Owns.unique {k k' : Builtin.Kind} {name : String} (h : Owns k.name name)
    (h' : Owns k'.name name) : k = k' := by
  have hsame := (owner?_of_owns h).symm.trans (owner?_of_owns h')
  exact Builtin.Kind.name_injective (String.toList_inj.mp (Option.some.inj hsame))

/-! ## One turn

The segment of a turn is either the layout of the probe or a single mark, and in both cases its names are
the slot's own. -/

/-- What the turn of a live slot in step contributes: the layout of its probe, or its mark. -/
inductive Turn.Segment (t : Turn Builtin) (p : Builtin) : Prop where
  | emitted (hfault : t.fault? = none) (hshape : t.segment.map Metric.shape = LaidOut.layout p)
  | marked (f : Fault) (hfault : t.fault? = some f) (hmark : t.segment = [errorMetric t.slot.name f])

/-- A turn with a probe has a segment of one of the two forms, and leaves a probe of the same layout. -/
theorem Turn.segment_cases {t : Turn Builtin} {p : Builtin} (h : t.slot.InStep)
    (hp : t.slot.probe = some p) :
    t.Segment p ∧ ∃ q, t.after.probe = some q ∧ LaidOut.layout q = LaidOut.layout p ∧
      LaidOut.name q = LaidOut.name p := by
  cases outcome_of_inStep h hp with
  | cached _ hsampled hanswer hafter =>
    obtain ⟨hfault, hsegment⟩ := segment_of_emit hanswer
    refine ⟨.emitted hfault ?_, p, by rw [hafter, hp], rfl, rfl⟩
    rw [hsegment, LaidOut.shape_metrics hsampled]
  | fresh q _ hrefresh hanswer hafter =>
    obtain ⟨hfault, hsegment⟩ := segment_of_emit hanswer
    obtain ⟨hlayout, hname⟩ := LaidOut.refresh_keeps hrefresh
    refine ⟨.emitted hfault ?_, q, by rw [hafter], hlayout, hname⟩
    rw [hsegment, LaidOut.shape_metrics (Sampler.sampled_of_refresh hrefresh), hlayout]
  | failed f _ _ hanswer hafter =>
    exact ⟨.marked f (fault?_of_answer? hanswer) (eq_of_fault hp hanswer).1, p, by rw [hafter, hp],
      rfl, rfl⟩

/-- The names in the segment of a turn are the slot's own, and distinct. -/
theorem Turn.Segment.names {t : Turn Builtin} {p : Builtin} (h : t.Segment p)
    (hname : LaidOut.name p = t.slot.name) :
    (∀ x ∈ t.segment, Owns t.slot.name x.name) ∧ (t.segment.map Metric.name).Nodup := by
  cases h with
  -- the names are those of the layout
  | emitted _ hshape =>
    have hnames : t.segment.map Metric.name = (LaidOut.layout p).map Metric.Shape.name := by
      rw [← hshape, List.map_map]
      rfl
    refine ⟨fun x hx => ?_, by rw [hnames]; exact LaidOut.nodup p⟩
    have hmem : x.shape ∈ LaidOut.layout p := by
      rw [← hshape]
      exact List.mem_map_of_mem hx
    rw [← hname]
    exact Or.inl (LaidOut.prefixed p _ hmem)
  -- the only name is that of the mark
  | marked f _ hmark =>
    rw [hmark]
    refine ⟨fun x hx => ?_, by simp⟩
    rw [List.mem_singleton.mp hx]
    exact Or.inr rfl

/-! ## Runs

The layout of a probe is settled by its creation, and no refresh changes it. This is what every slot keeps,
and it settles the names in all rounds. -/

/-- A kind of probe is left out of a monitor: the configuration decides against it, or its probe cannot be
created on the host. -/
inductive LeftOut (settings : Ini) (host : HostView) (roots : Roots) (k : Builtin.Kind) : Prop where
  | disabled (h : settings.Decides (ProbeSettings.heading k.name) "enabled" true false)
  | unsupported {f : Fault} (h : k.create ⟨k.name, settings, host, roots⟩ = .error f)

/-- What a run keeps of the slot that it started with: its probe, if it has one, is laid out as before
and under the name of the slot. -/
structure Slot.Follows (start s : Slot Builtin) : Prop where
  inStep : s.InStep
  fixed : s.fixed = start.fixed
  layout : ∀ p, s.probe = some p → ∃ p₀, start.probe = some p₀ ∧
    LaidOut.layout p = LaidOut.layout p₀ ∧ LaidOut.name p = s.name

/-- A turn keeps what follows from the start: the probe may be new, but it is laid out as before. -/
theorem Slot.Follows.after {start : Slot Builtin} {t : Turn Builtin} (h : start.Follows t.slot) :
    start.Follows t.after where
  inStep := h.inStep.after
  fixed := t.fixed_after.trans h.fixed
  layout := by
    intro q hq
    have hname : t.after.name = t.slot.name := congrArg Prod.fst t.fixed_after
    cases hp : t.slot.probe with
    | none =>
      rw [Turn.after, Turn.answer?_eq_none hp, hp] at hq
      cases hq
    | some p =>
      obtain ⟨p₀, hp₀, hlayout, hnamed⟩ := h.layout p hp
      obtain ⟨_, q', hq', hkept, hsame⟩ := Turn.segment_cases h.inStep hp
      rw [← Option.some.inj (hq'.symm.trans hq)]
      exact ⟨p₀, hp₀, hkept.trans hlayout, by rw [hsame, hnamed, hname]⟩

namespace Monitor

variable {settings : Ini} {host : HostView} {roots : Roots} {m : Monitor Builtin}

/-- The slots of a monitor over the built-in probes, made from their registry. -/
theorem makeSlots_of_ofSettings (hm : ofSettings settings host roots = .ok m) :
    makeSlots settings host roots builtinRegistry = Except.ok m.slots :=
  makeSlots_of_build hm

/-- The slots are named for the five kinds, in their order. -/
theorem names_of_ofSettings (hm : ofSettings settings host roots = .ok m) :
    m.slots.map Slot.name = Builtin.Kind.all.map Builtin.Kind.name := by
  rw [names_of_makeSlots (makeSlots_of_ofSettings hm), builtinRegistry, List.map_map]
  rfl

/-- A monitor over the built-in probes is one that was built. -/
theorem built_of_ofSettings (hm : ofSettings settings host roots = .ok m) : m.Built := by
  refine ⟨settings, host, roots, Builtin.Kind.all.map fun k => (k, k.name), ?_⟩
  rw [List.map_map]
  exact hm

/-- **Which slots do not take part**: those of the kinds that are left out. -/
theorem enabled_eq_false_iff (hm : ofSettings settings host roots = .ok m) {s : Slot Builtin}
    (hs : s ∈ m.slots) {k : Builtin.Kind} (hk : s.name = k.name) :
    s.enabled = false ↔ LeftOut settings host roots k := by
  obtain ⟨d, hd, hmake⟩ := exists_descriptor_of_makeSlots (makeSlots_of_ofSettings hm) hs
  obtain ⟨k', _, rfl⟩ := List.mem_map.mp hd
  have hname : k'.name = k.name := (created_of_makeSlot hmake).1.symm.trans hk
  obtain rfl : k' = k := Builtin.Kind.name_injective hname
  rw [enabled_eq_false_iff_of_makeSlot hmake]
  constructor
  · rintro (hdisabled | ⟨f, hf⟩)
    · exact .disabled hdisabled
    · exact .unsupported hf
  · rintro (hdisabled | hf)
    · exact Or.inl hdisabled
    · exact Or.inr ⟨_, hf⟩

/-- Every kind has a slot, whether it takes part or not. -/
theorem exists_slot_of_kind (hm : ofSettings settings host roots = .ok m) (k : Builtin.Kind) :
    ∃ s ∈ m.slots, s.name = k.name := by
  have hmem : k.name ∈ m.slots.map Slot.name := by
    rw [names_of_ofSettings hm]
    exact List.mem_map_of_mem (Builtin.Kind.mem_all k)
  exact List.mem_map.mp hmem

/-- Every slot follows from itself at the start. -/
theorem follows_of_ofSettings (hm : ofSettings settings host roots = .ok m) {s : Slot Builtin}
    (hs : s ∈ m.slots) : s.Follows s where
  inStep := (built_of_ofSettings hm).inStep [] s hs
  fixed := rfl
  layout := by
    intro p hp
    obtain ⟨d, hd, hmake⟩ := exists_descriptor_of_makeSlots (makeSlots_of_ofSettings hm) hs
    obtain ⟨k, _, rfl⟩ := List.mem_map.mp hd
    obtain ⟨hname, _, hcreated⟩ := created_of_makeSlot hmake
    exact ⟨p, hp, rfl, (Builtin.Kind.name_of_create (hcreated p hp)).trans hname.symm⟩

/-- A name is owned by at most one slot of a monitor. -/
theorem eq_of_owns (hm : ofSettings settings host roots = .ok m) {s s' : Slot Builtin}
    (hs : s ∈ m.slots) (hs' : s' ∈ m.slots) {name : String} (h : Owns s.name name)
    (h' : Owns s'.name name) : s = s' := by
  have hnames := names_of_ofSettings hm
  have hkind : ∀ u ∈ m.slots, ∃ k : Builtin.Kind, u.name = k.name := by
    intro u hu
    have hmem : u.name ∈ m.slots.map Slot.name := List.mem_map_of_mem hu
    rw [hnames] at hmem
    obtain ⟨k, _, hk⟩ := List.mem_map.mp hmem
    exact ⟨k, hk.symm⟩
  obtain ⟨k, hk⟩ := hkind s hs
  obtain ⟨k', hk'⟩ := hkind s' hs'
  -- both slots are named for the kind that owns the name
  have hsame : s.name = s'.name := by
    rw [hk] at h ⊢
    rw [hk'] at h' ⊢
    rw [h.unique h']
  have hnodup : (m.slots.map Slot.name).Nodup := by rw [hnames]; decide
  exact List.inj_on_of_nodup_map hnodup hs hs' hsame

/-- The slot of every turn follows from one of the slots that the monitor started with. -/
theorem exists_follows (hm : ofSettings settings host roots = .ok m) {ts : List Moment}
    {r : Round Builtin} (hr : r ∈ m.rounds ts) {t : Turn Builtin} (ht : t ∈ r.turns) :
    ∃ start ∈ m.slots, start.Follows t.slot := by
  obtain ⟨index, hindex⟩ := List.mem_iff_getElem?.mp ht
  have hslot := Round.slot_of_turn? hindex
  have hlt : index < m.slots.length := by
    have hlength := congrArg List.length (fixed_of_mem_rounds hr)
    rw [List.length_map, List.length_map] at hlength
    rw [← hlength]
    exact (List.getElem?_eq_some_iff.mp hslot).1
  have hstart : m.slots[index]? = some m.slots[index] := List.getElem?_eq_getElem hlt
  obtain ⟨s, hs, hfollows⟩ := exists_kept_of_mem_rounds (P := m.slots[index].Follows)
    (fun _ h => h.after) hstart (follows_of_ofSettings hm (List.getElem_mem hlt)) hr
  rw [Option.some.inj (hs.symm.trans hslot)] at hfollows
  exact ⟨m.slots[index], List.getElem_mem hlt, hfollows⟩

/-- The segment of a turn: that of a live slot has one of the two forms, under the slot's own names; a
slot that does not take part contributes nothing. -/
theorem segment_of_mem_turns (hm : ofSettings settings host roots = .ok m) {ts : List Moment}
    {r : Round Builtin} (hr : r ∈ m.rounds ts) {t : Turn Builtin} (ht : t ∈ r.turns) :
    (t.segment.map Metric.name).Nodup ∧
      ∀ x ∈ t.segment, t.slot.enabled = true ∧ Owns t.slot.name x.name := by
  obtain ⟨start, _, hfollows⟩ := exists_follows hm hr ht
  cases hp : t.slot.probe with
  | none =>
    rw [Turn.segment_of_no_probe hp]
    exact ⟨List.nodup_nil, fun x hx => absurd hx List.not_mem_nil⟩
  | some p =>
    obtain ⟨_, _, _, hname⟩ := hfollows.layout p hp
    obtain ⟨howns, hnodup⟩ := (Turn.segment_cases hfollows.inStep hp).1.names hname
    exact ⟨hnodup, fun x hx => ⟨Option.isSome_iff_exists.mpr ⟨p, hp⟩, howns x hx⟩⟩

/-- In every round all five slots have their turns, in the order of the registry. -/
theorem slotNames_of_mem_rounds (hm : ofSettings settings host roots = .ok m) {ts : List Moment}
    {r : Round Builtin} (hr : r ∈ m.rounds ts) :
    r.turns.map (fun t => t.slot.name) = Builtin.Kind.all.map Builtin.Kind.name := by
  have hall : r.turns.map Turn.slot = r.monitor.slots := by
    have horder := slots_eq_turns r.moment.now r.moment.host r.monitor.slots .empty
    rw [length_turns fun t _ => t.ends_builtin, List.drop_length, List.append_nil] at horder
    exact horder.symm
  have hfixed := congrArg (List.map Prod.fst) (fixed_of_mem_rounds hr)
  rw [List.map_map, List.map_map] at hfixed
  calc r.turns.map (fun t => t.slot.name) = (r.turns.map Turn.slot).map Slot.name := by
        rw [List.map_map]; rfl
    _ = r.monitor.slots.map Slot.name := by rw [hall]
    _ = m.slots.map Slot.name := hfixed
    _ = Builtin.Kind.all.map Builtin.Kind.name := names_of_ofSettings hm

/-- The names in a snapshot are distinct: within a segment by its layout, and across two segments since
they belong to different kinds. -/
theorem nodup_names_of_mem_rounds (hm : ofSettings settings host roots = .ok m) {ts : List Moment}
    {r : Round Builtin} (hr : r ∈ m.rounds ts) :
    ((r.turns.flatMap Turn.segment).map Metric.name).Nodup := by
  have hnames := slotNames_of_mem_rounds hm hr
  have hdistinct : r.turns.Pairwise fun t u => t.slot.name ≠ u.slot.name := by
    have hnodup : (r.turns.map fun t => t.slot.name).Nodup := by rw [hnames]; decide
    exact List.pairwise_map.mp hnodup
  rw [List.map_flatMap, List.Nodup, List.pairwise_flatMap]
  refine ⟨fun t ht => (segment_of_mem_turns hm hr ht).1, hdistinct.imp_of_mem ?_⟩
  intro t u ht hu hne name hname name' hname' hsame
  obtain ⟨x, hx, rfl⟩ := List.mem_map.mp hname
  obtain ⟨y, hy, rfl⟩ := List.mem_map.mp hname'
  -- two metrics of one name would have owners of two names
  obtain ⟨s, hs, hfollows⟩ := exists_follows hm hr ht
  obtain ⟨s', hs', hfollows'⟩ := exists_follows hm hr hu
  have hslot : t.slot.name = s.name := congrArg Prod.fst hfollows.fixed
  have hslot' : u.slot.name = s'.name := congrArg Prod.fst hfollows'.fixed
  have howns := ((segment_of_mem_turns hm hr ht).2 x hx).2
  have howns' := ((segment_of_mem_turns hm hr hu).2 y hy).2
  rw [hslot, hsame] at howns
  rw [hslot'] at howns'
  exact hne (by rw [hslot, hslot', eq_of_owns hm hs hs' howns howns'])

/-- Wherever a live slot succeeds, its segment has the layout of the probe that was created for it. -/
theorem shape_of_succeeded (hm : ofSettings settings host roots = .ok m) {ts : List Moment}
    {r : Round Builtin} (hr : r ∈ m.rounds ts) {index : Nat} {s : Slot Builtin} {p : Builtin}
    (hs : m.slots[index]? = some s) (hp : s.probe = some p) :
    ∃ t, r.turn? index = some t ∧
      (t.fault? = none → t.segment.map Metric.shape = LaidOut.layout p) := by
  have hfollows := follows_of_ofSettings hm (List.mem_of_getElem? hs)
  obtain ⟨s', hs', hkept⟩ := exists_kept_of_mem_rounds (P := s.Follows) (fun _ h => h.after) hs
    hfollows hr
  obtain ⟨t, ht, rfl⟩ := Round.exists_turn? hs'
  refine ⟨t, ht, fun hfault => ?_⟩
  obtain ⟨q, hq⟩ : ∃ q, t.slot.probe = some q := by
    have henabled : t.slot.enabled = s.enabled := congrArg (fun x => x.2.2) hkept.fixed
    rw [Slot.enabled, Slot.enabled, hp] at henabled
    exact Option.isSome_iff_exists.mp henabled
  obtain ⟨p₀, hp₀, hlayout, _⟩ := hkept.layout q hq
  cases (Turn.segment_cases hkept.inStep hq).1 with
  | emitted _ hshape => rw [hshape, hlayout, Option.some.inj (hp.symm.trans hp₀)]
  -- a mark is left only by a fault
  | marked f hf _ =>
    rw [hf] at hfault
    cases hfault

/-- Every metric of a round has a live slot that owns its name. -/
theorem exists_owner (hm : ofSettings settings host roots = .ok m) {ts : List Moment}
    {r : Round Builtin} (hr : r ∈ m.rounds ts) {x : Metric} (hx : x ∈ r.turns.flatMap Turn.segment) :
    ∃ s ∈ m.slots, s.enabled = true ∧ Owns s.name x.name := by
  obtain ⟨t, ht, hx⟩ := List.mem_flatMap.mp hx
  obtain ⟨start, hstart, hfollows⟩ := exists_follows hm hr ht
  obtain ⟨henabled, howns⟩ := (segment_of_mem_turns hm hr ht).2 x hx
  have hname : t.slot.name = start.name := congrArg Prod.fst hfollows.fixed
  have hsame : t.slot.enabled = start.enabled := congrArg (fun x => x.2.2) hfollows.fixed
  exact ⟨start, hstart, hsame ▸ henabled, hname ▸ howns⟩

/-- **The law of names.** Take a monitor over the built-in probes and any run of it. In every round in
which a live slot succeeds, its segment has the layout of the probe that was created for it. Every name
in a snapshot belongs to a live slot, and none to a slot that does not take part; these are the slots of
the kinds that the configuration decides against, and of those whose probe the host does not support. All
names of a snapshot are distinct, so its object has every metric as a member, in order. -/
theorem names_of_run (hm : ofSettings settings host roots = .ok m) (ts : List Moment) :
    (∀ (index : Nat) (s : Slot Builtin) (p : Builtin), m.slots[index]? = some s → s.probe = some p →
      ∀ r ∈ m.rounds ts, ∃ t, r.turn? index = some t ∧
        (t.fault? = none → t.segment.map Metric.shape = LaidOut.layout p)) ∧
    (∀ r ∈ m.rounds ts, ∃ snapshot, r.outcome = .ok snapshot ∧
      snapshot.metrics = r.turns.flatMap Turn.segment ∧
      (∀ x ∈ snapshot.metrics, ∃ s ∈ m.slots, s.enabled = true ∧ Owns s.name x.name) ∧
      (∀ s ∈ m.slots, s.enabled = false → ∀ x ∈ snapshot.metrics, ¬ Owns s.name x.name) ∧
      (∀ k, LeftOut settings host roots k → ∀ x ∈ snapshot.metrics, ¬ Owns k.name x.name) ∧
      (snapshot.metrics.map Metric.name).Nodup ∧
      snapshot.object = snapshot.metrics.map fun x => (x.name, x.value.json)) := by
  refine ⟨fun index s p hs hp r hr => shape_of_succeeded hm hr hs hp, fun r hr => ?_⟩
  have hnodup := nodup_names_of_mem_rounds hm hr
  have hnone : ∀ s ∈ m.slots, s.enabled = false → ∀ x ∈ r.turns.flatMap Turn.segment, ¬Owns s.name x.name := by
    intro s hs hdisabled x hx howns
    -- the name has an owner that is live, and it has no other
    obtain ⟨s', hs', henabled, howns'⟩ := exists_owner hm hr hx
    have hsame : s' = s := eq_of_owns hm hs' hs howns' howns
    rw [hsame, hdisabled] at henabled
    cases henabled
  refine ⟨_, r.outcome_builtin, rfl, fun x => exists_owner hm hr, hnone, fun k hk => ?_, hnodup,
    Snapshot.object_of_nodup hnodup⟩
  -- a kind that is left out has a slot that does not take part
  obtain ⟨s, hs, hname⟩ := exists_slot_of_kind hm k
  rw [← hname]
  exact hnone s hs ((enabled_eq_false_iff hm hs hname).mpr hk)

/-- A storage that takes part, one interface that vanishes for a round, and three probes that the host
does not support. -/
theorem names_of_run_mounted :
    let mounted : HostView := { HostView.wired with usage := fun _ => .ok ⟨1000, 400, 300⟩ }
    let moments : List Moment := [⟨0, mounted⟩, ⟨1000, .failing .noEntry⟩, ⟨2000, mounted⟩]
    ∃ m : Monitor Builtin, ofSettings .empty mounted .standard = .ok m ∧ m.enabledCount = 2 ∧
      (∀ r ∈ m.rounds moments, ∃ snapshot, r.outcome = .ok snapshot ∧
        ∀ x ∈ snapshot.metrics, ¬ Owns "battery" x.name) ∧
      ∀ r ∈ m.rounds moments, ∃ t, r.turn? 4 = some t ∧ (t.fault? = none →
        (t.segment.map Metric.shape).head? = some ⟨"storage.path", none, .text⟩) := by
  intro mounted moments
  obtain ⟨hlayout, hnames⟩ :=
    names_of_run (rfl : ofSettings .empty mounted .standard = .ok _) moments
  refine ⟨_, rfl, rfl, fun r hr => ?_, fun r hr => ?_⟩
  · obtain ⟨snapshot, hok, _, _, hdisabled, _⟩ := hnames r hr
    have hbattery := hdisabled ⟨"battery", 0, none, none⟩ (List.mem_of_getElem? (i := 2) rfl) rfl
    exact ⟨snapshot, hok, hbattery⟩
  · obtain ⟨t, ht, hshape⟩ := hlayout 4 _ _ rfl rfl r hr
    exact ⟨t, ht, fun hfault => by rw [hshape hfault]; rfl⟩

end Monitor

end HostMeter
