import HostMeter.Proofs.Monitor.Coupling
import Mathlib.Data.List.Induction
/-!
# Caching — rounds without a refresh

Between two refreshes a slot repeats itself. What it puts into the snapshot is what it put there when
it last refreshed, although the two come about in different ways: then the sample was new and was
emitted by the round that took it, now it is read back from the state of the probe.

* `Round.outcome_builtin`: a round over built-in probes always gives a snapshot, `Round.snapshot`.
* `Monitor.rounds_remember`: over a run, a slot stays as it was or holds what its last refresh
  emitted.
* `Monitor.cached_segment`: the law.
-/

namespace HostMeter

/-! ## Built-in probes never end a round

The five probes report faults that leave the round going. So over them every round reaches all its slots,
and there is always a snapshot. -/

/-- No turn of a built-in probe ends its round: the faults that it has are not fatal. -/
theorem Turn.ends_builtin (t : Turn Builtin) : t.ends = false := by
  rw [Bool.eq_false_iff]
  intro hends
  obtain ⟨f, hf, hfatal⟩ := t.ends_iff.mp hends
  cases hp : t.slot.probe with
  -- a slot without a probe has no answer and no fault
  | none =>
    rw [Turn.fault?, Turn.answer?_eq_none hp] at hf
    cases hf
  -- a fault is that of a refresh, and those of the probes are not fatal
  | some p =>
    rw [Turn.fault?_of_answer? (Turn.answer?_eq_some hp)] at hf
    rw [Sampler.isFatal_of_poll hf] at hfatal
    cases hfatal

namespace Round

/-- A round over built-in probes has a snapshot, of the segments of all its turns. -/
theorem outcome_builtin (r : Round Builtin) : r.outcome = .ok ⟨r.turns.flatMap Turn.segment⟩ :=
  outcome_of_not_ends fun t _ => t.ends_builtin

/-- The snapshot of a round over built-in probes. -/
def snapshot (r : Round Builtin) : Snapshot := ⟨r.turns.flatMap Turn.segment⟩

/-- In a round over built-in probes every slot has its turn. -/
theorem exists_turn? {r : Round Builtin} {index : Nat} {s : Slot Builtin}
    (hs : r.monitor.slots[index]? = some s) : ∃ t, r.turn? index = some t ∧ t.slot = s := by
  have hlt : index < r.turns.length := by
    rw [turns, length_turns fun t _ => t.ends_builtin]
    exact (List.getElem?_eq_some_iff.mp hs).1
  have ht : r.turn? index = some r.turns[index] := List.getElem?_eq_getElem hlt
  exact ⟨r.turns[index], ht, slot_eq_of_turn? ht hs⟩

end Round

theorem Monitor.poll_builtin (m : Monitor Builtin) (t : Moment) :
    m.poll t.now t.host = ((Round.mk m t).after, .ok (Round.mk m t).snapshot) :=
  Prod.ext rfl (Round.mk m t).outcome_builtin

/-! ## One turn

The three ways in which the turn of a slot in step can go are known from the coupling of time and sample.
Two of them leave the slot as it is; in the third, what is emitted is what the probe then holds. -/

/-- A probe that only emits has no fault, and its segment is the metrics that it holds. -/
theorem Turn.segment_of_emit {t : Turn Builtin} {p : Builtin}
    (h : t.answer? = some (Sampler.emit p t.builder)) :
    t.fault? = none ∧ t.segment = Sampler.metrics p := by
  have hfault : t.fault? = none := by
    rw [Turn.fault?_of_answer? h, Sampler.emit_eq]
  refine ⟨hfault, ?_⟩
  rw [Turn.segment, hfault]
  show t.emitted = _
  rw [Turn.emitted, h]
  show (Sampler.emit p t.builder).builder.items.toList.drop t.builder.size = _
  rw [Sampler.toList_emit, Builder.size, ← Array.length_toList, List.drop_left]

/-- What a round makes of a slot in step: it leaves it alone, or the slot refreshes, and the metrics
that its probe then holds are its segment. -/
theorem Round.remembers {r : Round Builtin} {index : Nat} {s : Slot Builtin} {p : Builtin}
    (hs : r.monitor.slots[index]? = some s) (hstep : s.InStep) (hp : s.probe = some p) :
    (r.refreshed index = false ∧ r.after.slots[index]? = some s) ∨
    (r.refreshed index = true ∧ ∃ s' q, r.after.slots[index]? = some s' ∧ s'.probe = some q ∧
      r.segment index = Sampler.metrics q) := by
  obtain ⟨t, ht, rfl⟩ := Round.exists_turn? hs
  have href := Round.refreshed_of_turn? ht
  have hafter := Round.after_of_turn? ht
  cases Turn.outcome_of_inStep hstep hp with
  -- not due: the slot stays, and there was no refresh
  | cached hdue _ _ hsame =>
    refine Or.inl ⟨?_, hafter.trans (congrArg some hsame)⟩
    rw [href, Turn.refreshed, hdue]
    rfl
  -- due, and the refresh failed: the slot stays as well
  | failed f _ _ hanswer hsame =>
    refine Or.inl ⟨?_, hafter.trans (congrArg some hsame)⟩
    rw [href, Turn.refreshed, Turn.succeeded, hanswer]
    exact Bool.and_false _
  -- due, and the refresh succeeded: the probe emits its new sample
  | fresh q hdue _ hanswer hnew =>
    refine Or.inr ⟨?_, t.after, q, hafter, by rw [hnew], ?_⟩
    · rw [href, Turn.refreshed, Turn.succeeded, hdue, hanswer, Sampler.emit_eq]
      rfl
    · rw [Round.segment, ht]
      exact (Turn.segment_of_emit hanswer).2

/-! ## Runs

What holds between two refreshes is put together from single rounds, by adding rounds at the end of the run.
-/

namespace Monitor

/-- **What a slot remembers of a run.** Either it has not refreshed and is as it was, or its probe
holds exactly the metrics of its segment in the last round in which it refreshed. The induction adds a
round at the end of the run: if the slot refreshes in it, this is the last refresh, and if not, failed
or not, the round does not touch the slot. -/
theorem rounds_remember {m : Monitor Builtin} (hstep : ∀ s ∈ m.slots, s.InStep) (ts : List Moment)
    {index : Nat} {s : Slot Builtin} {p : Builtin} (hs : m.slots[index]? = some s)
    (hp : s.probe = some p) :
    ((∀ r ∈ m.rounds ts, r.refreshed index = false) ∧ (m.after ts).slots[index]? = some s) ∨
    (∃ earlier r later s' q, m.rounds ts = earlier ++ r :: later ∧ r.refreshed index = true ∧
      (∀ u ∈ later, u.refreshed index = false) ∧ (m.after ts).slots[index]? = some s' ∧
      s'.probe = some q ∧ r.segment index = Sampler.metrics q) := by
  induction ts using List.reverseRecOn with
  | nil => exact Or.inl ⟨fun r hr => absurd hr List.not_mem_nil, hs⟩
  | append_singleton ts t ih =>
    have hfound : ∀ u ∈ (m.after ts).slots, u.InStep := run_preserves (fun _ h => h.after) m ts hstep
    have hrounds : m.rounds (ts ++ [t]) = m.rounds ts ++ [⟨m.after ts, t⟩] := m.rounds_append ts [t]
    have hafter : m.after (ts ++ [t]) = (Round.mk (m.after ts) t).after := m.after_append ts [t]
    rw [hrounds, hafter]
    obtain ⟨u, q, hu, hq⟩ : ∃ u q, (m.after ts).slots[index]? = some u ∧ u.probe = some q := by
      rcases ih with ⟨_, hsame⟩ | ⟨_, _, _, u, q, _, _, _, hu, hq, _⟩
      · exact ⟨s, p, hsame, hp⟩
      · exact ⟨u, q, hu, hq⟩
    rcases Round.remembers (r := ⟨m.after ts, t⟩) hu (hfound u (List.mem_of_getElem? hu)) hq with
      ⟨hnot, hkept⟩ | ⟨hlast, s', q', hs', hq', hsegment⟩
    · -- the last round leaves the slot as it finds it, so what was remembered before it stands
      have hbehind : ∀ {rs : List (Round Builtin)}, (∀ v ∈ rs, v.refreshed index = false) →
          ∀ v ∈ rs ++ [⟨m.after ts, t⟩], v.refreshed index = false := by
        intro rs hrs v hv
        rcases List.mem_append.mp hv with hv | hv
        · exact hrs v hv
        · rw [List.mem_singleton.mp hv]
          exact hnot
      rcases ih with ⟨hnone, hsame⟩ | ⟨earlier, r, later, v, q', heq, href, hlater, hv, hrest⟩
      · exact Or.inl ⟨hbehind hnone, hkept.trans (hu.symm.trans hsame)⟩
      · refine Or.inr ⟨earlier, r, later ++ [_], v, q', ?_, href, hbehind hlater,
          hkept.trans (hu.symm.trans hv), hrest⟩
        rw [heq, List.append_assoc]
        rfl
    · -- the last round is the last refresh, whatever was remembered before it
      exact Or.inr ⟨m.rounds ts, _, [], s', q', rfl, hlast, fun _ h => absurd h List.not_mem_nil, hs',
        hq', hsegment⟩

/-- A slot with a probe after a run had one before it. -/
theorem exists_live_of_after {m : Monitor Builtin} {ts : List Moment} {index : Nat}
    {s : Slot Builtin} {p : Builtin} (hs : (m.after ts).slots[index]? = some s)
    (hp : s.probe = some p) : ∃ s₀ p₀, m.slots[index]? = some s₀ ∧ s₀.probe = some p₀ := by
  have hmap : (m.slots.map Slot.fixed)[index]? = some s.fixed := by
    rw [← m.fixed_after ts, List.getElem?_map, hs]
    rfl
  rw [List.getElem?_map, Option.map_eq_some_iff] at hmap
  obtain ⟨s₀, hs₀, hfixed⟩ := hmap
  have hlive : s₀.enabled = true := by
    rw [show s₀.enabled = s.enabled from congrArg (fun x => x.2.2) hfixed, Slot.enabled, hp]
    rfl
  obtain ⟨p₀, hp₀⟩ := Option.isSome_iff_exists.mp hlive
  exact ⟨s₀, p₀, hs₀, hp₀⟩

/-- **A slot that need not refresh repeats itself.** There is a last round in which it refreshed. At
any time at which no refresh is due and on any host, its turn cannot fail, changes nothing about the
slot, and puts the same segment into the snapshot as it did in that round. -/
theorem cached_segment {m : Monitor Builtin} (hm : m.Built) (ts : List Moment) {index : Nat}
    {s : Slot Builtin} {p : Builtin} (hs : (m.after ts).slots[index]? = some s)
    (hp : s.probe = some p) {now : UInt64} (hdue : s.due now = false) :
    ∃ earlier r later, m.rounds ts = earlier ++ r :: later ∧ r.refreshed index = true ∧
      (∀ u ∈ later, u.refreshed index = false) ∧
      r.outcome = .ok ⟨r.turns.flatMap Turn.segment⟩ ∧
      ∀ (time : UInt64) (host : HostView), s.due time = false →
        let cached : Round Builtin := ⟨m.after ts, ⟨time, host⟩⟩
        cached.outcome = .ok ⟨cached.turns.flatMap Turn.segment⟩ ∧
        (∃ t, cached.turn? index = some t ∧ t.fault? = none) ∧
        cached.after.slots[index]? = some s ∧
        cached.segment index = r.segment index := by
  have hstep := hm.inStep ts s (List.mem_of_getElem? hs)
  obtain ⟨s₀, p₀, hs₀, hp₀⟩ := exists_live_of_after hs hp
  rcases rounds_remember (hm.inStep []) ts hs₀ hp₀ with
    ⟨_, hsame⟩ | ⟨earlier, r, later, s', q, heq, href, hlater, hs', hq, hsegment⟩
  · -- a slot that has never refreshed has no time on record, so it would have to refresh
    obtain ⟨last, hlast⟩ := Slot.lastRefresh_of_not_due hdue
    have hnone := (hm.starts (List.mem_of_getElem? hs₀)).1
    rw [Option.some.inj (hs.symm.trans hsame), hnone] at hlast
    cases hlast
  · -- the slot still holds what it put into the snapshot when it last refreshed
    have hqp : q = p := by
      rw [Option.some.inj (hs.symm.trans hs')] at hp
      exact Option.some.inj (hq.symm.trans hp)
    refine ⟨earlier, r, later, heq, href, hlater, r.outcome_builtin, fun time host htime => ?_⟩
    intro cached
    refine ⟨cached.outcome_builtin, ?_⟩
    obtain ⟨t, ht, hslot⟩ := Round.exists_turn? (r := cached) hs
    have hnow : t.now = time := (Round.moment_of_turn? ht).1
    have hafter := Round.after_of_turn? ht
    rw [← hslot] at hstep hp htime
    rw [← hnow] at htime
    cases Turn.outcome_of_inStep hstep hp with
    -- the turn emits this once more, on whatever host
    | cached _ _ hanswer hsame =>
      obtain ⟨hfault, hemitted⟩ := Turn.segment_of_emit hanswer
      refine ⟨⟨t, ht, hfault⟩, by rw [hafter, hsame, hslot], ?_⟩
      rw [hsegment, hqp, ← hemitted, Round.segment, ht]
      rfl
    -- the other two ways are those of a slot that is due
    | fresh q hdue' =>
      rw [htime] at hdue'
      cases hdue'
    | failed f hdue' =>
      rw [htime] at hdue'
      cases hdue'

/-- The clock goes back after a refresh that failed; the segment is still that of the first round. -/
theorem cached_segment_ofWire :
    let moments : List Moment := [⟨7, .wired⟩, ⟨2000, .failing .noEntry⟩]
    let cached : Round Builtin := ⟨ofWire.after moments, ⟨900, .failing .notText⟩⟩
    ∃ s, ofWire.Built ∧ (ofWire.after moments).slots[0]? = some s ∧ s.enabled = true ∧
      s.due 900 = false ∧ cached.after.slots[0]? = some s ∧
      ∃ earlier r later, ofWire.rounds moments = earlier ++ r :: later ∧
        r.refreshed 0 = true ∧ cached.segment 0 = r.segment 0 := by
  intro moments cached
  let q : NetworkProbe := ⟨⟨"/proc/net/dev"⟩, "eth0", some ⟨700, 300, 7⟩, .zero⟩
  let s : Slot Builtin := ⟨"uplink", 1000, some (.network q), some 7⟩
  have hs : (ofWire.after moments).slots[0]? = some s := rfl
  have hdue : s.due 900 = false := by decide
  obtain ⟨earlier, r, later, heq, href, _, _, hcached⟩ :=
    cached_segment built_ofWire moments hs rfl hdue
  obtain ⟨_, _, hafter, hsegment⟩ := hcached 900 (.failing .notText) hdue
  exact ⟨s, built_ofWire, hs, rfl, hdue, hafter, earlier, r, later, heq, href, hsegment⟩

end Monitor

end HostMeter
