import HostMeter.Proofs.Monitor.Keeping
import HostMeter.Proofs.Monitor.Names
import HostMeter.Proofs.Probe.OneLine
/-!
# One line — what a round repeats

The line of a round is put together of what its slots repeat. Over a run, a slot keeps to texts of one
line if its probe was created with such texts; only a battery may be told of in several lines, by its
path, which its faults name, and by its state.

* `Builtin.PlainOrBattery`, `Builtin.PlainFrom`: what refreshes keep of the probes, the second one if the
  battery is told of in one line.
* `BatteryProbe.ToldInLine`: a host that tells of the followed battery in one line.
* `Monitor.oneLine_iff_of_mem_rounds`, `Monitor.oneLine_of_mem_rounds`: when a round is one line.
-/

namespace HostMeter

/-! ## Probes

Four of the five kinds repeat texts from the configuration and the names that stand before colons; none of
these can break a line. The battery repeats a whole file. -/

/-- May this metric be of several lines: is it the state of a battery, or the mark of its faults? -/
def Metric.OfBattery (x : Metric) : Prop := x.name = "battery.status" ∨ x.name = "module.battery.error"

/-- What is told of a battery is of one line if its text is. -/
theorem Metric.oneLine_of_ofBattery {x : Metric} (h : x.OfBattery) (hunit : x.unit = none)
    (htext : ∀ v, x.value = .text v → HostMeter.OneLine v) : x.OneLine where
  name := by
    rcases h with h | h
    · rw [h]
      decide
    · rw [h]
      decide
  unit u hu := by
    rw [hunit] at hu
    cases hu
  text := htext

/-- The kinds are named in one line. -/
theorem Builtin.oneLine_name (p : Builtin) : OneLine (LaidOut.name p) := by
  have hkinds : ∀ k ∈ Kind.all, OneLine k.name := by decide
  cases p with
  | cpu p => exact hkinds .cpu (Kind.mem_all _)
  | ram p => exact hkinds .ram (Kind.mem_all _)
  | battery p => exact hkinds .battery (Kind.mem_all _)
  | network p => exact hkinds .network (Kind.mem_all _)
  | storage p => exact hkinds .storage (Kind.mem_all _)

theorem oneLine_errorMetric {name : String} {f : Fault} (hname : OneLine name)
    (hmessage : OneLine f.message) : (errorMetric name f).OneLine :=
  Metric.oneLine_of_text ((OneLine.append (by decide) hname).append (by decide)) hmessage

namespace Builtin

/-- A probe that repeats texts of one line, or a battery. -/
def PlainOrBattery (p : Builtin) : Prop := Lined.Plain p ∨ ∃ b, p = .battery b

/-- A refresh brings no other texts into a probe, unless it is a battery. -/
theorem plainOrBattery_of_refresh {p q : Builtin} {now : UInt64} {host : HostView}
    (hp : p.PlainOrBattery) (h : Sampler.refresh p now host = .ok q) : q.PlainOrBattery := by
  rcases hp with hp | ⟨b, rfl⟩
  · cases p with
    | battery b =>
      obtain ⟨b', _, rfl⟩ := exists_of_map_ok h
      exact Or.inr ⟨b', rfl⟩
    -- the other kinds take nothing over from the host
    | cpu p => exact Or.inl (Lined.plain_of_refresh hp trivial h)
    | ram p => exact Or.inl (Lined.plain_of_refresh hp trivial h)
    | network p => exact Or.inl (Lined.plain_of_refresh hp trivial h)
    | storage p => exact Or.inl (Lined.plain_of_refresh hp trivial h)
  · obtain ⟨b', _, rfl⟩ := exists_of_map_ok h
    exact Or.inr ⟨b', rfl⟩

/-- A battery was a battery before its refresh, and keeps where its state is read. -/
theorem exists_battery_of_refresh {p : Builtin} {b : BatteryProbe} {now : UInt64} {host : HostView}
    (h : Sampler.refresh p now host = .ok (.battery b)) :
    ∃ b', p = .battery b' ∧ b.statusSource = b'.statusSource := by
  cases p with
  | battery b' =>
    obtain ⟨_, hb, hsame⟩ := exists_of_map_ok h
    cases hsame
    obtain ⟨_, _, _, _, rfl⟩ := BatteryProbe.exists_of_refresh hb
    exact ⟨b', rfl, rfl⟩
  | _ => obtain ⟨_, _, hsame⟩ := exists_of_map_ok h; cases hsame

/-- A battery is created from the one that is chosen among those of the host. -/
theorem Kind.exists_chosen_of_create {k : Kind} {c : Context} {b : BatteryProbe}
    (h : k.create c = .ok (.battery b)) :
    ∃ battery, BatteryProbe.choose? c.host (c.sysPath "class/power_supply") = some battery ∧
      b.statusSource = battery.join "status" := by
  cases k with
  | battery =>
    obtain ⟨_, hb, hsame⟩ := exists_of_map_ok h
    cases hsame
    obtain ⟨battery, hchoose, rfl⟩ := BatteryProbe.eq_of_create hb
    exact ⟨battery, hchoose, rfl⟩
  | _ => obtain ⟨_, _, hsame⟩ := exists_of_map_ok h; cases hsame

end Builtin

/-- The battery that a monitor follows below the standard roots, if it was built on this host. -/
def BatteryProbe.followed? (start : HostView) : Option Path :=
  choose? start ⟨"/sys/class/power_supply"⟩

/-- A host that tells of the followed battery in one line: the path of the battery is one, and so is the
state that the host tells. -/
def BatteryProbe.ToldInLine (start host : HostView) : Prop :=
  ∀ battery, followed? start = some battery → OneLine battery.text ∧
    OneLine (BatterySample.statusOf (host.read (battery.join "status")).toOption)

/-- A probe that repeats texts of one line; if it is a battery, it is the followed one. -/
structure Builtin.PlainFrom (start : HostView) (p : Builtin) : Prop where
  plain : Lined.Plain p
  followed : ∀ b, p = .battery b →
    ∃ battery, BatteryProbe.followed? start = some battery ∧ b.statusSource = battery.join "status"

/-- A refresh of the followed battery keeps it plain, on a host that tells of it in one line. -/
theorem Builtin.PlainFrom.refresh {start : HostView} {p q : Builtin} {now : UInt64}
    {host : HostView} (hhost : BatteryProbe.ToldInLine start host) (hp : p.PlainFrom start)
    (h : Sampler.refresh p now host = .ok q) : q.PlainFrom start where
  plain := by
    refine Lined.plain_of_refresh hp.plain ?_ h
    cases p with
    | battery b =>
      obtain ⟨battery, hbattery, hsource⟩ := hp.followed b rfl
      show OneLine (BatterySample.statusOf (host.read b.statusSource).toOption)
      rw [hsource]
      exact (hhost battery hbattery).2
    | _ => exact trivial
  followed := by
    rintro b rfl
    obtain ⟨b', rfl, hsource⟩ := exists_battery_of_refresh h
    rw [hsource]
    exact hp.followed b' rfl

/-! ## Runs

What the slots start with depends on the values of the configuration, and on the path of the battery that is
chosen then. -/

namespace Monitor

variable {ini : Ini} {host : HostView} {m : Monitor Builtin} {ts : List Moment} {r : Round Builtin}

theorem oneLine_proc : OneLine Roots.standard.proc := by decide

/-- Below the standard roots the probe of a battery follows the battery that is chosen there. -/
theorem choose?_standard (name : String) :
    BatteryProbe.choose? host ((Context.mk name ini host .standard).sysPath "class/power_supply") =
      BatteryProbe.followed? host := by
  have hpath : (Path.mk "/sys").join "class/power_supply" = ⟨"/sys/class/power_supply"⟩ := by decide
  rw [Context.sysPath, BatteryProbe.followed?, ← hpath]
  rfl

/-- The probe of a slot is of the kind that the slot is named for, and was created for it. -/
theorem exists_kind_of_ofSettings {roots : Roots} (hm : ofSettings ini host roots = .ok m)
    {s : Slot Builtin} (hs : s ∈ m.slots) {p : Builtin} (hp : s.probe = some p) :
    ∃ k : Builtin.Kind, k.create ⟨k.name, ini, host, roots⟩ = .ok p := by
  obtain ⟨d, hd, hmake⟩ := exists_descriptor_of_makeSlots (makeSlots_of_ofSettings hm) hs
  obtain ⟨k, _, rfl⟩ := List.mem_map.mp hd
  exact ⟨k, (created_of_makeSlot hmake).2.2 p hp⟩

/-- The slots of a monitor start with probes that repeat texts of one line, if the values of the
configuration are of one line. -/
theorem plainOrBattery_of_ofSettings (hini : ∀ a ∈ ini.assignments, OneLine a.value)
    (hm : ofSettings ini host .standard = .ok m) :
    ∀ s ∈ m.slots, s.Keeps Builtin.PlainOrBattery := by
  intro s hs
  refine ⟨(built_of_ofSettings hm).inStep [] s hs, fun p hp => ?_⟩
  obtain ⟨k, hk⟩ := exists_kind_of_ofSettings hm hs hp
  by_cases hbattery : k = .battery
  · subst hbattery
    obtain ⟨b, _, rfl⟩ := exists_of_map_ok hk
    exact Or.inr ⟨b, rfl⟩
  · exact Or.inl (Builtin.Kind.plain_of_create hk oneLine_proc hini fun h => absurd h hbattery)

/-- The slots keep to texts of one line, those of a battery included, if the path of the followed battery is
of one line too. -/
theorem plainFrom_of_ofSettings (hini : ∀ a ∈ ini.assignments, OneLine a.value)
    (hm : ofSettings ini host .standard = .ok m)
    (hbattery : ∀ battery, BatteryProbe.followed? host = some battery → OneLine battery.text) :
    ∀ s ∈ m.slots, s.Keeps (Builtin.PlainFrom host) := by
  intro s hs
  refine ⟨(built_of_ofSettings hm).inStep [] s hs, fun p hp => ?_⟩
  obtain ⟨k, hk⟩ := exists_kind_of_ofSettings hm hs hp
  refine ⟨Builtin.Kind.plain_of_create hk oneLine_proc hini fun _ battery hchoose =>
    hbattery battery ((choose?_standard _).symm.trans hchoose), ?_⟩
  rintro b rfl
  obtain ⟨battery, hchoose, hsource⟩ := Builtin.Kind.exists_chosen_of_create hk
  exact ⟨battery, (choose?_standard _).symm.trans hchoose, hsource⟩

/-! ## Rounds

In a round a metric comes from a probe with a sample, or it is the mark of a fault, worded by the host. -/

/-- The probe of a turn bears the name of its slot. -/
theorem name_of_mem_turns (hm : ofSettings ini host .standard = .ok m) (hr : r ∈ m.rounds ts)
    {t : Turn Builtin} (ht : t ∈ r.turns) {p : Builtin} (hp : t.slot.probe = some p) :
    LaidOut.name p = t.slot.name := by
  obtain ⟨_, _, hfollows⟩ := exists_follows hm hr ht
  obtain ⟨_, _, _, hname⟩ := hfollows.layout p hp
  exact hname

/-- The host of a turn is one of the hosts of the run. -/
theorem worded_of_mem_turns (hts : ∀ u ∈ ts, u.host.Worded) (hr : r ∈ m.rounds ts)
    {t : Turn Builtin} (ht : t ∈ r.turns) : t.host.Worded := by
  rw [(moment_of_mem_turns ht).2]
  exact hts r.moment (moment_mem_of_mem_rounds hr)

/-- Whatever a round tells is of one line, but for what it tells of a battery. -/
theorem oneLine_or_ofBattery (hini : ∀ a ∈ ini.assignments, OneLine a.value)
    (hm : ofSettings ini host .standard = .ok m) (hts : ∀ u ∈ ts, u.host.Worded)
    (hr : r ∈ m.rounds ts) {x : Metric} (hx : x ∈ r.snapshot.metrics) :
    x.OneLine ∨ x.OfBattery ∧ x.unit = none := by
  obtain ⟨t, ht, hx⟩ := List.mem_flatMap.mp hx
  have hrefresh : ∀ u : Turn Builtin, u.RefreshKeeps Builtin.PlainOrBattery :=
    fun _ _ _ => Builtin.plainOrBattery_of_refresh
  have hkeeps : t.slot.Keeps Builtin.PlainOrBattery :=
    kept_of_mem_turns (fun u h => h.after (hrefresh u)) (plainOrBattery_of_ofSettings hini hm) hr ht
  -- what is told comes from a probe with a sample, or it marks a fault
  rcases hkeeps.segment_of_mem (hrefresh t) hx with
    ⟨p, hplain, _, hsegment⟩ | ⟨p, f, hp, hplain, hf, hsegment⟩
  · rw [hsegment] at hx
    rcases hplain with hplain | ⟨b, rfl⟩
    · -- a plain probe: all its metrics are of one line
      exact Or.inl (Lined.oneLine_metrics hplain x hx)
    · exact (BatteryProbe.oneLine_or_status hx).imp_right fun h => ⟨Or.inl h.1, h.2⟩
  · rw [hsegment] at hx
    cases List.mem_singleton.mp hx
    have hname := name_of_mem_turns hm hr ht hp
    rcases hplain with hplain | ⟨b, rfl⟩
    · -- the fault of a plain probe names sources of one line
      refine Or.inl (oneLine_errorMetric (hname ▸ p.oneLine_name) ?_)
      exact Lined.oneLine_of_refresh hplain (worded_of_mem_turns hts hr ht) hf
    · have hmark : errorMetricName BatteryProbe.name = "module.battery.error" := by decide
      rw [← hname]
      exact Or.inr ⟨Or.inr hmark, rfl⟩

/-- **When a round is one line.** The line of a round is broken exactly if the state of the battery is, or
the wording of its fault. -/
theorem oneLine_iff_of_mem_rounds (hini : ∀ a ∈ ini.assignments, OneLine a.value)
    (hm : ofSettings ini host .standard = .ok m) (hts : ∀ u ∈ ts, u.host.Worded)
    (hr : r ∈ m.rounds ts) :
    OneLine r.snapshot.human ↔
      ∀ x ∈ r.snapshot.metrics, x.OfBattery → ∀ v, x.value = .text v → OneLine v := by
  rw [Snapshot.oneLine_human_iff]
  constructor
  · intro h x hx _
    exact (h x hx).text
  · intro h x hx
    rcases oneLine_or_ofBattery hini hm hts hr hx with hline | ⟨hbattery, hunit⟩
    · exact hline
    · exact Metric.oneLine_of_ofBattery hbattery hunit (h x hx hbattery)

/-- **Told in one line, a battery breaks no line.** -/
theorem oneLine_of_mem_rounds (hini : ∀ a ∈ ini.assignments, OneLine a.value)
    (hm : ofSettings ini host .standard = .ok m) (hts : ∀ u ∈ ts, u.host.Worded)
    (htold : ∀ u ∈ ts, BatteryProbe.ToldInLine host u.host) (hr : r ∈ m.rounds ts) :
    OneLine r.snapshot.human := by
  rw [Snapshot.oneLine_human_iff]
  intro x hx
  obtain ⟨t, ht, hx⟩ := List.mem_flatMap.mp hx
  -- the moments of the run are the only ones that are known to tell of the battery in one line
  have hrefresh : ∀ u : Turn Builtin, ⟨u.now, u.host⟩ ∈ ts → u.RefreshKeeps (Builtin.PlainFrom host) :=
    fun u hu _ _ hp => hp.refresh (htold _ hu)
  -- this turn takes place at one of the moments
  have hmoment : ⟨t.now, t.host⟩ ∈ ts := by
    rw [(moment_of_mem_turns ht).1, (moment_of_mem_turns ht).2]
    exact moment_mem_of_mem_rounds hr
  have hstart := plainFrom_of_ofSettings hini hm fun battery hbattery =>
    (htold _ hmoment battery hbattery).1
  have hkeeps : t.slot.Keeps (Builtin.PlainFrom host) :=
    kept_of_mem_turns_at (fun u hu h => h.after (hrefresh u hu)) hstart hr ht
  rcases hkeeps.segment_of_mem (hrefresh t hmoment) hx with
    ⟨p, hp, _, hsegment⟩ | ⟨p, f, hprobe, hp, hf, hsegment⟩
  · rw [hsegment] at hx
    exact Lined.oneLine_metrics hp.plain x hx
  · rw [hsegment] at hx
    cases List.mem_singleton.mp hx
    have hname := name_of_mem_turns hm hr ht hprobe
    refine oneLine_errorMetric (hname ▸ p.oneLine_name) ?_
    exact Lined.oneLine_of_refresh hp.plain (hts _ hmoment) hf

end Monitor

end HostMeter
