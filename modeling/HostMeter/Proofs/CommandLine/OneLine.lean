import HostMeter.Proofs.CommandLine.Rounds
import HostMeter.Proofs.Monitor.OneLine
/-!
# One line — a round is a line of the output

A session ends the text of every round with a line feed. As long as no round has a line feed of its own,
the lines of the output are the rounds; the state of a battery is the one text that can bring one along.

* `Session.exists_rounds`: the rounds of any session are those of a run.
* `Session.one_line_of_round`: the law; `Session.two_lines_of_round`: a state that breaks the line.
-/

namespace HostMeter

/-! ## The rounds of a session

A session has the rounds of a run, until the limit or an interrupt ends it. Its output is made of the
renderings of these rounds, each followed by a line break. -/

namespace Monitor

/-- The snapshots of a run over built-in probes. -/
def snapshots (m : Monitor Builtin) (ts : List Moment) : List Snapshot :=
  (m.rounds ts).map Round.snapshot

theorem length_snapshots (m : Monitor Builtin) (ts : List Moment) :
    (m.snapshots ts).length = ts.length := by
  rw [snapshots, List.length_map, length_rounds]

/-- A run over built-in probes gives a snapshot in every round. -/
theorem outcomes_eq_snapshots (m : Monitor Builtin) (ts : List Moment) :
    (m.run ts).2 = (m.snapshots ts).map .ok := by
  rw [outcomes_run, snapshots, List.map_map]
  exact List.map_congr_left fun r _ => r.outcome_builtin

end Monitor

namespace Session

/-- **The rounds of a session are those of a run**, of as many rounds as there are before it ends. -/
theorem exists_rounds (o : Options) (moments : Nat → Moment) (left number : Nat)
    (m : Monitor Builtin) : ∃ count, rounds o moments left number m =
      ((m.snapshots ((List.range' number count).map moments)).map (render o), none) := by
  -- on the rounds that are left, since a session may end before all of them have run
  induction left generalizing number m with
  | zero => exact ⟨0, rfl⟩
  | succ left ih =>
    rw [rounds, m.poll_builtin]
    dsimp only
    split
    · exact ⟨1, rfl⟩
    · obtain ⟨count, hcount⟩ := ih (number + 1) (Round.mk m (moments number)).after
      exact ⟨count + 1, by rw [hcount]; rfl⟩

section Settings

variable {o : Options} {ini : Ini} {host : HostView} {m : Monitor Builtin}

/-- A session starts with the monitor that its settings lead to. -/
theorem start_of_settings (hsettings : settings o host = .ok ini)
    (hm : Monitor.ofSettings ini host o.roots = .ok m) : start o host = .ok m := by
  rw [start, hsettings]
  exact hm

/-- A session that starts succeeds, and its output is a rendering of each of some snapshots, in turn. -/
theorem outcomeFrom_of_settings {args : List String} (hargs : Options.ofArgs args = .ok o)
    (hsettings : settings o host = .ok ini) (hm : Monitor.ofSettings ini host o.roots = .ok m)
    (moments : Nat → Moment) (interrupt : Nat) :
    ∃ count, outcomeFrom args host moments interrupt =
      ⟨0, String.join ((m.snapshots ((List.range count).map moments)).map
        fun s => render o s ++ "\n"), none⟩ := by
  have hstart := start_of_settings hsettings hm
  obtain ⟨count, hcount⟩ := exists_rounds o moments (mostRounds o interrupt) 0 m
  refine ⟨count, ?_⟩
  simp only [outcomeFrom, hargs, hstart, hcount, ← List.range_eq_range', List.map_map]
  rfl

end Settings

/-- **A round is one line, but for the battery.** Build a monitor over the built-in probes below the
standard roots, from any configuration and on any host, and run it through any moments whose hosts word
their faults in one line.

* Every round is a text of one line exactly if the state of the battery is, and the mark of its faults.
* The rounds are texts of one line if the moments tell of the followed battery in one line.
* A session from the same configuration and host prints the rounds of such a run, and then has exactly
  one line for each of them. -/
theorem one_line_of_round {text : String} {ini : Ini} {host : HostView} {m : Monitor Builtin}
    (hini : Ini.parse text = .ok ini) (hm : Monitor.ofSettings ini host .standard = .ok m)
    {moments : Nat → Moment} (hworded : ∀ i, (moments i).host.Worded) :
    let told := ∀ i, BatteryProbe.ToldInLine host (moments i).host
    (∀ count, ∃ snapshots : List Snapshot, snapshots.length = count ∧
      (m.run ((List.range count).map moments)).2 = snapshots.map .ok ∧
      (∀ s ∈ snapshots, OneLine s.human ↔ ∀ x ∈ s.metrics,
        x.name = "battery.status" ∨ x.name = "module.battery.error" →
          ∀ v, x.value = .text v → OneLine v) ∧
      (told → ∀ s ∈ snapshots, OneLine s.human)) ∧
    ∀ args o interrupt, Options.ofArgs args = .ok o → settings o host = .ok ini →
      o.roots = .standard → o.json = false → ∃ snapshots : List Snapshot,
        (m.run ((List.range snapshots.length).map moments)).2 = snapshots.map .ok ∧
        outcomeFrom args host moments interrupt =
          ⟨0, String.join (snapshots.map fun s => s.human ++ "\n"), none⟩ ∧
        (told → (outcomeFrom args host moments interrupt).output.toList.count '\n' =
          snapshots.length) := by
  intro told
  have hvalues := Ini.oneLine_of_parse hini
  let ts (count : Nat) : List Moment := (List.range count).map moments
  have hlength : ∀ count, (m.snapshots (ts count)).length = count := by
    intro count
    rw [Monitor.length_snapshots, List.length_map, List.length_range]
  have hhosts : ∀ count, ∀ u ∈ ts count, u.host.Worded :=
    fun count => List.forall_mem_map.mpr fun i _ => hworded i
  have hlines : told → ∀ count, ∀ s ∈ m.snapshots (ts count), OneLine s.human := by
    intro htold count
    refine List.forall_mem_map.mpr fun r hr => ?_
    exact Monitor.oneLine_of_mem_rounds hvalues hm (hhosts count)
      (List.forall_mem_map.mpr fun i _ => htold i) hr
  refine ⟨fun count => ?_, fun args o interrupt hargs hsettings hroots hjson => ?_⟩
  · -- any number of rounds of the monitor
    refine ⟨m.snapshots (ts count), hlength count, m.outcomes_eq_snapshots _, ?_, fun h => hlines h count⟩
    exact List.forall_mem_map.mpr fun r hr =>
      Monitor.oneLine_iff_of_mem_rounds hvalues hm (hhosts count) hr
  · -- a session, whose output is put together from such rounds
    obtain ⟨count, houtcome⟩ :=
      outcomeFrom_of_settings hargs hsettings (hroots ▸ hm) moments interrupt
    have hrender : render o = Snapshot.human := by
      funext s
      rw [render, hjson]
      rfl
    rw [hrender] at houtcome
    refine ⟨m.snapshots (ts count), ?_, houtcome, fun h => ?_⟩
    · rw [hlength]
      exact m.outcomes_eq_snapshots _
    · have hcount := count_newline_lines (List.forall_mem_map.mpr (hlines h count))
      rw [List.map_map, List.length_map] at hcount
      rw [houtcome]
      exact hcount

end Session

/-! ## Examples

A battery in two states: one word, and two lines. -/

/-- A host with nothing but one battery, in a given state. -/
def HostView.powered (status : String) : HostView where
  read p :=
    if p.text = "/sys/class/power_supply/BAT0/capacity" then .ok "50\n"
    else if p.text = "/sys/class/power_supply/BAT0/status" then .ok status
    else .error .noEntry
  has p := p.text == "/sys/class/power_supply/BAT0/capacity"
  entries _ := .ok [⟨"/sys/class/power_supply/BAT0"⟩]
  usage _ := .error .noUsage

/-- The causes that the host of the example gives are of one line. -/
theorem HostView.worded_powered (status : String) : (powered status).Worded where
  read {p f} h := by
    simp only [powered] at h
    split at h
    · cases h
    · split at h
      · cases h
      · cases h
        decide
  usage h := by
    cases h
    decide

/-- The host of the example has one battery to follow. -/
theorem BatteryProbe.followed?_powered (status : String) :
    followed? (.powered status) = some ⟨"/sys/class/power_supply/BAT0"⟩ := by
  simp only [followed?, choose?, HostView.powered, List.mergeSort_singleton]
  rfl

/-- The monitor that is built on a host with nothing but one battery. -/
def Monitor.ofBattery : Monitor Builtin :=
  let probe : BatteryProbe :=
    ⟨⟨"/sys/class/power_supply/BAT0/capacity"⟩, ⟨"/sys/class/power_supply/BAT0/status"⟩, none⟩
  ⟨1000, [⟨"cpu", 0, none, none⟩, ⟨"ram", 0, none, none⟩, ⟨"battery", 0, some (.battery probe), none⟩,
    ⟨"network", 0, none, none⟩, ⟨"storage", 0, none, none⟩], none⟩

/-- The monitor of the example, in both states of its battery. -/
theorem Monitor.ofSettings_powered {status : String} (h : status ∈ ["Full", "a\nb"]) :
    ofSettings .empty (.powered status) .standard = .ok ofBattery := by
  have hbuilt : ∀ status ∈ ["Full", "a\nb"],
      (ofSettings .empty (.powered status) .standard).toOption = some ofBattery := by
    decide +kernel
  have hsome := hbuilt status h
  cases hm : ofSettings .empty (.powered status) .standard with
  | error f =>
    rw [hm] at hsome
    cases hsome
  | ok m =>
    rw [hm] at hsome
    exact congrArg Except.ok (Option.some.inj hsome)

/-- Rounds at one millisecond after the other, in which the battery stays in its state. -/
def poweredMoments (status : String) (i : Nat) : Moment :=
  ⟨UInt64.ofNat i, .powered status⟩

/-- A full battery is told in one line. -/
theorem BatteryProbe.toldInLine_full : ToldInLine (.powered "Full") (.powered "Full") := by
  intro battery hbattery
  rw [← Option.some.inj ((followed?_powered "Full").symm.trans hbattery)]
  decide +kernel

namespace Session

/-- The options of a session with a limit and nothing else. -/
def barely (n : UInt64) : Options := ⟨none, some n, false, .standard, 0, false⟩

/-- A battery that is full: three rounds print three lines. -/
theorem one_line_of_round_full :
    let host := HostView.powered "Full"
    let moments := poweredMoments "Full"
    Ini.parse "" = .ok .empty ∧ Monitor.ofSettings .empty host .standard = .ok .ofBattery ∧
      (∀ i, (moments i).host.Worded) ∧ (∀ i, BatteryProbe.ToldInLine host (moments i).host) ∧
      Options.ofArgs ["-n", "3"] = .ok (barely 3) ∧ settings (barely 3) host = .ok .empty ∧
      ∃ snapshots : List Snapshot,
        (Monitor.ofBattery.run ((List.range snapshots.length).map moments)).2 = snapshots.map .ok ∧
        (outcomeFrom ["-n", "3"] host moments 1).output.toList.count '\n' = snapshots.length := by
  intro host moments
  have hini : Ini.parse "" = .ok .empty := rfl
  have hbuilt : Monitor.ofSettings .empty host .standard = .ok .ofBattery :=
    Monitor.ofSettings_powered List.mem_cons_self
  have hworded : ∀ i, (moments i).host.Worded := fun _ => HostView.worded_powered "Full"
  have htold : ∀ i, BatteryProbe.ToldInLine host (moments i).host :=
    fun _ => BatteryProbe.toldInLine_full
  have hargs : Options.ofArgs ["-n", "3"] = .ok (barely 3) := rfl
  have hsettings : settings (barely 3) host = .ok .empty := rfl
  obtain ⟨_, hsession⟩ := one_line_of_round hini hbuilt hworded
  obtain ⟨snapshots, hrun, _, hcount⟩ := hsession ["-n", "3"] (barely 3) 1 hargs hsettings rfl rfl
  exact ⟨hini, hbuilt, hworded, htold, hargs, hsettings, snapshots, hrun, hcount htold⟩

/-- One round shows the state as it stands in the file. -/
theorem run_powered : (Monitor.ofBattery.run [poweredMoments "a\nb" 0]).2 =
    [.ok ⟨BatteryProbe.metricsOf ⟨50, "a\nb"⟩⟩] := by
  have hround : (Round.mk Monitor.ofBattery (poweredMoments "a\nb" 0)).snapshot =
      ⟨BatteryProbe.metricsOf ⟨50, "a\nb"⟩⟩ := by decide +kernel
  rw [Monitor.outcomes_eq_snapshots, Monitor.snapshots, Monitor.rounds_cons, List.map_cons,
    List.map_cons, hround]
  rfl

/-- **A state of two lines breaks the line of a round.** The one round of the session is printed on two
lines. -/
theorem two_lines_of_round :
    let host := HostView.powered "a\nb"
    let moments := poweredMoments "a\nb"
    host.Worded ∧ Ini.parse "" = .ok .empty ∧
      Monitor.ofSettings .empty host .standard = .ok .ofBattery ∧
      (∃ s : Snapshot, (Monitor.ofBattery.run [moments 0]).2 = [.ok s] ∧ ¬OneLine s.human) ∧
      Options.ofArgs ["-n", "1"] = .ok (barely 1) ∧
      outcomeFrom ["-n", "1"] host moments 1 =
        ⟨0, "battery.percent=50.00%  battery.is_charging=0  battery.status=a\nb\n", none⟩ := by
  have hbuilt := Monitor.ofSettings_powered (List.mem_cons_of_mem "Full" (List.mem_singleton_self "a\nb"))
  have hbroken : ¬OneLine (Snapshot.mk (BatteryProbe.metricsOf ⟨50, "a\nb"⟩)).human := by
    decide +kernel
  have houtcome : outcomeFrom ["-n", "1"] (.powered "a\nb") (poweredMoments "a\nb") 1 =
      ⟨0, "battery.percent=50.00%  battery.is_charging=0  battery.status=a\nb\n", none⟩ := by
    decide +kernel
  exact ⟨HostView.worded_powered "a\nb", rfl, hbuilt, ⟨_, run_powered, hbroken⟩, rfl, houtcome⟩

end Session

end HostMeter
