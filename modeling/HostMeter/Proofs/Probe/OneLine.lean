import HostMeter.Proofs.Host.Wording
import HostMeter.Proofs.Probe.Sampling
import HostMeter.Proofs.Text.Lines
/-!
# One line — what a probe repeats

A probe repeats texts that it did not make: paths below its roots, the configured path, the name of an
interface, the state of a battery, and the wording of a host that fails. Most of them were cut out of a
line and can only be of one line; the path and the state of a battery are the exceptions.

* `Ini.oneLine_of_parse`, `Interface.oneLine_of_parse`: what was cut out of a line.
* `Lined`: the kinds of probes that repeat in one line what they were told in one line.
* `Builtin.Kind.plain_of_create`: what a probe starts with.
* `BatteryProbe.oneLine_or_status`: the one metric that may be of several lines.
-/

namespace HostMeter

/-! ## Texts cut out of a line

What is cut out of a line has no line break, wherever it is cut. -/

/-- The two parts of a line are of one line. -/
theorem newline_not_mem_of_cut? {sep : Char} {line a b : List Char} (hline : '\n' ∉ line)
    (h : Text.cut? sep line = some (a, b)) : '\n' ∉ a ∧ '\n' ∉ b := by
  obtain ⟨rfl, _⟩ := Text.cut?_eq_some_iff.mp h
  simp only [List.mem_append, List.mem_cons, not_or] at hline
  exact ⟨hline.1, hline.2.2⟩

/-- Trimming brings no line feed into a line. -/
theorem oneLine_trim {cs : List Char} (h : '\n' ∉ cs) : OneLine (String.ofList (Text.trim cs)) :=
  oneLine_ofList.mpr fun hmem => h (Text.mem_of_mem_trim hmem)

/-- The name in a row is of one line. -/
theorem Interface.oneLine_of_ofLine? {line : List Char} {i : Interface} (hline : '\n' ∉ line)
    (h : ofLine? line = some i) : OneLine i.name := by
  rw [ofLine?] at h
  split at h
  · cases h
  · split at h
    · cases h
    · next name rest hcut =>
      dsimp only at h
      split at h
      · cases h
      · rw [← Option.some.inj h]
        exact oneLine_trim (newline_not_mem_of_cut? hline hcut).1

/-- The names in a table are of one line, as they are cut out of its lines. -/
theorem Interface.oneLine_of_parse {text : String} {i : Interface} (h : i ∈ parse text) :
    OneLine i.name := by
  obtain ⟨line, hline, hi⟩ := List.mem_filterMap.mp h
  exact oneLine_of_ofLine? (Text.newline_not_mem_of_mem_lines hline) hi

namespace Ini

/-- The value of an assignment is of one line. -/
theorem Line.oneLine_of_ofText {line : List Char} {key value : String} (hline : '\n' ∉ line)
    (h : Line.ofText line = .assignment key value) : OneLine value := by
  have htrim : '\n' ∉ Text.trim line := fun hmem => hline (Text.mem_of_mem_trim hmem)
  rw [Line.ofText] at h
  unfold Line.ofTrimmed at h
  split at h
  · cases h
  · cases h
  · cases h
  · split at h <;> cases h
  · split at h
    · next key' value' hcut =>
      cases h
      exact oneLine_trim (newline_not_mem_of_cut? htrim hcut).2
    · cases h

/-- The values of a configuration are of one line, by induction on its lines. -/
theorem oneLine_of_ofLines {n : Nat} {heading : String} {lines : List (List Char)}
    {as : List Assignment} (hlines : ∀ line ∈ lines, '\n' ∉ line)
    (h : ofLines n heading lines = .ok as) : ∀ a ∈ as, OneLine a.value := by
  induction lines generalizing n heading as with
  | nil =>
    cases h
    exact nofun
  | cons line rest ih =>
    obtain ⟨hline, hrest⟩ := List.forall_mem_cons.mp hlines
    rw [ofLines] at h
    split at h
    · -- a blank line or a comment
      exact ih hrest h
    · -- a heading
      exact ih hrest h
    · next key value hassignment =>
      -- an assignment: its value is cut out of this line
      obtain ⟨later, hlater, hcons⟩ := exists_of_bind_ok h
      cases hcons
      exact List.forall_mem_cons.mpr ⟨Line.oneLine_of_ofText hline hassignment, ih hrest hlater⟩
    · -- a heading without its bracket, or no assignment: the text is refused
      cases h
    · cases h

/-- **A configured value is of one line.** -/
theorem oneLine_of_parse {text : String} {ini : Ini} (h : parse text = .ok ini) :
    ∀ a ∈ ini.assignments, OneLine a.value := by
  obtain ⟨as, has, hini⟩ := exists_of_bind_ok h
  cases hini
  exact oneLine_of_ofLines (fun _ => Text.newline_not_mem_of_mem_lines) has

/-- What a configuration gives for a key is of one line. -/
theorem oneLine_of_get? {ini : Ini} {heading key value : String}
    (hini : ∀ a ∈ ini.assignments, OneLine a.value) (h : ini.get? heading key = some value) :
    OneLine value := by
  obtain ⟨a, ha, rfl⟩ := Option.map_eq_some_iff.mp h
  exact hini a (List.mem_of_find?_eq_some ha)

end Ini

/-! ## Sources

The wording of a fault repeats a path and a cause, and quotes what it could not read. -/

section Sources

variable {p : Path}

/-- A path of one line and a name of one line make a path of one line. -/
theorem Path.oneLine_join {below : String} (hp : OneLine p.text) (hbelow : OneLine below) :
    OneLine (p.join below).text := by
  unfold join
  split
  · exact hbelow
  · split
    · exact hp.append hbelow
    · exact (hp.append (by decide)).append hbelow

/-- The wording of a query that failed is of one line if the path and the cause are. -/
theorem oneLine_readingFault {cause : HostFault} (hp : OneLine p.text)
    (hcause : OneLine cause.message) : OneLine (Fault.io (readingContext p) cause).message := by
  have hcontext : OneLine (readingContext p) := OneLine.append (by decide) hp
  exact (hcontext.append (by decide)).append hcause

/-- The wording of a malformed text is of one line, since what it repeats is quoted. -/
theorem FormatFault.oneLine_message (f : FormatFault) : OneLine f.message := by
  cases f with
  | shortAggregate => decide
  | noAggregate => decide
  | notInteger text => exact OneLine.append (by decide) (oneLine_quoted text)

/-- The path of a source, put in front of the wording, does not break the line if it is of one line itself. -/
theorem oneLine_malformed (hp : OneLine p.text) (f : FormatFault) :
    OneLine (malformed p f).message :=
  OneLine.append (by decide) ((hp.append (by decide)).append f.oneLine_message)

end Sources

/-! ## Refreshes and metrics

Three laws for each kind: a refresh keeps the texts plain, its faults are worded in one line, and so are the
metrics. -/

/-- A kind of probe that repeats in one line what it was told in one line. -/
class Lined (σ : Type) [Sampler σ] where
  /-- The texts that the probe holds are of one line. -/
  Plain : σ → Prop
  /-- What a refresh would take over from the host as it is, is of one line. -/
  Told : σ → HostView → Prop
  plain_of_refresh {p q : σ} {now : UInt64} {host : HostView} (hp : Plain p) (hhost : Told p host)
    (h : Sampler.refresh p now host = .ok q) : Plain q
  oneLine_of_refresh {p : σ} {now : UInt64} {host : HostView} {f : Fault} (hp : Plain p)
    (hhost : host.Worded) (h : Sampler.refresh p now host = .error f) : OneLine f.message
  oneLine_metrics {p : σ} (hp : Plain p) : ∀ x ∈ Sampler.metrics p, x.OneLine

/-- A number is of one line under a name and with a unit that are. -/
theorem Metric.oneLine_of_number {name : String} {unit : Option String} {value : MetricValue}
    (hname : HostMeter.OneLine name) (hunit : HostMeter.OneLine (unit.getD ""))
    (hvalue : value.type ≠ .text) : (Metric.mk name unit value).OneLine where
  name := hname
  unit u hu := by
    rw [show unit = some u from hu] at hunit
    exact hunit
  text v hv := by
    rw [show value = .text v from hv] at hvalue
    exact absurd rfl hvalue

/-- A text of one line is of one line under a name that is. -/
theorem Metric.oneLine_of_text {name value : String} (hname : HostMeter.OneLine name)
    (hvalue : HostMeter.OneLine value) : (Metric.mk name none (.text value)).OneLine where
  name := hname
  unit := nofun
  text v hv := by
    cases hv
    exact hvalue

instance : Lined CpuProbe where
  Plain p := OneLine p.source.text
  Told _ _ := True
  plain_of_refresh hp _ h := by
    obtain ⟨_, _, _, _, rfl⟩ := CpuProbe.exists_of_refresh h
    exact hp
  oneLine_of_refresh {p _ host f} hp hhost h := by
    have hrefresh : p.refresh host = .error f := h
    rw [p.refresh_eq] at hrefresh
    split at hrefresh
    · next hread =>
      cases hrefresh
      exact oneLine_readingFault hp (hhost.read hread)
    · split at hrefresh
      · cases hrefresh
        exact oneLine_malformed hp _
      · cases hrefresh
  oneLine_metrics {p} _ := by
    show ∀ x ∈ p.metrics, _
    rw [CpuProbe.metrics, List.forall_mem_cons]
    refine ⟨Metric.oneLine_of_number (by decide) (by decide) nofun, ?_⟩
    split
    · exact nofun
    · exact List.forall_mem_singleton.mpr (Metric.oneLine_of_number (by decide) (by decide) nofun)

instance : Lined RamProbe where
  Plain p := OneLine p.source.text
  Told _ _ := True
  plain_of_refresh hp _ h := by
    obtain ⟨_, _, rfl⟩ := RamProbe.exists_of_refresh h
    exact hp
  oneLine_of_refresh {p _ host f} hp hhost h := by
    have hrefresh : p.refresh host = .error f := h
    rw [p.refresh_eq] at hrefresh
    split at hrefresh
    · next hread =>
      cases hrefresh
      exact oneLine_readingFault hp (hhost.read hread)
    · cases hrefresh
  oneLine_metrics {p} _ := by
    show ∀ x ∈ p.metrics, _
    rw [RamProbe.metrics]
    split
    · simp only [RamProbe.metricsOf, List.forall_mem_cons]
      refine ⟨?_, ?_, ?_, ?_⟩
      case refine_4 =>
        -- the share, if there is one
        split
        · exact List.forall_mem_singleton.mpr (Metric.oneLine_of_number (by decide) (by decide) nofun)
        · exact nofun
      all_goals exact Metric.oneLine_of_number (by decide) (by decide) nofun
    · exact nofun

instance : Lined BatteryProbe where
  Plain p := OneLine p.capacitySource.text ∧ ∀ s, p.last = some s → OneLine s.status
  Told p host := OneLine (BatterySample.statusOf (host.read p.statusSource).toOption)
  plain_of_refresh hp hhost h := by
    obtain ⟨_, _, _, _, rfl⟩ := BatteryProbe.exists_of_refresh h
    refine ⟨hp.1, fun s hs => ?_⟩
    rw [← Option.some.inj hs]
    exact hhost
  oneLine_of_refresh {p _ host f} hp hhost h := by
    have hrefresh : p.refresh host = .error f := h
    rw [p.refresh_eq] at hrefresh
    split at hrefresh
    · next hread =>
      cases hrefresh
      exact oneLine_readingFault hp.1 (hhost.read hread)
    · split at hrefresh
      · cases hrefresh
        exact oneLine_malformed hp.1 _
      · cases hrefresh
  oneLine_metrics {p} hp := by
    show ∀ x ∈ p.metrics, _
    rw [BatteryProbe.metrics]
    split
    · next s hs =>
      simp only [BatteryProbe.metricsOf, List.forall_mem_cons]
      refine ⟨?_, ?_, Metric.oneLine_of_text (by decide) (hp.2 s hs), nofun⟩
      all_goals exact Metric.oneLine_of_number (by decide) (by decide) nofun
    · exact nofun

instance : Lined NetworkProbe where
  Plain p := OneLine p.source.text ∧ OneLine p.interface
  Told _ _ := True
  plain_of_refresh hp _ h := by
    obtain ⟨_, _, _, _, rfl⟩ := NetworkProbe.exists_of_refresh h
    exact hp
  oneLine_of_refresh {p now host f} hp hhost h := by
    have hrefresh : p.refresh now host = .error f := h
    rw [p.refresh_eq] at hrefresh
    split at hrefresh
    · next hread =>
      cases hrefresh
      exact oneLine_readingFault hp.1 (hhost.read hread)
    · split at hrefresh
      · cases hrefresh
        exact oneLine_readingFault hp.1 ((OneLine.append (by decide) hp.2).append (by decide))
      · cases hrefresh
  oneLine_metrics {p} hp := by
    show ∀ x ∈ p.metrics, _
    rw [NetworkProbe.metrics]
    split
    · simp only [NetworkProbe.metricsOf, List.forall_mem_cons]
      refine ⟨Metric.oneLine_of_text (by decide) hp.2, ?_, ?_, ?_, ?_, nofun⟩
      all_goals exact Metric.oneLine_of_number (by decide) (by decide) nofun
    · exact nofun

instance : Lined StorageProbe where
  Plain p := OneLine p.path.text
  Told _ _ := True
  plain_of_refresh hp _ h := by
    obtain ⟨_, _, rfl⟩ := StorageProbe.exists_of_refresh h
    exact hp
  oneLine_of_refresh {p _ host f} hp hhost h := by
    have hrefresh : p.refresh host = .error f := h
    rw [p.refresh_eq] at hrefresh
    split at hrefresh
    · next husage =>
      cases hrefresh
      have hcontext : OneLine (StorageProbe.failure p.path) :=
        (OneLine.append (by decide) hp).append (by decide)
      exact (hcontext.append (by decide)).append (hhost.usage husage)
    · cases hrefresh
  oneLine_metrics {p} hp := by
    show ∀ x ∈ p.metrics, _
    rw [StorageProbe.metrics]
    split
    · simp only [StorageProbe.metricsOf, List.forall_mem_cons]
      refine ⟨Metric.oneLine_of_text (by decide) hp, ?_, ?_, ?_, ?_, ?_, nofun⟩
      all_goals exact Metric.oneLine_of_number (by decide) (by decide) nofun
    · exact nofun

/-- **Of what a battery tells, only its state may be of several lines.** -/
theorem BatteryProbe.oneLine_or_status {p : BatteryProbe} {x : Metric} (hx : x ∈ p.metrics) :
    x.OneLine ∨ x.name = "battery.status" ∧ x.unit = none := by
  rw [metrics] at hx
  split at hx
  · simp only [metricsOf, List.mem_cons, List.not_mem_nil, or_false] at hx
    rcases hx with rfl | rfl | rfl
    · exact Or.inl (Metric.oneLine_of_number (by decide) (by decide) nofun)
    · exact Or.inl (Metric.oneLine_of_number (by decide) (by decide) nofun)
    · exact Or.inr ⟨rfl, rfl⟩
  · cases hx

/-! ### Any of the kinds

The laws of the five kinds, under their constructors. -/

namespace Builtin

def Plain : Builtin → Prop
  | .cpu p => Lined.Plain p
  | .ram p => Lined.Plain p
  | .battery p => Lined.Plain p
  | .network p => Lined.Plain p
  | .storage p => Lined.Plain p

def Told (p : Builtin) (host : HostView) : Prop :=
  match p with
  | .cpu p => Lined.Told p host
  | .ram p => Lined.Told p host
  | .battery p => Lined.Told p host
  | .network p => Lined.Told p host
  | .storage p => Lined.Told p host

instance : Lined Builtin where
  Plain := Plain
  Told := Told
  plain_of_refresh {p _ _ _} hp hhost h := by
    cases p <;> obtain ⟨q, hq, rfl⟩ := exists_of_map_ok h <;>
      exact Lined.plain_of_refresh hp hhost hq
  oneLine_of_refresh {p _ _ _} hp hhost h := by
    cases p <;> exact Lined.oneLine_of_refresh hp hhost (error_of_map h)
  oneLine_metrics {p} hp := by
    cases p with
    | cpu p => exact Lined.oneLine_metrics (p := p) hp
    | ram p => exact Lined.oneLine_metrics (p := p) hp
    | battery p => exact Lined.oneLine_metrics (p := p) hp
    | network p => exact Lined.oneLine_metrics (p := p) hp
    | storage p => exact Lined.oneLine_metrics (p := p) hp

end Builtin

/-! ## Creation

The texts that a probe starts with come from the configuration, from a table, or from the listing of the
power supplies. -/

/-- The interface that is chosen is one of the table. -/
theorem NetworkProbe.mem_of_choose? {interfaces : List Interface} {requested : Option String}
    {includeLoopback : Bool} {i : Interface}
    (h : choose? interfaces requested includeLoopback = some i) : i ∈ interfaces := by
  unfold choose? at h
  split at h
  · exact List.mem_of_find?_eq_some h
  · exact List.mem_of_find?_eq_some h

/-- The followed interface is one that a row names. -/
theorem NetworkProbe.exists_interface_of_create {c : Context} {p : NetworkProbe}
    (h : create c = .ok p) : ∃ text, ∃ i ∈ Interface.parse text,
      p = ⟨c.procPath "net/dev", i.name, none, .zero⟩ := by
  obtain ⟨text, _, hp⟩ := exists_of_bind_ok h
  split at hp
  · next _ i hchoose =>
    cases hp
    exact ⟨text, i, mem_of_choose? hchoose, rfl⟩
  · cases hp
  · cases hp

/-- The path of a storage is configured, or the root. -/
theorem StorageProbe.oneLine_path_of_create {c : Context} {p : StorageProbe} (h : create c = .ok p)
    (hsettings : ∀ a ∈ c.settings.assignments, OneLine a.value) : OneLine p.path.text := by
  rw [eq_of_create h]
  show OneLine ((c.option? "path").getD defaultPath)
  cases hoption : c.option? "path" with
  | none => decide
  | some value => exact Ini.oneLine_of_get? hsettings (Option.filter_eq_some_iff.mp hoption).1

/-- **What a probe starts with.** Below a root of one line and with values of one line, the texts that a
probe holds are of one line; for a battery, the path that the host lists it under has to be, too. -/
theorem Builtin.Kind.plain_of_create {k : Builtin.Kind} {c : Context} {p : Builtin}
    (h : k.create c = .ok p) (hproc : OneLine c.roots.proc)
    (hsettings : ∀ a ∈ c.settings.assignments, OneLine a.value)
    (hbattery : k = .battery → ∀ battery,
      BatteryProbe.choose? c.host (c.sysPath "class/power_supply") = some battery →
        OneLine battery.text) : Lined.Plain p := by
  cases k with
  | cpu =>
    obtain ⟨q, hq, rfl⟩ := exists_of_map_ok h
    obtain ⟨cores, rfl⟩ := CpuProbe.eq_of_create hq
    exact Path.oneLine_join hproc (by decide)
  | ram =>
    obtain ⟨q, hq, rfl⟩ := exists_of_map_ok h
    obtain ⟨total, rfl⟩ := RamProbe.eq_of_create hq
    exact Path.oneLine_join hproc (by decide)
  | battery =>
    obtain ⟨q, hq, rfl⟩ := exists_of_map_ok h
    obtain ⟨battery, hchoose, rfl⟩ := BatteryProbe.eq_of_create hq
    exact ⟨Path.oneLine_join (hbattery rfl battery hchoose) (by decide), nofun⟩
  | network =>
    obtain ⟨q, hq, rfl⟩ := exists_of_map_ok h
    obtain ⟨text, i, hi, rfl⟩ := NetworkProbe.exists_interface_of_create hq
    exact ⟨Path.oneLine_join hproc (by decide), Interface.oneLine_of_parse hi⟩
  | storage =>
    obtain ⟨q, hq, rfl⟩ := exists_of_map_ok h
    exact StorageProbe.oneLine_path_of_create hq hsettings

end HostMeter
