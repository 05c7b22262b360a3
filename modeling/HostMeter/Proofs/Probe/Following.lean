import HostMeter.Proofs.Probe.Readings
/-!
# Following — one interface for life

The probe of the network chooses an interface when it is created, by its configured name or by its place
in the table, and is handed a new table on every occasion. It looks for the chosen name in each of them,
wherever the row now stands, and never takes another row instead.

* `Interface.IsFirst`: the first row of a table that meets a condition.
* `NetworkProbe.Chooses`, `NetworkProbe.create_eq_ok_iff`: the choice, told without the search.
* `NetworkProbe.row?`: the row of an interface on an occasion; `NetworkProbe.reading_eq`.
* `NetworkProbe.interface_of_run`: the law.
-/

namespace HostMeter

/-! ## First rows

A table may have several rows of one name; every search takes the first. -/

/-- The first row of a table that meets a condition. -/
def Interface.IsFirst (P : Interface → Prop) (rows : List Interface) (i : Interface) : Prop :=
  ∃ before behind, rows = before ++ i :: behind ∧ P i ∧ ∀ j ∈ before, ¬P j

/-- A search finds the first row that meets its condition. -/
theorem Interface.find?_eq_some_iff {q : Interface → Bool} {P : Interface → Prop}
    (hq : ∀ j, q j = true ↔ P j) {rows : List Interface} {i : Interface} :
    rows.find? q = some i ↔ IsFirst P rows i := by
  rw [List.find?_eq_some_iff_append, IsFirst]
  simp only [Bool.not_eq_true', ← Bool.not_eq_true, hq]
  constructor
  · rintro ⟨hi, before, behind, hrows, hbefore⟩
    exact ⟨before, behind, hrows, hi, hbefore⟩
  · rintro ⟨before, behind, hrows, hi, hbefore⟩
    exact ⟨hi, before, behind, hrows, hbefore⟩

namespace NetworkProbe

/-! ## The choice

Three cases, told without the search: a request, no request with the loopback let in, and no request with
the loopback kept out. -/

/-- The row of a table that a probe chooses: the one of the requested name, and without a request the very
first, or the first that is not the loopback. -/
inductive Chooses (c : Context) (rows : List Interface) (i : Interface) : Prop where
  | requested (name : String) (hname : c.Sets "interface" name) (hi : Interface.IsFirst (·.name = name) rows i)
  | first (hname : ∀ name, ¬c.Sets "interface" name) (hloopback : c.Decides "include_loopback" false true)
      (hi : rows.head? = some i)
  | firstOther (hname : ∀ name, ¬c.Sets "interface" name) (hloopback : c.Decides "include_loopback" false false)
      (hi : Interface.IsFirst (·.name ≠ "lo") rows i)

/-- With the loopback let in, the first row is chosen. -/
theorem choose?_none_true (rows : List Interface) : choose? rows none true = rows.head? := by
  cases rows <;> rfl

/-- With a request, the first row of the requested name is chosen, the loopback not excepted. -/
theorem choose?_some_iff {rows : List Interface} {name : String} {flag : Bool} {i : Interface} :
    choose? rows (some name) flag = some i ↔ Interface.IsFirst (·.name = name) rows i :=
  Interface.find?_eq_some_iff fun _ => beq_iff_eq

/-- With the loopback kept out, the first row of any other name is chosen. -/
theorem choose?_none_false_iff {rows : List Interface} {i : Interface} :
    choose? rows none false = some i ↔ Interface.IsFirst (·.name ≠ "lo") rows i :=
  Interface.find?_eq_some_iff fun _ => bne_iff_ne

/-- **The choice of the program is the choice told by the configuration.** -/
theorem choose?_eq_some_iff {c : Context} {rows : List Interface} {i : Interface} :
    choose? rows (c.option? "interface") (c.flag "include_loopback" false) = some i ↔ Chooses c rows i := by
  constructor
  · intro h
    cases hoption : c.option? "interface" with
    -- an interface is requested
    | some name =>
      rw [hoption] at h
      exact .requested name (Context.option?_eq_some_iff.mp hoption) (choose?_some_iff.mp h)
    | none =>
      rw [hoption] at h
      have hname := Context.option?_eq_none_iff.mp hoption
      cases hflag : c.flag "include_loopback" false with
      -- none is, and the loopback is let in
      | true =>
        rw [hflag, choose?_none_true] at h
        exact .first hname (Context.flag_eq_iff.mp hflag) h
      -- none is, and the loopback is kept out
      | false =>
        rw [hflag] at h
        exact .firstOther hname (Context.flag_eq_iff.mp hflag) (choose?_none_false_iff.mp h)
  · rintro (⟨name, hname, hi⟩ | ⟨hname, hloopback, hi⟩ | ⟨hname, hloopback, hi⟩)
    · rw [Context.option?_eq_some_iff.mpr hname]
      exact choose?_some_iff.mpr hi
    · rw [Context.option?_eq_none_iff.mpr hname, Context.flag_eq_iff.mpr hloopback, choose?_none_true]
      exact hi
    · rw [Context.option?_eq_none_iff.mpr hname, Context.flag_eq_iff.mpr hloopback]
      exact choose?_none_false_iff.mpr hi

/-- Without a request, and without the loopback being let in, it is not chosen. -/
theorem Chooses.ne_loopback {c : Context} {rows : List Interface} {i : Interface} (h : Chooses c rows i)
    (hname : ∀ name, ¬c.Sets "interface" name) (hloopback : c.Decides "include_loopback" false false) :
    i.name ≠ "lo" := by
  cases h with
  | requested name hrequested _ => exact absurd hrequested (hname name)
  | first _ hlet _ =>
    have hboth : true = false := Ini.Decides.unique hlet hloopback
    cases hboth
  | firstOther _ _ hi =>
    obtain ⟨_, _, _, hne, _⟩ := hi
    exact hne

/-- **When a probe of the network can be created, and what it follows.** -/
theorem create_eq_ok_iff {c : Context} {p : NetworkProbe} :
    create c = .ok p ↔ ∃ text i, c.host.read (c.procPath "net/dev") = .ok text ∧
      Chooses c (Interface.parse text) i ∧ p = ⟨c.procPath "net/dev", i.name, none, .zero⟩ := by
  simp only [← choose?_eq_some_iff]
  rw [create, readSource_eq]
  cases c.host.read (c.procPath "net/dev") with
  -- without the file there is no table to choose from
  | error cause =>
    constructor
    · intro h
      cases h
    · rintro ⟨text, _, htext, _⟩
      cases htext
  | ok text =>
    simp only [bind, Except.bind, Except.mapError, Except.ok.injEq, exists_and_left, exists_eq_left']
    split
    · -- a row was chosen
      next i hi => simp [hi, pure, Except.pure, eq_comm]
    · -- the requested interface has no row
      next hi _ => simp [hi]
    · -- there is no row that may be chosen
      next hi _ => simp [hi]

/-! ## The row of an interface

After the creation only the name counts. What else is in the table does not show. -/

/-- The row that a host has for an interface on an occasion. -/
def row? (source : Path) (name : String) (o : Occasion) : Option Interface :=
  (o.host.read source).toOption.bind fun text => (Interface.parse text).find? fun i => i.name == name

variable {source : Path} {name : String} {o : Occasion}

/-- The row of an interface is the first of its name in the file. -/
theorem row?_eq_some_iff {i : Interface} :
    row? source name o = some i ↔ ∃ text, o.host.read source = .ok text ∧
      Interface.IsFirst (·.name = name) (Interface.parse text) i := by
  have hfirst : ∀ text, (Interface.parse text).find? (fun i => i.name == name) = some i ↔
      Interface.IsFirst (·.name = name) (Interface.parse text) i :=
    fun _ => Interface.find?_eq_some_iff fun _ => beq_iff_eq
  rw [row?, Option.bind_eq_some_iff]
  simp only [toOption_eq_some_iff, hfirst]

/-- An interface has no row if no row of the file bears its name, or there is no file. -/
theorem row?_eq_none_iff :
    row? source name o = none ↔
      ∀ text, o.host.read source = .ok text → ∀ i ∈ Interface.parse text, i.name ≠ name := by
  rw [row?]
  cases o.host.read source with
  | error cause => simp [Except.toOption]
  | ok text => simp [Except.toOption, List.find?_eq_none]

/-- A reading is the row of the followed interface at the time of the reading. -/
theorem reading_eq (p : NetworkProbe) :
    Recorder.reading p = fun o =>
      (row? p.source p.interface o).map fun i => ⟨i.received, i.sent, o.now⟩ := by
  funext o
  show (p.readCounters o.now o.host).toOption = _
  rw [readCounters, readSource_eq, row?]
  cases o.host.read p.source with
  | error cause => rfl
  | ok text =>
    simp only [bind, Except.bind, Except.toOption, Option.bind]
    cases (Interface.parse text).find? fun i => i.name == p.interface <;> rfl

/-- The file is to be read when the row is. -/
theorem asked_reading {p : NetworkProbe} {os : List Occasion}
    (h : Asked (row? p.source p.interface) os o) : Asked (Recorder.reading p) os o := by
  rw [reading_eq]
  exact h.map

/-- Without a row there is a fault of reading. -/
theorem exists_fault_of_row? {p : NetworkProbe} (h : row? p.source p.interface o = none) :
    ∃ f, Recorder.read p o.now o.host = .error f ∧ f.kind = .io := by
  show ∃ f, p.readCounters o.now o.host = .error f ∧ _
  rw [row?] at h
  rw [readCounters, readSource_eq]
  cases hread : o.host.read p.source with
  | error cause => exact ⟨_, rfl, rfl⟩
  | ok text =>
    rw [hread] at h
    simp only [Except.toOption, Option.bind_some] at h
    simp only [bind, Except.bind, h]
    exact ⟨_, rfl, rfl⟩

/-! ## One occasion of a run

An occasion on which the row is to be read has one of two ends. -/

/-- The metrics for the row of an interface. -/
def metricsOfRow (name : String) (i : Interface) (rates : TrafficRates) : List Metric :=
  [⟨"network.interface", none, .text name⟩,
   ⟨"network.rx_bytes", some "B", .uint64 i.received⟩,
   ⟨"network.tx_bytes", some "B", .uint64 i.sent⟩,
   ⟨"network.rx_bytes_per_sec", some "B/s", .double rates.received⟩,
   ⟨"network.tx_bytes_per_sec", some "B/s", .double rates.sent⟩]

/-- A probe that has just recorded the row of its interface shows it. -/
theorem metrics_record (p : NetworkProbe) (i : Interface) (now : UInt64) :
    ∃ rates, Sampler.metrics (Recorder.record p ⟨i.received, i.sent, now⟩) =
      metricsOfRow p.interface i rates :=
  ⟨(p.record ⟨i.received, i.sent, now⟩).rates, rfl⟩

/-- Samples do not change which interface a probe follows. -/
theorem interface_foldl_record (p : NetworkProbe) (ss : List TrafficSample) :
    (ss.foldl Recorder.record p).interface = p.interface := by
  induction ss generalizing p with
  | nil => rfl
  | cons s ss ih => exact ih (p.record s)

section Occasion

variable {p : NetworkProbe} (hp : Sampler.sampled p = false) {os : List Occasion}

include hp

/-- A probe that answers shows the row of its interface from the last reading. -/
theorem exists_row_of_answers (h : (Sampler.answer (Sampler.after p os) o).fault = none) :
    ∃ o' i rates, IsLastReading (row? p.source p.interface) (os ++ [o]) o' i ∧
      (Sampler.answer (Sampler.after p os) o).builder.items.toList =
        o.builder.items.toList ++ metricsOfRow p.interface i rates := by
  obtain ⟨o', s, earlier, hlast, hitems⟩ := Recorder.exists_of_answers hp h
  rw [reading_eq] at hlast
  obtain ⟨i, hi, rfl⟩ := hlast.exists_of_map
  obtain ⟨rates, hrates⟩ := metrics_record (earlier.foldl Recorder.record p) i o'.now
  rw [hitems, hrates, interface_foldl_record]
  exact ⟨o', i, rates, hi, rfl⟩

/-- Where the row is to be read and is there, it is shown. -/
theorem answer_of_row (hasked : Asked (row? p.source p.interface) os o) {i : Interface}
    (hrow : row? p.source p.interface o = some i) :
    (Sampler.answer (Sampler.after p os) o).fault = none ∧ ∃ rates,
      (Sampler.answer (Sampler.after p os) o).builder.items.toList =
        o.builder.items.toList ++ metricsOfRow p.interface i rates := by
  have hread : Recorder.reading p o = some ⟨i.received, i.sent, o.now⟩ :=
    (congrFun (reading_eq p) o).trans (by rw [hrow]; rfl)
  obtain ⟨rates, hrates⟩ := metrics_record (Sampler.after p os) i o.now
  rw [Recorder.answer_of_reading hp (asked_reading hasked) hread, Sampler.toList_emit, hrates, Sampler.emit_eq,
    Recorder.after_eq_foldl, interface_foldl_record]
  exact ⟨rfl, rates, rfl⟩

/-- Where it is to be read and is not there, the probe fails for it and adds nothing. -/
theorem answer_of_no_row (hasked : Asked (row? p.source p.interface) os o)
    (hrow : row? p.source p.interface o = none) :
    (∃ f, (Sampler.answer (Sampler.after p os) o).fault = some f ∧ f.kind = .io) ∧
      (Sampler.answer (Sampler.after p os) o).builder = o.builder := by
  obtain ⟨f, hread, hkind⟩ := exists_fault_of_row? hrow
  rw [Recorder.answer_of_no_reading hp (asked_reading hasked) hread]
  exact ⟨⟨f, rfl, hkind⟩, rfl⟩

end Occasion

/-! ## Runs

The three together are the life of a probe. -/

/-- **The law of the followed interface.** Take a probe of the network that has just been created.

* It follows the interface of the row that it chose: the one of the requested name, and without a request
  the first of the table, or the first that is not the loopback, which it then does not follow.
* Ask it on any occasions, the last of which is `o`. If it answers, it names that interface, and its
  counters are those of the first row of that name at the last reading.
* A refresh on that occasion takes them from the first row of that name in the table of that moment. If
  the table cannot be read, or has no such row, it fails with a fault of reading and adds nothing. -/
theorem interface_of_run {c : Context} {p : NetworkProbe} (hp : create c = .ok p) :
    (∃ text i, c.host.read (c.procPath "net/dev") = .ok text ∧
      Chooses c (Interface.parse text) i ∧ p.interface = i.name) ∧
    ((∀ name, ¬c.Sets "interface" name) → c.Decides "include_loopback" false false → p.interface ≠ "lo") ∧
    ∀ (os : List Occasion) (o : Occasion),
      let row := row? (c.procPath "net/dev") p.interface
      let answer := Sampler.answer (Sampler.after p os) o
      (answer.fault = none → ∃ o' i rates, IsLastReading row (os ++ [o]) o' i ∧
        answer.builder.items.toList = o.builder.items.toList ++ metricsOfRow p.interface i rates) ∧
      (Asked row os o → ∀ text i, o.host.read (c.procPath "net/dev") = .ok text →
        Interface.IsFirst (·.name = p.interface) (Interface.parse text) i →
        answer.fault = none ∧ ∃ rates,
          answer.builder.items.toList = o.builder.items.toList ++ metricsOfRow p.interface i rates) ∧
      (Asked row os o → (∀ text, o.host.read (c.procPath "net/dev") = .ok text →
          ∀ i ∈ Interface.parse text, i.name ≠ p.interface) →
        (∃ f, answer.fault = some f ∧ f.kind = .io) ∧ answer.builder = o.builder) := by
  obtain ⟨start, chosen, hstart, hchooses, rfl⟩ := create_eq_ok_iff.mp hp
  refine ⟨⟨start, chosen, hstart, hchooses, rfl⟩, hchooses.ne_loopback, fun os o => ?_⟩
  intro row answer
  refine ⟨exists_row_of_answers rfl, fun hasked text i htext hi => ?_, fun hasked hnone => ?_⟩
  · exact answer_of_row rfl hasked (row?_eq_some_iff.mpr ⟨text, htext, hi⟩)
  · exact answer_of_no_row rfl hasked (row?_eq_none_iff.mpr hnone)

/-- A probe that has just been created. -/
def ofTable : NetworkProbe := ⟨⟨"/proc/net/dev"⟩, "eth0", none, .zero⟩

/-- The example follows the first interface that is not the loopback. -/
theorem create_ofTable :
    create ⟨"network", .empty, .telling "lo: 5 0 0 0 0 0 0 0 5\neth0: 1 0 0 0 0 0 0 0 2", .standard⟩ =
      .ok ofTable := rfl

/-- The row of the interface moves behind another one and is followed by a second row of its name; then
it vanishes. -/
theorem interface_of_run_moved :
    let moved : Occasion := ⟨1000, true,
      .telling "eth1: 1 0 0 0 0 0 0 0 2\neth0: 7 0 0 0 0 0 0 0 8\neth0: 9 0 0 0 0 0 0 0 9", .empty⟩
    let vanished : Occasion := ⟨2000, true, .telling "eth1: 3 0 0 0 0 0 0 0 4", .empty⟩
    create ⟨"network", .empty, .telling "lo: 5 0 0 0 0 0 0 0 5\neth0: 1 0 0 0 0 0 0 0 2", .standard⟩ =
        .ok ofTable ∧
      (∃ rates, (Sampler.answer (Sampler.after ofTable []) moved).builder.items.toList =
        metricsOfRow "eth0" ⟨"eth0", 7, 8⟩ rates) ∧
      (∃ f, (Sampler.answer (Sampler.after ofTable [moved]) vanished).fault = some f ∧ f.kind = .io) ∧
      (Sampler.answer (Sampler.after ofTable [moved]) vanished).builder = .empty := by
  intro moved vanished
  obtain ⟨_, _, hrun⟩ := interface_of_run create_ofTable
  have hmoved : Interface.parse
      "eth1: 1 0 0 0 0 0 0 0 2\neth0: 7 0 0 0 0 0 0 0 8\neth0: 9 0 0 0 0 0 0 0 9" =
        [⟨"eth1", 1, 2⟩] ++ ⟨"eth0", 7, 8⟩ :: [⟨"eth0", 9, 9⟩] := rfl
  have hvanished : Interface.parse "eth1: 3 0 0 0 0 0 0 0 4" = [⟨"eth1", 3, 4⟩] := rfl
  obtain ⟨_, hshown⟩ := (hrun [] moved).2.1 (Or.inl rfl) _ ⟨"eth0", 7, 8⟩ rfl
    ⟨_, _, hmoved, rfl, by decide⟩
  obtain ⟨hfault, hbuilder⟩ := (hrun [moved] vanished).2.2 (Or.inl rfl) fun text htext => by
    obtain rfl : "eth1: 3 0 0 0 0 0 0 0 4" = text := Except.ok.inj htext
    rw [hvanished]
    decide
  exact ⟨create_ofTable, hshown, hfault, hbuilder⟩

end NetworkProbe

end HostMeter
