import HostMeter.Proofs.Path.Order
import HostMeter.Proofs.Percent
import HostMeter.Proofs.Probe.Readings
import HostMeter.Proofs.Text.Numerals
/-!
# Supply — one battery for life

The directory of the power supplies is listed in any order, and not every supply is a battery or tells its
capacity. The probe takes the least of those that do in path order, so it is the same one however they are
listed, and from then on it asks for two files of this supply and for nothing else. Supplies that come
later, a lesser one among them, are not looked at.

* `BatteryProbe.IsSupply`: the entries that can be followed.
* `BatteryProbe.exists_create_iff`, `BatteryProbe.isLeast_of_create`: when a probe can be created, and what
  it follows; `BatteryProbe.create_of_perm`: whatever the order of the listing.
* `BatteryProbe.Tells`, `BatteryProbe.told?`: what a host tells of a supply; `BatteryProbe.Shows`: the
  metrics for it.
* `BatteryProbe.supply_of_run`: the law.
-/

namespace HostMeter

namespace BatteryProbe

/-! ## The choice

Sorting and searching are told as a least element among those that can be followed. Thus the order of the
listing does not show. -/

/-- Is this the entry of a battery whose capacity is there? -/
structure IsSupply (host : HostView) (entry : Path) : Prop where
  named : ∃ rest, entry.fileName? = some ('B' :: 'A' :: 'T' :: rest)
  capacity : host.has (entry.join "capacity") = true

/-- A name that starts like that of a battery has the three letters in front. -/
theorem isPrefixOf_nameStart_iff {cs : List Char} :
    nameStart.isPrefixOf cs = true ↔ ∃ rest, cs = 'B' :: 'A' :: 'T' :: rest := by
  rw [List.isPrefixOf_iff_prefix]
  constructor
  · rintro ⟨rest, rfl⟩
    exact ⟨rest, rfl⟩
  · rintro ⟨rest, rfl⟩
    exact ⟨rest, rfl⟩

/-- The test of the program is that of the name and of the capacity. -/
theorem isBattery_iff {host : HostView} (entry : Path) :
    isBattery host entry = true ↔ IsSupply host entry := by
  rw [isBattery, Bool.and_eq_true]
  constructor
  · rintro ⟨hname, hcapacity⟩
    split at hname
    · next cs hcs =>
      obtain ⟨rest, rfl⟩ := isPrefixOf_nameStart_iff.mp hname
      exact ⟨⟨rest, hcs⟩, hcapacity⟩
    · cases hname
  · rintro ⟨⟨rest, hrest⟩, hcapacity⟩
    rw [hrest]
    exact ⟨isPrefixOf_nameStart_iff.mpr ⟨rest, rfl⟩, hcapacity⟩

/-- Of a listing, the first supply in the order of paths is chosen. -/
theorem choose?_of_entries {host : HostView} {directory : Path} {entries : List Path}
    (h : host.entries directory = .ok entries) :
    choose? host directory = (entries.mergeSort Path.le).find? (isBattery host) := by
  rw [choose?, h]

/-- The probe for a supply, before its first sample. -/
def ofSupply (supply : Path) : BatteryProbe := ⟨supply.join "capacity", supply.join "status", none⟩

@[simp] theorem capacitySource_ofSupply (supply : Path) :
    (ofSupply supply).capacitySource = supply.join "capacity" := rfl

@[simp] theorem statusSource_ofSupply (supply : Path) :
    (ofSupply supply).statusSource = supply.join "status" := rfl

variable {c : Context}

theorem isName_capacity : Path.IsName "capacity" := ⟨by decide, by decide, by decide⟩

theorem isName_status : Path.IsName "status" := ⟨by decide, by decide, by decide⟩

/-- A probe is created exactly for a supply that was chosen. -/
theorem create_eq_ok_iff {p : BatteryProbe} :
    create c = .ok p ↔
      ∃ supply, choose? c.host (c.sysPath "class/power_supply") = some supply ∧ p = ofSupply supply := by
  refine ⟨eq_of_create, ?_⟩
  rintro ⟨supply, hsupply, rfl⟩
  rw [create]
  simp only [hsupply]
  rfl

/-- **When a probe of the battery can be created.** -/
theorem exists_create_iff :
    (∃ p, create c = .ok p) ↔ ∃ entries, c.host.entries (c.sysPath "class/power_supply") = .ok entries ∧
      ∃ e ∈ entries, IsSupply c.host e := by
  have hchoose : (∃ p, create c = .ok p) ↔
      ∃ supply, choose? c.host (c.sysPath "class/power_supply") = some supply := by
    simp only [create_eq_ok_iff]
    constructor
    · rintro ⟨_, supply, hsupply, _⟩
      exact ⟨supply, hsupply⟩
    · rintro ⟨supply, hsupply⟩
      exact ⟨_, supply, hsupply, rfl⟩
  rw [hchoose]
  cases hentries : c.host.entries (c.sysPath "class/power_supply") with
  -- nothing is listed
  | error cause => simp [choose?, hentries]
  -- a least supply is there if any is
  | ok entries =>
    rw [choose?_of_entries hentries, Path.exists_find?_mergeSort isBattery_iff]
    simp

/-- **It follows the least supply that can be followed.** -/
theorem isLeast_of_create {p : BatteryProbe} (h : create c = .ok p) :
    ∃ entries supply, c.host.entries (c.sysPath "class/power_supply") = .ok entries ∧
      Path.IsLeast (IsSupply c.host) entries supply ∧ p = ofSupply supply := by
  obtain ⟨supply, hsupply, rfl⟩ := create_eq_ok_iff.mp h
  cases hentries : c.host.entries (c.sysPath "class/power_supply") with
  | error cause =>
    rw [choose?, hentries] at hsupply
    cases hsupply
  | ok entries =>
    rw [choose?_of_entries hentries] at hsupply
    exact ⟨entries, supply, rfl, Path.find?_mergeSort_isLeast isBattery_iff hsupply, rfl⟩

/-- A host that lists the same supplies in another order, and has the same capacities, leads to the same
supply. -/
theorem create_of_perm {entries entries' : List Path} {supply : Path} {host : HostView}
    (hsupply : Path.IsLeast (IsSupply c.host) entries supply)
    (hentries : host.entries (c.sysPath "class/power_supply") = .ok entries') (hperm : entries.Perm entries')
    (hhas : ∀ e ∈ entries, host.has (e.join "capacity") = c.host.has (e.join "capacity")) :
    ∃ supply', create { c with host } = .ok (ofSupply supply') ∧ supply'.Same supply ∧
      ((∀ a ∈ entries, ∀ b ∈ entries, a.Same b → a = b) → supply' = supply) := by
  have halike : ∀ e ∈ entries, IsSupply c.host e ↔ IsSupply host e := fun e he =>
    ⟨fun h => ⟨h.named, (hhas e he).trans h.capacity⟩, fun h => ⟨h.named, (hhas e he).symm.trans h.capacity⟩⟩
  have hleast := hsupply.congr halike
  have hcreate : ∃ p, create { c with host } = .ok p :=
    exists_create_iff.mpr ⟨entries', hentries, supply, hperm.mem_iff.mp hleast.mem, hleast.meets⟩
  obtain ⟨p, hp⟩ := hcreate
  obtain ⟨listed, supply', hlisted, hleast', rfl⟩ := isLeast_of_create hp
  obtain rfl : entries' = listed := Except.ok.inj (hentries.symm.trans hlisted)
  refine ⟨supply', hp, (hleast.same_of_perm hleast' hperm).symm, fun hspelling => ?_⟩
  exact (hleast.eq_of_perm hleast' hperm hspelling).symm

/-! ## What a host tells of a supply

The capacity has to be a numeral, and the state may be missing. Both are told without the functions that
read them. -/

/-- The state that the answer to a query for it tells: its text between blanks, and if there is none, that
it is not known. -/
inductive IsStatus (answer : Except HostFault String) : String → Prop where
  | told {text} (h : answer = .ok text) (hne : Text.trim text.toList ≠ []) :
      IsStatus answer (String.ofList (Text.trim text.toList))
  | unknown (h : ∀ text, answer = .ok text → Text.trim text.toList = []) : IsStatus answer "unknown"

/-- A host tells a capacity, as a numeral between blanks, and a state. -/
structure Tells (host : HostView) (supply : Path) (capacity : UInt32) (status : String) : Prop where
  capacity : ∃ text, host.read (supply.join "capacity") = .ok text ∧
    Text.IsNumeral (Text.trim text.toList) capacity.toNat
  status : IsStatus (host.read (supply.join "status")) status

/-- **The state that the program makes of an answer is the one that the answer tells.** -/
theorem statusOf_eq_iff {answer : Except HostFault String} {status : String} :
    BatterySample.statusOf answer.toOption = status ↔ IsStatus answer status := by
  have hstatus : IsStatus answer (BatterySample.statusOf answer.toOption) := by
    cases answer with
    -- the state cannot be read
    | error cause => exact .unknown nofun
    | ok text =>
      rw [Except.toOption, BatterySample.statusOf, Option.map_some]
      dsimp only
      split
      · next hempty =>
        -- it is blank
        refine .unknown fun text' h => ?_
        obtain rfl : text = text' := Except.ok.inj h
        exact List.isEmpty_iff.mp hempty
      · -- it is told
        next hfull => exact .told rfl (mt List.isEmpty_iff.mpr hfull)
  constructor
  · rintro rfl
    exact hstatus
  · -- there are no two states that an answer tells
    intro h
    generalize BatterySample.statusOf answer.toOption = status' at hstatus
    cases h with
    | told h hne =>
      cases hstatus with
      | told h' _ => rw [Except.ok.inj (h.symm.trans h')]
      | unknown hnone => exact absurd (hnone _ h) hne
    | unknown hnone =>
      cases hstatus with
      | told h' hne => exact absurd (hnone _ h') hne
      | unknown _ => rfl

/-- The state is never empty. -/
theorem IsStatus.ne_empty {answer : Except HostFault String} {status : String} (h : IsStatus answer status) :
    status ≠ "" := by
  cases h with
  | told h hne => exact fun hempty => hne (String.ofList_eq_empty_iff.mp hempty)
  | unknown _ => decide

/-- The capacity and the state that a host tells of a supply. -/
def told? (supply : Path) (host : HostView) : Option (UInt32 × String) :=
  (host.read (supply.join "capacity")).toOption.bind fun text =>
    (Text.uint32? (Text.trim text.toList)).map fun capacity =>
      (capacity, BatterySample.statusOf (host.read (supply.join "status")).toOption)

/-- What a host tells of a supply, as an option. -/
theorem told?_eq_some_iff {supply : Path} {host : HostView} {capacity : UInt32} {status : String} :
    told? supply host = some (capacity, status) ↔ Tells host supply capacity status := by
  rw [told?, Option.bind_eq_some_iff]
  simp only [toOption_eq_some_iff, Option.map_eq_some_iff, Text.uint32?_eq_some_iff, Prod.mk.injEq]
  constructor
  · rintro ⟨text, htext, n, hn, rfl, hstatus⟩
    exact ⟨⟨text, htext, hn⟩, statusOf_eq_iff.mp hstatus⟩
  · rintro ⟨⟨text, htext, hcapacity⟩, hstatus⟩
    exact ⟨text, htext, capacity, hcapacity, rfl, statusOf_eq_iff.mpr hstatus⟩

/-! ## The metrics for it

The charge and the state as a user sees them. -/

/-- What a probe shows for a capacity and a state: the capacity as a whole number, up to one hundred, and
one or zero, according to whether the state is that of being charged, in whatever case it is written. -/
inductive Shows (capacity : UInt32) (status : String) : List Metric → Prop where
  | intro (percent : Binary64) (charging : Int64)
      (hpercent : percent.toRat = (min capacity.toNat 100 : ℕ))
      (hbit : charging = 0 ∨ charging = 1)
      (hcharging : charging = 1 ↔ lowerCase status = "charging".toList)
      (hstatus : status ≠ "") :
      Shows capacity status
        [⟨"battery.percent", some "%", .double percent⟩,
         ⟨"battery.is_charging", none, .int64 charging⟩,
         ⟨"battery.status", none, .text status⟩]

/-- A capacity is cut at a hundred. -/
theorem toNat_min_fullCharge (capacity : UInt32) :
    (min capacity BatterySample.fullCharge).toNat = min capacity.toNat 100 := by
  show (if capacity ≤ BatterySample.fullCharge then capacity else BatterySample.fullCharge).toNat = _
  split
  · next h => exact (Nat.min_eq_left (UInt32.le_iff_toNat_le.mp h)).symm
  · next h => exact (Nat.min_eq_right (Nat.le_of_not_le (mt UInt32.le_iff_toNat_le.mpr h))).symm

/-- The metrics of a sample show its capacity and its state. -/
theorem shows_metricsOf (capacity : UInt32) {status : String} (hstatus : status ≠ "") :
    Shows capacity status (metricsOf ⟨min capacity BatterySample.fullCharge, status⟩) := by
  have hsmall : min capacity.toNat 100 < 2 * Binary64.fractionCount :=
    Nat.lt_of_le_of_lt (Nat.min_le_right _ _) (by decide)
  have hcharging : BatterySample.isCharging ⟨min capacity BatterySample.fullCharge, status⟩ = true ↔
      lowerCase status = "charging".toList := beq_iff_eq
  refine .intro _ _ ?_ ?_ ?_ hstatus
  · rw [toNat_min_fullCharge, Binary64.toRat_ofNat hsmall]
  · split
    · exact Or.inr rfl
    · exact Or.inl rfl
  · rw [← hcharging]
    split
    · next h => simp [h]
    · next h => simp [h]

/-! ## Runs

A probe of the battery keeps its last sample only, so it shows its last reading. -/

/-- What a refresh records. -/
def readSample (p : BatteryProbe) (host : HostView) : Except Fault BatterySample := do
  let text ← readSource host p.capacitySource
  let capacity ← (Attribute.parse text).mapError (malformed p.capacitySource)
  return ⟨min capacity BatterySample.fullCharge, BatterySample.statusOf (host.read p.statusSource).toOption⟩

instance : Recorder BatteryProbe BatterySample where
  read p _ host := p.readSample host
  record p s := { p with last := some s }
  refresh_eq p _ host := by
    show p.refresh host = _
    rw [refresh, readSample]
    cases readSource host p.capacitySource with
    | error f => rfl
    | ok text =>
      simp only [bind, Except.bind]
      cases (Attribute.parse text).mapError (malformed p.capacitySource) <;> rfl
  read_record _ _ := rfl
  sampled_record _ _ := rfl

/-- A reading is what the host tells of the followed supply. -/
theorem reading_eq (supply : Path) :
    Recorder.reading (ofSupply supply) = fun o =>
      (told? supply o.host).map fun told => ⟨min told.1 BatterySample.fullCharge, told.2⟩ := by
  funext o
  show ((ofSupply supply).readSample o.host).toOption = _
  rw [readSample, readSource_eq, told?, capacitySource_ofSupply, statusSource_ofSupply]
  cases o.host.read (supply.join "capacity") with
  | error cause => rfl
  | ok text =>
    simp only [bind, Except.bind, Attribute.parse, Except.toOption, Option.bind_some]
    cases Text.uint32? (Text.trim text.toList) <;> rfl

/-- A probe that answers shows what its host told when it was last read. -/
theorem shows_of_answers {supply : Path} {os : List Occasion} {o : Occasion}
    (h : (Sampler.answer (Sampler.after (ofSupply supply) os) o).fault = none) :
    ∃ o' capacity status added,
      IsLastReading (fun o => told? supply o.host) (os ++ [o]) o' (capacity, status) ∧
      Tells o'.host supply capacity status ∧
      (Sampler.answer (Sampler.after (ofSupply supply) os) o).builder.items.toList =
        o.builder.items.toList ++ added ∧
      Shows capacity status added := by
  obtain ⟨o', s, hlast, hitems⟩ := Recorder.exists_metrics_of_answers (fun _ _ _ => rfl) rfl h
  rw [reading_eq] at hlast
  obtain ⟨⟨capacity, status⟩, htold, rfl⟩ := hlast.exists_of_map
  have htells : Tells o'.host supply capacity status := told?_eq_some_iff.mp htold.reading_eq
  exact ⟨o', capacity, status, _, htold, htells, hitems, shows_metricsOf capacity htells.status.ne_empty⟩

/-- A probe answers if its host tells of the supply now, or has told of it before and no refresh is due. -/
theorem answers_iff (supply : Path) (os : List Occasion) (o : Occasion) :
    (Sampler.answer (Sampler.after (ofSupply supply) os) o).fault = none ↔
      (∃ capacity status, Tells o.host supply capacity status) ∨
        o.due = false ∧ ∃ e ∈ os, ∃ capacity status, Tells e.host supply capacity status := by
  have htold : ∀ host, told? supply host ≠ none ↔ ∃ capacity status, Tells host supply capacity status := by
    intro host
    simp only [Option.ne_none_iff_exists', Prod.exists, told?_eq_some_iff]
  rw [Recorder.answers_iff rfl, reading_eq]
  simp only [Ne, Option.map_eq_none_iff, ← htold]

/-- **The law of the followed battery.**

* A probe of the battery can be created exactly if the directory of the power supplies is listed and one
  of its entries is a battery with a capacity. The probe follows the least of these in path order.
* If another host lists the same entries in another order, and has the same capacities, it follows the same
  one there, and if no entry comes in two spellings, even in the same spelling.
* Ask it on any occasions, whatever their hosts have become, the last of which is `o`. It answers exactly
  if that supply tells its capacity now, or if no refresh is due and it told it before. Then it shows the
  capacity and the state of that supply at the last reading: a whole number up to one hundred, a state that
  is not empty, and one for the state of being charged and zero for all others. -/
theorem supply_of_run (c : Context) :
    ((∃ p, create c = .ok p) ↔ ∃ entries, c.host.entries (c.sysPath "class/power_supply") = .ok entries ∧
      ∃ e ∈ entries, IsSupply c.host e) ∧
    ∀ p, create c = .ok p → ∃ entries supply,
      c.host.entries (c.sysPath "class/power_supply") = .ok entries ∧
      Path.IsLeast (IsSupply c.host) entries supply ∧ p = ofSupply supply ∧
      (∀ host entries', host.entries (c.sysPath "class/power_supply") = .ok entries' →
        entries.Perm entries' →
        (∀ e ∈ entries, host.has (e.join "capacity") = c.host.has (e.join "capacity")) →
        ∃ supply', create { c with host } = .ok (ofSupply supply') ∧ supply'.Same supply ∧
          (supply'.join "capacity").Same (supply.join "capacity") ∧
          (supply'.join "status").Same (supply.join "status") ∧
          ((∀ a ∈ entries, ∀ b ∈ entries, a.Same b → a = b) → supply' = supply)) ∧
      ∀ (os : List Occasion) (o : Occasion),
        let answer := Sampler.answer (Sampler.after p os) o
        (answer.fault = none ↔ (∃ capacity status, Tells o.host supply capacity status) ∨
          o.due = false ∧ ∃ e ∈ os, ∃ capacity status, Tells e.host supply capacity status) ∧
        (answer.fault = none → ∃ o' capacity status added,
          IsLastReading (fun o => told? supply o.host) (os ++ [o]) o' (capacity, status) ∧
          Tells o'.host supply capacity status ∧
          answer.builder.items.toList = o.builder.items.toList ++ added ∧
          Shows capacity status added) := by
  refine ⟨exists_create_iff, fun p hp => ?_⟩
  obtain ⟨entries, supply, hentries, hleast, rfl⟩ := isLeast_of_create hp
  refine ⟨entries, supply, hentries, hleast, rfl, fun host entries' hlisted hperm hhas => ?_, fun os o =>
    ⟨answers_iff supply os o, shows_of_answers⟩⟩
  obtain ⟨supply', hcreate, hsame, hspelling⟩ := create_of_perm hleast hlisted hperm hhas
  exact ⟨supply', hcreate, hsame, hsame.join isName_capacity, hsame.join isName_status, hspelling⟩

/-- The entry of a power supply. -/
def supplyAt (name : String) : Path := ⟨"/sys/class/power_supply/" ++ name⟩

/-- A host that lists some power supplies, of which some have a capacity. One of them is charged beyond its
capacity and is still being charged. -/
def docked (listed charged : List String) : HostView :=
  { HostView.wired with
    entries := fun _ => .ok (listed.map supplyAt)
    has := fun p => charged.any fun name => p == (supplyAt name).join "capacity"
    read := fun p =>
      if p = (supplyAt "BAT1").join "capacity" then .ok " 105\n"
      else if p = (supplyAt "BAT1").join "status" then .ok "cHARGING\n"
      else .error .noEntry }

/-- Of four supplies in either order, one is no battery and the least battery has no capacity. The probe
follows the next one, and keeps to it when the least one has a capacity. -/
theorem supply_of_run_docked :
    let c : Context := ⟨"battery", .empty, docked ["BAT2", "AC", "BAT1", "BAT0"] ["BAT2", "BAT1", "AC"], .standard⟩
    let reversed := docked ["BAT0", "BAT1", "AC", "BAT2"] ["BAT2", "BAT1", "AC"]
    let o : Occasion := ⟨1000, true, docked ["BAT0", "BAT1"] ["BAT0", "BAT1"], .empty⟩
    create c = .ok (ofSupply (supplyAt "BAT1")) ∧
      create { c with host := reversed } = .ok (ofSupply (supplyAt "BAT1")) ∧
      ∃ percent, (Sampler.answer (Sampler.after (ofSupply (supplyAt "BAT1")) []) o).builder.items.toList =
        [⟨"battery.percent", some "%", .double percent⟩, ⟨"battery.is_charging", none, .int64 1⟩,
         ⟨"battery.status", none, .text "cHARGING"⟩] ∧ percent.toRat = 100 := by
  intro c reversed o
  have hbattery : IsSupply c.host (supplyAt "BAT1") := ⟨⟨['1'], by decide +kernel⟩, by decide +kernel⟩
  have hmem : supplyAt "BAT1" ∈ ["BAT2", "AC", "BAT1", "BAT0"].map supplyAt := by decide
  obtain ⟨p, hp⟩ := (supply_of_run c).1.mpr ⟨_, rfl, _, hmem, hbattery⟩
  obtain ⟨entries, supply, hentries, hleast, rfl, horder, hrun⟩ := (supply_of_run c).2 p hp
  obtain rfl : ["BAT2", "AC", "BAT1", "BAT0"].map supplyAt = entries := Except.ok.inj hentries
  obtain rfl : supply = supplyAt "BAT1" := by
    have hle := hleast.least _ hmem hbattery
    obtain ⟨name, hname, rfl⟩ := List.mem_map.mp hleast.mem
    simp only [List.mem_cons, List.not_mem_nil, or_false] at hname
    rcases hname with rfl | rfl | rfl | rfl
    · exact absurd hle (by decide +kernel)
    · exact absurd ((isBattery_iff _).mpr hleast.meets) (by decide +kernel)
    · rfl
    · exact absurd ((isBattery_iff _).mpr hleast.meets) (by decide +kernel)
  obtain ⟨supply', hreversed, _, _, _, hspelling⟩ :=
    horder reversed (["BAT0", "BAT1", "AC", "BAT2"].map supplyAt) rfl (by decide) (by decide +kernel)
  rw [hspelling (by decide +kernel)] at hreversed
  obtain ⟨hanswers, hshown⟩ := hrun [] o
  have htells : Tells o.host (supplyAt "BAT1") 105 "cHARGING" := told?_eq_some_iff.mp (by decide +kernel)
  obtain ⟨_, capacity, status, added, hlast, _, hitems, hshows⟩ := hshown (hanswers.mpr (Or.inl ⟨_, _, htells⟩))
  obtain ⟨rfl, htold⟩ := hlast.unique (.last (told?_eq_some_iff.mpr htells) (Or.inl rfl))
  obtain ⟨rfl, rfl⟩ := Prod.mk.inj htold
  obtain ⟨percent, charging, hpercent, _, hcharging, _⟩ := hshows
  rw [hcharging.mpr (by decide +kernel)] at hitems
  refine ⟨hp, hreversed, percent, hitems, ?_⟩
  rw [hpercent]
  rfl

end BatteryProbe

end HostMeter
