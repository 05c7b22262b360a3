import HostMeter.Proofs.Monitor.Start
import HostMeter.Proofs.Probe.Sampling
import Mathlib.Data.List.Find
/-!
# Sources — what a probe asks its host about

A probe puts few queries to its host, and which ones they are is settled when it is created. Two hosts
that answer these alike cannot be told apart by the probe, whatever else is different about them.

* `Query`, `HostView.Alike`: the queries, and hosts that answer a query alike.
* `Sourced`: the kinds of probes whose refreshes depend on the probe's own sources alone.
* `Builtin.Kind.sources`: the sources of a kind, told from what its probe is created from.
* `Builtin.Kind.create_congr`, `Builtin.Kind.sources_of_create`: creation asks about these sources and
  no others, and the probe keeps to them.
-/

namespace HostMeter

/-! ## Queries

A host is known to the probes by four kinds of questions. Two hosts that answer one question alike may
differ in everything else. -/

/-- A query that a probe can put to its host. -/
inductive Query where
  | read (p : Path)
  | has (p : Path)
  | entries (p : Path)
  | usage (p : Path)

namespace HostView

/-- Do two hosts answer a query alike? -/
def Alike (host other : HostView) : Query → Prop
  | .read p => host.read p = other.read p
  | .has p => host.has p = other.has p
  | .entries p => host.entries p = other.entries p
  | .usage p => host.usage p = other.usage p

theorem Alike.refl (host : HostView) (q : Query) : host.Alike host q := by
  cases q <;> rfl

end HostView

/-! ## Refreshes

A refresh depends on the answers about a few sources, which are fixed with the probe. -/

/-- A kind of probe whose refreshes ask about the probe's own sources only, which stay the same. -/
class Sourced (σ : Type) [Sampler σ] where
  sources : σ → List Query
  refresh_congr {p : σ} {now : UInt64} {host other : HostView}
    (h : ∀ q ∈ sources p, host.Alike other q) :
    Sampler.refresh p now host = Sampler.refresh p now other
  sources_refresh {p p' : σ} {now : UInt64} {host : HostView}
    (h : Sampler.refresh p now host = .ok p') : sources p' = sources p

instance : Sourced CpuProbe where
  sources p := [.read p.source]
  refresh_congr {p _ host other} h := by
    have hread : host.read p.source = other.read p.source := h _ List.mem_cons_self
    show p.refresh host = p.refresh other
    rw [p.refresh_eq, p.refresh_eq, hread]
  sources_refresh h := by
    obtain ⟨_, _, _, _, rfl⟩ := CpuProbe.exists_of_refresh h
    rfl

instance : Sourced RamProbe where
  sources p := [.read p.source]
  refresh_congr {p _ host other} h := by
    have hread : host.read p.source = other.read p.source := h _ List.mem_cons_self
    show p.refresh host = p.refresh other
    rw [p.refresh_eq, p.refresh_eq, hread]
  sources_refresh h := by
    obtain ⟨_, _, rfl⟩ := RamProbe.exists_of_refresh h
    rfl

instance : Sourced BatteryProbe where
  sources p := [.read p.capacitySource, .read p.statusSource]
  refresh_congr {p _ host other} h := by
    have hcapacity : host.read p.capacitySource = other.read p.capacitySource :=
      h _ List.mem_cons_self
    have hstatus : host.read p.statusSource = other.read p.statusSource :=
      h (.read p.statusSource) (List.mem_cons_of_mem _ List.mem_cons_self)
    show p.refresh host = p.refresh other
    rw [p.refresh_eq, p.refresh_eq, hcapacity, hstatus]
  sources_refresh h := by
    obtain ⟨_, _, _, _, rfl⟩ := BatteryProbe.exists_of_refresh h
    rfl

instance : Sourced NetworkProbe where
  sources p := [.read p.source]
  refresh_congr {p now host other} h := by
    have hread : host.read p.source = other.read p.source := h _ List.mem_cons_self
    show p.refresh now host = p.refresh now other
    rw [p.refresh_eq, p.refresh_eq, hread]
  sources_refresh h := by
    obtain ⟨_, _, _, _, rfl⟩ := NetworkProbe.exists_of_refresh h
    rfl

instance : Sourced StorageProbe where
  sources p := [.usage p.path]
  refresh_congr {p _ host other} h := by
    have husage : host.usage p.path = other.usage p.path := h _ List.mem_cons_self
    show p.refresh host = p.refresh other
    rw [p.refresh_eq, p.refresh_eq, husage]
  sources_refresh h := by
    obtain ⟨_, _, rfl⟩ := StorageProbe.exists_of_refresh h
    rfl

/-- The sources of a kind stay the same under a constructor. -/
theorem Sourced.sources_of_map {α β : Type} [Sampler α] [Sourced α] (f : α → β)
    {sourcesOf : β → List Query} (hf : ∀ a, sourcesOf (f a) = sources a) {p : α} {now : UInt64}
    {host : HostView} {b : β} (h : f <$> Sampler.refresh p now host = .ok b) :
    sourcesOf b = sources p := by
  obtain ⟨p', hp', rfl⟩ := exists_of_map_ok h
  rw [hf, sources_refresh hp']

namespace Builtin

def sources : Builtin → List Query
  | .cpu p => Sourced.sources p
  | .ram p => Sourced.sources p
  | .battery p => Sourced.sources p
  | .network p => Sourced.sources p
  | .storage p => Sourced.sources p

instance : Sourced Builtin where
  sources := sources
  refresh_congr {p _ _ _} h := by
    cases p with
    | cpu p => exact congrArg (Builtin.cpu <$> ·) (Sourced.refresh_congr h)
    | ram p => exact congrArg (Builtin.ram <$> ·) (Sourced.refresh_congr h)
    | battery p => exact congrArg (Builtin.battery <$> ·) (Sourced.refresh_congr h)
    | network p => exact congrArg (Builtin.network <$> ·) (Sourced.refresh_congr h)
    | storage p => exact congrArg (Builtin.storage <$> ·) (Sourced.refresh_congr h)
  sources_refresh {p _ _ _} h := by
    cases p with
    | cpu p => exact Sourced.sources_of_map Builtin.cpu (fun _ => rfl) h
    | ram p => exact Sourced.sources_of_map Builtin.ram (fun _ => rfl) h
    | battery p => exact Sourced.sources_of_map Builtin.battery (fun _ => rfl) h
    | network p => exact Sourced.sources_of_map Builtin.network (fun _ => rfl) h
    | storage p => exact Sourced.sources_of_map Builtin.storage (fun _ => rfl) h

end Builtin

/-! ## Creation

Before there is a probe, its sources follow from the kind, the roots and the options of its own section.
Those of the battery depend on what the host lists. -/

/-- The power supplies that a host lists. -/
def BatteryProbe.listed (c : Context) : List Path :=
  (c.host.entries (c.sysPath "class/power_supply")).toOption.getD []

/-- The sources of a kind of probe: the file it reads, the power supplies and the files of those that
are listed, or the mount at the configured path. -/
def Builtin.Kind.sources (k : Builtin.Kind) (c : Context) : List Query :=
  match k with
  | .cpu => [.read (c.procPath "stat")]
  | .ram => [.read (c.procPath "meminfo")]
  | .battery =>
    .entries (c.sysPath "class/power_supply") :: (BatteryProbe.listed c).flatMap fun supply =>
      [.has (supply.join "capacity"), .read (supply.join "capacity"), .read (supply.join "status")]
  | .network => [.read (c.procPath "net/dev")]
  | .storage => [.usage ⟨(c.option? "path").getD StorageProbe.defaultPath⟩]

/-- Are two probes created from the same settings of their own, and below the same roots? -/
structure Context.SameOwn (c other : Context) : Prop where
  name : c.name = other.name
  own : ∀ key, c.settings.get? c.heading key = other.settings.get? c.heading key
  roots : c.roots = other.roots

namespace Context.SameOwn

variable {c other : Context}

theorem heading (h : c.SameOwn other) : c.heading = other.heading := by
  rw [Context.heading, Context.heading, h.name]

theorem option? (h : c.SameOwn other) (key : String) : c.option? key = other.option? key := by
  rw [Context.option?, Context.option?, h.own, h.heading]

theorem flag (h : c.SameOwn other) (key : String) (default : Bool) :
    c.flag key default = other.flag key default := by
  rw [Context.flag, Context.flag, Ini.flag, Ini.flag, h.own, h.heading]

theorem procPath (h : c.SameOwn other) (below : String) : c.procPath below = other.procPath below := by
  rw [Context.procPath, Context.procPath, h.roots]

theorem sysPath (h : c.SameOwn other) (below : String) : c.sysPath below = other.sysPath below := by
  rw [Context.sysPath, Context.sysPath, h.roots]

end Context.SameOwn

/-- A source is read alike on two hosts that answer alike about it, faults included. -/
theorem readSource_congr {host other : HostView} {p : Path} (h : host.Alike other (.read p)) :
    readSource host p = readSource other p := by
  have hread : host.read p = other.read p := h
  rw [readSource, readSource, hread]

theorem CpuProbe.create_congr {c other : Context} (h : c.SameOwn other)
    (hhost : c.host.Alike other.host (.read (c.procPath "stat"))) : create c = create other := by
  rw [create, create, readStat, readStat, ← h.procPath, readSource_congr hhost]

theorem RamProbe.create_congr {c other : Context} (h : c.SameOwn other)
    (hhost : c.host.Alike other.host (.read (c.procPath "meminfo"))) : create c = create other := by
  rw [create, create, ← h.procPath, readSource_congr hhost]

/-- A probe of traffic is created alike if its file is; the options that choose the interface are its own.
-/
theorem NetworkProbe.create_congr {c other : Context} (h : c.SameOwn other)
    (hhost : c.host.Alike other.host (.read (c.procPath "net/dev"))) : create c = create other := by
  rw [create, create, ← h.procPath, readSource_congr hhost, h.option?, h.flag]

/-- A probe of a file system is created alike if the answer about its path is. -/
theorem StorageProbe.create_congr {c other : Context} (h : c.SameOwn other)
    (hhost : c.host.Alike other.host (.usage ⟨(c.option? "path").getD defaultPath⟩)) :
    create c = create other := by
  have husage : c.host.usage ⟨(c.option? "path").getD defaultPath⟩ =
    other.host.usage ⟨(c.option? "path").getD defaultPath⟩ := hhost
  rw [create, create, ← h.option?, husage]

namespace BatteryProbe

/-- The battery that is chosen is one of the supplies that are listed. -/
theorem mem_listed_of_choose? {c : Context} {battery : Path}
    (h : choose? c.host (c.sysPath "class/power_supply") = some battery) : battery ∈ listed c := by
  rw [choose?] at h
  split at h
  · next entries hentries =>
    have hmem : battery ∈ entries := List.mem_mergeSort.mp (List.mem_of_find?_eq_some h)
    rw [listed, hentries]
    exact hmem
  · cases h

/-- A probe of a battery is created alike if the listing is, and the answers to which of the listed supplies
have a capacity. No file is read. -/
theorem create_congr {c other : Context} (h : c.SameOwn other)
    (hentries : c.host.Alike other.host (.entries (c.sysPath "class/power_supply")))
    (hhas : ∀ supply ∈ listed c, c.host.Alike other.host (.has (supply.join "capacity"))) :
    create c = create other := by
  have hlisted : c.host.entries (c.sysPath "class/power_supply") =
    other.host.entries (c.sysPath "class/power_supply") := hentries
  have hchoose : choose? c.host (c.sysPath "class/power_supply") =
      choose? other.host (c.sysPath "class/power_supply") := by
    rw [choose?, choose?, ← hlisted]
    cases hentries : c.host.entries (c.sysPath "class/power_supply") with
    -- without a listing there is no battery on either host
    | error cause => rfl
    | ok entries =>
      -- the first supply with a capacity is the same, since each of them is tested alike
      refine List.find?_congr fun supply hsupply => ?_
      have hmem : supply ∈ listed c := by
        rw [listed, hentries]
        exact List.mem_mergeSort.mp hsupply
      rw [isBattery, isBattery, show c.host.has (supply.join "capacity") = _ from hhas supply hmem]
  rw [create, create, ← h.sysPath, hchoose]

end BatteryProbe

namespace Builtin.Kind

/-- Two hosts that answer alike about the sources of a battery do so about the files of every listed supply.
-/
theorem alike_of_supply {c : Context} {host other : HostView}
    (h : ∀ q ∈ Kind.battery.sources c, host.Alike other q) {supply : Path}
    (hsupply : supply ∈ BatteryProbe.listed c) {q : Query}
    (hq : q ∈ [Query.has (supply.join "capacity"), .read (supply.join "capacity"),
      .read (supply.join "status")]) : host.Alike other q :=
  h q (List.mem_cons_of_mem _ (List.mem_flatMap.mpr ⟨supply, hsupply, hq⟩))

/-- **Creation asks about the sources of the kind and no others.** -/
theorem create_congr {k : Kind} {c other : Context} (h : c.SameOwn other)
    (hhost : ∀ q ∈ k.sources c, c.host.Alike other.host q) : k.create c = k.create other := by
  cases k with
  | cpu => exact congrArg (Builtin.cpu <$> ·) (CpuProbe.create_congr h (hhost _ List.mem_cons_self))
  | ram => exact congrArg (Builtin.ram <$> ·) (RamProbe.create_congr h (hhost _ List.mem_cons_self))
  | battery =>
    refine congrArg (Builtin.battery <$> ·)
      (BatteryProbe.create_congr h (hhost _ List.mem_cons_self) fun supply hsupply => ?_)
    exact alike_of_supply hhost hsupply List.mem_cons_self
  | network =>
    exact congrArg (Builtin.network <$> ·) (NetworkProbe.create_congr h (hhost _ List.mem_cons_self))
  | storage =>
    exact congrArg (Builtin.storage <$> ·) (StorageProbe.create_congr h (hhost _ List.mem_cons_self))

/-- **A probe keeps to the sources of its kind.** -/
theorem sources_of_create {k : Kind} {c : Context} {p : Builtin} (h : k.create c = .ok p) :
    ∀ q ∈ Sourced.sources p, q ∈ k.sources c := by
  cases k with
  | cpu =>
    obtain ⟨probe, hprobe, rfl⟩ := exists_of_map_ok h
    obtain ⟨cores, rfl⟩ := CpuProbe.eq_of_create hprobe
    exact fun q hq => hq
  | ram =>
    obtain ⟨probe, hprobe, rfl⟩ := exists_of_map_ok h
    obtain ⟨total, rfl⟩ := RamProbe.eq_of_create hprobe
    exact fun q hq => hq
  | battery =>
    obtain ⟨probe, hprobe, rfl⟩ := exists_of_map_ok h
    obtain ⟨battery, hbattery, rfl⟩ := BatteryProbe.eq_of_create hprobe
    -- of the files of the listed supplies, the probe keeps to those of one
    intro q hq
    exact List.mem_cons_of_mem _ (List.mem_flatMap.mpr
      ⟨battery, BatteryProbe.mem_listed_of_choose? hbattery, List.mem_cons_of_mem _ hq⟩)
  | network =>
    obtain ⟨probe, hprobe, rfl⟩ := exists_of_map_ok h
    obtain ⟨interface, rfl⟩ := NetworkProbe.eq_of_create hprobe
    exact fun q hq => hq
  | storage =>
    obtain ⟨probe, hprobe, rfl⟩ := exists_of_map_ok h
    rw [StorageProbe.eq_of_create hprobe]
    exact fun q hq => hq

end Builtin.Kind

end HostMeter
