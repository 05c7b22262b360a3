import HostMeter.Counters.FormatFault
import HostMeter.Settings.Values
import HostMeter.Snapshot.Builder
/-!
# Probes — what takes measurements

A probe is created from its settings and a view of the host, and is then asked for its metrics in
every round. The monitor tells it the time of the round and whether a refresh is due.

* `Context`: what a probe is created from.
* `Probe`: how a probe answers a round.
* `Sampler`: a probe that keeps its last sample. It asks the host only when a refresh is due or it has
  no sample yet, and a refresh that fails leaves it as it was (`Sampler.poll_of_refresh_error`).
-/

namespace HostMeter

/-! ## Creation -/

structure Context where
  name : String
  settings : Ini
  host : HostView
  roots : Roots

namespace Context

def heading (c : Context) : String := ProbeSettings.heading c.name

/-- A configured text of the probe; an empty one counts as absent. -/
def option? (c : Context) (key : String) : Option String :=
  (c.settings.get? c.heading key).filter fun v => !v.isEmpty

/-- Is a key of the probe set to a text, which is not empty? -/
def Sets (c : Context) (key value : String) : Prop :=
  c.settings.get? c.heading key = some value ∧ value ≠ ""

theorem option?_eq_some_iff {c : Context} {key value : String} :
    c.option? key = some value ↔ c.Sets key value := by
  simp [option?, Sets, Option.filter_eq_some_iff]

theorem option?_eq_none_iff {c : Context} {key : String} :
    c.option? key = none ↔ ∀ value, ¬c.Sets key value := by
  rw [Option.eq_none_iff_forall_ne_some]
  exact forall_congr' fun _ => not_congr option?_eq_some_iff

def flag (c : Context) (key : String) (default : Bool) : Bool :=
  c.settings.flag c.heading key default

/-- Does the configuration decide so with a key of the probe? -/
def Decides (c : Context) (key : String) (default b : Bool) : Prop :=
  c.settings.Decides c.heading key default b

theorem flag_eq_iff {c : Context} {key : String} {default b : Bool} :
    c.flag key default = b ↔ c.Decides key default b := Ini.flag_eq_iff

/-- A file below the root of process information. -/
def procPath (c : Context) (below : String) : Path := (Path.mk c.roots.proc).join below

def sysPath (c : Context) (below : String) : Path := (Path.mk c.roots.sys).join below

end Context

/-! ## Sources -/

def readingContext (p : Path) : String := "failed to read " ++ p.text

def readSource (host : HostView) (p : Path) : Except Fault String :=
  (host.read p).mapError fun cause => .io (readingContext p) cause

/-- A malformed source is a fault of parsing that names the file. -/
def malformed (p : Path) (f : FormatFault) : Fault := .parse (p.text ++ ": " ++ f.message)

/-! ## Rounds -/

/-- The answer of a probe to a round: the probe afterwards, the builder with its metrics, and the
fault that it met. -/
structure Polled (σ : Type) where
  probe : σ
  builder : Builder
  fault : Option Fault

class Probe (σ : Type) where
  /-- Adds the probe's metrics at the time `now`. -/
  poll (probe : σ) (now : UInt64) (due : Bool) (host : HostView) (builder : Builder) : Polled σ

/-- How a probe that keeps its last sample works. -/
class Sampler (σ : Type) where
  sampled (probe : σ) : Bool
  refresh (probe : σ) (now : UInt64) (host : HostView) : Except Fault σ
  metrics (probe : σ) : List Metric

namespace Sampler

variable {σ : Type} [Sampler σ]

def emit (probe : σ) (builder : Builder) : Polled σ :=
  let (builder, fault) := builder.pushAll (metrics probe)
  ⟨probe, builder, fault⟩

/-- Takes a new sample if one is due or there is none, and adds the metrics of the last one. -/
def poll (probe : σ) (now : UInt64) (due : Bool) (host : HostView) (builder : Builder) :
    Polled σ :=
  if due || !sampled probe then
    match refresh probe now host with
    | .ok probe => emit probe builder
    | .error fault => ⟨probe, builder, some fault⟩
  else emit probe builder

theorem poll_of_refresh_ok {probe refreshed : σ} {now : UInt64} {due : Bool} {host : HostView}
    {builder : Builder} (hd : (due || !sampled probe) = true)
    (hr : refresh probe now host = .ok refreshed) :
    poll probe now due host builder = emit refreshed builder := by
  simp only [poll, hd, if_true, hr]

/-- A refresh that fails leaves the probe and the builder as they were. -/
theorem poll_of_refresh_error {probe : σ} {now : UInt64} {due : Bool} {host : HostView}
    {builder : Builder} {fault : Fault} (hd : (due || !sampled probe) = true)
    (hr : refresh probe now host = .error fault) :
    poll probe now due host builder = ⟨probe, builder, some fault⟩ := by
  simp only [poll, hd, if_true, hr]

/-- A probe with a sample does not look at the host in a round without a refresh. -/
theorem poll_of_not_due {probe : σ} {now : UInt64} {host : HostView} {builder : Builder}
    (hs : sampled probe = true) : poll probe now false host builder = emit probe builder := by
  simp [poll, hs]

end Sampler

end HostMeter
