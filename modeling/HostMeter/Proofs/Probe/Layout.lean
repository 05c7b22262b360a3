import HostMeter.Proofs.Monitor.Start
import HostMeter.Proofs.Probe.Sampling
/-!
# Layout — which metrics a probe emits

A metric shows its name, its unit and its type whatever its value is. The metrics that a probe emits
show the same in every round: their *layout* follows from what is settled when the probe is created.

* `Metric.Shape`: what a metric shows besides its value.
* `LaidOut`: the kinds of probes whose metrics follow a layout of their own, under one name.
* `Builtin.Kind.name_of_create`: a probe is laid out under the name of its kind.
-/

namespace HostMeter

/-! ## Shapes

What a user of snapshots can rely on without looking at values. -/

/-- What a metric shows besides its value. -/
structure Metric.Shape where
  name : String
  unit : Option String
  type : MetricType
  deriving DecidableEq, Repr

def Metric.shape (m : Metric) : Metric.Shape := ⟨m.name, m.unit, m.value.type⟩

/-- Is this a name in the namespace of a probe? -/
def Prefixed (probe name : String) : Prop := ∃ rest, name = probe ++ "." ++ rest

/-! ## Layouts

The layout is given for each kind from what its creation has settled. The four laws say that the metrics
follow it, that no refresh changes it, and that its names are distinct and in the namespace of the kind. -/

/-- A kind of probe whose metrics follow a layout, which a refresh does not change. -/
class LaidOut (σ : Type) [Sampler σ] where
  name : σ → String
  layout : σ → List Metric.Shape
  shape_metrics {p : σ} (h : Sampler.sampled p = true) :
    (Sampler.metrics p).map Metric.shape = layout p
  refresh_keeps {p q : σ} {now : UInt64} {host : HostView}
    (h : Sampler.refresh p now host = .ok q) : layout q = layout p ∧ name q = name p
  prefixed (p : σ) : ∀ x ∈ layout p, Prefixed (name p) x.name
  nodup (p : σ) : ((layout p).map Metric.Shape.name).Nodup

instance : LaidOut CpuProbe where
  name _ := CpuProbe.name
  layout p :=
    ⟨"cpu.usage_percent", some "%", .double⟩ ::
      (if p.cores = 0 then [] else [⟨"cpu.core_count", none, .uint64⟩])
  shape_metrics {p} _ := by
    show p.metrics.map Metric.shape = _
    rw [CpuProbe.metrics, List.map_cons]
    split <;> rfl
  refresh_keeps h := by
    obtain ⟨_, _, _, _, rfl⟩ := CpuProbe.exists_of_refresh h
    exact ⟨rfl, rfl⟩
  prefixed p := by
    have husage : Prefixed CpuProbe.name "cpu.usage_percent" := ⟨"usage_percent", rfl⟩
    have hcores : Prefixed CpuProbe.name "cpu.core_count" := ⟨"core_count", rfl⟩
    split <;> simp [husage, hcores]
  nodup p := by
    split <;> decide

instance : LaidOut RamProbe where
  name _ := RamProbe.name
  layout p :=
    ⟨"ram.total_bytes", some "B", .uint64⟩ :: ⟨"ram.used_bytes", some "B", .uint64⟩ ::
      ⟨"ram.free_bytes", some "B", .uint64⟩ ::
      (if 0 < p.total then [⟨"ram.used_percent", some "%", .double⟩] else [])
  shape_metrics {p} h := by
    obtain ⟨s, hs⟩ := Option.isSome_iff_exists.mp h
    show p.metrics.map Metric.shape = _
    rw [RamProbe.metrics, hs]
    dsimp only [RamProbe.metricsOf]
    split <;> rfl
  refresh_keeps h := by
    obtain ⟨_, _, rfl⟩ := RamProbe.exists_of_refresh h
    exact ⟨rfl, rfl⟩
  prefixed p := by
    have hshare : Prefixed RamProbe.name "ram.used_percent" := ⟨"used_percent", rfl⟩
    simp only [List.forall_mem_cons]
    refine ⟨⟨"total_bytes", rfl⟩, ⟨"used_bytes", rfl⟩, ⟨"free_bytes", rfl⟩, ?_⟩
    split <;> simp [hshare]
  nodup p := by
    split <;> decide

/-- A probe of memory that has been created has memory to report a share of. -/
theorem RamProbe.layout_of_create {c : Context} {p : RamProbe} (h : create c = .ok p) :
    LaidOut.layout p =
      [⟨"ram.total_bytes", some "B", .uint64⟩, ⟨"ram.used_bytes", some "B", .uint64⟩,
       ⟨"ram.free_bytes", some "B", .uint64⟩, ⟨"ram.used_percent", some "%", .double⟩] := by
  have hshare : (if 0 < p.total then [(⟨"ram.used_percent", some "%", .double⟩ : Metric.Shape)] else []) =
      [⟨"ram.used_percent", some "%", .double⟩] := if_pos (total_pos_of_create h)
  show _ :: _ :: _ :: (if 0 < p.total then _ else _) = _
  rw [hshare]

instance : LaidOut BatteryProbe where
  name _ := BatteryProbe.name
  layout _ :=
    [⟨"battery.percent", some "%", .double⟩, ⟨"battery.is_charging", none, .int64⟩,
     ⟨"battery.status", none, .text⟩]
  shape_metrics {p} h := by
    obtain ⟨s, hs⟩ := Option.isSome_iff_exists.mp h
    show p.metrics.map Metric.shape = _
    rw [BatteryProbe.metrics, hs]
    rfl
  refresh_keeps h := by
    obtain ⟨_, _, _, _, rfl⟩ := BatteryProbe.exists_of_refresh h
    exact ⟨rfl, rfl⟩
  prefixed p := by
    simp only [List.forall_mem_cons]
    exact ⟨⟨"percent", rfl⟩, ⟨"is_charging", rfl⟩, ⟨"status", rfl⟩, by simp⟩
  nodup p := by decide

instance : LaidOut NetworkProbe where
  name _ := NetworkProbe.name
  layout _ :=
    [⟨"network.interface", none, .text⟩, ⟨"network.rx_bytes", some "B", .uint64⟩,
     ⟨"network.tx_bytes", some "B", .uint64⟩, ⟨"network.rx_bytes_per_sec", some "B/s", .double⟩,
     ⟨"network.tx_bytes_per_sec", some "B/s", .double⟩]
  shape_metrics {p} h := by
    obtain ⟨s, hs⟩ := Option.isSome_iff_exists.mp h
    show p.metrics.map Metric.shape = _
    rw [NetworkProbe.metrics, hs]
    rfl
  refresh_keeps h := by
    obtain ⟨_, _, _, _, rfl⟩ := NetworkProbe.exists_of_refresh h
    exact ⟨rfl, rfl⟩
  prefixed p := by
    simp only [List.forall_mem_cons]
    exact ⟨⟨"interface", rfl⟩, ⟨"rx_bytes", rfl⟩, ⟨"tx_bytes", rfl⟩, ⟨"rx_bytes_per_sec", rfl⟩,
      ⟨"tx_bytes_per_sec", rfl⟩, by simp⟩
  nodup p := by decide

instance : LaidOut StorageProbe where
  name _ := StorageProbe.name
  layout _ :=
    [⟨"storage.path", none, .text⟩, ⟨"storage.total_bytes", some "B", .uint64⟩,
     ⟨"storage.used_bytes", some "B", .uint64⟩, ⟨"storage.free_bytes", some "B", .uint64⟩,
     ⟨"storage.available_bytes", some "B", .uint64⟩, ⟨"storage.used_percent", some "%", .double⟩]
  shape_metrics {p} h := by
    obtain ⟨u, hu⟩ := Option.isSome_iff_exists.mp h
    show p.metrics.map Metric.shape = _
    rw [StorageProbe.metrics, hu]
    rfl
  refresh_keeps h := by
    obtain ⟨_, _, rfl⟩ := StorageProbe.exists_of_refresh h
    exact ⟨rfl, rfl⟩
  prefixed p := by
    simp only [List.forall_mem_cons]
    exact ⟨⟨"path", rfl⟩, ⟨"total_bytes", rfl⟩, ⟨"used_bytes", rfl⟩, ⟨"free_bytes", rfl⟩,
      ⟨"available_bytes", rfl⟩, ⟨"used_percent", rfl⟩, by simp⟩
  nodup p := by decide

/-! ## A built-in probe is laid out as its kind is

The laws of the five kinds, under their constructors. -/

namespace Builtin

def layoutName : Builtin → String
  | .cpu p => LaidOut.name p
  | .ram p => LaidOut.name p
  | .battery p => LaidOut.name p
  | .network p => LaidOut.name p
  | .storage p => LaidOut.name p

def layout : Builtin → List Metric.Shape
  | .cpu p => LaidOut.layout p
  | .ram p => LaidOut.layout p
  | .battery p => LaidOut.layout p
  | .network p => LaidOut.layout p
  | .storage p => LaidOut.layout p

instance : LaidOut Builtin where
  name := layoutName
  layout := layout
  shape_metrics {p} h := by
    cases p with
    | cpu p => exact LaidOut.shape_metrics (p := p) h
    | ram p => exact LaidOut.shape_metrics (p := p) h
    | battery p => exact LaidOut.shape_metrics (p := p) h
    | network p => exact LaidOut.shape_metrics (p := p) h
    | storage p => exact LaidOut.shape_metrics (p := p) h
  refresh_keeps {p _ _ _} h := by
    cases p <;> obtain ⟨q, hq, rfl⟩ := exists_of_map_ok h <;> exact LaidOut.refresh_keeps hq
  prefixed p := by
    cases p with
    | cpu p => exact LaidOut.prefixed p
    | ram p => exact LaidOut.prefixed p
    | battery p => exact LaidOut.prefixed p
    | network p => exact LaidOut.prefixed p
    | storage p => exact LaidOut.prefixed p
  nodup p := by
    cases p with
    | cpu p => exact LaidOut.nodup p
    | ram p => exact LaidOut.nodup p
    | battery p => exact LaidOut.nodup p
    | network p => exact LaidOut.nodup p
    | storage p => exact LaidOut.nodup p

/-- A kind creates probes that are laid out under its name. -/
theorem Kind.name_of_create {k : Kind} {c : Context} {p : Builtin} (h : k.create c = .ok p) :
    LaidOut.name p = k.name := by
  cases k <;> obtain ⟨q, _, rfl⟩ := exists_of_map_ok h <;> rfl

end Builtin

end HostMeter
