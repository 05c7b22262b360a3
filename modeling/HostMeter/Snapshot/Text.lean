import HostMeter.Decimal.Fixed
import HostMeter.Json
import HostMeter.Snapshot.Basic
/-!
# Snapshot — the texts of a snapshot

A snapshot is shown in three ways: as a line for people, `name=value` with the unit after the value;
as a JSON object with one member for each name, the first metric of a name giving the value; and as a
JSON array with an object for each metric, repeated names included.
-/

namespace HostMeter

/-! ## The line for people -/

/-- A value for people: doubles have two decimal places. -/
def MetricValue.human : MetricValue → String
  | .double x => Decimal.fixed x
  | .int64 i => Text.ofInt i.toInt
  | .uint64 n => Text.ofNat n.toNat
  | .text s => s

def Metric.human (m : Metric) : String := m.name ++ "=" ++ m.value.human ++ m.unit.getD ""

namespace Snapshot

/-- What stands between two metrics of a line. -/
def humanSeparator : String := "  "

def human (s : Snapshot) : String := humanSeparator.intercalate (s.metrics.map Metric.human)

end Snapshot

/-! ## JSON

The array is written straight from the metrics, the object from a table of JSON values. A JSON value
cannot be a double that is not finite, so the table has `null` in its place; in the array it is up to
the writer of doubles.
-/

/-- A value in the table that the object is written from. -/
def MetricValue.json : MetricValue → Json.Scalar
  | .double x => if x.isFinite then .double x else .null
  | .int64 i => .int i.toInt
  | .uint64 n => .int n.toNat
  | .text s => .text s

/-- A value as the array hands it to the writer. -/
def MetricValue.direct : MetricValue → Json.Scalar
  | .double x => .double x
  | .int64 i => .int i.toInt
  | .uint64 n => .int n.toNat
  | .text s => .text s

/-- A metric as an element of the array; the unit is left out if there is none. -/
def Metric.object (m : Metric) : Json.Object :=
  ("name", .text m.name) ::
    (m.unit.toList.map fun u => ("unit", .text u)) ++ [("value", m.value.direct)]

namespace Snapshot

/-- The members for metrics whose names are not among those `seen`. -/
def freshMembers : List String → List Metric → Json.Object
  | _, [] => []
  | seen, m :: ms =>
    if seen.contains m.name then freshMembers seen ms
    else (m.name, m.value.json) :: freshMembers (m.name :: seen) ms

/-- The object with a member for each name, in the order in which the names first occur. -/
def object (s : Snapshot) : Json.Object := freshMembers [] s.metrics

def json (s : Snapshot) : String := Json.objectText s.object

/-- The JSON array with an object for each metric. -/
def jsonArray (s : Snapshot) : String := Json.arrayText (s.metrics.map Metric.object)

end Snapshot

end HostMeter
