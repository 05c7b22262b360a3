import HostMeter.Proofs.Json.Arrays
import HostMeter.Proofs.Snapshot.ReadBack
/-!
# Elements — the array of a snapshot and its object

A snapshot has two JSON texts, and each has a way of its own to write a value: the array is written
straight from the metrics, the object from a table in which a double that is not finite is already
`null`. They agree on the characters of every value. So the object is what is left of the array once
only the first element of each name is kept, and of an element only its name and its value.

* `MetricValue.chars_direct`: the two ways give the same characters.
* `Metric.ShownAs`: what a reader has to find for an element of the array.
* `Snapshot.firsts`, `Snapshot.object_eq`: the metrics that the object has members for.
* `Snapshot.array_reads_back`: the law of the two texts.
-/

namespace HostMeter

/-! ## Values

An array writes a value directly and an object by way of a document. They differ for a double that is not
finite, which the one writer looks at and the other has turned to `null` before. -/

/-- **The two ways to write a value agree**, since the writer has `null` for a double that is not finite
as well. -/
theorem MetricValue.chars_direct (v : MetricValue) : v.direct.chars = v.json.chars := by
  cases v with
  | int64 i => rfl
  | uint64 n => rfl
  | text s => rfl
  | double x =>
    show Json.doubleChars x = (if x.isFinite then Json.Scalar.double x else .null).chars
    split
    · rfl
    · next hinfinite => exact if_neg hinfinite

/-- What is read for a value of the array shows the value. -/
theorem MetricValue.shown_of_reads_direct {v : MetricValue} {j : Json.Value}
    (h : Json.Reads v.direct j) : v.Shown j := by
  cases v with
  | int64 i => exact shown_of_reads h
  | uint64 n => exact shown_of_reads h
  | text s => exact shown_of_reads h
  | double x =>
    cases h with
    | double hfinite h => exact .finite hfinite h
    | infinite hinfinite => exact .infinite hinfinite

/-! ## Elements

An element has two fields or three, always in one order: its name, its unit if there is one, its value. -/

/-- What a reader has to find for an element of the array: the name, the unit if the metric has one, and
the value, in this order and nothing else. -/
inductive Metric.ShownAs : Metric → Json.Value → Prop where
  | bare {name : String} {value : MetricValue} {v : Json.Value} (h : value.Shown v) :
    ShownAs ⟨name, none, value⟩ (.object [("name", .string name), ("value", v)])
  | withUnit {name unit : String} {value : MetricValue} {v : Json.Value} (h : value.Shown v) :
    ShownAs ⟨name, some unit, value⟩
      (.object [("name", .string name), ("unit", .string unit), ("value", v)])

/-- What is read for an element shows the metric: the fields come in the order in which they are written. -/
theorem Metric.shownAs_of_reads {m : Metric} {v : Json.Value} (h : Json.ReadsObject m.object v) :
    m.ShownAs v := by
  obtain ⟨name, unit, value⟩ := m
  obtain ⟨hmembers⟩ := h
  cases unit with
  -- two fields: the name and the value
  | none =>
    obtain ⟨⟨_, _⟩, _, ⟨rfl, hname⟩, hrest, rfl⟩ := List.forall₂_cons_left_iff.mp hmembers
    obtain ⟨⟨_, _⟩, _, ⟨rfl, hvalue⟩, hend, rfl⟩ := List.forall₂_cons_left_iff.mp hrest
    cases hend
    cases hname
    exact .bare (MetricValue.shown_of_reads_direct hvalue)
  -- three fields, the unit between the two
  | some unit =>
    obtain ⟨⟨_, _⟩, _, ⟨rfl, hname⟩, hrest, rfl⟩ := List.forall₂_cons_left_iff.mp hmembers
    obtain ⟨⟨_, _⟩, _, ⟨rfl, hunit⟩, hlast, rfl⟩ := List.forall₂_cons_left_iff.mp hrest
    obtain ⟨⟨_, _⟩, _, ⟨rfl, hvalue⟩, hend, rfl⟩ := List.forall₂_cons_left_iff.mp hlast
    cases hend
    cases hname
    cases hunit
    exact .withUnit (MetricValue.shown_of_reads_direct hvalue)

namespace Metric

/-- The name of a metric as it stands in the array. -/
def nameText (m : Metric) : String := String.ofList (Json.quoted m.name)

/-- The value of a metric as it stands in the array. -/
def valueText (m : Metric) : String := String.ofList m.value.direct.chars

/-- The unit of a metric as it stands in the array, with its key and the comma before it. -/
def unitText (m : Metric) : String :=
  match m.unit with
  | none => ""
  | some u => ",\"unit\":" ++ String.ofList (Json.quoted u)

def elementText (m : Metric) : String :=
  "\x7b\"name\":" ++ m.nameText ++ m.unitText ++ ",\"value\":" ++ m.valueText ++ "\x7d"

/-- The same name and the same value as a member of an object. -/
def memberText (m : Metric) : String := m.nameText ++ ":" ++ m.valueText

/-- The keys of an element have no character that has to be escaped. -/
theorem quoted_keys : Json.quoted "name" = "\"name\"".toList ∧ Json.quoted "unit" = "\"unit\"".toList ∧
    Json.quoted "value" = "\"value\"".toList := by
  decide

/-- An element is written from its name, its unit and its value. -/
theorem ofList_objectChars (m : Metric) :
    String.ofList (Json.objectChars m.object) = m.elementText := by
  obtain ⟨name, unit, value⟩ := m
  obtain ⟨hname, hunit, hvalue⟩ := quoted_keys
  cases unit with
  | none =>
    simp [object, elementText, nameText, valueText, unitText, Json.objectChars, Json.commaSeparated,
      Json.memberChars, Json.Scalar.chars, hname, hvalue, ← String.toList_inj]
  | some unit =>
    simp [object, elementText, nameText, valueText, unitText, Json.objectChars, Json.commaSeparated,
      Json.memberChars, Json.Scalar.chars, hname, hunit, hvalue, ← String.toList_inj]

/-- A member has the characters that its name and its value have in the array. -/
theorem ofList_memberChars (m : Metric) :
    String.ofList (Json.memberChars (m.name, m.value.json)) = m.memberText := by
  simp [Json.memberChars, memberText, nameText, valueText, m.value.chars_direct, ← String.toList_inj]

end Metric

namespace Snapshot

/-- The first metric of each name, in order. -/
def firsts (s : Snapshot) : List Metric := s.metrics.eraseDupsBy fun m n => m.name == n.name

/-- The members not seen before are those of the first metric of each name, among those whose name is new.
-/
theorem freshMembers_eq (seen : List String) (ms : List Metric) :
    freshMembers seen ms =
      ((ms.filter fun m => !seen.contains m.name).eraseDupsBy fun m n => m.name == n.name).map
        fun m => (m.name, m.value.json) := by
  induction ms generalizing seen with
  | nil => rfl
  | cons m ms ih =>
    rw [freshMembers, List.filter_cons]
    cases hseen : seen.contains m.name with
    | true =>
      rw [if_pos rfl, ih]
      rfl
    | false =>
      rw [if_neg Bool.false_ne_true, ih, Bool.not_false, if_pos rfl, List.eraseDupsBy_cons,
        List.map_cons, List.filter_filter]
      -- a metric is new behind `m` if it has not the name of `m` and was not seen before
      congr 3
      refine List.filter_congr fun n _ => ?_
      rw [List.contains_cons, Bool.not_or]
      cases n.name == m.name <;> rfl

/-- The object has a member for the first metric of each name. -/
theorem object_eq (s : Snapshot) : s.object = s.firsts.map fun m => (m.name, m.value.json) := by
  have hall : s.metrics.filter (fun m => !([] : List String).contains m.name) = s.metrics :=
    List.filter_eq_self.mpr fun _ _ => rfl
  rw [object, freshMembers_eq, hall, firsts]

end Snapshot

/-- Texts with commas between them, as characters and as strings. -/
theorem Json.ofList_commaSeparated {α : Type} (chars : α → List Char) (as : List α) :
    String.ofList (commaSeparated (as.map chars)) =
      ",".intercalate (as.map fun a => String.ofList (chars a)) := by
  rw [commaSeparated_eq_intercalate, ← String.toList_inj, String.toList_intercalate]
  simp [Function.comp_def]

namespace Snapshot

/-- The array is written from the texts of its elements. -/
theorem jsonArray_eq (s : Snapshot) :
    s.jsonArray = "[" ++ ",".intercalate (s.metrics.map Metric.elementText) ++ "]" := by
  have helements := Json.ofList_commaSeparated (fun m : Metric => Json.objectChars m.object) s.metrics
  simp only [Metric.ofList_objectChars] at helements
  rw [← helements]
  simp [jsonArray, Json.arrayText, Json.arrayChars, Function.comp_def, ← String.toList_inj]

/-- The object is written from the texts of its members. -/
theorem json_eq (s : Snapshot) :
    s.json = "\x7b" ++ ",".intercalate (s.firsts.map Metric.memberText) ++ "\x7d" := by
  have hmembers := Json.ofList_commaSeparated
    (fun m : Metric => Json.memberChars (m.name, m.value.json)) s.firsts
  simp only [Metric.ofList_memberChars] at hmembers
  rw [← hmembers]
  simp [json, object_eq, Json.objectText, Json.objectChars, Function.comp_def, ← String.toList_inj]

/-- **The law of the array and the object.** For every snapshot, repeated names included:
* a reader takes the array for a list with an object for each metric in order, each with the metric's
  name, its unit if it has one, and its value, and with nothing else;
* the array is the elements with commas between them, and the object has, in order, a member for the
  first metric of each name, whose name and value are written as in the array;
* a reader finds just these members. -/
theorem array_reads_back (s : Snapshot) :
    (∃ items, Json.read s.jsonArray = some (.array items) ∧
      List.Forall₂ Metric.ShownAs s.metrics items) ∧
    s.jsonArray = "[" ++ ",".intercalate (s.metrics.map Metric.elementText) ++ "]" ∧
    s.json = "\x7b" ++ ",".intercalate (s.firsts.map Metric.memberText) ++ "\x7d" ∧
    ∃ members, Json.read s.json = some (.object members) ∧
      List.Forall₂ (fun m n => n.1 = m.name ∧ m.value.Shown n.2) s.firsts members := by
  obtain ⟨items, harray, hitems⟩ := Json.exists_read_arrayText (s.metrics.map Metric.object)
  obtain ⟨members, hobject, hmembers⟩ := Json.exists_read_objectText s.object
  rw [List.forall₂_map_left_iff] at hitems
  rw [object_eq, List.forall₂_map_left_iff] at hmembers
  refine ⟨⟨items, harray, ?_⟩, jsonArray_eq s, json_eq s, members, hobject, ?_⟩
  · exact hitems.imp fun m v h => Metric.shownAs_of_reads h
  · exact hmembers.imp fun m n h => ⟨h.1, MetricValue.shown_of_reads h.2⟩

end Snapshot

end HostMeter
