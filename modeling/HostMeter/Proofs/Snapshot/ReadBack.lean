import HostMeter.Proofs.Json.Objects
import HostMeter.Proofs.Snapshot.Members
/-!
# Read back — the JSON text of a snapshot

A reader of JSON finds in the text of a snapshot what the snapshot holds: under each name the value of
the first metric of that name, whatever its type, and nothing else. The text is a single line.

* `MetricValue.Shown`: the value that a reader has to find for a metric.
* `Json.exists_read_objectText`: a whole text.
* `Snapshot.json_reads_back`: the law.
-/

namespace HostMeter

/-- What a reader has to find for a value: the same text, the same integer, a number that rounds to the
same double, or nothing in place of a double that is not finite. -/
inductive MetricValue.Shown : MetricValue → Json.Value → Prop where
  | text (s : String) : Shown (.text s) (.string s)
  | int64 {i : Int64} {n : Json.Number} (h : n.integer? = some i.toInt) : Shown (.int64 i) (.number n)
  | uint64 {w : UInt64} {n : Json.Number} (h : n.integer? = some (w.toNat : Int)) :
    Shown (.uint64 w) (.number n)
  | finite {x : Binary64} {n : Json.Number} (hfinite : x.isFinite = true) (h : n.toBinary64 = x) :
    Shown (.double x) (.number n)
  | infinite {x : Binary64} (hfinite : x.isFinite = false) : Shown (.double x) .null

/-- What is read for a value shows the value. -/
theorem MetricValue.shown_of_reads {v : MetricValue} {j : Json.Value} (h : Json.Reads v.json j) :
    v.Shown j := by
  cases v with
  | text s =>
    cases h
    exact .text s
  | int64 i =>
    cases h with
    | int h => exact .int64 h
  | uint64 w =>
    cases h with
    | int h => exact .uint64 h
  | double x =>
    cases hfinite : x.isFinite with
    | true =>
      have hjson : (double x).json = .double x := if_pos hfinite
      rw [hjson] at h
      cases h with
      | double _ h => exact .finite hfinite h
      | infinite hinfinite => exact .infinite hinfinite
    | false =>
      have hjson : (double x).json = .null := if_neg (by rw [hfinite]; exact Bool.false_ne_true)
      rw [hjson] at h
      cases h
      exact .infinite hfinite

namespace Json

/-- **The text of an object is read back.** -/
theorem exists_read_objectText (o : Object) :
    ∃ members, read (objectText o) = some (.object members) ∧
      List.Forall₂ (fun m n => n.1 = m.1 ∧ Reads m.2 n.2) o members := by
  have hlength := length_le_length_objectChars o
  -- the braces alone are two characters, so the fuel is more than one
  have hne : (objectChars o).length ≠ 0 := by simp [objectChars]
  obtain ⟨fuel, hfuel⟩ := Nat.exists_eq_succ_of_ne_zero hne
  rw [hfuel] at hlength
  obtain ⟨members, hread, hall⟩ := exists_reads_object o hlength []
  rw [List.append_nil] at hread
  refine ⟨members, ?_, hall⟩
  have htext : (objectText o).toList = objectChars o := by simp [objectText]
  unfold read
  rw [htext, hfuel, hread]
  rfl

section Members

variable {o : Object} {members : List (String × Value)}

/-- An object is read with the keys it was written with, in their order. -/
theorem keys_of_reads (h : List.Forall₂ (fun m n => n.1 = m.1 ∧ Reads m.2 n.2) o members) :
    members.map Prod.fst = o.map Prod.fst := by
  induction h with
  | nil => rfl
  | cons hfirst _ ih => rw [List.map_cons, List.map_cons, ih, hfirst.1]

/-- A key that was written has the value it was written with, and no other key has one. -/
theorem lookup_of_reads (h : List.Forall₂ (fun m n => n.1 = m.1 ∧ Reads m.2 n.2) o members)
    (name : String) :
    match o.lookup name with
    | some s => ∃ v, members.lookup name = some v ∧ Reads s v
    | none => members.lookup name = none := by
  induction h with
  | nil => rfl
  | @cons m n _ _ hfirst _ ih =>
    rw [List.lookup_cons, List.lookup_cons, hfirst.1]
    cases name == m.1 with
    | true => exact ⟨n.2, rfl, hfirst.2⟩
    | false => exact ih

end Members

end Json

/-- **The law of the JSON text.** The text of a snapshot has no control characters, so it is one line. A
reader takes it for an object whose keys are the names of the metrics without repetitions, in the order
in which they first occur. Under each name it finds the value of the metric that a look-up finds. -/
theorem Snapshot.json_reads_back (s : Snapshot) :
    (∀ c ∈ s.json.toList, 0x20 ≤ c.toNat) ∧
      ∃ members, Json.read s.json = some (.object members) ∧
        members.map Prod.fst = (s.metrics.map Metric.name).eraseDups ∧
        ∀ name, match s.find? name with
          | some m => ∃ v, members.lookup name = some v ∧ m.value.Shown v
          | none => members.lookup name = none := by
  obtain ⟨members, hread, hall⟩ := Json.exists_read_objectText s.object
  refine ⟨fun c hc => ?_, members, hread, ?_, fun name => ?_⟩
  · refine Json.le_of_mem_objectChars (o := s.object) ?_
    simpa [json, Json.objectText] using hc
  · rw [Json.keys_of_reads hall, keys_object]
  · have hlookup := Json.lookup_of_reads hall name
    rw [lookup_object] at hlookup
    cases hfind : s.find? name with
    | none =>
      rw [hfind] at hlookup
      exact hlookup
    | some m =>
      rw [hfind] at hlookup
      obtain ⟨v, hv, hreads⟩ := hlookup
      exact ⟨v, hv, MetricValue.shown_of_reads hreads⟩

end HostMeter
