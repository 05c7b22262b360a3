import HostMeter.Snapshot.Text
/-!
# Members — the object of a snapshot

The object has a member for each name of the snapshot, in the order in which the names first occur,
and a member has the value that a look-up of its name finds. The walk over the metrics carries the
names that it has seen; every statement is proved for any such names and used for none.

* `Snapshot.keys_object`: the keys of the object.
* `Snapshot.lookup_object`: the value of a key.
* `Snapshot.object_of_nodup`: without repeated names, every metric is a member.
-/

namespace HostMeter.Snapshot

/-- The keys of the members are the new names, each where it occurs first. -/
theorem keys_freshMembers (seen : List String) (ms : List Metric) :
    (freshMembers seen ms).map Prod.fst =
      ((ms.map Metric.name).filter fun n => !seen.contains n).eraseDups := by
  induction ms generalizing seen with
  | nil => rfl
  | cons m ms ih =>
    rw [freshMembers, List.map_cons, List.filter_cons]
    cases hseen : seen.contains m.name with
    | true =>
      rw [if_pos rfl, ih]
      rfl
    | false =>
      rw [if_neg Bool.false_ne_true, List.map_cons, ih, Bool.not_false, if_pos rfl,
        List.eraseDups_cons, List.filter_filter]
      -- a name is new behind `m` if it is not that of `m` and was not seen before
      congr 2
      refine List.filter_congr fun n _ => ?_
      rw [List.contains_cons, Bool.not_or]

/-- A new name has the value of the first metric with it. -/
theorem lookup_freshMembers (seen : List String) (ms : List Metric) {name : String}
    (hnew : seen.contains name = false) :
    (freshMembers seen ms).lookup name =
      (ms.find? fun m => m.name == name).map fun m => m.value.json := by
  induction ms generalizing seen with
  | nil => rfl
  | cons m ms ih =>
    rw [freshMembers, List.find?_cons]
    by_cases hname : m.name = name
    · rw [hname, hnew, if_neg Bool.false_ne_true, List.lookup_cons, beq_self_eq_true]
      rfl
    · have hne : (m.name == name) = false := beq_eq_false_iff_ne.mpr hname
      have hne' : (name == m.name) = false := beq_eq_false_iff_ne.mpr (Ne.symm hname)
      rw [hne]
      split
      · exact ih seen hnew
      · rw [List.lookup_cons, hne']
        exact ih _ (by rw [List.contains_cons, hne', hnew]; rfl)

/-- The keys of the object are the names without repetitions, in the order in which they first occur. -/
theorem keys_object (s : Snapshot) :
    s.object.map Prod.fst = (s.metrics.map Metric.name).eraseDups := by
  have hall : (s.metrics.map Metric.name).filter (fun n => !([] : List String).contains n) =
      s.metrics.map Metric.name := List.filter_eq_self.mpr fun _ _ => rfl
  rw [object, keys_freshMembers, hall]

/-- A member has the value of the first metric of its name. -/
theorem lookup_object (s : Snapshot) (name : String) :
    s.object.lookup name = (s.find? name).map fun m => m.value.json :=
  lookup_freshMembers [] s.metrics rfl

/-- Where all names are new and none is repeated, every metric becomes a member. -/
theorem freshMembers_of_nodup {seen : List String} {ms : List Metric}
    (hnew : ∀ m ∈ ms, m.name ∉ seen) (hnodup : (ms.map Metric.name).Nodup) :
    freshMembers seen ms = ms.map fun m => (m.name, m.value.json) := by
  induction ms generalizing seen with
  | nil => rfl
  | cons m ms ih =>
    obtain ⟨hfirst, hrest⟩ := List.nodup_cons.mp hnodup
    have hm : ¬ seen.contains m.name = true := by
      rw [List.contains_iff_mem]
      exact hnew m List.mem_cons_self
    rw [freshMembers, if_neg hm, List.map_cons, ih ?_ hrest]
    intro n hn hmem
    rcases List.mem_cons.mp hmem with hsame | hmem
    · exact hfirst (hsame ▸ List.mem_map_of_mem hn)
    · exact hnew n (List.mem_cons_of_mem m hn) hmem

/-- Without repeated names nothing is lost: the members are the metrics, in order. -/
theorem object_of_nodup {s : Snapshot} (h : (s.metrics.map Metric.name).Nodup) :
    s.object = s.metrics.map fun m => (m.name, m.value.json) :=
  freshMembers_of_nodup (fun _ _ => List.not_mem_nil) h

end HostMeter.Snapshot
