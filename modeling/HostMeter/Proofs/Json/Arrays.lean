import HostMeter.Proofs.Json.Objects
import Mathlib.Data.List.Forall2
/-!
# Arrays — reading arrays of objects

What the writer makes of an array is read as an array again, with an object for each object that was
written, in order. The reader's fuel is the length of the text, which no object in it exceeds.

* `commaSeparated_eq_intercalate`: texts with commas between them.
* `ReadsObject`, `exists_reads_array`: an array in front of any rest.
* `exists_read_arrayText`: a whole text.
-/

namespace HostMeter.Json

/-- Items with commas between them, told by the library. -/
theorem commaSeparated_eq_intercalate (ts : List (List Char)) :
    commaSeparated ts = [','].intercalate ts := by
  fun_induction commaSeparated ts with
  | case1 => rfl
  | case2 t => rw [List.intercalate_singleton]
  | case3 t ts hne ih =>
    obtain ⟨u, us, rfl⟩ := List.exists_cons_of_ne_nil hne
    rw [List.intercalate_cons_cons, ih, List.append_assoc, List.singleton_append]

/-- No item is longer than the whole. -/
theorem length_le_of_mem_commaSeparated {ts : List (List Char)} {t : List Char} (h : t ∈ ts) :
    t.length ≤ (commaSeparated ts).length := by
  fun_induction commaSeparated ts with
  | case1 => cases h
  | case2 u => rw [List.mem_singleton.mp h]
  | case3 u ts _ ih =>
    rw [List.length_append, List.length_cons]
    rcases List.mem_cons.mp h with rfl | h
    · exact Nat.le_add_right _ _
    · have hle := ih h
      omega

/-- What a reader makes of an object: the same names in the same order, each with its value. -/
inductive ReadsObject : Object → Value → Prop where
  | intro {o : Object} {members : List (String × Value)}
    (h : List.Forall₂ (fun m n => n.1 = m.1 ∧ Reads m.2 n.2) o members) : ReadsObject o (.object members)

/-- **An array is read back with its objects in order.** -/
theorem exists_reads_array (os : List Object) {fuel : Nat} (hcount : os.length ≤ fuel + 2)
    (hfuel : ∀ o ∈ os, o.length ≤ fuel + 1) (rest : List Char) :
    ∃ items, value? (fuel + 3) (arrayChars os ++ rest) = some (.array items, rest) ∧
      List.Forall₂ ReadsObject os items := by
  -- an item is one of these objects, since the fuel need not do for any other
  have hitem : ∀ (o : { o // o ∈ os }) (rest : List Char), Stops rest →
      ∃ v, value? (fuel + 2) (objectChars o.1 ++ rest) = some (v, rest) ∧ ReadsObject o.1 v := by
    intro o rest _
    obtain ⟨members, hread, hall⟩ := exists_reads_object o.1 (hfuel o.1 o.2) rest
    exact ⟨.object members, hread, .intro hall⟩
  have hopen : ∀ (o : { o // o ∈ os }) (rest : List Char),
      expect? ']' (objectChars o.1 ++ rest) = none := by
    intro o rest
    simp [objectChars, expect?_cons _ (show isBlank '\x7b' = false by decide)]
  obtain ⟨items, hread, hall⟩ := exists_reads_list? hitem (by decide) (by decide)
    (stops_cons (by decide) (by decide) (by decide) (by decide)) hopen
    (Nat.le_trans (Nat.le_of_eq List.length_attach) hcount) rest
  have hattach : os.attach.map (fun o => objectChars o.1) = os.map objectChars := by
    show os.attach.map (objectChars ∘ Subtype.val) = os.map objectChars
    rw [← List.map_map, List.attach_map_subtype_val]
  refine ⟨items, ?_, ?_⟩
  · -- the text of the array is its opening bracket and what the list reads
    have htext : arrayChars os ++ rest =
        '[' :: (commaSeparated (os.map objectChars) ++ ']' :: rest) := by
      simp [arrayChars]
    rw [hattach] at hread
    rw [htext, value?]
    simp [skipBlanks, isBlank, hread]
  · rw [← List.attach_map_subtype_val os, List.forall₂_map_left_iff]
    exact hall

/-- **The text of an array is read back.** -/
theorem exists_read_arrayText (os : List Object) :
    ∃ items, read (arrayText os) = some (.array items) ∧ List.Forall₂ ReadsObject os items := by
  have hcount := length_le_length_commaSeparated (os.map objectChars)
  rw [List.length_map] at hcount
  have hobject : ∀ o ∈ os, o.length ≤ (commaSeparated (os.map objectChars)).length := fun o ho =>
    Nat.le_trans (length_le_length_objectChars o)
      (length_le_of_mem_commaSeparated (List.mem_map_of_mem ho))
  obtain ⟨items, hread, hall⟩ := exists_reads_array os (Nat.le_succ_of_le hcount)
    (fun o ho => Nat.le_succ_of_le (hobject o ho)) []
  rw [List.append_nil] at hread
  refine ⟨items, ?_, hall⟩
  have htext : (arrayText os).toList = arrayChars os := by simp [arrayText]
  -- the brackets are two characters, and one more is the reader's own
  have hlength : (arrayChars os).length = (commaSeparated (os.map objectChars)).length + 2 := by
    simp [arrayChars]
  unfold read
  rw [htext, hlength, hread]
  rfl

end HostMeter.Json
