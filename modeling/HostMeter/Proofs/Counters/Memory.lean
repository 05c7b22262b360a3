import HostMeter.Counters.Memory
import HostMeter.Proofs.Text.LineByLine
import Mathlib.Data.List.Basic
import Mathlib.Data.List.Nodup
/-!
# Memory — what the memory statistics say

A line that starts with one of the three labels is an entry: it gives an amount to a field. The reader puts
the entries of a text into the fields one after the other, and looks at no other line. Entries of two fields
do not get in each other's way, so if no label comes twice their order does not matter.

* `Field`, `entryOf?`: the fields, and the entry on a line; `lineWise_entryOf?`.
* `step_eq`, `parse_eq`: one line, and all lines, as entries.
* `parse_of_perm`: texts with the same lines in another order.
-/

namespace HostMeter.MemInfo

open Text

/-! ## Entries

Of the many lines of the file three are known, by what they start with. What they say is data: a field and
an amount. -/

/-- The amounts that are known of the memory. -/
inductive Field where
  | total
  | free
  | available
  deriving DecidableEq, Repr

/-- What the line of a field starts with. -/
def Field.label : Field → List Char
  | .total => "MemTotal:".toList
  | .free => "MemFree:".toList
  | .available => "MemAvailable:".toList

/-- The field that a line is about. -/
def field? (line : List Char) : Option Field :=
  if Field.total.label.isPrefixOf line then some .total
  else if Field.free.label.isPrefixOf line then some .free
  else if Field.available.label.isPrefixOf line then some .available
  else none

/-- The field that a line is about, and the amount on the line. -/
def entryOf? (line : List Char) : Option (Field × UInt64) := (field? line).map fun f => (f, amount line)

/-- Puts an amount in its field. -/
def put (m : MemInfo) : Field × UInt64 → MemInfo
  | (.total, n) => { m with total := n }
  | (.free, n) => { m with free := n }
  | (.available, n) => { m with available := n }

/-- A line is about no field if it starts with none of the labels. -/
theorem field?_eq_none_iff {line : List Char} : field? line = none ↔ ∀ f : Field, ¬f.label <+: line := by
  simp only [← List.isPrefixOf_iff_prefix]
  unfold field?
  constructor
  · intro h f
    split at h
    · cases h
    · split at h
      · cases h
      · split at h
        · cases h
        · cases f <;> assumption
  · intro h
    rw [if_neg (h .total), if_neg (h .free), if_neg (h .available)]

/-- A line about a field starts with its label. -/
theorem isPrefixOf_of_field? {line : List Char} {f : Field} (h : field? line = some f) :
    f.label.isPrefixOf line = true := by
  unfold field? at h
  split at h
  · cases h
    assumption
  · split at h
    · cases h
      assumption
    · split at h
      · cases h
        assumption
      · cases h

/-! ### A carriage return at the end of a line

Where two texts are joined, a line may end in a carriage return that was its own before. -/

/-- A carriage return at its end does not change what a line starts with. -/
theorem isPrefixOf_concat_return (f : Field) (line : List Char) :
    f.label.isPrefixOf (line ++ ['\r']) = f.label.isPrefixOf line := by
  -- no label ends in a carriage return
  have hlast : f.label.getLast? ≠ some '\r' := by
    cases f <;> decide
  rw [Bool.eq_iff_iff, List.isPrefixOf_iff_prefix, List.isPrefixOf_iff_prefix, List.prefix_concat_iff]
  refine or_iff_right fun heq => hlast ?_
  rw [heq, List.getLast?_concat]

/-- A carriage return at the end does not change the amount, which is followed by a unit or by nothing. -/
theorem amount_concat_return (line : List Char) : amount (line ++ ['\r']) = amount line := by
  rw [amount, words_concat_return, amount]

/-- Entries are read line by line, carriage returns or not. -/
theorem lineWise_entryOf? : LineWise entryOf? where
  nil := by decide
  concat_return line := by
    rw [entryOf?, field?, entryOf?, field?, amount_concat_return]
    simp only [isPrefixOf_concat_return]

/-! ## One line, and all lines

Reading is putting in entries, one after the other; a later entry of a field replaces an earlier one. -/

/-- **One line**: its entry is put in, if it has one. -/
theorem step_eq (m : MemInfo) (line : List Char) :
    m.step line = match entryOf? line with
      | some e => m.put e
      | none => m := by
  -- the labels are tried in the order of the fields
  unfold entryOf? field?
  by_cases htotal : Field.total.label.isPrefixOf line = true
  · -- the total
    rw [if_pos htotal]
    exact if_pos htotal
  · rw [if_neg htotal]
    refine (if_neg htotal).trans ?_
    by_cases hfree : Field.free.label.isPrefixOf line = true
    · -- the free amount
      rw [if_pos hfree]
      exact if_pos hfree
    · rw [if_neg hfree]
      refine (if_neg hfree).trans ?_
      by_cases havailable : Field.available.label.isPrefixOf line = true
      · -- the available amount
        rw [if_pos havailable]
        exact if_pos havailable
      · -- a line about nothing that is known
        rw [if_neg havailable]
        exact if_neg havailable

/-- **All lines**: their entries are put in one after the other. -/
theorem parse_eq (text : String) :
    parse text = ((lines text.toList).filterMap entryOf?).foldl put unknown := by
  rw [parse, List.foldl_filterMap]
  congr 1
  funext m line
  rw [step_eq]
  cases entryOf? line <;> rfl

/-! ## The order of the lines

Entries of different fields do not see each other. -/

/-- Entries of two fields can be put in in either order. -/
theorem put_comm (m : MemInfo) {e e' : Field × UInt64} (h : e.1 ≠ e'.1) :
    (m.put e).put e' = (m.put e').put e := by
  obtain ⟨f, n⟩ := e
  obtain ⟨f', n'⟩ := e'
  cases f <;> cases f' <;> first | rfl | exact absurd rfl h

/-- Entries of different fields lead to the same amounts in any order. -/
theorem foldl_put_of_perm {es es' : List (Field × UInt64)} (h : es.Perm es') (hfields : (es.map Prod.fst).Nodup)
    (m : MemInfo) : es.foldl put m = es'.foldl put m := by
  refine h.foldl_eq' (fun e he e' he' m => ?_) m
  by_cases hfield : e.1 = e'.1
  · -- two entries of one field are one entry
    rw [List.inj_on_of_nodup_map hfields he he' hfield]
  · exact (put_comm m (Ne.symm hfield)).symm

/-- The fields of the entries are those of the lines. -/
theorem map_fst_entries (ls : List (List Char)) :
    (ls.filterMap entryOf?).map Prod.fst = ls.filterMap field? := by
  rw [List.map_filterMap]
  congr 1
  funext line
  rw [entryOf?]
  cases field? line <;> rfl

/-- If no label starts two lines, no field has two entries. -/
theorem nodup_fields {ls : List (List Char)} (h : ∀ f : Field, ls.countP f.label.isPrefixOf ≤ 1) :
    ((ls.filterMap entryOf?).map Prod.fst).Nodup := by
  rw [map_fst_entries, List.nodup_iff_count_le_one]
  intro f
  rw [List.count_filterMap]
  refine Nat.le_trans (List.countP_mono_left fun line _ hline => ?_) (h f)
  exact isPrefixOf_of_field? (beq_iff_eq.mp hline)

/-- **The order of the lines does not matter** if no label starts two of them, nor do carriage returns at
their ends. -/
theorem parse_of_perm {text text' : String}
    (hlabels : ∀ f : Field, (lines text.toList).countP f.label.isPrefixOf ≤ 1)
    (hlines : ((lines text.toList).map dropReturn).Perm ((lines text'.toList).map dropReturn)) :
    parse text' = parse text := by
  have hentries := hlines.filterMap entryOf?
  rw [lineWise_entryOf?.map_dropReturn, lineWise_entryOf?.map_dropReturn] at hentries
  rw [parse_eq, parse_eq, foldl_put_of_perm hentries (nodup_fields hlabels)]

end HostMeter.MemInfo
