import HostMeter.Counters.Interface
import HostMeter.Proofs.Text.LineByLine
/-!
# Interface — what the interface statistics say

A line of the table is a row or says nothing. A row has no bar, a colon, and at least nine tokens behind its
first colon; a heading, a blank line and a line of any other shape say nothing.

* `ofLine?_eq`: the reader of a line; that blank lines are skipped makes no difference to it.
* `IsRow`, `ofLine?_eq_some_iff`, `ofLine?_eq_none_iff`: rows, and lines that say nothing.
* `lineWise_ofLine?`: the table is read line by line.
-/

namespace HostMeter.Interface

open Text

/-- A blank line has no colon, so it would be passed over in any case. -/
theorem ofLine?_eq (line : List Char) :
    ofLine? line =
      if line.contains '|' then none
      else
        match cut? ':' line with
        | none => none
        | some (name, rest) =>
          if (words rest).length < columnCount then none
          else some ⟨String.ofList (trim name), counter (words rest) 0, counter (words rest) 8⟩ := by
  unfold ofLine?
  by_cases hblank : trim line = []
  · -- a blank line has no colon, since trimming would keep it
    have hcolon : ':' ∉ line := fun hmem => by
      have hkept := mem_trim (by decide) hmem
      rw [hblank] at hkept
      cases hkept
    rw [hblank, cut?_eq_none_iff.mpr hcolon]
    simp
  · have hfull : (trim line).isEmpty = false := by simpa using hblank
    exact ite_congr (by rw [hfull, Bool.or_false]) (fun _ => rfl) fun _ => rfl

/-- A row and the interface that it tells about. -/
inductive IsRow (line : List Char) : Interface → Prop where
  | intro {name rest : List Char} (hline : line = name ++ ':' :: rest) (hname : ':' ∉ name)
      (hbar : '|' ∉ line) (hcolumns : columnCount ≤ (words rest).length) :
      IsRow line ⟨String.ofList (trim name), counter (words rest) 0, counter (words rest) 8⟩

variable {line : List Char}

/-- A heading is passed over. -/
theorem ofLine?_of_bar (h : '|' ∈ line) : ofLine? line = none := by
  rw [ofLine?_eq, if_pos (List.contains_iff_mem.mpr h)]

/-- A line without a colon is passed over. -/
theorem ofLine?_of_no_colon (h : ':' ∉ line) : ofLine? line = none := by
  rw [ofLine?_eq, cut?_eq_none_iff.mpr h]
  exact ite_self none

/-- A line with a colon that is no heading is decided by the number of its columns. -/
theorem ofLine?_of_colon {name rest : List Char} (hline : line = name ++ ':' :: rest) (hname : ':' ∉ name)
    (hbar : '|' ∉ line) :
    ofLine? line =
      if (words rest).length < columnCount then none
      else some ⟨String.ofList (trim name), counter (words rest) 0, counter (words rest) 8⟩ := by
  rw [ofLine?_eq, if_neg (mt List.contains_iff_mem.mp hbar), cut?_eq_some_iff.mpr ⟨hline, hname⟩]

/-- **A line is a row exactly if it has a name, a colon, and enough columns.** -/
theorem ofLine?_eq_some_iff {i : Interface} : ofLine? line = some i ↔ IsRow line i := by
  constructor
  · intro h
    by_cases hbar : '|' ∈ line
    · -- a heading is no row
      rw [ofLine?_of_bar hbar] at h
      cases h
    · by_cases hcolon : ':' ∈ line
      · obtain ⟨name, rest, hline, hname⟩ := List.eq_append_cons_of_mem hcolon
        rw [ofLine?_of_colon hline hname hbar] at h
        split at h
        · -- too few columns
          cases h
        · next hcolumns =>
          cases h
          exact .intro hline hname hbar (Nat.le_of_not_lt hcolumns)
      · rw [ofLine?_of_no_colon hcolon] at h
        cases h
  · rintro ⟨hline, hname, hbar, hcolumns⟩
    rw [ofLine?_of_colon hline hname hbar, if_neg (Nat.not_lt_of_le hcolumns)]

/-- A line is passed over for one of three reasons. -/
theorem ofLine?_eq_none_iff :
    ofLine? line = none ↔
      '|' ∈ line ∨ ':' ∉ line ∨
        ∃ name rest, line = name ++ ':' :: rest ∧ ':' ∉ name ∧ (words rest).length < columnCount := by
  constructor
  · intro h
    by_cases hbar : '|' ∈ line
    · exact Or.inl hbar
    · by_cases hcolon : ':' ∈ line
      · obtain ⟨name, rest, hline, hname⟩ := List.eq_append_cons_of_mem hcolon
        rw [ofLine?_of_colon hline hname hbar] at h
        split at h
        · -- a colon, but too few columns
          next hcolumns => exact Or.inr (Or.inr ⟨name, rest, hline, hname, hcolumns⟩)
        · cases h
      · exact Or.inr (Or.inl hcolon)
  · -- each of the three reasons is enough
    rintro (hbar | hcolon | ⟨name, rest, hline, hname, hcolumns⟩)
    · exact ofLine?_of_bar hbar
    · exact ofLine?_of_no_colon hcolon
    · by_cases hbar : '|' ∈ line
      · exact ofLine?_of_bar hbar
      · rw [ofLine?_of_colon hline hname hbar, if_pos hcolumns]

/-- **The table is read line by line.** -/
theorem lineWise_ofLine? : LineWise ofLine? where
  nil := rfl
  concat_return line := by
    have hreturn : ∀ c : Char, c ≠ '\r' → (c ∈ line ++ ['\r'] ↔ c ∈ line) := by
      intro c hc
      rw [List.mem_append, List.mem_singleton, or_iff_left hc]
    by_cases hbar : '|' ∈ line
    · rw [ofLine?_of_bar hbar, ofLine?_of_bar ((hreturn '|' (by decide)).mpr hbar)]
    · have hbar' := mt (hreturn '|' (by decide)).mp hbar
      by_cases hcolon : ':' ∈ line
      · obtain ⟨name, rest, hline, hname⟩ := List.eq_append_cons_of_mem hcolon
        have hline' : line ++ ['\r'] = name ++ ':' :: (rest ++ ['\r']) := by
          rw [hline, List.append_assoc, List.cons_append]
        rw [ofLine?_of_colon hline' hname hbar', ofLine?_of_colon hline hname hbar, words_concat_return]
      · rw [ofLine?_of_no_colon hcolon, ofLine?_of_no_colon (mt (hreturn ':' (by decide)).mp hcolon)]

end HostMeter.Interface
