import HostMeter.Proofs.Text.Lines
import HostMeter.Proofs.Text.Numerals
/-!
# Columns — numbers on a line

Plain numerals with a space between them are one line, and its words are the numerals again.

* `columns`: the line of some numbers; `words_columns`, `isLine_columns`.
* `trimmed_digits`: a plain numeral has no blanks.
-/

namespace HostMeter.Text

/-- A digit is not blank. -/
theorem isBlank_of_isDigit {c : Char} (h : c.isDigit = true) : isBlank c = false := by
  have hblanks : ∀ b ∈ blanks, b.isDigit = false := by simp [blanks]
  rw [isBlank, Bool.eq_false_iff, ne_eq, List.contains_iff_mem]
  intro hc
  rw [hblanks c hc] at h
  cases h

theorem trimmed_digits (n : Nat) : Trimmed (digits n) :=
  trimmed_of_forall fun _ hc => isBlank_of_isDigit (isDigit_of_mem_digits hc)

/-- Numbers with a space between them. -/
def columns (ns : List Nat) : List Char := [' '].intercalate (ns.map digits)

/-- **The words of a line of numbers are their numerals.** -/
theorem words_columns (ns : List Nat) : words (columns ns) = ns.map digits := by
  rw [columns, words_intercalate]
  · refine List.filter_eq_self.mpr fun w hw => ?_
    obtain ⟨n, _, rfl⟩ := List.mem_map.mp hw
    simp [digits_ne_nil]
  · intro w hw c hc
    obtain ⟨n, _, rfl⟩ := List.mem_map.mp hw
    exact isBlank_of_isDigit (isDigit_of_mem_digits hc)

/-- Such a line holds spaces and digits. -/
theorem mem_columns {ns : List Nat} {c : Char} (h : c ∈ columns ns) : c = ' ' ∨ c.isDigit = true := by
  unfold columns at h
  induction ns with
  | nil => cases h
  | cons n ns ih =>
    cases ns with
    | nil => exact Or.inr (isDigit_of_mem_digits (by simpa using h))
    | cons n' ns =>
      -- the first numeral, the space, and the rest of the line
      rw [List.map_cons, List.map_cons, List.intercalate_cons_cons, List.append_assoc] at h
      rcases List.mem_append.mp h with h | h
      · exact Or.inr (isDigit_of_mem_digits h)
      · rcases List.mem_cons.mp h with h | h
        · exact Or.inl h
        · exact ih h

/-- Columns hold no character but digits and spaces. -/
theorem not_mem_columns {ns : List Nat} {c : Char} (hspace : c ≠ ' ') (hdigit : c.isDigit = false) :
    c ∉ columns ns := by
  intro h
  rcases mem_columns h with h | h
  · exact hspace h
  · rw [hdigit] at h
    cases h

/-- Columns of at least one number are not empty. -/
theorem columns_ne_nil {ns : List Nat} (h : ns ≠ []) : columns ns ≠ [] := by
  intro hnil
  have hwords := words_columns ns
  rw [hnil, words_nil, eq_comm, List.map_eq_nil_iff] at hwords
  exact h hwords

/-- Columns are one line. -/
theorem isLine_columns (ns : List Nat) : IsLine (columns ns) where
  newline_not_mem := not_mem_columns (by decide) (by decide)
  getLast?_ne hlast := not_mem_columns (by decide) (by decide) (List.mem_of_getLast? hlast)

end HostMeter.Text
