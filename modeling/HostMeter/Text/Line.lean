import HostMeter.Text.Blank
/-!
# Text — lines and cuts

A line ends with a line feed, or with a carriage return and a line feed. The text after the last line
feed is a line of its own unless it is empty; a carriage return at its end belongs to it.

* `lines`: the lines of a text, without their ends.
* `cut?`: the parts before and after the first occurrence of a separator (`cut?_eq_some_iff`).
-/

namespace HostMeter.Text

/-- A line without the carriage return before its line feed. -/
def dropReturn (cs : List Char) : List Char :=
  if cs.getLast? = some '\r' then cs.dropLast else cs

/-- The lines of a text given as the pieces between its line feeds. -/
def linesOfPieces : List (List Char) → List (List Char)
  | [] => []
  | [last] => if last.isEmpty then [] else [last]
  | piece :: rest => dropReturn piece :: linesOfPieces rest

def lines (cs : List Char) : List (List Char) := linesOfPieces (cs.splitOnP (· == '\n'))

@[simp] theorem lines_nil : lines [] = [] := rfl

/-- The text before the first `sep` and the text after it. -/
def cut? (sep : Char) : List Char → Option (List Char × List Char)
  | [] => none
  | c :: cs => if c = sep then some ([], cs) else (cut? sep cs).map fun (a, b) => (c :: a, b)

/-- A cut takes the first separator: the part before it has none. -/
theorem cut?_eq_some_iff {sep : Char} {cs a b : List Char} :
    cut? sep cs = some (a, b) ↔ cs = a ++ sep :: b ∧ sep ∉ a := by
  induction cs generalizing a with
  | nil => simp [cut?]
  | cons c cs ih =>
    unfold cut?
    by_cases h : c = sep
    · subst h
      simp only [if_true, Option.some.injEq, Prod.mk.injEq]
      constructor
      · rintro ⟨rfl, rfl⟩; simp
      · rintro ⟨h, hn⟩
        cases a with
        | nil => simp_all
        | cons x xs => simp_all
    · simp only [h, if_false, Option.map_eq_some_iff, Prod.exists, Prod.mk.injEq]
      constructor
      · rintro ⟨x, y, hxy, rfl, rfl⟩
        obtain ⟨rfl, hn⟩ := ih.1 hxy
        exact ⟨rfl, by simp [hn, Ne.symm h]⟩
      · rintro ⟨hcs, hn⟩
        cases a with
        | nil => simp_all
        | cons x xs =>
          simp only [List.cons_append, List.cons.injEq] at hcs
          obtain ⟨rfl, rfl⟩ := hcs
          exact ⟨xs, b, ih.2 ⟨rfl, fun hm => hn (List.mem_cons_of_mem _ hm)⟩, rfl, rfl⟩

end HostMeter.Text
