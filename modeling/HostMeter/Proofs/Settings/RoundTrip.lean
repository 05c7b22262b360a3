import HostMeter.Proofs.Text.Lines
import HostMeter.Settings.Ini
/-!
# Round trip — a configuration read back

Assignments are written down as two lines each, `[heading]` and `key=value`, and read back. Each of the
three texts has to be one line with no blank at its ends; beyond that a heading must not close its own
bracket, and a key must neither set itself nor start like another kind of line. All other characters are
free: a value may hold brackets, equals signs, comment signs and carriage returns, and every text may be
empty.

* `Assignment.Writable`: assignments that can be written down.
* `Ini.Line.ofText_headingLine`, `Ini.Line.ofText_assignmentLine`: what the two lines say.
* `Ini.get?_eq_some_iff`, `Ini.get?_eq_none_iff`: the first assignment of a key counts.
* `Ini.parse_render`: the assignments are read back, in their order.
-/

namespace HostMeter

open Text

/-- A text that is one line and loses nothing when it is trimmed. -/
structure Ini.Carried (s : String) : Prop where
  newline_not_mem : '\n' ∉ s.toList
  trimmed : Trimmed s.toList

instance (s : String) : Decidable (Ini.Carried s) :=
  decidable_of_iff ('\n' ∉ s.toList ∧ Trimmed s.toList) ⟨fun h => ⟨h.1, h.2⟩, fun h => ⟨h.1, h.2⟩⟩

/-- An assignment whose heading line and whose own line say what it says. -/
structure Assignment.Writable (a : Assignment) : Prop where
  heading : Ini.Carried a.heading
  key : Ini.Carried a.key
  value : Ini.Carried a.value
  bracket_not_mem : ']' ∉ a.heading.toList
  equals_not_mem : '=' ∉ a.key.toList
  head_key : ∀ c ∈ a.key.toList.head?, c ≠ '[' ∧ c ≠ ';' ∧ c ≠ '#'

instance (a : Assignment) : Decidable a.Writable :=
  have : Decidable (∀ c ∈ a.key.toList.head?, c ≠ '[' ∧ c ≠ ';' ∧ c ≠ '#') :=
    Option.decidableForallMem _
  decidable_of_iff
    (Ini.Carried a.heading ∧ Ini.Carried a.key ∧ Ini.Carried a.value ∧ ']' ∉ a.heading.toList ∧
      '=' ∉ a.key.toList ∧ ∀ c ∈ a.key.toList.head?, c ≠ '[' ∧ c ≠ ';' ∧ c ≠ '#')
    ⟨fun ⟨heading, key, value, bracket, equals, head⟩ => ⟨heading, key, value, bracket, equals, head⟩,
      fun ⟨heading, key, value, bracket, equals, head⟩ => ⟨heading, key, value, bracket, equals, head⟩⟩

namespace Ini

/-! ## The two lines

Each assignment is written below a heading of its own. That neither line is taken for something else is what
the conditions on its texts are for: no bracket that closes the heading early, no equals sign in the key,
and no key that starts like a comment or a heading. -/

/-- The heading line that is written for an assignment. -/
def headingLine (a : Assignment) : List Char := '[' :: (a.heading.toList ++ [']'])

/-- The line that sets the key. -/
def assignmentLine (a : Assignment) : List Char := a.key.toList ++ '=' :: a.value.toList

/-- Two lines are written for each assignment, a heading and what it sets. -/
theorem toList_render (as : List Assignment) :
    (render as).toList =
      (as.flatMap fun a => [headingLine a, assignmentLine a]).flatMap (· ++ ['\n']) := by
  induction as with
  | nil => rfl
  | cons a as ih =>
    have hcons : render (a :: as) =
        "[" ++ a.heading ++ "]\n" ++ a.key ++ "=" ++ a.value ++ "\n" ++ render as := by
      simp [render]
    rw [hcons]
    simp [ih, headingLine, assignmentLine]

variable {a : Assignment}

/-- A heading line has its brackets at both ends and no blanks around them. -/
theorem trimmed_headingLine (a : Assignment) : Trimmed (headingLine a) where
  head c hc := by
    cases hc
    rfl
  last c hc := by
    rw [headingLine, ← List.cons_append, List.getLast?_concat] at hc
    cases hc
    rfl

/-- A line that sets a key has no blanks around it, be the key or the value empty. -/
theorem trimmed_assignmentLine (h : a.Writable) : Trimmed (assignmentLine a) where
  head c hc := by
    rw [assignmentLine, List.head?_append] at hc
    rcases Option.or_eq_some_iff.mp hc with hkey | ⟨_, hequals⟩
    · exact h.key.trimmed.head c hkey
    · cases hequals
      rfl
  last c hc := by
    rw [assignmentLine, List.append_cons, List.getLast?_append, List.getLast?_concat] at hc
    rcases Option.or_eq_some_iff.mp hc with hvalue | ⟨_, hequals⟩
    · exact h.value.trimmed.last c hvalue
    · cases hequals
      rfl

theorem isLine_headingLine (h : a.Writable) : IsLine (headingLine a) :=
  isLine_of_trimmed (by simp [headingLine, h.heading.newline_not_mem]) (trimmed_headingLine a)

theorem isLine_assignmentLine (h : a.Writable) : IsLine (assignmentLine a) :=
  isLine_of_trimmed (by simp [assignmentLine, h.key.newline_not_mem, h.value.newline_not_mem])
    (trimmed_assignmentLine h)

/-- The heading line is read as the heading. -/
theorem Line.ofText_headingLine (h : a.Writable) :
    Line.ofText (headingLine a) = .heading a.heading := by
  have hcut : cut? ']' (a.heading.toList ++ [']']) = some (a.heading.toList, []) :=
    cut?_eq_some_iff.mpr ⟨rfl, h.bracket_not_mem⟩
  rw [Line.ofText, (trimmed_headingLine a).trim_eq, headingLine]
  simp only [Line.ofTrimmed, hcut, h.heading.trimmed.trim_eq, String.ofList_toList]

/-- A line that starts like no other kind of line is an assignment if it can be cut. -/
theorem Line.ofTrimmed_of_cut {line key value : List Char}
    (hhead : ∀ c ∈ line.head?, c ≠ '[' ∧ c ≠ ';' ∧ c ≠ '#')
    (hcut : cut? '=' line = some (key, value)) :
    Line.ofTrimmed line = .assignment (String.ofList (trim key)) (String.ofList (trim value)) := by
  -- an empty line cannot be cut, and the other kinds of lines start with a sign of their own
  unfold Line.ofTrimmed
  split
  · cases hcut
  · exact absurd rfl (hhead _ rfl).2.1
  · exact absurd rfl (hhead _ rfl).2.2
  · exact absurd rfl (hhead _ rfl).1
  · rw [hcut]

/-- The line below the heading is read as the assignment, cut at the equals sign that was written. -/
theorem Line.ofText_assignmentLine (h : a.Writable) :
    Line.ofText (assignmentLine a) = .assignment a.key a.value := by
  have hhead : ∀ c ∈ (assignmentLine a).head?, c ≠ '[' ∧ c ≠ ';' ∧ c ≠ '#' := by
    intro c hc
    rw [assignmentLine, List.head?_append] at hc
    rcases Option.or_eq_some_iff.mp hc with hkey | ⟨_, hequals⟩
    · exact h.head_key c hkey
    · -- the key is empty: the line starts with the equals sign
      cases hequals
      decide
  have hcut : cut? '=' (assignmentLine a) = some (a.key.toList, a.value.toList) :=
    cut?_eq_some_iff.mpr ⟨rfl, h.equals_not_mem⟩
  rw [Line.ofText, (trimmed_assignmentLine h).trim_eq, Line.ofTrimmed_of_cut hhead hcut,
    h.key.trimmed.trim_eq, h.value.trimmed.trim_eq, String.ofList_toList, String.ofList_toList]

/-! ## The whole text

Reading carries the last heading along. As each assignment brings its own, the heading that was in force
before does not matter, and the induction goes through for any. -/

/-- Whatever heading and line number come before them, the lines say the assignments. -/
theorem ofLines_flatMap {as : List Assignment} (h : ∀ a ∈ as, a.Writable) (n : Nat)
    (heading : String) :
    ofLines n heading (as.flatMap fun a => [headingLine a, assignmentLine a]) = .ok as := by
  -- a heading line comes before each assignment, so the heading that was there before never counts
  induction as generalizing n heading with
  | nil => rfl
  | cons a as ih =>
    obtain ⟨ha, has⟩ := List.forall_mem_cons.mp h
    simp only [List.flatMap_cons, List.cons_append, List.nil_append, ofLines,
      Line.ofText_headingLine ha, Line.ofText_assignmentLine ha, ih has]
    rfl

/-- **What is written for assignments is read as these assignments.** -/
theorem parse_render_eq {as : List Assignment} (h : ∀ a ∈ as, a.Writable) :
    parse (render as) = .ok ⟨as⟩ := by
  have hlines : lines (render as).toList =
      as.flatMap fun a => [headingLine a, assignmentLine a] := by
    rw [toList_render, lines_flatMap]
    intro line hline
    obtain ⟨a, ha, hline⟩ := List.mem_flatMap.mp hline
    rcases List.mem_cons.mp hline with rfl | hline
    · exact isLine_headingLine (h a ha)
    · rw [List.mem_singleton.mp hline]
      exact isLine_assignmentLine (h a ha)
  rw [parse, hlines, ofLines_flatMap h]
  rfl

/-! ## Looking up

The value of a key is that of the first assignment for it. Later ones are read back too and are not found.
-/

/-- Does the assignment set this key under this heading? -/
def Sets (heading key : String) (a : Assignment) : Prop := a.heading = heading ∧ a.key = key

instance (heading key : String) (a : Assignment) : Decidable (Sets heading key a) :=
  inferInstanceAs (Decidable (a.heading = heading ∧ a.key = key))

theorem beq_and_beq_iff {heading key : String} {a : Assignment} :
    (a.heading == heading && a.key == key) = true ↔ Sets heading key a := by
  rw [Bool.and_eq_true, beq_iff_eq, beq_iff_eq, Sets]

/-- The value is that of the first assignment that sets the key. -/
theorem get?_eq_some_iff {ini : Ini} {heading key value : String} :
    ini.get? heading key = some value ↔
      ∃ before after, ini.assignments = before ++ ⟨heading, key, value⟩ :: after ∧
        ∀ a ∈ before, ¬Sets heading key a := by
  rw [get?, Option.map_eq_some_iff]
  constructor
  · rintro ⟨⟨_, _, _⟩, hfind, rfl⟩
    obtain ⟨hsets, before, after, hsplit, hbefore⟩ := List.find?_eq_some_iff_append.mp hfind
    obtain ⟨rfl, rfl⟩ := beq_and_beq_iff.mp hsets
    refine ⟨before, after, hsplit, fun a ha hsets => ?_⟩
    have hnot := hbefore a ha
    rw [beq_and_beq_iff.mpr hsets] at hnot
    cases hnot
  · rintro ⟨before, after, hsplit, hbefore⟩
    refine ⟨⟨heading, key, value⟩, ?_, rfl⟩
    refine List.find?_eq_some_iff_append.mpr ⟨beq_and_beq_iff.mpr ⟨rfl, rfl⟩, before, after, hsplit, ?_⟩
    intro a ha
    rw [Bool.not_eq_true', Bool.eq_false_iff]
    exact mt beq_and_beq_iff.mp (hbefore a ha)

/-- There is no value if no assignment sets the key. -/
theorem get?_eq_none_iff {ini : Ini} {heading key : String} :
    ini.get? heading key = none ↔ ∀ a ∈ ini.assignments, ¬Sets heading key a := by
  rw [get?, Option.map_eq_none_iff, List.find?_eq_none]
  simp only [beq_and_beq_iff]

/-- **Reading undoes writing.** Assignments that can be written down are read back, none missing and
none added, in their order; a key has the value of the first assignment that sets it, and no value if
there is none. -/
theorem parse_render {as : List Assignment} (h : ∀ a ∈ as, a.Writable) :
    ∃ ini, parse (render as) = .ok ini ∧ ini.assignments = as ∧ ini.size = as.length ∧
      ∀ heading key,
        (∀ value, ini.get? heading key = some value ↔
          ∃ before after, as = before ++ ⟨heading, key, value⟩ :: after ∧
            ∀ a ∈ before, ¬Sets heading key a) ∧
        (ini.get? heading key = none ↔ ∀ a ∈ as, ¬Sets heading key a) :=
  ⟨⟨as⟩, parse_render_eq h, rfl, rfl, fun _ _ => ⟨fun _ => get?_eq_some_iff, get?_eq_none_iff⟩⟩

/-- Empty texts, headings that look like comments and like headings, carriage returns inside, signs of
every kind in a value, and one key set three times under two headings. -/
theorem parse_render_signs :
    let as : List Assignment :=
      [⟨"", "", ""⟩, ⟨"; [# = x", "k;]#", "a=b]; # [c\r\td\u3000e"⟩, ⟨"s", "k", "first"⟩,
        ⟨"t", "k", "other"⟩, ⟨"s", "k", "second"⟩]
    (∀ a ∈ as, a.Writable) ∧
      ∃ ini, parse (render as) = .ok ini ∧ ini.assignments = as ∧ ini.size = 5 ∧
        ini.get? "s" "k" = some "first" ∧ ini.get? "" "" = some "" ∧ ini.get? "s" "" = none := by
  intro as
  have h : ∀ a ∈ as, a.Writable := by decide
  obtain ⟨ini, hparse, has, hsize, hget⟩ := parse_render h
  refine ⟨h, ini, hparse, has, hsize, ?_, ?_, ?_⟩
  · exact ((hget "s" "k").1 "first").mpr ⟨as.take 2, as.drop 3, rfl, by decide⟩
  · exact ((hget "" "").1 "").mpr ⟨[], as.drop 1, rfl, by decide⟩
  · exact (hget "s" "").2.mpr (by decide)

end Ini

end HostMeter
