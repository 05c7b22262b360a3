import HostMeter.Proofs.Settings.RoundTrip
/-!
# Meaning — which texts are configurations, and what they say

The lines of a configuration are of five kinds, told by the first sign of the trimmed line and by the
separators in it. A text is a configuration if no line is malformed, else its fault is that of the first
malformed line. An assignment belongs to the heading in force where it stands: the last heading above it,
or the empty one. Of several assignments to one key under one heading the first counts.

* `Ini.Silent`, `Ini.Heads`, `Ini.Assigns`, `Ini.Unclosed`, `Ini.Unassigned`: the kinds of lines.
* `Ini.Line.Says`, `Ini.Line.ofText_eq_iff`: a line is of just one kind, and is read as that.
* `Ini.firstFault?`, `Ini.assigned`, `Ini.ofLines_eq`: reading lines, told apart into faults and values.
* `Ini.InForce`, `Ini.headingAfter_eq_iff`: the heading in force behind some lines.
* `Ini.meaning_of_text`: the accepted texts, the faults of the others, and the values.
-/

namespace HostMeter.Ini

open Text

/-! ## Kinds of lines

The kinds are told by where the brackets and the equals signs of a line stand. A line is of one kind only,
and it is of some kind, so the reader takes each line for what it is. -/

/-- Does the line say nothing, being blank or a comment? -/
def Silent (line : List Char) : Prop :=
  trim line = [] ∨ (trim line).head? = some ';' ∨ (trim line).head? = some '#'

/-- Is the line a heading of this name, which stands between its bracket and the first one that closes
it? -/
def Heads (line : List Char) (name : String) : Prop :=
  ∃ inside rest, trim line = '[' :: (inside ++ ']' :: rest) ∧ ']' ∉ inside ∧
    name = String.ofList (trim inside)

/-- Does the line start neither a heading nor a comment? -/
def Plain (line : List Char) : Prop := ∀ c ∈ (trim line).head?, c ≠ '[' ∧ c ≠ ';' ∧ c ≠ '#'

/-- Does the line set this key to this value, which stand before and behind its first equals sign? -/
def Assigns (line : List Char) (key value : String) : Prop :=
  Plain line ∧ ∃ before behind, trim line = before ++ '=' :: behind ∧ '=' ∉ before ∧
    key = String.ofList (trim before) ∧ value = String.ofList (trim behind)

/-- Does the line start a heading without closing it? -/
def Unclosed (line : List Char) : Prop := ∃ rest, trim line = '[' :: rest ∧ ']' ∉ rest

/-- Does the line say something, without being a heading or setting a key? -/
def Unassigned (line : List Char) : Prop := trim line ≠ [] ∧ Plain line ∧ '=' ∉ trim line

/-- Can the line stand in a configuration? -/
def Proper (line : List Char) : Prop :=
  Silent line ∨ (∃ rest, trim line = '[' :: rest ∧ ']' ∈ rest) ∨ (Plain line ∧ '=' ∈ trim line)

/-- Is the line of this kind, and does it say just this? -/
def Line.Says (line : List Char) : Line → Prop
  | .silent => Silent line
  | .heading name => Heads line name
  | .assignment key value => Assigns line key value
  | .openHeading => Unclosed line
  | .noAssignment => Unassigned line

/-- A line that starts like no other kind of line is malformed if it cannot be cut. -/
theorem Line.ofTrimmed_of_no_cut {line : List Char} (hne : line ≠ [])
    (hhead : ∀ c ∈ line.head?, c ≠ '[' ∧ c ≠ ';' ∧ c ≠ '#') (hcut : cut? '=' line = none) :
    Line.ofTrimmed line = .noAssignment := by
  unfold Line.ofTrimmed
  split
  · exact absurd rfl hne
  · exact absurd rfl (hhead _ rfl).2.1
  · exact absurd rfl (hhead _ rfl).2.2
  · exact absurd rfl (hhead _ rfl).1
  · rw [hcut]

/-- A line is read as any kind of line that it is. -/
theorem Line.ofText_eq_of_says {line : List Char} {l : Line} (h : Line.Says line l) : Line.ofText line = l := by
  rw [Line.ofText]
  cases l with
  | silent =>
    rcases h with hnil | hhead | hhead
    · rw [hnil]
      rfl
    · obtain ⟨rest, hline⟩ := List.head?_eq_some_iff.mp hhead
      rw [hline]
      rfl
    · obtain ⟨rest, hline⟩ := List.head?_eq_some_iff.mp hhead
      rw [hline]
      rfl
  -- up to the first bracket that closes it
  | heading name =>
    obtain ⟨inside, rest, hline, hinside, rfl⟩ := h
    rw [hline, Line.ofTrimmed, cut?_eq_some_iff.mpr ⟨rfl, hinside⟩]
  -- up to the first equals sign
  | assignment key value =>
    obtain ⟨hplain, before, behind, hline, hbefore, rfl, rfl⟩ := h
    exact Line.ofTrimmed_of_cut hplain (cut?_eq_some_iff.mpr ⟨hline, hbefore⟩)
  | openHeading =>
    obtain ⟨rest, hline, hrest⟩ := h
    rw [hline, Line.ofTrimmed, cut?_eq_none_iff.mpr hrest]
  | noAssignment => exact Line.ofTrimmed_of_no_cut h.1 h.2.1 (cut?_eq_none_iff.mpr h.2.2)

/-- Every line says something, if only that it is silent or malformed. -/
theorem Line.exists_says (line : List Char) : ∃ l, Line.Says line l := by
  by_cases hnil : trim line = []
  · exact ⟨.silent, Or.inl hnil⟩
  obtain ⟨c, rest, hline⟩ := List.exists_cons_of_ne_nil hnil
  -- the first character that is not blank tells the kind
  by_cases hbracket : c = '['
  · subst hbracket
    by_cases hclose : ']' ∈ rest
    · obtain ⟨inside, behind, rfl, hinside⟩ := List.eq_append_cons_of_mem hclose
      exact ⟨.heading _, inside, behind, hline, hinside, rfl⟩
    · exact ⟨.openHeading, rest, hline, hclose⟩
  by_cases hsemicolon : c = ';'
  · exact ⟨.silent, Or.inr (Or.inl (by rw [hline, hsemicolon]; rfl))⟩
  by_cases hhash : c = '#'
  · exact ⟨.silent, Or.inr (Or.inr (by rw [hline, hhash]; rfl))⟩
  have hplain : Plain line := by
    intro d hd
    rw [hline] at hd
    cases hd
    exact ⟨hbracket, hsemicolon, hhash⟩
  by_cases hequals : '=' ∈ trim line
  · obtain ⟨before, behind, hcut, hbefore⟩ := List.eq_append_cons_of_mem hequals
    exact ⟨.assignment _ _, hplain, before, behind, hcut, hbefore, rfl, rfl⟩
  · exact ⟨.noAssignment, hnil, hplain, hequals⟩

/-- **A line is read as what it says**, and it says one thing only. -/
theorem Line.ofText_eq_iff {line : List Char} {l : Line} : Line.ofText line = l ↔ Line.Says line l := by
  constructor
  · rintro rfl
    obtain ⟨l, hl⟩ := Line.exists_says line
    exact Line.ofText_eq_of_says hl ▸ hl
  · exact Line.ofText_eq_of_says

variable {line : List Char}

theorem Line.ofText_eq_heading_iff {name : String} : Line.ofText line = .heading name ↔ Heads line name :=
  Line.ofText_eq_iff

theorem Line.ofText_eq_assignment_iff {key value : String} :
    Line.ofText line = .assignment key value ↔ Assigns line key value :=
  Line.ofText_eq_iff

/-! ## Faults and values

Reading goes through the lines with a number and a heading and stops at the first fault. What it comes to is
split in two: the first fault, which does not ask for headings, and the assignments, which do not ask for
line numbers. -/

/-- Is this a kind of line that no configuration has? -/
def Line.isMalformed : Line → Bool
  | .openHeading | .noAssignment => true
  | .silent | .heading _ | .assignment _ _ => false

/-- **Just the malformed lines are not proper.** -/
theorem proper_iff : Proper line ↔ (Line.ofText line).isMalformed = false := by
  constructor
  · rintro (hsilent | ⟨rest, hline, hclose⟩ | ⟨hplain, hequals⟩)
    · rw [Line.ofText_eq_of_says (l := .silent) hsilent]
      rfl
    · obtain ⟨inside, behind, rfl, hinside⟩ := List.eq_append_cons_of_mem hclose
      rw [Line.ofText_eq_heading_iff.mpr ⟨inside, behind, hline, hinside, rfl⟩]
      rfl
    · obtain ⟨before, behind, hcut, hbefore⟩ := List.eq_append_cons_of_mem hequals
      rw [Line.ofText_eq_assignment_iff.mpr ⟨hplain, before, behind, hcut, hbefore, rfl, rfl⟩]
      rfl
  · obtain ⟨l, hl⟩ := Line.exists_says line
    rw [Line.ofText_eq_of_says hl]
    intro hsound
    -- what is read is no fault, so it is one of the three other kinds
    cases l with
    | silent => exact Or.inl hl
    | heading name =>
      obtain ⟨inside, rest, hline, _, _⟩ := hl
      exact Or.inr (Or.inl ⟨_, hline, by simp⟩)
    | assignment key value =>
      obtain ⟨hplain, before, behind, hline, _⟩ := hl
      exact Or.inr (Or.inr ⟨hplain, by simp [hline]⟩)
    | openHeading => cases hsound
    | noAssignment => cases hsound

/-- The fault of a line that is malformed, the line having the given number. -/
def Line.fault? (n : Nat) : Line → Option IniFault
  | .openHeading => some (.openHeading n)
  | .noAssignment => some (.noAssignment n)
  | .silent | .heading _ | .assignment _ _ => none

theorem Line.fault?_eq_none_iff {n : Nat} {l : Line} : l.fault? n = none ↔ l.isMalformed = false := by
  cases l <;> simp [fault?, isMalformed]

/-- A line is at fault for an open heading or for saying something without an equals sign. -/
theorem Line.fault?_ofText_iff {n : Nat} {f : IniFault} :
    (Line.ofText line).fault? n = some f ↔
      Unclosed line ∧ f = .openHeading n ∨ Unassigned line ∧ f = .noAssignment n := by
  have hopen : Line.ofText line = .openHeading ↔ Unclosed line := Line.ofText_eq_iff
  have hunset : Line.ofText line = .noAssignment ↔ Unassigned line := Line.ofText_eq_iff
  rw [← hopen, ← hunset]
  cases Line.ofText line <;> simp [fault?, eq_comm]

/-- The fault of the first malformed line. -/
def firstFault? : Nat → List Line → Option IniFault
  | _, [] => none
  | n, l :: rest => (l.fault? n).or (firstFault? (n + 1) rest)

/-- The heading in force behind a line. -/
def Line.headingBehind (heading : String) : Line → String
  | .heading name => name
  | .silent | .assignment _ _ | .openHeading | .noAssignment => heading

/-- The assignment that a line makes under a heading. -/
def Line.assignment? (heading : String) : Line → Option Assignment
  | .assignment key value => some ⟨heading, key, value⟩
  | .silent | .heading _ | .openHeading | .noAssignment => none

theorem Line.assignment?_eq_some_iff {l : Line} {heading : String} {a : Assignment} :
    l.assignment? heading = some a ↔ l = .assignment a.key a.value ∧ heading = a.heading := by
  obtain ⟨heading', key, value⟩ := a
  cases l <;> simp [assignment?, and_comm]

/-- The assignments in lines that follow a heading, malformed lines passed over. -/
def assigned : String → List Line → List Assignment
  | _, [] => []
  | heading, l :: rest => (l.assignment? heading).toList ++ assigned (l.headingBehind heading) rest

/-- **Reading lines.** It ends with the first fault, or else with the assignments. -/
theorem ofLines_eq (n : Nat) (heading : String) (ls : List (List Char)) :
    ofLines n heading ls =
      match firstFault? n (ls.map Line.ofText) with
      | some f => .error f
      | none => .ok (assigned heading (ls.map Line.ofText)) := by
  induction ls generalizing n heading with
  | nil => rfl
  | cons line ls ih =>
    rw [List.map_cons, ofLines]
    cases Line.ofText line with
    | silent => exact ih (n + 1) heading
    | heading name => exact ih (n + 1) name
    | assignment key value =>
      dsimp only
      rw [ih, firstFault?, Line.fault?, Option.none_or]
      cases firstFault? (n + 1) (ls.map Line.ofText) <;> rfl
    -- the first fault ends the reading, whatever is below it
    | openHeading => rfl
    | noAssignment => rfl

/-- There is no fault just if no line is malformed. -/
theorem firstFault?_eq_none_iff {n : Nat} {ls : List Line} :
    firstFault? n ls = none ↔ ∀ l ∈ ls, l.isMalformed = false := by
  induction ls generalizing n with
  | nil => simp [firstFault?]
  | cons l ls ih => rw [firstFault?, Option.or_eq_none_iff, ih, Line.fault?_eq_none_iff, List.forall_mem_cons]

/-- The first fault is that of a malformed line above which there is none. -/
theorem firstFault?_eq_some_iff {n : Nat} {ls : List Line} {f : IniFault} :
    firstFault? n ls = some f ↔
      ∃ before l after, ls = before ++ l :: after ∧ (∀ b ∈ before, b.isMalformed = false) ∧
        l.fault? (n + before.length) = some f := by
  induction ls generalizing n with
  | nil => simp [firstFault?]
  | cons l ls ih =>
    rw [firstFault?, Option.or_eq_some_iff, ih, Line.fault?_eq_none_iff]
    constructor
    · rintro (hl | ⟨hl, before, l', after, rfl, hbefore, hl'⟩)
      · exact ⟨[], l, ls, rfl, nofun, hl⟩
      · refine ⟨l :: before, l', after, rfl, List.forall_mem_cons.mpr ⟨hl, hbefore⟩, ?_⟩
        rwa [List.length_cons, Nat.add_comm before.length, ← Nat.add_assoc]
    · rintro ⟨before, l', after, hsplit, hbefore, hl'⟩
      cases before with
      | nil =>
        obtain ⟨rfl, rfl⟩ := List.cons.inj hsplit
        exact Or.inl hl'
      | cons b before =>
        obtain ⟨rfl, rfl⟩ := List.cons.inj hsplit
        obtain ⟨hl, hbefore⟩ := List.forall_mem_cons.mp hbefore
        refine Or.inr ⟨hl, before, l', after, rfl, hbefore, ?_⟩
        rwa [List.length_cons, Nat.add_comm before.length, ← Nat.add_assoc] at hl'

/-- What the lines of a text say. -/
def linesSaid (text : String) : List Line := (lines text.toList).map Line.ofText

/-- A text is accepted if no line is malformed, and its assignments are those of its lines. -/
theorem parse_eq_ok_iff {text : String} {ini : Ini} :
    parse text = .ok ini ↔
      (∀ l ∈ linesSaid text, l.isMalformed = false) ∧ ini.assignments = assigned "" (linesSaid text) := by
  rw [← firstFault?_eq_none_iff (n := 1), parse, ofLines_eq, ← linesSaid]
  obtain ⟨assignments⟩ := ini
  cases firstFault? 1 (linesSaid text) with
  | some f =>
    show Except.error _ = Except.ok _ ↔ _
    simp only [reduceCtorEq, false_and]
  | none =>
    show Except.ok _ = Except.ok _ ↔ _
    rw [Except.ok.injEq, mk.injEq, eq_comm]
    exact (and_iff_right rfl).symm

/-- A text is refused for the first fault of its lines, the first line having the number one. -/
theorem parse_eq_error_iff {text : String} {f : IniFault} :
    parse text = .error f ↔ firstFault? 1 (linesSaid text) = some f := by
  rw [parse, ofLines_eq, ← linesSaid]
  cases firstFault? 1 (linesSaid text) with
  | some f' =>
    show Except.error _ = Except.error _ ↔ _
    rw [Except.error.injEq, Option.some.injEq]
  | none =>
    show Except.ok _ = Except.error _ ↔ _
    simp only [reduceCtorEq]

/-! ## Headings in force

The heading that reading carries along is told here by the lines above: it is that of the last of them that
is a heading. -/

/-- The heading in force behind lines that follow a heading. -/
def headingAfter (heading : String) (ls : List Line) : String := ls.foldl Line.headingBehind heading

/-- The assignments of lines that follow others are made under the heading in force behind those. -/
theorem assigned_append (heading : String) (ls ls' : List Line) :
    assigned heading (ls ++ ls') = assigned heading ls ++ assigned (headingAfter heading ls) ls' := by
  induction ls generalizing heading with
  | nil => rfl
  | cons l ls ih =>
    rw [List.cons_append, assigned, assigned, ih, List.append_assoc]
    rfl

/-- An assignment stems from a line that makes it, under the heading in force there. -/
theorem assigned_eq_append_cons_iff {start : String} {ls : List Line} {before after : List Assignment}
    {a : Assignment} :
    assigned start ls = before ++ a :: after ↔
      ∃ above below, ls = above ++ .assignment a.key a.value :: below ∧ headingAfter start above = a.heading ∧
        assigned start above = before ∧ assigned a.heading below = after := by
  constructor
  · intro h
    induction ls generalizing start before with
    | nil => simp [assigned] at h
    | cons l ls ih =>
      rw [assigned] at h
      cases hl : l.assignment? start with
      | none =>
        rw [hl] at h
        obtain ⟨above, below, rfl, hheading, rfl, hbelow⟩ := ih h
        refine ⟨l :: above, below, rfl, hheading, ?_, hbelow⟩
        rw [assigned, hl]
        rfl
      | some a' =>
        rw [hl, Option.toList_some, List.singleton_append] at h
        obtain ⟨rfl, hstart⟩ := Line.assignment?_eq_some_iff.mp hl
        cases before with
        | nil =>
          -- the line is the one that makes the assignment
          obtain ⟨rfl, hafter⟩ := List.cons.inj h
          exact ⟨[], ls, rfl, hstart, rfl, hstart ▸ hafter⟩
        | cons b before =>
          obtain ⟨rfl, hrest⟩ := List.cons.inj h
          obtain ⟨above, below, rfl, hheading, rfl, hbelow⟩ := ih hrest
          refine ⟨.assignment a'.key a'.value :: above, below, rfl, hheading, ?_, hbelow⟩
          rw [assigned, hl]
          rfl
  · rintro ⟨above, below, rfl, hheading, rfl, rfl⟩
    rw [assigned_append, hheading, assigned]
    rfl

/-- Is the heading in force behind these lines, which follow a start? It is the name of the last heading
among them, or the start if there is none. -/
def InForce (start : String) (ls : List (List Char)) (heading : String) : Prop :=
  (∃ above line below, ls = above ++ line :: below ∧ Heads line heading ∧
    ∀ l ∈ below, ∀ name, ¬Heads l name) ∨
  heading = start ∧ ∀ l ∈ ls, ∀ name, ¬Heads l name

/-- Behind a heading it does not matter what was in force before it. -/
theorem inForce_cons_iff_of_heads {start name heading : String} {ls : List (List Char)}
    (h : Heads line name) : InForce start (line :: ls) heading ↔ InForce name ls heading := by
  constructor
  · rintro (⟨above, line', below, hsplit, hheads, hbelow⟩ | ⟨_, hnone⟩)
    · cases above with
      | nil =>
        obtain ⟨rfl, rfl⟩ := List.cons.inj hsplit
        have hname := Line.ofText_eq_heading_iff.mpr hheads
        rw [Line.ofText_eq_heading_iff.mpr h] at hname
        exact Or.inr ⟨(Line.heading.inj hname).symm, hbelow⟩
      | cons l above =>
        obtain ⟨rfl, rfl⟩ := List.cons.inj hsplit
        exact Or.inl ⟨above, line', below, rfl, hheads, hbelow⟩
    · exact absurd h (hnone line List.mem_cons_self name)
  · rintro (⟨above, line', below, rfl, hheads, hbelow⟩ | ⟨rfl, hnone⟩)
    · exact Or.inl ⟨line :: above, line', below, rfl, hheads, hbelow⟩
    · exact Or.inl ⟨[], line, ls, rfl, h, hnone⟩

/-- A line that is no heading leaves the heading in force. -/
theorem inForce_cons_iff {start heading : String} {ls : List (List Char)} (h : ∀ name, ¬Heads line name) :
    InForce start (line :: ls) heading ↔ InForce start ls heading := by
  constructor
  · rintro (⟨above, line', below, hsplit, hheads, hbelow⟩ | ⟨rfl, hnone⟩)
    · cases above with
      | nil =>
        obtain ⟨rfl, rfl⟩ := List.cons.inj hsplit
        exact absurd hheads (h heading)
      | cons l above =>
        obtain ⟨rfl, rfl⟩ := List.cons.inj hsplit
        exact Or.inl ⟨above, line', below, rfl, hheads, hbelow⟩
    · exact Or.inr ⟨rfl, fun l hl => hnone l (List.mem_cons_of_mem _ hl)⟩
  · rintro (⟨above, line', below, rfl, hheads, hbelow⟩ | ⟨rfl, hnone⟩)
    · exact Or.inl ⟨line :: above, line', below, rfl, hheads, hbelow⟩
    · exact Or.inr ⟨rfl, List.forall_mem_cons.mpr ⟨h, hnone⟩⟩

/-- **The heading that is carried along is the one in force.** -/
theorem headingAfter_eq_iff {start heading : String} {ls : List (List Char)} :
    headingAfter start (ls.map Line.ofText) = heading ↔ InForce start ls heading := by
  induction ls generalizing start with
  | nil => simp [headingAfter, InForce, eq_comm]
  | cons line ls ih =>
    rw [List.map_cons, headingAfter, List.foldl_cons, ← headingAfter, ih]
    cases hline : Line.ofText line with
    | heading name => exact (inForce_cons_iff_of_heads (Line.ofText_eq_heading_iff.mp hline)).symm
    | silent | assignment _ _ | openHeading | noAssignment =>
      refine (inForce_cons_iff fun name hheads => ?_).symm
      rw [Line.ofText_eq_heading_iff.mpr hheads] at hline
      cases hline

/-! ## Values

A key has the value of the first line that sets it under the heading, wherever in the text the section is
opened again. -/

/-- Does this line of a text, which stands below the others, set the key under the heading? -/
def SetsAt (heading key : String) (above : List (List Char)) (line : List Char) (value : String) : Prop :=
  InForce "" above heading ∧ Assigns line key value

theorem map_ofText_eq_append_cons_iff {ls : List (List Char)} {before after : List Line} {l : Line} :
    ls.map Line.ofText = before ++ l :: after ↔
      ∃ above line below, ls = above ++ line :: below ∧ above.map Line.ofText = before ∧
        Line.ofText line = l ∧ below.map Line.ofText = after := by
  rw [List.map_eq_append_iff]
  constructor
  · rintro ⟨above, rest, rfl, rfl, hrest⟩
    obtain ⟨line, below, rfl, rfl, rfl⟩ := List.map_eq_cons_iff.mp hrest
    exact ⟨above, line, below, rfl, rfl, rfl, rfl⟩
  · rintro ⟨above, line, below, rfl, rfl, rfl, rfl⟩
    exact ⟨above, line :: below, rfl, rfl, rfl⟩

/-- Which assignments there are: those that some line makes. -/
theorem mem_assigned_iff {ls : List (List Char)} {heading key value : String} :
    ⟨heading, key, value⟩ ∈ assigned "" (ls.map Line.ofText) ↔
      ∃ above line below, ls = above ++ line :: below ∧ SetsAt heading key above line value := by
  rw [List.mem_iff_append]
  simp only [assigned_eq_append_cons_iff, map_ofText_eq_append_cons_iff]
  constructor
  · rintro ⟨_, _, _, _, ⟨above, line, below, rfl, rfl, hline, rfl⟩, hheading, rfl, rfl⟩
    exact ⟨above, line, below, rfl, headingAfter_eq_iff.mp hheading, Line.ofText_eq_assignment_iff.mp hline⟩
  · rintro ⟨above, line, below, rfl, hheading, hassigns⟩
    exact ⟨_, _, _, _, ⟨above, line, below, rfl, rfl, Line.ofText_eq_assignment_iff.mpr hassigns, rfl⟩,
      headingAfter_eq_iff.mpr hheading, rfl, rfl⟩

/-- No assignment is one for the key just if no line sets it. -/
theorem forall_not_sets_iff {ls : List (List Char)} {heading key : String} :
    (∀ a ∈ assigned "" (ls.map Line.ofText), ¬Sets heading key a) ↔
      ∀ above line below value, ls = above ++ line :: below → ¬SetsAt heading key above line value := by
  constructor
  · intro hnone above line below value hsplit hsets
    exact hnone _ (mem_assigned_iff.mpr ⟨above, line, below, hsplit, hsets⟩) ⟨rfl, rfl⟩
  · rintro hnone ⟨_, _, value⟩ hmem ⟨rfl, rfl⟩
    obtain ⟨above, line, below, hsplit, hsets⟩ := mem_assigned_iff.mp hmem
    exact hnone above line below value hsplit hsets

variable {ini : Ini} {ls : List (List Char)} {heading key : String}

/-- The value of a key is that of the first line that sets it. -/
theorem get?_eq_some_iff_of_assigned (h : ini.assignments = assigned "" (ls.map Line.ofText)) {value : String} :
    ini.get? heading key = some value ↔
      ∃ above line below, ls = above ++ line :: below ∧ SetsAt heading key above line value ∧
        ∀ above' line' below' value', above = above' ++ line' :: below' →
          ¬SetsAt heading key above' line' value' := by
  rw [get?_eq_some_iff, h]
  simp only [assigned_eq_append_cons_iff, map_ofText_eq_append_cons_iff]
  constructor
  · rintro ⟨_, _, ⟨_, _, ⟨above, line, below, rfl, rfl, hline, rfl⟩, hheading, rfl, rfl⟩, hfirst⟩
    exact ⟨above, line, below, rfl, ⟨headingAfter_eq_iff.mp hheading, Line.ofText_eq_assignment_iff.mp hline⟩,
      forall_not_sets_iff.mp hfirst⟩
  · rintro ⟨above, line, below, rfl, ⟨hheading, hassigns⟩, hfirst⟩
    exact ⟨_, _, ⟨_, _, ⟨above, line, below, rfl, rfl, Line.ofText_eq_assignment_iff.mpr hassigns, rfl⟩,
      headingAfter_eq_iff.mpr hheading, rfl, rfl⟩, forall_not_sets_iff.mpr hfirst⟩

/-! ## The law -/

/-- What is reported of a line at fault: its number and what is wrong with it. -/
theorem toFault_eq_iff {line : List Char} {n : Nat} {f : Fault} :
    (∃ g, (Line.ofText line).fault? n = some g ∧ g.toFault = f) ↔
      Unclosed line ∧ f = .parse ("config line " ++ Text.ofNat n ++ ": missing ']'") ∨
      Unassigned line ∧ f = .parse ("config line " ++ Text.ofNat n ++ ": expected key=value") := by
  simp only [Line.fault?_ofText_iff]
  constructor
  · rintro ⟨g, ⟨hline, rfl⟩ | ⟨hline, rfl⟩, rfl⟩
    · exact Or.inl ⟨hline, rfl⟩
    · exact Or.inr ⟨hline, rfl⟩
  · rintro (⟨hline, rfl⟩ | ⟨hline, rfl⟩)
    · exact ⟨.openHeading n, Or.inl ⟨hline, rfl⟩, rfl⟩
    · exact ⟨.noAssignment n, Or.inr ⟨hline, rfl⟩, rfl⟩

/-- **A text is refused for its first line that is not proper**, with the number of that line. -/
theorem mapError_parse_eq_error_iff {text : String} {f : Fault} :
    (parse text).mapError IniFault.toFault = .error f ↔
      ∃ above line below, lines text.toList = above ++ line :: below ∧ (∀ l ∈ above, Proper l) ∧
        ∃ g, (Line.ofText line).fault? (above.length + 1) = some g ∧ g.toFault = f := by
  have hparse : (parse text).mapError IniFault.toFault = .error f ↔
      ∃ g, parse text = .error g ∧ g.toFault = f := by
    cases parse text with
    | ok ini =>
      show Except.ok _ = Except.error _ ↔ _
      simp only [reduceCtorEq, false_and, exists_false]
    | error g =>
      show Except.error _ = Except.error _ ↔ _
      simp only [Except.error.injEq, exists_eq_left']
  rw [hparse]
  simp only [parse_eq_error_iff, firstFault?_eq_some_iff, linesSaid, map_ofText_eq_append_cons_iff]
  constructor
  · rintro ⟨g, ⟨_, _, _, ⟨above, line, below, hsplit, rfl, rfl, rfl⟩, habove, hfault⟩, hg⟩
    refine ⟨above, line, below, hsplit, fun l hl => ?_, g, ?_, hg⟩
    · exact proper_iff.mpr (habove _ (List.mem_map_of_mem hl))
    · rwa [List.length_map, Nat.add_comm] at hfault
  · rintro ⟨above, line, below, hsplit, habove, g, hfault, hg⟩
    refine ⟨g, ⟨_, _, _, ⟨above, line, below, hsplit, rfl, rfl, rfl⟩, ?_, ?_⟩, hg⟩
    · rintro _ hmem
      obtain ⟨l, hl, rfl⟩ := List.mem_map.mp hmem
      exact proper_iff.mp (habove l hl)
    · rwa [List.length_map, Nat.add_comm]

/-- **A text is accepted just if each of its lines is proper.** -/
theorem exists_parse_eq_ok_iff {text : String} :
    (∃ ini, parse text = .ok ini) ↔ ∀ line ∈ lines text.toList, Proper line := by
  simp only [parse_eq_ok_iff, linesSaid, List.forall_mem_map, proper_iff]
  constructor
  · rintro ⟨_, hproper, _⟩
    exact hproper
  · exact fun hproper => ⟨⟨_⟩, hproper, rfl⟩

/-- **What a text says.** It is a configuration just if each of its lines is proper; else the fault names
the first line that is not, and what that line lacks. In a configuration the value of a key under a
heading is that of the first line that sets the key where the heading is in force, and there is none if no
line does. -/
theorem meaning_of_text {text : String} {ls : List (List Char)} (hls : SplitsInto text.toList ls) :
    ((∃ ini, parse text = .ok ini) ↔ ∀ line ∈ ls, Proper line) ∧
    (∀ f, (parse text).mapError IniFault.toFault = .error f ↔
      ∃ above line below, ls = above ++ line :: below ∧ (∀ l ∈ above, Proper l) ∧
        (Unclosed line ∧ f = .parse ("config line " ++ ofNat (above.length + 1) ++ ": missing ']'") ∨
          Unassigned line ∧
            f = .parse ("config line " ++ ofNat (above.length + 1) ++ ": expected key=value"))) ∧
    ∀ ini, parse text = .ok ini → ∀ heading key,
      (∀ value, ini.get? heading key = some value ↔
        ∃ above line below, ls = above ++ line :: below ∧ SetsAt heading key above line value ∧
          ∀ above' line' below' value', above = above' ++ line' :: below' →
            ¬SetsAt heading key above' line' value') ∧
      (ini.get? heading key = none ↔
        ∀ above line below value, ls = above ++ line :: below → ¬SetsAt heading key above line value) := by
  obtain rfl := hls.eq_lines
  refine ⟨exists_parse_eq_ok_iff, fun f => ?_, fun ini hini heading key => ?_⟩
  · rw [mapError_parse_eq_error_iff]
    simp only [toFault_eq_iff]
  · have hassigned := (parse_eq_ok_iff.mp hini).2
    refine ⟨fun value => get?_eq_some_iff_of_assigned hassigned, ?_⟩
    rw [get?_eq_none_iff, hassigned]
    exact forall_not_sets_iff

/-- A key above the first heading, a section that is opened twice, a comment between, blanks of all kinds,
a value with an equals sign and a last line without a line feed; and a text whose third line is malformed. -/
theorem meaning_of_text_reopened :
    let text := "k=0\r\n[ s ] x\n k =\ta=b \n; [t]\n[t]\nk=1\n\n[s]\nk=2"
    let wrong := "[s]\n\nk 1\n[s"
    SplitsInto text.toList (lines text.toList) ∧ SplitsInto wrong.toList (lines wrong.toList) ∧
      (∃ ini, parse text = .ok ini ∧ ini.get? "s" "k" = some "a=b" ∧ ini.get? "s" "x" = none) ∧
      (parse wrong).mapError IniFault.toFault = .error (.parse "config line 3: expected key=value") := by
  intro text wrong
  obtain ⟨haccepted, _, hvalues⟩ := meaning_of_text (splitsInto_lines text.toList)
  obtain ⟨_, hfaults, _⟩ := meaning_of_text (splitsInto_lines wrong.toList)
  obtain ⟨ini, hini⟩ := haccepted.mpr fun line hline => proper_iff.mpr (by revert line; decide)
  refine ⟨splitsInto_lines _, splitsInto_lines _, ⟨ini, hini, ?_, ?_⟩, ?_⟩
  · refine ((hvalues ini hini "s" "k").1 "a=b").mpr ⟨(lines text.toList).take 2, " k =\ta=b ".toList,
      (lines text.toList).drop 3, by decide, ⟨headingAfter_eq_iff.mp (by decide), ?_⟩, ?_⟩
    · exact Line.ofText_eq_assignment_iff.mp (by decide)
    · exact forall_not_sets_iff.mp (by decide)
  · exact (hvalues ini hini "s" "x").2.mpr (forall_not_sets_iff.mp (by decide))
  · refine (hfaults _).mpr ⟨["[s]".toList, []], "k 1".toList, ["[s".toList], by decide, ?_, Or.inr ⟨?_, rfl⟩⟩
    · exact fun line hline => proper_iff.mpr (by revert line; decide)
    · exact Line.ofText_eq_iff.mp (show _ = Line.noAssignment by decide)

end HostMeter.Ini
