import HostMeter.Proofs.Settings.Meaning
import HostMeter.Proofs.Text.LineByLine
/-!
# Edits — what a configuration keeps when its text is edited

A text says what its lines say one after the other, and the silent lines among them say nothing. So a text
may be laid out anew: silent lines come in, blanks come in at both ends of lines, and carriage returns
come in before the line feeds. If lines are put behind a text, they add assignments to those there are,
and the first assignment of a key still counts.

* `Ini.statements`, `Ini.statements_append`: what a text says, taken apart at a line feed.
* `Ini.parse_eq_ok_iff_statements`: a configuration is made of these alone.
* `Ini.Relaid`, `Ini.Relaid.statements_eq`: a text that is laid out anew says the same.
* `Ini.keeps_under_edits`: what stays when a text is laid out anew, and when lines are put behind it.
-/

namespace HostMeter.Ini

open Text

/-! ## Statements

What a text says is the list of what its lines say, the silent lines left out. Each line is read by itself,
so the law of `LineWise` readings takes the list apart at every line feed, and nothing else about lines is
needed below. -/

/-- Does the line say anything? -/
def Line.speaks : Line → Bool
  | .silent => false
  | .heading _ | .assignment _ _ | .openHeading | .noAssignment => true

/-- What the lines of a text say, in order, the silent ones left out. -/
def statements (cs : List Char) : List Line := ((lines cs).map Line.ofText).filter Line.speaks

/-- What a line says, if it says anything. -/
def said? (line : List Char) : Option Line := Option.guard Line.speaks (Line.ofText line)

/-- **A configuration is read line by line**: an empty line is silent, and a carriage return at the end of a
line is blank. -/
theorem lineWise_said? : LineWise said? where
  nil := rfl
  concat_return line := by
    rw [said?, Line.ofText, trim_append_blanks (List.forall_mem_singleton.mpr rfl), said?, Line.ofText]

/-- The statements, as what a reader of single lines finds. -/
theorem statements_eq (cs : List Char) : statements cs = (lines cs).filterMap said? := by
  rw [statements, ← List.filterMap_eq_filter, List.filterMap_map]
  rfl

@[simp] theorem statements_nil : statements [] = [] := rfl

/-- **What stands on both sides of a line feed is said one after the other.** -/
theorem statements_append (a b : List Char) : statements (a ++ '\n' :: b) = statements a ++ statements b := by
  rw [statements_eq, statements_eq, statements_eq, lineWise_said?.append]

theorem statements_newline_cons (cs : List Char) : statements ('\n' :: cs) = statements cs :=
  statements_append [] cs

theorem statements_of_line {line : List Char} (h : '\n' ∉ line) : statements line = (said? line).toList := by
  rw [statements_eq, lineWise_said?.of_line h]

theorem statements_eq_nil_of_silent {line : List Char} (h : '\n' ∉ line) (hsilent : Silent line) :
    statements line = [] := by
  rw [statements_of_line h, said?, Line.ofText_eq_of_says (l := .silent) hsilent]
  rfl

/-! ### A configuration is made of the statements alone -/

/-- A malformed line is not silent. -/
theorem Line.speaks_of_isMalformed {l : Line} (h : l.isMalformed = true) : l.speaks = true := by
  cases l with
  | silent => cases h
  | heading | assignment | openHeading | noAssignment => rfl

/-- Whether all lines are sound can be told without the silent ones. -/
theorem forall_isMalformed_filter_iff {ls : List Line} :
    (∀ l ∈ ls.filter Line.speaks, l.isMalformed = false) ↔ ∀ l ∈ ls, l.isMalformed = false := by
  constructor
  · intro hsound l hl
    refine Bool.eq_false_iff.mpr fun hmalformed => ?_
    have hkept := List.mem_filter.mpr ⟨hl, Line.speaks_of_isMalformed hmalformed⟩
    exact absurd hmalformed (Bool.eq_false_iff.mp (hsound l hkept))
  · exact fun hsound l hl => hsound l (List.mem_filter.mp hl).1

/-- Silent lines assign nothing and do not change the heading in force. -/
theorem assigned_filter_speaks (heading : String) (ls : List Line) :
    assigned heading (ls.filter Line.speaks) = assigned heading ls := by
  induction ls generalizing heading with
  | nil => rfl
  | cons l ls ih =>
    cases l with
    | silent => exact ih heading
    | heading | assignment | openHeading | noAssignment =>
      rw [List.filter_cons_of_pos rfl, assigned, ih, assigned]

/-- **A configuration is made of the statements of its text.** -/
theorem parse_eq_ok_iff_statements {text : String} {ini : Ini} :
    parse text = .ok ini ↔
      (∀ l ∈ statements text.toList, l.isMalformed = false) ∧
        ini.assignments = assigned "" (statements text.toList) := by
  rw [parse_eq_ok_iff, statements, ← linesSaid, forall_isMalformed_filter_iff, assigned_filter_speaks]

/-! ## Blanks at the ends of lines

A line is trimmed before it is read, so blanks at its two ends say nothing. Put into a whole text they are
blanks before its first line or behind its last one; the text is cut there, and the line by itself settles
it. -/

/-- Two lines that are trimmed to the same text say the same. -/
theorem statements_eq_of_trim_eq {line line' : List Char} (h : '\n' ∉ line) (h' : '\n' ∉ line')
    (htrim : trim line = trim line') : statements line = statements line' := by
  rw [statements_of_line h, statements_of_line h', said?, said?, Line.ofText, Line.ofText, htrim]

/-- Blanks that end no line. -/
structure Blanks (bs : List Char) : Prop where
  blank : ∀ b ∈ bs, isBlank b = true
  newline_not_mem : '\n' ∉ bs

-- The blanks are looked at one by one: the search may find a decision over every character.
instance (bs : List Char) : Decidable (Blanks bs) :=
  have : Decidable (∀ b ∈ bs, isBlank b = true) := List.decidableBAll _ _
  decidable_of_iff ((∀ b ∈ bs, isBlank b = true) ∧ '\n' ∉ bs) ⟨fun h => ⟨h.1, h.2⟩, fun h => ⟨h.1, h.2⟩⟩

/-- Blanks before a text are blanks before its first line. -/
theorem statements_blanks_append {bs : List Char} (hbs : Blanks bs) (cs : List Char) :
    statements (bs ++ cs) = statements cs := by
  have hline : ∀ line, '\n' ∉ line → statements (bs ++ line) = statements line := fun line h =>
    statements_eq_of_trim_eq (by simp [h, hbs.newline_not_mem]) h (trim_blanks_append hbs.blank line)
  -- the first line ends at the first line feed, if there is one
  by_cases hmem : '\n' ∈ cs
  · obtain ⟨first, rest, rfl, hfirst⟩ := List.eq_append_cons_of_mem hmem
    rw [← List.append_assoc, statements_append, statements_append, hline first hfirst]
  · exact hline cs hmem

/-- Blanks behind a text are blanks behind its last line. -/
theorem statements_append_blanks {bs : List Char} (hbs : Blanks bs) (cs : List Char) :
    statements (cs ++ bs) = statements cs := by
  have hline : ∀ line, '\n' ∉ line → statements (line ++ bs) = statements line := fun line h =>
    statements_eq_of_trim_eq (by simp [h, hbs.newline_not_mem]) h (trim_append_blanks hbs.blank line)
  -- the last line starts behind the last line feed
  by_cases hmem : '\n' ∈ cs
  · obtain ⟨init, last, rfl, hlast⟩ := exists_append_newline_of_mem hmem
    rw [List.append_assoc, List.cons_append, statements_append, statements_append, hline last hlast]
  · exact hline cs hmem

/-- Does a line end before the text? -/
def EndsLine (cs : List Char) : Prop :=
  cs = [] ∨ (∃ rest, cs = '\n' :: rest) ∨ ∃ rest, cs = '\r' :: '\n' :: rest

/-- Behind whole lines a text says what it says by itself. -/
theorem statements_append_of_wholeLines {a : List Char} (ha : WholeLines a) (b : List Char) :
    statements (a ++ b) = statements a ++ statements b := by
  rw [statements_eq, statements_eq, statements_eq, lineWise_said?.append_of_wholeLines ha]

/-- Before the end of a line, too, both sides say what they say by themselves. A carriage return that
belongs to the end is blank, wherever it is counted. -/
theorem statements_append_of_endsLine {b : List Char} (hb : EndsLine b) (a : List Char) :
    statements (a ++ b) = statements a ++ statements b := by
  rcases hb with rfl | ⟨rest, rfl⟩ | ⟨rest, rfl⟩
  · rw [List.append_nil, statements_nil, List.append_nil]
  · rw [statements_append, statements_newline_cons]
  · have hreturn : Blanks ['\r'] := by decide
    rw [List.append_cons, statements_append, statements_append_blanks hreturn,
      ← List.singleton_append, statements_blanks_append hreturn, statements_newline_cons]

/-! ## Texts laid out anew

The single edits and their closure. Each edit leaves the statements alone, so the closure does, and a
configuration is made of the statements. -/

/-- The text with a carriage return before each line feed. -/
def withReturns (cs : List Char) : List Char := cs.flatMap fun c => if c = '\n' then ['\r', '\n'] else [c]

/-- Carriage returns before the line feeds say nothing, whatever stands before the text. -/
theorem statements_append_withReturns (a cs : List Char) :
    statements (a ++ withReturns cs) = statements (a ++ cs) := by
  induction cs generalizing a with
  | nil => rfl
  | cons c cs ih =>
    -- a line feed ends a line; any other character joins what stands before it
    by_cases hc : c = '\n'
    · subst hc
      have hcons : withReturns ('\n' :: cs) = '\r' :: '\n' :: withReturns cs := rfl
      have hbehind : statements (withReturns cs) = statements cs := ih []
      rw [hcons, List.append_cons, statements_append, statements_append_blanks (by decide), statements_append,
        hbehind]
    · have hcons : withReturns (c :: cs) = c :: withReturns cs := by
        rw [withReturns, List.flatMap_cons, if_neg hc, ← withReturns, List.singleton_append]
      rw [hcons, List.append_cons, ih, ← List.append_cons]

/-- One of the two texts is the other one laid out anew. -/
inductive Relaid : String → String → Prop where
  | refl (c : String) : Relaid c c
  | symm {c d : String} : Relaid c d → Relaid d c
  | trans {c d e : String} : Relaid c d → Relaid d e → Relaid c e
  /-- A silent line where a line can start. -/
  | line (a b line : String) (ha : WholeLines a.toList) (h : '\n' ∉ line.toList)
      (hsilent : Silent line.toList) : Relaid (a ++ b) (a ++ line ++ "\n" ++ b)
  /-- A silent line behind the last one. -/
  | lastLine (a line : String) (h : '\n' ∉ line.toList) (hsilent : Silent line.toList) :
      Relaid a (a ++ "\n" ++ line)
  | blanksBefore (a b bs : String) (ha : WholeLines a.toList) (hbs : Blanks bs.toList) :
      Relaid (a ++ b) (a ++ bs ++ b)
  | blanksBehind (a b bs : String) (hb : EndsLine b.toList) (hbs : Blanks bs.toList) :
      Relaid (a ++ b) (a ++ bs ++ b)
  | returns (c : String) : Relaid c (String.ofList (withReturns c.toList))

theorem toList_append_newline (a b : String) : (a ++ "\n" ++ b).toList = a.toList ++ '\n' :: b.toList := by
  simp

/-- **A text that is laid out anew says the same.** -/
theorem Relaid.statements_eq {c d : String} (h : Relaid c d) : statements c.toList = statements d.toList := by
  induction h with
  | refl c => rfl
  | symm _ ih => exact ih.symm
  | trans _ _ ih ih' => exact ih.trans ih'
  | line a b line ha h hsilent =>
    rw [toList_append_newline, statements_append, String.toList_append, String.toList_append,
      statements_append_of_wholeLines ha, statements_append_of_wholeLines ha,
      statements_eq_nil_of_silent h hsilent, List.append_nil]
  | lastLine a line h hsilent =>
    rw [toList_append_newline, statements_append, statements_eq_nil_of_silent h hsilent, List.append_nil]
  | blanksBefore a b bs ha hbs =>
    simp only [String.toList_append, List.append_assoc]
    rw [statements_append_of_wholeLines ha, statements_append_of_wholeLines ha, statements_blanks_append hbs]
  | blanksBehind a b bs hb hbs =>
    simp only [String.toList_append]
    rw [statements_append_of_endsLine hb, statements_append_of_endsLine hb, statements_append_blanks hbs]
  | returns c =>
    rw [String.toList_ofList]
    exact (statements_append_withReturns [] c.toList).symm

/-- A text laid out anew makes the same configuration, if any. -/
theorem Relaid.parse_eq_ok_iff {c d : String} (h : Relaid c d) {ini : Ini} :
    parse c = .ok ini ↔ parse d = .ok ini := by
  rw [parse_eq_ok_iff_statements, parse_eq_ok_iff_statements, h.statements_eq]

/-! ## Lines put behind a text

New lines may repeat a heading or a key. They only add assignments behind those there are, and the first
assignment of a key is the one that counts. -/

/-- Lines behind a text add assignments behind those there are. -/
theorem assignments_prefix {c t : String} {ini ini' : Ini} (h : parse c = .ok ini)
    (h' : parse (c ++ "\n" ++ t) = .ok ini') : ini.assignments <+: ini'.assignments := by
  obtain ⟨_, hbefore⟩ := parse_eq_ok_iff_statements.mp h
  obtain ⟨_, hbehind⟩ := parse_eq_ok_iff_statements.mp h'
  rw [toList_append_newline, statements_append, assigned_append, ← hbefore] at hbehind
  exact ⟨_, hbehind.symm⟩

/-- The first assignment of a key still counts when others come behind it. -/
theorem get?_eq_some_of_prefix {ini ini' : Ini} (h : ini.assignments <+: ini'.assignments)
    {heading key value : String} (hget : ini.get? heading key = some value) :
    ini'.get? heading key = some value := by
  obtain ⟨before, after, hsplit, hfirst⟩ := get?_eq_some_iff.mp hget
  obtain ⟨more, hmore⟩ := h
  refine get?_eq_some_iff.mpr ⟨before, after ++ more, ?_, hfirst⟩
  rw [← hmore, hsplit, List.append_assoc, List.cons_append]

/-- **What a configuration keeps when its text is edited.** If the text is laid out anew, it is accepted
just if it was before, with as many assignments and the same value for each key. If lines are put behind
it, and both texts are accepted, then no assignment and no value of a key goes away. -/
theorem keeps_under_edits (c : String) :
    (∀ d, Relaid c d →
      ((∃ ini, parse c = .ok ini) ↔ ∃ ini, parse d = .ok ini) ∧
      ∀ ini ini', parse c = .ok ini → parse d = .ok ini' →
        ini'.size = ini.size ∧ ∀ heading key, ini'.get? heading key = ini.get? heading key) ∧
    ∀ t ini ini', parse c = .ok ini → parse (c ++ "\n" ++ t) = .ok ini' →
      ini.size ≤ ini'.size ∧
        ∀ heading key value, ini.get? heading key = some value → ini'.get? heading key = some value := by
  refine ⟨fun d hd => ⟨exists_congr fun ini => hd.parse_eq_ok_iff, ?_⟩, ?_⟩
  · intro ini ini' hini hini'
    rw [hd.parse_eq_ok_iff, hini'] at hini
    cases hini
    exact ⟨rfl, fun _ _ => rfl⟩
  · intro t ini ini' hini hini'
    have hmore := assignments_prefix hini hini'
    exact ⟨hmore.length_le, fun _ _ _ => get?_eq_some_of_prefix hmore⟩

/-- A heading and a key, between comments, with blanks and carriage returns; and the key set again behind
them, under the same heading and under another one. -/
theorem keeps_under_edits_commented :
    let c := "[s]\nk=1"
    let d := "; top\n [s]\t\r\nk=1\n#"
    let t := "k=2\n[t]\nk=3"
    Relaid c d ∧
      (∃ ini, parse d = .ok ini ∧ ini.size = 1 ∧ ini.get? "s" "k" = some "1") ∧
      ∃ ini, parse (c ++ "\n" ++ t) = .ok ini ∧ 1 ≤ ini.size ∧ ini.get? "s" "k" = some "1" := by
  intro c d t
  have hwith : String.ofList (withReturns c.toList) = "[s]\r\nk=1" := by decide
  have hreturns : Relaid c "[s]\r\nk=1" := hwith ▸ .returns c
  have hbehind : Relaid "[s]\r\nk=1" "[s]\t\r\nk=1" :=
    .blanksBehind "[s]" "\r\nk=1" "\t" (.inr (.inr ⟨_, rfl⟩)) (by decide)
  have hbefore : Relaid "[s]\t\r\nk=1" " [s]\t\r\nk=1" :=
    .blanksBefore "" "[s]\t\r\nk=1" " " (.inl rfl) (by decide)
  have htop : Relaid " [s]\t\r\nk=1" "; top\n [s]\t\r\nk=1" :=
    .line "" " [s]\t\r\nk=1" "; top" (.inl rfl) (by decide) (.inr (.inl rfl))
  have hlast : Relaid "; top\n [s]\t\r\nk=1" d := .lastLine _ "#" (by decide) (.inr (.inr rfl))
  -- five edits, one of each kind
  have hrelaid : Relaid c d := hreturns.trans (hbehind.trans (hbefore.trans (htop.trans hlast)))
  obtain ⟨hlaid, hmore⟩ := keeps_under_edits c
  obtain ⟨haccepted, hkept⟩ := hlaid d hrelaid
  have hini : parse c = .ok ⟨[⟨"s", "k", "1"⟩]⟩ := parse_eq_ok_iff.mpr (by decide)
  obtain ⟨ini', hini'⟩ := haccepted.mp ⟨_, hini⟩
  obtain ⟨hsize, hget⟩ := hkept _ _ hini hini'
  have hini'' : parse (c ++ "\n" ++ t) = .ok ⟨[⟨"s", "k", "1"⟩, ⟨"s", "k", "2"⟩, ⟨"t", "k", "3"⟩]⟩ :=
    parse_eq_ok_iff.mpr (by decide)
  obtain ⟨hlonger, hstill⟩ := hmore t _ _ hini hini''
  exact ⟨hrelaid, ⟨ini', hini', hsize, hget "s" "k"⟩, ⟨_, hini'', hlonger, hstill "s" "k" "1" rfl⟩⟩

end HostMeter.Ini
