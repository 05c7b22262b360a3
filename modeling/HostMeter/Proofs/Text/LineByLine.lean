import HostMeter.Proofs.Text.Lines
/-!
# Line by line — what a text tells, one line at a time

Some formats are told line by line: each line tells something of its own or nothing, an empty line tells
nothing, and a carriage return at the end of a line does not change what it tells. What such a text tells
is then put together at its line feeds, however its lines end, so a line that is put between two others
adds what it tells by itself at that place.

* `LineWise`: the readings of single lines for which this holds.
* `LineWise.append`, `LineWise.append_lineEnd`: what a text tells, taken apart at a line feed.
* `Inserted`: a text with one more line, wherever a line can stand.
* `LineWise.of_inserted`: what it tells.
-/

namespace HostMeter.Text

variable {β : Type}

/-- The line is read by itself: nothing is read from an empty line, and a carriage return at the end of a
line is not looked at. -/
structure LineWise (read : List Char → Option β) : Prop where
  nil : read [] = none
  concat_return (line : List Char) : read (line ++ ['\r']) = read line

namespace LineWise

variable {read : List Char → Option β}

/-- A line tells the same with and without the carriage return that belongs to its end. -/
theorem dropReturn (h : LineWise read) (line : List Char) : read (dropReturn line) = read line := by
  by_cases hreturn : line.getLast? = some '\r'
  · obtain ⟨init, rfl⟩ := List.getLast?_eq_some_iff.mp hreturn
    rw [dropReturn_concat, h.concat_return]
  · rw [dropReturn_eq_self hreturn]

/-- The lines of a text tell the same with and without their carriage returns. -/
theorem map_dropReturn (h : LineWise read) (ls : List (List Char)) :
    (ls.map Text.dropReturn).filterMap read = ls.filterMap read := by
  have hread : read ∘ Text.dropReturn = read := funext h.dropReturn
  rw [List.filterMap_map, hread]

/-- The pieces between the line feeds tell the same as the lines. They may differ in one more piece, which
is empty. -/
theorem linesOfPieces (h : LineWise read) (pieces : List (List Char)) :
    (linesOfPieces pieces).filterMap read = pieces.filterMap read := by
  induction pieces using Text.linesOfPieces.induct with
  | case1 => rfl
  -- the piece behind the last line feed is empty and is no line
  | case2 last hempty =>
    rw [Text.linesOfPieces, if_pos hempty, List.isEmpty_iff.mp hempty, List.filterMap_cons_none h.nil]
  | case3 last hfull => rw [Text.linesOfPieces, if_neg hfull]
  -- a piece with a line feed behind it is a line, up to a carriage return
  | case4 piece rest hrest ih =>
    rw [linesOfPieces.eq_3 piece rest hrest, List.filterMap_cons, h.dropReturn, ih, List.filterMap_cons]

/-- What a text tells, in terms of the pieces between its line feeds. -/
theorem eq_pieces (h : LineWise read) (cs : List Char) :
    (lines cs).filterMap read = (cs.splitOnP (· == '\n')).filterMap read :=
  h.linesOfPieces _

/-- **What stands on both sides of a line feed is told one after the other.** -/
theorem append (h : LineWise read) (a b : List Char) :
    (lines (a ++ '\n' :: b)).filterMap read = (lines a).filterMap read ++ (lines b).filterMap read := by
  have hsplit : (a ++ '\n' :: b).splitOnP (· == '\n') = a.splitOnP (· == '\n') ++ b.splitOnP (· == '\n') :=
    List.splitOnP_append_cons a b rfl
  rw [h.eq_pieces, hsplit, List.filterMap_append, ← h.eq_pieces, ← h.eq_pieces]

/-- A text without a line feed is one line. -/
theorem of_line (h : LineWise read) {line : List Char} (hline : '\n' ∉ line) :
    (lines line).filterMap read = (read line).toList := by
  rw [h.eq_pieces, pieces_of_not_mem hline, List.filterMap_cons, List.filterMap_nil]
  cases read line <;> rfl

/-- A carriage return at the end of a text is one at the end of its last line. -/
theorem of_concat_return (h : LineWise read) (cs : List Char) :
    (lines (cs ++ ['\r'])).filterMap read = (lines cs).filterMap read := by
  -- the last line starts behind the last line feed, if there is one
  by_cases hmem : '\n' ∈ cs
  · obtain ⟨init, last, rfl, hlast⟩ := exists_append_newline_of_mem hmem
    have hreturn : '\n' ∉ last ++ ['\r'] := by simpa using hlast
    rw [List.append_assoc, List.cons_append, h.append, h.append, h.of_line hreturn, h.of_line hlast,
      h.concat_return]
  · have hreturn : '\n' ∉ cs ++ ['\r'] := by simpa using hmem
    rw [h.of_line hreturn, h.of_line hmem, h.concat_return]

end LineWise

/-! ## One more line

A line can stand at the start of a text, behind any line end, and at the end of the text; there it may have
to bring the end of the line before it along. At each of these places the text tells what it told before,
with what the line tells put in between. -/

/-- The two ways to end a line. -/
def IsLineEnd (cs : List Char) : Prop := cs = ['\n'] ∨ cs = ['\r', '\n']

/-- Is the text made of whole lines, so that a line can start behind it? -/
def WholeLines (cs : List Char) : Prop := cs = [] ∨ ∃ init, cs = init ++ ['\n']

namespace LineWise

variable {read : List Char → Option β}

/-- It makes no difference in which of the two ways a line ends. -/
theorem append_lineEnd (h : LineWise read) {eol : List Char} (heol : IsLineEnd eol) (a b : List Char) :
    (lines (a ++ eol ++ b)).filterMap read = (lines a).filterMap read ++ (lines b).filterMap read := by
  rcases heol with rfl | rfl
  · rw [← List.append_cons, h.append]
  · rw [List.append_assoc, List.cons_append, List.append_cons, List.singleton_append, h.append,
      h.of_concat_return]

/-- A text that starts where a line can start is told behind what stands before it. -/
theorem append_of_wholeLines (h : LineWise read) {a : List Char} (ha : WholeLines a) (b : List Char) :
    (lines (a ++ b)).filterMap read = (lines a).filterMap read ++ (lines b).filterMap read := by
  rcases ha with rfl | ⟨init, rfl⟩
  · rfl
  · have hinit := h.append init []
    rw [lines_nil, List.filterMap_nil, List.append_nil] at hinit
    rw [hinit, ← List.append_cons, h.append]

end LineWise

/-- The last text is the one of `a` and `b` with a line put between them: behind whole lines it ends with a
line end of its own, and at the end of the text it may do without. Behind a last line that has no end, one
is put in. -/
inductive Inserted (line a : String) : String → String → Prop where
  | between {b eol : String} (ha : WholeLines a.toList) (heol : IsLineEnd eol.toList) :
      Inserted line a b (a ++ line ++ eol ++ b)
  | atEnd {sep eol : String} (hsep : WholeLines a.toList ∧ sep = "" ∨ IsLineEnd sep.toList)
      (heol : eol = "" ∨ IsLineEnd eol.toList) : Inserted line a "" (a ++ sep ++ line ++ eol)

/-- **One more line** tells what it tells by itself, at the place where it is put. -/
theorem LineWise.of_inserted {read : List Char → Option β} (h : LineWise read) {line a b text : String}
    (hline : '\n' ∉ line.toList) (hinserted : Inserted line a b text) :
    (lines text.toList).filterMap read =
      (lines a.toList).filterMap read ++ (read line.toList).toList ++ (lines b.toList).filterMap read := by
  cases hinserted with
  -- the line brings its own end
  | between ha heol =>
    rw [String.toList_append, String.toList_append, String.toList_append, h.append_lineEnd heol,
      h.append_of_wholeLines ha, h.of_line hline]
  | @atEnd sep eol hsep heol =>
    -- an end behind the last line tells nothing
    have hend : (lines (a ++ sep ++ line ++ eol).toList).filterMap read =
        (lines (a ++ sep ++ line).toList).filterMap read := by
      rcases heol with rfl | heol
      · rw [String.append_empty]
      · have hnothing := h.append_lineEnd heol (a ++ sep ++ line).toList []
        rwa [List.append_nil, lines_nil, List.filterMap_nil, List.append_nil, ← String.toList_append] at hnothing
    rw [hend, String.toList_append, String.toList_append, String.toList_empty, lines_nil, List.filterMap_nil,
      List.append_nil]
    rcases hsep with ⟨ha, rfl⟩ | hsep
    · rw [String.toList_empty, List.append_nil, h.append_of_wholeLines ha, h.of_line hline]
    · rw [h.append_lineEnd hsep, h.of_line hline]

/-- Without the line, the text tells what its two parts do. -/
theorem LineWise.of_parts {read : List Char → Option β} (h : LineWise read) {line a b text : String}
    (hinserted : Inserted line a b text) :
    (lines (a ++ b).toList).filterMap read =
      (lines a.toList).filterMap read ++ (lines b.toList).filterMap read := by
  cases hinserted with
  | between ha heol => rw [String.toList_append, h.append_of_wholeLines ha]
  | atEnd hsep heol => rw [String.append_empty, String.toList_empty, lines_nil, List.filterMap_nil, List.append_nil]

/-- **A line that tells nothing by itself tells nothing in a text.** -/
theorem LineWise.eq_of_inserted {read : List Char → Option β} (h : LineWise read) {line a b text : String}
    (hline : '\n' ∉ line.toList) (hinserted : Inserted line a b text) (hnone : read line.toList = none) :
    (lines text.toList).filterMap read = (lines (a ++ b).toList).filterMap read := by
  rw [h.of_inserted hline hinserted, h.of_parts hinserted, hnone, Option.toList_none, List.append_nil]

end HostMeter.Text
