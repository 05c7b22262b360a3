import HostMeter.Text.Line
/-!
# Lines — texts taken apart again

A text is put together of lines, a line of words, and a field may stand between blanks. Each of these is
taken apart again into what it was put together of, if no part holds what separates it from the next one.

* `Text.Trimmed`, `Text.trim_blanks_append`: what trimming leaves alone, and what it takes away.
* `Text.TrimsTo`, `Text.trimsTo_iff`: trimming, told by the blanks at the two ends.
* `Text.not_mem_of_mem_pieces`: what lies between separators holds none.
* `Text.IsLine`, `Text.lines_flatMap`: lines, each ended by a line feed, are the lines of their text.
* `Text.SplitsInto`, `Text.splitsInto_lines`: the lines of a text, told by the ends of lines alone.
* `Text.newline_not_mem_of_mem_lines`: a line of a text is one line.
* `Text.words_intercalate`: words with a space between them are the words of their line.
-/

namespace HostMeter.Text

/-! ## Trimming

A text is trimmed from both ends. What the two ends are is told by their first and last characters alone
(`Trimmed`); what is cut off consists of blanks (`TrimsTo`), and these two facts determine the result. -/

/-- A text with no blank at either end. -/
structure Trimmed (cs : List Char) : Prop where
  head : ∀ c ∈ cs.head?, isBlank c = false
  last : ∀ c ∈ cs.getLast?, isBlank c = false

-- The two ends are looked at by name: the search may find a decision over every character.
instance (cs : List Char) : Decidable (Trimmed cs) :=
  have : Decidable (∀ c ∈ cs.head?, isBlank c = false) := Option.decidableForallMem _
  have : Decidable (∀ c ∈ cs.getLast?, isBlank c = false) := Option.decidableForallMem _
  decidable_of_iff ((∀ c ∈ cs.head?, isBlank c = false) ∧ ∀ c ∈ cs.getLast?, isBlank c = false)
    ⟨fun h => ⟨h.1, h.2⟩, fun h => ⟨h.head, h.last⟩⟩

theorem trimmed_of_forall {cs : List Char} (h : ∀ c ∈ cs, isBlank c = false) : Trimmed cs where
  head c hc := h c (List.mem_of_head? hc)
  last c hc := h c (List.mem_of_getLast? hc)

/-- Nothing is cut off in front if the first character is not blank. -/
theorem trimStart_eq_self {cs : List Char} (h : ∀ c ∈ cs.head?, isBlank c = false) :
    trimStart cs = cs := by
  cases cs with
  | nil => rfl
  | cons c cs => exact List.dropWhile_cons_of_neg (Bool.eq_false_iff.mp (h c rfl))

/-- Nothing is cut off behind if the last character is not blank. -/
theorem trimEnd_eq_self {cs : List Char} (h : ∀ c ∈ cs.getLast?, isBlank c = false) :
    trimEnd cs = cs := by
  have hreverse : cs.reverse.dropWhile isBlank = cs.reverse :=
    trimStart_eq_self (by rwa [List.head?_reverse])
  rw [trimEnd, hreverse, List.reverse_reverse]

theorem Trimmed.trim_eq {cs : List Char} (h : Trimmed cs) : trim cs = cs := by
  rw [trim, trimStart_eq_self h.head, trimEnd_eq_self h.last]

/-- Blanks before a text go away. -/
theorem trim_blanks_append {bs : List Char} (hbs : ∀ b ∈ bs, isBlank b = true) (cs : List Char) :
    trim (bs ++ cs) = trim cs := by
  have hstart : trimStart (bs ++ cs) = trimStart cs := List.dropWhile_append_of_pos hbs
  rw [trim, hstart, trim]

/-- Blanks behind a text go away when its end is trimmed. -/
theorem trimEnd_append_blanks {bs : List Char} (hbs : ∀ b ∈ bs, isBlank b = true) (cs : List Char) :
    trimEnd (cs ++ bs) = trimEnd cs := by
  rw [trimEnd, List.reverse_append,
    List.dropWhile_append_of_pos fun b hb => hbs b (List.mem_reverse.mp hb), trimEnd]

/-- Blanks behind a text go away. -/
theorem trim_append_blanks {bs : List Char} (hbs : ∀ b ∈ bs, isBlank b = true) (cs : List Char) :
    trim (cs ++ bs) = trim cs := by
  rw [trim, trim, trimStart, List.dropWhile_append]
  split
  · next hblank =>
    -- the text is blank throughout, and so is what stands behind it
    have hnone : trimStart cs = [] := List.isEmpty_iff.mp hblank
    have hbehind : bs.dropWhile isBlank = [] := by
      rw [← List.append_nil bs, List.dropWhile_append_of_pos hbs]
      rfl
    rw [hnone, hbehind]
  · -- the blanks stand behind a character that is not blank
    exact trimEnd_append_blanks hbs _

/-- `ds` is what remains of a text without the blanks at its two ends. -/
def TrimsTo (cs ds : List Char) : Prop :=
  ∃ before after, cs = before ++ ds ++ after ∧ (∀ b ∈ before, isBlank b = true) ∧
    (∀ b ∈ after, isBlank b = true) ∧ Trimmed ds

/-- What is cut in front does not start with a blank. -/
theorem head?_trimStart {cs : List Char} : ∀ c ∈ (trimStart cs).head?, isBlank c = false := by
  intro c hc
  have hfirst := List.head?_dropWhile_not isBlank cs
  rw [trimStart, Option.mem_def] at hc
  rwa [hc] at hfirst

theorem getLast?_trimEnd {cs : List Char} : ∀ c ∈ (trimEnd cs).getLast?, isBlank c = false := by
  rw [trimEnd, List.getLast?_reverse]
  exact head?_trimStart

theorem exists_trimStart_append (cs : List Char) :
    ∃ before, before ++ trimStart cs = cs ∧ ∀ b ∈ before, isBlank b = true :=
  ⟨cs.takeWhile isBlank, List.takeWhile_append_dropWhile, List.all_eq_true.mp List.all_takeWhile⟩

/-- Only blanks are cut off behind. -/
theorem exists_trimEnd_append (cs : List Char) :
    ∃ after, trimEnd cs ++ after = cs ∧ ∀ b ∈ after, isBlank b = true := by
  obtain ⟨blanks, hsplit, hblanks⟩ := exists_trimStart_append cs.reverse
  refine ⟨blanks.reverse, ?_, fun b hb => hblanks b (List.mem_reverse.mp hb)⟩
  rw [trimEnd, ← List.reverse_append, ← trimStart, hsplit, List.reverse_reverse]

/-- **Every text is trimmed to one text**, the one between its leading and its trailing blanks. -/
theorem trimsTo_iff {cs ds : List Char} : TrimsTo cs ds ↔ trim cs = ds := by
  constructor
  · rintro ⟨before, after, rfl, hbefore, hafter, htrimmed⟩
    rw [trim_append_blanks hafter, trim_blanks_append hbefore, htrimmed.trim_eq]
  · rintro rfl
    obtain ⟨before, hbefore, hblanks⟩ := exists_trimStart_append cs
    obtain ⟨after, hafter, hblanks'⟩ := exists_trimEnd_append (trimStart cs)
    have hfirst : ∀ c ∈ (trimStart cs).head?, isBlank c = false := head?_trimStart
    refine ⟨before, after, ?_, hblanks, hblanks', fun c hc => hfirst c ?_, getLast?_trimEnd⟩
    · rw [trim, List.append_assoc, hafter, hbefore]
    · -- the blanks go at the end, so the first character stays what it was
      rw [← hafter, List.head?_append, ← trim, Option.mem_def.mp hc, Option.some_or, Option.mem_def]

/-- Trimming puts nothing into a text. -/
theorem mem_of_mem_trim {c : Char} {cs : List Char} (h : c ∈ trim cs) : c ∈ cs := by
  have hend : c ∈ (trimStart cs).reverse :=
    (List.dropWhile_suffix isBlank).mem (List.mem_reverse.mp h)
  exact (List.dropWhile_suffix isBlank).mem (List.mem_reverse.mp hend)

/-- What is not blank stays when the front is trimmed. -/
theorem mem_dropWhile_of_not_blank {c : Char} {cs : List Char} (hc : isBlank c = false) (h : c ∈ cs) :
    c ∈ cs.dropWhile isBlank := by
  rw [← List.takeWhile_append_dropWhile (p := isBlank) (l := cs)] at h
  rcases List.mem_append.mp h with hblank | hrest
  · rw [List.all_eq_true.mp List.all_takeWhile c hblank] at hc
    cases hc
  · exact hrest

theorem mem_trim {c : Char} {cs : List Char} (hc : isBlank c = false) (h : c ∈ cs) : c ∈ trim cs := by
  have hstart : c ∈ trimStart cs := mem_dropWhile_of_not_blank hc h
  exact List.mem_reverse.mpr (mem_dropWhile_of_not_blank hc (List.mem_reverse.mpr hstart))

/-! ## Pieces

A text is cut at each separator. No piece holds a separator, and a text without one is a single piece. -/

/-- A separator is in none of the pieces between the separators. -/
theorem not_mem_of_mem_pieces {sep : Char} {cs piece : List Char}
    (h : piece ∈ cs.splitOnP (· == sep)) : sep ∉ piece := by
  induction cs generalizing piece with
  | nil =>
    cases List.mem_singleton.mp h
    exact List.not_mem_nil
  | cons c cs ih =>
    obtain ⟨first, rest, hpieces⟩ := List.exists_cons_of_ne_nil (List.splitOnP_ne_nil (· == sep) cs)
    rw [List.splitOnP_cons_eq_if_modifyHead] at h
    split at h
    · -- the separator ends an empty piece
      rcases List.mem_cons.mp h with rfl | hmem
      · exact List.not_mem_nil
      · exact ih hmem
    · next hc =>
      -- any other character joins the first piece
      rw [hpieces, List.modifyHead_cons] at h
      rcases List.mem_cons.mp h with rfl | hmem
      · have hfirst : sep ∉ first := ih (hpieces ▸ List.mem_cons_self)
        simp [hfirst, Ne.symm (mt beq_iff_eq.mpr hc)]
      · exact ih (hpieces ▸ List.mem_cons_of_mem _ hmem)

theorem pieces_of_not_mem {sep : Char} {cs : List Char} (h : sep ∉ cs) : cs.splitOnP (· == sep) = [cs] :=
  List.splitOnP_eq_singleton fun _ hc => beq_eq_false_iff_ne.mpr (ne_of_mem_of_not_mem hc h)

/-- A text cannot be cut just if the separator is not in it. -/
theorem cut?_eq_none_iff {sep : Char} {cs : List Char} : cut? sep cs = none ↔ sep ∉ cs := by
  constructor
  · intro hnone hmem
    obtain ⟨a, b, rfl, ha⟩ := List.eq_append_cons_of_mem hmem
    rw [cut?_eq_some_iff.mpr ⟨rfl, ha⟩] at hnone
    cases hnone
  · intro hmem
    cases hcut : cut? sep cs with
    | none => rfl
    | some parts =>
      obtain ⟨before, behind⟩ := parts
      obtain ⟨rfl, _⟩ := cut?_eq_some_iff.mp hcut
      simp at hmem

/-! ## Lines

Lines end with a line feed, or with a carriage return and a line feed; behind the last one there may be a
line without an end. `lines_append_cons` takes the first line off a text, and both directions of the round
trip go line by line from there. -/

/-- Can the text stand as a line of its own, in front of a line feed? -/
structure IsLine (line : List Char) : Prop where
  newline_not_mem : '\n' ∉ line
  getLast?_ne : line.getLast? ≠ some '\r'

instance (line : List Char) : Decidable (IsLine line) :=
  decidable_of_iff ('\n' ∉ line ∧ line.getLast? ≠ some '\r') ⟨fun h => ⟨h.1, h.2⟩, fun h => ⟨h.1, h.2⟩⟩

/-- A trimmed text that is one line does not end in a carriage return. -/
theorem isLine_of_trimmed {line : List Char} (h : '\n' ∉ line) (ht : Trimmed line) : IsLine line where
  newline_not_mem := h
  getLast?_ne hreturn := absurd (ht.last '\r' hreturn) (by decide)

/-- A line may have anything in front of it that holds no line feed. -/
theorem IsLine.append {line line' : List Char} (h : '\n' ∉ line) (h' : IsLine line') (hne : line' ≠ []) :
    IsLine (line ++ line') where
  newline_not_mem := by simp [h, h'.newline_not_mem]
  getLast?_ne hlast := by
    rw [List.getLast?_append] at hlast
    rcases Option.or_eq_some_iff.mp hlast with hlast | ⟨hnone, _⟩
    · exact h'.getLast?_ne hlast
    · exact hne (List.getLast?_eq_none_iff.mp hnone)

theorem dropReturn_eq_self {line : List Char} (h : line.getLast? ≠ some '\r') :
    dropReturn line = line := if_neg h

theorem dropReturn_concat (line : List Char) : dropReturn (line ++ ['\r']) = line := by
  rw [dropReturn, List.getLast?_concat, if_pos rfl, List.dropLast_concat]

/-- The last line feed of a text, and what stands behind it. -/
theorem exists_append_newline_of_mem {cs : List Char} (h : '\n' ∈ cs) :
    ∃ init last, cs = init ++ '\n' :: last ∧ '\n' ∉ last := by
  obtain ⟨last, init, hsplit, hlast⟩ := List.eq_append_cons_of_mem (List.mem_reverse.mpr h)
  refine ⟨init.reverse, last.reverse, ?_, mt List.mem_reverse.mp hlast⟩
  rw [← List.reverse_reverse cs, hsplit]
  simp

/-- **The first line of a text** ends at its first line feed. -/
theorem lines_append_cons {line rest : List Char} (h : '\n' ∉ line) :
    lines (line ++ '\n' :: rest) = dropReturn line :: lines rest := by
  have hsplit : (line ++ '\n' :: rest).splitOnP (· == '\n') = line :: rest.splitOnP (· == '\n') :=
    List.splitOnP_append_cons_of_forall_mem
      (fun c hc => beq_eq_false_iff_ne.mpr (ne_of_mem_of_not_mem hc h)) '\n' (beq_self_eq_true _) rest
  rw [lines, hsplit, linesOfPieces.eq_3 line _ fun hnil => List.splitOnP_ne_nil _ _ hnil, lines]

/-- **Lines, each ended by a line feed, are the lines of the text.** -/
theorem lines_flatMap {ls : List (List Char)} (h : ∀ line ∈ ls, IsLine line) :
    lines (ls.flatMap (· ++ ['\n'])) = ls := by
  induction ls with
  | nil => rfl
  | cons line ls ih =>
    -- the first line comes off in front, its own line feed behind it
    obtain ⟨hline, hrest⟩ := List.forall_mem_cons.mp h
    rw [List.flatMap_cons, List.append_assoc, List.singleton_append,
      lines_append_cons hline.newline_not_mem, dropReturn_eq_self hline.getLast?_ne, ih hrest]

/-- Dropping a carriage return puts no line feed into a line. -/
theorem newline_not_mem_dropReturn {line : List Char} (h : '\n' ∉ line) : '\n' ∉ dropReturn line := by
  unfold dropReturn
  split
  · exact fun hmem => h ((List.dropLast_sublist line).mem hmem)
  · exact h

/-- Lines that are made of pieces without a line feed have none. The induction follows the recursion of
`linesOfPieces`: the last piece is a line or nothing, any other is one up to a carriage return. -/
theorem newline_not_mem_of_mem_linesOfPieces {pieces : List (List Char)} {line : List Char}
    (hpieces : ∀ piece ∈ pieces, '\n' ∉ piece) (h : line ∈ linesOfPieces pieces) : '\n' ∉ line := by
  induction pieces using linesOfPieces.induct with
  | case1 => cases h
  | case2 last hempty =>
    rw [linesOfPieces, if_pos hempty] at h
    cases h
  | case3 last hfull =>
    rw [linesOfPieces, if_neg hfull, List.mem_singleton] at h
    exact h ▸ hpieces last List.mem_cons_self
  | case4 piece rest hrest ih =>
    rw [linesOfPieces.eq_3 piece rest hrest] at h
    rcases List.mem_cons.mp h with rfl | hmem
    · exact newline_not_mem_dropReturn (hpieces piece List.mem_cons_self)
    · exact ih (fun p hp => hpieces p (List.mem_cons_of_mem _ hp)) hmem

theorem newline_not_mem_of_mem_lines {cs line : List Char} (h : line ∈ lines cs) : '\n' ∉ line :=
  newline_not_mem_of_mem_linesOfPieces (fun _ => not_mem_of_mem_pieces) h

/-- How a text is split into lines. A line ends with a line feed, to which a carriage return before it
belongs; behind the last line feed there is one more line, unless nothing stands there. -/
inductive SplitsInto : List Char → List (List Char) → Prop where
  | nil : SplitsInto [] []
  | last {line} (h : '\n' ∉ line) (hne : line ≠ []) : SplitsInto line [line]
  | feed {line rest ls} (h : IsLine line) (hrest : SplitsInto rest ls) :
      SplitsInto (line ++ '\n' :: rest) (line :: ls)
  | returnFeed {line rest ls} (h : '\n' ∉ line) (hrest : SplitsInto rest ls) :
      SplitsInto (line ++ '\r' :: '\n' :: rest) (line :: ls)

/-- There is one way to split a text: it is the list of its lines. -/
theorem SplitsInto.eq_lines {cs : List Char} {ls : List (List Char)} (h : SplitsInto cs ls) :
    ls = lines cs := by
  induction h with
  | nil => rfl
  | last h hne => rw [lines, pieces_of_not_mem h, linesOfPieces, if_neg (by simpa using hne)]
  | feed h _ ih => rw [lines_append_cons h.newline_not_mem, dropReturn_eq_self h.getLast?_ne, ih]
  | @returnFeed line rest _ h _ ih =>
    rw [List.append_cons, lines_append_cons (by simp [h]), dropReturn_concat, ih]

/-- Every text is split into its lines, from the first line feed on. -/
theorem splitsInto_lines (cs : List Char) : SplitsInto cs (lines cs) := by
  by_cases hmem : '\n' ∈ cs
  · obtain ⟨line, rest, rfl, hline⟩ := List.eq_append_cons_of_mem hmem
    have hrest := splitsInto_lines rest
    rw [lines_append_cons hline]
    -- the line ends with a line feed alone, or with a carriage return before it
    by_cases hreturn : line.getLast? = some '\r'
    · obtain ⟨init, rfl⟩ := List.getLast?_eq_some_iff.mp hreturn
      rw [dropReturn_concat, ← List.append_cons]
      exact .returnFeed (fun h => hline (List.mem_append_left _ h)) hrest
    · rw [dropReturn_eq_self hreturn]
      exact .feed ⟨hline, hreturn⟩ hrest
  · by_cases hnil : cs = []
    · rw [hnil]
      exact .nil
    · have hlast := SplitsInto.last hmem hnil
      rwa [← hlast.eq_lines]
termination_by cs.length
decreasing_by
  subst_vars
  simp only [List.length_append, List.length_cons]
  omega

/-! ## Words

The words of a line are the runs of characters between its blanks. A single blank parts two lists of words,
and runs of blanks make empty words, which are dropped. -/

/-- A run of characters without a blank is one word, or none if it is empty. -/
theorem words_of_forall {w : List Char} (h : ∀ c ∈ w, isBlank c = false) :
    words w = [w].filter (!·.isEmpty) := by
  rw [words, List.splitOnP_eq_singleton h]

/-- A blank parts the words before it from those behind it. -/
theorem words_append_cons {b : Char} (hb : isBlank b = true) (cs ds : List Char) :
    words (cs ++ b :: ds) = words cs ++ words ds := by
  rw [words, List.splitOnP_append_cons cs ds hb, List.filter_append]
  rfl

/-- A carriage return at the end of a line is in none of its words. -/
theorem words_concat_return (line : List Char) : words (line ++ ['\r']) = words line := by
  rw [words_append_cons rfl, words_nil, List.append_nil]

/-- **Words with a space between them are the words of the line**, those that are empty apart. -/
theorem words_intercalate {ws : List (List Char)} (h : ∀ w ∈ ws, ∀ c ∈ w, isBlank c = false) :
    words ([' '].intercalate ws) = ws.filter (!·.isEmpty) := by
  induction ws with
  | nil => rfl
  | cons w ws ih =>
    obtain ⟨hw, hrest⟩ := List.forall_mem_cons.mp h
    cases ws with
    | nil => rw [List.intercalate_singleton, words_of_forall hw]
    | cons w' ws =>
      -- the space parts the first word from the others
      rw [List.intercalate_cons_cons, List.append_assoc, List.singleton_append,
        words_append_cons rfl, words_of_forall hw, ih hrest, ← List.filter_append, List.singleton_append]

end HostMeter.Text
