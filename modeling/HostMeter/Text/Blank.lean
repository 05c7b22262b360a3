/-!
# Text — blanks, trimming and words

Every text format read by the library treats the same set of characters as blank: those with the
Unicode property `White_Space`. Formats are defined on `List Char`, so that they can be reasoned
about by induction; only the outermost functions take a `String`.

* `isBlank`: the property itself.
* `trim`: the text without the blanks at its two ends.
* `words`: the maximal runs of characters that are not blank, in order.
-/

namespace HostMeter.Text

/-- The blank characters: Unicode's `White_Space`. -/
def blanks : List Char :=
  ['\t', '\n', '\x0b', '\x0c', '\r', ' ', '\u0085', '\u00a0', '\u1680',
   '\u2000', '\u2001', '\u2002', '\u2003', '\u2004', '\u2005', '\u2006', '\u2007', '\u2008',
   '\u2009', '\u200a', '\u2028', '\u2029', '\u202f', '\u205f', '\u3000']

def isBlank (c : Char) : Bool := blanks.contains c

/-- Each character that core calls whitespace is blank. -/
theorem isBlank_of_isWhitespace {c : Char} (h : c.isWhitespace = true) : isBlank c = true := by
  simp only [Char.isWhitespace, Bool.or_eq_true, decide_eq_true_eq] at h
  rcases h with ((rfl | rfl) | rfl) | rfl <;> decide

def trimStart (cs : List Char) : List Char := cs.dropWhile isBlank

def trimEnd (cs : List Char) : List Char := (cs.reverse.dropWhile isBlank).reverse

def trim (cs : List Char) : List Char := trimEnd (trimStart cs)

/-- The maximal runs of characters that are not blank. -/
def words (cs : List Char) : List (List Char) :=
  (cs.splitOnP isBlank).filter (fun w => !w.isEmpty)

@[simp] theorem words_nil : words [] = [] := rfl

end HostMeter.Text
