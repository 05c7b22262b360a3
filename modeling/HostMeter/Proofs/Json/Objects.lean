import HostMeter.Proofs.Json.Numbers
/-!
# Objects — reading what is written

What the writer makes of a string, of a scalar and of an object is read as that again, with anything
behind it left over, and no character of it is a control character.

* `string?_quoted`: strings of any characters.
* `Reads`, `exists_reads_value?`: scalars, and what a reader makes of them.
* `exists_reads_items?`: lists, for any items that are read back.
* `exists_reads_object`: objects with their members in order; `le_of_mem_objectChars`: one line.
-/

namespace HostMeter.Json

/-! ## Strings

Each character is written by itself, and read back by itself. Escapes of code units are written for control
characters only, so no two of them make up a character. -/

/-- How a character is written: as an escape of one letter, as a code unit, or as it stands. -/
inductive Quotes (c : Char) : List Char → Prop where
  | letter (e : Char) (hunit : e ≠ 'u') (hletter : escaped? e = some c) (hcontrol : 0x20 ≤ e.toNat) :
    Quotes c ['\\', e]
  | unit (hcontrol : c.toNat < 0x20) : Quotes c ('\\' :: 'u' :: Text.hex 4 c.toNat)
  | plain (hquote : c ≠ '"') (hslash : c ≠ '\\') (hcontrol : 0x20 ≤ c.toNat) : Quotes c [c]

/-- **Every character is written in one of the three ways.** The cases are those of the writer. -/
theorem quotes_quoteChar (c : Char) : Quotes c (quoteChar c) := by
  unfold quoteChar
  split
  · next h => exact .letter '"' (by decide) (by rw [h]; rfl) (by decide)
  split
  · next h => exact .letter '\\' (by decide) (by rw [h]; rfl) (by decide)
  split
  · next h => exact .letter 'b' (by decide) (by rw [h]; rfl) (by decide)
  split
  · next h => exact .letter 'f' (by decide) (by rw [h]; rfl) (by decide)
  split
  · next h => exact .letter 'n' (by decide) (by rw [h]; rfl) (by decide)
  split
  · next h => exact .letter 'r' (by decide) (by rw [h]; rfl) (by decide)
  split
  · next h => exact .letter 't' (by decide) (by rw [h]; rfl) (by decide)
  split
  · next hcontrol => exact .unit hcontrol
  · next hquote hslash _ _ _ _ _ hcontrol => exact .plain hquote hslash (Nat.le_of_not_lt hcontrol)

/-- A control character has a code unit of four digits, which stand for it. -/
theorem hex_control : ∀ n < 0x20, Text.hex 4 n = ['0', '0', (n / 16).digitChar, (n % 16).digitChar] ∧
    hexValue? ['0', '0', (n / 16).digitChar, (n % 16).digitChar] = some n := by
  decide

/-- What is written for one character is read as one part, which stands for that character. -/
theorem Quotes.exists_piece {c : Char} {cs : List Char} (h : Quotes c cs) (tail : List Char) :
    ∃ p, pieces? (cs ++ tail) = before p (pieces? tail) ∧
      ∀ ps, join? (p :: ps) = (join? ps).map (c :: ·) := by
  cases h with
  -- an escape of one letter
  | letter e hunit hletter _ =>
    exact ⟨.char c, (pieces?.eq_def _).trans (by simp [hunit, hletter]), fun ps => join?.eq_def _⟩
  | unit hcontrol =>
    obtain ⟨hhex, hvalue⟩ := hex_control c.toNat hcontrol
    -- a control character is no half of a character
    have hhigh : isHighUnit c.toNat = false := by simp [isHighUnit]; omega
    have hlow : isLowUnit c.toNat = false := by simp [isLowUnit]; omega
    refine ⟨.unit c.toNat, ?_, fun ps => (join?.eq_def _).trans (by simp [hhigh, hlow])⟩
    rw [hhex]
    exact (pieces?.eq_def _).trans (by simp [hvalue])
  -- a character that stands for itself
  | plain hquote hslash hcontrol =>
    have hcontrol' : ¬ c.toNat < 0x20 := Nat.not_lt.mpr hcontrol
    exact ⟨.char c, (pieces?.eq_def _).trans (by simp [hquote, hslash, hcontrol']),
      fun ps => join?.eq_def _⟩

/-- What is written for some characters is read as parts that stand for them. -/
theorem exists_pieces_flatMap (cs rest : List Char) :
    ∃ ps, pieces? (cs.flatMap quoteChar ++ '"' :: rest) = some (ps, rest) ∧ join? ps = some cs := by
  induction cs with
  | nil => exact ⟨[], (pieces?.eq_def _).trans (by simp), rfl⟩
  | cons c cs ih =>
    obtain ⟨ps, hpieces, hjoin⟩ := ih
    obtain ⟨p, hp, hstands⟩ :=
      (quotes_quoteChar c).exists_piece (cs.flatMap quoteChar ++ '"' :: rest)
    refine ⟨p :: ps, ?_, by rw [hstands, hjoin]; rfl⟩
    rw [List.flatMap_cons, List.append_assoc, hp, hpieces]
    rfl

/-- **A string is read back**, whatever its characters are. -/
theorem string?_quoted (s : String) (rest : List Char) :
    quoted s ++ rest = '"' :: (s.toList.flatMap quoteChar ++ '"' :: rest) ∧
      string? (s.toList.flatMap quoteChar ++ '"' :: rest) = some (s, rest) := by
  obtain ⟨ps, hpieces, hjoin⟩ := exists_pieces_flatMap s.toList rest
  constructor
  · simp [quoted]
  · unfold string?
    simp [hpieces, hjoin]

/-- Whatever is written for a character has no control characters. -/
theorem Quotes.le_of_mem {c d : Char} {cs : List Char} (h : Quotes c cs) (hd : d ∈ cs) :
    0x20 ≤ d.toNat := by
  cases h with
  -- a backslash and the letter
  | letter e _ _ hcontrol =>
    rcases List.mem_cons.mp hd with rfl | hd
    · decide
    · rw [List.mem_singleton.mp hd]
      exact hcontrol
  -- a backslash, the letter of the escape, and four digits
  | unit hcontrol =>
    have hdigit : ∀ n < 16, 0x20 ≤ n.digitChar.toNat := by decide
    rw [(hex_control c.toNat hcontrol).1] at hd
    simp only [List.mem_cons, List.not_mem_nil, or_false] at hd
    rcases hd with rfl | rfl | rfl | rfl | rfl | rfl
    · decide
    · decide
    · decide
    · decide
    · exact hdigit _ (by omega)
    · exact hdigit _ (by omega)
  | plain _ _ hcontrol =>
    rw [List.mem_singleton.mp hd]
    exact hcontrol

/-- A quoted string has no control characters. -/
theorem le_of_mem_quoted {s : String} {d : Char} (hd : d ∈ quoted s) : 0x20 ≤ d.toNat := by
  unfold quoted at hd
  rcases List.mem_cons.mp hd with rfl | hd
  · decide
  rcases List.mem_append.mp hd with hd | hd
  · obtain ⟨c, _, hd⟩ := List.mem_flatMap.mp hd
    exact (quotes_quoteChar c).le_of_mem hd
  · rw [List.mem_singleton.mp hd]
    decide

/-! ## Scalars

The three forms of a scalar can be told apart by the first character. -/

/-- What a reader makes of a scalar. -/
inductive Reads : Scalar → Value → Prop where
  | null : Reads .null .null
  | int {i : Int} {n : Number} (h : n.integer? = some i) : Reads (.int i) (.number n)
  | double {x : Binary64} {n : Number} (hfinite : x.isFinite = true) (h : n.toBinary64 = x) :
    Reads (.double x) (.number n)
  | infinite {x : Binary64} (hfinite : x.isFinite = false) : Reads (.double x) .null
  | text (s : String) : Reads (.text s) (.string s)

/-- What is written for a scalar: a word, a numeral or a quoted string. -/
inductive Scalar.Form (s : Scalar) : List Char → Prop where
  | null (h : Reads s .null) : Form s "null".toList
  | numeral (m : Numeral) (h : Reads s (.number m.number)) : Form s m.chars
  | text (t : String) (h : Reads s (.string t)) : Form s (quoted t)

/-- A scalar is written as a word, as a numeral, or as a quoted string, for which it stands. -/
theorem Scalar.form_chars (s : Scalar) : s.Form s.chars := by
  cases s with
  | null => exact .null .null
  | int i =>
    obtain ⟨m, hchars, hnumber⟩ := exists_numeral_ofInt i
    show Form _ (Text.ofInt i).toList
    rw [hchars]
    exact .numeral m (.int hnumber)
  | double x =>
    show Form _ (doubleChars x)
    cases hfinite : x.isFinite with
    -- a finite double is a numeral
    | true =>
      obtain ⟨m, hchars, hnumber⟩ := exists_numeral_doubleChars hfinite
      rw [hchars]
      exact .numeral m (.double hfinite hnumber)
    -- one that is not finite is written as a word
    | false =>
      have htext : doubleChars x = "null".toList := if_neg (by rw [hfinite]; exact Bool.false_ne_true)
      rw [htext]
      exact .null (.infinite hfinite)
  | text s => exact .text s (.text s)

/-- A scalar is written without control characters. -/
theorem Scalar.le_of_mem_chars {s : Scalar} {d : Char} (hd : d ∈ s.chars) : 0x20 ≤ d.toNat := by
  have hform := s.form_chars
  generalize s.chars = cs at *
  cases hform with
  | null _ =>
    have hword : ∀ d ∈ "null".toList, 0x20 ≤ d.toNat := by simp
    exact hword d hd
  | numeral m _ => exact m.le_of_mem_chars hd
  | text t _ => exact le_of_mem_quoted hd

/-- A number starts with a digit or with a minus sign. -/
theorem Numeral.exists_first (m : Numeral) :
    ∃ c tail, m.chars = c :: tail ∧ (c.isDigit = true ∨ c = '-') := by
  unfold chars
  cases m.negative with
  | true => exact ⟨'-', _, rfl, Or.inr rfl⟩
  | false =>
    obtain ⟨d, ds, hds⟩ := List.exists_cons_of_ne_nil m.whole_ne_nil
    refine ⟨d, ds ++ (fractionChars m.fraction ++ powerChars m.power), by rw [hds]; rfl, Or.inl ?_⟩
    exact m.isDigit_whole d (by rw [hds]; exact List.mem_cons_self)

/-- A numeral is read as a value, since it does not start like any other. -/
theorem value?_numeral (m : Numeral) {rest : List Char} (hrest : Stops rest) (fuel : Nat) :
    value? (fuel + 1) (m.chars ++ rest) = some (.number m.number, rest) := by
  obtain ⟨c, tail, hchars, hfirst⟩ := m.exists_first
  have hread := m.number?_chars hrest
  rw [hchars, List.cons_append] at hread
  rw [hchars, List.cons_append]
  have hne : ∀ d : Char, d.isDigit = false → d ≠ '-' → c ≠ d := by
    rintro d hdigit hminus rfl
    rcases hfirst with hfirst | hfirst
    · rw [hdigit] at hfirst
      cases hfirst
    · exact hminus hfirst
  have hblank : isBlank c = false := by
    simp [isBlank, hne ' ' rfl (by decide), hne '\t' rfl (by decide), hne '\n' rfl (by decide),
      hne '\r' rfl (by decide)]
  simp [value?, skipBlanks, hblank, hne '\x7b' rfl (by decide), hne '[' rfl (by decide),
    hne '"' rfl (by decide), hne 'n' rfl (by decide), hne 't' rfl (by decide),
    hne 'f' rfl (by decide), hread]

/-- **A scalar is read back.** -/
theorem exists_reads_value? (s : Scalar) {rest : List Char} (hrest : Stops rest) (fuel : Nat) :
    ∃ v, value? (fuel + 1) (s.chars ++ rest) = some (v, rest) ∧ Reads s v := by
  have hform := s.form_chars
  generalize s.chars = cs at *
  cases hform with
  | null h =>
    refine ⟨.null, ?_, h⟩
    simp [value?, skipBlanks, isBlank, literal?]
  | numeral m h => exact ⟨_, value?_numeral m hrest fuel, h⟩
  | text t h =>
    obtain ⟨hquoted, hread⟩ := string?_quoted t rest
    refine ⟨.string t, ?_, h⟩
    simp [hquoted, value?, skipBlanks, isBlank, hread]

/-! ## Lists

Objects and arrays are lists of items with commas between them. Whether the items are members or values does
not matter to the commas. -/

section Items

variable {α β : Type} {item : List Char → Option (β × List Char)} {chars : α → List Char}
  {R : α → β → Prop} {close : Char}

theorem expect?_cons {c d : Char} (rest : List Char) (hblank : isBlank d = false) :
    expect? c (d :: rest) = if d = c then some rest else none := by
  simp [expect?, skipBlanks, hblank]

/-- A comma or a bracket ends a number. -/
theorem stops_cons {c : Char} (hdigit : c.isDigit = false) (hpoint : c ≠ '.') (he : c ≠ 'e')
    (hE : c ≠ 'E') (rest : List Char) : Stops (c :: rest) := by
  intro d hd
  obtain rfl : c = d := Option.some.inj hd
  exact ⟨hdigit, hpoint, he, hE⟩

/-- **Items are read back in order**, if each of them is. -/
theorem exists_reads_items?
    (hitem : ∀ a rest, Stops rest → ∃ b, item (chars a ++ rest) = some (b, rest) ∧ R a b)
    (hblank : isBlank close = false) (hcomma : close ≠ ',') (hstops : ∀ rest, Stops (close :: rest))
    {as : List α} (hne : as ≠ []) {fuel : Nat} (hfuel : as.length ≤ fuel) (rest : List Char) :
    ∃ bs, items? item close fuel (commaSeparated (as.map chars) ++ close :: rest) = some (bs, rest) ∧
      List.Forall₂ R as bs := by
  induction as generalizing fuel with
  | nil => exact absurd rfl hne
  | cons a as ih =>
    obtain ⟨fuel, rfl⟩ := Nat.exists_eq_succ_of_ne_zero (Nat.ne_zero_of_lt hfuel)
    cases as with
    -- the last item is followed by the closing character
    | nil =>
      obtain ⟨b, hread, hb⟩ := hitem a (close :: rest) (hstops rest)
      refine ⟨[b], ?_, .cons hb .nil⟩
      simp [items?, commaSeparated, hread, expect?_cons rest hblank, hcomma]
    -- any other one by a comma
    | cons a' as =>
      obtain ⟨bs, hbs, hlater⟩ := ih (List.cons_ne_nil _ _) (Nat.le_of_succ_le_succ hfuel)
      have hstop := stops_cons (c := ',') rfl (by decide) (by decide) (by decide)
      obtain ⟨b, hread, hb⟩ := hitem a
        (',' :: (commaSeparated ((a' :: as).map chars) ++ close :: rest)) (hstop _)
      refine ⟨b :: bs, ?_, .cons hb hlater⟩
      have htext : commaSeparated ((a :: a' :: as).map chars) ++ close :: rest =
          chars a ++ ',' :: (commaSeparated ((a' :: as).map chars) ++ close :: rest) := by
        simp [commaSeparated]
      rw [htext]
      generalize commaSeparated ((a' :: as).map chars) = later at *
      simp [items?, hread, expect?_cons _ (show isBlank ',' = false by decide), before, hbs]

/-- A list is read back, if no item looks like its end. -/
theorem exists_reads_list?
    (hitem : ∀ a rest, Stops rest → ∃ b, item (chars a ++ rest) = some (b, rest) ∧ R a b)
    (hblank : isBlank close = false) (hcomma : close ≠ ',') (hstops : ∀ rest, Stops (close :: rest))
    (hopen : ∀ a rest, expect? close (chars a ++ rest) = none) {as : List α} {fuel : Nat}
    (hfuel : as.length ≤ fuel) (rest : List Char) :
    ∃ bs, list? item close fuel (commaSeparated (as.map chars) ++ close :: rest) = some (bs, rest) ∧
      List.Forall₂ R as bs := by
  cases as with
  | nil => exact ⟨[], by simp [list?, commaSeparated, expect?_cons rest hblank], .nil⟩
  | cons a as =>
    obtain ⟨bs, hbs, hall⟩ :=
      exists_reads_items? hitem hblank hcomma hstops (List.cons_ne_nil a as) hfuel rest
    have hfirst : ∃ tail,
        commaSeparated ((a :: as).map chars) ++ close :: rest = chars a ++ tail := by
      cases as with
      | nil => exact ⟨close :: rest, rfl⟩
      | cons a' as => exact ⟨_, List.append_assoc _ _ _⟩
    obtain ⟨tail, htail⟩ := hfirst
    refine ⟨bs, ?_, hall⟩
    rw [htail] at hbs ⊢
    simp [list?, hopen, hbs]

end Items

/-! ## Objects

Members are kept as pairs, in the order in which they stand. -/

/-- A member is read back, with its name. -/
theorem exists_reads_member? (m : String × Scalar) {rest : List Char} (hrest : Stops rest)
    (fuel : Nat) :
    ∃ v, member? (value? (fuel + 1)) (memberChars m ++ rest) = some ((m.1, v), rest) ∧
      Reads m.2 v := by
  obtain ⟨v, hvalue, hreads⟩ := exists_reads_value? m.2 hrest fuel
  obtain ⟨hquoted, hname⟩ := string?_quoted m.1 (':' :: (m.2.chars ++ rest))
  refine ⟨v, ?_, hreads⟩
  have htext : memberChars m ++ rest = quoted m.1 ++ ':' :: (m.2.chars ++ rest) := by
    simp [memberChars]
  rw [htext, hquoted]
  simp [member?, expect?_cons _ (show isBlank '"' = false by decide), hname,
    expect?_cons _ (show isBlank ':' = false by decide), hvalue]

/-- **An object is read back with its members in order.** -/
theorem exists_reads_object (o : Object) {fuel : Nat} (hfuel : o.length ≤ fuel + 1)
    (rest : List Char) :
    ∃ members, value? (fuel + 2) (objectChars o ++ rest) = some (.object members, rest) ∧
      List.Forall₂ (fun m n => n.1 = m.1 ∧ Reads m.2 n.2) o members := by
  have hitem : ∀ (m : String × Scalar) (rest : List Char), Stops rest →
      ∃ n, member? (value? (fuel + 1)) (memberChars m ++ rest) = some (n, rest) ∧
        n.1 = m.1 ∧ Reads m.2 n.2 := by
    intro m rest hrest
    obtain ⟨v, hread, hreads⟩ := exists_reads_member? m hrest fuel
    exact ⟨(m.1, v), hread, rfl, hreads⟩
  have hopen : ∀ (m : String × Scalar) (rest : List Char),
      expect? '\x7d' (memberChars m ++ rest) = none := by
    intro m rest
    simp [memberChars, quoted, expect?_cons _ (show isBlank '"' = false by decide)]
  obtain ⟨members, hread, hall⟩ := exists_reads_list? hitem (by decide) (by decide)
    (stops_cons (by decide) (by decide) (by decide) (by decide)) hopen hfuel rest
  refine ⟨members, ?_, hall⟩
  have htext : objectChars o ++ rest =
      '\x7b' :: (commaSeparated (o.map memberChars) ++ '\x7d' :: rest) := by
    simp [objectChars]
  rw [htext, value?]
  simp [skipBlanks, isBlank, hread]

/-- There are no more items than characters, but for one. -/
theorem length_le_length_commaSeparated (ts : List (List Char)) :
    ts.length ≤ (commaSeparated ts).length + 1 := by
  fun_induction commaSeparated ts with
  | case1 => simp
  | case2 t => simp
  | case3 t ts _ ih =>
    simp only [List.length_cons, List.length_append]
    omega

/-- An object has no more members than characters. -/
theorem length_le_length_objectChars (o : Object) : o.length ≤ (objectChars o).length := by
  have h := length_le_length_commaSeparated (o.map memberChars)
  simp [objectChars] at h ⊢
  omega

/-- Between the items there are commas and nothing else. -/
theorem mem_commaSeparated {ts : List (List Char)} {d : Char} (h : d ∈ commaSeparated ts) :
    d = ',' ∨ ∃ t ∈ ts, d ∈ t := by
  fun_induction commaSeparated ts with
  | case1 => cases h
  | case2 t => exact Or.inr ⟨t, List.mem_singleton.mpr rfl, h⟩
  | case3 t ts _ ih =>
    rcases List.mem_append.mp h with h | h
    · exact Or.inr ⟨t, List.mem_cons_self, h⟩
    rcases List.mem_cons.mp h with rfl | h
    · exact Or.inl rfl
    rcases ih h with rfl | ⟨u, hu, h⟩
    · exact Or.inl rfl
    · exact Or.inr ⟨u, List.mem_cons_of_mem t hu, h⟩

/-- **An object is written on one line.** -/
theorem le_of_mem_objectChars {o : Object} {d : Char} (hd : d ∈ objectChars o) : 0x20 ≤ d.toNat := by
  unfold objectChars at hd
  rcases List.mem_append.mp hd with hd | hd
  · rcases List.mem_cons.mp hd with rfl | hd
    · decide
    rcases mem_commaSeparated hd with rfl | ⟨t, ht, hd⟩
    · decide
    obtain ⟨m, _, rfl⟩ := List.mem_map.mp ht
    rcases List.mem_append.mp hd with hd | hd
    · exact le_of_mem_quoted hd
    rcases List.mem_cons.mp hd with rfl | hd
    · decide
    · exact Scalar.le_of_mem_chars hd
  · rw [List.mem_singleton.mp hd]
    decide

end HostMeter.Json
