import HostMeter.Text.Numeral
import Mathlib.Algebra.Group.Nat.Defs
/-!
# Numerals — texts that stand for a number

A numeral is a run of digits, with or without a plus sign before it. A word is read digit by digit and the
reader stops where the number would no longer fit. A number only grows by the digits behind it, so a word is
read from a text exactly if the text is a numeral of a number that fits, and the digits of a number are a
numeral of that number.

* `IsNumeral`: which texts are numerals, and of what; `IsNumeral.unique`.
* `isNumeral_zeros_append`, `isNumeral_plus`, `IsNumeral.isDigit_of_mem_tail`: what stands where in a numeral.
* `foldlM_pushDigit?_eq_some_iff`: what the reader makes of a run of digits, however long.
* `uint32?_eq_some_iff`, `uint64?_eq_some_iff`: when a word is read; `IsWord64`: from which texts.
* `digitsValue_digits`, `uint32?_digits`, `uint64?_digits`: what is printed is read back.
-/

namespace HostMeter.Text

/-! ## Numerals

A numeral is told by its digits and their value. The plus sign is no digit, so a text is a numeral in one
way at most. -/

/-- The value of a run of decimal digits. -/
def digitsValue (cs : List Char) : Nat :=
  cs.foldl (fun n c => 10 * n + (c.toNat - '0'.toNat)) 0

/-- The value of two runs of digits, one behind the other. -/
theorem digitsValue_append (xs ys : List Char) :
    digitsValue (xs ++ ys) = digitsValue xs * 10 ^ ys.length + digitsValue ys := by
  show Nat.ofDigitChars 10 (xs ++ ys) 0 = Nat.ofDigitChars 10 xs 0 * _ + Nat.ofDigitChars 10 ys 0
  rw [Nat.ofDigitChars_append, Nat.ofDigitChars_eq_ofDigitChars_zero, Nat.mul_comm]

theorem digitsValue_zeros (n : Nat) : digitsValue (List.replicate n '0') = 0 := by
  show Nat.ofDigitChars 10 (List.replicate n '0') 0 = 0
  rw [Nat.ofDigitChars_replicate_zero, Nat.mul_zero]

/-- Zeros are digits. -/
theorem isDigit_of_mem_zeros {n : Nat} : ∀ c ∈ List.replicate n '0', c.isDigit = true := by
  intro c hc
  rw [List.eq_of_mem_replicate hc]
  decide

/-- Is the text a numeral of this number: a run of digits, with or without a plus sign before it? -/
def IsNumeral (cs : List Char) (n : Nat) : Prop :=
  ∃ ds, (cs = ds ∨ cs = '+' :: ds) ∧ ds ≠ [] ∧ (∀ c ∈ ds, c.isDigit = true) ∧ digitsValue ds = n

/-- What is dropped from a text is a plus sign in front, or nothing. -/
theorem eq_dropPlus_or (cs : List Char) : cs = dropPlus cs ∨ cs = '+' :: dropPlus cs := by
  rw [dropPlus.eq_def]
  split
  · exact Or.inr rfl
  · exact Or.inl rfl

/-- From digits nothing is dropped. -/
theorem dropPlus_of_digits {ds : List Char} (h : ∀ c ∈ ds, c.isDigit = true) : dropPlus ds = ds := by
  rw [dropPlus.eq_def]
  split
  · next cs =>
    -- a plus sign is not a digit
    have hplus : '+'.isDigit = true := h '+' List.mem_cons_self
    exact absurd hplus (by decide)
  · rfl

/-- What makes a text a numeral is what stands behind the plus sign, if there is one. -/
theorem isNumeral_iff_dropPlus {cs : List Char} {n : Nat} :
    IsNumeral cs n ↔
      dropPlus cs ≠ [] ∧ (∀ c ∈ dropPlus cs, c.isDigit = true) ∧ digitsValue (dropPlus cs) = n := by
  constructor
  · rintro ⟨ds, hcs, hne, hdigits, hvalue⟩
    have hdrop : dropPlus cs = ds := by
      rcases hcs with rfl | rfl
      · exact dropPlus_of_digits hdigits
      · rfl
    rw [hdrop]
    exact ⟨hne, hdigits, hvalue⟩
  · intro h
    exact ⟨dropPlus cs, eq_dropPlus_or cs, h⟩

/-- A text is the numeral of one number at most. -/
theorem IsNumeral.unique {cs : List Char} {n m : Nat} (hn : IsNumeral cs n) (hm : IsNumeral cs m) :
    n = m := by
  rw [isNumeral_iff_dropPlus] at hn hm
  exact hn.2.2.symm.trans hm.2.2

theorem not_isNumeral_nil (n : Nat) : ¬IsNumeral [] n := fun h =>
  (isNumeral_iff_dropPlus.mp h).1 rfl

/-! ## The characters of a numeral

What the grammar of numerals comes to, character by character: zeros and a plus sign in front change
nothing, and nothing but digits stands anywhere else. -/

/-- A run of digits is a numeral of its value, unless it is empty. -/
theorem isNumeral_of_digits {ds : List Char} {n : Nat} (h : ∀ c ∈ ds, c.isDigit = true) :
    IsNumeral ds n ↔ ds ≠ [] ∧ digitsValue ds = n := by
  rw [isNumeral_iff_dropPlus, dropPlus_of_digits h, and_iff_right h]

/-- Behind a plus sign there has to be a run of digits. -/
theorem isNumeral_plus {cs : List Char} {n : Nat} :
    IsNumeral ('+' :: cs) n ↔ cs ≠ [] ∧ (∀ c ∈ cs, c.isDigit = true) ∧ digitsValue cs = n :=
  isNumeral_iff_dropPlus

/-- **Zeros in front of the digits change nothing**, however many there are. -/
theorem isNumeral_zeros_append {ds : List Char} {n : Nat} (k : Nat) (hne : ds ≠ [])
    (h : ∀ c ∈ ds, c.isDigit = true) : IsNumeral (List.replicate k '0' ++ ds) n ↔ IsNumeral ds n := by
  have hdigits : ∀ c ∈ List.replicate k '0' ++ ds, c.isDigit = true :=
    List.forall_mem_append.mpr ⟨isDigit_of_mem_zeros, h⟩
  rw [isNumeral_of_digits hdigits, isNumeral_of_digits h, digitsValue_append, digitsValue_zeros,
    Nat.zero_mul, Nat.zero_add, and_iff_right hne, and_iff_right (List.append_ne_nil_of_right_ne_nil _ hne)]

/-- Only digits stand behind the first character of a numeral. -/
theorem IsNumeral.isDigit_of_mem_tail {cs : List Char} {n : Nat} {c : Char} (h : IsNumeral cs n)
    (hc : c ∈ cs.tail) : c.isDigit = true := by
  obtain ⟨ds, rfl | rfl, -, hdigits, -⟩ := h
  · exact hdigits c (List.mem_of_mem_tail hc)
  · exact hdigits c hc

/-- The first character of a numeral is a digit or the plus sign. -/
theorem IsNumeral.isDigit_or_eq_plus {cs : List Char} {n : Nat} {c : Char} (h : IsNumeral (c :: cs) n) :
    c.isDigit = true ∨ c = '+' := by
  obtain ⟨ds, hcs, -, hdigits, -⟩ := h
  rcases hcs with rfl | hcs
  · exact Or.inl (hdigits c List.mem_cons_self)
  · exact Or.inr (List.cons.inj hcs).1

/-! ## Reading

The reader goes through the digits with the number of those before, and stops at a character that is no
digit and where the bound is reached. A number does not get smaller by more digits, so if the number in the
end is below the bound then so are all on the way. -/

/-- **One step of the reader.** -/
theorem pushDigit?_eq_some_iff {bound n m : Nat} {c : Char} :
    pushDigit? bound n c = some m ↔
      c.isDigit = true ∧ 10 * n + (c.toNat - '0'.toNat) = m ∧ m < bound := by
  simp only [pushDigit?, Option.ite_none_right_eq_some, Option.some.injEq, Bool.and_eq_true,
    decide_eq_true_eq]
  constructor
  · rintro ⟨⟨hdigit, hlt⟩, rfl⟩
    exact ⟨hdigit, rfl, hlt⟩
  · rintro ⟨hdigit, rfl, hlt⟩
    exact ⟨⟨hdigit, hlt⟩, rfl⟩

/-- A number does not get smaller by the digits behind it. -/
theorem le_ofDigitChars (n : Nat) (ds : List Char) : n ≤ Nat.ofDigitChars 10 ds n := by
  have hpos : 0 < 10 ^ ds.length := Nat.pow_pos (by decide)
  rw [Nat.ofDigitChars_eq_ofDigitChars_zero]
  calc n ≤ 10 ^ ds.length * n := Nat.le_mul_of_pos_left n hpos
    _ ≤ _ := Nat.le_add_right _ _

/-- **A run of digits** behind those of `n`: there is a result exactly if all are digits and the number in
the end is below the bound. The induction takes one digit off the front; what it makes of `n` is not above
the number in the end, so that the bound is not reached on the way either. -/
theorem foldlM_pushDigit?_eq_some_iff {bound n m : Nat} {ds : List Char} (hne : ds ≠ []) :
    ds.foldlM (pushDigit? bound) n = some m ↔
      (∀ c ∈ ds, c.isDigit = true) ∧ Nat.ofDigitChars 10 ds n = m ∧ m < bound := by
  induction ds generalizing n with
  | nil => exact absurd rfl hne
  | cons c ds ih =>
    simp only [List.foldlM_cons, Option.bind_eq_bind, Option.bind_eq_some_iff, pushDigit?_eq_some_iff,
      List.forall_mem_cons, Nat.ofDigitChars_cons]
    cases ds with
    | nil =>
      constructor
      · rintro ⟨k, ⟨hc, hk, hlt⟩, hlast⟩
        cases hlast
        exact ⟨⟨hc, List.forall_mem_nil _⟩, hk, hlt⟩
      · rintro ⟨⟨hc, -⟩, hm, hlt⟩
        exact ⟨m, ⟨hc, hm, hlt⟩, rfl⟩
    | cons d ds =>
      -- the first digit is followed by others: the number in the end bounds the one after this digit
      have hle := le_ofDigitChars (10 * n + (c.toNat - '0'.toNat)) (d :: ds)
      constructor
      · rintro ⟨k, ⟨hc, rfl, -⟩, hrest⟩
        obtain ⟨hdigits, hvalue, hlt⟩ := (ih (List.cons_ne_nil d ds)).mp hrest
        exact ⟨⟨hc, hdigits⟩, hvalue, hlt⟩
      · rintro ⟨⟨hc, hdigits⟩, hvalue, hlt⟩
        refine ⟨_, ⟨hc, rfl, by omega⟩, ?_⟩
        exact (ih (List.cons_ne_nil d ds)).mpr ⟨hdigits, hvalue, hlt⟩

/-- **A number below the bound is read from its numerals, and from no other text.** -/
theorem numeralBelow?_eq_some_iff {bound : Nat} {cs : List Char} {n : Nat} :
    numeralBelow? bound cs = some n ↔ IsNumeral cs n ∧ n < bound := by
  rw [isNumeral_iff_dropPlus, numeralBelow?]
  by_cases hne : dropPlus cs = []
  · simp [hne]
  · have hfull : ¬(dropPlus cs).isEmpty = true := fun hempty => hne (List.isEmpty_iff.mp hempty)
    rw [if_neg hfull, foldlM_pushDigit?_eq_some_iff hne, and_iff_right hne, and_assoc]
    rfl

/-- A word of 32 bits is read from the numerals of its number. -/
theorem uint32?_eq_some_iff {cs : List Char} {w : UInt32} :
    uint32? cs = some w ↔ IsNumeral cs w.toNat := by
  rw [uint32?, Option.map_eq_some_iff]
  constructor
  · rintro ⟨n, hn, rfl⟩
    obtain ⟨hn, hlt⟩ := numeralBelow?_eq_some_iff.mp hn
    rwa [UInt32.toNat_ofNat_of_lt' hlt]
  · intro h
    exact ⟨w.toNat, numeralBelow?_eq_some_iff.mpr ⟨h, w.toNat_lt⟩, UInt32.ofNat_toNat⟩

/-- A word of 64 bits is read from the numerals of its number. -/
theorem uint64?_eq_some_iff {cs : List Char} {w : UInt64} :
    uint64? cs = some w ↔ IsNumeral cs w.toNat := by
  rw [uint64?, Option.map_eq_some_iff]
  constructor
  · rintro ⟨n, hn, rfl⟩
    obtain ⟨hn, hlt⟩ := numeralBelow?_eq_some_iff.mp hn
    rwa [UInt64.toNat_ofNat_of_lt' hlt]
  · intro h
    exact ⟨w.toNat, numeralBelow?_eq_some_iff.mpr ⟨h, w.toNat_lt⟩, UInt64.ofNat_toNat⟩

/-- Is the text a numeral of a number that fits a word of 64 bits? -/
def IsWord64 (cs : List Char) : Prop := ∃ n < UInt64.size, IsNumeral cs n

/-- Whether a word of 64 bits is read at all. -/
theorem isSome_uint64?_iff {cs : List Char} : (uint64? cs).isSome = true ↔ IsWord64 cs := by
  rw [Option.isSome_iff_exists]
  constructor
  · rintro ⟨w, hw⟩
    exact ⟨w.toNat, w.toNat_lt, uint64?_eq_some_iff.mp hw⟩
  · rintro ⟨n, hlt, hn⟩
    exact ⟨UInt64.ofNat n, uint64?_eq_some_iff.mpr (by rwa [UInt64.toNat_ofNat_of_lt' hlt])⟩

instance : DecidablePred IsWord64 := fun _ => decidable_of_iff _ isSome_uint64?_iff

/-- No word of 32 bits is read if the text is no numeral of a number that fits. -/
theorem uint32?_eq_none_iff {cs : List Char} :
    uint32? cs = none ↔ ∀ n < UInt32.size, ¬IsNumeral cs n := by
  rw [uint32?, Option.map_eq_none_iff, Option.eq_none_iff_forall_ne_some]
  simp only [ne_eq, numeralBelow?_eq_some_iff]
  exact forall_congr' fun n => ⟨fun h hlt hn => h ⟨hn, hlt⟩, fun h hn => h hn.2 hn.1⟩

/-! ## Printing

A number is printed in its shortest numeral. It is read back, at every width that holds it. -/

/-- The printed digits of a number have its value. -/
theorem digitsValue_digits (n : Nat) : digitsValue (digits n) = n := Nat.ofDigitChars_ten_toDigits

theorem digits_ne_nil (n : Nat) : digits n ≠ [] := Nat.toDigits_ne_nil

theorem isDigit_of_mem_digits {n : Nat} {c : Char} (h : c ∈ digits n) : c.isDigit = true :=
  Nat.isDigit_of_mem_toDigits (by decide) (by decide) h

/-- The digits of a positive number do not start with a zero. -/
theorem head?_digits {n : Nat} (h : 0 < n) : (digits n).head? ≠ some '0' := by
  induction n using Nat.strongRecOn with
  | ind n ih =>
    unfold digits
    rw [Nat.toDigits_eq_if (by decide)]
    split
    · next hlt =>
      have hfirst : ∀ d < 10, 0 < d → d.digitChar ≠ '0' := by decide
      simpa using hfirst n hlt h
    · next hge =>
      have hne : (Nat.toDigits 10 (n / 10)).head? ≠ some '0' := ih (n / 10) (by omega) (by omega)
      obtain ⟨d, ds, hds⟩ := List.exists_cons_of_ne_nil (Nat.toDigits_ne_nil (n := n / 10) (b := 10))
      rw [hds] at hne ⊢
      exact hne

/-- The numeral of zero is the only one with a zero in front. -/
theorem eq_of_head?_digits {n : Nat} (h : (digits n).head? = some '0') : digits n = ['0'] := by
  rcases Nat.eq_zero_or_pos n with rfl | hpos
  · rfl
  · exact absurd h (head?_digits hpos)

/-- The digits of a number are a numeral of it. -/
theorem isNumeral_digits (n : Nat) : IsNumeral (digits n) n :=
  ⟨digits n, Or.inl rfl, digits_ne_nil n, fun _ => isDigit_of_mem_digits, digitsValue_digits n⟩

/-- **A printed word is read back.** -/
theorem uint32?_digits (w : UInt32) : uint32? (digits w.toNat) = some w :=
  uint32?_eq_some_iff.mpr (isNumeral_digits w.toNat)

/-- **A printed word of 64 bits is read back.** -/
theorem uint64?_digits (w : UInt64) : uint64? (digits w.toNat) = some w :=
  uint64?_eq_some_iff.mpr (isNumeral_digits w.toNat)

/-- Nothing is put in the place of a printed word when it is read. -/
theorem getD_uint64?_digits (w w' : UInt64) : (uint64? (digits w.toNat)).getD w' = w := by
  rw [uint64?_digits, Option.getD_some]

end HostMeter.Text
