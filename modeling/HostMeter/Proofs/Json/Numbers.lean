import HostMeter.Proofs.Decimal.ReadBack
import HostMeter.Proofs.Json.Reader
import HostMeter.Proofs.Text.Numerals
/-!
# Numbers — reading what is written

A numeral has a sign, digits before the point, digits behind it and a power of ten, of which all but the
digits before the point may be missing. The reader takes it apart again if what follows cannot be part of
a number. Whatever the writer makes of an integer or of a double is a numeral, and it stands for that
integer or that double.

* `Numeral`, `Numeral.number?_chars`: numerals, and how they are read.
* `exists_numeral_ofInt`: integers.
* `exists_numeral_decimalChars`: decimals, up to zeros at the end; `exists_numeral_doubleChars`: doubles.
-/

namespace HostMeter

namespace Json

/-! ## Numerals

The grammar of numbers as a record of their parts. A numeral that breaks a rule of the grammar cannot be
built. -/

def signChars (negative : Bool) : List Char := if negative then ['-'] else []

def fractionChars (ds : List Char) : List Char := if ds.isEmpty then [] else '.' :: ds

def powerChars : Option Int → List Char
  | none => []
  | some p => 'e' :: (if p < 0 then '-' else '+') :: Text.digits p.natAbs

/-- The parts of a number that is written out. -/
structure Numeral where
  negative : Bool
  whole : List Char
  fraction : List Char
  power : Option Int
  whole_ne_nil : whole ≠ []
  isDigit_whole : ∀ c ∈ whole, c.isDigit = true
  /-- A zero before the point stands alone. -/
  whole_of_zero : whole.head? = some '0' → whole = ['0']
  isDigit_fraction : ∀ c ∈ fraction, c.isDigit = true

namespace Numeral

def chars (m : Numeral) : List Char :=
  signChars m.negative ++ (m.whole ++ (fractionChars m.fraction ++ powerChars m.power))

/-- The number that a numeral stands for. -/
def number (m : Numeral) : Number :=
  ⟨m.negative, Text.digitsValue (m.whole ++ m.fraction), m.power.getD 0 - m.fraction.length,
    m.fraction.isEmpty && m.power.isNone⟩

end Numeral

/-! ## Reading a numeral

The reader goes from the left, and each part ends where the next one starts. -/

/-- Can a number not go on with what follows it? -/
def Stops (rest : List Char) : Prop :=
  ∀ c ∈ rest.head?, c.isDigit = false ∧ c ≠ '.' ∧ c ≠ 'e' ∧ c ≠ 'E'

/-- A run of digits is read up to the first character that is none. -/
theorem digitRun?_append {ds rest : List Char} (hne : ds ≠ []) (hds : ∀ c ∈ ds, c.isDigit = true)
    (hrest : ∀ c ∈ rest.head?, c.isDigit = false) : digitRun? (ds ++ rest) = some (ds, rest) := by
  have htake : rest.takeWhile Char.isDigit = [] := by
    cases rest with
    | nil => rfl
    | cons c rest => simp [hrest c rfl]
  have hdrop : rest.dropWhile Char.isDigit = rest := by
    cases rest with
    | nil => rfl
    | cons c rest => simp [hrest c rfl]
  unfold digitRun?
  rw [List.takeWhile_append_of_pos hds, List.dropWhile_append_of_pos hds, htake, hdrop]
  simp [hne]

theorem digitRun?_digits (n : Nat) {rest : List Char} (hrest : ∀ c ∈ rest.head?, c.isDigit = false) :
    digitRun? (Text.digits n ++ rest) = some (Text.digits n, rest) :=
  digitRun?_append (Text.digits_ne_nil n) (fun _ => Text.isDigit_of_mem_digits) hrest

/-- A power of ten is read with its sign, and a missing one as missing. -/
theorem power?_powerChars (power : Option Int) {rest : List Char} (h : Stops rest) :
    power? (powerChars power ++ rest) = some (power, rest) := by
  cases power with
  -- no power: what follows is none either
  | none =>
    cases rest with
    | nil => rfl
    | cons c rest =>
      obtain ⟨_, _, he, hE⟩ := h c rfl
      simp [powerChars, power?, he, hE]
  | some p =>
    have hrun := digitRun?_digits p.natAbs fun c hc => (h c hc).1
    -- a power, with its sign
    by_cases hp : p < 0
    · simp [powerChars, power?, sign, hp, hrun, Text.digitsValue_digits, -Nat.cast_natAbs]
      omega
    · simp [powerChars, power?, sign, dropPlus, hp, hrun, Text.digitsValue_digits, -Nat.cast_natAbs]
      omega

/-- The digits behind the point are read as they are. -/
theorem fraction?_fractionChars {fraction rest : List Char}
    (hfraction : ∀ c ∈ fraction, c.isDigit = true)
    (hrest : ∀ c ∈ rest.head?, c.isDigit = false ∧ c ≠ '.') :
    fraction? (fractionChars fraction ++ rest) = some (fraction, rest) := by
  cases fraction with
  | nil =>
    cases rest with
    | nil => rfl
    | cons c rest => simp [fractionChars, fraction?, (hrest c rfl).2]
  | cons d ds =>
    have hrun := digitRun?_append (List.cons_ne_nil d ds) hfraction fun c hc => (hrest c hc).1
    simpa [fractionChars, fraction?] using hrun

/-- What comes behind the digits is no digit. -/
theorem isDigit_of_head?_powerChars (power : Option Int) {rest : List Char} (h : Stops rest) :
    ∀ c ∈ (powerChars power ++ rest).head?, c.isDigit = false ∧ c ≠ '.' := by
  intro c hc
  cases power with
  | none => exact ⟨(h c hc).1, (h c hc).2.1⟩
  | some p =>
    obtain rfl : 'e' = c := Option.some.inj hc
    decide

/-- What comes behind the whole part is no digit. -/
theorem isDigit_of_head?_fractionChars (fraction : List Char) {rest : List Char}
    (h : ∀ c ∈ rest.head?, c.isDigit = false) :
    ∀ c ∈ (fractionChars fraction ++ rest).head?, c.isDigit = false := by
  intro c hc
  cases fraction with
  | nil => exact h c hc
  | cons d ds =>
    obtain rfl : '.' = c := Option.some.inj hc
    decide

/-- The sign is read before the digits. -/
theorem sign_signChars (negative : Bool) {cs : List Char} (h : ∀ c ∈ cs.head?, c.isDigit = true) :
    sign (signChars negative ++ cs) = (negative, cs) := by
  cases negative with
  | true => rfl
  | false =>
    cases cs with
    | nil => rfl
    | cons c cs =>
      have hc : c ≠ '-' := by
        rintro rfl
        exact absurd (h '-' rfl) (by decide)
      simp [signChars, sign, hc]

/-- **A numeral is read as its parts say.** -/
theorem Numeral.number?_chars (m : Numeral) {rest : List Char} (hrest : Stops rest) :
    number? (m.chars ++ rest) = some (m.number, rest) := by
  have hpower := isDigit_of_head?_powerChars m.power hrest
  have hfirst : ∀ c ∈ (m.whole ++ (fractionChars m.fraction ++ (powerChars m.power ++ rest))).head?,
      c.isDigit = true := by
    intro c hc
    obtain ⟨d, ds, hds⟩ := List.exists_cons_of_ne_nil m.whole_ne_nil
    rw [hds] at hc
    obtain rfl : d = c := Option.some.inj hc
    exact m.isDigit_whole d (by rw [hds]; exact List.mem_cons_self)
  have hrun := digitRun?_append m.whole_ne_nil m.isDigit_whole
    (isDigit_of_head?_fractionChars m.fraction fun c hc => (hpower c hc).1)
  -- a zero before the point stands alone
  have hshort : ¬ (m.whole.head? = some '0' ∧ 1 < m.whole.length) := by
    rintro ⟨hhead, hlong⟩
    rw [m.whole_of_zero hhead] at hlong
    exact absurd hlong (by decide)
  have htext : m.chars ++ rest = signChars m.negative ++
      (m.whole ++ (fractionChars m.fraction ++ (powerChars m.power ++ rest))) := by
    simp [chars]
  rw [htext]
  unfold number? whole?
  simp [sign_signChars m.negative hfirst, hrun, hshort,
    fraction?_fractionChars m.isDigit_fraction hpower, power?_powerChars m.power hrest, number]

/-- A numeral has no control characters. -/
theorem Numeral.le_of_mem_chars (m : Numeral) {c : Char} (h : c ∈ m.chars) : 0x20 ≤ c.toNat := by
  have hdigit : ∀ d : Char, d.isDigit = true → 0x20 ≤ d.toNat := by
    intro d hd
    have hzero : 48 ≤ d.toNat := (Char.isDigit_iff_toNat.mp hd).1
    omega
  unfold chars at h
  rcases List.mem_append.mp h with h | h
  · cases hm : m.negative <;> simp_all [signChars]
  rcases List.mem_append.mp h with h | h
  · exact hdigit c (m.isDigit_whole c h)
  rcases List.mem_append.mp h with h | h
  · unfold fractionChars at h
    split at h
    · cases h
    · rcases List.mem_cons.mp h with rfl | h
      · decide
      · exact hdigit c (m.isDigit_fraction c h)
  · cases hm : m.power with
    | none =>
      rw [hm] at h
      cases h
    | some p =>
      rw [hm] at h
      rcases List.mem_cons.mp h with rfl | h
      · decide
      rcases List.mem_cons.mp h with rfl | h
      · split <;> decide
      · exact hdigit c (Text.isDigit_of_mem_digits h)

/-! ## The layouts of the writer

The writer puts the point among the digits, behind zeros, or behind the first digit with a power of ten. In
each case the text is a numeral for the same decimal. -/

/-- An integer is written as a numeral without a point. -/
theorem exists_numeral_ofInt (i : Int) :
    ∃ m : Numeral, (Text.ofInt i).toList = m.chars ∧ m.number.integer? = some i := by
  refine ⟨⟨decide (i < 0), Text.digits i.natAbs, [], none, Text.digits_ne_nil _,
    fun _ => Text.isDigit_of_mem_digits, Text.eq_of_head?_digits, List.forall_mem_nil _⟩, ?_, ?_⟩
  · unfold Text.ofInt
    split <;> simp [Numeral.chars, signChars, fractionChars, powerChars, Text.ofNat, *]
  · simp [Numeral.number, Number.integer?, Text.digitsValue_digits, -Nat.cast_natAbs]
    omega

section Decimal

variable (negative : Bool) {ds : List Char}

/-- The number that a decimal stands for, with zeros at the end of its coefficient. -/
def numberOf (d : Decimal.Scientific) (k : Nat) : Number :=
  ⟨negative, (d.addZeros k).coefficient, (d.addZeros k).exponent, false⟩

/-- A whole number; the zeros at its end, and the one behind the point, are zeros of the decimal. -/
theorem exists_numeral_of_nonneg (exponent : Nat) (hne : ds ≠ [])
    (hdigits : ∀ c ∈ ds, c.isDigit = true) (hhead : ds.head? ≠ some '0') :
    ∃ (m : Numeral) (k : Nat),
      signChars negative ++ (ds ++ List.replicate exponent '0' ++ ['.', '0']) = m.chars ∧
      m.number = numberOf negative ⟨Text.digitsValue ds, exponent⟩ k := by
  have hhead' : (ds ++ List.replicate exponent '0').head? ≠ some '0' := by
    obtain ⟨d, tail, rfl⟩ := List.exists_cons_of_ne_nil hne
    exact hhead
  let m : Numeral := ⟨negative, ds ++ List.replicate exponent '0', ['0'], none, by simp [hne],
    List.forall_mem_append.mpr ⟨hdigits, Text.isDigit_of_mem_zeros⟩, fun hzero => absurd hzero hhead',
    Text.isDigit_of_mem_zeros (n := 1)⟩
  refine ⟨m, exponent + 1, by simp [m, Numeral.chars, fractionChars, powerChars], ?_⟩
  have hzero : Text.digitsValue ['0'] = 0 := rfl
  simp [m, Numeral.number, numberOf, Decimal.Scientific.addZeros, Text.digitsValue_append,
    Text.digitsValue_zeros, hzero]

/-- The point is among the digits. -/
theorem exists_numeral_of_lt {places : Nat} (hplaces : 0 < places) (hlt : places < ds.length)
    (hdigits : ∀ c ∈ ds, c.isDigit = true) (hhead : ds.head? ≠ some '0') :
    ∃ m : Numeral, signChars negative ++
        (ds.take (ds.length - places) ++ '.' :: ds.drop (ds.length - places)) = m.chars ∧
      m.number = numberOf negative ⟨Text.digitsValue ds, -places⟩ 0 := by
  have htake : ds.take (ds.length - places) ≠ [] := by
    rw [Ne, List.take_eq_nil_iff, not_or]
    exact ⟨by omega, List.ne_nil_of_length_pos (by omega)⟩
  have hdrop : ds.drop (ds.length - places) ≠ [] := by
    rw [Ne, List.drop_eq_nil_iff]
    omega
  have hhead' : (ds.take (ds.length - places)).head? ≠ some '0' := by
    rwa [List.head?_take, if_neg (by omega)]
  let m : Numeral := ⟨negative, ds.take (ds.length - places), ds.drop (ds.length - places), none,
    htake, fun c hc => hdigits c (List.mem_of_mem_take hc), fun hzero => absurd hzero hhead',
    fun c hc => hdigits c (List.mem_of_mem_drop hc)⟩
  refine ⟨m, ?_, ?_⟩
  · simp [m, Numeral.chars, fractionChars, powerChars, hdrop]
  · simp [m, Numeral.number, numberOf, Decimal.Scientific.addZeros, hdrop]
    omega

/-- All digits stand behind the point, after some zeros. -/
theorem exists_numeral_of_le {places : Nat} (hge : ds.length ≤ places) (hne : ds ≠ [])
    (hdigits : ∀ c ∈ ds, c.isDigit = true) :
    ∃ m : Numeral, signChars negative ++
        ('0' :: '.' :: List.replicate (places - ds.length) '0' ++ ds) = m.chars ∧
      m.number = numberOf negative ⟨Text.digitsValue ds, -places⟩ 0 := by
  let m : Numeral := ⟨negative, ['0'], List.replicate (places - ds.length) '0' ++ ds, none, by simp,
    Text.isDigit_of_mem_zeros (n := 1), fun _ => rfl,
    List.forall_mem_append.mpr ⟨Text.isDigit_of_mem_zeros, hdigits⟩⟩
  have hvalue : Text.digitsValue ('0' :: (List.replicate (places - ds.length) '0' ++ ds)) =
      Text.digitsValue ds := by
    rw [← List.cons_append, ← List.replicate_succ, Text.digitsValue_append, Text.digitsValue_zeros,
      Nat.zero_mul, Nat.zero_add]
  refine ⟨m, ?_, ?_⟩
  · simp [m, Numeral.chars, fractionChars, powerChars, hne]
  · simp [m, Numeral.number, numberOf, Decimal.Scientific.addZeros, hne, hvalue]
    omega

/-- Plain notation, by where its point stands. -/
theorem exists_numeral_plain (exponent : Int) (hne : ds ≠ []) (hdigits : ∀ c ∈ ds, c.isDigit = true)
    (hhead : ds.head? ≠ some '0') :
    ∃ (m : Numeral) (k : Nat), signChars negative ++ plain ds exponent = m.chars ∧
      m.number = numberOf negative ⟨Text.digitsValue ds, exponent⟩ k := by
  unfold plain
  split
  · next hexp =>
    -- a whole number
    obtain ⟨e, rfl⟩ := Int.eq_ofNat_of_zero_le hexp
    exact exists_numeral_of_nonneg negative e hne hdigits hhead
  · next hexp =>
    obtain ⟨places, rfl⟩ := Int.exists_eq_neg_ofNat (Int.le_of_not_le hexp)
    rw [Int.neg_neg, Int.toNat_natCast]
    dsimp only
    split
    · next hlt =>
      -- a point among the digits
      obtain ⟨m, hm⟩ := exists_numeral_of_lt negative (by omega) hlt hdigits hhead
      exact ⟨m, 0, hm⟩
    · next hge =>
      -- all digits behind the point
      obtain ⟨m, hm⟩ := exists_numeral_of_le negative (Nat.le_of_not_lt hge) hne hdigits
      exact ⟨m, 0, hm⟩

/-- The notation with a power of ten, by its digits. -/
theorem exists_numeral_withExponent (power : Int) (hne : ds ≠ [])
    (hdigits : ∀ c ∈ ds, c.isDigit = true) :
    ∃ m : Numeral, signChars negative ++ withExponent ds power = m.chars ∧
      m.number = numberOf negative ⟨Text.digitsValue ds, power - ds.length + 1⟩ 0 := by
  obtain ⟨d, tail, rfl⟩ := List.exists_cons_of_ne_nil hne
  have hfirst : d.isDigit = true := hdigits d List.mem_cons_self
  let m : Numeral := ⟨negative, [d], tail, some power, by simp, by simpa using hfirst,
    fun hzero => by simpa using hzero, fun c hc => hdigits c (List.mem_cons_of_mem d hc)⟩
  refine ⟨m, ?_, ?_⟩
  · simp [m, Numeral.chars, withExponent, fractionChars, powerChars]
  · simp [m, Numeral.number, numberOf, Decimal.Scientific.addZeros]
    omega

/-- **A decimal is written as a numeral for it**, up to zeros at its end. -/
theorem exists_numeral_decimalChars (layout : NumberLayout) {d : Decimal.Scientific}
    (hd : 0 < d.coefficient) :
    ∃ (m : Numeral) (k : Nat), signChars negative ++ decimalChars layout d = m.chars ∧
      m.number = numberOf negative d k := by
  have hne := Text.digits_ne_nil d.coefficient
  have hdigits : ∀ c ∈ Text.digits d.coefficient, c.isDigit = true :=
    fun _ => Text.isDigit_of_mem_digits
  have hvalue := Text.digitsValue_digits d.coefficient
  unfold decimalChars
  dsimp only
  split
  · obtain ⟨m, k, hchars, hnumber⟩ :=
      exists_numeral_plain negative d.exponent hne hdigits (Text.head?_digits hd)
    exact ⟨m, k, hchars, by rw [hnumber, hvalue]⟩
  · obtain ⟨m, hchars, hnumber⟩ := exists_numeral_withExponent negative
      (d.exponent + (Text.digits d.coefficient).length - 1) hne hdigits
    refine ⟨m, 0, hchars, ?_⟩
    rw [hnumber, hvalue]
    congr 2
    omega

end Decimal

/-! ## Doubles

The shortest decimal reads back as the double; what is left is that its text is read as this decimal. -/

/-- The double for a decimal, as its sign and its magnitude. -/
theorem toBinary64_numberOf (negative : Bool) (d : Decimal.Scientific) (k : Nat) :
    (numberOf negative d k).toBinary64 =
      ⟨UInt64.ofNat ((if negative then Binary64.exponentCount * Binary64.fractionCount else 0) +
        d.nearest.bits.toNat)⟩ := by
  rw [← d.nearest_addZeros k]
  rfl

/-- A double is its sign and its magnitude. -/
theorem bits_eq_of_magnitude {x : Binary64} {n : Nat}
    (h : n = x.scale * Binary64.fractionCount + x.mantissa) :
    (⟨UInt64.ofNat ((if x.isNegative then Binary64.exponentCount * Binary64.fractionCount else 0) +
      n)⟩ : Binary64) = x := by
  have hword : x.bits.toNat < 2 * (Binary64.exponentCount * Binary64.fractionCount) := x.bits.toNat_lt
  have hmagnitude := x.magnitude_eq
  rw [← h] at hmagnitude
  have hbits : (if x.isNegative then Binary64.exponentCount * Binary64.fractionCount else 0) + n =
      x.bits.toNat := by
    unfold Binary64.isNegative
    generalize Binary64.exponentCount * Binary64.fractionCount = half at *
    rw [← hmagnitude]
    split
    · next hneg =>
      -- the sign bit is above the magnitude
      have hle := of_decide_eq_true hneg
      rw [Nat.mod_eq_sub_mod hle, Nat.mod_eq_of_lt (by omega)]
      omega
    · next hpos =>
      have hlt : x.bits.toNat < half := by simpa using hpos
      rw [Nat.mod_eq_of_lt hlt, Nat.zero_add]
  rw [hbits, UInt64.ofNat_toNat]

/-- **A finite double is written as a numeral that reads back.** -/
theorem exists_numeral_doubleChars {x : Binary64} (hfinite : x.isFinite = true) :
    ∃ m : Numeral, doubleChars x = m.chars ∧ m.number.toBinary64 = x := by
  have htext : doubleChars x = signChars x.isNegative ++ (if x.units = 0 then ['0', '.', '0']
      else decimalChars numberLayout (Decimal.Shortest.decimal x)) := if_pos hfinite
  rw [htext]
  by_cases hzero : x.units = 0
  · -- a zero keeps its sign
    rw [if_pos hzero]
    let m : Numeral := ⟨x.isNegative, ['0'], ['0'], none, by simp, Text.isDigit_of_mem_zeros (n := 1),
      fun _ => rfl, Text.isDigit_of_mem_zeros (n := 1)⟩
    have hnumber : m.number = numberOf x.isNegative ⟨0, -1⟩ 0 := rfl
    have hnearest : (Decimal.Scientific.nearest ⟨0, -1⟩).bits.toNat = 0 := by decide +kernel
    have hmantissa : x.mantissa = 0 := by
      rw [Binary64.units_eq] at hzero
      exact (Nat.mul_eq_zero.mp hzero).resolve_right (Nat.ne_of_gt (Nat.two_pow_pos _))
    have hscale : x.scale = 0 := by
      have hform := x.scale_eq_zero_or
      simp only [Binary64.fractionCount] at hform
      omega
    refine ⟨m, rfl, ?_⟩
    rw [hnumber, toBinary64_numberOf, hnearest]
    exact bits_eq_of_magnitude (by rw [hmantissa, hscale, Nat.zero_mul])
  · -- any other double has a shortest decimal
    rw [if_neg hzero]
    have hpos : 0 < x.mantissa := by
      refine Nat.pos_of_ne_zero fun hnone => hzero ?_
      rw [Binary64.units_eq, hnone, Nat.zero_mul]
    obtain ⟨hcoefficient, hnearest⟩ := Decimal.Shortest.nearest_decimal hfinite hpos
    obtain ⟨m, k, hchars, hnumber⟩ :=
      exists_numeral_decimalChars x.isNegative numberLayout hcoefficient
    refine ⟨m, hchars, ?_⟩
    rw [hnumber, toBinary64_numberOf, hnearest]
    refine bits_eq_of_magnitude (Binary64.toNat_ofGrid ?_)
    rw [← x.magnitude_eq]
    exact Nat.mod_lt _ (by decide)

end Json

end HostMeter
