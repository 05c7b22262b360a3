import HostMeter.Proofs.Decimal.Hundredths
import HostMeter.Proofs.Text.Numerals
import HostMeter.Snapshot.Text
/-!
# Two places — doubles in the line for people

A double is shown with a point and two digits behind it, at its place in the line. What is shown is the decimal
of the hundredths that stand for the double, so that it is at most half a hundredth off and larger doubles are
not shown as smaller decimals. The minus sign is that of the sign bit, also where nothing else is left.

* `TwoPlaces`: how such decimals are written, and what they denote; `TwoPlaces.chars_injective`.
* `TwoPlaces.ofSteps`: what the writer makes of a number of hundredths.
* `Snapshot.human_append_cons`: the place of a metric in the line.
* `Snapshot.human_double`: the law.
-/

namespace HostMeter

open Decimal

/-! ## Decimals with two places

A decimal is kept with the facts that make it one: digits before the point without a needless zero in front,
and two digits behind it. So the text and the decimal determine each other. -/

/-- A decimal with two places as it is written: an optional minus sign, digits without a needless zero in
front, a point and two digits. -/
structure TwoPlaces where
  negative : Bool
  whole : List Char
  places : List Char
  whole_ne_nil : whole ≠ []
  isDigit_whole : ∀ c ∈ whole, c.isDigit = true
  /-- A zero before the point stands alone. -/
  whole_of_zero : whole.head? = some '0' → whole = ['0']
  length_places : places.length = 2
  isDigit_places : ∀ c ∈ places, c.isDigit = true

namespace TwoPlaces

/-- A minus sign, or nothing. -/
def sign (negative : Bool) : List Char := if negative then ['-'] else []

/-- The characters of a decimal: its sign, its whole digits, the point and its two places. -/
def chars (t : TwoPlaces) : List Char := sign t.negative ++ t.whole ++ '.' :: t.places

def text (t : TwoPlaces) : String := String.ofList t.chars

/-- The number that a decimal denotes. -/
def value (t : TwoPlaces) : ℚ :=
  (if t.negative then -1 else 1) * (Text.digitsValue t.whole + (Text.digitsValue t.places : ℚ) / 100)

theorem minus_not_mem {ds : List Char} (h : ∀ c ∈ ds, c.isDigit = true) : '-' ∉ ds := by
  intro hmem
  have hdigit : '-'.isDigit = true := h '-' hmem
  exact absurd hdigit (by decide)

/-- A minus sign in front is told from the digits behind it. -/
theorem sign_append_injective {negative negative' : Bool} {ds ds' : List Char} (hds : '-' ∉ ds)
    (hds' : '-' ∉ ds') (h : sign negative ++ ds = sign negative' ++ ds') :
    negative = negative' ∧ ds = ds' := by
  cases negative <;> cases negative'
  · exact ⟨rfl, h⟩
  · have hminus : ds = '-' :: ds' := h
    exact absurd (hminus ▸ List.mem_cons_self) hds
  · have hminus : '-' :: ds = ds' := h
    exact absurd (hminus ▸ List.mem_cons_self) hds'
  · exact ⟨rfl, List.cons_injective h⟩

/-- **The characters determine the decimal**: the point is the third from the end, and only a minus sign is no
digit before it. -/
theorem chars_injective {t t' : TwoPlaces} (h : t.chars = t'.chars) : t = t' := by
  have hlength : ('.' :: t.places).length = ('.' :: t'.places).length := by
    rw [List.length_cons, List.length_cons, t.length_places, t'.length_places]
  obtain ⟨hfront, hback⟩ := List.append_inj' h hlength
  obtain ⟨hnegative, hwhole⟩ :=
    sign_append_injective (minus_not_mem t.isDigit_whole) (minus_not_mem t'.isDigit_whole) hfront
  have hplaces := List.cons_injective hback
  cases t
  cases t'
  cases hnegative
  cases hwhole
  cases hplaces
  rfl

theorem text_injective {t t' : TwoPlaces} (h : t.text = t'.text) : t = t' :=
  chars_injective (String.ofList_injective h)

end TwoPlaces

/-! ## The writer

The writer rounds to a number of hundredths, parts it into ones and hundredths and pads the latter. The sign
is written in front, that of a negative zero too. -/

namespace Decimal

variable {width n : Nat}

/-- A number that is small enough fills just the places that it is padded to. -/
theorem length_padded (hwidth : 0 < width) (h : n < 10 ^ width) : (padded width n).length = width := by
  have hle : (Text.digits n).length ≤ width := (Nat.length_toDigits_le_iff (by decide) hwidth).mpr h
  rw [padded, List.length_append, List.length_replicate]
  omega

theorem isDigit_of_mem_padded {c : Char} (h : c ∈ padded width n) : c.isDigit = true := by
  rcases List.mem_append.mp h with hzero | hdigit
  · exact Text.isDigit_of_mem_zeros c hzero
  · exact Text.isDigit_of_mem_digits hdigit

theorem digitsValue_padded (width n : Nat) : Text.digitsValue (padded width n) = n := by
  rw [padded, Text.digitsValue_append, Text.digitsValue_zeros, Nat.zero_mul, Nat.zero_add,
    Text.digitsValue_digits]

end Decimal

namespace TwoPlaces

/-- The decimal of a number of hundredths. -/
def ofSteps (negative : Bool) (n : Nat) : TwoPlaces where
  negative := negative
  whole := Text.digits (n / stepsPerOne)
  places := padded Decimal.places (n % stepsPerOne)
  whole_ne_nil := Text.digits_ne_nil _
  isDigit_whole _ := Text.isDigit_of_mem_digits
  whole_of_zero := Text.eq_of_head?_digits
  length_places := length_padded (by decide) (Nat.mod_lt n (by decide))
  isDigit_places _ := isDigit_of_mem_padded

/-- The decimal of a number of hundredths denotes so many hundredths. -/
theorem value_ofSteps (negative : Bool) (n : Nat) :
    (ofSteps negative n).value = (if negative then -1 else 1) * ((n : ℚ) / 100) := by
  have hsplit : n / stepsPerOne * 100 + n % stepsPerOne = n := Nat.div_add_mod' n stepsPerOne
  have hsplit' : ((n / stepsPerOne : Nat) : ℚ) * 100 + (n % stepsPerOne : Nat) = n := by
    exact_mod_cast hsplit
  rw [value, ofSteps, Text.digitsValue_digits, digitsValue_padded, ← hsplit']
  ring

/-- The decimal that is shown for a finite double. -/
def ofDouble (x : Binary64) : TwoPlaces := ofSteps x.isNegative (scaled x)

/-- What is written for a finite double is this decimal. -/
theorem text_ofDouble {x : Binary64} (hx : x.isFinite = true) :
    (MetricValue.double x).human = (ofDouble x).text := by
  have hnumber : x.isNaN = false := by
    have hexponent : (x.exponentField == Binary64.topExponent) = false :=
      beq_eq_false_iff_ne.mpr (bne_iff_ne.mp hx)
    rw [Binary64.isNaN, hexponent, Bool.false_and]
  show fixed x = _
  rw [fixed, hnumber, hx, if_neg Bool.false_ne_true, if_pos rfl, text, chars, List.append_assoc]
  rfl

/-- The decimal of a double denotes the number of hundredths that the double is rounded to. -/
theorem value_ofDouble (x : Binary64) : (ofDouble x).value = (hundredths x : ℚ) / 100 := by
  rw [ofDouble, value_ofSteps, hundredths]
  cases x.isNegative with
  | false => simp
  | true =>
    rw [if_pos rfl, if_pos rfl]
    push_cast
    ring

end TwoPlaces

/-! ## The line

A double is written at its place in the line, between the metrics before it and those behind it. -/

/-- One of several texts with separators between them, and what stands before and behind it. -/
theorem intercalate_append_cons (sep : String) (texts : List String) (s : String) (texts' : List String) :
    sep.intercalate (texts ++ s :: texts') =
      String.join (texts.map (· ++ sep)) ++ s ++ String.join (texts'.map (sep ++ ·)) := by
  have hback : sep.intercalate (s :: texts') = s ++ String.join (texts'.map (sep ++ ·)) := by
    induction texts' generalizing s with
    | nil => simp
    | cons t texts' ih => simp [ih, String.append_assoc]
  induction texts with
  | nil => simpa using hback
  | cons t texts ih =>
    have hne : texts ++ s :: texts' ≠ [] := by simp
    rw [List.cons_append, String.intercalate_cons_of_ne_nil hne, ih, List.map_cons, String.join_cons]
    simp only [String.append_assoc]

namespace Snapshot

/-- A metric stands between the metrics before it and those behind it, each set off by a separator. -/
theorem human_append_cons (before after : List Metric) (m : Metric) :
    (mk (before ++ m :: after)).human =
      String.join (before.map (·.human ++ humanSeparator)) ++ m.human ++
        String.join (after.map (humanSeparator ++ ·.human)) := by
  rw [human, List.map_append, List.map_cons, intercalate_append_cons, List.map_map, List.map_map]
  rfl

/-- **The law of doubles in the line for people.** Take any finite double, of whatever sign and size. There is
exactly one decimal with two places whose text is shown for it.

* In the line of every snapshot it stands behind the name of its metric and before its unit.
* It has a minus sign exactly if the sign bit of the double is set.
* It denotes the number of hundredths that stands for the double: none is nearer, and of two that are equally
  near it is the even one. So it is at most half a hundredth off.
* What is shown for a double that is not smaller does not denote a smaller number. -/
theorem human_double {x : Binary64} (hx : x.isFinite = true) :
    ∃ t : TwoPlaces,
      (∀ t' : TwoPlaces, (MetricValue.double x).human = t'.text ↔ t' = t) ∧
      (∀ (before after : List Metric) (name : String) (unit : Option String),
        (mk (before ++ ⟨name, unit, .double x⟩ :: after)).human =
          String.join (before.map (·.human ++ humanSeparator)) ++
            (name ++ "=" ++ t.text ++ unit.getD "") ++
            String.join (after.map (humanSeparator ++ ·.human))) ∧
      t.negative = x.isNegative ∧
      (∃ k : ℤ, t.value = k / 100 ∧ NearestHundredth x.toRat k) ∧
      |x.toRat - t.value| ≤ 1 / 200 ∧
      ∀ (y : Binary64) (t' : TwoPlaces), y.isFinite = true → x.toRat ≤ y.toRat →
        (MetricValue.double y).human = t'.text → t.value ≤ t'.value := by
  have hshown := TwoPlaces.text_ofDouble hx
  have hvalue := TwoPlaces.value_ofDouble x
  have hnearest := nearestHundredth_scaled x
  refine ⟨.ofDouble x, fun t' => ?_, fun before after name unit => ?_, rfl,
    ⟨hundredths x, hvalue, hnearest⟩, ?_, fun y t' hy hle ht' => ?_⟩
  · rw [hshown]
    exact ⟨fun h => (TwoPlaces.text_injective h).symm, fun h => by rw [h]⟩
  · rw [human_append_cons, ← hshown]
    rfl
  · rw [hvalue]
    exact hnearest.abs_sub_le
  · have ht : t' = .ofDouble y := by
      rw [TwoPlaces.text_ofDouble hy] at ht'
      exact (TwoPlaces.text_injective ht').symm
    have hmono : hundredths x ≤ hundredths y := hnearest.le_of_le (nearestHundredth_scaled y) hle
    rw [ht, hvalue, TwoPlaces.value_ofDouble]
    exact div_le_div_of_nonneg_right (Int.cast_le.mpr hmono) (by norm_num)

/-- Minus one eighth is half-way between two hundredths and goes to the even one. The negative zero is above it
and keeps its sign. -/
theorem human_double_eighth :
    let x : Binary64 := ⟨0xbfc0000000000000⟩
    let zero : Binary64 := ⟨0x8000000000000000⟩
    ∃ t t' : TwoPlaces, x.isFinite = true ∧ zero.isFinite = true ∧ x.toRat ≤ zero.toRat ∧
      (mk [⟨"a", none, .uint64 1⟩, ⟨"b", some "%", .double x⟩]).human = "a=1  " ++ ("b=" ++ t.text ++ "%") ∧
      t.text = "-0.12" ∧ t.value = -12 / 100 ∧ |x.toRat - t.value| ≤ 1 / 200 ∧
      (MetricValue.double zero).human = t'.text ∧ t'.text = "-0.00" ∧ t.value ≤ t'.value := by
  intro x zero
  have hx : x.isFinite = true := by decide
  have hzero : zero.isFinite = true := by decide
  have hsign : x.isNegative = true := by decide
  have hunits : zero.units = 0 := by decide
  have hle : x.toRat ≤ zero.toRat := by
    rw [Binary64.toRat, hsign, if_pos rfl, Binary64.toRat, hunits, Nat.cast_zero, zero_div, mul_zero,
      neg_one_mul]
    exact neg_nonpos.mpr (div_nonneg (Nat.cast_nonneg _) (Nat.cast_nonneg _))
  let t : TwoPlaces := ⟨true, ['0'], ['1', '2'], by decide, List.all_eq_true.mp rfl, by decide, rfl,
    List.all_eq_true.mp rfl⟩
  let t' : TwoPlaces := ⟨true, ['0'], ['0', '0'], by decide, List.all_eq_true.mp rfl, by decide, rfl,
    List.all_eq_true.mp rfl⟩
  have hshown : (MetricValue.double x).human = t.text := by decide +kernel
  have hshown' : (MetricValue.double zero).human = t'.text := by decide +kernel
  have hvalue : t.value = -12 / 100 := by
    have hwhole : Text.digitsValue t.whole = 0 := rfl
    have hplaces : Text.digitsValue t.places = 12 := rfl
    rw [TwoPlaces.value, hwhole, hplaces]
    norm_num [t]
  obtain ⟨u, hunique, hline, -, -, hnear, hmono⟩ := human_double hx
  obtain rfl : t = u := (hunique t).mp hshown
  exact ⟨t, t', hx, hzero, hle, hline [⟨"a", none, .uint64 1⟩] [] "b" (some "%"), rfl, hvalue, hnear,
    hshown', rfl, hmono zero t' hzero hle hshown'⟩

end Snapshot

end HostMeter
