import HostMeter.Counters.Attribute
import HostMeter.Proofs.Counters.Processor
import HostMeter.Proofs.Settings.Numbers
import HostMeter.Proofs.Text.Lines
/-!
# Readers — the texts from which words are read

Configured numbers, attributes and columns of counters are words of 32 or of 64 bits, and one reader puts
together all of them, digit by digit. Here it is told by the texts alone: it accepts the numerals of the
numbers that fit, and it accepts nothing else, however long the text is. What is around the reader decides
which text it gets to see, and what becomes of a text that it rejects.

* `Text.ReadsNumerals`, `Text.readsNumerals_numeralBelow?`: the reader at any bound.
* `Ini.word32_eq_default_iff`, `Ini.word32_of_value_iff`: which configured values it sees, and their faults.
* `Attribute.parse_of_trimsTo`: it sees an attribute without the blanks around it.
* `words_are_numerals`: all of this at the two widths.
-/

namespace HostMeter

namespace Text

/-! ## The reader

What is accepted settles everything else: what is rejected, which signs and zeros count, and that one letter
is enough to spoil a numeral. -/

/-- What a reader of the numbers below a bound makes of a text. -/
structure ReadsNumerals (bound : Nat) (read? : List Char → Option Nat) : Prop where
  /-- Which texts are accepted, and with which value. -/
  eq_some_iff (cs : List Char) (n : Nat) : read? cs = some n ↔ IsNumeral cs n ∧ n < bound
  /-- A text is rejected if it is no numeral, or one of a number that does not fit. -/
  eq_none_iff (cs : List Char) : read? cs = none ↔ ∀ n, IsNumeral cs n → bound ≤ n
  /-- Zeros in front of the digits do not count, even if there are more than fit. -/
  zeros (k : Nat) (ds : List Char) (hne : ds ≠ []) (hdigits : ∀ c ∈ ds, c.isDigit = true) :
    read? (List.replicate k '0' ++ ds) = read? ds
  /-- Nor does a plus sign. -/
  plus (ds : List Char) (hdigits : ∀ c ∈ ds, c.isDigit = true) : read? ('+' :: ds) = read? ds
  empty : read? [] = none
  /-- A plus sign without digits is rejected like the empty text. -/
  lonePlus : read? ['+'] = none
  /-- In front there is nothing but a digit or the plus sign, -/
  first (c : Char) (cs : List Char) (hdigit : c.isDigit = false) (hplus : c ≠ '+') : read? (c :: cs) = none
  /-- and behind that nothing but digits. -/
  later (c : Char) (cs : List Char) (hmem : c ∈ cs.tail) (hdigit : c.isDigit = false) : read? cs = none

/-- A reader is settled by the numerals that it accepts. -/
theorem readsNumerals_of_eq_some_iff {bound : Nat} {read? : List Char → Option Nat}
    (h : ∀ cs n, read? cs = some n ↔ IsNumeral cs n ∧ n < bound) : ReadsNumerals bound read? := by
  have hnone (cs : List Char) : read? cs = none ↔ ∀ n, IsNumeral cs n → bound ≤ n := by
    rw [Option.eq_none_iff_forall_ne_some]
    refine forall_congr' fun n => ?_
    rw [ne_eq, h, not_and, Nat.not_lt]
  have hreject {cs : List Char} (hno : ∀ n, ¬IsNumeral cs n) : read? cs = none :=
    (hnone cs).mpr fun n hn => absurd hn (hno n)
  have hsame {cs ds : List Char} (hiff : ∀ n, IsNumeral cs n ↔ IsNumeral ds n) : read? cs = read? ds :=
    Option.ext fun n => by rw [h, h, hiff]
  refine ⟨h, hnone, fun k ds hne hdigits => ?zeros, fun ds hdigits => ?plus, hreject not_isNumeral_nil,
    ?lonePlus, fun c cs hdigit hplus => ?first, fun c cs hmem hdigit => ?later⟩
  case zeros => exact hsame fun n => isNumeral_zeros_append k hne hdigits
  case plus =>
    refine hsame fun n => ?_
    rw [isNumeral_plus, and_iff_right hdigits, isNumeral_of_digits hdigits]
  case lonePlus => exact hreject fun n hn => (isNumeral_plus.mp hn).1 rfl
  case first =>
    refine hreject fun n hn => ?_
    rcases hn.isDigit_or_eq_plus with hc | hc
    · rw [hc] at hdigit
      cases hdigit
    · exact hplus hc
  case later =>
    refine hreject fun n hn => ?_
    rw [hn.isDigit_of_mem_tail hmem] at hdigit
    cases hdigit

/-- **The reader accepts the numerals of numbers below its bound, and nothing else.** -/
theorem readsNumerals_numeralBelow? (bound : Nat) : ReadsNumerals bound (numeralBelow? bound) :=
  readsNumerals_of_eq_some_iff fun _ _ => numeralBelow?_eq_some_iff

/-- A number below the bound is not changed by the word that holds it. -/
theorem map_numeralBelow? {bound : Nat} {f : Nat → Nat} (hf : ∀ n < bound, f n = n) (cs : List Char) :
    (numeralBelow? bound cs).map f = numeralBelow? bound cs := by
  cases hread : numeralBelow? bound cs with
  | none => rfl
  | some n => rw [Option.map_some, hf n (numeralBelow?_eq_some_iff.mp hread).2]

/-- A word of 32 bits is read as a number below its bound. -/
theorem map_toNat_uint32? (cs : List Char) :
    (uint32? cs).map UInt32.toNat = numeralBelow? UInt32.size cs := by
  rw [uint32?, Option.map_map]
  exact map_numeralBelow? (fun _ => UInt32.toNat_ofNat_of_lt') cs

/-- A word of 64 bits is read as a number below its bound. -/
theorem map_toNat_uint64? (cs : List Char) :
    (uint64? cs).map UInt64.toNat = numeralBelow? UInt64.size cs := by
  rw [uint64?, Option.map_map]
  exact map_numeralBelow? (fun _ => UInt64.toNat_ofNat_of_lt') cs

/-- The reader of 32 bits reads numerals below 2 ^ 32. -/
theorem readsNumerals_uint32? : ReadsNumerals (2 ^ 32) fun cs => (uint32? cs).map UInt32.toNat := by
  rw [funext map_toNat_uint32?]
  exact readsNumerals_numeralBelow? (2 ^ 32)

/-- The reader of 64 bits reads numerals below 2 ^ 64. -/
theorem readsNumerals_uint64? : ReadsNumerals (2 ^ 64) fun cs => (uint64? cs).map UInt64.toNat := by
  rw [funext map_toNat_uint64?]
  exact readsNumerals_numeralBelow? (2 ^ 64)

theorem uint32?_eq_none_iff_le {cs : List Char} :
    uint32? cs = none ↔ ∀ n, IsNumeral cs n → 2 ^ 32 ≤ n := by
  rw [← readsNumerals_uint32?.eq_none_iff, Option.map_eq_none_iff]

end Text

/-! ## Configured numbers

Between the reader and the user of a configuration stands the default. -/

namespace Ini

variable {ini : Ini} {heading key : String}

/-- The default stands in for a missing and for an empty value, and for no other. -/
theorem word32_eq_default_iff :
    (∀ default, ini.word32 heading key default = .ok default) ↔ ini.FallsBack heading key := by
  constructor
  · intro h
    rcases ini.fallsBack_or heading key with hback | ⟨value, hvalue, hne⟩
    · exact hback
    · -- a value is read without a look at the default
      have hzero := h 0
      have hone := h 1
      rw [word32_of_value hvalue hne] at hzero hone
      rw [hzero] at hone
      cases hone
  · intro hback default
    exact word32_of_fallsBack hback

/-- What becomes of a value that is not empty, whatever the default is. -/
theorem word32_of_value_iff {value : String} (hvalue : ini.get? heading key = some value)
    (hne : value ≠ "") (default : UInt32) :
    (∀ w, ini.word32 heading key default = .ok w ↔ Text.IsNumeral value.toList w.toNat) ∧
      ∀ f, (ini.word32 heading key default).mapError SettingFault.toFault = .error f ↔
        (∀ n, Text.IsNumeral value.toList n → 2 ^ 32 ≤ n) ∧
          f = .parse (SettingFault.notWord heading key value).message := by
  refine ⟨fun w => ?_, fun f => ?_⟩
  · rw [word32_eq_ok_iff, resolves_iff_of_value hvalue hne]
  · rw [word32_of_value hvalue hne, ← Text.uint32?_eq_none_iff_le]
    cases Text.uint32? value.toList <;> simp [Except.mapError, SettingFault.toFault, eq_comm]

end Ini

/-! ## Attributes

Attributes of the kernel end in a line break, which is a blank. -/

/-- An attribute is read from what is between its blanks. -/
theorem Attribute.parse_of_trimsTo {text : String} {cs : List Char} (h : Text.TrimsTo text.toList cs) :
    (∀ w, Attribute.parse text = .ok w ↔ Text.IsNumeral cs w.toNat) ∧
      ∀ f, Attribute.parse text = .error f ↔
        (∀ n, Text.IsNumeral cs n → 2 ^ 32 ≤ n) ∧ f = .notInteger (String.ofList cs) := by
  rw [Attribute.parse, Text.trimsTo_iff.mp h, ← Text.uint32?_eq_none_iff_le]
  simp only [← Text.uint32?_eq_some_iff]
  cases Text.uint32? cs <;> simp [eq_comm]

/-! ## All readers

Both widths, and the two places where numerals are read from texts. -/

/-- **Words are read from numerals.** The reader accepts a text with the value `n` exactly if the text is
digits of the value `n`, with or without one plus sign before them, and `n` fits the width.

* A configured number is the stored value, read so; the default stands in exactly for a missing and for an
  empty value, and each other text that is rejected is a fault of parsing that quotes it.
* An attribute is its text without the blanks at the two ends, read so.
* The columns of the processor are its tokens, read so up to the first that is rejected. -/
theorem words_are_numerals :
    Text.ReadsNumerals (2 ^ 32) (fun cs => (Text.uint32? cs).map UInt32.toNat) ∧
    Text.ReadsNumerals (2 ^ 64) (fun cs => (Text.uint64? cs).map UInt64.toNat) ∧
    (∀ (ini : Ini) (heading key : String),
      ((∀ default, ini.word32 heading key default = .ok default) ↔
        ini.get? heading key = none ∨ ini.get? heading key = some "") ∧
      ∀ value, ini.get? heading key = some value → value ≠ "" → ∀ default,
        (∀ w, ini.word32 heading key default = .ok w ↔ Text.IsNumeral value.toList w.toNat) ∧
        ∀ f, (ini.word32 heading key default).mapError SettingFault.toFault = .error f ↔
          (∀ n, Text.IsNumeral value.toList n → 2 ^ 32 ≤ n) ∧
            f = .parse (SettingFault.notWord heading key value).message) ∧
    (∀ text : String, ∃ cs, Text.TrimsTo text.toList cs ∧
      (∀ w, Attribute.parse text = .ok w ↔ Text.IsNumeral cs w.toNat) ∧
      ∀ f, Attribute.parse text = .error f ↔
        (∀ n, Text.IsNumeral cs n → 2 ^ 32 ≤ n) ∧ f = .notInteger (String.ofList cs)) ∧
    ∀ ws : List (List Char), List.Forall₂ (fun w n => Text.IsNumeral w n.toNat)
      (ws.takeWhile Text.IsWord64) (CpuStat.leadingNumerals ws) := by
  refine ⟨Text.readsNumerals_uint32?, Text.readsNumerals_uint64?, fun ini heading key => ?configured,
    fun text => ?trimmed, CpuStat.forall₂_leadingNumerals⟩
  case configured =>
    refine ⟨Ini.word32_eq_default_iff, fun value hvalue hne => ?_⟩
    exact Ini.word32_of_value_iff hvalue hne
  case trimmed =>
    have htrim : Text.TrimsTo text.toList (Text.trim text.toList) := Text.trimsTo_iff.mpr rfl
    exact ⟨_, htrim, Attribute.parse_of_trimsTo htrim⟩

/-- Seven with a plus sign and two zeros in front, and behind it a letter that is no digit. -/
theorem words_are_numerals_seven :
    let ini : Ini := ⟨[⟨"sysmon", "interval_ms", "7ms"⟩]⟩
    (Text.uint64? ['+', '0', '0', '7']).map UInt64.toNat = some 7 ∧
    (Text.uint64? ['7', '+']).map UInt64.toNat = none ∧
    ini.get? "sysmon" "interval_ms" = some "7ms" ∧ "7ms" ≠ "" ∧
    (ini.word32 "sysmon" "interval_ms" 7).mapError SettingFault.toFault =
      .error (.parse (SettingFault.notWord "sysmon" "interval_ms" "7ms").message) := by
  intro ini
  obtain ⟨-, h64, hconfigured, -, -⟩ := words_are_numerals
  have hvalue : ini.get? "sysmon" "interval_ms" = some "7ms" := by decide
  have hne : "7ms" ≠ "" := by decide
  have hseven : Text.IsNumeral ['7'] 7 := Text.isNumeral_digits 7
  refine ⟨?_, h64.later '+' _ (by decide) (by decide), hvalue, hne, ?_⟩
  · have hplus := h64.plus ['0', '0', '7'] (List.all_eq_true.mp rfl)
    have hzeros := h64.zeros 2 ['7'] (by decide) (List.all_eq_true.mp rfl)
    exact hplus.trans (hzeros.trans ((h64.eq_some_iff _ _).mpr ⟨hseven, by decide⟩))
  · obtain ⟨-, hfault⟩ := (hconfigured ini "sysmon" "interval_ms").2 "7ms" hvalue hne 7
    refine (hfault _).mpr ⟨fun n hn => ?_, rfl⟩
    have hdigit : 'm'.isDigit = true := hn.isDigit_of_mem_tail (by decide)
    exact absurd hdigit (by decide)

end HostMeter
