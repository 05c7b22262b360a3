import HostMeter.Proofs.Text.Numerals
import HostMeter.Settings.Values
/-!
# Numbers — what a configuration has to provide

A configured number is read from its text or falls back to a default. A *demand* is a number that has
to be readable, and a configuration that does not meet a demand fails with a fault of its own.

* `Ini.Resolves`: the number that a configured value stands for, however large.
* `Ini.word32_eq_ok_iff`, `Ini.word32_eq_error_iff`: a word is read exactly if the number fits.
* `Demand.fault?_eq_none_iff`, `Demand.fault?_eq_some_iff`: demands that are met, and those that fail.
-/

namespace HostMeter

/-! ## Values

What a key stands for is told by the numerals of the text that is set, without a reader: of any size and
with any zeros in front. The reader finds just that where it fits a word. -/

namespace Ini

/-- The number that a configured value stands for, or its default. -/
inductive Resolves (ini : Ini) (heading key : String) (default : Nat) : Nat → Prop where
  | absent (h : ini.get? heading key = none) : Resolves ini heading key default default
  | empty (h : ini.get? heading key = some "") : Resolves ini heading key default default
  | numeral {value : String} {n : Nat} (h : ini.get? heading key = some value)
      (hn : Text.IsNumeral value.toList n) : Resolves ini heading key default n

variable {ini : Ini} {heading key : String}

/-- Is the default taken? It is if nothing is set, or nothing but an empty text. -/
def FallsBack (ini : Ini) (heading key : String) : Prop :=
  ini.get? heading key = none ∨ ini.get? heading key = some ""

theorem fallsBack_or (ini : Ini) (heading key : String) :
    ini.FallsBack heading key ∨ ∃ value, ini.get? heading key = some value ∧ value ≠ "" := by
  cases hvalue : ini.get? heading key with
  | none => exact Or.inl (Or.inl hvalue)
  | some value =>
    by_cases hempty : value = ""
    · exact Or.inl (Or.inr (hempty ▸ hvalue))
    · exact Or.inr ⟨value, rfl, hempty⟩

/-- Where nothing is set, the number is the default. -/
theorem resolves_iff_of_fallsBack {default n : Nat} (h : ini.FallsBack heading key) :
    ini.Resolves heading key default n ↔ n = default := by
  constructor
  · intro hn
    cases hn with
    | absent => rfl
    | empty => rfl
    | numeral hvalue hn =>
      -- the empty text is no numeral
      rcases h with h | h
      · rw [h] at hvalue
        cases hvalue
      · rw [h] at hvalue
        cases hvalue
        exact absurd hn (Text.not_isNumeral_nil _)
  · rintro rfl
    rcases h with h | h
    · exact .absent h
    · exact .empty h

/-- Where something is set, the number is the one that it is a numeral of. -/
theorem resolves_iff_of_value {default n : Nat} {value : String}
    (h : ini.get? heading key = some value) (hne : value ≠ "") :
    ini.Resolves heading key default n ↔ Text.IsNumeral value.toList n := by
  constructor
  · intro hn
    cases hn with
    | absent habsent =>
      rw [h] at habsent
      cases habsent
    | empty hempty =>
      rw [h] at hempty
      exact absurd (Option.some.inj hempty) hne
    | numeral hvalue hn =>
      rw [h] at hvalue
      cases hvalue
      exact hn
  · exact .numeral h

/-- A key stands for one number at most. -/
theorem Resolves.unique {default n n' : Nat} (h : ini.Resolves heading key default n)
    (h' : ini.Resolves heading key default n') : n = n' := by
  rcases ini.fallsBack_or heading key with hback | ⟨value, hvalue, hne⟩
  · rw [resolves_iff_of_fallsBack hback] at h h'
    rw [h, h']
  · rw [resolves_iff_of_value hvalue hne] at h h'
    exact h.unique h'

/-- The reader takes the default where nothing is set. -/
theorem word32_of_fallsBack {default : UInt32} (h : ini.FallsBack heading key) :
    ini.word32 heading key default = .ok default := by
  rcases h with h | h
  · rw [word32, h]
  · rw [word32, h]
    rfl

theorem word32_of_value {default : UInt32} {value : String}
    (h : ini.get? heading key = some value) (hne : value ≠ "") :
    ini.word32 heading key default =
      match Text.uint32? value.toList with
      | some w => .ok w
      | none => .error (.notWord heading key value) := by
  have hfull : ¬value.isEmpty = true := fun hempty => hne (String.isEmpty_iff.mp hempty)
  rw [word32, h]
  exact if_neg hfull

/-- **A word is read just if the key stands for it.** -/
theorem word32_eq_ok_iff {default w : UInt32} :
    ini.word32 heading key default = .ok w ↔
      ini.Resolves heading key default.toNat w.toNat := by
  rcases ini.fallsBack_or heading key with hback | ⟨value, hvalue, hne⟩
  · rw [word32_of_fallsBack hback, resolves_iff_of_fallsBack hback, UInt32.toNat_inj, Except.ok.injEq,
      eq_comm]
  · rw [word32_of_value hvalue hne, resolves_iff_of_value hvalue hne, ← Text.uint32?_eq_some_iff]
    cases Text.uint32? value.toList <;> simp

/-- **It is refused just if something is set that is no numeral of a word**, and then that is quoted. -/
theorem word32_eq_error_iff {default : UInt32} {f : SettingFault} :
    ini.word32 heading key default = .error f ↔
      ∃ value, ini.get? heading key = some value ∧ value ≠ "" ∧
        (∀ n < UInt32.size, ¬Text.IsNumeral value.toList n) ∧
        f = .notWord heading key value := by
  rcases ini.fallsBack_or heading key with hback | ⟨value, hvalue, hne⟩
  · rw [word32_of_fallsBack hback]
    constructor
    · intro h
      cases h
    · rintro ⟨value, hvalue, hne, _⟩
      rcases hback with h | h
      · rw [h] at hvalue
        cases hvalue
      · rw [h] at hvalue
        exact absurd (Option.some.inj hvalue).symm hne
  · rw [word32_of_value hvalue hne]
    simp only [hvalue, Option.some.injEq, ← Text.uint32?_eq_none_iff]
    cases hread : Text.uint32? value.toList with
    | some w =>
      constructor
      · intro h
        cases h
      · rintro ⟨_, rfl, _, hnone, _⟩
        rw [hread] at hnone
        cases hnone
    | none =>
      constructor
      · intro h
        exact ⟨value, rfl, hne, hread, (Except.error.inj h).symm⟩
      · rintro ⟨_, rfl, _, _, rfl⟩
        rfl

end Ini

/-! ## Demands

The monitor and each probe ask for one number, with a default each; only of the interval is a zero refused.
All these are one kind of demand, and what can be wrong with it is told once. -/

/-- A number that a configuration has to provide. -/
structure Demand where
  heading : String
  key : String
  default : UInt32
  /-- Is zero refused? -/
  positive : Bool

namespace Demand

def interval : Demand := ⟨"sysmon", "interval_ms", 1000, true⟩

def refresh (probe : String) : Demand := ⟨"module." ++ probe, "refresh_ms", 0, false⟩

/-- The configuration provides a number that fits a word. -/
def Met (d : Demand) (ini : Ini) : Prop :=
  ∃ n, ini.Resolves d.heading d.key d.default.toNat n ∧ n < UInt32.size ∧ (d.positive = true → 0 < n)

/-- The configuration fails with this fault. -/
inductive Fails (d : Demand) (ini : Ini) : Fault → Prop where
  | notWord {value : String} (h : ini.get? d.heading d.key = some value) (hne : value ≠ "")
      (hno : ∀ n < UInt32.size, ¬Text.IsNumeral value.toList n) :
      Fails d ini (.parse (SettingFault.notWord d.heading d.key value).message)
  | zero (h : ini.Resolves d.heading d.key d.default.toNat 0) (hpositive : d.positive = true) :
      Fails d ini (.parse SettingFault.zeroInterval.message)

/-- The fault that a configuration is refused for. -/
def fault? (d : Demand) (ini : Ini) : Option Fault :=
  match ini.word32 d.heading d.key d.default with
  | .error f => some f.toFault
  | .ok w => if d.positive && w == 0 then some SettingFault.zeroInterval.toFault else none

variable {d : Demand} {ini : Ini}

/-- A word that can be read meets a demand unless it is a zero that is refused. -/
theorem met_iff_of_word32 {w : UInt32} (h : ini.word32 d.heading d.key d.default = .ok w) :
    d.Met ini ↔ (d.positive && w == 0) = false := by
  have hw := Ini.word32_eq_ok_iff.mp h
  rw [Bool.and_eq_false_imp, beq_eq_false_iff_ne]
  constructor
  · rintro ⟨n, hn, _, hpos⟩ hpositive rfl
    rw [hn.unique hw] at hpos
    exact absurd (hpos hpositive) (Nat.lt_irrefl 0)
  · intro hne
    refine ⟨w.toNat, hw, w.toNat_lt, fun hpositive => Nat.pos_of_ne_zero fun hzero => ?_⟩
    exact hne hpositive (UInt32.toNat_inj.mp hzero)

/-- What cannot be read meets no demand. -/
theorem not_met_of_word32 {f : SettingFault}
    (h : ini.word32 d.heading d.key d.default = .error f) : ¬d.Met ini := by
  rintro ⟨n, hn, hlt, _⟩
  have hok : ini.word32 d.heading d.key d.default = .ok (UInt32.ofNat n) := by
    rw [Ini.word32_eq_ok_iff, UInt32.toNat_ofNat_of_lt' hlt]
    exact hn
  rw [h] at hok
  cases hok

/-- **There is no fault just if the demand is met.** -/
theorem fault?_eq_none_iff : d.fault? ini = none ↔ d.Met ini := by
  rw [fault?]
  cases h : ini.word32 d.heading d.key d.default with
  | error f => simp [not_met_of_word32 h]
  | ok w => simp [met_iff_of_word32 h]

/-- A word that can be read can fail as a zero only. -/
theorem fails_iff_of_word32 {w : UInt32} {f : Fault}
    (h : ini.word32 d.heading d.key d.default = .ok w) :
    d.Fails ini f ↔ (d.positive && w == 0) = true ∧ f = .parse SettingFault.zeroInterval.message := by
  have hw := Ini.word32_eq_ok_iff.mp h
  rw [Bool.and_eq_true, beq_iff_eq]
  constructor
  · intro hf
    cases hf with
    | notWord hvalue hne hno =>
      rw [Ini.word32_eq_error_iff.mpr ⟨_, hvalue, hne, hno, rfl⟩] at h
      cases h
    | zero hzero hpositive =>
      exact ⟨⟨hpositive, UInt32.toNat_inj.mp (hw.unique hzero)⟩, rfl⟩
  · rintro ⟨⟨hpositive, rfl⟩, rfl⟩
    exact .zero hw hpositive

/-- What cannot be read fails as that and not as a zero. -/
theorem fails_iff_of_word32_error {f : Fault} {g : SettingFault}
    (h : ini.word32 d.heading d.key d.default = .error g) : d.Fails ini f ↔ f = g.toFault := by
  obtain ⟨value, hvalue, hne, hno, rfl⟩ := Ini.word32_eq_error_iff.mp h
  constructor
  · intro hf
    cases hf with
    | notWord hvalue' =>
      rw [hvalue] at hvalue'
      cases hvalue'
      rfl
    -- a zero would have been read
    | zero hzero =>
      have hok : ini.word32 d.heading d.key d.default = .ok 0 := Ini.word32_eq_ok_iff.mpr hzero
      rw [h] at hok
      cases hok
  · rintro rfl
    exact .notWord hvalue hne hno

/-- **The fault is the one that the demand fails with.** -/
theorem fault?_eq_some_iff {f : Fault} : d.fault? ini = some f ↔ d.Fails ini f := by
  rw [fault?]
  cases h : ini.word32 d.heading d.key d.default with
  | error g =>
    rw [fails_iff_of_word32_error h, Option.some.injEq, eq_comm]
  | ok w =>
    rw [fails_iff_of_word32 h]
    dsimp only
    split
    · next hzero =>
      rw [Option.some.injEq, eq_comm]
      exact (and_iff_right hzero).symm
    · next hzero => exact iff_of_false nofun fun hf => hzero hf.1

end Demand

end HostMeter
