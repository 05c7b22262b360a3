import HostMeter.Decimal.Fixed
import HostMeter.Proofs.Text.Numerals
import HostMeter.Snapshot.Text
import HostMeter.Text.Quoted
/-!
# One line — texts without a line feed

The line for people is put together of names, values and units as they are. A number is always printed
on one line, and so is a quoted text; a line feed can only come with a name, a unit or a text value.

* `OneLine`: a text without a line feed; `OneLine.append`, `oneLine_intercalate_iff`.
* `oneLine_quoted`: quoting takes the line feeds away.
* `Metric.oneLine_human_iff`, `Snapshot.oneLine_human_iff`: when the line for people is one line.
* `count_newline_lines`: texts of one line, each ended by a line feed, are as many lines.
-/

namespace HostMeter

/-- A text without a line feed. -/
def OneLine (s : String) : Prop := '\n' ∉ s.toList

instance : DecidablePred OneLine := fun s => inferInstanceAs (Decidable ('\n' ∉ s.toList))

/-! ## Texts put together

A line feed in a text that is put together stems from one of its parts, so being one line is a question
about the parts. -/

theorem oneLine_ofList {cs : List Char} : OneLine (String.ofList cs) ↔ '\n' ∉ cs := by
  rw [OneLine, String.toList_ofList]

theorem oneLine_append_iff {s t : String} : OneLine (s ++ t) ↔ OneLine s ∧ OneLine t := by
  simp only [OneLine, String.toList_append, List.mem_append, not_or]

theorem OneLine.append {s t : String} (hs : OneLine s) (ht : OneLine t) : OneLine (s ++ t) :=
  oneLine_append_iff.mpr ⟨hs, ht⟩

/-- Texts with a separator of one line between them are one line if all of them are. -/
theorem oneLine_intercalate_iff {sep : String} (hsep : OneLine sep) {texts : List String} :
    OneLine (sep.intercalate texts) ↔ ∀ s ∈ texts, OneLine s := by
  induction texts with
  | nil => exact iff_of_true List.not_mem_nil nofun
  | cons s texts ih =>
    cases texts with
    | nil => rw [String.intercalate_singleton, List.forall_mem_singleton]
    | cons t texts =>
      rw [String.intercalate_cons_cons, oneLine_append_iff, oneLine_append_iff, ih,
        and_iff_left hsep]
      exact List.forall_mem_cons.symm

/-- **Texts of one line, each ended by a line feed, are as many lines.** -/
theorem count_newline_lines {texts : List String} (h : ∀ s ∈ texts, OneLine s) :
    (String.join (texts.map (· ++ "\n"))).toList.count '\n' = texts.length := by
  rw [String.toList_join]
  induction texts with
  | nil => rfl
  | cons s texts ih =>
    obtain ⟨hs, htexts⟩ := List.forall_mem_cons.mp h
    have hfirst : (s ++ "\n").toList.count '\n' = 1 := by
      rw [String.toList_append, List.count_append, List.count_eq_zero.mpr hs]
      rfl
    rw [List.map_cons, List.flatMap_cons, List.count_append, hfirst, ih htexts, List.length_cons,
      Nat.add_comm]

/-! ## Numbers and quoted texts

Digits and signs are no line feeds. A quoted text writes a line feed with two other characters. -/

theorem newline_not_mem_digits (n : Nat) : '\n' ∉ Text.digits n := by
  intro h
  exact absurd (Text.isDigit_of_mem_digits h) (by decide)

theorem oneLine_ofNat (n : Nat) : OneLine (Text.ofNat n) :=
  oneLine_ofList.mpr (newline_not_mem_digits n)

/-- A number is one line, its sign included. -/
theorem oneLine_ofInt (i : Int) : OneLine (Text.ofInt i) := by
  rw [Text.ofInt]
  split
  · refine oneLine_ofList.mpr fun h => ?_
    rcases List.mem_cons.mp h with h | h
    · exact absurd h (by decide)
    · exact newline_not_mem_digits _ h
  · exact oneLine_ofNat _

/-- A double is one line, also where it is written as a word. -/
theorem oneLine_fixed (x : Binary64) : OneLine (Decimal.fixed x) := by
  have hsign : '\n' ∉ (if x.isNegative then ['-'] else []) := by split <;> decide
  have hpoint : ∀ n, '\n' ∉ Decimal.withPoint n := by
    intro n
    simp [Decimal.withPoint, Decimal.padded, newline_not_mem_digits]
  rw [Decimal.fixed]
  split
  · decide
  · split
    · exact oneLine_ofList.mpr (List.not_mem_append hsign (hpoint _))
    · exact oneLine_ofList.mpr (List.not_mem_append hsign (by decide))

theorem newline_not_mem_toDigits (n : Nat) : '\n' ∉ Nat.toDigits 16 n := by
  have hdigit : ∀ d < 16, '\n' ≠ d.digitChar := by decide
  induction n using Nat.strongRecOn with
  | ind n ih =>
    rw [Nat.toDigits_eq_if (by decide)]
    split
    · next hlt => exact fun h => hdigit n hlt (List.mem_singleton.mp h)
    · next hge =>
      have hlast : '\n' ∉ [(n % 16).digitChar] := fun h =>
        hdigit (n % 16) (Nat.mod_lt n (by decide)) (List.mem_singleton.mp h)
      exact List.not_mem_append (ih (n / 16) (by omega)) hlast

/-- The written form of a character is one line, that of a line feed included. -/
theorem newline_not_mem_quoteChar (c : Char) : '\n' ∉ Text.quoteChar c := by
  by_cases hc : c = '\n'
  · rw [hc]
    decide
  · have hself : '\n' ∉ [c] := fun h => hc (List.mem_singleton.mp h).symm
    have hnumber : '\n' ∉ ['\\', 'u', '\x7b'] ++ Nat.toDigits 16 c.toNat ++ ['\x7d'] :=
      List.not_mem_append (List.not_mem_append (by decide) (newline_not_mem_toDigits _)) (by decide)
    -- the character stands for itself, for its number, or in a short form of its own
    unfold Text.quoteChar
    repeat' split
    all_goals first | assumption | decide

/-- **A quoted text is one line**, whatever the text is. -/
theorem oneLine_quoted (s : String) : OneLine (Text.quoted s) := by
  refine oneLine_ofList.mpr (List.not_mem_append (List.not_mem_append (by decide) ?_) (by decide))
  intro h
  obtain ⟨c, _, hc⟩ := List.mem_flatMap.mp h
  exact newline_not_mem_quoteChar c hc

/-! ## The line for people

Names, units and texts are written as they are, so each of them can break the line. Nothing else can. -/

/-- A metric whose parts are all of one line. -/
structure Metric.OneLine (x : Metric) : Prop where
  name : HostMeter.OneLine x.name
  unit : ∀ u, x.unit = some u → HostMeter.OneLine u
  text : ∀ v, x.value = .text v → HostMeter.OneLine v

/-- A value is one line unless it is a text that is not. -/
theorem MetricValue.oneLine_human_iff (value : MetricValue) :
    OneLine value.human ↔ ∀ v, value = .text v → OneLine v := by
  -- only a text is written as it came
  cases value with
  | double x => exact iff_of_true (oneLine_fixed x) nofun
  | int64 i => exact iff_of_true (oneLine_ofInt i.toInt) nofun
  | uint64 n => exact iff_of_true (oneLine_ofNat n.toNat) nofun
  | text s => simp [human]

/-- A metric is one line just if its name, its unit and its text are. -/
theorem Metric.oneLine_human_iff (x : Metric) : HostMeter.OneLine x.human ↔ x.OneLine := by
  have hequals : HostMeter.OneLine "=" := by decide
  have hunit : HostMeter.OneLine (x.unit.getD "") ↔ ∀ u, x.unit = some u → HostMeter.OneLine u := by
    cases x.unit with
    | none => exact iff_of_true List.not_mem_nil nofun
    | some u => simp
  rw [human, oneLine_append_iff, oneLine_append_iff, oneLine_append_iff, and_iff_left hequals,
    x.value.oneLine_human_iff, hunit]
  exact ⟨fun h => ⟨h.1.1, h.2, h.1.2⟩, fun h => ⟨⟨h.name, h.text⟩, h.unit⟩⟩

/-- **The line for people is one line exactly if every part of every metric is.** -/
theorem Snapshot.oneLine_human_iff (s : Snapshot) :
    OneLine s.human ↔ ∀ x ∈ s.metrics, x.OneLine := by
  rw [human, oneLine_intercalate_iff (by decide), List.forall_mem_map]
  exact forall₂_congr fun x _ => x.oneLine_human_iff

end HostMeter
