import HostMeter.Counters.Processor
import Mathlib.Algebra.GroupWithZero.Nat
import Mathlib.Data.List.Forall2
/-!
# Totals — sums of columns

The ticks of a processor are summed up by words that stop at the largest one, all columns for the total and two
of them for the idle ticks. This module puts both against the exact sums, and says how exact sums grow with
their columns.

* `Word.sum`, `Word.toNat_foldl_satAdd`: an exact sum, and one that stops.
* `Word.sum_le_sum`, `Word.sum_lt_sum_iff`: sums of columns of which none shrinks.
* `CpuTimes.toNat_total`, `CpuTimes.idleAll_le_total`: the two sums of the ticks.
* `CpuTimes.exists_growth`: the idle columns grow by no more than all columns.
-/

namespace HostMeter

/-! ## Sums of words

The program adds words that stop at the largest one. What is said of sums is said of numbers, and a sum of
the program is one of those, stopped once. -/

namespace Word

/-- The sum of some words as a number, however large. -/
def sum (ws : List UInt64) : Nat := (ws.map UInt64.toNat).sum

theorem sum_cons (w : UInt64) (ws : List UInt64) : sum (w :: ws) = w.toNat + sum ws := by
  rw [sum, List.map_cons, List.sum_cons, sum]

/-- A sum that stops on the way is the exact sum that stops once. -/
theorem toNat_foldl_satAdd (ws : List UInt64) (w : UInt64) :
    (ws.foldl satAdd w).toNat = min (w.toNat + sum ws) top := by
  induction ws generalizing w with
  | nil =>
    have hword : w.toNat ≤ top := Nat.le_pred_of_lt w.toNat_lt
    rw [List.foldl_nil, sum, List.map_nil, List.sum_nil, Nat.add_zero, Nat.min_eq_left hword]
  | cons w' ws ih =>
    rw [List.foldl_cons, ih, toNat_satAdd, sum_cons]
    omega

section Growth

variable {ws ws' : List UInt64}

/-- Where no column shrinks, the sum does not. -/
theorem sum_le_sum (h : List.Forall₂ (· ≤ ·) ws ws') : sum ws ≤ sum ws' := by
  induction h with
  | nil => exact Nat.le_refl _
  | cons hle _ ih =>
    rw [sum_cons, sum_cons]
    exact Nat.add_le_add (UInt64.le_iff_toNat_le.mp hle) ih

/-- Where no column shrinks, the sum grows exactly if some column does. -/
theorem sum_lt_sum_iff (h : List.Forall₂ (· ≤ ·) ws ws') :
    sum ws < sum ws' ↔ ∃ x ∈ ws.zip ws', x.1 < x.2 := by
  induction h with
  | nil => simp
  | @cons w w' ws ws' hle hrest ih =>
    have hfirst := UInt64.le_iff_toNat_le.mp hle
    have hsums := sum_le_sum hrest
    have hcolumns : (∃ x ∈ (w :: ws).zip (w' :: ws'), x.1 < x.2) ↔
        w < w' ∨ ∃ x ∈ ws.zip ws', x.1 < x.2 := List.exists_mem_cons_iff _ _ _
    rw [hcolumns, ← ih, sum_cons, sum_cons, UInt64.lt_iff_toNat_lt]
    omega

end Growth

end Word

/-! ## The ticks of a processor

Two sums of the same eight columns: all of them, and the two idle ones. -/

namespace CpuTimes

variable {p c : CpuTimes}

/-- All ticks are the exact sum of the columns, or the largest word. -/
theorem toNat_total (t : CpuTimes) : t.total.toNat = min (Word.sum t.columns) Word.top := by
  rw [total, Word.toNat_foldl_satAdd, UInt64.toNat_zero, Nat.zero_add]

/-- The sum of the columns of a processor, written out. -/
theorem sum_columns (t : CpuTimes) :
    Word.sum t.columns = t.user.toNat + t.nice.toNat + t.system.toNat + t.idle.toNat + t.iowait.toNat +
      t.irq.toNat + t.softirq.toNat + t.steal.toNat := by
  simp only [Word.sum, columns, List.map_cons, List.map_nil, List.sum_cons, List.sum_nil]
  omega

/-- There are never more idle ticks than ticks, also where the sums stop. -/
theorem idleAll_le_total (t : CpuTimes) : t.idleAll.toNat ≤ t.total.toNat := by
  rw [toNat_total, sum_columns, idleAll, Word.toNat_satAdd]
  omega

/-- Where no column shrinks, neither sum does, and the two idle columns grow by no more than all columns. -/
theorem exists_growth (h : List.Forall₂ (· ≤ ·) p.columns c.columns) :
    ∃ grown idled, Word.sum c.columns = Word.sum p.columns + grown ∧
      c.idle.toNat + c.iowait.toNat = p.idle.toNat + p.iowait.toNat + idled ∧ idled ≤ grown := by
  have hsums := Word.sum_le_sum h
  rw [sum_columns, sum_columns] at hsums ⊢
  simp only [columns, List.forall₂_cons, UInt64.le_iff_toNat_le] at h
  have hidle : p.idle.toNat + p.iowait.toNat ≤ c.idle.toNat + c.iowait.toNat := by omega
  refine ⟨_, _, (Nat.add_sub_cancel' hsums).symm, (Nat.add_sub_cancel' hidle).symm, ?_⟩
  omega

end CpuTimes

end HostMeter
