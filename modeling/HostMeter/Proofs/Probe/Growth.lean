import HostMeter.Proofs.Counters.Totals
import HostMeter.Proofs.Probe.Usage
/-!
# Growth — ticks that only grow

A pair of samples is refused as noise when the idle ticks grew by more than all ticks. The two are sums of
different columns and stop at the largest word each for itself. Columns of which none shrinks are never refused
for that, as long as their sum fits a word: the pair tells a share exactly if there are new ticks at all.

* `TickSample.isSome_usage?_iff`: which pairs tell a share.
* `TickSample.usable_ofTimes_iff`: pairs of samples of which no column shrinks.
* `TickSample.usage?_of_growth`: the law.
-/

namespace HostMeter

namespace TickSample

variable {p c : CpuTimes}

/-- There is a busy share exactly between usable samples. -/
theorem isSome_usage?_iff {a b : TickSample} : (a.usage? b).isSome = true ↔ a.Usable b := by
  by_cases h : a.Usable b
  · obtain ⟨u, hu, _⟩ := usage?_of_usable h
    rw [hu]
    exact iff_of_true rfl h
  · rw [usage?_of_not_usable h]
    exact iff_of_false Bool.false_ne_true h

/-- A sum of columns that fits a word is taken down as it is. -/
theorem toNat_total_ofTimes {t : CpuTimes} (h : Word.sum t.columns < 2 ^ 64) :
    (ofTimes t).total.toNat = Word.sum t.columns := by
  rw [ofTimes, CpuTimes.toNat_total]
  exact Nat.min_eq_left (Nat.le_pred_of_lt h)

/-- The two idle columns are taken down as their sum, too, since it is no greater. -/
theorem toNat_idle_ofTimes {t : CpuTimes} (h : Word.sum t.columns < 2 ^ 64) :
    (ofTimes t).idle.toNat = t.idle.toNat + t.iowait.toNat := by
  have hle : t.idle.toNat + t.iowait.toNat ≤ Word.sum t.columns := by
    rw [CpuTimes.sum_columns]
    omega
  rw [ofTimes, CpuTimes.idleAll, Word.toNat_satAdd]
  exact Nat.min_eq_left (Nat.le_pred_of_lt (Nat.lt_of_le_of_lt hle h))

/-- Both counters of the sample move on, the idle one by no more than the other. -/
theorem exists_growth (h : List.Forall₂ (· ≤ ·) p.columns c.columns)
    (hsum : Word.sum c.columns < 2 ^ 64) :
    ∃ grown idled, (ofTimes c).total.toNat = (ofTimes p).total.toNat + grown ∧
      (ofTimes c).idle.toNat = (ofTimes p).idle.toNat + idled ∧ idled ≤ grown := by
  have hsum' : Word.sum p.columns < 2 ^ 64 := Nat.lt_of_le_of_lt (Word.sum_le_sum h) hsum
  rw [toNat_total_ofTimes hsum, toNat_total_ofTimes hsum', toNat_idle_ofTimes hsum, toNat_idle_ofTimes hsum']
  exact CpuTimes.exists_growth h

/-- Two samples of columns that only grow are usable together exactly if some column grew. -/
theorem usable_ofTimes_iff (h : List.Forall₂ (· ≤ ·) p.columns c.columns)
    (hsum : Word.sum c.columns < 2 ^ 64) :
    (ofTimes p).Usable (ofTimes c) ↔ ∃ x ∈ p.columns.zip c.columns, x.1 < x.2 := by
  have hsum' : Word.sum p.columns < 2 ^ 64 := Nat.lt_of_le_of_lt (Word.sum_le_sum h) hsum
  obtain ⟨grown, idled, htotal, hidle, hle⟩ := exists_growth h hsum
  rw [← Word.sum_lt_sum_iff h, ← toNat_total_ofTimes hsum, ← toNat_total_ofTimes hsum', Usable]
  omega

/-- **The law of ticks that only grow.**

* Whatever the columns, all ticks are the exact sum of the columns, or the largest word if that does not fit,
  and there are never more idle ticks than ticks.
* Take two sets of columns of which none shrinks from the first to the second, and let the sum of the second fit
  a word. Both counters of their samples move on, the idle one by no more than the other, and the pair tells a
  share exactly if at least one column grew. -/
theorem usage?_of_growth :
    (∀ t : CpuTimes, t.total.toNat = min (Word.sum t.columns) (2 ^ 64 - 1) ∧
      t.idleAll.toNat ≤ t.total.toNat) ∧
    ∀ p c : CpuTimes, List.Forall₂ (· ≤ ·) p.columns c.columns → Word.sum c.columns < 2 ^ 64 →
      (∃ grown idled, (ofTimes c).total.toNat = (ofTimes p).total.toNat + grown ∧
        (ofTimes c).idle.toNat = (ofTimes p).idle.toNat + idled ∧ idled ≤ grown) ∧
      (((ofTimes p).usage? (ofTimes c)).isSome = true ↔ ∃ x ∈ p.columns.zip c.columns, x.1 < x.2) := by
  refine ⟨fun t => ⟨t.toNat_total, t.idleAll_le_total⟩, fun p c h hsum => ⟨exists_growth h hsum, ?_⟩⟩
  rw [isSome_usage?_iff, usable_ofTimes_iff h hsum]

/-- Only the idle columns grow, up to the largest sum that fits a word. -/
theorem usage?_of_growth_idle :
    let p : CpuTimes := ⟨1, 2, 3, 4, 0, 5, 6, 7⟩
    let c : CpuTimes := ⟨1, 2, 3, 18446744073709551590, 1, 5, 6, 7⟩
    List.Forall₂ (· ≤ ·) p.columns c.columns ∧ Word.sum c.columns < 2 ^ 64 ∧
      c.total.toNat = min (Word.sum c.columns) (2 ^ 64 - 1) ∧
      ((ofTimes p).usage? (ofTimes c)).isSome = true := by
  intro p c
  have hcolumns : List.Forall₂ (· ≤ ·) p.columns c.columns := by
    simp [p, c, CpuTimes.columns]
  have hsum : Word.sum c.columns < 2 ^ 64 := by decide
  have hgrown : ∃ x ∈ p.columns.zip c.columns, x.1 < x.2 :=
    ⟨(4, 18446744073709551590), by decide, by decide⟩
  obtain ⟨hsums, hpairs⟩ := usage?_of_growth
  exact ⟨hcolumns, hsum, (hsums c).1, (hpairs p c hcolumns hsum).2.mpr hgrown⟩

end TickSample

end HostMeter
