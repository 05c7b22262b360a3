import HostMeter.Proofs.Monitor.History
import HostMeter.Proofs.Monitor.Start
/-!
# Cadence — how often a slot refreshes

A slot with a pace of `r` milliseconds refreshes at most once in `r` milliseconds of its clock, also
if the clock goes backwards or comes near its largest word. Within a window of `W` milliseconds there
is thus room for `W / r + 1` refreshes, whatever fails in between and is tried again.

* `Slot.earliest`: before this time the slot does not refresh.
* `Round.earliest_le_of_refreshed`, `Round.not_early`: one round.
* `Monitor.earliest_add_le`: a whole run, by counting what is left of the window.
* `Monitor.refresh_cadence`: the law.
-/

namespace HostMeter

/-- Within a window that begins at `start`, the slot does not refresh before this time. -/
def Slot.earliest {σ : Type} (s : Slot σ) (start : Nat) : Nat :=
  match s.lastRefresh with
  | none => start
  | some last => max start (last.toNat + s.refresh.toNat)

/-- The earliest time lies in the window. -/
theorem Slot.start_le_earliest {σ : Type} (s : Slot σ) (start : Nat) : start ≤ s.earliest start := by
  unfold earliest
  split
  · exact Nat.le_refl start
  · exact Nat.le_max_left _ _

variable {σ : Type} [Probe σ]

namespace Round

/-- A slot with a pace that refreshes in a window does so at its earliest time or later: it was due. -/
theorem earliest_le_of_refreshed {r : Round σ} {index start : Nat} {s : Slot σ}
    (hs : r.monitor.slots[index]? = some s) (hpace : s.refresh ≠ 0)
    (hstart : start ≤ r.moment.now.toNat) (h : r.refreshed index = true) :
    s.earliest start ≤ r.moment.now.toNat := by
  have hdue := (s.due_iff r.moment.now).mp (due_of_refreshed hs h)
  unfold Slot.earliest
  split
  · exact hstart
  · next last hlast =>
    rcases hdue with hzero | hdue
    · exact absurd hzero hpace
    · exact Nat.max_le.mpr ⟨hstart, hdue last hlast⟩

/-- **Never early.** If the recorded time changes, it moves on by at least the pace. -/
theorem not_early {r : Round σ} {index : Nat} {s s' : Slot σ} {a b : UInt64}
    (hs : r.monitor.slots[index]? = some s) (hs' : r.after.slots[index]? = some s')
    (hpace : s.refresh ≠ 0) (ha : s.lastRefresh = some a) (hb : s'.lastRefresh = some b)
    (hchange : a ≠ b) : a.toNat + s.refresh.toNat ≤ b.toNat := by
  obtain ⟨u, hu, _, hlast⟩ := exists_slot_after hs
  have hsame : u = s' := Option.some.inj (hu.symm.trans hs')
  rw [hsame, hb] at hlast
  cases href : r.refreshed index with
  -- nothing is recorded, against the change of the recorded time
  | false =>
    rw [href, ha] at hlast
    exact absurd (Option.some.inj hlast).symm hchange
  -- the slot was due, a pace after the time that it had on record
  | true =>
    have hnow : b = r.moment.now := by
      rw [href] at hlast
      exact Option.some.inj hlast
    have hle := earliest_le_of_refreshed hs hpace (Nat.zero_le _) href
    rw [Slot.earliest, ha, ← hnow] at hle
    exact Nat.le_trans (Nat.le_max_right _ _) hle

end Round

namespace Monitor

/-- **What is left of a window.** The refreshes of a run that begins at the slot's earliest time and
stays in the window lie at least a pace apart. The induction is on the run; a refresh moves the
earliest time on by a pace, every other round leaves it where it is. -/
theorem earliest_add_le {m : Monitor σ} {ts : List Moment} {index start width : Nat} {s : Slot σ}
    (hs : m.slots[index]? = some s) (hpace : s.refresh ≠ 0)
    (hwindow : ∀ t ∈ ts, start ≤ t.now.toNat ∧ t.now.toNat ≤ start + width) {n : Nat}
    (hn : (m.rounds ts).countP (fun r => r.refreshed index) = n + 1) :
    s.earliest start + n * s.refresh.toNat ≤ start + width := by
  induction ts generalizing m s n with
  | nil => cases hn
  | cons t ts ih =>
    have hlater : ∀ u ∈ ts, start ≤ u.now.toNat ∧ u.now.toNat ≤ start + width :=
      fun u hu => hwindow u (List.mem_cons_of_mem t hu)
    obtain ⟨hge, hle⟩ := hwindow t List.mem_cons_self
    obtain ⟨s', hs', hfixed, hlast⟩ := Round.exists_slot_after (r := ⟨m, t⟩) hs
    have hrefresh : s'.refresh = s.refresh := congrArg (fun x => x.2.1) hfixed
    rw [rounds_cons, List.countP_cons] at hn
    cases href : (Round.mk m t).refreshed index with
    | false =>
      rw [href] at hn hlast
      -- nothing is recorded, so the earliest time is the same for the rest of the run
      have hsame : s'.earliest start = s.earliest start := by
        rw [Slot.earliest, Slot.earliest, hlast, hrefresh]
        rfl
      rw [← hsame, ← hrefresh]
      exact ih hs' (by rw [hrefresh]; exact hpace) hlater hn
    | true =>
      rw [href] at hn hlast
      have hnow : s.earliest start ≤ t.now.toNat :=
        Round.earliest_le_of_refreshed hs hpace hge href
      cases n with
      -- a single refresh, which lies in the window
      | zero => omega
      | succ n =>
        -- the refreshes that are left begin a pace after this one
        have hnext : t.now.toNat + s.refresh.toNat ≤ s'.earliest start := by
          rw [Slot.earliest, hlast, hrefresh]
          exact Nat.le_max_right _ _
        have hrest : s'.earliest start + n * s'.refresh.toNat ≤ start + width :=
          ih hs' (by rw [hrefresh]; exact hpace) hlater (Nat.succ.inj hn)
        rw [hrefresh] at hrest
        rw [Nat.succ_mul]
        omega

/-- In a window of `width` milliseconds there is room for one refresh more than paces fit in. -/
theorem countP_refreshed_le {m : Monitor σ} {ts : List Moment} {index start width : Nat} {s : Slot σ}
    (hs : m.slots[index]? = some s) (hpace : s.refresh ≠ 0)
    (hwindow : ∀ t ∈ ts, start ≤ t.now.toNat ∧ t.now.toNat ≤ start + width) :
    (m.rounds ts).countP (fun r => r.refreshed index) ≤ width / s.refresh.toNat + 1 := by
  cases hn : (m.rounds ts).countP (fun r => r.refreshed index) with
  | zero => exact Nat.zero_le _
  | succ n =>
    have hpos : 0 < s.refresh.toNat := by
      rw [Nat.pos_iff_ne_zero]
      intro hzero
      exact hpace (UInt32.toNat_inj.mp hzero)
    -- the last of the refreshes is still in the window
    have hfit := earliest_add_le hs hpace hwindow hn
    have hstart := s.start_le_earliest start
    exact Nat.succ_le_succ ((Nat.le_div_iff_mul_le hpos).mpr (by omega))

/-- **The law of the cadence.** In every round of a run the slot at a position keeps its pace, and the
time of the round is recorded exactly if the slot refreshed. A pace of zero is due in every round. With
any other pace the recorded time never moves on by less than the pace, and the refreshes in a window of
the clock are at most as many as fit. -/
theorem refresh_cadence (m : Monitor σ) (ts : List Moment) (index : Nat) (s : Slot σ)
    (hs : m.slots[index]? = some s) :
    (∀ r ∈ m.rounds ts, ∃ before after,
      r.monitor.slots[index]? = some before ∧ r.after.slots[index]? = some after ∧
      before.refresh = s.refresh ∧ after.refresh = s.refresh ∧
      after.lastRefresh =
        (if r.refreshed index then some r.moment.now else before.lastRefresh) ∧
      (s.refresh = 0 → before.due r.moment.now = true) ∧
      (s.refresh ≠ 0 → ∀ a b, before.lastRefresh = some a → after.lastRefresh = some b → a ≠ b →
        a.toNat + s.refresh.toNat ≤ b.toNat)) ∧
    (s.refresh ≠ 0 → ∀ start width : Nat,
      (∀ t ∈ ts, start ≤ t.now.toNat ∧ t.now.toNat ≤ start + width) →
      (m.rounds ts).countP (fun r => r.refreshed index) ≤ width / s.refresh.toNat + 1) := by
  constructor
  · intro r hr
    obtain ⟨before, hbefore, hfixed⟩ := slot_of_mem_rounds hs hr
    obtain ⟨after, hafter, hfixed', hlast⟩ := Round.exists_slot_after hbefore
    have hpace : before.refresh = s.refresh := congrArg (fun x => x.2.1) hfixed
    have hpace' : after.refresh = s.refresh := congrArg (fun x => x.2.1) (hfixed'.trans hfixed)
    refine ⟨before, after, hbefore, hafter, hpace, hpace', hlast, ?_, ?_⟩
    · intro hzero
      exact (before.due_iff _).mpr (Or.inl (hpace.trans hzero))
    · intro hne a b ha hb hchange
      rw [← hpace] at hne ⊢
      exact Round.not_early hbefore hafter hne ha hb hchange
  · intro hne start width hwindow
    exact countP_refreshed_le hs hne hwindow

theorem refresh_cadence_ofWire :
    let moments : List Moment :=
      [⟨5000, .wired⟩, ⟨5999, .wired⟩, ⟨4000, .wired⟩, ⟨6000, .wired⟩]
    (∃ s, ofWire.slots[0]? = some s ∧ s.refresh = 1000) ∧
    (∀ t ∈ moments, 4000 ≤ t.now.toNat ∧ t.now.toNat ≤ 4000 + 2000) ∧
    (ofWire.rounds moments).countP (fun r => r.refreshed 0) ≤ 2000 / 1000 + 1 := by
  intro moments
  refine ⟨⟨_, rfl, rfl⟩, by decide, ?_⟩
  exact (refresh_cadence ofWire moments 0 _ rfl).2 (by decide) 4000 2000 (by decide)

end Monitor

end HostMeter
