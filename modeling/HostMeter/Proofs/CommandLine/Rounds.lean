import HostMeter.CommandLine.Session
import HostMeter.Host.WorkTree
import HostMeter.Proofs.Monitor.Caching
/-!
# Rounds of a session — how many there are

A session with a limit tests it when a round is over. As no round over built-in probes fails, the limit
alone ends the session, after as many rounds as it says; only a limit of zero, which is met before the
first round, is noticed too late.

* `Session.roundCount`: the number of rounds; `Session.isOver_iff`: when it is reached.
* `Session.rounds_of_limit`: the rounds from any one on.
* `Session.outcomeFrom_of_start`: what a session leaves behind that has started.
* `Session.lines_of_limit`: the law; `Session.line_of_limit_zero`: what becomes of a limit of zero.
-/

namespace HostMeter

namespace Session

variable {o : Options} {n : UInt64}

/-- The number of rounds of a session with a limit. -/
def roundCount (n : UInt64) : Nat := max n.toNat 1

theorem roundCount_of_ne_zero (hn : n ≠ 0) : roundCount n = n.toNat :=
  Nat.max_eq_left (Nat.pos_of_ne_zero fun hzero => hn (UInt64.toNat_inj.mp hzero))

/-- After a round, the limit is met exactly if the number of rounds is reached. -/
theorem isOver_iff (hlimit : o.iterations = some n) (number : Nat) :
    isOver o (number + 1) = true ↔ roundCount n ≤ number + 1 := by
  rw [isOver, hlimit, Option.any_some, decide_eq_true_eq, roundCount]
  omega

/-- The rounds that are left, from any one on. The induction is on the rounds after this one: each tests
the limit and does not meet it, but for the last. -/
theorem rounds_of_limit (hlimit : o.iterations = some n) (moments : Nat → Moment) {after left : Nat}
    (hleft : after < left) {number : Nat} (hcount : number + (after + 1) = roundCount n)
    (m : Monitor Builtin) :
    rounds o moments left number m =
      ((m.rounds ((List.range' number (after + 1)).map moments)).map (render o ∘ Round.snapshot),
        none) := by
  induction after generalizing left number m with
  -- this is the last round, and the limit ends the session after it
  | zero =>
    obtain ⟨left, rfl⟩ := Nat.exists_eq_add_one_of_ne_zero (Nat.ne_of_gt hleft)
    have hover : isOver o (number + 1) = true := (isOver_iff hlimit number).mpr (Nat.le_of_eq hcount.symm)
    rw [rounds, m.poll_builtin]
    exact if_pos hover
  -- the limit is not met, and the rounds go on
  | succ after ih =>
    obtain ⟨left, rfl⟩ := Nat.exists_eq_add_one_of_ne_zero (Nat.ne_zero_of_lt hleft)
    have hover : isOver o (number + 1) = false := by
      rw [← Bool.not_eq_true, isOver_iff hlimit]
      omega
    have hlater : rounds o moments left (number + 1) (Round.mk m (moments number)).after = _ :=
      ih (by omega) (by omega) _
    rw [rounds, m.poll_builtin]
    simp only [hover, Bool.false_eq_true, if_false, hlater]
    rfl

/-! ## What is left behind

The output of a session, and that it reports nothing, follow from the number of its rounds. -/

section Started

variable {args : List String} {host : HostView} {m : Monitor Builtin}

/-- What a session leaves behind that has started: a line for each round and no report. -/
theorem outcomeFrom_of_start (hargs : Options.ofArgs args = .ok o) (hlimit : o.iterations = some n)
    (hstart : start o host = .ok m) (moments : Nat → Moment) (interrupt : Nat) :
    ∃ snapshots : List Snapshot, snapshots.length = roundCount n ∧
      (m.run ((List.range (roundCount n)).map moments)).2 = snapshots.map .ok ∧
      outcomeFrom args host moments interrupt =
        ⟨0, String.join (snapshots.map fun s => render o s ++ "\n"), none⟩ := by
  obtain ⟨after, hafter⟩ := Nat.exists_eq_add_one_of_ne_zero (Nat.ne_of_gt (Nat.le_max_right n.toNat 1))
  have hcount : roundCount n = after + 1 := hafter
  have hmost : after < mostRounds o interrupt := by
    rw [mostRounds, hlimit]
    show after < n.toNat + 1
    omega
  have hrounds := rounds_of_limit hlimit moments hmost ((Nat.zero_add _).trans hcount.symm) m
  refine ⟨(m.rounds ((List.range (roundCount n)).map moments)).map Round.snapshot, ?_, ?_, ?_⟩
  · rw [List.length_map, Monitor.length_rounds, List.length_map, List.length_range]
  · rw [Monitor.outcomes_run, List.map_map]
    exact List.map_congr_left fun r _ => r.outcome_builtin
  · simp only [outcomeFrom, hargs, hstart, hrounds]
    rw [hcount, List.range_eq_range', List.map_map, List.map_map]
    rfl

/-- **How many rounds a session has.** With a limit that is not zero it polls the monitor as often as the
limit says, prints each snapshot and a line feed, and ends without a fault. With a limit of zero it does
so once. -/
theorem lines_of_limit (hargs : Options.ofArgs args = .ok o) (hlimit : o.iterations = some n)
    (hstart : start o host = .ok m) (moments : Nat → Moment) (interrupt : Nat) :
    ∃ snapshots : List Snapshot, snapshots.length = (if n = 0 then 1 else n.toNat) ∧
      (m.run ((List.range snapshots.length).map moments)).2 = snapshots.map .ok ∧
      outcomeFrom args host moments interrupt =
        ⟨0, String.join (snapshots.map fun s => render o s ++ "\n"), none⟩ := by
  obtain ⟨snapshots, hlength, hrun, houtcome⟩ :=
    outcomeFrom_of_start hargs hlimit hstart moments interrupt
  refine ⟨snapshots, ?_, hlength ▸ hrun, houtcome⟩
  rw [hlength]
  split
  · next hzero => rw [hzero]; rfl
  · next hne => exact roundCount_of_ne_zero hne

end Started

/-! ## Examples

A session over a tree that has almost nothing in it, with a limit of three and with one of zero. -/

/-- The arguments of a session with a configuration, a limit and roots of its own. -/
def limited (numeral : String) : List String :=
  ["-c", "c.ini", "-n", numeral, "--proc-path", "proc", "--sys-path", "sys"]

def limitedOptions (n : UInt64) : Options := ⟨some "c.ini", some n, false, ⟨"proc", "sys"⟩, 0, false⟩

/-- A tree with nothing in it but a configuration, which turns off the only probe that needs no file. -/
def bareTree : WorkTree :=
  WorkTree.empty.writeFile ⟨"c.ini"⟩ "[module.storage]\nenabled = off\n".toUTF8

/-- The session of the example starts. -/
theorem start_bareTree (n : UInt64) : ∃ m, start (limitedOptions n) bareTree.view = .ok m := by
  -- the limit has no part in the start
  show ∃ m, start (limitedOptions 0) bareTree.view = .ok m
  exact ⟨_, rfl⟩

/-- Rounds at one millisecond after the other, in which the tree stays as it is. -/
def bareMoments (i : Nat) : Moment := ⟨UInt64.ofNat i, bareTree.view⟩

/-- Three rounds of the example print three lines. -/
theorem lines_of_limit_three :
    Options.ofArgs (limited "3") = .ok (limitedOptions 3) ∧
      (∃ m, start (limitedOptions 3) bareTree.view = .ok m) ∧
      ∃ snapshots : List Snapshot, snapshots.length = 3 ∧
        outcome (limited "3") bareMoments 1 =
          ⟨0, String.join (snapshots.map fun s => s.human ++ "\n"), none⟩ := by
  have hargs : Options.ofArgs (limited "3") = .ok (limitedOptions 3) := rfl
  obtain ⟨m, hm⟩ := start_bareTree 3
  obtain ⟨snapshots, hlength, _, houtcome⟩ :=
    lines_of_limit hargs rfl hm bareMoments 1
  exact ⟨hargs, ⟨m, hm⟩, snapshots, hlength, houtcome⟩

/-- With a limit of zero the session starts and prints a line, although there are no snapshots as often
as the limit says. -/
theorem line_of_limit_zero :
    Options.ofArgs (limited "0") = .ok (limitedOptions 0) ∧
      (∃ m, start (limitedOptions 0) bareTree.view = .ok m) ∧
      outcome (limited "0") bareMoments 1 = ⟨0, "\n", none⟩ ∧
      ∀ snapshots : List Snapshot, snapshots.length = (0 : UInt64).toNat →
        outcome (limited "0") bareMoments 1 ≠
          ⟨0, String.join (snapshots.map fun s => s.human ++ "\n"), none⟩ := by
  have houtcome : outcome (limited "0") bareMoments 1 = ⟨0, "\n", none⟩ := rfl
  refine ⟨rfl, start_bareTree 0, houtcome, fun snapshots hlength => ?_⟩
  rw [houtcome, List.length_eq_zero_iff.mp hlength]
  decide

end Session

end HostMeter
