import HostMeter.Snapshot.Builder
import Mathlib.Algebra.Group.Nat.Defs
import Mathlib.Data.List.DropRight
import Mathlib.Data.List.Induction
import Mathlib.Order.Bounds.Basic
/-!
# Collecting — a builder told by what was done with it

Whatever is done with a builder, its metrics are those of a plain list: adding puts a metric with a name
at the end, rolling back keeps the first ones, handing over and resetting leave none. Its room follows
another history. It is given back with the metrics, but rolling back keeps it, so it is told by the
greatest length since the builder was last emptied.

* `Builder.Step`, `Builder.run`: what is done with a builder; `Builder.listed` is the plain list.
* `Builder.recent`, `Builder.Reached`: the steps since the builder was last emptied, and the lengths that
  the list had in the meantime.
* `Builder.RoomFor`, `Builder.RoomFor.grown`: the room for a greatest length, and how a metric changes it.
* `Builder.collected_of_run`: the metrics and the room after any steps.
-/

namespace HostMeter.Builder

/-- What is done with a builder. -/
inductive Step where
  | add (m : Metric)
  | rollback (mark : Nat)
  | reset
  | finalize
  deriving DecidableEq, Repr

/-- A metric that is refused leaves the builder as it was. -/
def step (b : Builder) : Step → Builder
  | .add m =>
    match b.push m with
    | .ok b' => b'
    | .error _ => b
  | .rollback mark => b.rollback mark
  | .reset => b.reset
  | .finalize => b.finalize.2

/-- The builder after steps, the first of which comes first. -/
def run (b : Builder) (steps : List Step) : Builder := steps.foldl step b

theorem run_concat (b : Builder) (steps : List Step) (s : Step) :
    b.run (steps ++ [s]) = (b.run steps).step s := by
  rw [run, List.foldl_append]
  rfl

/-! ## The plain list

The builder keeps its metrics in a buffer that grows. What it holds is that of a plain list to which the
same is done, so nothing about the buffer shows there. -/

/-- What a step makes of a plain list of metrics. -/
def Step.onList (ms : List Metric) : Step → List Metric
  | .add m => if m.name = "" then ms else ms ++ [m]
  | .rollback mark => ms.take mark
  | .reset | .finalize => []

/-- The plain list after steps. -/
def listed (steps : List Step) : List Metric := steps.foldl Step.onList []

theorem listed_concat (steps : List Step) (s : Step) : listed (steps ++ [s]) = s.onList (listed steps) := by
  rw [listed, List.foldl_append]
  rfl

/-- A metric without a name is refused, and the message says so. -/
theorem refusal?_of_nameless {m : Metric} (h : m.name = "") :
    refusal? m = some (.invalidArgument "metric name must not be empty") := by
  rw [refusal?, h]
  rfl

theorem push_of_named {m : Metric} (h : m.name ≠ "") (b : Builder) : b.push m = .ok (b.add m) := by
  rw [push, refusal?_eq_none h]

theorem push_of_nameless {m : Metric} (h : m.name = "") (b : Builder) :
    b.push m = .error (.invalidArgument "metric name must not be empty") := by
  rw [push, refusal?_of_nameless h]

theorem step_add_of_named {m : Metric} (h : m.name ≠ "") (b : Builder) : b.step (.add m) = b.add m := by
  rw [step, push_of_named h]

theorem step_add_of_nameless {m : Metric} (h : m.name = "") (b : Builder) : b.step (.add m) = b := by
  rw [step, push_of_nameless h]

theorem toList_add (b : Builder) (m : Metric) : (b.add m).items.toList = b.items.toList ++ [m] :=
  Array.toList_push

theorem toList_rollback (b : Builder) (mark : Nat) :
    (b.rollback mark).items.toList = b.items.toList.take mark := by
  simp [rollback]

/-- A step does to the metrics of a builder what it does to a plain list. -/
theorem toList_step (b : Builder) (s : Step) : (b.step s).items.toList = s.onList b.items.toList := by
  cases s with
  | add m =>
    by_cases h : m.name = ""
    · rw [step_add_of_nameless h, Step.onList, if_pos h]
    · rw [step_add_of_named h, toList_add, Step.onList, if_neg h]
  | rollback mark => exact toList_rollback b mark
  | reset => rfl
  | finalize => rfl

/-- **A builder holds the plain list.** -/
theorem toList_run (steps : List Step) : (empty.run steps).items.toList = listed steps := by
  induction steps using List.reverseRecOn with
  | nil => rfl
  | append_singleton steps s ih => rw [run_concat, toList_step, ih, listed_concat]

theorem size_run (steps : List Step) : (empty.run steps).size = (listed steps).length := by
  rw [← toList_run, Array.length_toList]
  rfl

/-- There is no metric without a name on the list. -/
theorem named_of_mem_listed {steps : List Step} {m : Metric} (h : m ∈ listed steps) : m.name ≠ "" := by
  induction steps using List.reverseRecOn with
  | nil => cases h
  | append_singleton steps s ih =>
    rw [listed_concat] at h
    cases s with
    | add m' =>
      rw [Step.onList] at h
      -- a metric without a name is refused, so it is not the one on the list
      split at h
      · exact ih h
      · next hname =>
        rcases List.mem_append.mp h with h | h
        · exact ih h
        · exact List.mem_singleton.mp h ▸ hname
    | rollback mark => exact ih (List.mem_of_mem_take h)
    | reset => cases h
    | finalize => cases h

/-! ## Since the builder was last emptied

The room depends on how long the list has been, and only since the builder was last emptied, since it gives
its buffer away then. Rolling back shortens the list and not the buffer. -/

/-- Does the step leave an empty builder without room? -/
def Step.empties : Step → Bool
  | .reset | .finalize => true
  | .add _ | .rollback _ => false

/-- The steps since the last one that emptied the builder. -/
def recent (steps : List Step) : List Step := steps.rtakeWhile fun s => !s.empties

theorem recent_concat_of_empties {s : Step} (h : s.empties = true) (steps : List Step) :
    recent (steps ++ [s]) = [] :=
  List.rtakeWhile_concat_neg _ _ _ (by simp [h])

theorem recent_concat {s : Step} (h : s.empties = false) (steps : List Step) :
    recent (steps ++ [s]) = recent steps ++ [s] :=
  List.rtakeWhile_concat_pos _ _ _ (by simp [h])

/-- A step that empties the builder empties the list. -/
theorem onList_of_empties {s : Step} (h : s.empties = true) (ms : List Metric) : s.onList ms = [] := by
  cases s with
  | add m => cases h
  | rollback mark => cases h
  | reset => rfl
  | finalize => rfl

/-- What was done before the builder was last emptied does not count. -/
theorem listed_recent (steps : List Step) : listed (recent steps) = listed steps := by
  induction steps using List.reverseRecOn with
  | nil => rfl
  | append_singleton steps s ih =>
    cases h : s.empties with
    | true => rw [recent_concat_of_empties h, listed_concat, onList_of_empties h]; rfl
    | false => rw [recent_concat h, listed_concat, ih, listed_concat]

/-- Has a metric been added since the builder was last emptied? -/
def Added (steps : List Step) : Prop := ∃ m, .add m ∈ recent steps ∧ m.name ≠ ""

/-- Has the list had this length since the builder was last emptied? -/
def Reached (steps : List Step) (n : Nat) : Prop :=
  ∃ before, before <+: recent steps ∧ (listed before).length = n

theorem reached_length (steps : List Step) : Reached steps (listed steps).length :=
  ⟨recent steps, List.prefix_rfl, by rw [listed_recent]⟩

/-- Just emptied, the list has had no length but zero. -/
theorem isGreatest_of_recent_nil {steps : List Step} (h : recent steps = []) :
    IsGreatest {n | Reached steps n} 0 := by
  refine ⟨⟨[], List.nil_prefix, rfl⟩, ?_⟩
  rintro _ ⟨before, hbefore, rfl⟩
  rw [h, List.prefix_nil] at hbefore
  rw [hbefore]
  rfl

/-- A step that does not empty the builder adds the length that it leads to. -/
theorem reached_concat_iff {steps : List Step} {s : Step} (h : s.empties = false) (n : Nat) :
    Reached (steps ++ [s]) n ↔ n = (listed (steps ++ [s])).length ∨ Reached steps n := by
  constructor
  · rintro ⟨before, hbefore, rfl⟩
    rw [recent_concat h] at hbefore
    rcases List.prefix_concat_iff.mp hbefore with rfl | hbefore
    · left
      rw [listed_concat, listed_recent, listed_concat]
    · exact Or.inr ⟨before, hbefore, rfl⟩
  · rintro (rfl | ⟨before, hbefore, rfl⟩)
    · exact reached_length _
    · exact ⟨before, hbefore.trans (recent_concat h steps ▸ List.prefix_append _ _), rfl⟩

/-- While no metric is added, the list stays empty. -/
theorem listed_eq_nil {steps : List Step} (h : ∀ m, .add m ∈ steps → m.name = "") : listed steps = [] := by
  induction steps using List.reverseRecOn with
  | nil => rfl
  | append_singleton steps s ih =>
    rw [listed_concat, ih fun m hm => h m (List.mem_append_left _ hm)]
    cases s with
    | add m => rw [Step.onList, if_pos (h m (by simp))]
    | rollback mark => exact List.take_nil
    | reset => rfl
    | finalize => rfl

/-- The list was not empty all the time exactly if a metric was added. -/
theorem added_iff_exists_reached {steps : List Step} : Added steps ↔ ∃ n, Reached steps n ∧ n ≠ 0 := by
  constructor
  · rintro ⟨m, hm, hname⟩
    obtain ⟨before, after, hsplit⟩ := List.append_of_mem hm
    refine ⟨_, ⟨before ++ [.add m], ⟨after, by simp [hsplit]⟩, rfl⟩, ?_⟩
    rw [listed_concat, Step.onList, if_neg hname]
    simp
  · rintro ⟨n, ⟨before, hbefore, rfl⟩, hn⟩
    by_contra hnone
    refine hn (List.length_eq_zero_iff.mpr (listed_eq_nil fun m hm => ?_))
    by_contra hname
    exact hnone ⟨m, hbefore.mem hm, hname⟩

/-! ## The room

Room is made as metrics come: first for 32, then twice as much each time the list fills it. So the room is
told by the greatest length so far, and one more metric takes the room for that length to the room for the
new one. -/

/-- The room of a builder whose list has had this length and none greater: none if nothing was added, else
the first room doubled just as often as it takes. -/
inductive RoomFor : Nat → Nat → Prop where
  | none : RoomFor 0 0
  | doubled {peak : Nat} (k : Nat) (hpos : 0 < peak) (hfits : peak ≤ 32 * 2 ^ k)
      (htight : ∀ j, k = j + 1 → 32 * 2 ^ j < peak) : RoomFor peak (32 * 2 ^ k)

/-- The room suffices for the greatest length. -/
theorem RoomFor.le {peak room : Nat} (h : RoomFor peak room) : peak ≤ room := by
  cases h with
  | none => exact Nat.le_refl 0
  | doubled k _ hfits _ => exact hfits

/-- There is no room before anything was added. -/
theorem RoomFor.eq_zero {room : Nat} (h : RoomFor 0 room) : room = 0 := by
  cases h with
  | none => rfl
  | doubled k hpos _ _ => exact absurd hpos (Nat.lt_irrefl 0)

/-- Of the numbers that the first room is doubled to, the room is the least that suffices. -/
theorem RoomFor.isLeast {peak room : Nat} (h : RoomFor peak room) (hpos : 0 < peak) :
    IsLeast {c | (∃ k, c = 32 * 2 ^ k) ∧ peak ≤ c} room := by
  cases h with
  | none => exact absurd hpos (Nat.lt_irrefl 0)
  | doubled k _ hfits htight =>
    refine ⟨⟨⟨k, rfl⟩, hfits⟩, ?_⟩
    rintro _ ⟨⟨j, rfl⟩, hj⟩
    refine Nat.mul_le_mul_left 32 (Nat.pow_le_pow_right Nat.two_pos ?_)
    by_contra hlt
    -- a smaller exponent is at most the one before, which does not suffice
    obtain ⟨i, rfl⟩ := Nat.exists_eq_succ_of_ne_zero (show k ≠ 0 by omega)
    have hji : 2 ^ j ≤ 2 ^ i := Nat.pow_le_pow_right Nat.two_pos (by omega)
    have htoo := htight i rfl
    omega

/-- **One more metric.** The room for the greatest length so far becomes the room for the new one. -/
theorem RoomFor.grown {b : Builder} {peak : Nat} (h : RoomFor peak b.capacity) (hsize : b.size ≤ peak) :
    RoomFor (max (b.size + 1) peak) b.grown := by
  rw [Builder.grown]
  generalize b.capacity = room at h
  cases h with
  | none =>
    obtain hzero : b.size = 0 := Nat.le_zero.mp hsize
    rw [hzero]
    exact .doubled 0 (by decide) (by decide) nofun
  | doubled k hpos hfits htight =>
    split
    · next hroom =>
      -- there is room left, which is as tight as before
      refine .doubled k (by omega) (by omega) fun j hj => ?_
      have := htight j hj
      omega
    · next hfull =>
      -- the list is as long as it ever was and fills the room
      have hpow : 0 < 2 ^ k := Nat.two_pow_pos k
      have hdouble : 2 * (32 * 2 ^ k) = 32 * 2 ^ (k + 1) := by rw [Nat.pow_succ]; omega
      rw [if_neg (by omega), hdouble]
      refine .doubled (k + 1) (by omega) (by omega) fun j hj => ?_
      obtain rfl : k = j := Nat.succ.inj hj
      omega

/-- A step that does not empty the builder takes the room along. -/
theorem capacity_run_concat {steps : List Step} {s : Step} {peak : Nat}
    (hpeak : IsGreatest {n | Reached steps n} peak) (hroom : RoomFor peak (empty.run steps).capacity)
    (h : s.empties = false) :
    RoomFor (max (listed (steps ++ [s])).length peak) (empty.run (steps ++ [s])).capacity := by
  have hsize : (listed steps).length ≤ peak := hpeak.2 (reached_length steps)
  rw [run_concat, listed_concat]
  cases s with
  | add m =>
    -- a metric that is refused changes neither the list nor the room
    by_cases hname : m.name = ""
    · rw [step_add_of_nameless hname, Step.onList, if_pos hname, max_eq_right hsize]
      exact hroom
    · have hgrown := hroom.grown (size_run steps ▸ hsize)
      rw [size_run] at hgrown
      rw [step_add_of_named hname, Step.onList, if_neg hname, List.length_append]
      exact hgrown
  | rollback mark =>
    -- the metrics go, the room stays
    have htake : (Step.onList (listed steps) (.rollback mark)).length ≤ peak :=
      (List.length_take_le' mark _).trans hsize
    rw [max_eq_right htake]
    exact hroom
  | reset => cases h
  | finalize => cases h

/-- **The room is that for the greatest length since the builder was last emptied.** -/
theorem exists_peak (steps : List Step) :
    ∃ peak, IsGreatest {n | Reached steps n} peak ∧ RoomFor peak (empty.run steps).capacity := by
  induction steps using List.reverseRecOn with
  | nil => exact ⟨0, isGreatest_of_recent_nil rfl, .none⟩
  | append_singleton steps s ih =>
    obtain ⟨peak, hpeak, hroom⟩ := ih
    cases h : s.empties with
    -- the buffer is given away, and the greatest length is counted anew
    | true =>
      refine ⟨0, isGreatest_of_recent_nil (recent_concat_of_empties h steps), ?_⟩
      rw [run_concat]
      cases s with
      | add m => cases h
      | rollback mark => cases h
      | reset => exact .none
      | finalize => exact .none
    | false =>
      refine ⟨max (listed (steps ++ [s])).length peak, ?_, capacity_run_concat hpeak hroom h⟩
      simp only [reached_concat_iff h]
      exact hpeak.insert _

/-! ## The law -/

/-- **A builder is a plain list with room for its greatest length.** After any steps, a builder holds the
plain list. A metric with a name is added at its end as it was given; one without a name is refused, and
nothing changes. Rolling back keeps the first metrics and all the room, handing over gives the list away
and, like resetting, leaves neither metrics nor room. No snapshot has a metric without a name. There is
room for the whole list: none if nothing was added since the builder was last emptied, else the least of
32, 64, 128, … that is no less than the greatest length since then. -/
theorem collected_of_run (steps : List Step) :
    let b := empty.run steps
    b.items.toList = listed steps ∧
    (∀ name unit value, name ≠ "" →
      ∃ b', b.push ⟨name, unit, value⟩ = .ok b' ∧ b.step (.add ⟨name, unit, value⟩) = b' ∧
        b'.items.toList = b.items.toList ++ [⟨name, unit, value⟩]) ∧
    (∀ unit value, b.push ⟨"", unit, value⟩ = .error (.invalidArgument "metric name must not be empty") ∧
      b.step (.add ⟨"", unit, value⟩) = b) ∧
    (∀ mark, (b.rollback mark).items.toList = b.items.toList.take (min mark b.size) ∧
      (b.rollback mark).capacity = b.capacity) ∧
    b.reset = empty ∧ b.finalize = (⟨b.items.toList⟩, empty) ∧
    (∀ m ∈ b.finalize.1.metrics, m.name ≠ "") ∧
    b.size ≤ b.capacity ∧
    (¬Added steps → b.capacity = 0) ∧
    (Added steps → ∃ peak, IsGreatest {n | Reached steps n} peak ∧
      IsLeast {c | (∃ k, c = 32 * 2 ^ k) ∧ peak ≤ c} b.capacity) := by
  intro b
  have hlist : b.items.toList = listed steps := toList_run steps
  obtain ⟨peak, hpeak, hroom⟩ := exists_peak steps
  refine ⟨hlist, ?_, ?_, ?_, rfl, rfl, ?_, ?_, ?_, ?_⟩
  · intro name unit value hname
    exact ⟨b.add ⟨name, unit, value⟩, push_of_named hname b, step_add_of_named hname b, toList_add b _⟩
  · exact fun unit value => ⟨push_of_nameless rfl b, step_add_of_nameless rfl b⟩
  · intro mark
    refine ⟨?_, rfl⟩
    rw [toList_rollback, show b.size = b.items.toList.length from rfl, ← List.take_eq_take_min]
  · intro m hm
    have hm : m ∈ b.items.toList := hm
    rw [hlist] at hm
    exact named_of_mem_listed hm
  · rw [size_run]
    exact (hpeak.2 (reached_length steps)).trans hroom.le
  · intro hnone
    obtain rfl : peak = 0 := by
      by_contra hpos
      exact hnone (added_iff_exists_reached.mpr ⟨peak, hpeak.1, hpos⟩)
    exact hroom.eq_zero
  · intro hadded
    obtain ⟨n, hn, hpos⟩ := added_iff_exists_reached.mp hadded
    exact ⟨peak, hpeak, hroom.isLeast (Nat.lt_of_lt_of_le (Nat.pos_of_ne_zero hpos) (hpeak.2 hn))⟩

end HostMeter.Builder
