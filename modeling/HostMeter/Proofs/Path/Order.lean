import HostMeter.Proofs.Path.Components
import Mathlib.Data.List.Lex
/-!
# Order — the least of some paths

Paths are ordered by their components, each of which has a key. The keys are ordered as lists are, so the
order of paths is total, and only spellings of one path come before and behind each other. Sorting some
paths and taking the first that meets a condition therefore finds the least of those that do, and in
whatever order they are handed over, it is the same path.

* `Path.le_iff`: the order of paths as an order of keys; `Path.same_of_le_of_le`.
* `Path.IsLeast`: the least of the paths that meet a condition.
* `Path.find?_mergeSort_isLeast`: sorting finds it; `Path.IsLeast.same_of_perm`: whatever the order.
-/

namespace HostMeter.Path

/-! ## Keys

A component is compared by its kind first and by its characters then. Kinds and characters are written as
numbers, so that a path has a list of lists of numbers for its key. -/

/-- Different components have different keys. -/
theorem Component.key_injective : Function.Injective Component.key := by
  intro c c' h
  cases c <;> cases c' <;> simp only [Component.key, List.cons.injEq] at h
  all_goals first | rfl | skip
  case name.name cs cs' =>
    have hchars : Function.Injective Char.toNat := fun _ _ => Char.toNat_inj.mp
    rw [List.map_injective_iff.mpr hchars h.2]
  all_goals omega

theorem same_iff_key_eq {p q : Path} : p.Same q ↔ p.key = q.key :=
  (List.map_injective_iff.mpr Component.key_injective).eq_iff.symm

/-! ## The order

The order is that of the keys, so it is total, and what it takes for equal are the spellings of one path. -/

/-- The comparison that runs is that of lists of lists of numbers. -/
theorem lex_iff (k k' : List (List Nat)) : (k.lex k' fun a b => a.lex b Nat.blt) = true ↔ k < k' := by
  have hnat : (fun m n => Nat.blt m n = true) = fun m n : Nat => m < n := by
    funext m n
    exact Nat.blt_eq
  have hlist : (fun a b : List Nat => a.lex b Nat.blt = true) = fun a b => a < b := by
    funext a b
    rw [List.lex_eq_true_iff_lex, hnat]
    rfl
  rw [List.lex_eq_true_iff_lex, hlist]
  rfl

/-- **Paths are ordered as their keys are.** -/
theorem le_iff {p q : Path} : p.le q = true ↔ p.key ≤ q.key := by
  rw [le, Bool.not_eq_true', ← Bool.not_eq_true, lex_iff, not_lt]

theorem le_refl (p : Path) : p.le p = true := le_iff.mpr le_rfl

theorem le_trans (p q r : Path) (h : p.le q = true) (h' : q.le r = true) : p.le r = true :=
  le_iff.mpr ((le_iff.mp h).trans (le_iff.mp h'))

theorem le_or_le (p q : Path) : (p.le q || q.le p) = true := by
  rw [Bool.or_eq_true, le_iff, le_iff]
  exact le_total _ _

/-- Only spellings of one path come before and behind each other. -/
theorem same_of_le_of_le {p q : Path} (h : p.le q = true) (h' : q.le p = true) : p.Same q :=
  same_iff_key_eq.mpr (le_antisymm (le_iff.mp h) (le_iff.mp h'))

/-! ## The least of some paths

Taking the first of the sorted paths that meets a condition gives the least of them. The least one is told
without sorting, so it does not depend on the order in which the paths were listed. -/

/-- The least of the paths that meet a condition. -/
structure IsLeast (P : Path → Prop) (ps : List Path) (p : Path) : Prop where
  mem : p ∈ ps
  meets : P p
  least : ∀ q ∈ ps, P q → p.le q = true

variable {P : Path → Prop} {ps ps' : List Path} {p q : Path}

/-- **The first path of the sorted ones that meets a condition is the least that does.** -/
theorem find?_mergeSort_isLeast {f : Path → Bool} (hf : ∀ p, f p = true ↔ P p)
    (h : (ps.mergeSort le).find? f = some p) : IsLeast P ps p := by
  obtain ⟨hp, before, behind, hsorted, hbefore⟩ := List.find?_eq_some_iff_append.mp h
  have hmem : ∀ q, q ∈ ps ↔ q ∈ before ++ p :: behind := fun q => by
    rw [← hsorted, List.mem_mergeSort]
  have horder := List.pairwise_mergeSort le_trans le_or_le ps
  rw [hsorted] at horder
  refine ⟨(hmem p).mpr (by simp), (hf p).mp hp, fun q hq hmeets => ?_⟩
  rcases List.mem_append.mp ((hmem q).mp hq) with hq | hq
  · -- none of those before it meets the condition
    have hnone := hbefore q hq
    rw [(hf q).mpr hmeets] at hnone
    cases hnone
  · rcases List.mem_cons.mp hq with rfl | hq
    · exact le_refl q
    · exact (List.pairwise_cons.mp (List.pairwise_append.mp horder).2.1).1 q hq

/-- One of the paths is found just if one of them meets the condition. -/
theorem exists_find?_mergeSort {f : Path → Bool} (hf : ∀ p, f p = true ↔ P p) :
    (∃ p, (ps.mergeSort le).find? f = some p) ↔ ∃ p ∈ ps, P p := by
  rw [← Option.isSome_iff_exists, List.find?_isSome]
  simp only [List.mem_mergeSort, hf]

/-- It matters only which of the paths meet the condition. -/
theorem IsLeast.congr {P' : Path → Prop} (h : IsLeast P ps p) (hP : ∀ q ∈ ps, P q ↔ P' q) :
    IsLeast P' ps p where
  mem := h.mem
  meets := (hP p h.mem).mp h.meets
  least q hq hmeets := h.least q hq ((hP q hq).mpr hmeets)

/-- The least ones of the same paths in another order are spellings of one path. -/
theorem IsLeast.same_of_perm (h : IsLeast P ps p) (h' : IsLeast P ps' q) (hperm : ps.Perm ps') :
    p.Same q :=
  same_of_le_of_le (h.least q (hperm.mem_iff.mpr h'.mem) h'.meets)
    (h'.least p (hperm.mem_iff.mp h.mem) h.meets)

/-- The least ones of the same paths in another order are equal if no path comes in two spellings. -/
theorem IsLeast.eq_of_perm (h : IsLeast P ps p) (h' : IsLeast P ps' q) (hperm : ps.Perm ps')
    (hspelling : ∀ a ∈ ps, ∀ b ∈ ps, a.Same b → a = b) : p = q :=
  hspelling p h.mem q (hperm.mem_iff.mpr h'.mem) (h.same_of_perm h' hperm)

end HostMeter.Path
