import HostMeter.Host.Memory
import HostMeter.Proofs.Path.Parents
import Mathlib.Data.List.Basic
import Mathlib.Data.List.Induction
/-!
# History — a host in memory as the changes it has seen

What a host in memory answers is told by the changes made to it, in their order. A file has the content
that the last change about its path gave it, and a mount likewise; a directory is there once a change has
made it, and stays.

* `MemoryHost.eq_some_iff_of_sets`: a value that some changes set is as the last of these has left it.
* `MemoryHost.Change.Makes`, `MemoryHost.has_directory_iff`: which changes make a directory.
* `MemoryHost.read_eq_ok_iff`, `MemoryHost.usage_eq_ok_iff`, `MemoryHost.has_iff`: the answers.
-/

namespace HostMeter

namespace Shelf

variable {α : Type}

theorem has_eq_isSome (s : Shelf α) (p : Path) : s.has p = (s.get? p).isSome := by
  rw [has, get?, Option.isSome_map]

/-- A path is on a shelf after something was put there if it is a spelling of the path put, or was there. -/
theorem has_put_iff {s : Shelf α} {p q : Path} {a : α} :
    (s.put p a).has q = true ↔ p.Same q ∨ s.has q = true := by
  rw [has_eq_isSome, has_eq_isSome, get?_put]
  by_cases h : p.Same q <;> simp [h]

theorem has_of_same {s : Shelf α} {p q : Path} (h : p.Same q) : s.has p = s.has q := by
  rw [has, has, Path.same_iff_place_eq.mp h]

end Shelf

namespace MemoryHost

theorem applyAll_nil (h : MemoryHost) : h.applyAll [] = h := rfl

theorem applyAll_cons (h : MemoryHost) (c : Change) (cs : List Change) :
    h.applyAll (c :: cs) = (h.apply c).applyAll cs := rfl

theorem applyAll_concat (h : MemoryHost) (cs : List Change) (c : Change) :
    h.applyAll (cs ++ [c]) = (h.applyAll cs).apply c := by
  simp only [applyAll, List.foldl_append, List.foldl_cons, List.foldl_nil]

/-! ## Directories

A change can make directories and cannot take one away. So whether a directory is there is a question about
single changes: has one of them made it? -/

/-- A directory that is made is there, under any of its spellings, and the others stay. -/
theorem has_putDir_iff {h : MemoryHost} {p q : Path} :
    (h.putDir p).directories.has q = true ↔ p.Same q ∨ h.directories.has q = true := by
  unfold putDir
  split
  · next hp =>
    -- the directory is there already, perhaps under another spelling
    constructor
    · exact Or.inr
    · rintro (hsame | hq)
      · rwa [← Shelf.has_of_same hsame]
      · exact hq
  · exact Shelf.has_put_iff

@[simp] theorem files_putDir (h : MemoryHost) (p : Path) : (h.putDir p).files = h.files := by
  unfold putDir
  split <;> rfl

@[simp] theorem mounts_putDir (h : MemoryHost) (p : Path) : (h.putDir p).mounts = h.mounts := by
  unfold putDir
  split <;> rfl

/-- Directories made one after the other: all of them are there, and files and mounts are left alone. -/
theorem foldl_putDir (h : MemoryHost) (ps : List Path) :
    (ps.foldl putDir h).files = h.files ∧ (ps.foldl putDir h).mounts = h.mounts ∧
      ∀ q, (ps.foldl putDir h).directories.has q = true ↔
        (∃ p ∈ ps, p.Same q) ∨ h.directories.has q = true := by
  induction ps generalizing h with
  | nil => simp
  | cons p ps ih =>
    obtain ⟨hfiles, hmounts, hdirectories⟩ := ih (h.putDir p)
    refine ⟨hfiles.trans (files_putDir h p), hmounts.trans (mounts_putDir h p), fun q => ?_⟩
    rw [List.foldl_cons, hdirectories, has_putDir_iff]
    simp only [List.mem_cons, exists_eq_or_imp, or_assoc, or_left_comm]

/-- The paths above a path are its ancestors, the empty path apart: each step up takes a component away,
and the fuel lasts for all of them. -/
theorem exists_mem_ancestorsUpTo_iff {fuel : Nat} {p q : Path} (h : p.components.length ≤ fuel) :
    (∃ a ∈ ancestorsUpTo fuel p, a.text ≠ "" ∧ a.Same q) ↔ q.Above p := by
  induction fuel generalizing p with
  | zero =>
    have hnil : p.components = [] := List.length_eq_zero_iff.mp (Nat.le_zero.mp h)
    simp [ancestorsUpTo, Path.not_above_of_orphan (Or.inl hnil)]
  | succ fuel ih =>
    -- the parent is what the recursion goes on with, so it is named before the cases are split
    have hparent := p.parent?_cases
    rw [ancestorsUpTo]
    revert hparent
    generalize p.parent? = p'
    intro hparent
    cases hparent with
    | orphan horphan => simp [Path.not_above_of_orphan horphan]
    | @child r hr hne hroot =>
      have hfuel : r.components.length ≤ fuel := by
        rw [hr, List.length_dropLast]
        omega
      have hfirst : r.text ≠ "" ∧ r.Same q ↔ q.components ≠ [] ∧ q.Same r := by
        constructor
        · rintro ⟨hr, hsame⟩
          have hsame' : r.components = q.components := hsame
          exact ⟨hsame' ▸ mt Path.components_eq_nil_iff.mp hr, hsame.symm⟩
        · rintro ⟨hq, hsame⟩
          have hsame' : q.components = r.components := hsame
          exact ⟨mt Path.components_eq_nil_iff.mpr (hsame' ▸ hq), hsame.symm⟩
      simp only [List.mem_cons, exists_eq_or_imp]
      rw [ih hfuel, Path.above_iff_of_parent hr hne, hfirst]

@[simp] theorem files_addParents (h : MemoryHost) (p : Path) : (h.addParents p).files = h.files :=
  (foldl_putDir h _).1

@[simp] theorem mounts_addParents (h : MemoryHost) (p : Path) : (h.addParents p).mounts = h.mounts :=
  (foldl_putDir h _).2.1

/-- The directories above a path are the ones made for its sake. -/
theorem has_addParents_iff {h : MemoryHost} {p q : Path} :
    (h.addParents p).directories.has q = true ↔ q.Above p ∨ h.directories.has q = true := by
  rw [addParents, (foldl_putDir h _).2.2, ancestors,
    ← exists_mem_ancestorsUpTo_iff (Path.length_components_le p)]
  simp [and_assoc]

/-- Does the change make a directory at the path? -/
def Change.Makes (p : Path) : Change → Prop
  | .addFile q _ => p.Above q
  | .removeFile _ => False
  | .addDir q => q.Same p ∨ p.Above q
  | .setMount q _ => q.Same p
  | .removeMount _ => False

instance (p : Path) : (c : Change) → Decidable (c.Makes p)
  | .addFile q _ => inferInstanceAs (Decidable (p.Above q))
  | .addDir q => inferInstanceAs (Decidable (q.Same p ∨ p.Above q))
  | .setMount q _ => inferInstanceAs (Decidable (q.Same p))
  | .removeFile _ | .removeMount _ => inferInstanceAs (Decidable False)

/-- After a change, a directory is there if the change makes it or it was there: none is ever taken away. -/
theorem has_apply_iff {h : MemoryHost} {c : Change} {p : Path} :
    (h.apply c).directories.has p = true ↔ c.Makes p ∨ h.directories.has p = true := by
  -- only files can go; a mount makes its own directory and no other
  cases c with
  | addFile q content => exact has_addParents_iff
  | removeFile q => exact (iff_of_eq (false_or _)).symm
  | addDir q =>
    rw [apply, addDir, has_putDir_iff, has_addParents_iff, Change.Makes, or_assoc]
  | setMount q usage => exact has_putDir_iff
  | removeMount q => exact (iff_of_eq (false_or _)).symm

/-- **A directory is there exactly if a change has made it**, or it was there before. -/
theorem has_directory_iff {h : MemoryHost} {cs : List Change} {p : Path} :
    (h.applyAll cs).directories.has p = true ↔ (∃ c ∈ cs, c.Makes p) ∨ h.directories.has p = true := by
  induction cs generalizing h with
  | nil => simp [applyAll]
  | cons c cs ih =>
    rw [applyAll_cons, ih, has_apply_iff]
    simp only [List.mem_cons, exists_eq_or_imp, or_assoc, or_left_comm]

/-! ## Files and mounts

A file or a mount can be set again and again and be taken away. What counts is the last change about it, so
the induction on the changes goes from their end. The argument is the same for both and is made once, for
anything that changes set. -/

/-- What a change does to the file at a path: it leaves the file alone, or it says what is there. -/
def Change.file? (p : Path) : Change → Option (Option String)
  | .addFile q content => if q.Same p then some (some content) else none
  | .removeFile q => if q.Same p then some none else none
  | _ => none

/-- What a change does to the mount at a path. -/
def Change.mount? (p : Path) : Change → Option (Option Usage)
  | .setMount q usage => if q.Same p then some (some usage) else none
  | .removeMount q => if q.Same p then some none else none
  | _ => none

/-- A change leaves the file at a path alone unless it says what is there. -/
theorem file_apply (h : MemoryHost) (c : Change) (p : Path) :
    (h.apply c).files.get? p = (c.file? p).getD (h.files.get? p) := by
  cases c with
  | addFile q content =>
    rw [apply, addFile]
    dsimp only
    rw [Shelf.get?_put, files_addParents, Change.file?]
    split <;> rfl
  | removeFile q =>
    rw [apply, removeFile, Shelf.get?_erase, Change.file?]
    split <;> rfl
  | addDir q =>
    rw [apply, addDir, files_putDir, files_addParents]
    rfl
  | setMount q usage =>
    rw [apply, setMount, files_putDir]
    rfl
  | removeMount q => rfl

/-- A change leaves the mount at a path alone unless it says what is there. -/
theorem mount_apply (h : MemoryHost) (c : Change) (p : Path) :
    (h.apply c).mounts.get? p = (c.mount? p).getD (h.mounts.get? p) := by
  cases c with
  | addFile q content =>
    rw [apply, addFile, mounts_addParents]
    rfl
  | removeFile q => rfl
  | addDir q =>
    rw [apply, addDir, mounts_putDir, mounts_addParents]
    rfl
  | setMount q usage =>
    rw [apply, setMount]
    dsimp only
    rw [Shelf.get?_put, mounts_putDir, Change.mount?]
    split <;> rfl
  | removeMount q =>
    rw [apply, removeMount, Shelf.get?_erase, Change.mount?]
    split <;> rfl

/-- Where a change stands among changes with one more at the end: it is that one, or stands before it. -/
theorem concat_eq_append_cons_iff {cs before after : List Change} {c d : Change} :
    cs ++ [c] = before ++ d :: after ↔
      (cs = before ∧ c = d ∧ after = []) ∨
        ∃ earlier, after = earlier ++ [c] ∧ cs = before ++ d :: earlier := by
  constructor
  · intro h
    rcases List.eq_nil_or_concat' after with rfl | ⟨earlier, e, rfl⟩
    · obtain ⟨hcs, hcd⟩ := List.append_inj' h rfl
      exact Or.inl ⟨hcs, (List.cons.inj hcd).1, rfl⟩
    · rw [← List.cons_append, ← List.append_assoc] at h
      obtain ⟨hcs, hce⟩ := List.append_inj' h rfl
      exact Or.inr ⟨earlier, by rw [(List.cons.inj hce).1], hcs⟩
  · rintro (⟨rfl, rfl, rfl⟩ | ⟨earlier, rfl, rfl⟩)
    · rfl
    · simp

/-- **A value that some changes set is as the last of these has left it.** -/
theorem eq_some_iff_of_sets {α : Type} (look : MemoryHost → Option α)
    {sets : Change → Option (Option α)}
    (hstep : ∀ h c, look (h.apply c) = (sets c).getD (look h)) {h : MemoryHost} (hnone : look h = none)
    (cs : List Change) {a : α} :
    look (h.applyAll cs) = some a ↔
      ∃ before c after, cs = before ++ c :: after ∧ sets c = some (some a) ∧
        ∀ d ∈ after, sets d = none := by
  -- from the end, since the last change that sets the value is the one that counts
  induction cs using List.reverseRecOn with
  | nil => simp [applyAll, hnone]
  | append_singleton cs c ih =>
    rw [applyAll_concat, hstep]
    simp only [concat_eq_append_cons_iff]
    cases hc : sets c with
    | none =>
      -- the change leaves the value alone: it comes after the one that sets it
      rw [Option.getD_none, ih]
      constructor
      · rintro ⟨before, d, earlier, hcs, hd, hearlier⟩
        refine ⟨before, d, earlier ++ [c], Or.inr ⟨earlier, rfl, hcs⟩, hd, fun e he => ?_⟩
        rcases List.mem_append.mp he with he | he
        · exact hearlier e he
        · rw [List.mem_singleton.mp he, hc]
      · rintro ⟨before, d, after, ⟨_, rfl, _⟩ | ⟨earlier, rfl, hcs⟩, hd, hafter⟩
        · rw [hc] at hd
          cases hd
        · exact ⟨before, d, earlier, hcs, hd, fun e he => hafter e (List.mem_append_left _ he)⟩
    | some v =>
      -- the change sets the value: no other one counts
      rw [Option.getD_some]
      constructor
      · rintro rfl
        exact ⟨cs, c, [], Or.inl ⟨rfl, rfl, rfl⟩, hc, nofun⟩
      · rintro ⟨before, d, after, ⟨_, rfl, _⟩ | ⟨earlier, rfl, _⟩, hd, hafter⟩
        · exact Option.some.inj (hc.symm.trans hd)
        · rw [hafter c (by simp)] at hc
          cases hc

/-! ## The answers

What the queries answer, in terms of the changes. The last change about a path decides, whatever spelling it
used. -/

/-- Is the change about the file at the path? -/
def Change.ConcernsFile (p : Path) : Change → Prop
  | .addFile q _ | .removeFile q => q.Same p
  | _ => False

/-- Is the change about the mount at the path? -/
def Change.ConcernsMount (p : Path) : Change → Prop
  | .setMount q _ | .removeMount q => q.Same p
  | _ => False

instance (p : Path) : (c : Change) → Decidable (c.ConcernsFile p)
  | .addFile q _ | .removeFile q => inferInstanceAs (Decidable (q.Same p))
  | .addDir _ | .setMount _ _ | .removeMount _ => inferInstanceAs (Decidable False)

instance (p : Path) : (c : Change) → Decidable (c.ConcernsMount p)
  | .setMount q _ | .removeMount q => inferInstanceAs (Decidable (q.Same p))
  | .addFile _ _ | .removeFile _ | .addDir _ => inferInstanceAs (Decidable False)

theorem file?_eq_none_iff {c : Change} {p : Path} : c.file? p = none ↔ ¬c.ConcernsFile p := by
  cases c <;> simp [Change.file?, Change.ConcernsFile]

theorem mount?_eq_none_iff {c : Change} {p : Path} : c.mount? p = none ↔ ¬c.ConcernsMount p := by
  cases c <;> simp [Change.mount?, Change.ConcernsMount]

/-- A change gives a file its content by adding it, under any spelling of its path. -/
theorem file?_eq_some_iff {c : Change} {p : Path} {content : String} :
    c.file? p = some (some content) ↔ ∃ q, c = .addFile q content ∧ q.Same p := by
  cases c <;> simp [Change.file?, and_comm]

theorem mount?_eq_some_iff {c : Change} {p : Path} {usage : Usage} :
    c.mount? p = some (some usage) ↔ ∃ q, c = .setMount q usage ∧ q.Same p := by
  cases c <;> simp [Change.mount?, and_comm]

/-- The last of the changes about a file adds it with this content. -/
def Stored (cs : List Change) (p : Path) (content : String) : Prop :=
  ∃ before q after, cs = before ++ .addFile q content :: after ∧ q.Same p ∧
    ∀ d ∈ after, ¬d.ConcernsFile p

/-- The last of the changes about a mount sets it to this usage. -/
def Mounted (cs : List Change) (p : Path) (usage : Usage) : Prop :=
  ∃ before q after, cs = before ++ .setMount q usage :: after ∧ q.Same p ∧
    ∀ d ∈ after, ¬d.ConcernsMount p

variable {cs : List Change} {p : Path}

/-- A file is on the shelf with the content that the last change about it gave it. -/
theorem get?_files_iff {content : String} :
    (empty.applyAll cs).files.get? p = some content ↔ Stored cs p content := by
  refine (eq_some_iff_of_sets (·.files.get? p) (fun h c => file_apply h c p) rfl cs).trans ?_
  -- the last change that sets the file is the last one about it
  rw [Stored]
  simp only [file?_eq_some_iff, file?_eq_none_iff]
  constructor
  · rintro ⟨before, _, after, hcs, ⟨q, rfl, hq⟩, hafter⟩
    exact ⟨before, q, after, hcs, hq, hafter⟩
  · rintro ⟨before, q, after, hcs, hq, hafter⟩
    exact ⟨before, _, after, hcs, ⟨q, rfl, hq⟩, hafter⟩

/-- A mount is on the shelf with the amounts that the last change about it gave it. -/
theorem get?_mounts_iff {usage : Usage} :
    (empty.applyAll cs).mounts.get? p = some usage ↔ Mounted cs p usage := by
  refine (eq_some_iff_of_sets (·.mounts.get? p) (fun h c => mount_apply h c p) rfl cs).trans ?_
  rw [Mounted]
  simp only [mount?_eq_some_iff, mount?_eq_none_iff]
  constructor
  · rintro ⟨before, _, after, hcs, ⟨q, rfl, hq⟩, hafter⟩
    exact ⟨before, q, after, hcs, hq, hafter⟩
  · rintro ⟨before, q, after, hcs, hq, hafter⟩
    exact ⟨before, _, after, hcs, ⟨q, rfl, hq⟩, hafter⟩

theorem view_read_eq_ok_iff {h : MemoryHost} {content : String} :
    h.view.read p = .ok content ↔ h.files.get? p = some content := by
  dsimp only [view]
  cases h.files.get? p <;> simp

/-- **A file is read as it was last stored.** -/
theorem read_eq_ok_iff {content : String} :
    (empty.applyAll cs).view.read p = .ok content ↔ Stored cs p content := by
  rw [view_read_eq_ok_iff, get?_files_iff]

/-- A file that is not stored cannot be read, and the fault quotes the path as it was asked for. -/
theorem read_eq_error_iff {f : HostFault} :
    (empty.applyAll cs).view.read p = .error f ↔
      (∀ content, ¬Stored cs p content) ∧ f = .noStoredFile p.text := by
  simp only [← get?_files_iff]
  dsimp only [view]
  cases (empty.applyAll cs).files.get? p <;> simp [eq_comm]

/-- **A mount is as it was last set.** -/
theorem usage_eq_ok_iff {usage : Usage} :
    (empty.applyAll cs).view.usage p = .ok usage ↔ Mounted cs p usage := by
  rw [← get?_mounts_iff]
  dsimp only [view]
  cases (empty.applyAll cs).mounts.get? p <;> simp

/-- A mount that is not set has no amounts, and the fault quotes the path as it was asked for. -/
theorem usage_eq_error_iff {f : HostFault} :
    (empty.applyAll cs).view.usage p = .error f ↔
      (∀ usage, ¬Mounted cs p usage) ∧ f = .noStoredMount p.text := by
  simp only [← get?_mounts_iff]
  dsimp only [view]
  cases (empty.applyAll cs).mounts.get? p <;> simp [eq_comm]

/-- **A path is there if it is a stored file or a directory that some change made.** -/
theorem has_iff :
    (empty.applyAll cs).view.has p = true ↔
      (∃ content, Stored cs p content) ∨ ∃ c ∈ cs, c.Makes p := by
  have hempty : ¬empty.directories.has p = true := nofun
  have hfiles : (empty.applyAll cs).files.has p = true ↔ ∃ content, Stored cs p content := by
    simp only [Shelf.has_eq_isSome, Option.isSome_iff_exists, get?_files_iff]
  show (_ || _) = true ↔ _
  rw [Bool.or_eq_true, hfiles, has_directory_iff, or_iff_left hempty]

end MemoryHost

end HostMeter
