import HostMeter.Proofs.Host.Tree
import Mathlib.Data.List.Nodup
/-!
# Listings — each path once

A host in memory keeps its files and its directories on two shelves, under the spelling in which each was
first put there, and a path may be on both. A shelf never has two spellings of one path, whatever changes
are made, and a listing takes a directory only where no file has its path; so a listing has every path that
belongs to it, and has it once. Taking a file away takes it out of the listing, unless it is a directory
too.

* `Shelf.Distinct`: no path is on the shelf twice; `Shelf.map_place_putEntry`: what is put there.
* `MemoryHost.Distinct`, `MemoryHost.distinct_apply`, `MemoryHost.distinct_applyAll`: the invariant, one
  change, and all changes.
* `MemoryHost.pairwise_children`: a listing has no path twice.
* `MemoryHost.lists_removeFile_iff`: the listings after a file has been taken away.
* `MemoryHost.listing_of_changes`: the law.
-/

namespace HostMeter

/-! ## Shelves -/

namespace Shelf

variable {α : Type}

/-- No path is on the shelf twice, in whatever spellings. -/
def Distinct (s : Shelf α) : Prop := (s.map Entry.place).Nodup

/-- An entry takes the place of the one that is there, or comes last. -/
theorem map_place_putEntry (s : Shelf α) (new : Entry α) :
    (s.putEntry new).map Entry.place =
      if new.place ∈ s.map Entry.place then s.map Entry.place else s.map Entry.place ++ [new.place] := by
  induction s with
  | nil => rfl
  | cons e rest ih =>
    rw [putEntry, List.map_cons]
    by_cases he : e.place = new.place
    · rw [if_pos he, if_pos (List.mem_cons.mpr (Or.inl he.symm)), List.map_cons]
    · rw [if_neg he, List.map_cons, ih]
      by_cases hrest : new.place ∈ rest.map Entry.place
      · rw [if_pos hrest, if_pos (List.mem_cons_of_mem _ hrest)]
      · have hnone : new.place ∉ e.place :: rest.map Entry.place := by
          rw [List.mem_cons, not_or]
          exact ⟨Ne.symm he, hrest⟩
        rw [if_neg hrest, if_neg hnone, List.cons_append]

variable {s : Shelf α}

/-- Putting something on a shelf keeps each path there once. -/
theorem Distinct.put (h : s.Distinct) (p : Path) (a : α) : (s.put p a).Distinct := by
  rw [Distinct, Shelf.put, map_place_putEntry]
  split
  · exact h
  · next hnew =>
    refine List.nodup_append.mpr ⟨h, List.nodup_singleton _, fun place hplace place' hplace' => ?_⟩
    rw [List.mem_singleton.mp hplace']
    exact ne_of_mem_of_not_mem hplace hnew

theorem Distinct.filter (h : s.Distinct) (f : Entry α → Bool) : Distinct (s.filter f) :=
  List.Nodup.sublist (List.filter_sublist.map _) h

theorem Distinct.erase (h : s.Distinct) (p : Path) : (s.erase p).Distinct := h.filter _

/-- On such a shelf no two entries have spellings of one path. -/
theorem Distinct.pairwise_paths (h : s.Distinct) : s.paths.Pairwise fun p q => ¬p.Same q := by
  have hplaces : s.Pairwise fun e e' => e.place ≠ e'.place := List.pairwise_map.mp h
  refine List.pairwise_map.mpr (hplaces.imp fun {e e'} hne hsame => hne ?_)
  rw [e'.place_eq, Entry.place_eq_iff]
  exact hsame

theorem has_iff_paths {p : Path} : s.has p = true ↔ ∃ q ∈ s.paths, q.Same p := by
  rw [has_iff, paths]
  simp

/-- What is taken off a shelf is gone, under all its spellings, and nothing else is. -/
theorem has_erase_iff {p q : Path} : (s.erase p).has q = true ↔ s.has q = true ∧ ¬p.Same q := by
  rw [has_eq_isSome, has_eq_isSome, get?_erase]
  by_cases h : p.Same q <;> simp [h]

end Shelf

namespace MemoryHost

/-! ## The invariant

A path is put on a shelf in the place of its other spellings. So no change can bring a path onto a shelf
twice, and the invariant is kept by one change at a time. -/

/-- No shelf of the host has a path twice. -/
structure Distinct (h : MemoryHost) : Prop where
  files : h.files.Distinct
  directories : h.directories.Distinct
  mounts : h.mounts.Distinct

theorem distinct_empty : empty.Distinct := ⟨List.nodup_nil, List.nodup_nil, List.nodup_nil⟩

variable {h : MemoryHost}

/-- Making a directory keeps each path once. -/
theorem Distinct.putDir (hh : h.Distinct) (p : Path) : (h.putDir p).Distinct := by
  unfold MemoryHost.putDir
  split
  · exact hh
  · exact ⟨hh.files, hh.directories.put p (), hh.mounts⟩

/-- Making the directories above a path keeps each path once. -/
theorem Distinct.addParents (hh : h.Distinct) (p : Path) : (h.addParents p).Distinct := by
  unfold MemoryHost.addParents
  generalize (ancestors p).filter (fun q => !q.text.isEmpty) = ps
  -- each parent is made in turn, and each of them keeps the invariant
  induction ps generalizing h with
  | nil => exact hh
  | cons q ps ih => exact ih (hh.putDir q)

/-- One change keeps each path once. -/
theorem distinct_apply (hh : h.Distinct) (c : Change) : (h.apply c).Distinct := by
  cases c with
  | addFile p content =>
    have hparents := hh.addParents p
    exact ⟨hparents.files.put p content, hparents.directories, hparents.mounts⟩
  | removeFile p => exact ⟨hh.files.erase p, hh.directories, hh.mounts⟩
  | addDir p => exact (hh.addParents p).putDir p
  | setMount p usage =>
    have hdir := hh.putDir p
    exact ⟨hdir.files, hdir.directories, hdir.mounts.put p usage⟩
  | removeMount p => exact ⟨hh.files, hh.directories, hh.mounts.erase p⟩

/-- **All changes keep each path once.** -/
theorem distinct_applyAll (hh : h.Distinct) (cs : List Change) : (h.applyAll cs).Distinct := by
  induction cs generalizing h with
  | nil => exact hh
  | cons c cs ih => exact ih (distinct_apply hh c)

/-! ## Listings

A listing takes files and directories together, where a path may be both. It leaves out the directory then,
so that each path stands there once. -/

variable {d p q : Path}

/-- **A listing has no path twice**, although the path may be that of a file and of a directory. -/
theorem pairwise_children (hh : h.Distinct) (d : Path) : (h.children d).Pairwise fun p q => ¬p.Same q := by
  -- within the files and within the directories the shelves see to it; between the two the listing does
  refine List.pairwise_append.mpr ⟨(hh.files.filter _).pairwise_paths, (hh.directories.filter _).pairwise_paths, ?_⟩
  intro p hp q hq hsame
  obtain ⟨f, hf, rfl⟩ := List.mem_map.mp hp
  obtain ⟨e, he, rfl⟩ := List.mem_map.mp hq
  -- the directory is listed since no listed file has its path
  obtain ⟨_, hkept⟩ := List.mem_filter.mp he
  rw [Bool.and_eq_true, Shelf.entryAt?, Option.isNone_iff_eq_none, List.find?_eq_none] at hkept
  refine hkept.2 f hf ?_
  rw [decide_eq_true_iff, e.place_eq, f.place_eq_iff]
  exact hsame

/-- A listing is the sorted children of a stored directory. -/
theorem entries_eq_ok_iff {entries : List Path} :
    h.view.entries d = .ok entries ↔
      h.directories.has d = true ∧ (h.children d).mergeSort Path.le = entries := by
  dsimp only [view]
  split
  · next hdir => simp [hdir]
  · next hdir => simp [hdir]

/-- **A path has a listing just if it is a stored directory**, under any spelling. -/
theorem exists_entries_iff :
    (∃ entries, h.view.entries d = .ok entries) ↔ ∃ q ∈ h.directories.paths, q.Same d := by
  simp only [entries_eq_ok_iff, exists_and_left, exists_eq', and_true, Shelf.has_iff_paths]

/-- What is listed is there and has the directory as its parent. -/
theorem mem_entries_of_ok {entries : List Path} (hok : h.view.entries d = .ok entries) (hp : p ∈ entries) :
    h.view.has p = true ∧ ∃ r, p.parent? = some r ∧ r.Same d := by
  obtain ⟨_, rfl⟩ := entries_eq_ok_iff.mp hok
  exact exists_mem_children_iff.mp ⟨p, List.mem_mergeSort.mp hp, .refl p⟩

/-- What is there and has the directory as its parent is listed, under some spelling. -/
theorem exists_mem_entries_of_ok {entries : List Path} (hok : h.view.entries d = .ok entries)
    (hp : h.view.has p = true) {r : Path} (hr : p.parent? = some r) (hsame : r.Same d) :
    ∃ e ∈ entries, e.Same p := by
  obtain ⟨_, rfl⟩ := entries_eq_ok_iff.mp hok
  obtain ⟨e, he, hep⟩ := exists_mem_children_iff.mpr ⟨hp, r, hr, hsame⟩
  exact ⟨e, List.mem_mergeSort.mpr he, hep⟩

/-- Sorting does not bring a path into a listing twice. -/
theorem pairwise_entries_of_ok {entries : List Path} (hh : h.Distinct) (hok : h.view.entries d = .ok entries) :
    entries.Pairwise fun p q => ¬p.Same q := by
  obtain ⟨_, rfl⟩ := entries_eq_ok_iff.mp hok
  have hsymm : ∀ {p q : Path}, ¬p.Same q → ¬q.Same p := fun hpq hqp => hpq hqp.symm
  exact ((List.mergeSort_perm (h.children d) Path.le).pairwise_iff hsymm).mpr (pairwise_children hh d)

/-! ## A file is taken away -/

/-- A path is still there after a file was taken away if it is another file, or a directory. -/
theorem has_view_removeFile_iff :
    (h.removeFile p).view.has q = true ↔ (h.files.has q = true ∧ ¬p.Same q) ∨ h.directories.has q = true := by
  rw [has_view_iff, ← Shelf.has_erase_iff]
  rfl

/-- A file that is taken away is in no listing any more unless it is a directory too, and all else is where it
was. -/
theorem lists_removeFile_iff :
    (h.removeFile p).view.Lists d q ↔ h.view.Lists d q ∧ (p.Same q → h.directories.has q = true) := by
  have hthere : (h.removeFile p).view.has q = true ↔
      h.view.has q = true ∧ (p.Same q → h.directories.has q = true) := by
    rw [has_view_removeFile_iff, has_view_iff]
    tauto
  rw [lists_iff, lists_iff, hthere]
  show h.directories.has d = true ∧ _ ∧ _ ↔ _
  tauto

/-! ## The law -/

/-- **The law of the listings.** After any changes to a host in memory, and for any path `d`:

* `d` is listed exactly if it is a spelling of a stored directory.
* What is listed is there and has `d` as its parent, every path that is there and has this parent is
  listed, and no path is listed twice.
* If a file is then taken away, its path is listed exactly where it was listed before and is a directory
  too. All other paths are listed where they were. -/
theorem listing_of_changes (cs : List Change) (d : Path) :
    let h := empty.applyAll cs
    ((∃ entries, h.view.entries d = .ok entries) ↔ ∃ q ∈ h.directories.paths, q.Same d) ∧
    (∀ entries, h.view.entries d = .ok entries →
      (∀ e ∈ entries, h.view.has e = true ∧ ∃ r, e.parent? = some r ∧ r.Same d) ∧
      (∀ p r, h.view.has p = true → p.parent? = some r → r.Same d → ∃ e ∈ entries, e.Same p) ∧
      entries.Pairwise fun p q => ¬p.Same q) ∧
    ∀ p, let v := (empty.applyAll (cs ++ [.removeFile p])).view
      (v.Lists d p ↔ h.view.Lists d p ∧ ∃ q ∈ h.directories.paths, q.Same p) ∧
      ∀ q, ¬p.Same q → (v.Lists d q ↔ h.view.Lists d q) := by
  intro h
  have hdistinct : h.Distinct := distinct_applyAll distinct_empty cs
  refine ⟨exists_entries_iff, fun entries hok => ⟨fun e => mem_entries_of_ok hok,
    fun p r hp hr hsame => exists_mem_entries_of_ok hok hp hr hsame, pairwise_entries_of_ok hdistinct hok⟩,
    fun p => ?_⟩
  intro v
  have hv : v = (h.removeFile p).view := congrArg view (applyAll_concat empty cs (.removeFile p))
  rw [hv]
  refine ⟨?_, fun q hq => ?_⟩
  · rw [lists_removeFile_iff, ← Shelf.has_iff_paths]
    exact and_congr_right fun _ => ⟨fun hdir => hdir (.refl p), fun hdir _ => hdir⟩
  · rw [lists_removeFile_iff]
    exact and_iff_left fun hsame => absurd hsame hq

/-- A directory with a path that is a file and a directory, in three spellings, and with another file. Both
are listed, and no path is listed twice. When both files are taken away, only the directory is left. -/
theorem listing_of_changes_spellings :
    let cs : List Change :=
      [.addFile ⟨"/d/x"⟩ "1", .addDir ⟨"/d//x/"⟩, .addFile ⟨"//d/./x"⟩ "2", .addFile ⟨"/d/y"⟩ "3"]
    let h := empty.applyAll cs
    (∃ entries, h.view.entries ⟨"/d/."⟩ = .ok entries ∧ (∃ e ∈ entries, e.Same ⟨"/d/x/"⟩) ∧
      (∃ e ∈ entries, e.Same ⟨"/d//y"⟩) ∧ entries.Pairwise fun p q => ¬p.Same q) ∧
    (empty.applyAll (cs ++ [.removeFile ⟨"/d/x/"⟩])).view.Lists ⟨"/d/."⟩ ⟨"/d/x/"⟩ ∧
    ¬(empty.applyAll (cs ++ [.removeFile ⟨"/d//y"⟩])).view.Lists ⟨"/d/."⟩ ⟨"/d//y"⟩ := by
  intro cs h
  obtain ⟨hlisted, hentries, hremoved⟩ := listing_of_changes cs ⟨"/d/."⟩
  obtain ⟨entries, hok⟩ := hlisted.mpr ⟨⟨"/d"⟩, by decide +kernel, by decide +kernel⟩
  obtain ⟨_, hall, hpairwise⟩ := hentries entries hok
  have hx : ∃ e ∈ entries, e.Same ⟨"/d/x/"⟩ :=
    hall ⟨"/d/x/"⟩ ⟨"/d"⟩ (by decide +kernel) (by decide +kernel) (by decide +kernel)
  have hy : ∃ e ∈ entries, e.Same ⟨"/d//y"⟩ :=
    hall ⟨"/d//y"⟩ ⟨"/d"⟩ (by decide +kernel) (by decide +kernel) (by decide +kernel)
  refine ⟨⟨entries, hok, hx, hy, hpairwise⟩, (hremoved _).1.mpr ⟨⟨entries, hok, hx⟩, ?_⟩, fun hlists => ?_⟩
  · decide +kernel
  · exact absurd ((hremoved _).1.mp hlists).2 (by decide +kernel)

end MemoryHost

end HostMeter
