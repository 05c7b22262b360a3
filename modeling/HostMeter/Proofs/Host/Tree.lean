import HostMeter.Host.Scenario
import HostMeter.Proofs.Host.Respelling
/-!
# Tree — which hosts in memory are trees

A host is a tree if each path on it is listed by the path above it. A host in memory keeps its
directories as a set, so it is a tree only as far as the changes have made the directories above what
they put there. Adding a file or a directory makes them all. Setting a mount makes the directory of the
mount alone: so a mount whose parent no change has made is there but in no listing, and such mounts are
the only way to lose the tree.

* `HostView.Lists`, `HostView.IsTree`: listings and trees, in terms of the answers of a host.
* `MemoryHost.exists_mem_children_iff`: a listing has the paths that are there and have this parent.
* `MemoryHost.makes_parent_of_makes`: all changes but the setting of a mount make the parent too.
* `MemoryHost.tree_of_changes`: when the host is a tree.
-/

namespace HostMeter

/-- Does the listing of the directory `q` have the path `p`? -/
def HostView.Lists (v : HostView) (q p : Path) : Prop :=
  ∃ entries, v.entries q = .ok entries ∧ ∃ e ∈ entries, e.Same p

/-- Each path that is there is listed by its parent, unless that is the empty path. -/
def HostView.IsTree (v : HostView) : Prop :=
  ∀ p q, v.has p = true → p.parent? = some q → q.text ≠ "" → v.has q = true ∧ v.Lists q p

namespace Shelf

variable {α : Type}

theorem has_iff {s : Shelf α} {p : Path} : s.has p = true ↔ ∃ e ∈ s, e.path.Same p := by
  rw [has, entryAt?, List.find?_isSome]
  simp only [decide_eq_true_eq, Entry.place_eq_iff]

end Shelf

namespace MemoryHost

/-! ## Listings

A listing is told by what is there and by parents. That a directory may be left out of it, where a file has
the same path, does not show: the file is listed then. -/

variable {h : MemoryHost} {p q : Path}

/-- A path is a child of a directory if the path above it is a spelling of that directory. -/
theorem isChild_iff {dir : Path} : isChild dir.place p = true ↔ ∃ r, p.parent? = some r ∧ r.Same dir := by
  unfold isChild
  cases p.parent? with
  | none => simp
  | some r => simp [Path.same_iff_place_eq]

/-- A path is not its own parent. -/
theorem place_ne_of_isChild {dir : Path} (hchild : isChild dir.place p = true) : p.place ≠ dir.place := by
  obtain ⟨r, hr, hsame⟩ := isChild_iff.mp hchild
  have hparent := p.parent?_cases
  rw [hr] at hparent
  intro hplace
  have hcomponents : r.components = p.components :=
    Path.Same.trans hsame (Path.same_iff_place_eq.mpr hplace).symm
  cases hparent with
  | child hq hne _ =>
    have hlength := congrArg List.length (hq.symm.trans hcomponents)
    rw [List.length_dropLast] at hlength
    exact hne (List.length_eq_zero_iff.mp (by omega))

theorem has_view_iff : h.view.has p = true ↔ h.files.has p = true ∨ h.directories.has p = true :=
  Bool.or_eq_true_iff

/-- **A listing has the paths that are there and have this parent**, each under some spelling. -/
theorem exists_mem_children_iff :
    (∃ e ∈ h.children q, e.Same p) ↔
      h.view.has p = true ∧ ∃ r, p.parent? = some r ∧ r.Same q := by
  rw [← isChild_iff, has_view_iff, Shelf.has_iff, Shelf.has_iff]
  constructor
  · rintro ⟨_, hmem, hsame⟩
    rcases List.mem_append.mp hmem with hmem | hmem
    · obtain ⟨e, he, rfl⟩ := List.mem_map.mp hmem
      obtain ⟨he, hchild⟩ := List.mem_filter.mp he
      exact ⟨Or.inl ⟨e, he, hsame⟩, isChild_congr hsame ▸ hchild⟩
    · obtain ⟨e, he, rfl⟩ := List.mem_map.mp hmem
      obtain ⟨he, hkept⟩ := List.mem_filter.mp he
      simp only [Bool.and_eq_true] at hkept
      exact ⟨Or.inr ⟨e, he, hsame⟩, isChild_congr hsame ▸ hkept.1.1⟩
  · rintro ⟨hthere, hchild⟩
    -- a directory is left out of the listing only for a file of the same path
    let files : Shelf String := h.files.filter fun e => isChild q.place e.path
    have hfile : ∀ e ∈ files, e.path.Same p → ∃ e ∈ h.children q, e.Same p := fun e he hsame =>
      ⟨e.path, List.mem_append_left _ (List.mem_map_of_mem he), hsame⟩
    rcases hthere with ⟨e, he, hsame⟩ | ⟨e, he, hsame⟩
    · exact hfile e (List.mem_filter.mpr ⟨he, isChild_congr hsame ▸ hchild⟩) hsame
    · have hchild' : isChild q.place e.path = true := isChild_congr hsame ▸ hchild
      cases hlisted : files.entryAt? e.place with
      | some f =>
        have hf : f.path.Same e.path :=
          (f.place_eq_iff e.path).mp (by simpa [e.place_eq] using List.find?_some hlisted)
        exact hfile f (List.mem_of_find?_eq_some hlisted) (hf.trans hsame)
      | none =>
        refine ⟨e.path, List.mem_append_right _ (List.mem_map_of_mem (List.mem_filter.mpr ⟨he, ?_⟩)), hsame⟩
        have hplace : e.place ≠ q.place := e.place_eq ▸ place_ne_of_isChild hchild'
        simpa [hchild', hplace] using hlisted

/-- **A directory lists what is there and has it as its parent.** -/
theorem lists_iff :
    h.view.Lists q p ↔ h.directories.has q = true ∧ h.view.has p = true ∧ ∃ r, p.parent? = some r ∧ r.Same q := by
  rw [← exists_mem_children_iff, HostView.Lists]
  dsimp only [view]
  split
  · next hdir => simp [hdir]
  · next hdir => simp [hdir]

/-- The parent of a path that is there lists it just if it is a directory. -/
theorem lists_parent_iff (hp : h.view.has p = true) (hq : p.parent? = some q) :
    h.view.has q = true ∧ h.view.Lists q p ↔ h.directories.has q = true := by
  rw [lists_iff, has_view_iff]
  constructor
  · exact fun hlists => hlists.2.1
  · exact fun hdir => ⟨Or.inr hdir, hdir, hp, q, hq, .refl q⟩

/-- A directory is there if some change has made it. -/
theorem has_directory_of_changes {cs : List Change} :
    (empty.applyAll cs).directories.has p = true ↔ ∃ c ∈ cs, c.Makes p := by
  rw [has_directory_iff]
  exact or_iff_left nofun

/-! ## Which changes make the parent

Files and directories are put on a host together with all directories above them. A mount is put there with
its own directory alone. -/

/-- Is the change the setting of a mount? -/
def Change.IsMount : Change → Prop
  | .setMount _ _ => True
  | _ => False

/-- A change other than the setting of a mount makes the directories above those it makes. -/
theorem makes_parent_of_makes {c : Change} (hc : c.Makes p) (hmount : ¬c.IsMount)
    (hq : p.parent? = some q) (hne : q.text ≠ "") : c.Makes q := by
  have habove : q.Above p := Path.above_of_parent? hq hne
  cases c with
  | addFile r content => exact habove.trans hc
  | addDir r =>
    rcases hc with hsame | hc
    · exact Or.inr (habove.of_same hsame.symm)
    · exact Or.inr (habove.trans hc)
  | setMount r usage => exact absurd trivial hmount
  | removeFile r => exact hc.elim
  | removeMount r => exact hc.elim

variable {cs : List Change}

/-- A file that is there was added together with the directories above it. -/
theorem exists_makes_parent_of_stored {content : String} (h : Stored cs p content)
    (hq : p.parent? = some q) (hne : q.text ≠ "") : ∃ c ∈ cs, c.Makes q := by
  obtain ⟨before, r, after, rfl, hr, _⟩ := h
  exact ⟨.addFile r content, by simp, (Path.above_of_parent? hq hne).of_same hr.symm⟩

/-- Whether a parent has been made does not depend on how the path is spelt. -/
theorem exists_makes_parent_of_same {r : Path} (hr : r.Same p) (hq : p.parent? = some q) (hne : q.text ≠ "")
    (hmade : ∀ q', r.parent? = some q' → q'.text ≠ "" → ∃ c ∈ cs, c.Makes q') : ∃ c ∈ cs, c.Makes q := by
  have hparents := Path.parent?_congr hr
  rw [hq, Option.map_some, Option.map_eq_some_iff] at hparents
  obtain ⟨q', hq', hsame⟩ := hparents
  have hne' : q'.text ≠ "" := by
    rw [Ne, ← Path.components_eq_nil_iff, hsame, Path.components_eq_nil_iff]
    exact hne
  rw [← has_directory_of_changes, ← Shelf.has_of_same (show q'.Same q from hsame), has_directory_of_changes]
  exact hmade q' hq' hne'

/-! ## The law

The parent of a path that is there lists it just if it is a directory, so a tree is lost where a parent was
not made. Only the setting of a mount leaves it unmade. -/

/-- **A host in memory is a tree but for its mounts.** After any changes, a path that is there is listed
by its parent exactly if some change has made the parent. That is so for each file, and for each
directory that something other than the setting of a mount has made; so the host is a tree exactly if the
parents of all mounts that were ever set have been made. What a `Scenario` sets is a list of such changes
too. -/
theorem tree_of_changes (cs : List Change) :
    let v := (empty.applyAll cs).view
    (∀ p q, v.has p = true → p.parent? = some q →
      (v.has q = true ∧ v.Lists q p ↔ ∃ c ∈ cs, c.Makes q)) ∧
    (∀ p q, (∃ content, v.read p = .ok content) ∨ (∃ c ∈ cs, c.Makes p ∧ ¬c.IsMount) →
      p.parent? = some q → q.text ≠ "" → v.has q = true ∧ v.Lists q p) ∧
    (v.IsTree ↔
      ∀ p usage q, .setMount p usage ∈ cs → p.parent? = some q → q.text ≠ "" → ∃ c ∈ cs, c.Makes q) := by
  intro v
  have hlisted : ∀ p q, v.has p = true → p.parent? = some q →
      (v.has q = true ∧ v.Lists q p ↔ ∃ c ∈ cs, c.Makes q) :=
    fun p q hp hq => (lists_parent_iff hp hq).trans has_directory_of_changes
  refine ⟨hlisted, ?_, ?_, ?_⟩
  · rintro p q (⟨content, hread⟩ | ⟨c, hc, hmakes, hmount⟩) hq hne
    · have hstored := read_eq_ok_iff.mp hread
      exact (hlisted p q (has_iff.mpr (Or.inl ⟨content, hstored⟩)) hq).mpr
        (exists_makes_parent_of_stored hstored hq hne)
    · exact (hlisted p q (has_iff.mpr (Or.inr ⟨c, hc, hmakes⟩)) hq).mpr
        ⟨c, hc, makes_parent_of_makes hmakes hmount hq hne⟩
  · intro htree p usage q hmem hq hne
    have hp : v.has p = true := has_iff.mpr (Or.inr ⟨_, hmem, Path.Same.refl p⟩)
    exact (hlisted p q hp hq).mp (htree p q hp hq hne)
  · intro hmounts p q hp hq hne
    refine (hlisted p q hp hq).mpr ?_
    rcases has_iff.mp hp with ⟨content, hstored⟩ | ⟨c, hc, hmakes⟩
    · exact exists_makes_parent_of_stored hstored hq hne
    · by_cases hmount : c.IsMount
      · -- the only change that does not make the parent itself
        cases c with
        | setMount r usage => exact exists_makes_parent_of_same hmakes hq hne fun q' => hmounts r usage q' hc
        | addFile r content => exact hmount.elim
        | removeFile r => exact hmount.elim
        | addDir r => exact hmount.elim
        | removeMount r => exact hmount.elim
      · exact ⟨c, hc, makes_parent_of_makes hmakes hmount hq hne⟩

/-- The laptop is a tree: its only mount is at the root, which has no parent. -/
theorem tree_of_laptop : Scenario.laptop.view.IsTree := by
  refine (tree_of_changes _).2.2.mpr fun p usage q hmem hq _ => ?_
  simp only [Scenario.setProcessor, Scenario.setMemory, Scenario.setInterfaces, Scenario.setBattery,
    List.mem_append, List.mem_cons, List.not_mem_nil, or_false, reduceCtorEq, false_or,
    Change.setMount.injEq] at hmem
  rw [hmem.1] at hq
  cases hq

/-- A mount below a directory that nothing has made is there and in no listing. -/
theorem mount_outside_tree :
    let v := (empty.applyAll [.setMount ⟨"/mnt/data"⟩ ⟨9, 5, 4⟩]).view
    v.has ⟨"/mnt/data"⟩ = true ∧ (Path.mk "/mnt/data").parent? = some ⟨"/mnt"⟩ ∧ v.has ⟨"/mnt"⟩ = false ∧
      v.entries ⟨"/mnt"⟩ = .error (.noStoredDirectory "/mnt") ∧ ¬v.IsTree := by
  intro v
  have hparent : (Path.mk "/mnt/data").parent? = some ⟨"/mnt"⟩ := by decide
  have hthere : v.has ⟨"/mnt/data"⟩ = true := by decide
  have hmissing : v.has ⟨"/mnt"⟩ = false := by decide
  refine ⟨hthere, hparent, hmissing, by rfl, fun htree => ?_⟩
  have hfound := (htree _ _ hthere hparent (by decide)).1
  rw [hmissing] at hfound
  cases hfound

end MemoryHost

end HostMeter
