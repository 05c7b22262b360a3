import HostMeter.Proofs.Host.History
import HostMeter.Proofs.Path.Respelling
import Mathlib.Data.List.Forall2
/-!
# Respelling — what a host in memory makes of spellings

Two hosts in memory are alike if their shelves hold the same values under spellings of the same paths, in
the same order. Changes whose paths are respelt keep them alike, and alike hosts answer queries about
respelt paths alike: the same contents, amounts and truth values, the same classes of faults, and
listings that differ in their spelling only.

* `MemoryHost.Alike`, `MemoryHost.Change.Respelt`: hosts and changes up to spelling.
* `MemoryHost.Alike.apply`, `MemoryHost.Alike.applyAll`: changes keep hosts alike.
* `HostView.AnswersAlike`, `MemoryHost.Alike.answers`: alike hosts answer alike.
-/

namespace HostMeter

/-! ## Shelves

Shelves are lists, and two of them are alike if they are so entry by entry. What is done to a shelf looks at
the places of its entries and not at how their paths are spelt, so it does the same to both. -/

namespace Shelf

variable {α : Type}

/-- The two entries hold the same value under spellings of one path. -/
def Entry.Alike (e e' : Entry α) : Prop := e.place = e'.place ∧ e.value = e'.value

/-- The two shelves hold the same values in the same order, under spellings of the same paths. -/
def Alike (s s' : Shelf α) : Prop := List.Forall₂ Entry.Alike s s'

variable {s s' : Shelf α} {p p' : Path}

theorem Alike.entryAt?_eq (h : s.Alike s') (place : Path.Place) :
    (s.entryAt? place).map Entry.value = (s'.entryAt? place).map Entry.value := by
  induction h with
  | nil => rfl
  | @cons e e' s s' he _ ih =>
    rw [entryAt?, entryAt?, List.find?_cons, List.find?_cons, ← he.1]
    split
    · exact congrArg some he.2
    · exact ih

theorem Alike.get?_eq (h : s.Alike s') (hp : p.Same p') : s.get? p = s'.get? p' := by
  rw [get?, get?, ← Path.same_iff_place_eq.mp hp, h.entryAt?_eq]

theorem Alike.has_eq (h : s.Alike s') (hp : p.Same p') : s.has p = s'.has p' := by
  rw [has_eq_isSome, has_eq_isSome, h.get?_eq hp]

/-- Alike entries replace alike entries, and where there is none to replace they come last. -/
theorem Alike.putEntry (h : s.Alike s') {new new' : Entry α} (hnew : new.Alike new') :
    (s.putEntry new).Alike (s'.putEntry new') := by
  induction h with
  | nil => exact .cons hnew .nil
  | @cons e e' s s' he hs ih =>
    rw [Shelf.putEntry, Shelf.putEntry]
    -- an entry is replaced on both shelves or on neither
    by_cases hmeets : e.place = new.place
    · have hmeets' : e'.place = new'.place := he.1.symm.trans (hmeets.trans hnew.1)
      rw [if_pos hmeets, if_pos hmeets']
      exact .cons ⟨he.1, hnew.2⟩ hs
    · have hmeets' : ¬e'.place = new'.place := fun h => hmeets (he.1.trans (h.trans hnew.1.symm))
      rw [if_neg hmeets, if_neg hmeets']
      exact .cons he ih

theorem Alike.put (h : s.Alike s') (hp : p.Same p') (a : α) : (s.put p a).Alike (s'.put p' a) :=
  h.putEntry ⟨Path.same_iff_place_eq.mp hp, rfl⟩

theorem Alike.filter (h : s.Alike s') {f g : Entry α → Bool}
    (hfg : ∀ e e', e.Alike e' → f e = g e') : Alike (s.filter f) (s'.filter g) :=
  List.rel_filter (fun e e' he => iff_of_eq (congrArg (· = true) (hfg e e' he))) h

theorem Alike.erase (h : s.Alike s') (hp : p.Same p') : (s.erase p).Alike (s'.erase p') :=
  h.filter fun e e' he => by rw [he.1, Path.same_iff_place_eq.mp hp]

/-- The paths on alike shelves differ in their spelling only. -/
theorem Alike.map_components_paths (h : s.Alike s') :
    s.paths.map Path.components = s'.paths.map Path.components := by
  induction h with
  | nil => rfl
  | @cons e e' s s' he _ ih =>
    have hsame : e.path.Same e'.path :=
      Path.same_iff_place_eq.mpr (e.place_eq.symm.trans (he.1.trans e'.place_eq))
    exact List.cons_eq_cons.mpr ⟨hsame, ih⟩

end Shelf

namespace MemoryHost

/-! ## Hosts and changes

A change with another spelling of its path takes alike hosts to alike hosts. For the directories above a
path this needs an induction of its own: the spellings have as many components but may be longer. -/

/-- The two hosts hold the same under spellings of the same paths. -/
structure Alike (h h' : MemoryHost) : Prop where
  files : h.files.Alike h'.files
  directories : h.directories.Alike h'.directories
  mounts : h.mounts.Alike h'.mounts

theorem Alike.refl_empty : empty.Alike empty := ⟨.nil, .nil, .nil⟩

/-- The two changes are the same but for the spelling of their path. -/
inductive Change.Respelt : Change → Change → Prop where
  | addFile {p p' : Path} (h : p.Respelt p') (content : String) :
      Respelt (.addFile p content) (.addFile p' content)
  | removeFile {p p' : Path} (h : p.Respelt p') : Respelt (.removeFile p) (.removeFile p')
  | addDir {p p' : Path} (h : p.Respelt p') : Respelt (.addDir p) (.addDir p')
  | setMount {p p' : Path} (h : p.Respelt p') (usage : Usage) :
      Respelt (.setMount p usage) (.setMount p' usage)
  | removeMount {p p' : Path} (h : p.Respelt p') : Respelt (.removeMount p) (.removeMount p')

variable {h h' : MemoryHost} {p p' : Path}

/-- A directory is made on both hosts or is there on both. -/
theorem Alike.putDir (hh : h.Alike h') (hp : p.Same p') : (h.putDir p).Alike (h'.putDir p') := by
  unfold MemoryHost.putDir
  rw [← hh.directories.has_eq hp]
  -- the directory is there, or it is put on both shelves
  split
  · exact hh
  · exact ⟨hh.files, hh.directories.put hp (), hh.mounts⟩

/-- A path with no components has nothing above it. -/
theorem ancestorsUpTo_eq_nil {fuel : Nat} (h : p.components = []) : ancestorsUpTo fuel p = [] := by
  cases fuel with
  | zero => rfl
  | succ fuel =>
    have hparent := p.parent?_cases
    rw [ancestorsUpTo]
    revert hparent
    generalize p.parent? = q
    intro hparent
    cases hparent with
    | orphan => rfl
    | child _ hne _ => exact absurd h hne

/-- However much fuel there is beyond what is needed, the ancestors are the same. -/
theorem ancestorsUpTo_same {fuel fuel' : Nat} (hp : p.Same p') (hfuel : p.components.length ≤ fuel)
    (hfuel' : p'.components.length ≤ fuel') :
    List.Forall₂ Path.Same (ancestorsUpTo fuel p) (ancestorsUpTo fuel' p') := by
  have hsame : p.components = p'.components := hp
  induction fuel generalizing p p' fuel' with
  | zero =>
    have hnil : p.components = [] := List.length_eq_zero_iff.mp (Nat.le_zero.mp hfuel)
    rw [ancestorsUpTo_eq_nil hnil, ancestorsUpTo_eq_nil (hsame ▸ hnil)]
    exact .nil
  | succ fuel ih =>
    cases fuel' with
    | zero =>
      have hnil : p'.components = [] := List.length_eq_zero_iff.mp (Nat.le_zero.mp hfuel')
      rw [ancestorsUpTo_eq_nil hnil, ancestorsUpTo_eq_nil (hsame ▸ hnil)]
      exact .nil
    | succ fuel' =>
      have hcongr := Path.parent?_congr hp
      have hparent := p.parent?_cases
      rw [ancestorsUpTo, ancestorsUpTo]
      revert hcongr hparent
      generalize p.parent? = q, p'.parent? = q'
      intro hcongr hparent
      cases hparent with
      | orphan =>
        rw [Option.map_none, eq_comm, Option.map_eq_none_iff] at hcongr
        rw [hcongr]
        exact .nil
      | @child q hq _ _ =>
        rw [Option.map_some, eq_comm, Option.map_eq_some_iff] at hcongr
        obtain ⟨q', rfl, hq'⟩ := hcongr
        have hlen : q.components.length ≤ fuel ∧ q'.components.length ≤ fuel' := by
          rw [hq', hq, List.length_dropLast, hsame]
          rw [hsame] at hfuel
          omega
        exact .cons hq'.symm (ih hq'.symm hlen.1 hlen.2 hq'.symm)

/-- Directories made one after the other, under spellings of the same paths, keep hosts alike. -/
theorem Alike.foldl_putDir {ps ps' : List Path} (hh : h.Alike h') (hps : List.Forall₂ Path.Same ps ps') :
    (ps.foldl MemoryHost.putDir h).Alike (ps'.foldl MemoryHost.putDir h') := by
  induction hps generalizing h h' with
  | nil => exact hh
  | cons hp _ ih => exact ih (hh.putDir hp)

/-- The directories above two spellings of one path are spellings of each other. -/
theorem Alike.addParents (hh : h.Alike h') (hp : p.Same p') :
    (h.addParents p).Alike (h'.addParents p') := by
  have hancestors := ancestorsUpTo_same hp (Path.length_components_le p) (Path.length_components_le p')
  refine hh.foldl_putDir ?_
  refine List.rel_filter (fun q q' hq => ?_) hancestors
  have hq : q.components = q'.components := hq
  -- only the empty path has no components, so it is left out under no other spelling
  have hempty : q.text.isEmpty = q'.text.isEmpty := by
    rw [Bool.eq_iff_iff, String.isEmpty_iff, String.isEmpty_iff, ← Path.components_eq_nil_iff,
      ← Path.components_eq_nil_iff, hq]
  dsimp only
  rw [hempty]

/-- Changes whose paths are respelt keep hosts alike. -/
theorem Alike.apply {c c' : Change} (hh : h.Alike h') (hc : c.Respelt c') :
    (h.apply c).Alike (h'.apply c') := by
  cases hc with
  | addFile hp content =>
    have hparents := hh.addParents hp.same
    exact ⟨hparents.files.put hp.same content, hparents.directories, hparents.mounts⟩
  | removeFile hp => exact ⟨hh.files.erase hp.same, hh.directories, hh.mounts⟩
  | addDir hp => exact (hh.addParents hp.same).putDir hp.same
  | setMount hp usage =>
    have hdir := hh.putDir hp.same
    exact ⟨hdir.files, hdir.directories, hdir.mounts.put hp.same usage⟩
  | removeMount hp => exact ⟨hh.files, hh.directories, hh.mounts.erase hp.same⟩

/-- **Changes whose paths are respelt keep hosts alike.** -/
theorem Alike.applyAll {cs cs' : List Change} (hh : h.Alike h')
    (hcs : List.Forall₂ Change.Respelt cs cs') : (h.applyAll cs).Alike (h'.applyAll cs') := by
  induction hcs generalizing h h' with
  | nil => exact hh
  | cons hc _ ih => exact ih (hh.apply hc)

/-! ## Answers

A query with another spelling of its path finds the same on alike hosts. Faults quote the path they were
asked for, so of these the class is compared, and of a listing the components of what is listed. -/

end MemoryHost

/-- The two views answer a query about a path, spelt in two ways, alike: with the same values or with
faults of one class, and with listings of the same paths. -/
structure HostView.AnswersAlike (v v' : HostView) (p p' : Path) : Prop where
  read : (v.read p).mapError HostFault.kind = (v'.read p').mapError HostFault.kind
  usage : (v.usage p).mapError HostFault.kind = (v'.usage p').mapError HostFault.kind
  has : v.has p = v'.has p'
  entries : ((v.entries p).map (·.map Path.components)).mapError HostFault.kind =
    ((v'.entries p').map (·.map Path.components)).mapError HostFault.kind

namespace MemoryHost

/-- The order of paths, told on their components. -/
def leComponents (cs ds : List Path.Component) : Bool :=
  !(ds.map Path.Component.key).lex (cs.map Path.Component.key) fun a b => a.lex b Nat.blt

/-- The order of paths looks at their components only, so that sorting does not see how they are spelt. -/
theorem map_components_mergeSort (ps : List Path) :
    (ps.mergeSort Path.le).map Path.components = (ps.map Path.components).mergeSort leComponents :=
  List.map_mergeSort fun _ _ _ _ => rfl

variable {h h' : MemoryHost} {p p' : Path}

/-- Whether a path is listed does not depend on how it is spelt. -/
theorem isChild_congr {dir : Path.Place} (hp : p.Same p') : isChild dir p = isChild dir p' := by
  have hcongr := Path.parent?_congr hp
  unfold isChild
  revert hcongr
  generalize p.parent? = q, p'.parent? = q'
  intro hcongr
  cases q with
  | none =>
    rw [Option.map_none, eq_comm, Option.map_eq_none_iff] at hcongr
    rw [hcongr]
  | some q =>
    rw [Option.map_some, eq_comm, Option.map_eq_some_iff] at hcongr
    obtain ⟨q', rfl, hq⟩ := hcongr
    dsimp only
    rw [Path.same_iff_place_eq.mp (show q.Same q' from hq.symm)]

/-- The listings of alike hosts differ in their spelling only. -/
theorem Alike.map_components_children (hh : h.Alike h') (hp : p.Same p') :
    (h.children p).map Path.components = (h'.children p').map Path.components := by
  -- what is listed depends on places alone: on the one asked for, and on those of the files
  have hplace : p.place = p'.place := Path.same_iff_place_eq.mp hp
  have hchild : ∀ {α : Type} (e e' : Shelf.Entry α), e.Alike e' →
      isChild p.place e.path = isChild p'.place e'.path := by
    intro α e e' he
    rw [hplace]
    exact isChild_congr (Path.same_iff_place_eq.mpr (e.place_eq.symm.trans (he.1.trans e'.place_eq)))
  have hfiles : Shelf.Alike (h.files.filter fun e => isChild p.place e.path)
      (h'.files.filter fun e => isChild p'.place e.path) := hh.files.filter hchild
  rw [children, children, List.map_append, List.map_append, hfiles.map_components_paths]
  refine congrArg _ (Shelf.Alike.map_components_paths (hh.directories.filter fun e e' he => ?_))
  have hlisted := congrArg Option.isNone (hfiles.entryAt?_eq e.place)
  rw [Option.isNone_map, Option.isNone_map] at hlisted
  rw [hchild e e' he, ← he.1, hlisted, hplace]

/-- **Alike hosts answer queries about respelt paths alike.** -/
theorem Alike.answers (hh : h.Alike h') (hp : p.Same p') : h.view.AnswersAlike h'.view p p' where
  read := by
    dsimp only [view]
    rw [hh.files.get?_eq hp]
    cases h'.files.get? p' <;> rfl
  usage := by
    dsimp only [view]
    rw [hh.mounts.get?_eq hp]
    cases h'.mounts.get? p' <;> rfl
  has := by
    dsimp only [view]
    rw [hh.files.has_eq hp, hh.directories.has_eq hp]
  entries := by
    dsimp only [view]
    rw [hh.directories.has_eq hp]
    split
    · show Except.ok (List.map _ _) = Except.ok (List.map _ _)
      rw [map_components_mergeSort, map_components_mergeSort, hh.map_components_children hp]
    · rfl

end MemoryHost

end HostMeter
