import HostMeter.Host.View
/-!
# Host — a host kept in memory

A store of files, directories and mounts that answers the queries of a host. Its keys are paths up to
spelling (`Path.Same`): writing a key that is already there under another spelling changes the value
and keeps the first spelling. Adding a file or a directory adds the directories above it; setting a
mount adds the directory itself alone.

* `addFile`, `removeFile`, `addDir`, `setMount`, `removeMount`: the changes; `Change` names them, and
  `apply` carries one out.
* `view`: the answers; the entries of a directory come in path order.
-/

namespace HostMeter

/-! ## Keyed lists -/

/-- A value under a path, with the place of the path read once. -/
structure Shelf.Entry (α : Type) where
  path : Path
  value : α
  place : Path.Place
  place_eq : place = path.place

/-- Values under paths, each path once. -/
abbrev Shelf (α : Type) := List (Shelf.Entry α)

namespace Shelf

variable {α : Type}

def Entry.of (p : Path) (a : α) : Entry α := ⟨p, a, p.place, rfl⟩

theorem Entry.place_eq_iff (e : Entry α) (p : Path) : e.place = p.place ↔ e.path.Same p := by
  rw [e.place_eq, Path.same_iff_place_eq]

def entryAt? (s : Shelf α) (place : Path.Place) : Option (Entry α) :=
  s.find? fun e => decide (e.place = place)

def get? (s : Shelf α) (p : Path) : Option α := (s.entryAt? p.place).map Entry.value

def has (s : Shelf α) (p : Path) : Bool := (s.entryAt? p.place).isSome

/-- Puts an entry in; a place that is already taken keeps its spelling and changes its value. -/
def putEntry : Shelf α → Entry α → Shelf α
  | [], new => [new]
  | e :: rest, new =>
    if e.place = new.place then { e with value := new.value } :: rest else e :: putEntry rest new

/-- Puts a value under a path; a path that is already there keeps its spelling. -/
def put (s : Shelf α) (p : Path) (a : α) : Shelf α := s.putEntry (.of p a)

def eraseAt (s : Shelf α) (place : Path.Place) : Shelf α :=
  s.filter fun e => !decide (e.place = place)

def erase (s : Shelf α) (p : Path) : Shelf α := s.eraseAt p.place

/-- The paths, as they were first spelt. -/
def paths (s : Shelf α) : List Path := s.map Entry.path

theorem entryAt?_putEntry (s : Shelf α) (new : Entry α) (place : Path.Place) :
    ((s.putEntry new).entryAt? place).map Entry.value =
      if new.place = place then some new.value else (s.entryAt? place).map Entry.value := by
  induction s with
  | nil => by_cases h : new.place = place <;> simp [putEntry, entryAt?, h]
  | cons e rest ih =>
    unfold putEntry
    by_cases he : e.place = new.place
    · by_cases h : new.place = place <;> simp [entryAt?, he, h]
    · rw [if_neg he]
      -- an entry at the place asked for is not the one that is put in
      by_cases h : e.place = place
      · have : ¬ new.place = place := fun h' => he (h.trans h'.symm)
        simp [entryAt?, h, this]
      · simpa [entryAt?, h] using ih

/-- What was put is found under every spelling, and nothing else has changed. -/
theorem get?_put (s : Shelf α) (p q : Path) (a : α) :
    (s.put p a).get? q = if p.Same q then some a else s.get? q := by
  simp only [get?, put, entryAt?_putEntry, Path.same_iff_place_eq]
  rfl

/-- What was taken away is gone under every spelling, and nothing else has changed. -/
theorem get?_erase (s : Shelf α) (p q : Path) :
    (s.erase p).get? q = if p.Same q then none else s.get? q := by
  simp only [get?, erase, eraseAt, entryAt?, List.find?_filter, Path.same_iff_place_eq]
  by_cases h : p.place = q.place
  · simp [h]
  · have : ∀ e : Entry α, (!decide (e.place = p.place) && decide (e.place = q.place)) =
        decide (e.place = q.place) := by
      intro e
      by_cases hq : e.place = q.place
      · simp [hq, Ne.symm h]
      · simp [hq]
    simp [h, this]

end Shelf

/-! ## The store -/

structure MemoryHost where
  files : Shelf String
  directories : Shelf Unit
  mounts : Shelf Usage

namespace MemoryHost

def empty : MemoryHost := ⟨[], [], []⟩

/-- The paths above a path, nearest first, at most `fuel` of them. -/
def ancestorsUpTo : Nat → Path → List Path
  | 0, _ => []
  | fuel + 1, p =>
    match p.parent? with
    | none => []
    | some q => q :: ancestorsUpTo fuel q

/-- The paths above a path, nearest first. Each is shorter than the one before. -/
def ancestors (p : Path) : List Path := ancestorsUpTo p.text.length p

def putDir (h : MemoryHost) (p : Path) : MemoryHost :=
  if h.directories.has p then h else { h with directories := h.directories.put p () }

/-- Adds the directories above a path, the empty path apart. -/
def addParents (h : MemoryHost) (p : Path) : MemoryHost :=
  ((ancestors p).filter fun q => !q.text.isEmpty).foldl putDir h

/-- Adds or replaces a file and adds the directories above it. -/
def addFile (h : MemoryHost) (p : Path) (content : String) : MemoryHost :=
  let h := h.addParents p
  { h with files := h.files.put p content }

/-- Removes a file; its directory stays. -/
def removeFile (h : MemoryHost) (p : Path) : MemoryHost := { h with files := h.files.erase p }

/-- Adds a directory and the directories above it. -/
def addDir (h : MemoryHost) (p : Path) : MemoryHost := (h.addParents p).putDir p

/-- Sets how full the mount at a path is, and adds that directory. -/
def setMount (h : MemoryHost) (p : Path) (usage : Usage) : MemoryHost :=
  let h := h.putDir p
  { h with mounts := h.mounts.put p usage }

/-- Takes a mount away; its directory stays. -/
def removeMount (h : MemoryHost) (p : Path) : MemoryHost := { h with mounts := h.mounts.erase p }

inductive Change where
  | addFile (path : Path) (content : String)
  | removeFile (path : Path)
  | addDir (path : Path)
  | setMount (path : Path) (usage : Usage)
  | removeMount (path : Path)
  deriving DecidableEq, Repr

def apply (h : MemoryHost) : Change → MemoryHost
  | .addFile p content => h.addFile p content
  | .removeFile p => h.removeFile p
  | .addDir p => h.addDir p
  | .setMount p usage => h.setMount p usage
  | .removeMount p => h.removeMount p

/-- The store after changes, the first of which comes first. -/
def applyAll (h : MemoryHost) (changes : List Change) : MemoryHost := changes.foldl apply h

/-! ## The answers -/

/-- Is `p` directly below the directory at a place? -/
def isChild (dir : Path.Place) (p : Path) : Bool :=
  match p.parent? with
  | some q => decide (q.place = dir)
  | none => false

/-- The files and directories directly below a directory, each path once: of a file and a directory
of one path, the file's spelling. -/
def children (h : MemoryHost) (dir : Path) : List Path :=
  let place := dir.place
  let files : Shelf String := h.files.filter fun e => isChild place e.path
  let dirs : Shelf Unit := h.directories.filter fun e =>
    isChild place e.path && !decide (e.place = place) && (files.entryAt? e.place).isNone
  files.paths ++ dirs.paths

def view (h : MemoryHost) : HostView where
  read p :=
    match h.files.get? p with
    | some content => .ok content
    | none => .error (.noStoredFile p.text)
  has p := h.files.has p || h.directories.has p
  entries p :=
    if h.directories.has p then .ok ((h.children p).mergeSort Path.le)
    else .error (.noStoredDirectory p.text)
  usage p :=
    match h.mounts.get? p with
    | some usage => .ok usage
    | none => .error (.noStoredMount p.text)

end MemoryHost

end HostMeter
