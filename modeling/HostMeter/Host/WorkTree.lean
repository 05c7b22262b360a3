import HostMeter.Host.View
/-!
# Host — a tree of files below the working directory

A tree of directories and files as an operating system keeps it, seen from its working directory.
Unlike a store of paths it walks a path step by step: every step needs a directory to start from, a
slash at the end asks for a directory, `..` leads to the directory above, and names and paths have a
greatest length. Of the directories above the tree only their existence is known.

* `makeDir`, `writeFile`: build the tree.
* `find`: where a path leads, or why it leads nowhere.
* `view`: the answers.
-/

namespace HostMeter

/-- The names that lead from the working directory to a place below it. -/
abbrev Place := List String

inductive TreeNode where
  | directory
  | file (content : ByteArray)

/-- The files and directories below the working directory. -/
structure WorkTree where
  nodes : List (Place × TreeNode)

namespace WorkTree

def empty : WorkTree := ⟨[]⟩

/-- What stands at a place; the working directory itself is a directory. -/
def at? (t : WorkTree) (place : Place) : Option TreeNode :=
  if place.isEmpty then some .directory
  else (t.nodes.find? fun n => n.1 == place).map Prod.snd

def put (t : WorkTree) (place : Place) (node : TreeNode) : WorkTree :=
  ⟨t.nodes.filter (fun n => n.1 != place) ++ [(place, node)]⟩

/-- What was put at a place stands there, and nothing else has changed. -/
theorem at?_put (t : WorkTree) (place there : Place) (node : TreeNode) (h : there ≠ []) :
    (t.put place node).at? there = if place = there then some node else t.at? there := by
  have he : there.isEmpty = false := by simpa using h
  simp only [at?, he, put, List.find?_append, List.find?_filter]
  by_cases hp : place = there
  · subst hp
    have : (t.nodes.find? fun n => decide (n.1 != place ∧ n.1 == place)) = none := by
      rw [List.find?_eq_none]
      intro n _
      by_cases hn : n.1 = place <;> simp [hn]
    rw [this]
    simp
  · have : (fun n : Place × TreeNode => decide (n.1 != place ∧ n.1 == there)) = fun n => n.1 == there := by
      funext n
      by_cases hn : n.1 = there
      · simp [hn, Ne.symm hp]
      · simp [hn]
    rw [this]
    simp [hp]

/-! ## Making a way -/

/-- A tree with a place in it, or none when the place is above the working directory. -/
abbrev Way := WorkTree × Option Place

/-- One step of making a way: a name that is missing becomes a directory, and `..` leads to the
directory above. Above the working directory nothing is made. -/
def makeStep : Way → List Char → Way
  | (t, none), _ => (t, none)
  | (t, some place), segment =>
    if Path.isIdle segment then (t, some place)
    else if segment = ['.', '.'] then (t, if place.isEmpty then none else some place.dropLast)
    else
      let there := place ++ [String.ofList segment]
      (if (t.at? there).isSome then t else t.put there .directory, some there)

/-- Makes every directory on the way that a path leads, and says where it ends. -/
def makeWay (t : WorkTree) (p : Path) : Way :=
  p.segments.foldl makeStep (t, if p.isRooted then none else some [])

def makeDir (t : WorkTree) (p : Path) : WorkTree := (t.makeWay p).1

/-- Writes a file and makes the directories on the way to it. A path that ends in no name writes
nothing. -/
def writeFile (t : WorkTree) (p : Path) (content : ByteArray) : WorkTree :=
  match p.parent?, p.fileName? with
  | some parent, some name =>
    match t.makeWay parent with
    | (t, some place) => t.put (place ++ [String.ofList name]) (.file content)
    | (t, none) => t
  | _, _ => t

/-! ## Walking a path -/

/-- The most bytes in a path, its end mark included. -/
def pathLimit : Nat := 4096

def nameLimit : Nat := 255

inductive Spot where
  /-- In a directory above the working directory. -/
  | above
  /-- At a place below it, with what stands there. -/
  | inside (place : Place) (node : TreeNode)

/-- One step of a walk. An empty step and `.` ask for a directory and stay in it. -/
def step (t : WorkTree) (spot : Spot) (segment : List Char) : Except HostFault Spot :=
  match spot with
  | .above =>
    -- nothing is known of the directories above but that they are there
    if Path.isIdle segment || segment = ['.', '.'] then .ok .above
    else if nameLimit < (String.ofList segment).utf8ByteSize then .error .nameTooLong
    else .error .noEntry
  | .inside _ (.file _) => .error .notADirectory
  | .inside place .directory =>
    if Path.isIdle segment then .ok (.inside place .directory)
    else if segment = ['.', '.'] then
      if place.isEmpty then .ok .above else .ok (.inside place.dropLast .directory)
    else
      let name := String.ofList segment
      if nameLimit < name.utf8ByteSize then .error .nameTooLong
      else
        let there := place ++ [name]
        match t.at? there with
        | some node => .ok (.inside there node)
        | none => .error .noEntry

/-- Where a path leads. -/
def find (t : WorkTree) (p : Path) : Except HostFault Spot :=
  if p.text.isEmpty then .error .noEntry
  else if pathLimit ≤ p.text.utf8ByteSize then .error .nameTooLong
  else
    let start : Spot := if p.isRooted then .above else .inside [] .directory
    p.segments.foldlM t.step start

/-! ## The answers -/

def hasNul (p : Path) : Bool := p.text.toList.contains '\x00'

/-- The number of bytes before the first NUL of a path. -/
def nulPosition (p : Path) : Nat :=
  (String.ofList (p.text.toList.takeWhile (· != '\x00'))).utf8ByteSize

def read (t : WorkTree) (p : Path) : Except HostFault String := do
  if hasNul p then throw .nulInPath
  match ← t.find p with
  | .above => throw .isADirectory
  | .inside _ .directory => throw .isADirectory
  | .inside _ (.file content) =>
    match String.fromUTF8? content with
    | some text => pure text
    | none => throw .notText

def has (t : WorkTree) (p : Path) : Bool := !hasNul p && (t.find p).toOption.isSome

def namesBelow (t : WorkTree) (place : Place) : List String :=
  t.nodes.filterMap fun n => if n.1.dropLast == place then n.1.getLast? else none

/-- The entries of a directory, in path order. -/
def entries (t : WorkTree) (p : Path) : Except HostFault (List Path) := do
  if hasNul p then throw .nulInPath
  match ← t.find p with
  | .above => pure []
  | .inside _ (.file _) => throw .notADirectory
  | .inside place .directory => pure (((t.namesBelow place).map p.join).mergeSort Path.le)

/-- How full the file system at a path is. The tree knows that it has one and not its size. -/
def usage (t : WorkTree) (p : Path) : Except HostFault Usage := do
  if hasNul p then throw (.nulAt (nulPosition p))
  -- the path has to lead somewhere
  let _ ← t.find p
  pure ⟨0, 0, 0⟩

def view (t : WorkTree) : HostView where
  read := t.read
  has := t.has
  entries := t.entries
  usage := t.usage

end WorkTree

end HostMeter
