/-!
# Paths — spellings and components

A path is a text, kept as it was spelt. What it names is its list of components: repeated slashes, a
slash at the end and a `.` other than at the start of a relative path do not count, while `..` is a
component of its own. Two paths are the *same* when their components are, and paths are ordered by
their components.

* `components`: what a path names.
* `Same`, `le`: sameness and order of paths; `place` is what sameness looks at.
* `join`, `parent?`, `fileName?`: taking paths together and apart, on their spellings.
-/

namespace HostMeter

structure Path where
  text : String
  deriving DecidableEq, Repr

namespace Path

inductive Component where
  /-- The slash at the start of a rooted path. -/
  | root
  /-- The `.` at the start of a relative path. -/
  | here
  /-- The step `..`. -/
  | up
  | name (cs : List Char)
  deriving DecidableEq, Repr

/-! ## Components -/

/-- The pieces between the slashes of a path. -/
def segments (p : Path) : List (List Char) := p.text.toList.splitOnP (· == '/')

def isRooted (p : Path) : Bool := p.text.toList.head? == some '/'

/-- Is this a segment that does not count after the first one: empty or `.`? -/
def isIdle (segment : List Char) : Bool := segment.isEmpty || segment == ['.']

def component (segment : List Char) : Component :=
  if segment = ['.', '.'] then .up else .name segment

def laterComponents (segments : List (List Char)) : List Component :=
  (segments.filter fun s => !isIdle s).map component

/-- What a path names. -/
def components (p : Path) : List Component :=
  match p.segments with
  | [] => []
  | first :: rest =>
    let start :=
      if p.isRooted then [.root]
      else if first = [] then []
      else if first = ['.'] then [.here]
      else [component first]
    start ++ laterComponents rest

/-- Two spellings of one path. -/
def Same (p q : Path) : Prop := p.components = q.components

instance : DecidableRel Same := fun p q => inferInstanceAs (Decidable (p.components = q.components))

theorem Same.refl (p : Path) : p.Same p := rfl

theorem Same.symm {p q : Path} (h : p.Same q) : q.Same p := Eq.symm h

theorem Same.trans {p q r : Path} (h : p.Same q) (h' : q.Same r) : p.Same r := Eq.trans h h'

/-- What a path names, with the number of its components in front, so that paths of different depths
are told apart without a look at their components. -/
structure Place where
  depth : Nat
  steps : List Component
  deriving DecidableEq, Repr

def place (p : Path) : Place :=
  let steps := p.components
  ⟨steps.length, steps⟩

theorem same_iff_place_eq {p q : Path} : p.Same q ↔ p.place = q.place := by
  constructor
  · intro h
    have : p.components = q.components := h
    simp [place, this]
  · intro h
    exact congrArg Place.steps h

/-! ## Order -/

/-- The place of a component in the order: the root, `.`, `..`, and then names by code point. -/
def Component.key : Component → List Nat
  | .root => [0]
  | .here => [1]
  | .up => [2]
  | .name cs => 3 :: cs.map Char.toNat

def key (p : Path) : List (List Nat) := p.components.map Component.key

/-- The order of paths: component by component, a shorter path before its extensions. -/
def le (p q : Path) : Bool := !q.key.lex p.key fun a b => a.lex b Nat.blt

/-! ## Taking paths apart and together -/

/-- The text of segments with slashes between them. -/
def ofSegments (segments : List (List Char)) : Path :=
  ⟨String.ofList (['/'].intercalate segments)⟩

/-- The segments without those at the end that do not count. -/
def dropIdleEnd (segments : List (List Char)) : List (List Char) :=
  (segments.reverse.dropWhile isIdle).reverse

/-- The path without its last component. The root and the empty path have no parent; the parent of a
path of one component is the empty path. -/
def parent? (p : Path) : Option Path :=
  match p.segments with
  | [] => none
  | first :: rest =>
    match dropIdleEnd rest with
    | [] => if p.isRooted || first.isEmpty then none else some ⟨""⟩
    | counted =>
      let kept := dropIdleEnd counted.dropLast
      if kept.isEmpty && p.isRooted then some ⟨"/"⟩ else some (ofSegments (first :: kept))

def fileName? (p : Path) : Option (List Char) :=
  match p.components.getLast? with
  | some (.name cs) => some cs
  | _ => none

/-- A path below another one. A rooted path replaces it, and a slash is put between the two unless
the first is empty or ends with one. -/
def join (p : Path) (below : String) : Path :=
  if (Path.mk below).isRooted then ⟨below⟩
  else if p.text.isEmpty || p.text.toList.getLast? == some '/' then ⟨p.text ++ below⟩
  else ⟨p.text ++ "/" ++ below⟩

end Path

end HostMeter
