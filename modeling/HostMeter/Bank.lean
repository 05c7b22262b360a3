/-!
# Bank — values that handles share

A handle refers to a value, and a copy of a handle refers to the same value, so that what is changed
through one of them is changed for the other too. A bank keeps the values and, for each handle, which
value it refers to.

* `add`, `copy`: new handles, with a value of their own and with a shared one.
* `modify`, `get?`: changing and reading the value of a handle; `readings` reads all of them.
-/

namespace HostMeter

/-- Values, and handles of which some share their value. -/
structure Bank (α : Type) where
  values : Array α
  /-- For each handle, the index of its value. -/
  shown : Array Nat
  deriving Repr

namespace Bank

variable {α : Type}

def empty : Bank α := ⟨#[], #[]⟩

def add (b : Bank α) (a : α) : Bank α := ⟨b.values.push a, b.shown.push b.values.size⟩

def copy (b : Bank α) (handle : Nat) : Bank α :=
  { b with shown := b.shown.push (b.shown.getD handle 0) }

/-- Changes the value of a handle and of all that share it. -/
def modify (b : Bank α) (handle : Nat) (f : α → α) : Bank α :=
  { b with values := b.values.modify (b.shown.getD handle 0) f }

def set (b : Bank α) (handle : Nat) (a : α) : Bank α := b.modify handle fun _ => a

def get? (b : Bank α) (handle : Nat) : Option α := b.shown[handle]?.bind fun i => b.values[i]?

/-- The values of the handles. -/
def readings (b : Bank α) : List α := b.shown.toList.filterMap fun i => b.values[i]?

end Bank

end HostMeter
