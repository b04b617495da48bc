import Mathlib.Logic.Function.Basic

/-!
# Fixed-size arrays with checked access

An array of a compile-time size is a function on its index type. Programs index
it with an unbounded integer: `at?` is the access as the program computes it,
undefined outside the array, and `peek` is the total reading that statements
use once an index is known to be in range.
-/

namespace MmoServer.Std

/-- `size` cells, each holding a value. -/
abbrev FixedArray (α : Type) (size : Nat) := Fin size → α

namespace FixedArray

variable {α : Type} {size : Nat}

/-- The cell at a program index; `none` when the index is outside the array. -/
def at? (cells : FixedArray α size) (index : Nat) : Option α :=
  if inside : index < size then some (cells ⟨index, inside⟩) else none

/-- Overwrite one cell; indices outside the array change nothing. -/
def set (cells : FixedArray α size) (index : Nat) (value : α) : FixedArray α size :=
  fun cell => if cell.val = index then value else cells cell

/-- The cell at an index, read as the default value outside the array. -/
def peek [Inhabited α] (cells : FixedArray α size) (index : Nat) : α :=
  if inside : index < size then cells ⟨index, inside⟩ else default

theorem at?_eq_some_peek [Inhabited α] {cells : FixedArray α size} {index : Nat}
    (inside : index < size) : cells.at? index = some (cells.peek index) := by
  simp [at?, peek, inside]

theorem at?_eq_none {cells : FixedArray α size} {index : Nat} (outside : size ≤ index) :
    cells.at? index = none := by
  simp [at?, Nat.not_lt.mpr outside]

/-- A successful access proves its index in range and reads what `peek` reads. -/
theorem at?_eq_some_iff [Inhabited α] {cells : FixedArray α size} {index : Nat} {value : α} :
    cells.at? index = some value ↔ index < size ∧ cells.peek index = value := by
  by_cases inside : index < size <;> simp [at?, peek, inside]

theorem peek_set [Inhabited α] {cells : FixedArray α size} {index other : Nat} {value : α}
    (inside : index < size) :
    (cells.set index value).peek other = if other = index then value else cells.peek other := by
  by_cases same : other = index
  · subst same
    simp [set, peek, inside]
  · by_cases within : other < size <;> simp [set, peek, within, same]

@[simp] theorem set_apply {cells : FixedArray α size} {index : Nat} {value : α} (cell : Fin size) :
    cells.set index value cell = if cell.val = index then value else cells cell := rfl

end FixedArray
end MmoServer.Std
