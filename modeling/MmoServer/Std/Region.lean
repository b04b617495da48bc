import Mathlib.Data.List.Basic

/-!
# Copying into and out of a region of cells

A region is a list of cells. Programs copy runs of cells out of it and into it;
a copy that does not lie inside is undefined, so `read?` answers `none` there and
`write` is used only inside. `grow` makes a region larger and leaves what it has.
-/

namespace MmoServer.Std.Region

variable {α : Type} {cells values : List α} {start count size : Nat} {filler : α}

/-- The `count` cells from `start` on, if they are all there. -/
def read? (cells : List α) (start count : Nat) : Option (List α) :=
  if start + count ≤ cells.length then some ((cells.drop start).take count) else none

/-- Overwrite the cells from `start` on. -/
def write (cells : List α) (start : Nat) (values : List α) : List α :=
  cells.take start ++ values ++ cells.drop (start + values.length)

/-- Add cells at the end until there are `size`. -/
def grow (cells : List α) (size : Nat) (filler : α) : List α :=
  cells ++ List.replicate (size - cells.length) filler

theorem read?_eq_some (inside : start + count ≤ cells.length) :
    read? cells start count = some ((cells.drop start).take count) := if_pos inside

/-- What a read inside the cells gives. -/
theorem read?_eq_some_iff : read? cells start count = some values ↔
    start + count ≤ cells.length ∧ (cells.drop start).take count = values := by
  by_cases inside : start + count ≤ cells.length <;> simp [read?, inside]

@[simp] theorem length_grow : (grow cells size filler).length = max cells.length size := by
  rw [grow, List.length_append, List.length_replicate]
  omega

/-- Cells that are enough do not grow. -/
theorem grow_eq_self (large : size ≤ cells.length) : grow cells size filler = cells := by
  rw [grow, Nat.sub_eq_zero_of_le large, List.replicate_zero, List.append_nil]

/-- Growing keeps the cells that are there. -/
theorem take_grow (inside : count ≤ cells.length) :
    (grow cells size filler).take count = cells.take count :=
  List.take_append_of_le_length inside

/-- Overwriting keeps the length. -/
theorem length_write (inside : start + values.length ≤ cells.length) :
    (write cells start values).length = cells.length := by
  simp only [write, List.length_append, List.length_take, List.length_drop]
  omega

/-- Up to the end of what was written: the cells before it, and it. -/
theorem take_write (inside : start ≤ cells.length) :
    (write cells start values).take (start + values.length) = cells.take start ++ values := by
  apply List.take_left'
  rw [List.length_append, List.length_take, Nat.min_eq_left inside]

/-- Growing twice is growing to the larger size. -/
theorem grow_grow {more : Nat} (above : size ≤ more) :
    grow (grow cells size filler) more filler = grow cells more filler := by
  rw [grow, length_grow, grow, grow, List.append_assoc, List.replicate_append_replicate]
  congr 2
  omega

/-- Growing after a write is writing after growing. -/
theorem grow_write (inside : start + values.length ≤ cells.length) :
    grow (write cells start values) size filler = write (grow cells size filler) start values := by
  rw [grow, length_write inside, write, write, grow, List.take_append_of_le_length (by omega),
    List.drop_append_of_le_length inside, List.append_assoc, List.append_assoc]

/-- Two writes, one after the other, are one. -/
theorem write_write {more : List α} (inside : start + values.length ≤ cells.length) :
    write (write cells start values) (start + values.length) more =
      write cells start (values ++ more) := by
  have front : (write cells start values).take (start + values.length) =
      cells.take start ++ values := take_write (by omega)
  have back : (write cells start values).drop (start + values.length + more.length) =
      cells.drop (start + (values ++ more).length) := by
    rw [write, ← List.drop_drop, List.drop_left', List.drop_drop, List.length_append, Nat.add_assoc]
    rw [List.length_append, List.length_take, Nat.min_eq_left (by omega)]
  rw [write, front, back, write, List.append_assoc _ values more]

/-- Overwriting nothing changes nothing. -/
theorem write_nil : write cells start [] = cells := by
  rw [write, List.append_nil, List.length_nil, Nat.add_zero, List.take_append_drop]

/-- Writing changes nothing exactly when the values are there already. -/
theorem write_eq_self_iff (inside : start + values.length ≤ cells.length) :
    write cells start values = cells ↔ read? cells start values.length = some values := by
  have whole : cells.take start ++ (cells.drop start).take values.length ++
      cells.drop (start + values.length) = cells := by
    rw [List.append_assoc, ← List.drop_drop, List.take_append_drop, List.take_append_drop]
  rw [read?_eq_some_iff, and_iff_right inside]
  constructor
  · intro same
    rw [write] at same
    have middle := List.append_cancel_right (same.trans whole.symm)
    exact (List.append_cancel_left middle).symm
  · intro there
    rw [there] at whole
    exact whole

/-- Nor does growing as far as needed and then writing. -/
theorem write_grow_eq_self_iff :
    write (grow cells (start + values.length) filler) start values = cells ↔
      read? cells start values.length = some values := by
  by_cases inside : start + values.length ≤ cells.length
  · rw [grow_eq_self inside]
    exact write_eq_self_iff inside
  · refine iff_of_false (fun same => ?_) fun there => inside (read?_eq_some_iff.mp there).1
    have length := congrArg List.length same
    rw [length_write] at length <;> rw [length_grow] at * <;> omega

end MmoServer.Std.Region
