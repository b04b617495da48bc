import Mathlib.Data.List.Nodup
import Mathlib.Data.List.Perm.Basic

/-!
# Priority queues

A priority queue is a list in no particular order from which an item that is not
greater than any other is taken. Nothing is said about which of several such items
it is.
-/

namespace MmoServer.Std

/-- A comparator, and what makes it one: "not greater" is total and transitive. -/
structure Priority (α : Type) where
  greater : α → α → Bool
  total : ∀ first second, greater first second = false ∨ greater second first = false
  trans : ∀ first second third, greater first second = false → greater second third = false →
    greater first third = false

namespace Priority

variable {α : Type} (priority : Priority α) {items rest : List α} {item other : α}

/-- An item that is not greater than any other, and the rest. -/
def extract : List α → Option (α × List α)
  | [] => none
  | item :: items =>
    match extract items with
    | none => some (item, [])
    | some (least, rest) =>
      if priority.greater item least then some (least, item :: rest) else some (item, items)

theorem extract_eq_none_iff : priority.extract items = none ↔ items = [] := by
  cases items with
  | nil => exact ⟨fun _ => rfl, fun _ => rfl⟩
  | cons item items =>
      simp only [extract]
      split
      · simp
      · split <;> simp

/-- The item that is taken is not greater than any that is left, and none is lost. -/
theorem extract_spec (taken : priority.extract items = some (item, rest)) :
    items.Perm (item :: rest) ∧ ∀ other ∈ rest, priority.greater item other = false := by
  induction items generalizing item rest with
  | nil => cases taken
  | cons front items ih =>
      simp only [extract] at taken
      split at taken
      · next empty =>
        obtain rfl := priority.extract_eq_none_iff.mp empty
        cases taken
        exact ⟨.refl _, nofun⟩
      · next least left found =>
        obtain ⟨same, smallest⟩ := ih found
        split at taken
        · next above =>
          cases taken
          refine ⟨(same.cons front).trans (.swap item front left), ?_⟩
          rintro other member
          rcases List.mem_cons.mp member with rfl | member
          · exact (priority.total item other).resolve_right (by rw [above]; exact Bool.noConfusion)
          · exact smallest other member
        · next below =>
          cases taken
          have notAbove := Bool.eq_false_iff.mpr below
          refine ⟨.refl _, fun other member => ?_⟩
          rcases List.mem_cons.mp (same.subset member) with rfl | member
          · exact notAbove
          · exact priority.trans _ _ _ notAbove (smallest other member)

/-- What is left in a queue without repetitions. -/
theorem mem_rest_iff (taken : priority.extract items = some (item, rest)) (distinct : items.Nodup) :
    other ∈ rest ↔ other ∈ items ∧ other ≠ item := by
  have same := (priority.extract_spec taken).1
  have nodup := same.nodup_iff.mp distinct
  rw [same.mem_iff, List.mem_cons]
  constructor
  · rintro member
    refine ⟨.inr member, ?_⟩
    rintro rfl
    exact (List.nodup_cons.mp nodup).1 member
  · rintro ⟨rfl | member, apart⟩
    · exact absurd rfl apart
    · exact member

end Priority
end MmoServer.Std
