import Mathlib.Data.List.Basic
import Mathlib.Data.List.Count

/-!
# Bounded first-in first-out queues

The queue carries its capacity bound as a field, so no state of any program
that holds one can exceed it. `enqueue` answers `false` exactly when the queue
is full and then leaves it unchanged.
-/

namespace MmoServer.Std

/-- A queue of at most `capacity` items, oldest first. -/
structure BoundedQueue (α : Type) (capacity : Nat) where
  items : List α
  bounded : items.length ≤ capacity
deriving DecidableEq

namespace BoundedQueue

variable {α : Type} {capacity : Nat}

@[ext] theorem ext {left right : BoundedQueue α capacity} (items : left.items = right.items) :
    left = right := by
  cases left
  cases right
  cases items
  rfl

/-- The queue that holds nothing. -/
def empty : BoundedQueue α capacity := ⟨[], Nat.zero_le _⟩

/-- Append an item if there is room, and say whether there was. -/
def enqueue (queue : BoundedQueue α capacity) (item : α) : BoundedQueue α capacity × Bool :=
  if room : queue.items.length < capacity then
    (⟨queue.items ++ [item], by rw [List.length_append]; exact room⟩, true)
  else (queue, false)

/-- Take the oldest item, if there is one. -/
def dequeue (queue : BoundedQueue α capacity) : Option (α × BoundedQueue α capacity) :=
  match queue with
  | ⟨[], _⟩ => none
  | ⟨item :: rest, bounded⟩ => some (item, ⟨rest, Nat.le_of_succ_le bounded⟩)

/-- The two outcomes of an enqueue. -/
theorem enqueue_cases (queue : BoundedQueue α capacity) (item : α) :
    (queue.items.length < capacity ∧ (queue.enqueue item).2 = true ∧
      (queue.enqueue item).1.items = queue.items ++ [item]) ∨
    (queue.items.length = capacity ∧ (queue.enqueue item).2 = false ∧
      (queue.enqueue item).1 = queue) := by
  by_cases room : queue.items.length < capacity
  · exact .inl ⟨room, by simp [enqueue, room]⟩
  · exact .inr ⟨Nat.le_antisymm queue.bounded (Nat.not_lt.mp room), by simp [enqueue, room]⟩

/-- A dequeue removes the head of the items and nothing else. -/
theorem dequeue_eq_some {queue next : BoundedQueue α capacity} {item : α}
    (taken : queue.dequeue = some (item, next)) : queue.items = item :: next.items := by
  rcases queue with ⟨_ | ⟨head, rest⟩, bounded⟩
  · cases taken
  · cases taken
    rfl

/-- What a queue holds after an enqueue was there before or is the new item. -/
theorem mem_of_enqueue {queue : BoundedQueue α capacity} {item other : α}
    (queued : other ∈ (queue.enqueue item).1.items) : other ∈ queue.items ∨ other = item := by
  rcases queue.enqueue_cases item with ⟨-, -, items⟩ | ⟨-, -, same⟩
  · rw [items] at queued
    simpa using queued
  · rw [same] at queued
    exact .inl queued

/-- The same for some enqueues, one after the other. -/
theorem mem_of_enqueued {queue : BoundedQueue α capacity} {items : List α} {other : α}
    (queued : other ∈ (items.foldl (fun queue item => (queue.enqueue item).1) queue).items) :
    other ∈ queue.items ∨ other ∈ items := by
  induction items generalizing queue with
  | nil => exact .inl queued
  | cons first items ih =>
      rcases ih queued with earlier | later
      · rcases mem_of_enqueue earlier with before | rfl
        · exact .inl before
        · exact .inr List.mem_cons_self
      · exact .inr (List.mem_cons_of_mem _ later)

end BoundedQueue
end MmoServer.Std
