import MmoServer.Semantics.Tally
import MmoServer.Semantics.Transition
import MmoServer.Std.BoundedQueue

/-!
# The calls of a bounded queue

A bounded queue as a transition system: a call is one step, and its event is the answer.
A concurrent queue refines it when the answers of its calls, in the order in which the
calls take effect, are those of a run. Then it inherits `conserved`: what has been
enqueued is what has been dequeued, followed by what the queue holds.
-/

namespace MmoServer.Std

open MmoServer.Semantics

/-- A call of a queue. -/
inductive QueueCall (α : Type) where
  | enqueue (item : α)
  | dequeue

/-- What a call of a queue answers. -/
inductive QueueAnswer (α : Type) where
  | enqueued (item : α)
  | full
  | dequeued (item : α)
  | empty
deriving DecidableEq

namespace QueueAnswer

variable {α : Type}

/-- The item that has been stored. -/
def enqueued? : QueueAnswer α → Option α
  | .enqueued item => some item
  | _ => none

/-- The item that has been returned. -/
def dequeued? : QueueAnswer α → Option α
  | .dequeued item => some item
  | _ => none

/-- Enqueue has found the queue full. -/
def refuses : QueueAnswer α → Bool
  | .full => true
  | _ => false

end QueueAnswer

namespace BoundedQueue

variable {α : Type} {capacity : Nat}

/-- A call of the bounded queue, and its answer. -/
def answer (queue : BoundedQueue α capacity) :
    QueueCall α → BoundedQueue α capacity × QueueAnswer α
  | .enqueue item => ((queue.enqueue item).1, if (queue.enqueue item).2 then .enqueued item else .full)
  | .dequeue =>
    match queue.dequeue with
    | none => (queue, .empty)
    | some (item, rest) => (rest, .dequeued item)

/-- The bounded queue under any sequence of calls. -/
def system (α : Type) (capacity : Nat) :
    TransitionSystem (BoundedQueue α capacity) (QueueCall α) (QueueAnswer α) where
  step queue call := some (queue.answer call)

/-- The items of the calls of Enqueue that were accepted, oldest first. -/
def enqueued (answers : List (QueueAnswer α)) : List α := answers.filterMap QueueAnswer.enqueued?

/-- The items that were dequeued, oldest first. -/
def dequeued (answers : List (QueueAnswer α)) : List α := answers.filterMap QueueAnswer.dequeued?

variable {queue next : BoundedQueue α capacity} {answers : List (QueueAnswer α)} {item : α}
  {rest : List α}

/-- What an answer says of the items before and after it. -/
inductive Answered (queue next : BoundedQueue α capacity) : QueueAnswer α → Prop where
  | enqueued {item : α} (room : queue.items.length < capacity)
      (items : next.items = queue.items ++ [item]) : Answered queue next (.enqueued item)
  | full (full : queue.items.length = capacity) (same : next = queue) : Answered queue next .full
  | dequeued {item : α} (items : queue.items = item :: next.items) :
      Answered queue next (.dequeued item)
  | empty (empty : queue.items = []) (same : next = queue) : Answered queue next .empty

theorem answer_sound (queue : BoundedQueue α capacity) (call : QueueCall α) :
    Answered queue (queue.answer call).1 (queue.answer call).2 := by
  cases call with
  | enqueue item =>
      simp only [answer]
      rcases queue.enqueue_cases item with ⟨room, accepted, items⟩ | ⟨full, refused, same⟩
      · rw [accepted, if_pos rfl]
        exact .enqueued room items
      · rw [refused, if_neg Bool.false_ne_true]
        exact .full full same
  | dequeue =>
      simp only [answer]
      cases taken : queue.dequeue with
      | none =>
          obtain ⟨items, bounded⟩ := queue
          cases items with
          | nil => exact .empty rfl rfl
          | cons item items => cases taken
      | some both => exact .dequeued (dequeue_eq_some taken)

theorem runs_enqueued (room : queue.items.length < capacity) (item : α) :
    ∃ next : BoundedQueue α capacity, (system α capacity).Runs queue [.enqueued item] next ∧
      next.items = queue.items ++ [item] := by
  rcases queue.enqueue_cases item with ⟨-, accepted, items⟩ | ⟨full, -, -⟩
  · have transition : (system α capacity).step queue (.enqueue item) =
        some ((queue.enqueue item).1, .enqueued item) := by
      simp only [system, answer, accepted, if_true]
    exact ⟨_, .step .refl transition trivial, items⟩
  · exact absurd full (Nat.ne_of_lt room)

theorem runs_full (full : queue.items.length = capacity) (item : α) :
    (system α capacity).Runs queue [.full] queue := by
  rcases queue.enqueue_cases item with ⟨room, -, -⟩ | ⟨-, refused, same⟩
  · exact absurd full (Nat.ne_of_lt room)
  · have transition : (system α capacity).step queue (.enqueue item) = some (queue, .full) := by
      simp only [system, answer, refused, same, Bool.false_eq_true, if_false]
    exact .step .refl transition trivial

theorem runs_dequeued (oldest : queue.items = item :: rest) :
    ∃ next : BoundedQueue α capacity, (system α capacity).Runs queue [.dequeued item] next ∧
      next.items = rest := by
  obtain ⟨items, bounded⟩ := queue
  cases oldest
  have transition : (system α capacity).step ⟨item :: rest, bounded⟩ .dequeue =
      some (⟨rest, Nat.le_of_succ_le bounded⟩, .dequeued item) := rfl
  exact ⟨_, .step .refl transition trivial, rfl⟩

theorem runs_empty (empty : queue.items = []) : (system α capacity).Runs queue [.empty] queue := by
  obtain ⟨items, bounded⟩ := queue
  cases empty
  have transition : (system α capacity).step ⟨[], bounded⟩ .dequeue = some (⟨[], bounded⟩, .empty) :=
    rfl
  exact .step .refl transition trivial

/-- Nothing is lost, added or reordered: what has been enqueued is what has been dequeued
and what is still there. -/
theorem conserved (run : (system α capacity).Runs .empty answers queue) :
    enqueued answers = dequeued answers ++ queue.items := by
  apply run.invariant fun answers queue => enqueued answers = dequeued answers ++ queue.items
  · rfl
  · intro answers queue call next event _ before transition _
    have moved : queue.answer call = (next, event) := Option.some.inj transition
    have answered : Answered queue next event := by
      have sound := queue.answer_sound call
      rwa [moved] at sound
    rw [enqueued, dequeued] at before ⊢
    rw [filterMap_concat, filterMap_concat, before]
    cases answered with
    | enqueued room items => simp [QueueAnswer.enqueued?, QueueAnswer.dequeued?, items]
    | dequeued items => simp [QueueAnswer.enqueued?, QueueAnswer.dequeued?, items]
    | full _ same | empty _ same => simp [QueueAnswer.enqueued?, QueueAnswer.dequeued?, same]

end BoundedQueue
end MmoServer.Std
