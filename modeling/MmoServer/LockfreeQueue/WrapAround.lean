import MmoServer.LockfreeQueue.MPMCDelivery
import MmoServer.Std.BoundedQueue

/-!
# MPMCQueue across the end of its counters

One thread that calls Enqueue and Dequeue gets the answers of a bounded queue, from
every start of the counters and for any number of calls. Positions do not help here,
for they are exact only below 2^64 claims: `Stores` says in the words themselves
which slots hold which items, and every step keeps it, also the one after which a
counter is 0 again.
-/

namespace MmoServer.LockfreeQueue

open MmoServer.Std MmoServer.Semantics

/-! ## What a queue stores, in words -/

/-- The memory of a queue that stores `items`, oldest first, between its counters. -/
structure Stores {α : Type} {capacity : QueueCapacity} (slots : QueueSlots α capacity)
    (head tail : QueueSequence) (items : List α) : Prop where
  bounded : items.length ≤ capacity.value
  ends : tail = head + UInt64.ofNat items.length
  filled : ∀ count item, items[count]? = some item →
    slots (capacity.index (head + UInt64.ofNat count)) =
      { sequence := head + UInt64.ofNat count + 1, storage := item }
  free : ∀ count, items.length ≤ count → count < capacity.value →
    (slots (capacity.index (head + UInt64.ofNat count))).sequence = head + UInt64.ofNat count

namespace Stores

variable {α : Type} {capacity : QueueCapacity} {slots : QueueSlots α capacity}
  {head tail pos : QueueSequence} {items rest : List α} {item left : α}

/-- A new queue stores nothing. -/
theorem startedAt {base : QueueSequence} (aligned : capacity.value ∣ base.toNat)
    (storage : Fin capacity.value → α) : Stores (constructedSlots base storage) base base [] where
  bounded := Nat.zero_le _
  ends := (add_ofNat_zero base).symm
  filled count item here := nomatch here
  free count _ less := by
    have place : (capacity.index (base + UInt64.ofNat count)).val = count := by
      obtain ⟨laps, start⟩ := aligned
      rw [capacity.index_add, start, Nat.mul_add_mod, Nat.mod_eq_of_lt less]
    rw [constructedSlots, place]

/-- The slot at the tail waits for it while there is room. -/
theorem at_tail (stores : Stores slots head tail items) (room : items.length < capacity.value) :
    (slots (capacity.index tail)).sequence = tail := by
  rw [stores.ends]
  exact stores.free _ (Nat.le_refl _) room

/-- The slot at the tail of a full queue is that of the head, with its item. -/
theorem at_tail_of_full (stores : Stores slots head tail items)
    (full : items.length = capacity.value) : (slots (capacity.index tail)).sequence = head + 1 := by
  have positive : 0 < items.length := full ▸ Nat.pos_of_neZero _
  have oldest := stores.filled 0 items[0] (List.getElem?_eq_getElem positive)
  rw [add_ofNat_zero] at oldest
  rw [stores.ends, full, capacity.index_add_capacity, oldest]

/-- Enqueue finds the slot at the tail of a full queue behind. -/
theorem behind_of_full (stores : Stores slots head tail items)
    (full : items.length = capacity.value) :
    sequenceDiff (slots (capacity.index tail)).sequence tail < 0 := by
  have several := capacity.atLeastTwo
  have small := capacity.le_half
  have below := head.toNat_lt
  have one : (1 : UInt64).toNat = 1 := rfl
  rw [sequenceDiff_neg_iff, stores.at_tail_of_full full, stores.ends, full]
  simp only [UInt64.toNat_sub, UInt64.toNat_add, UInt64.toNat_ofNat', one]
  omega

/-- The slot at the head has the oldest item. -/
theorem at_head (stores : Stores slots head tail (item :: rest)) :
    slots (capacity.index head) = { sequence := head + 1, storage := item } := by
  have oldest := stores.filled 0 item rfl
  rwa [add_ofNat_zero] at oldest

/-- The slot at the head of an empty queue waits for an item. -/
theorem at_head_of_empty (stores : Stores slots head tail []) :
    (slots (capacity.index head)).sequence = head := by
  have free := stores.free 0 (Nat.le_refl _) (Nat.pos_of_neZero _)
  rwa [add_ofNat_zero] at free

/-- Dequeue finds the slot at the head of an empty queue behind. -/
theorem behind_of_empty (stores : Stores slots head tail []) :
    sequenceDiff (slots (capacity.index head)).sequence (head + 1) < 0 := by
  have below := head.toNat_lt
  have one : (1 : UInt64).toNat = 1 := rfl
  rw [sequenceDiff_neg_iff, stores.at_head_of_empty]
  simp only [UInt64.toNat_sub, UInt64.toNat_add, one]
  omega

/-- An item written and published at the tail is the newest one. -/
theorem enqueue (stores : Stores slots head pos items) (room : items.length < capacity.value)
    (item : α) :
    Stores (QueueSlots.setSequence (QueueSlots.setStorage slots pos item) pos (pos + 1))
      head (pos + 1) (items ++ [item]) := by
  have elsewhere : ∀ count, count < capacity.value → count ≠ items.length →
      capacity.index (head + UInt64.ofNat count) ≠ capacity.index pos := by
    intro count less apart same
    rw [stores.ends] at same
    exact apart ((capacity.index_add_inj head less room).mp same)
  constructor
  · rw [List.length_append]
    exact room
  · rw [stores.ends, List.length_append, List.length_singleton, UInt64.ofNat_add, UInt64.add_assoc]
    rfl
  · intro count found here
    rcases Nat.lt_or_ge count items.length with older | newest
    · rw [List.getElem?_append_left older] at here
      have place := elsewhere count (Nat.lt_trans older room) (Nat.ne_of_lt older)
      rw [QueueSlots.setSequence, Function.update_of_ne place, QueueSlots.setStorage,
        Function.update_of_ne place, stores.filled count found here]
    · rw [List.getElem?_append_right newest, List.getElem?_singleton] at here
      split at here
      · next last =>
        cases here
        obtain rfl : count = items.length := by omega
        rw [← stores.ends, QueueSlots.setSequence, Function.update_self, QueueSlots.setStorage,
          Function.update_self]
      · cases here
  · intro count behind less
    rw [List.length_append, List.length_singleton] at behind
    have place := elsewhere count less (Nat.ne_of_gt behind)
    rw [QueueSlots.setSequence, Function.update_of_ne place, QueueSlots.setStorage,
      Function.update_of_ne place]
    exact stores.free count (Nat.le_of_succ_le behind) less

/-- An item taken and released at the head was the oldest one. -/
theorem dequeue (stores : Stores slots pos tail (item :: rest)) (left : α) :
    Stores (QueueSlots.setSequence (QueueSlots.setStorage slots pos left) pos
      (pos + UInt64.ofNat capacity.value)) (pos + 1) tail rest := by
  have bounded : rest.length < capacity.value := stores.bounded
  have elsewhere : ∀ count, count + 1 < capacity.value →
      capacity.index (pos + 1 + UInt64.ofNat count) ≠ capacity.index pos := by
    intro count less same
    have first : capacity.index (pos + UInt64.ofNat (count + 1)) =
        capacity.index (pos + UInt64.ofNat 0) := by
      rw [add_ofNat_succ, add_ofNat_zero]
      exact same
    exact absurd ((capacity.index_add_inj pos less (Nat.pos_of_neZero _)).mp first)
      (Nat.succ_ne_zero count)
  constructor
  · exact Nat.le_of_lt bounded
  · rw [stores.ends, List.length_cons, add_ofNat_succ]
  · intro count found here
    obtain ⟨inside, -⟩ := List.getElem?_eq_some_iff.mp here
    have place := elsewhere count (Nat.lt_of_le_of_lt inside bounded)
    have later := stores.filled (count + 1) found (by rw [List.getElem?_cons_succ, here])
    rw [add_ofNat_succ] at later
    rw [QueueSlots.setSequence, Function.update_of_ne place, QueueSlots.setStorage,
      Function.update_of_ne place, later]
  · intro count behind less
    rcases Nat.lt_or_ge (count + 1) capacity.value with inside | last
    · have place := elsewhere count inside
      have later := stores.free (count + 1) (Nat.succ_le_succ behind) inside
      rw [add_ofNat_succ] at later
      rw [QueueSlots.setSequence, Function.update_of_ne place, QueueSlots.setStorage,
        Function.update_of_ne place, later]
    · -- The released slot is the last one of the next lap.
      have lap : count + 1 = capacity.value := Nat.le_antisymm less last
      have there : pos + 1 + UInt64.ofNat count = pos + UInt64.ofNat capacity.value := by
        rw [← add_ofNat_succ, lap]
      rw [there, capacity.index_add_capacity, QueueSlots.setSequence, Function.update_self]

end Stores

/-! ## One call -/

/-- What a call returns, with the item that Dequeue moves into `out`. -/
inductive Answer (α : Type) where
  | enqueued (accepted : Bool)
  | dequeued (item : Option α)
deriving DecidableEq

/-- What Enqueue answers at a step that decides it. -/
def EnqueueEvent.answer? {α : Type} : EnqueueEvent α → Option (Answer α)
  | .published _ _ => some (.enqueued true)
  | .refused => some (.enqueued false)
  | _ => none

/-- What Dequeue answers at a step that decides it. -/
def DequeueEvent.answer? {α : Type} : DequeueEvent α → Option (Answer α)
  | .released _ item => some (.dequeued (some item))
  | .refused => some (.dequeued none)
  | _ => none

namespace MPMCQueue

/-- What a bounded queue makes of a call, and its answer. -/
def Call.ask {α : Type} {bound : Nat} (fifo : BoundedQueue α bound) :
    Call α → BoundedQueue α bound × Answer α
  | .enqueue item => ((fifo.enqueue item).1, .enqueued (fifo.enqueue item).2)
  | .dequeue =>
    match fifo.dequeue with
    | none => (fifo, .dequeued none)
    | some (item, rest) => (rest, .dequeued (some item))

/-- What a bounded queue makes of calls one after the other, and its answers. -/
def Call.askAll {α : Type} {bound : Nat} (fifo : BoundedQueue α bound) :
    List (Call α) → BoundedQueue α bound × List (Answer α)
  | [] => (fifo, [])
  | call :: calls =>
    let later := askAll (call.ask fifo).1 calls
    (later.1, (call.ask fifo).2 :: later.2)

theorem Call.askAll_concat {α : Type} {bound : Nat} (fifo : BoundedQueue α bound)
    (calls : List (Call α)) (call : Call α) :
    askAll fifo (calls ++ [call]) = ((call.ask (askAll fifo calls).1).1,
      (askAll fifo calls).2 ++ [(call.ask (askAll fifo calls).1).2]) := by
  induction calls generalizing fifo with
  | nil => rfl
  | cons first calls ih => simp only [List.cons_append, askAll, ih]

/-- An empty queue answers with nothing. -/
theorem Call.ask_dequeue_nil {α : Type} {bound : Nat} {fifo : BoundedQueue α bound}
    (empty : fifo.items = []) : Call.dequeue.ask fifo = (fifo, .dequeued none) := by
  obtain ⟨items, bounded⟩ := fifo
  cases empty
  rfl

/-- Any other answers with its oldest item. -/
theorem Call.ask_dequeue_cons {α : Type} {bound : Nat} {fifo : BoundedQueue α bound} {item : α}
    {rest : List α} (oldest : fifo.items = item :: rest) :
    (Call.dequeue.ask fifo).1.items = rest ∧
      (Call.dequeue.ask fifo).2 = .dequeued (some item) := by
  obtain ⟨items, bounded⟩ := fifo
  cases oldest
  exact ⟨rfl, rfl⟩

end MPMCQueue

variable {α : Type} {capacity : QueueCapacity} {slots : QueueSlots α capacity}
  {head tail : QueueSequence} {fifo : BoundedQueue α capacity.value}

/-- A thread in Enqueue on a queue that nobody else uses. Until the sequence store the
queue is the one without the item. -/
def EnqueueState.Serves (slots : QueueSlots α capacity) (head tail : QueueSequence)
    (fifo : BoundedQueue α capacity.value) : EnqueueState α → Prop
  | .loadTail _ => Stores slots head tail fifo.items
  | .loadSequence _ pos => Stores slots head tail fifo.items ∧ pos = tail
  | .compareExchange _ pos => Stores slots head tail fifo.items ∧ pos = tail ∧
      fifo.items.length < capacity.value
  | .moveIn _ pos => Stores slots head pos fifo.items ∧ tail = pos + 1 ∧
      fifo.items.length < capacity.value
  | .storeSequence item pos => tail = pos + 1 ∧ fifo.items.length < capacity.value ∧
      ∃ before, Stores before head pos fifo.items ∧ slots = QueueSlots.setStorage before pos item

/-- A thread in Dequeue on a queue that nobody else uses. Until the sequence store the
queue is the one with the item. -/
def DequeueState.Serves (slots : QueueSlots α capacity) (head tail : QueueSequence)
    (fifo : BoundedQueue α capacity.value) : DequeueState α → Prop
  | .loadHead => Stores slots head tail fifo.items
  | .loadSequence pos => Stores slots head tail fifo.items ∧ pos = head
  | .compareExchange pos => Stores slots head tail fifo.items ∧ pos = head ∧ fifo.items ≠ []
  | .moveOut pos => Stores slots pos tail fifo.items ∧ head = pos + 1 ∧ fifo.items ≠ []
  | .storeSequence pos item => head = pos + 1 ∧ ∃ rest, fifo.items = item :: rest ∧
      ∃ before left, Stores before pos tail (item :: rest) ∧
        slots = QueueSlots.setStorage before pos left

namespace MPMCQueue

/-- A thread that alone uses a queue. -/
def ThreadState.Serves (slots : QueueSlots α capacity) (head tail : QueueSequence)
    (fifo : BoundedQueue α capacity.value) : ThreadState α → Prop
  | .idle => Stores slots head tail fifo.items
  | .enqueue state => state.Serves slots head tail fifo
  | .dequeue state => state.Serves slots head tail fifo

/-- The call that a thread is in. -/
def ThreadState.call? : ThreadState α → Option (Call α)
  | .idle => none
  | .enqueue (.loadTail item) | .enqueue (.loadSequence item _)
  | .enqueue (.compareExchange item _) | .enqueue (.moveIn item _)
  | .enqueue (.storeSequence item _) => some (.enqueue item)
  | .dequeue _ => some .dequeue

/-- The steps that are left of a call when no compare-exchange fails. -/
def ThreadState.stepsLeft : ThreadState α → Nat
  | .idle => 0
  | .enqueue (.loadTail _) | .dequeue .loadHead => 5
  | .enqueue (.loadSequence _ _) | .dequeue (.loadSequence _) => 4
  | .enqueue (.compareExchange _ _) | .dequeue (.compareExchange _) => 3
  | .enqueue (.moveIn _ _) | .dequeue (.moveOut _) => 2
  | .enqueue (.storeSequence _ _) | .dequeue (.storeSequence _ _) => 1

/-- What a step inside a call comes to: the call goes on, or it is answered as the
bounded queue answers it. -/
inductive Served (fifo : BoundedQueue α capacity.value) (before : ThreadState α) (spurious : Bool)
    (slots : QueueSlots α capacity) (head tail : QueueSequence) (after : ThreadState α)
    (answer? : Option (Answer α)) : Prop where
  | goesOn (serves : after.Serves slots head tail fifo) (same : after.call? = before.call?)
      (closer : spurious = false → after.stepsLeft < before.stepsLeft) (silent : answer? = none)
  | answers {call : Call α} (asked : before.call? = some call) (returned : after = .idle)
      (stores : Stores slots head tail (call.ask fifo).1.items)
      (answer : answer? = some (call.ask fifo).2)

end MPMCQueue

/-- Every step of Enqueue goes on or answers as the bounded queue does. -/
theorem EnqueueState.step_serves {state : EnqueueState α} (spurious : Bool)
    (serves : state.Serves slots head tail fifo) :
    MPMCQueue.Served fifo (.enqueue state) spurious (state.step slots tail spurious).slots head
      (state.step slots tail spurious).tail (.ofEnqueue (state.step slots tail spurious).state)
      (state.step slots tail spurious).event.answer? := by
  cases state with
  | loadTail item => exact .goesOn ⟨serves, rfl⟩ rfl (fun _ => Nat.lt_succ_self 4) rfl
  | loadSequence item pos =>
      obtain ⟨stores, rfl⟩ := serves
      rcases fifo.enqueue_cases item with ⟨room, -, -⟩ | ⟨full, refused, same⟩
      · have free : sequenceDiff (slots (capacity.index pos)).sequence pos = 0 :=
          sequenceDiff_eq_zero_iff.mpr (stores.at_tail room)
        simp only [step, if_pos free]
        exact .goesOn ⟨stores, rfl, room⟩ rfl (fun _ => Nat.lt_succ_self 3) rfl
      · have behind := stores.behind_of_full full
        simp only [step, if_neg (Int64.ne_of_lt behind), if_pos behind]
        refine .answers rfl rfl ?_ ?_
        · rw [MPMCQueue.Call.ask, same]
          exact stores
        · rw [MPMCQueue.Call.ask, refused]
          rfl
  | compareExchange item pos =>
      obtain ⟨stores, rfl, room⟩ := serves
      cases spurious with
      | false =>
          simp only [step, and_self, if_true]
          exact .goesOn ⟨stores, rfl, room⟩ rfl (fun _ => Nat.lt_succ_self 2) rfl
      | true =>
          simp only [step, Bool.true_eq_false, and_false, if_false]
          exact .goesOn ⟨stores, rfl⟩ rfl (fun undisturbed => by cases undisturbed) rfl
  | moveIn item pos =>
      obtain ⟨stores, ends, room⟩ := serves
      exact .goesOn ⟨ends, room, slots, stores, rfl⟩ rfl (fun _ => Nat.lt_succ_self 1) rfl
  | storeSequence item pos =>
      obtain ⟨rfl, room, before, stores, rfl⟩ := serves
      rcases fifo.enqueue_cases item with ⟨-, accepted, items⟩ | ⟨full, -, -⟩
      · refine .answers rfl rfl ?_ ?_
        · rw [MPMCQueue.Call.ask, items]
          exact stores.enqueue room item
        · rw [MPMCQueue.Call.ask, accepted]
          rfl
      · exact absurd full (Nat.ne_of_lt room)

/-- Every step of Dequeue goes on or answers as the bounded queue does. -/
theorem DequeueState.step_serves {state : DequeueState α} (spurious : Bool) (left : α)
    (serves : state.Serves slots head tail fifo) :
    MPMCQueue.Served fifo (.dequeue state) spurious (state.step slots head spurious left).slots
      (state.step slots head spurious left).head tail
      (.ofDequeue (state.step slots head spurious left).state)
      (state.step slots head spurious left).event.answer? := by
  cases state with
  | loadHead => exact .goesOn ⟨serves, rfl⟩ rfl (fun _ => Nat.lt_succ_self 4) rfl
  | loadSequence pos =>
      obtain ⟨stores, rfl⟩ := serves
      cases items : fifo.items with
      | nil =>
          rw [items] at stores
          have behind := stores.behind_of_empty
          simp only [step, if_neg (Int64.ne_of_lt behind), if_pos behind]
          refine .answers rfl rfl ?_ ?_
          · rw [MPMCQueue.Call.ask_dequeue_nil items, items]
            exact stores
          · rw [MPMCQueue.Call.ask_dequeue_nil items]
            rfl
      | cons item rest =>
          have oldest := stores
          rw [items] at oldest
          have filled : sequenceDiff (slots (capacity.index pos)).sequence (pos + 1) = 0 := by
            rw [sequenceDiff_eq_zero_iff, oldest.at_head]
          have nonempty : fifo.items ≠ [] := by
            rw [items]
            exact List.cons_ne_nil _ _
          simp only [step, if_pos filled]
          exact .goesOn ⟨stores, rfl, nonempty⟩ rfl (fun _ => Nat.lt_succ_self 3) rfl
  | compareExchange pos =>
      obtain ⟨stores, rfl, nonempty⟩ := serves
      cases spurious with
      | false =>
          simp only [step, and_self, if_true]
          exact .goesOn ⟨stores, rfl, nonempty⟩ rfl (fun _ => Nat.lt_succ_self 2) rfl
      | true =>
          simp only [step, Bool.true_eq_false, and_false, if_false]
          exact .goesOn ⟨stores, rfl⟩ rfl (fun undisturbed => by cases undisturbed) rfl
  | moveOut pos =>
      obtain ⟨stores, ends, nonempty⟩ := serves
      obtain ⟨item, rest, items⟩ := List.exists_cons_of_ne_nil nonempty
      rw [items] at stores
      simp only [step, stores.at_head]
      exact .goesOn ⟨ends, rest, items, slots, left, stores, rfl⟩ rfl
        (fun _ => Nat.lt_succ_self 1) rfl
  | storeSequence pos item =>
      obtain ⟨rfl, rest, items, before, left, stores, rfl⟩ := serves
      obtain ⟨remaining, answer⟩ := MPMCQueue.Call.ask_dequeue_cons items
      refine .answers rfl rfl ?_ ?_
      · rw [remaining]
        exact stores.dequeue left
      · rw [answer]
        rfl

/-! ## Every run of one thread -/

namespace MPMCQueue

/-- The thread that moves. -/
def Choice.thread : Choice α → ThreadIndex
  | .call thread _ | .step thread _ _ => thread

/-- The call that a thread enters. -/
def Event.call? : Event α → Option (Call α)
  | .called _ call => some call
  | _ => none

/-- What a call answers at a step that decides it. -/
def Event.answer? : Event α → Option (Answer α)
  | .called _ _ => none
  | .enqueue _ event => event.answer?
  | .dequeue _ event => event.answer?

/-- The calls of a trace and what they have returned. -/
def calls (events : List (Event α)) : List (Call α) := events.filterMap Event.call?

/-- The answers of a run, in the order of the steps that decide them. -/
def answers (events : List (Event α)) : List (Answer α) := events.filterMap Event.answer?

/-- All steps are one thread's. -/
def OneThread (thread : ThreadIndex) :
    TransitionSystem.StepCondition (MPMCQueue α capacity) (Choice α) (Event α) :=
  fun _ _ choice _ => choice.thread = thread

instance (thread : ThreadIndex) (events : List (Event α)) (queue : MPMCQueue α capacity)
    (choice : Choice α) (event : Event α) :
    Decidable (OneThread thread events queue choice event) :=
  inferInstanceAs (Decidable (_ = _))

/-- The thread returns within a number of steps if no compare-exchange fails, whatever
its move leaves in the slot. -/
def ReturnsWithin (thread : ThreadIndex) : Nat → MPMCQueue α capacity → Prop
  | 0, queue => queue.threads thread = .idle
  | count + 1, queue => queue.threads thread = .idle ∨ ∀ left, ∃ next event,
      queue.step (.step thread false left) = some (next, event) ∧ ReturnsWithin thread count next

/-- The queue serves a thread as a bounded queue does: the calls before the current one
have been answered. -/
structure ServesThread (thread : ThreadIndex) (earlier : List (Call α)) (events : List (Event α))
    (queue : MPMCQueue α capacity) : Prop where
  asked : calls events = earlier ++ (queue.threads thread).call?.toList
  answered : answers events = (Call.askAll (.empty : BoundedQueue α capacity.value) earlier).2
  serves : (queue.threads thread).Serves queue.slots queue.head queue.tail
    (Call.askAll .empty earlier).1

theorem calls_concat (events : List (Event α)) (event : Event α) :
    calls (events ++ [event]) = calls events ++ event.call?.toList :=
  filterMap_concat Event.call? events event

theorem answers_concat (events : List (Event α)) (event : Event α) :
    answers (events ++ [event]) = answers events ++ event.answer?.toList :=
  filterMap_concat Event.answer? events event

/-- A thread that enters a call is in it. -/
theorem call?_enter (call : Call α) : call.enter.call? = some call := by
  cases call <;> rfl

variable {thread : ThreadIndex} {earlier : List (Call α)} {events : List (Event α)}
  {queue next : MPMCQueue α capacity} {choice : Choice α} {event : Event α}
  {storage : Fin capacity.value → α} {base : QueueSequence} {spurious : Bool} {left : α}

/-- The other threads stay where they are. -/
theorem idle_of_runs {start : MPMCQueue α capacity}
    (run : (system α capacity).RunsUnder (OneThread thread) start events queue)
    (idle : ∀ other, other ≠ thread → start.threads other = .idle) :
    ∀ other, other ≠ thread → queue.threads other = .idle := by
  apply run.invariant fun _ queue => ∀ other, other ≠ thread → queue.threads other = .idle
  · exact idle
  · intro events queue choice next event _ still transition mine other apart
    cases step_sound transition with
    | call | enqueue | dequeue =>
        obtain rfl := mine
        exact (Function.update_of_ne apart _ _).trans (still other apart)

/-- What one step of the thread inside a call comes to. -/
theorem step_served (serves : (queue.threads thread).Serves queue.slots queue.head queue.tail fifo)
    (transition : queue.step (.step thread spurious left) = some (next, event)) :
    event.call? = none ∧ Served fifo (queue.threads thread) spurious next.slots next.head next.tail
      (next.threads thread) event.answer? := by
  cases step_sound transition with
  | enqueue here =>
      rw [here] at serves
      refine ⟨rfl, ?_⟩
      rw [here, afterEnqueue]
      dsimp only
      rw [Function.update_self]
      exact EnqueueState.step_serves spurious serves
  | dequeue here =>
      rw [here] at serves
      refine ⟨rfl, ?_⟩
      rw [here, afterDequeue]
      dsimp only
      rw [Function.update_self]
      exact DequeueState.step_serves spurious left serves

/-- A thread that is in a call can always take a step. -/
theorem step_of_busy (busy : queue.threads thread ≠ .idle) (spurious : Bool) (left : α) :
    ∃ next event, queue.step (.step thread spurious left) = some (next, event) := by
  cases here : queue.threads thread with
  | idle => exact absurd here busy
  | enqueue state => exact ⟨_, _, by
      simp only [step, here]
      rfl⟩
  | dequeue state => exact ⟨_, _, by
      simp only [step, here]
      rfl⟩

/-- No call takes more than five steps without interference. -/
theorem ThreadState.stepsLeft_le (state : ThreadState α) : state.stepsLeft ≤ 5 := by
  cases state with
  | idle => exact Nat.zero_le 5
  | enqueue state => cases state <;> simp [ThreadState.stepsLeft]
  | dequeue state => cases state <;> simp [ThreadState.stepsLeft]

/-- A thread with no step left is outside. -/
theorem ThreadState.idle_of_stepsLeft {state : ThreadState α} (done : state.stepsLeft = 0) :
    state = .idle := by
  cases state with
  | idle => rfl
  | enqueue state => cases state <;> cases done
  | dequeue state => cases state <;> cases done

/-- A thread outside has returned. -/
theorem returnsWithin_of_idle (idle : queue.threads thread = .idle) (count : Nat) :
    ReturnsWithin thread count queue := by
  cases count with
  | zero => exact idle
  | succ count => exact .inl idle

/-- A call of a thread that alone uses the queue ends. -/
theorem returnsWithin_of_serves
    (serves : (queue.threads thread).Serves queue.slots queue.head queue.tail fifo)
    {count : Nat} (enough : (queue.threads thread).stepsLeft ≤ count) :
    ReturnsWithin thread count queue := by
  induction count generalizing queue with
  | zero => exact ThreadState.idle_of_stepsLeft (Nat.le_zero.mp enough)
  | succ count ih =>
      by_cases idle : queue.threads thread = .idle
      · exact .inl idle
      · refine .inr fun left => ?_
        obtain ⟨next, event, transition⟩ := step_of_busy idle false left
        refine ⟨next, event, transition, ?_⟩
        cases (step_served serves transition).2 with
        | goesOn serves _ closer =>
            exact ih serves (Nat.le_of_lt_succ (Nat.lt_of_lt_of_le (closer rfl) enough))
        | answers _ returned => exact returnsWithin_of_idle returned count

/-- A new queue has served the empty sequence of calls. -/
theorem servesThread_startedAt (aligned : capacity.value ∣ base.toNat) :
    ServesThread thread [] [] (startedAt base storage) where
  asked := rfl
  answered := rfl
  serves := .startedAt aligned storage

/-- A step of the thread goes on in its call, enters one or answers one. -/
theorem ServesThread.step (serves : ServesThread thread earlier events queue)
    (transition : queue.step choice = some (next, event)) (mine : choice.thread = thread) :
    ∃ later, ServesThread thread later (events ++ [event]) next := by
  obtain ⟨asked, answered, serves⟩ := serves
  cases choice with
  | call other call =>
      obtain rfl : other = thread := mine
      cases step_sound transition with
      | call idle =>
          rw [idle] at asked serves
          refine ⟨earlier, ?_, ?_, ?_⟩
          · rw [calls_concat, asked]
            dsimp only
            rw [Function.update_self, call?_enter]
            exact congrArg (· ++ [call]) (List.append_nil earlier)
          · rw [answers_concat, answered]
            exact List.append_nil _
          · dsimp only
            rw [Function.update_self]
            cases call <;> exact serves
  | step other spurious left =>
      obtain rfl : other = thread := mine
      obtain ⟨uncalled, served⟩ := step_served serves transition
      cases served with
      | goesOn serves same closer silent =>
          refine ⟨earlier, ?_, ?_, serves⟩
          · rw [calls_concat, asked, uncalled, same]
            exact List.append_nil _
          · rw [answers_concat, answered, silent]
            exact List.append_nil _
      | @answers call current returned stores answer =>
          refine ⟨earlier ++ [call], ?_, ?_, ?_⟩
          · rw [calls_concat, asked, uncalled, current, returned]
            rfl
          · rw [answers_concat, answered, answer, Call.askAll_concat]
            rfl
          · rw [returned, Call.askAll_concat]
            exact stores

/-- The queue serves its one thread along every run. -/
theorem servesThread_of_runs (aligned : capacity.value ∣ base.toNat)
    (run : (system α capacity).RunsUnder (OneThread thread) (startedAt base storage) events queue) :
    ∃ earlier, ServesThread thread earlier events queue := by
  apply run.invariant fun events queue => ∃ earlier, ServesThread thread earlier events queue
  · exact ⟨[], servesThread_startedAt aligned⟩
  · rintro events queue choice next event - ⟨earlier, serves⟩ transition mine
    exact serves.step transition mine

/-- One thread alone gets from the queue what it gets from a bounded queue, whatever
multiple of the capacity the counters start at and however often they pass the end
of their words: each call returns, and the answers are those of the bounded queue. -/
theorem single_thread_refines_bounded_queue (capacity : QueueCapacity) (base : QueueSequence)
    (aligned : capacity.value ∣ base.toNat) (storage : Fin capacity.value → α)
    (thread : ThreadIndex) (events : List (Event α)) (queue : MPMCQueue α capacity)
    (run : (system α capacity).RunsUnder (OneThread thread) (startedAt base storage) events queue) :
    answers events <+: (Call.askAll (.empty : BoundedQueue α capacity.value) (calls events)).2 ∧
      (queue.threads thread = .idle → answers events =
        (Call.askAll (.empty : BoundedQueue α capacity.value) (calls events)).2) ∧
      ReturnsWithin thread 5 queue := by
  obtain ⟨earlier, asked, answered, serves⟩ := servesThread_of_runs aligned run
  refine ⟨?_, ?_, returnsWithin_of_serves serves (ThreadState.stepsLeft_le _)⟩
  · rw [asked, answered]
    cases (queue.threads thread).call? with
    | none => simp
    | some call =>
        rw [Option.toList_some, Call.askAll_concat]
        exact List.prefix_append _ _
  · intro idle
    rw [asked, answered, idle]
    simp [ThreadState.call?]

/-- Two slots whose counters pass 2^64: three items are offered, two are stored. -/
theorem two_slots_wrap_as_bounded_queue : ∃ events queue,
    (system Nat twoSlots).RunsUnder (OneThread 0) (startedAt 18446744073709551614 fun _ => 0)
      events queue ∧
    queue.tail = 1 ∧ answers events =
      (Call.askAll (.empty : BoundedQueue Nat twoSlots.value) (calls events)).2 ∧
    answers events = [.enqueued true, .enqueued true, .enqueued false, .dequeued (some 10),
      .enqueued true, .dequeued (some 20), .dequeued (some 40), .dequeued none] := by
  obtain ⟨events, queue, run, tail, idle, answered⟩ := (system Nat twoSlots).runs_of_exec
    (OneThread 0) (startedAt 18446744073709551614 fun _ => 0)
    (.call 0 (.enqueue 10) :: steps 0 5 ++ .call 0 (.enqueue 20) :: steps 0 5 ++
      .call 0 (.enqueue 30) :: steps 0 2 ++ .call 0 .dequeue :: steps 0 5 ++
      .call 0 (.enqueue 40) :: steps 0 5 ++ .call 0 .dequeue :: steps 0 5 ++
      .call 0 .dequeue :: steps 0 5 ++ .call 0 .dequeue :: steps 0 2)
    (fun queue events => queue.tail = 1 ∧ (queue.threads 0).stepsLeft = 0 ∧
      answers events = [.enqueued true, .enqueued true, .enqueued false, .dequeued (some 10),
        .enqueued true, .dequeued (some 20), .dequeued (some 40), .dequeued none])
    (by decide +kernel)
  have served := single_thread_refines_bounded_queue twoSlots 18446744073709551614 (by decide)
    (fun _ => 0) 0 events queue run
  exact ⟨events, queue, run, tail, served.2.1 (ThreadState.idle_of_stepsLeft idle), answered⟩

end MPMCQueue
end MmoServer.LockfreeQueue
