import MmoServer.LockfreeQueue.Enqueue
import MmoServer.Std.RingHistory

/-!
# MPMCQueue

Any number of threads call Enqueue and Dequeue on one queue; their atomic steps
interleave without restriction. `protocolOf` reads a state as a state of the ring
protocol, and `refines_of_runs` says that every run is a run of the protocol for
as long as fewer than 2^63 positions have been claimed at the tail.
-/

namespace MmoServer.LockfreeQueue

open MmoServer.Std MmoServer.Semantics

abbrev ThreadIndex := Nat

/-- Where a thread is in Dequeue. -/
inductive DequeueState (α : Type) where
  /-- At `m_head.load`. -/
  | loadHead
  /-- At `slot.sequence.load`. -/
  | loadSequence (pos : QueueSequence)
  /-- At `m_head.compare_exchange_weak(pos, pos + 1)`. -/
  | compareExchange (pos : QueueSequence)
  /-- At `out = std::move(slot.storage)`. -/
  | moveOut (pos : QueueSequence)
  /-- At `slot.sequence.store(pos + Capacity)`. -/
  | storeSequence (pos : QueueSequence) (item : α)

/-- What a step of Dequeue shows. -/
inductive DequeueEvent (α : Type) where
  | silent
  /-- The compare-exchange succeeded. -/
  | claimed (pos : QueueSequence)
  | took (pos : QueueSequence) (item : α)
  /-- The sequence store, and `return true` with the item in `out`. -/
  | released (pos : QueueSequence) (item : α)
  /-- The sequence load found the slot behind, and `return false`. -/
  | refused
deriving DecidableEq

/-- The memory after a step of Dequeue. The state is `none` when it has returned. -/
structure DequeueStep (α : Type) (capacity : QueueCapacity) where
  slots : QueueSlots α capacity
  head : QueueSequence
  state : Option (DequeueState α)
  event : DequeueEvent α

namespace DequeueState

variable {α : Type} {capacity : QueueCapacity}

/-- The next step of Dequeue. `left` is what the move leaves in the slot. -/
def step (slots : QueueSlots α capacity) (head : QueueSequence) (spurious : Bool) (left : α) :
    DequeueState α → DequeueStep α capacity
  | .loadHead => { slots, head, state := some (.loadSequence head), event := .silent }
  | .loadSequence pos =>
    let seq := (slots (capacity.index pos)).sequence
    let diff := sequenceDiff seq (pos + 1)
    if diff = 0 then { slots, head, state := some (.compareExchange pos), event := .silent }
    else if diff < 0 then { slots, head, state := none, event := .refused }
    else { slots, head, state := some .loadHead, event := .silent }
  | .compareExchange pos =>
    if head = pos ∧ spurious = false then
      { slots, head := pos + 1, state := some (.moveOut pos), event := .claimed pos }
    else
      { slots, head, state := some (.loadSequence head), event := .silent }
  | .moveOut pos =>
    let item := (slots (capacity.index pos)).storage
    { slots := QueueSlots.setStorage slots pos left, head
      state := some (.storeSequence pos item), event := .took pos item }
  | .storeSequence pos item =>
    { slots := QueueSlots.setSequence slots pos (pos + UInt64.ofNat capacity.value), head
      state := none, event := .released pos item }

/-- What the thread holds of the ring. -/
def hold (start : Nat) : DequeueState α → Hold α
  | .loadHead | .loadSequence _ | .compareExchange _ => .none
  | .moveOut pos => .reading (toPosition start pos)
  | .storeSequence pos item => .taken (toPosition start pos) item

/-- What a thread that may have returned holds. -/
def hold? (start : Nat) : Option (DequeueState α) → Hold α
  | none => .none
  | some state => state.hold start

/-- What the thread has seen of the ring. -/
def Seen (start : Nat) (ring : SlotRing α capacity.value) : DequeueState α → Prop
  | .loadSequence pos => toPosition start pos ≤ ring.head
  | .compareExchange pos => ring.SeenFilled (toPosition start pos)
  | _ => True

end DequeueState

/-- The event as the ring protocol has it. -/
def DequeueEvent.label {α : Type} (start thread : Nat) :
    DequeueEvent α → Option (RingEvent Nat α)
  | .silent | .refused => none
  | .claimed pos => some (.claimedHead thread (toPosition start pos))
  | .took pos item => some (.took thread (toPosition start pos) item)
  | .released pos item => some (.released thread (toPosition start pos) item)

/-- The label tells the event and the thread. -/
theorem DequeueEvent.label_injective {α : Type} {start thread other : Nat}
    {first second : DequeueEvent α} {label : RingEvent Nat α}
    (shown : first.label start thread = some label)
    (also : second.label start other = some label) : thread = other ∧ first = second := by
  cases first <;> cases shown <;> cases second <;>
    simp_all [DequeueEvent.label, (toPosition_injective start).eq_iff]

namespace MPMCQueue

/-- Where a thread is. -/
inductive ThreadState (α : Type) where
  | idle
  | enqueue (state : EnqueueState α)
  | dequeue (state : DequeueState α)

/-- A call of a thread. -/
inductive Call (α : Type) where
  | enqueue (item : α)
  | dequeue
deriving DecidableEq

/-- Which thread moves. -/
inductive Choice (α : Type) where
  /-- An idle thread enters a call. -/
  | call (thread : ThreadIndex) (call : Call α)
  /-- A thread takes its next step. A compare-exchange fails if `spurious`, and a
  move out of a slot leaves `left` there. -/
  | step (thread : ThreadIndex) (spurious : Bool) (left : α)

/-- What a step shows of itself. -/
inductive Event (α : Type) where
  | called (thread : ThreadIndex) (call : Call α)
  | enqueue (thread : ThreadIndex) (event : EnqueueEvent α)
  | dequeue (thread : ThreadIndex) (event : DequeueEvent α)
deriving DecidableEq

end MPMCQueue

/-- A queue and the threads that use it. -/
structure MPMCQueue (α : Type) (capacity : QueueCapacity) where
  slots : QueueSlots α capacity
  head : QueueSequence
  tail : QueueSequence
  threads : ThreadIndex → MPMCQueue.ThreadState α

namespace MPMCQueue

variable {α : Type} {capacity : QueueCapacity}

/-- A queue whose counters start at a value; the constructor starts them at 0. -/
def startedAt (base : QueueSequence) (storage : Fin capacity.value → α) : MPMCQueue α capacity where
  slots := constructedSlots base storage
  head := base
  tail := base
  threads _ := .idle

/-- MPMCQueue::MPMCQueue. -/
def constructed (storage : Fin capacity.value → α) : MPMCQueue α capacity := startedAt 0 storage

/-- Where a thread is on entry. -/
def Call.enter : Call α → ThreadState α
  | .enqueue item => .enqueue (.loadTail item)
  | .dequeue => .dequeue .loadHead

/-- A thread back from Enqueue or still in it. -/
def ThreadState.ofEnqueue : Option (EnqueueState α) → ThreadState α
  | none => .idle
  | some state => .enqueue state

/-- A thread in Dequeue, or one that has returned from it. -/
def ThreadState.ofDequeue : Option (DequeueState α) → ThreadState α
  | none => .idle
  | some state => .dequeue state

/-- A thread enters a call, or takes its next atomic step. -/
def step (queue : MPMCQueue α capacity) :
    Choice α → Option (MPMCQueue α capacity × Event α)
  | .call thread call =>
    match queue.threads thread with
    | .idle =>
      some ({ queue with threads := Function.update queue.threads thread call.enter },
        .called thread call)
    | _ => none
  | .step thread spurious left =>
    match queue.threads thread with
    | .idle => none
    | .enqueue state =>
      let result := state.step queue.slots queue.tail spurious
      some ({ queue with
          slots := result.slots
          tail := result.tail
          threads := Function.update queue.threads thread (.ofEnqueue result.state) },
        .enqueue thread result.event)
    | .dequeue state =>
      let result := state.step queue.slots queue.head spurious left
      some ({ queue with
          slots := result.slots
          head := result.head
          threads := Function.update queue.threads thread (.ofDequeue result.state) },
        .dequeue thread result.event)

/-- The queue under any interleaving of its threads. -/
def system (α : Type) (capacity : QueueCapacity) :
    TransitionSystem (MPMCQueue α capacity) (Choice α) (Event α) where
  step := step

/-- The queue after a step of Enqueue. -/
def afterEnqueue (queue : MPMCQueue α capacity) (thread : ThreadIndex)
    (result : EnqueueStep α capacity) : MPMCQueue α capacity :=
  { queue with
    slots := result.slots
    tail := result.tail
    threads := Function.update queue.threads thread (.ofEnqueue result.state) }

/-- The queue after a step of Dequeue. -/
def afterDequeue (queue : MPMCQueue α capacity) (thread : ThreadIndex)
    (result : DequeueStep α capacity) : MPMCQueue α capacity :=
  { queue with
    slots := result.slots
    head := result.head
    threads := Function.update queue.threads thread (.ofDequeue result.state) }

/-- What a step of the queue can do. -/
inductive Step (queue : MPMCQueue α capacity) :
    Choice α → MPMCQueue α capacity → Event α → Prop
  | call {thread} (idle : queue.threads thread = .idle) (call) :
      Step queue (.call thread call)
        { queue with threads := Function.update queue.threads thread call.enter }
        (.called thread call)
  | enqueue {thread state} (here : queue.threads thread = .enqueue state) (spurious left) :
      Step queue (.step thread spurious left)
        (queue.afterEnqueue thread (state.step queue.slots queue.tail spurious))
        (.enqueue thread (state.step queue.slots queue.tail spurious).event)
  | dequeue {thread state} (here : queue.threads thread = .dequeue state) (spurious left) :
      Step queue (.step thread spurious left)
        (queue.afterDequeue thread (state.step queue.slots queue.head spurious left))
        (.dequeue thread (state.step queue.slots queue.head spurious left).event)

/-- Every step is one of those. -/
theorem step_sound {queue next : MPMCQueue α capacity} {choice : Choice α} {event : Event α}
    (transition : queue.step choice = some (next, event)) : Step queue choice next event := by
  cases choice with
  | call thread call =>
      simp only [step] at transition
      split at transition
      · next idle =>
        cases transition
        exact .call idle call
      · cases transition
  | step thread spurious left =>
      simp only [step] at transition
      split at transition
      · cases transition
      · next state here =>
        cases transition
        exact .enqueue here spurious left
      · next state here =>
        cases transition
        exact .dequeue here spurious left

/-! ## The queue as a ring protocol -/

/-- The step as one of the ring protocol, none for the steps that it does not see. -/
def Event.label (start : Nat) : Event α → Option (RingEvent Nat α)
  | .called _ _ => none
  | .enqueue thread event => event.label start thread
  | .dequeue thread event => event.label start thread

/-- A producer has claimed a position. -/
@[simp] def Event.claimsTail : Event α → Bool
  | .enqueue _ (.claimed _ _) => true
  | _ => false

/-- A consumer has claimed a position. -/
@[simp] def Event.claimsHead : Event α → Bool
  | .dequeue _ (.claimed _) => true
  | _ => false

/-- A Dequeue returns the item of a position. -/
@[simp] def Event.returns (pos : QueueSequence) : Event α → Bool
  | .dequeue _ (.released other _) => other = pos
  | _ => false

/-- The position a thread has claimed and neither published nor released. -/
def ThreadState.claimed? : ThreadState α → Option QueueSequence
  | .enqueue (.moveIn _ pos) | .enqueue (.storeSequence _ pos) => some pos
  | .dequeue (.moveOut pos) | .dequeue (.storeSequence pos _) => some pos
  | _ => none

/-- What the thread holds in the ring protocol. -/
def ThreadState.hold (start : Nat) : ThreadState α → Hold α
  | .idle => .none
  | .enqueue state => state.hold start
  | .dequeue state => state.hold start

/-- What the thread has loaded is not beyond what the ring has come to. -/
def ThreadState.Seen (start : Nat) (ring : SlotRing α capacity.value) : ThreadState α → Prop
  | .idle => True
  | .enqueue state => state.Seen start ring
  | .dequeue state => state.Seen start ring

/-- The memory of the queue as a ring. -/
def ring (start : Nat) (queue : MPMCQueue α capacity) : SlotRing α capacity.value :=
  ringOf start queue.slots (toPosition start queue.head) queue.tail

/-- The sequence of the ring is the slot's, as a position. -/
theorem sequenceAt_ring {start : Nat} {queue : MPMCQueue α capacity} {pos : QueueSequence} :
    (queue.ring start).sequenceAt (toPosition start pos) =
      toPosition start (queue.slots (capacity.index pos)).sequence := sequenceAt_ringOf

/-- The ring protocol that the queue's threads are at. -/
def protocolOf (start : Nat) (queue : MPMCQueue α capacity) :
    RingProtocol Nat α capacity.value where
  ring := queue.ring start
  holds thread := (queue.threads thread).hold start

end MPMCQueue

namespace DequeueState

variable {α : Type} {capacity : QueueCapacity} {start thread : Nat}
  {slots : QueueSlots α capacity} {head tail pos : QueueSequence} {state : DequeueState α}
  {events : List (RingEvent Nat α)}

/-- What a thread in Dequeue has seen stays true while others move. -/
theorem Seen.keep {ring nextRing : SlotRing α capacity.value} {other : Nat} {hold held : Hold α}
    {label : Option (RingEvent Nat α)} (seen : state.Seen start ring)
    (moves : RingProtocol.Moves ring other hold nextRing held label)
    (holding : RingProtocol.Holding ring events other hold) : state.Seen start nextRing := by
  cases state with
  | loadSequence pos => exact Nat.le_trans seen moves.ends_le.2
  | compareExchange pos => exact moves.keep_filled capacity.atLeastTwo holding seen
  | loadHead | moveOut | storeSequence => trivial

/-- Dequeue returns false only when a sequence load has found the slot not filled. -/
theorem step_refused {spurious : Bool} {left : α}
    (refused : (state.step slots head spurious left).event = .refused) :
    ∃ pos, state = .loadSequence pos ∧
      sequenceDiff (slots (capacity.index pos)).sequence (pos + 1) < 0 := by
  cases state with
  | loadSequence pos =>
      simp only [step] at refused
      split at refused
      · cases refused
      · split at refused
        · next behind => exact ⟨pos, rfl, behind⟩
        · cases refused
  | compareExchange pos =>
      simp only [step] at refused
      split at refused <;> cases refused
  | loadHead | moveOut | storeSequence => cases refused

/-- Every step of Dequeue is a move on the ring or none, and what it has seen of
the ring afterwards is so. -/
theorem step_refines (spurious : Bool) (left : α)
    (room : toPosition start head + 2 ^ 63 < start + 2 ^ 64)
    (holding : RingProtocol.Holding (ringOf start slots (toPosition start head) tail) events thread
      (state.hold start))
    (seen : state.Seen start (ringOf start slots (toPosition start head) tail)) :
    RingProtocol.Moves (ringOf start slots (toPosition start head) tail) thread (state.hold start)
        (ringOf start (state.step slots head spurious left).slots
          (toPosition start (state.step slots head spurious left).head) tail)
        (hold? start (state.step slots head spurious left).state)
        ((state.step slots head spurious left).event.label start thread) ∧
      ∀ next, (state.step slots head spurious left).state = some next →
        next.Seen start (ringOf start (state.step slots head spurious left).slots
          (toPosition start (state.step slots head spurious left).head) tail) := by
  have small := capacity.le_half
  cases state with
  | loadHead =>
      refine ⟨.stutter, fun next here => ?_⟩
      cases here
      exact Nat.le_refl _
  | loadSequence pos =>
      simp only [step]
      split
      · next same =>
        refine ⟨.stutter, fun next here => ?_⟩
        cases here
        have below : toPosition start pos ≤ toPosition start head := seen
        refine ⟨below, fun _ => ?_⟩
        rw [sequenceAt_ringOf, sequenceDiff_eq_zero_iff.mp same, toPosition_succ (by omega)]
      · split
        · exact ⟨.stutter, by rintro _ ⟨⟩⟩
        · refine ⟨.stutter, fun next here => ?_⟩
          cases here
          trivial
  | compareExchange pos =>
      simp only [step]
      split
      · next succeeded =>
        obtain ⟨rfl, -⟩ := succeeded
        refine ⟨?_, fun next here => ?_⟩
        · rw [toPosition_succ (by omega)]
          exact .move (.claimHead (seen.2 rfl))
        · cases here
          trivial
      · refine ⟨.stutter, fun next here => ?_⟩
        cases here
        exact Nat.le_refl _
  | moveOut pos =>
      have stored : (ringOf start slots (toPosition start head) tail).storageAt
          (toPosition start pos) = (slots (capacity.index pos)).storage := storageAt_ringOf
      refine ⟨?_, fun next here => ?_⟩
      · simp only [step, ringOf_setStorage]
        rw [← stored]
        exact .move .take
      · cases here
        trivial
  | storeSequence pos item =>
      refine ⟨?_, by rintro _ ⟨⟩⟩
      have below : toPosition start pos < toPosition start head := holding.1.claimed
      simp only [step]
      rw [ringOf_release (by omega)]
      exact .move .release

end DequeueState

namespace MPMCQueue

variable {α : Type} {capacity : QueueCapacity} {start : Nat} {queue next : MPMCQueue α capacity}
  {storage : Fin capacity.value → α} {events before after : List (Event α)} {event : Event α}
  {choice : Choice α} {label : RingEvent Nat α}

/-- An event of Enqueue comes from a step of a thread in it. -/
theorem step_of_enqueue {thread : ThreadIndex} {shown : EnqueueEvent α}
    (transition : queue.step choice = some (next, .enqueue thread shown)) :
    ∃ state spurious, queue.threads thread = .enqueue state ∧
      (state.step queue.slots queue.tail spurious).event = shown := by
  cases step_sound transition with
  | enqueue here spurious left => exact ⟨_, spurious, here, rfl⟩

/-- An event of Dequeue comes from a step of a thread in it. -/
theorem step_of_dequeue {thread : ThreadIndex} {shown : DequeueEvent α}
    (transition : queue.step choice = some (next, .dequeue thread shown)) :
    ∃ state spurious left, queue.threads thread = .dequeue state ∧
      (state.step queue.slots queue.head spurious left).event = shown := by
  cases step_sound transition with
  | dequeue here spurious left => exact ⟨_, spurious, left, here, rfl⟩

/-- A queue that refines a run of the ring protocol. -/
structure Refines (start : Nat) (storage : Fin capacity.value → α) (events : List (Event α))
    (queue : MPMCQueue α capacity) : Prop where
  run : (RingProtocol.system Nat α capacity.value).Runs (RingProtocol.startedAt start storage)
    (events.filterMap (Event.label start)) (queue.protocolOf start)
  seen : ∀ thread, (queue.threads thread).Seen start (queue.ring start)

/-- No two steps are the same move of the ring. -/
theorem label_injective {first second : Event α} (shown : first.label start = some label)
    (also : second.label start = some label) : first = second := by
  cases first with
  | called => cases shown
  | enqueue thread event =>
      cases second with
      | called => cases also
      | enqueue other later =>
          obtain ⟨rfl, rfl⟩ := EnqueueEvent.label_injective shown also
          rfl
      | dequeue other later =>
          cases event <;> cases shown <;> cases later <;> cases also
  | dequeue thread event =>
      cases second with
      | called => cases also
      | enqueue other later =>
          cases event <;> cases shown <;> cases later <;> cases also
      | dequeue other later =>
          obtain ⟨rfl, rfl⟩ := DequeueEvent.label_injective shown also
          rfl

/-- An event of the queue is in its trace when its label is in the protocol's. -/
theorem mem_labels_iff (shown : event.label start = some label) :
    label ∈ events.filterMap (Event.label start) ↔ event ∈ events :=
  mem_filterMap_iff shown fun _ same => label_injective same shown

/-- The ring counts the claims of the producers. -/
theorem tally_claimsTail : tally RingEvent.claimsTail (events.filterMap (Event.label start)) =
    tally Event.claimsTail events := by
  apply tally_filterMap
  rintro (_ | ⟨_, event⟩ | ⟨_, event⟩)
  · rfl
  · cases event <;> rfl
  · cases event <;> rfl

/-- The ring counts the claims of the consumers. -/
theorem tally_claimsHead : tally RingEvent.claimsHead (events.filterMap (Event.label start)) =
    tally Event.claimsHead events := by
  apply tally_filterMap
  rintro (_ | ⟨_, event⟩ | ⟨_, event⟩)
  · rfl
  · cases event <;> rfl
  · cases event <;> rfl

/-- The ring counts the returns of a position. -/
theorem tally_returns (pos : QueueSequence) :
    tally (RingEvent.releases (toPosition start pos)) (events.filterMap (Event.label start)) =
      tally (Event.returns pos) events := by
  apply tally_filterMap
  rintro (_ | ⟨_, event⟩ | ⟨_, event⟩)
  · rfl
  · cases event <;> rfl
  · cases event with
    | released other item =>
        simp [Event.label, DequeueEvent.label, (toPosition_injective start).eq_iff]
    | _ => rfl

/-- A new queue refines a new ring. -/
theorem refines_startedAt :
    Refines start storage [] (startedAt (UInt64.ofNat start) storage) := by
  constructor
  · have same : (startedAt (UInt64.ofNat start) storage).protocolOf start =
        RingProtocol.startedAt start storage := by
      have front := toPosition_start start
      have sequences : ∀ slot : Fin capacity.value,
          toPosition start (UInt64.ofNat start + UInt64.ofNat slot) = start + slot := by
        intro slot
        have small := slot.isLt
        have fits := capacity.fitsSize
        rw [toPosition_add (by omega), front]
      simp only [protocolOf, ring, ringOf, startedAt, constructedSlots, ThreadState.hold,
        RingProtocol.startedAt, front, sequences]
    rw [same]
    exact .refl
  · exact fun _ => trivial

/-- What is known of the ring holds of the queue. -/
theorem Refines.consistent (refines : Refines start storage events queue)
    (lap : capacity.value ∣ start) :
    RingProtocol.Consistent start (events.filterMap (Event.label start)) (queue.protocolOf start) :=
  RingProtocol.consistent_of_runs capacity.atLeastTwo lap refines.run

/-- A step of one thread that refines the protocol keeps the queue a refinement. -/
theorem Refines.moved (refines : Refines start storage events queue)
    (lap : capacity.value ∣ start) {thread : ThreadIndex} {held : ThreadState α}
    (moves : RingProtocol.Moves (queue.ring start) thread ((queue.threads thread).hold start)
      (next.ring start) (held.hold start) (event.label start))
    (seen : held.Seen start (next.ring start))
    (threads : next.threads = Function.update queue.threads thread held) :
    Refines start storage (events ++ [event]) next := by
  have consistent := refines.consistent lap
  have holding := consistent.holding thread
  constructor
  · have labels : (events ++ [event]).filterMap (Event.label start) =
        events.filterMap (Event.label start) ++ (event.label start).toList :=
      filterMap_concat (Event.label start) events event
    have reached : next.protocolOf start =
        { ring := next.ring start
          holds := Function.update (queue.protocolOf start).holds thread (held.hold start) } := by
      rw [protocolOf, threads]
      congr
      funext other
      by_cases mine : other = thread
      · rw [mine, Function.update_self, Function.update_self]
      · rw [Function.update_of_ne mine, Function.update_of_ne mine]
        rfl
    rw [labels, reached]
    exact moves.run refines.run
  · intro other
    rw [threads]
    by_cases mine : other = thread
    · subst mine
      rw [Function.update_self]
      exact seen
    · rw [Function.update_of_ne mine]
      have before := refines.seen other
      cases here : queue.threads other with
      | idle => trivial
      | enqueue state =>
          rw [here] at before
          exact before.keep moves holding
      | dequeue state =>
          rw [here] at before
          exact before.keep moves holding

/-- The counters are below half of the words as long as few positions are claimed. -/
theorem Refines.below (refines : Refines start storage events queue)
    (lap : capacity.value ∣ start) (few : tally Event.claimsTail events < 2 ^ 63) :
    toPosition start queue.tail < start + 2 ^ 63 ∧
      toPosition start queue.head ≤ toPosition start queue.tail := by
  have consistent := refines.consistent lap
  have tail : toPosition start queue.tail = start + tally Event.claimsTail events := by
    rw [← tally_claimsTail]
    exact consistent.tail
  exact ⟨by omega, consistent.valid.ordered⟩

theorem hold_ofEnqueue (state : Option (EnqueueState α)) :
    (ThreadState.ofEnqueue state).hold start = EnqueueState.hold? start state := by
  cases state <;> rfl

theorem hold_ofDequeue (state : Option (DequeueState α)) :
    (ThreadState.ofDequeue state).hold start = DequeueState.hold? start state := by
  cases state <;> rfl

theorem seen_ofEnqueue {ring : SlotRing α capacity.value} {state : Option (EnqueueState α)}
    (saw : ∀ later, state = some later → later.Seen start ring) :
    (ThreadState.ofEnqueue state).Seen start ring := by
  cases state with
  | none => trivial
  | some later => exact saw later rfl

theorem seen_ofDequeue {ring : SlotRing α capacity.value} {state : Option (DequeueState α)}
    (saw : ∀ later, state = some later → later.Seen start ring) :
    (ThreadState.ofDequeue state).Seen start ring := by
  cases state with
  | none => trivial
  | some later => exact saw later rfl

/-- Every step of the queue keeps it a refinement. -/
theorem Refines.step (refines : Refines start storage events queue)
    (lap : capacity.value ∣ start) (few : tally Event.claimsTail events < 2 ^ 63)
    (transition : queue.step choice = some (next, event)) :
    Refines start storage (events ++ [event]) next := by
  obtain ⟨tail, head⟩ := refines.below lap few
  have consistent := refines.consistent lap
  cases step_sound transition with
  | call idle call =>
      apply refines.moved lap _ _ rfl
      · rw [idle]
        cases call <;> exact .stutter
      · cases call <;> trivial
  | @enqueue thread state here spurious left =>
      have seen := refines.seen thread
      have holding : RingProtocol.Holding (queue.ring start) _ thread
          ((queue.threads thread).hold start) := consistent.holding thread
      rw [here] at seen holding
      obtain ⟨moves, saw⟩ := EnqueueState.step_refines spurious (by omega) holding seen
      apply refines.moved lap _ _ rfl
      · rw [here, hold_ofEnqueue]
        exact moves
      · exact seen_ofEnqueue saw
  | @dequeue thread state here spurious left =>
      have seen := refines.seen thread
      have holding : RingProtocol.Holding (queue.ring start) _ thread
          ((queue.threads thread).hold start) := consistent.holding thread
      rw [here] at seen holding
      obtain ⟨moves, saw⟩ := DequeueState.step_refines spurious left (by omega) holding seen
      apply refines.moved lap _ _ rfl
      · rw [here, hold_ofDequeue]
        exact moves
      · exact seen_ofDequeue saw

/-- Every run with fewer than 2^63 claims at the tail refines the ring protocol. -/
theorem refines_of_runs (lap : capacity.value ∣ start)
    (run : (system α capacity).Runs (startedAt (UInt64.ofNat start) storage) events queue)
    (few : tally Event.claimsTail events < 2 ^ 63) : Refines start storage events queue := by
  apply run.invariant (fun events queue =>
    tally Event.claimsTail events < 2 ^ 63 → Refines start storage events queue)
    (fun _ => refines_startedAt) _ few
  intro events queue choice next event _ ih transition _ few
  have fewer : tally Event.claimsTail events < 2 ^ 63 := by
    rw [tally_concat] at few
    exact Nat.lt_of_le_of_lt (Nat.le_add_right _ _) few
  exact (ih fewer).step lap fewer transition

end MPMCQueue
end MmoServer.LockfreeQueue
