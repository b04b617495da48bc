import MmoServer.LockfreeQueue.Enqueue
import MmoServer.Std.RingHistory

/-!
# MPSCQueue

Any number of producers call Enqueue, one consumer calls Dequeue. The consumer
claims nothing by a compare-exchange: it has the position of `m_dequeuePos` from
the moment it finds the slot filled, and gives the slot back before it stores the
next position. `head` counts a position that the consumer is dequeuing as claimed,
and with it every run is a run of the ring protocol, as long as fewer than 2^63
positions have been claimed at the tail.
-/

namespace MmoServer.LockfreeQueue

open MmoServer.Std MmoServer.Semantics

namespace MPSCQueue

/-- Where the consumer is in Dequeue. -/
inductive DequeueState (α : Type) where
  /-- At `m_dequeuePos.load`. -/
  | loadPos
  /-- At `slot.sequence.load`. -/
  | loadSequence (deqPos : QueueSequence)
  /-- At `out = std::move(slot.storage)`. -/
  | moveOut (deqPos : QueueSequence)
  /-- At `slot.sequence.store(deqPos + Capacity)`. -/
  | storeSequence (deqPos : QueueSequence) (item : α)
  /-- At `m_dequeuePos.store(deqPos + 1)`. -/
  | storePos (deqPos : QueueSequence) (item : α)

/-- What a step of Dequeue shows. -/
inductive DequeueEvent (α : Type) where
  | silent
  /-- The sequence load found the slot filled. -/
  | found (pos : QueueSequence)
  | took (pos : QueueSequence) (item : α)
  /-- The sequence store. -/
  | released (pos : QueueSequence) (item : α)
  /-- The position store, and `return true` with the item in `out`. -/
  | returned (pos : QueueSequence) (item : α)
  /-- The sequence load found the slot not filled, and `return false`. -/
  | refused
deriving DecidableEq

/-- The memory after a step of Dequeue. The state is `none` when it has returned. -/
structure DequeueStep (α : Type) (capacity : QueueCapacity) where
  slots : QueueSlots α capacity
  dequeuePos : QueueSequence
  state : Option (DequeueState α)
  event : DequeueEvent α

/-- The next step of Dequeue. `left` is what the move leaves in the slot. -/
def DequeueState.step {α : Type} {capacity : QueueCapacity} (slots : QueueSlots α capacity)
    (dequeuePos : QueueSequence) (left : α) : DequeueState α → DequeueStep α capacity
  | .loadPos => { slots, dequeuePos, state := some (.loadSequence dequeuePos), event := .silent }
  | .loadSequence deqPos =>
    let seq := (slots (capacity.index deqPos)).sequence
    let diff := sequenceDiff seq (deqPos + 1)
    if diff = 0 then
      { slots, dequeuePos, state := some (.moveOut deqPos), event := .found deqPos }
    else { slots, dequeuePos, state := none, event := .refused }
  | .moveOut deqPos =>
    let item := (slots (capacity.index deqPos)).storage
    { slots := QueueSlots.setStorage slots deqPos left, dequeuePos
      state := some (.storeSequence deqPos item), event := .took deqPos item }
  | .storeSequence deqPos item =>
    { slots := QueueSlots.setSequence slots deqPos (deqPos + UInt64.ofNat capacity.value), dequeuePos
      state := some (.storePos deqPos item), event := .released deqPos item }
  | .storePos deqPos item =>
    { slots, dequeuePos := deqPos + 1, state := none, event := .returned deqPos item }

/-- Which thread moves. -/
inductive Choice (α : Type) where
  /-- A producer that is in no call calls Enqueue. -/
  | callEnqueue (producer : Nat) (item : α)
  /-- The consumer, in no call, calls Dequeue. -/
  | callDequeue
  /-- A producer takes its next step; a compare-exchange fails if `spurious`. -/
  | enqueue (producer : Nat) (spurious : Bool)
  /-- The consumer takes its next step; a move out of a slot leaves `left` there. -/
  | dequeue (left : α)

/-- What a step shows of itself. -/
inductive Event (α : Type) where
  | calledEnqueue (producer : Nat) (item : α)
  | calledDequeue
  | enqueue (producer : Nat) (event : EnqueueEvent α)
  | dequeue (event : DequeueEvent α)
deriving DecidableEq

end MPSCQueue

/-- A queue, its producers and its consumer. A thread is `none` outside its calls. -/
structure MPSCQueue (α : Type) (capacity : QueueCapacity) where
  slots : QueueSlots α capacity
  enqueuePos : QueueSequence
  dequeuePos : QueueSequence
  producers : Nat → Option (EnqueueState α)
  consumer : Option (MPSCQueue.DequeueState α)

namespace MPSCQueue

variable {α : Type} {capacity : QueueCapacity}

/-- A queue whose counters start at a value; the constructor starts them at 0. -/
def startedAt (base : QueueSequence) (storage : Fin capacity.value → α) : MPSCQueue α capacity where
  slots := constructedSlots base storage
  enqueuePos := base
  dequeuePos := base
  producers _ := none
  consumer := none

/-- MPSCQueue::MPSCQueue. -/
def constructed (storage : Fin capacity.value → α) : MPSCQueue α capacity := startedAt 0 storage

/-- The queue after a step of a producer. -/
def afterEnqueue (queue : MPSCQueue α capacity) (producer : Nat)
    (result : EnqueueStep α capacity) : MPSCQueue α capacity :=
  { queue with
    slots := result.slots
    enqueuePos := result.tail
    producers := Function.update queue.producers producer result.state }

/-- The queue after a step of the consumer. -/
def afterDequeue (queue : MPSCQueue α capacity) (result : DequeueStep α capacity) :
    MPSCQueue α capacity :=
  { queue with
    slots := result.slots
    dequeuePos := result.dequeuePos
    consumer := result.state }

/-- A thread enters a call, or takes its next atomic step. -/
def step (queue : MPSCQueue α capacity) :
    Choice α → Option (MPSCQueue α capacity × Event α)
  | .callEnqueue producer item =>
    match queue.producers producer with
    | none =>
      some ({ queue with
          producers := Function.update queue.producers producer (some (.loadTail item)) },
        .calledEnqueue producer item)
    | some _ => none
  | .callDequeue =>
    match queue.consumer with
    | none => some ({ queue with consumer := some .loadPos }, .calledDequeue)
    | some _ => none
  | .enqueue producer spurious =>
    match queue.producers producer with
    | none => none
    | some state =>
      let result := state.step queue.slots queue.enqueuePos spurious
      some (queue.afterEnqueue producer result, .enqueue producer result.event)
  | .dequeue left =>
    match queue.consumer with
    | none => none
    | some state =>
      let result := state.step queue.slots queue.dequeuePos left
      some (queue.afterDequeue result, .dequeue result.event)

/-- The queue under any interleaving of its producers and the consumer. -/
def system (α : Type) (capacity : QueueCapacity) :
    TransitionSystem (MPSCQueue α capacity) (Choice α) (Event α) where
  step := step

/-- What a step of the queue can do. -/
inductive Step (queue : MPSCQueue α capacity) :
    Choice α → MPSCQueue α capacity → Event α → Prop
  | callEnqueue {producer} (idle : queue.producers producer = none) (item) :
      Step queue (.callEnqueue producer item)
        { queue with
          producers := Function.update queue.producers producer (some (.loadTail item)) }
        (.calledEnqueue producer item)
  | callDequeue (idle : queue.consumer = none) :
      Step queue .callDequeue { queue with consumer := some .loadPos } .calledDequeue
  | enqueue {producer state} (here : queue.producers producer = some state) (spurious) :
      Step queue (.enqueue producer spurious)
        (queue.afterEnqueue producer (state.step queue.slots queue.enqueuePos spurious))
        (.enqueue producer (state.step queue.slots queue.enqueuePos spurious).event)
  | dequeue {state} (here : queue.consumer = some state) (left) :
      Step queue (.dequeue left)
        (queue.afterDequeue (state.step queue.slots queue.dequeuePos left))
        (.dequeue (state.step queue.slots queue.dequeuePos left).event)

/-- Every step is one of those. -/
theorem step_sound {queue next : MPSCQueue α capacity} {choice : Choice α} {event : Event α}
    (transition : queue.step choice = some (next, event)) : Step queue choice next event := by
  cases choice with
  | callEnqueue producer item =>
      simp only [step] at transition
      split at transition
      · next idle =>
        cases transition
        exact .callEnqueue idle item
      · cases transition
  | callDequeue =>
      simp only [step] at transition
      split at transition
      · next idle =>
        cases transition
        exact .callDequeue idle
      · cases transition
  | enqueue producer spurious =>
      simp only [step] at transition
      split at transition
      · cases transition
      · next state here =>
        cases transition
        exact .enqueue here spurious
  | dequeue left =>
      simp only [step] at transition
      split at transition
      · cases transition
      · next state here =>
        cases transition
        exact .dequeue here left

/-- A producer has claimed a position. -/
@[simp] def Event.claimsTail : Event α → Bool
  | .enqueue _ (.claimed _ _) => true
  | _ => false

/-- A Dequeue returns true. -/
@[simp] def Event.returns : Event α → Bool
  | .dequeue (.returned _ _) => true
  | _ => false

/-- The position of a Dequeue that returns true. -/
@[simp] def Event.position (start : Nat) : Event α → Nat
  | .dequeue (.returned pos _) => toPosition start pos
  | _ => 0

/-! ## The queue as a ring protocol -/

/-- The consumer's step as one of the ring protocol. -/
def DequeueEvent.label (start : Nat) : DequeueEvent α → Option (RingEvent (Option Nat) α)
  | .silent | .returned _ _ | .refused => none
  | .found pos => some (.claimedHead none (toPosition start pos))
  | .took pos item => some (.took none (toPosition start pos) item)
  | .released pos item => some (.released none (toPosition start pos) item)

/-- The consumer is agent `none` of the protocol. -/
def Event.label (start : Nat) : Event α → Option (RingEvent (Option Nat) α)
  | .calledEnqueue _ _ | .calledDequeue => none
  | .enqueue producer event => event.label start (some producer)
  | .dequeue event => event.label start

/-- What the consumer holds of the ring. -/
def DequeueState.hold (start : Nat) : DequeueState α → Hold α
  | .loadPos | .loadSequence _ | .storePos _ _ => .none
  | .moveOut pos => .reading (toPosition start pos)
  | .storeSequence pos item => .taken (toPosition start pos) item

/-- What the consumer holds in the ring protocol. -/
def hold? (start : Nat) : Option (DequeueState α) → Hold α
  | none => .none
  | some state => state.hold start

/-- The position that the consumer is dequeuing. -/
def dequeuing? : Option (DequeueState α) → Option QueueSequence
  | some (.moveOut pos) | some (.storeSequence pos _) | some (.storePos pos _) => some pos
  | _ => none

/-- The position at the head, past one that is being dequeued. -/
def head (start : Nat) (dequeuePos : QueueSequence) (consumer : Option (DequeueState α)) : Nat :=
  toPosition start dequeuePos + if (dequeuing? consumer).isSome then 1 else 0

/-- The memory of the queue as a ring. -/
def ring (start : Nat) (queue : MPSCQueue α capacity) : SlotRing α capacity.value :=
  ringOf start queue.slots (head start queue.dequeuePos queue.consumer) queue.enqueuePos

/-- What each thread holds in the ring protocol, the consumer being `none`. -/
def holds (start : Nat) (queue : MPSCQueue α capacity) : Option Nat → Hold α
  | none => hold? start queue.consumer
  | some producer => EnqueueState.hold? start (queue.producers producer)

/-- The ring protocol that the queue's threads are at. -/
def protocolOf (start : Nat) (queue : MPSCQueue α capacity) :
    RingProtocol (Option Nat) α capacity.value where
  ring := queue.ring start
  holds := queue.holds start

/-- The consumer's own position is the queue's. -/
def DequeueState.Follows (dequeuePos : QueueSequence) : DequeueState α → Prop
  | .loadPos => True
  | .loadSequence pos | .moveOut pos | .storeSequence pos _ | .storePos pos _ => pos = dequeuePos

/-- What a Dequeue that returns true comes after. -/
def Explains (start : Nat) (before : List (Event α)) : Event α → Prop
  | .dequeue (.returned pos item) => toPosition start pos = start + tally Event.returns before ∧
      .dequeue (.released pos item) ∈ before
  | _ => True

/-- A queue that refines a run of the ring protocol. -/
structure Refines (start : Nat) (storage : Fin capacity.value → α) (events : List (Event α))
    (queue : MPSCQueue α capacity) : Prop where
  run : (RingProtocol.system (Option Nat) α capacity.value).Runs
    (RingProtocol.startedAt start storage)
    (events.filterMap (Event.label start)) (queue.protocolOf start)
  seen : ∀ producer state, queue.producers producer = some state →
    state.Seen start (queue.ring start)
  follows : ∀ state, queue.consumer = some state → state.Follows queue.dequeuePos
  counted : toPosition start queue.dequeuePos = start + tally Event.returns events
  gaveBack : ∀ pos item, queue.consumer = some (.storePos pos item) →
    .dequeue (.released pos item) ∈ events
  explained : Explained (Explains start) events

variable {start : Nat} {queue next : MPSCQueue α capacity} {storage : Fin capacity.value → α}
  {events before after : List (Event α)} {event : Event α} {choice : Choice α}
  {label : RingEvent (Option Nat) α} {slots : QueueSlots α capacity}
  {dequeuePos tail pos : QueueSequence} {item : α}

/-- A new queue refines a new ring. -/
theorem refines_startedAt :
    Refines start storage [] (startedAt (UInt64.ofNat start) storage) := by
  have front := toPosition_start start
  constructor
  · have same : (startedAt (UInt64.ofNat start) storage).protocolOf start =
        RingProtocol.startedAt start storage := by
      have sequences : ∀ slot : Fin capacity.value,
          toPosition start (UInt64.ofNat start + UInt64.ofNat slot) = start + slot := by
        intro slot
        have small := slot.isLt
        have fits := capacity.fitsSize
        rw [toPosition_add (by omega), front]
      have idle : (startedAt (UInt64.ofNat start) storage).holds start = fun _ => .none := by
        funext agent
        cases agent <;> rfl
      simp only [protocolOf, idle]
      simp only [ring, ringOf, head, dequeuing?, startedAt, constructedSlots,
        RingProtocol.startedAt, front, sequences]
      rfl
    rw [same]
    exact .refl
  · simp [startedAt]
  · simp [startedAt]
  · exact front
  · simp [startedAt]
  · exact explained_nil

/-! ## The steps of the consumer -/

/-- Every step of Dequeue is a move on the ring or none. -/
theorem DequeueState.step_refines {state : DequeueState α} {labels : List (RingEvent (Option Nat) α)}
    (left : α) (room : toPosition start dequeuePos + 2 ^ 63 < start + 2 ^ 64)
    (holding : RingProtocol.Holding
      (ringOf start slots (head start dequeuePos (some state)) tail) labels none (state.hold start))
    (follows : state.Follows dequeuePos) :
    RingProtocol.Moves (ringOf start slots (head start dequeuePos (some state)) tail) none
      (state.hold start)
      (ringOf start (state.step slots dequeuePos left).slots
        (head start (state.step slots dequeuePos left).dequeuePos
          (state.step slots dequeuePos left).state) tail)
      (hold? start (state.step slots dequeuePos left).state)
      ((state.step slots dequeuePos left).event.label start) := by
  have small := capacity.le_half
  cases state with
  | loadPos => exact .stutter
  | loadSequence pos =>
      obtain rfl : pos = dequeuePos := follows
      simp only [step]
      split
      · next same =>
        have filled : (ringOf start slots (toPosition start pos) tail).sequenceAt
            (toPosition start pos) = toPosition start pos + 1 := by
          rw [sequenceAt_ringOf, sequenceDiff_eq_zero_iff.mp same, toPosition_succ (by omega)]
        exact .move (.claimHead filled)
      · exact .stutter
  | moveOut pos =>
      have stored : (ringOf start slots
          (head start dequeuePos (some (.moveOut pos : DequeueState α))) tail).storageAt
          (toPosition start pos) = (slots (capacity.index pos)).storage := storageAt_ringOf
      simp only [step, ringOf_setStorage]
      rw [← stored]
      exact .move .take
  | storeSequence pos item =>
      obtain rfl : pos = dequeuePos := follows
      simp only [step]
      rw [ringOf_release (by omega)]
      exact .move .release
  | storePos pos item =>
      obtain rfl : pos = dequeuePos := follows
      have same : head start (pos + 1) (none : Option (DequeueState α)) =
          head start pos (some (.storePos pos item)) := by
        change toPosition start (pos + 1) + 0 = toPosition start pos + 1
        rw [toPosition_succ (by omega)]
      simp only [step]
      rw [same]
      exact .stutter

/-- The consumer keeps following the queue's position. -/
theorem DequeueState.step_follows {state later : DequeueState α} (left : α)
    (follows : state.Follows dequeuePos)
    (here : (state.step slots dequeuePos left).state = some later) :
    later.Follows (state.step slots dequeuePos left).dequeuePos := by
  cases state with
  | loadPos =>
      cases here
      rfl
  | loadSequence pos =>
      simp only [step] at here ⊢
      split at here
      · cases here
        rw [if_pos ‹_›]
        exact follows
      · cases here
  | moveOut pos | storeSequence pos item =>
      cases here
      exact follows
  | storePos pos item => cases here

/-! ## Every run is a run of the protocol -/

/-- No two steps are the same move of the ring. -/
theorem label_injective {first second : Event α} (shown : first.label start = some label)
    (also : second.label start = some label) : first = second := by
  cases first with
  | calledEnqueue | calledDequeue => cases shown
  | enqueue producer event =>
      cases second with
      | calledEnqueue | calledDequeue => cases also
      | enqueue other later =>
          obtain ⟨same, rfl⟩ := EnqueueEvent.label_injective shown also
          rw [Option.some_injective _ same]
      | dequeue later => cases event <;> cases shown <;> cases later <;> cases also
  | dequeue event =>
      cases second with
      | calledEnqueue | calledDequeue => cases also
      | enqueue other later => cases event <;> cases shown <;> cases later <;> cases also
      | dequeue later =>
          cases event <;> cases shown <;> cases later <;>
            simp_all [Event.label, DequeueEvent.label, (toPosition_injective start).eq_iff]

/-- An event of the queue is in its trace when its label is in the protocol's. -/
theorem mem_labels_iff (shown : event.label start = some label) :
    label ∈ events.filterMap (Event.label start) ↔ event ∈ events :=
  mem_filterMap_iff shown fun _ same => label_injective same shown

/-- The ring counts the claims of the producers. -/
theorem tally_claimsTail : tally RingEvent.claimsTail (events.filterMap (Event.label start)) =
    tally Event.claimsTail events := by
  apply tally_filterMap
  rintro (_ | _ | ⟨_, event⟩ | event)
  · rfl
  · rfl
  · cases event <;> rfl
  · cases event <;> rfl

/-- What is known of the ring holds of the queue. -/
theorem Refines.consistent (refines : Refines start storage events queue)
    (lap : capacity.value ∣ start) :
    RingProtocol.Consistent start (events.filterMap (Event.label start)) (queue.protocolOf start) :=
  RingProtocol.consistent_of_runs capacity.atLeastTwo lap refines.run

/-- A step of one agent that is a move on the ring or none continues the protocol's run. -/
theorem Refines.run_concat (refines : Refines start storage events queue) (agent : Option Nat)
    (moves : RingProtocol.Moves (queue.ring start) agent (queue.holds start agent)
      (next.ring start) (next.holds start agent) (event.label start))
    (others : ∀ other, other ≠ agent → next.holds start other = queue.holds start other) :
    (RingProtocol.system (Option Nat) α capacity.value).Runs (RingProtocol.startedAt start storage)
      ((events ++ [event]).filterMap (Event.label start)) (next.protocolOf start) := by
  have labels : (events ++ [event]).filterMap (Event.label start) =
      events.filterMap (Event.label start) ++ (event.label start).toList :=
    filterMap_concat (Event.label start) events event
  have reached : next.protocolOf start =
      { ring := next.ring start
        holds := Function.update (queue.protocolOf start).holds agent (next.holds start agent) } := by
    rw [protocolOf]
    congr
    funext other
    by_cases mine : other = agent
    · rw [mine, Function.update_self]
    · rw [Function.update_of_ne mine]
      exact others other mine
  rw [labels, reached]
  exact moves.run refines.run

/-- What the other producers have seen stays true. -/
theorem Refines.seen_keep (refines : Refines start storage events queue)
    (lap : capacity.value ∣ start) (agent : Option Nat) {held : Hold α} {producer : Nat}
    {shown : Option (RingEvent (Option Nat) α)} {state : EnqueueState α}
    (moves : RingProtocol.Moves (queue.ring start) agent (queue.holds start agent)
      (next.ring start) held shown)
    (here : queue.producers producer = some state) : state.Seen start (next.ring start) :=
  (refines.seen producer state here).keep moves ((refines.consistent lap).holding agent)

/-- The trace part of a step that returns from no Dequeue. -/
theorem Refines.quiet (refines : Refines start storage events queue) (event : Event α)
    (silent : event.returns = false) :
    toPosition start queue.dequeuePos = start + tally Event.returns (events ++ [event]) ∧
      Explained (Explains start) (events ++ [event]) := by
  constructor
  · rw [tally_concat, silent]
    exact refines.counted
  · refine explained_concat.mpr ⟨refines.explained, ?_⟩
    cases event with
    | dequeue shown =>
        cases shown with
        | returned => cases silent
        | _ => trivial
    | _ => trivial

/-- A step that leaves the consumer alone keeps what is known of it. -/
theorem Refines.moved (refines : Refines start storage events queue)
    (lap : capacity.value ∣ start) {producer : Nat} {held : Option (EnqueueState α)}
    (moves : RingProtocol.Moves (queue.ring start) (some producer) (queue.holds start (some producer))
      (next.ring start) (EnqueueState.hold? start held) (event.label start))
    (saw : ∀ state, held = some state → state.Seen start (next.ring start))
    (producers : next.producers = Function.update queue.producers producer held)
    (consumer : next.consumer = queue.consumer) (position : next.dequeuePos = queue.dequeuePos)
    (silent : event.returns = false) : Refines start storage (events ++ [event]) next := by
  have mine : next.holds start (some producer) = EnqueueState.hold? start held := by
    rw [holds, producers, Function.update_self]
  obtain ⟨counted, explained⟩ := refines.quiet event silent
  constructor
  · apply refines.run_concat (some producer)
    · rw [mine]
      exact moves
    · intro other apart
      cases other with
      | none => rw [holds, holds, consumer]
      | some other =>
          have differ : other ≠ producer := fun same => apart (congrArg some same)
          rw [holds, holds, producers, Function.update_of_ne differ]
  · intro other state here
    rw [producers] at here
    by_cases same : other = producer
    · rw [same, Function.update_self] at here
      exact saw state here
    · rw [Function.update_of_ne same] at here
      exact refines.seen_keep lap _ moves here
  · rw [consumer, position]
    exact refines.follows
  · rw [position]
    exact counted
  · intro pos item here
    rw [consumer] at here
    exact List.mem_append_left _ (refines.gaveBack pos item here)
  · exact explained

/-- The counters are below half of the words as long as few positions are claimed. -/
theorem Refines.below (refines : Refines start storage events queue)
    (lap : capacity.value ∣ start) (few : tally Event.claimsTail events < 2 ^ 63) :
    toPosition start queue.enqueuePos < start + 2 ^ 63 ∧
      toPosition start queue.dequeuePos ≤ toPosition start queue.enqueuePos := by
  have consistent := refines.consistent lap
  have tail : toPosition start queue.enqueuePos = start + tally Event.claimsTail events := by
    rw [← tally_claimsTail]
    exact consistent.tail
  have ordered : head start queue.dequeuePos queue.consumer ≤ toPosition start queue.enqueuePos :=
    consistent.valid.ordered
  exact ⟨by omega, Nat.le_trans (Nat.le_add_right _ _) ordered⟩

/-- A step of the consumer that is a move on the ring or none keeps the run and
what the producers have seen. -/
theorem Refines.dequeued (refines : Refines start storage events queue)
    (lap : capacity.value ∣ start) (next : MPSCQueue α capacity) (event : Event α)
    (moves : RingProtocol.Moves (queue.ring start) none (hold? start queue.consumer)
      (next.ring start) (hold? start next.consumer) (event.label start))
    (producers : next.producers = queue.producers) :
    (RingProtocol.system (Option Nat) α capacity.value).Runs (RingProtocol.startedAt start storage)
      ((events ++ [event]).filterMap (Event.label start)) (next.protocolOf start) ∧
    ∀ producer state, next.producers producer = some state → state.Seen start (next.ring start) := by
  constructor
  · apply refines.run_concat none moves
    intro other apart
    cases other with
    | none => exact absurd rfl apart
    | some producer => rw [holds, holds, producers]
  · intro producer state here
    rw [producers] at here
    exact refines.seen_keep lap none moves here

/-- What a step of Dequeue adds to the trace. -/
theorem DequeueState.step_trace {state : DequeueState α} (slots : QueueSlots α capacity) (left : α)
    (room : toPosition start dequeuePos + 1 < start + 2 ^ 64)
    (follows : state.Follows dequeuePos)
    (counted : toPosition start dequeuePos = start + tally Event.returns events)
    (gaveBack : ∀ pos item, state = .storePos pos item → .dequeue (.released pos item) ∈ events) :
    Explains start events (.dequeue (state.step slots dequeuePos left).event) ∧
    toPosition start (state.step slots dequeuePos left).dequeuePos =
      start + tally Event.returns
        (events ++ [.dequeue (state.step slots dequeuePos left).event]) ∧
    ∀ pos item, (state.step slots dequeuePos left).state = some (.storePos pos item) →
      .dequeue (.released pos item) ∈
        events ++ [.dequeue (state.step slots dequeuePos left).event] := by
  rw [tally_concat]
  cases state with
  | loadPos | moveOut pos => exact ⟨trivial, counted, nofun⟩
  | loadSequence pos =>
      simp only [step]
      split <;> exact ⟨trivial, counted, nofun⟩
  | storeSequence pos item =>
      refine ⟨trivial, counted, ?_⟩
      intro other also here
      cases here
      simp [step]
  | storePos pos item =>
      obtain rfl : pos = dequeuePos := follows
      refine ⟨⟨counted, gaveBack pos item rfl⟩, ?_, nofun⟩
      change toPosition start (pos + 1) = start + (tally Event.returns events + 1)
      rw [toPosition_succ room, counted, Nat.add_assoc]

/-- A producer enters Enqueue. -/
theorem Refines.callEnqueue (refines : Refines start storage events queue)
    (lap : capacity.value ∣ start) {producer : Nat} (idle : queue.producers producer = none)
    (item : α) :
    Refines start storage (events ++ [.calledEnqueue producer item])
      { queue with
        producers := Function.update queue.producers producer (some (.loadTail item)) } := by
  refine refines.moved lap ?_ ?_ rfl rfl rfl rfl
  · rw [holds, idle]
    exact .stutter
  · intro state entered
    cases entered
    trivial

/-- The consumer enters Dequeue. -/
theorem Refines.callDequeue (refines : Refines start storage events queue)
    (lap : capacity.value ∣ start) (idle : queue.consumer = none) :
    Refines start storage (events ++ [.calledDequeue]) { queue with consumer := some .loadPos } := by
  have same : ({ queue with consumer := some .loadPos } : MPSCQueue α capacity).ring start =
      queue.ring start := by
    rw [ring, ring, idle]
    rfl
  have moves : RingProtocol.Moves (queue.ring start) (none : Option Nat)
      (hold? start queue.consumer)
      (({ queue with consumer := some .loadPos } : MPSCQueue α capacity).ring start)
      (hold? start (some .loadPos)) none := by
    rw [idle, same]
    exact .stutter
  obtain ⟨run, seen⟩ := refines.dequeued lap { queue with consumer := some .loadPos }
    .calledDequeue moves rfl
  obtain ⟨counted, explained⟩ := refines.quiet .calledDequeue rfl
  refine ⟨run, seen, ?_, counted, nofun, explained⟩
  intro state entered
  cases entered
  trivial

/-- A producer takes its next step. -/
theorem Refines.enqueue (refines : Refines start storage events queue)
    (lap : capacity.value ∣ start) (few : tally Event.claimsTail events < 2 ^ 63)
    {producer : Nat} {state : EnqueueState α} (here : queue.producers producer = some state)
    (spurious : Bool) :
    Refines start storage
      (events ++ [.enqueue producer (state.step queue.slots queue.enqueuePos spurious).event])
      (queue.afterEnqueue producer (state.step queue.slots queue.enqueuePos spurious)) := by
  obtain ⟨tail, -⟩ := refines.below lap few
  have holding := (refines.consistent lap).holding (some producer)
  change RingProtocol.Holding (queue.ring start) _ (some producer)
    (EnqueueState.hold? start (queue.producers producer)) at holding
  rw [here] at holding
  obtain ⟨moves, saw⟩ :=
    EnqueueState.step_refines spurious (by omega) holding (refines.seen producer state here)
  refine refines.moved lap ?_ saw rfl rfl rfl rfl
  rw [holds, here]
  exact moves

/-- The consumer takes its next step. -/
theorem Refines.dequeue (refines : Refines start storage events queue)
    (lap : capacity.value ∣ start) (few : tally Event.claimsTail events < 2 ^ 63)
    {state : DequeueState α} (here : queue.consumer = some state) (left : α) :
    Refines start storage
      (events ++ [.dequeue (state.step queue.slots queue.dequeuePos left).event])
      (queue.afterDequeue (state.step queue.slots queue.dequeuePos left)) := by
  obtain ⟨tail, front⟩ := refines.below lap few
  have holding := (refines.consistent lap).holding none
  change RingProtocol.Holding (queue.ring start) _ none (hold? start queue.consumer) at holding
  have follows := refines.follows state here
  rw [ring, here] at holding
  have gave : ∀ pos item, state = .storePos pos item → .dequeue (.released pos item) ∈ events :=
    fun pos item same => refines.gaveBack pos item (same ▸ here)
  obtain ⟨explains, counted, gaveBack⟩ :=
    DequeueState.step_trace queue.slots left (by omega) follows refines.counted gave
  have moves := state.step_refines left (by omega) holding follows
  have whole : RingProtocol.Moves (queue.ring start) none (hold? start queue.consumer)
      ((queue.afterDequeue (state.step queue.slots queue.dequeuePos left)).ring start)
      (hold? start (state.step queue.slots queue.dequeuePos left).state)
      ((state.step queue.slots queue.dequeuePos left).event.label start) := by
    rw [ring, here]
    exact moves
  obtain ⟨run, seen⟩ := refines.dequeued lap
    (queue.afterDequeue (state.step queue.slots queue.dequeuePos left))
    (.dequeue (state.step queue.slots queue.dequeuePos left).event) whole rfl
  exact ⟨run, seen, fun later here => state.step_follows left follows here, counted, gaveBack,
    explained_concat.mpr ⟨refines.explained, explains⟩⟩

/-- Every step of the queue keeps it a refinement. -/
theorem Refines.step (refines : Refines start storage events queue)
    (lap : capacity.value ∣ start) (few : tally Event.claimsTail events < 2 ^ 63)
    (transition : queue.step choice = some (next, event)) :
    Refines start storage (events ++ [event]) next := by
  cases step_sound transition with
  | callEnqueue idle item => exact refines.callEnqueue lap idle item
  | callDequeue idle => exact refines.callDequeue lap idle
  | enqueue here spurious => exact refines.enqueue lap few here spurious
  | dequeue here left => exact refines.dequeue lap few here left

/-- Every run with fewer than 2^63 claims at the tail refines the ring protocol. -/
theorem refines_of_runs (lap : capacity.value ∣ start)
    (run : (system α capacity).Runs (startedAt (UInt64.ofNat start) storage) events queue)
    (few : tally Event.claimsTail events < 2 ^ 63) : Refines start storage events queue := by
  apply run.invariant (fun events queue =>
    tally Event.claimsTail events < 2 ^ 63 → Refines start storage events queue)
    (fun _ => refines_startedAt) _ few
  intro events queue choice next event _ ih transition _ few
  have fewer : tally Event.claimsTail events < 2 ^ 63 := by
    rw [tally_concat] at few
    exact Nat.lt_of_le_of_lt (Nat.le_add_right _ _) few
  exact (ih fewer).step lap fewer transition

end MPSCQueue
end MmoServer.LockfreeQueue
