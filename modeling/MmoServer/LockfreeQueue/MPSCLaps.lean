import MmoServer.LockfreeQueue.Laps
import MmoServer.LockfreeQueue.MPSCQueue

/-!
# MPSCQueue over any number of laps

As for MPMCQueue, every run follows a run of the ring protocol as long as no
compare-exchange of a producer succeeds on a counter that has gone all the way round.
The consumer compares nothing: its position is the number of items it has returned.
-/

namespace MmoServer.LockfreeQueue

open MmoServer.Std MmoServer.Semantics

namespace MPSCQueue

variable {α : Type} {capacity : QueueCapacity} {start position : Nat}
  {storage : Fin capacity.value → α} {events : List (Event α)} {queue next : MPSCQueue α capacity}
  {choice : Choice α} {event : Event α} {protocol : RingProtocol (Option Nat) α capacity.value}
  {ring nextRing : SlotRing α capacity.value} {hold held : Hold α}
  {label : Option (RingEvent (Option Nat) α)}

/-- The producer whose step an event is. -/
def Event.producer? : Event α → Option Nat
  | .calledEnqueue producer _ | .enqueue producer _ => some producer
  | _ => none

/-- The event is a step of a producer. -/
def Event.isOf (producer : Nat) (event : Event α) : Bool := event.producer? = some producer

/-- A compare-exchange that succeeds finds the counter that its producer has loaded, not
one that has gone all the way round since: each producer loads two steps before. -/
def Unlapped (events : List (Event α)) (event : Event α) : Prop :=
  event.claimsTail = true → ∀ producer ∈ event.producer?,
    (tallySince (Event.isOf producer) Event.claimsTail events).2 < 2 ^ 64

instance (events : List (Event α)) (event : Event α) : Decidable (Unlapped events event) :=
  inferInstanceAs (Decidable (_ → _))

/-- The consumer at the word of its position, with what it holds of the ring. -/
def DequeueState.Tracks (position : Nat) (hold : Hold α) : DequeueState α → Prop
  | .loadPos => hold = .none
  | .loadSequence pos => hold = .none ∧ pos = toWord position
  | .moveOut pos => hold = .reading position ∧ pos = toWord position
  | .storeSequence pos item => hold = .taken position item ∧ pos = toWord position
  | .storePos pos _ => hold = .none ∧ pos = toWord position

/-- The same of a consumer that may be outside of Dequeue. -/
def DequeueState.Tracks? (position : Nat) (hold : Hold α) : Option (DequeueState α) → Prop
  | none => hold = .none
  | some state => state.Tracks position hold

/-- The head of the ring, past a position that is being dequeued. -/
def headAt (position : Nat) (consumer : Option (DequeueState α)) : Nat :=
  position + if (dequeuing? consumer).isSome then 1 else 0

/-- A step of the consumer on the words of a ring, as a step on the ring. -/
structure DequeueState.Steps (ring : SlotRing α capacity.value) (hold : Hold α) (position : Nat)
    (result : DequeueStep α capacity) (nextRing : SlotRing α capacity.value) (held : Hold α)
    (label : Option (RingEvent (Option Nat) α)) (nextPosition : Nat) : Prop where
  moves : RingProtocol.Moves ring none hold nextRing held label
  slots : result.slots = slotsOf nextRing
  tail : nextRing.tail = ring.tail
  dequeuePos : result.dequeuePos = toWord nextPosition
  head : nextRing.head = headAt nextPosition result.state
  returns : nextPosition = position + if Event.returns (.dequeue result.event) then 1 else 0
  tracks : Tracks? nextPosition held result.state

/-- Every step of Dequeue is a move on the ring or none. -/
theorem DequeueState.step_tracks {state : DequeueState α} (left : α) (valid : ring.Valid)
    (head : ring.head = headAt position (some state)) (tracks : state.Tracks position hold) :
    ∃ nextRing held label nextPosition, Steps ring hold position
      (state.step (slotsOf ring) (toWord position) left) nextRing held label nextPosition := by
  cases state with
  | loadPos =>
      obtain rfl : hold = .none := tracks
      exact ⟨ring, .none, none, position, .stutter, rfl, rfl, rfl, head, rfl, rfl, rfl⟩
  | loadSequence pos =>
      obtain ⟨rfl, rfl⟩ := tracks
      obtain rfl : ring.head = position := head
      simp only [step]
      split
      · next same =>
        rw [sequenceDiff_eq_zero_iff] at same
        exact ⟨ring.claimHead, _, _, ring.head, .move (.claimHead (filled_of_word valid same)), rfl,
          rfl, rfl, rfl, rfl, rfl, rfl⟩
      · exact ⟨ring, .none, none, ring.head, .stutter, rfl, rfl, rfl, rfl, rfl, rfl⟩
  | moveOut pos =>
      obtain ⟨rfl, rfl⟩ := tracks
      have stored : (slotsOf ring (capacity.index (toWord position))).storage =
          ring.storageAt position := by
        rw [slotsOf_index]
      exact ⟨ring.store position left, .taken position (ring.storageAt position), _, position,
        .move .take, (slotsOf_store position left).symm, rfl, rfl, head, rfl, by rw [stored], rfl⟩
  | storeSequence pos item =>
      obtain ⟨rfl, rfl⟩ := tracks
      exact ⟨_, _, _, position, .move .release, (slotsOf_release position).symm, rfl, rfl, head, rfl,
        rfl, rfl⟩
  | storePos pos item =>
      obtain ⟨rfl, rfl⟩ := tracks
      exact ⟨ring, .none, none, position + 1, .stutter, rfl, rfl, (toWord_succ position).symm, head,
        rfl, rfl⟩

/-- A queue that follows a run of the ring protocol in words. -/
structure Follows (start : Nat) (storage : Fin capacity.value → α) (events : List (Event α))
    (queue : MPSCQueue α capacity) (protocol : RingProtocol (Option Nat) α capacity.value) :
    Prop where
  run : ∃ labels, (RingProtocol.system (Option Nat) α capacity.value).Runs
    (RingProtocol.startedAt start storage) labels protocol
  slots : queue.slots = slotsOf protocol.ring
  enqueuePos : queue.enqueuePos = toWord protocol.ring.tail
  dequeuePos : queue.dequeuePos = toWord (start + tally Event.returns events)
  claimsTail : protocol.ring.tail = start + tally Event.claimsTail events
  head : protocol.ring.head = headAt (start + tally Event.returns events) queue.consumer
  producers : ∀ producer, EnqueueState.Tracks? protocol.ring (protocol.holds (some producer))
    (tallySince (Event.isOf producer) Event.claimsTail events) (queue.producers producer)
  consumer : DequeueState.Tracks? (start + tally Event.returns events) (protocol.holds none)
    queue.consumer

theorem follows_startedAt : Follows start storage [] (startedAt (toWord start) storage)
    (RingProtocol.startedAt start storage) where
  run := ⟨[], .refl⟩
  slots := (slotsOf_startedAt start storage).symm
  enqueuePos := rfl
  dequeuePos := rfl
  claimsTail := rfl
  head := rfl
  producers _ := rfl
  consumer := rfl

/-- What a producer has loaded is left behind by the tail alone. -/
theorem tracks?_keep {since : Nat × Nat} {state : Option (EnqueueState α)} {mover : Option Nat}
    {mine : Hold α} {labels : List (RingEvent (Option Nat) α)}
    (tracks : EnqueueState.Tracks? ring hold since state)
    (moves : RingProtocol.Moves ring mover mine nextRing held label)
    (holding : RingProtocol.Holding ring labels mover mine) {more : Nat}
    (tail : nextRing.tail = ring.tail + more) :
    EnqueueState.Tracks? nextRing hold (since.1 + more, since.2 + more) state := by
  cases state with
  | none => exact tracks
  | some state => exact EnqueueState.Tracks.keep tracks moves holding tail

theorem claimsTail_enqueue {producer : Nat} {event : EnqueueEvent α} :
    (Event.enqueue producer event).claimsTail = event.claims := by
  cases event <;> rfl

theorem returns_enqueue {producer : Nat} {event : EnqueueEvent α} :
    (Event.enqueue producer event).returns = false := by
  cases event <;> rfl

/-- A step of a producer that is a move on the ring or none keeps the queue following. -/
theorem Follows.enqueued (follows : Follows start storage events queue protocol)
    (lap : capacity.value ∣ start) {producer : Nat} {state : Option (EnqueueState α)}
    (moves : RingProtocol.Moves protocol.ring (some producer) (protocol.holds (some producer))
      nextRing held label)
    (slots : next.slots = slotsOf nextRing) (enqueuePos : next.enqueuePos = toWord nextRing.tail)
    (head : nextRing.head = protocol.ring.head)
    (more : nextRing.tail = protocol.ring.tail + if event.claimsTail then 1 else 0)
    (mine : event.producer? = some producer) (silent : event.returns = false)
    (producers : next.producers = Function.update queue.producers producer state)
    (tracks : EnqueueState.Tracks? nextRing held
      (0, (tallySince (Event.isOf producer) Event.claimsTail events).1) state)
    (dequeuePos : next.dequeuePos = queue.dequeuePos) (consumer : next.consumer = queue.consumer) :
    Follows start storage (events ++ [event]) next
      { ring := nextRing, holds := Function.update protocol.holds (some producer) held } := by
  obtain ⟨labels, run⟩ := follows.run
  have holding :=
    (RingProtocol.consistent_of_runs capacity.atLeastTwo lap run).holding (some producer)
  have returned : tally Event.returns (events ++ [event]) = tally Event.returns events := by
    rw [tally_concat, silent]
    rfl
  refine ⟨⟨_, moves.run run⟩, slots, enqueuePos, ?_, ?_, ?_, ?_, ?_⟩
  · rw [returned, dequeuePos]
    exact follows.dequeuePos
  · rw [tally_concat, ← Nat.add_assoc, ← follows.claimsTail]
    exact more
  · rw [returned, consumer, ← follows.head]
    exact head
  · intro other
    dsimp only
    rw [producers]
    by_cases same : other = producer
    · subst same
      have marks : event.isOf other = true := decide_eq_true mine
      rw [Function.update_self, Function.update_self, tallySince_marked marks]
      exact tracks
    · have apart : some other ≠ some producer := fun also => same (Option.some_injective _ also)
      have plain : event.isOf other = false := by
        rw [Event.isOf, mine]
        exact decide_eq_false apart.symm
      rw [Function.update_of_ne same, Function.update_of_ne apart, tallySince_unmarked plain]
      exact tracks?_keep (follows.producers other) moves holding more
  · dsimp only
    rw [returned, consumer, Function.update_of_ne (Option.some_ne_none producer).symm]
    exact follows.consumer

/-- A step of the consumer that is a move on the ring or none keeps the queue following. -/
theorem Follows.dequeued (follows : Follows start storage events queue protocol)
    (lap : capacity.value ∣ start) {nextPosition : Nat}
    (moves : RingProtocol.Moves protocol.ring none (protocol.holds none) nextRing held label)
    (slots : next.slots = slotsOf nextRing) (tail : nextRing.tail = protocol.ring.tail)
    (dequeuePos : next.dequeuePos = toWord nextPosition)
    (head : nextRing.head = headAt nextPosition next.consumer)
    (returns : nextPosition = start + tally Event.returns events + if event.returns then 1 else 0)
    (tracks : DequeueState.Tracks? nextPosition held next.consumer)
    (others : event.producer? = none) (silent : event.claimsTail = false)
    (enqueuePos : next.enqueuePos = queue.enqueuePos)
    (producers : next.producers = queue.producers) :
    Follows start storage (events ++ [event]) next
      { ring := nextRing, holds := Function.update protocol.holds none held } := by
  obtain ⟨labels, run⟩ := follows.run
  have holding := (RingProtocol.consistent_of_runs capacity.atLeastTwo lap run).holding none
  have counted : nextPosition = start + tally Event.returns (events ++ [event]) := by
    rw [returns, tally_concat, Nat.add_assoc]
  refine ⟨⟨_, moves.run run⟩, slots, ?_, ?_, ?_, ?_, ?_, ?_⟩
  · rw [enqueuePos, follows.enqueuePos]
    exact congrArg toWord tail.symm
  · rw [dequeuePos, counted]
  · rw [tally_concat, silent]
    exact tail.trans follows.claimsTail
  · rw [← counted]
    exact head
  · intro other
    dsimp only
    have plain : event.isOf other = false := by
      rw [Event.isOf, others]
      rfl
    rw [producers, Function.update_of_ne (Option.some_ne_none other), tallySince_unmarked plain,
      silent]
    exact tracks?_keep (follows.producers other) moves holding tail
  · dsimp only
    rw [Function.update_self, ← counted]
    exact tracks

/-- Every step keeps the queue following a run of the protocol. -/
theorem Follows.step (follows : Follows start storage events queue protocol)
    (lap : capacity.value ∣ start) (transition : queue.step choice = some (next, event))
    (unlapped : Unlapped events event) :
    ∃ protocol, Follows start storage (events ++ [event]) next protocol := by
  obtain ⟨labels, run⟩ := follows.run
  have valid := (RingProtocol.consistent_of_runs capacity.atLeastTwo lap run).valid
  cases step_sound transition with
  | @callEnqueue producer idle item =>
      have tracks := follows.producers producer
      rw [idle] at tracks
      exact ⟨_, follows.enqueued lap .stutter follows.slots follows.enqueuePos rfl rfl rfl rfl
        rfl tracks rfl rfl⟩
  | callDequeue idle =>
      have tracks := follows.consumer
      have head := follows.head
      rw [idle] at tracks head
      exact ⟨_, follows.dequeued lap .stutter follows.slots rfl follows.dequeuePos head rfl
        tracks rfl rfl rfl rfl⟩
  | @enqueue producer state here spurious =>
      have tracks := follows.producers producer
      rw [here] at tracks
      rw [follows.slots, follows.enqueuePos] at unlapped ⊢
      obtain ⟨nextRing, held, label, steps⟩ :=
        EnqueueState.step_tracks (some producer) valid tracks spurious
          fun claims => unlapped (claimsTail_enqueue.trans claims) producer rfl
      refine ⟨_, follows.enqueued lap steps.moves steps.slots steps.tail steps.head ?_
        rfl returns_enqueue rfl steps.tracks rfl rfl⟩
      rw [claimsTail_enqueue]
      exact steps.claims
  | @dequeue state here left =>
      have tracks := follows.consumer
      have head := follows.head
      rw [here] at tracks head
      rw [follows.slots, follows.dequeuePos]
      obtain ⟨nextRing, held, label, nextPosition, steps⟩ :=
        DequeueState.step_tracks left valid head tracks
      exact ⟨_, follows.dequeued lap steps.moves steps.slots steps.tail steps.dequeuePos
        steps.head steps.returns steps.tracks rfl rfl rfl rfl⟩

/-- Every run follows the ring protocol as long as no compare-exchange is lapped. -/
theorem follows_of_runs (lap : capacity.value ∣ start)
    (run : (system α capacity).RunsUnder (fun events _ _ event => Unlapped events event)
      (startedAt (toWord start) storage) events queue) :
    ∃ protocol, Follows start storage events queue protocol := by
  apply run.invariant fun events queue => ∃ protocol, Follows start storage events queue protocol
  · exact ⟨_, follows_startedAt⟩
  · rintro events queue choice next event - ⟨protocol, follows⟩ transition unlapped
    exact follows.step lap transition unlapped

end MPSCQueue
end MmoServer.LockfreeQueue
