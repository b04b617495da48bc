import MmoServer.LockfreeQueue.MPMCRefusal
import MmoServer.LockfreeQueue.SingleProducer
import MmoServer.Std.RingFifo

/-!
# MPMCQueue with one producer

As long as only one thread is in Enqueue, the published items that nobody has claimed are a
first-in first-out queue: the sequence store of Enqueue appends to it, a successful
compare-exchange of Dequeue takes its oldest item, and a Dequeue that is refused has found it
empty. An Enqueue that is refused has found it full, or a consumer that is a lap behind.
-/

namespace MmoServer.LockfreeQueue

open MmoServer.Std MmoServer.Semantics

namespace MPMCQueue

variable {α : Type} {capacity : QueueCapacity} {queue next : MPMCQueue α capacity}
  {storage : Fin capacity.value → α} {events : List (Event α)} {event : Event α}
  {choice : Choice α} {producer thread : ThreadIndex}

/-- Nobody else is in Enqueue. -/
def OneProducer (producer : ThreadIndex) (queue : MPMCQueue α capacity) : Prop :=
  ∀ thread state, queue.threads thread = .enqueue state → thread = producer

/-- The published items that nobody has claimed, oldest first. -/
def waiting (producer : ThreadIndex) (queue : MPMCQueue α capacity) : List α :=
  (queue.protocolOf 0).waiting producer

/-- The item that a thread in Dequeue has claimed. -/
def due (queue : MPMCQueue α capacity) : ThreadIndex → Option α := (queue.protocolOf 0).due

/-- What an event says about the queue and about the items that are claimed. -/
def Serves (producer : ThreadIndex) (queue next : MPMCQueue α capacity) : Event α → Prop
  | .enqueue _ (.published _ item) =>
    next.waiting producer = queue.waiting producer ++ [item] ∧ next.due = queue.due
  | .dequeue thread (.claimed _) => queue.due thread = none ∧
    ∃ item, queue.waiting producer = item :: next.waiting producer ∧
      next.due = Function.update queue.due thread (some item)
  | .dequeue thread (.released _ item) => queue.due thread = some item ∧
    next.waiting producer = queue.waiting producer ∧
    next.due = Function.update queue.due thread none
  | _ => next.waiting producer = queue.waiting producer ∧ next.due = queue.due

/-- A queue with one producer along a run. -/
structure Fifo (producer : ThreadIndex) (storage : Fin capacity.value → α) (events : List (Event α))
    (queue : MPMCQueue α capacity) : Prop where
  refines : Refines 0 storage events queue
  oneWriter : RingProtocol.OneWriter producer (queue.protocolOf 0)

/-- A step is a move of a thread on the ring or none. -/
def MovesOn (thread : ThreadIndex) (queue next : MPMCQueue α capacity) (event : Event α) : Prop :=
  (event.label 0 = none ∧ next.protocolOf 0 = queue.protocolOf 0) ∨
  ∃ operation held label, event.label 0 = some label ∧
    RingProtocol.Effect (queue.ring 0) thread ((queue.protocolOf 0).holds thread) operation held
      label ∧
    next.protocolOf 0 = (queue.protocolOf 0).after thread operation held

theorem protocolOf_eq {held : ThreadState α}
    (threads : next.threads = Function.update queue.threads thread held) : next.protocolOf 0 =
      { ring := next.ring 0
        holds := Function.update (queue.protocolOf 0).holds thread (held.hold 0) } := by
  rw [protocolOf, threads]
  congr
  funext other
  by_cases mine : other = thread
  · rw [mine, Function.update_self, Function.update_self]
  · rw [Function.update_of_ne mine, Function.update_of_ne mine]
    rfl

/-- A step of one thread is a move of the ring. -/
theorem movesOn_of_moves (held : ThreadState α)
    (moves : RingProtocol.Moves (queue.ring 0) thread ((queue.threads thread).hold 0) (next.ring 0)
      (held.hold 0) (event.label 0))
    (threads : next.threads = Function.update queue.threads thread held) :
    MovesOn thread queue next event := by
  have reached := protocolOf_eq threads
  generalize next.ring 0 = ring at moves reached
  generalize held.hold 0 = hold at moves reached
  unfold MovesOn
  generalize event.label 0 = label? at moves ⊢
  cases moves with
  | stutter =>
      refine .inl ⟨rfl, reached.trans ?_⟩
      change RingProtocol.mk (queue.ring 0)
        (Function.update (queue.protocolOf 0).holds thread ((queue.protocolOf 0).holds thread)) = _
      rw [Function.update_eq_self]
      rfl
  | move effected => exact .inr ⟨_, _, _, rfl, effected, reached⟩

/-- Every step of the queue is a move of the thread that takes it. -/
theorem Refines.movesOn (refines : Refines 0 storage events queue)
    (few : tally Event.claimsTail events < 2 ^ 63)
    (transition : queue.step choice = some (next, event)) : ∃ thread,
      MovesOn thread queue next event ∧
      (event.claimsTail = true → ∃ state, queue.threads thread = .enqueue state) := by
  obtain ⟨tail, head⟩ := refines.below (Nat.dvd_zero _) few
  have consistent := refines.consistent (Nat.dvd_zero _)
  cases step_sound transition with
  | @call thread idle call =>
      refine ⟨thread, movesOn_of_moves call.enter ?_ rfl, nofun⟩
      rw [idle]
      cases call <;> exact .stutter
  | @enqueue thread state here spurious left =>
      have seen := refines.seen thread
      have holding : RingProtocol.Holding (queue.ring 0) _ thread
          ((queue.threads thread).hold 0) := consistent.holding thread
      rw [here] at seen holding
      obtain ⟨moves, -⟩ := EnqueueState.step_refines spurious (by omega) holding seen
      refine ⟨thread, movesOn_of_moves _ ?_ rfl, fun _ => ⟨state, here⟩⟩
      rw [here, hold_ofEnqueue]
      exact moves
  | @dequeue thread state here spurious left =>
      have seen := refines.seen thread
      have holding : RingProtocol.Holding (queue.ring 0) _ thread
          ((queue.threads thread).hold 0) := consistent.holding thread
      rw [here] at seen holding
      obtain ⟨moves, -⟩ := DequeueState.step_refines spurious left (by omega) holding seen
      refine ⟨thread, movesOn_of_moves _ ?_ rfl, nofun⟩
      rw [here, hold_ofDequeue]
      exact moves

/-- Every position belongs to one thread. -/
theorem Fifo.owned (fifo : Fifo producer storage events queue) : (queue.protocolOf 0).Owned :=
  fifo.refines.owned

/-- What is known of the ring holds of the queue. -/
theorem Fifo.consistent (fifo : Fifo producer storage events queue) :
    RingProtocol.Consistent 0 (events.filterMap (Event.label 0)) (queue.protocolOf 0) :=
  fifo.refines.consistent (Nat.dvd_zero _)

/-- What the ring says about the queue is what the event says. -/
theorem serves_of_queued {label : RingEvent ThreadIndex α} (shown : event.label 0 = some label)
    (queued : RingProtocol.Queued (queue.waiting producer) (next.waiting producer) queue.due
      next.due label) : Serves producer queue next event := by
  cases event with
  | called => cases shown
  | enqueue thread event => cases event <;> cases shown <;> exact queued
  | dequeue thread event => cases event <;> cases shown <;> exact queued

/-- A step that the ring does not see serves nobody. -/
theorem serves_of_silent (silent : event.label 0 = none)
    (same : next.protocolOf 0 = queue.protocolOf 0) : Serves producer queue next event := by
  have waiting : next.waiting producer = queue.waiting producer := by
    rw [MPMCQueue.waiting, MPMCQueue.waiting, same]
  have due : next.due = queue.due := by
    rw [MPMCQueue.due, MPMCQueue.due, same]
  cases event with
  | called => exact ⟨waiting, due⟩
  | enqueue thread event => cases event <;> first | exact ⟨waiting, due⟩ | cases silent
  | dequeue thread event => cases event <;> first | exact ⟨waiting, due⟩ | cases silent

theorem claimsTail_of_label {label : RingEvent ThreadIndex α} (shown : event.label 0 = some label)
    (claims : label.claimsTail = true) : event.claimsTail = true := by
  cases event with
  | called => cases shown
  | enqueue thread event => cases event <;> cases shown <;> first | rfl | cases claims
  | dequeue thread event => cases event <;> cases shown <;> cases claims

/-- Every step serves the queue. -/
theorem Fifo.step (fifo : Fifo producer storage events queue)
    (few : tally Event.claimsTail events < 2 ^ 63) (only : queue.OneProducer producer)
    (transition : queue.step choice = some (next, event)) :
    Fifo producer storage (events ++ [event]) next ∧ Serves producer queue next event := by
  have refines := fifo.refines.step (Nat.dvd_zero _) few transition
  obtain ⟨thread, moved, claims⟩ := fifo.refines.movesOn few transition
  rcases moved with ⟨silent, same⟩ | ⟨operation, held, label, shown, effected, reached⟩
  · refine ⟨⟨refines, ?_⟩, serves_of_silent silent same⟩
    rw [same]
    exact fifo.oneWriter
  · obtain ⟨oneWriter, queued⟩ := fifo.oneWriter.step fifo.consistent fifo.owned capacity.atLeastTwo
      effected fun claimed => by
        obtain ⟨state, here⟩ := claims (claimsTail_of_label shown claimed)
        exact only thread state here
    rw [← reached] at oneWriter queued
    exact ⟨⟨refines, oneWriter⟩, serves_of_queued shown queued⟩

/-- A new queue is a FIFO queue. -/
theorem fifo_constructed (producer : ThreadIndex) (storage : Fin capacity.value → α) :
    Fifo producer storage [] (constructed storage) where
  refines := refines_startedAt
  oneWriter := ⟨by rintro _ _ ⟨⟩, by rintro _ ⟨⟩⟩

/-- No more wait than the queue has slots. -/
theorem Fifo.length_waiting_le (fifo : Fifo producer storage events queue) :
    (queue.waiting producer).length ≤ capacity.value :=
  fifo.oneWriter.length_waiting_le fifo.consistent.valid

/-- A Dequeue is refused only by an empty queue. -/
theorem Fifo.waiting_eq_nil (fifo : Fifo producer storage events queue)
    (few : tally Event.claimsTail events + capacity.value ≤ 2 ^ 63)
    (transition : queue.step choice = some (next, .dequeue thread .refused)) :
    queue.waiting producer = [] := by
  obtain ⟨state, spurious, left, here, refused⟩ := step_of_dequeue transition
  obtain ⟨pos, rfl, behind⟩ := DequeueState.step_refused refused
  have seen := fifo.refines.seen thread
  rw [here] at seen
  have reached : toPosition 0 pos ≤ toPosition 0 queue.head := seen
  have tail := fifo.refines.tail_eq
  have ahead := fifo.refines.sequence_lt pos
  have ordered : toPosition 0 queue.head ≤ toPosition 0 queue.tail := fifo.consistent.valid.ordered
  have positive := capacity.atLeastTwo
  have succ : toPosition 0 (pos + 1) = toPosition 0 pos + 1 := toPosition_succ (by omega)
  rw [sequenceDiff_neg_iff_lt 0 (by omega) (by omega), succ, ← sequenceAt_ring] at behind
  exact fifo.oneWriter.waiting_eq_nil fifo.owned fifo.consistent.valid reached behind

/-- While the producer writes nothing, all the positions up to the tail are published. -/
theorem Fifo.tail_eq (fifo : Fifo producer storage events queue)
    (unwritten : (queue.threads producer).writes? = none) :
    queue.tail.toNat = queue.head.toNat + (queue.waiting producer).length := by
  have nothing : ((queue.protocolOf 0).holds producer).writes? = none := by
    change ((queue.threads producer).hold 0).writes? = none
    cases writes : ((queue.threads producer).hold 0).writes? with
    | none => rfl
    | some position =>
        obtain ⟨pos, here, -⟩ := writes?_of_hold writes
        cases unwritten.symm.trans here
  have ordered : toPosition 0 queue.head ≤ toPosition 0 queue.tail := fifo.consistent.valid.ordered
  have length : (queue.waiting producer).length = (queue.protocolOf 0).published producer -
      (queue.protocolOf 0).ring.head := RingProtocol.length_waiting
  rw [RingProtocol.published, nothing] at length
  change _ = toPosition 0 queue.tail - toPosition 0 queue.head at length
  rw [toPosition_zero, toPosition_zero] at ordered length
  omega

/-- An Enqueue is refused by a full queue, or behind a consumer that has its slot. -/
theorem Fifo.enqueue_refused (fifo : Fifo producer storage events queue)
    (few : tally Event.claimsTail events + capacity.value ≤ 2 ^ 63)
    (only : queue.OneProducer producer)
    (transition : queue.step choice = some (next, .enqueue thread .refused)) :
    (queue.waiting producer).length = capacity.value ∨
      ∃ consumer pos, (queue.threads consumer).reads? = some pos ∧
        pos.toNat + capacity.value = queue.head.toNat + (queue.waiting producer).length := by
  have tail : queue.tail.toNat = queue.head.toNat + (queue.waiting producer).length := by
    refine fifo.tail_eq ?_
    obtain ⟨state, spurious, here, refused⟩ := step_of_enqueue transition
    obtain ⟨item, pos, rfl, -⟩ := EnqueueState.step_refused refused
    rw [← only thread _ here, here]
    rfl
  rcases MPMCQueue.enqueue_refused fifo.refines few transition with full | held
  · have full : queue.tail.toNat = queue.head.toNat + capacity.value := full
    exact .inl (by omega)
  · obtain ⟨consumer, pos, reads, lap⟩ := held
    exact .inr ⟨consumer, pos, reads, lap.trans tail⟩

/-! ## What one thread does -/

theorem reads?_ofEnqueue (state : Option (EnqueueState α)) :
    (ThreadState.ofEnqueue state).reads? = none := by
  rcases state with _ | (_ | _ | _ | _ | _) <;> rfl

/-- Dequeue reads the position that it read, or the one that it claims. -/
theorem reads?_ofDequeue {slots : QueueSlots α capacity} {head : QueueSequence}
    {state : DequeueState α} {spurious : Bool} {left : α} {pos : QueueSequence}
    (reads : (ThreadState.ofDequeue (state.step slots head spurious left).state).reads? = some pos) :
    (ThreadState.dequeue state).reads? = some pos ∨ pos = head := by
  cases state with
  | loadHead | storeSequence => cases reads
  | loadSequence seen =>
      simp only [DequeueState.step] at reads
      split at reads
      · cases reads
      · split at reads <;> cases reads
  | compareExchange seen =>
      simp only [DequeueState.step] at reads
      split at reads
      · next succeeded =>
        cases reads
        exact .inr succeeded.1.symm
      · cases reads
  | moveOut seen => exact .inl reads

/-- A step changes one thread, which reads nothing new but the head. -/
theorem threads_of_step (transition : queue.step choice = some (next, event)) :
    ∃ thread held, next.threads = Function.update queue.threads thread held ∧
      ∀ pos, held.reads? = some pos →
        (queue.threads thread).reads? = some pos ∨ pos = queue.head := by
  cases step_sound transition with
  | @call thread idle call =>
      refine ⟨thread, call.enter, rfl, fun pos reads => ?_⟩
      cases call <;> cases reads
  | @enqueue thread state here spurious left =>
      refine ⟨thread, _, rfl, fun pos reads => ?_⟩
      rw [reads?_ofEnqueue] at reads
      cases reads
  | @dequeue thread state here spurious left =>
      refine ⟨thread, _, rfl, fun pos reads => ?_⟩
      rw [here]
      exact reads?_ofDequeue reads

/-- A thread that reads after a step has read before, or has claimed the head. -/
theorem reads_of_step (transition : queue.step choice = some (next, event))
    {pos : QueueSequence} (reads : (next.threads thread).reads? = some pos) :
    (queue.threads thread).reads? = some pos ∨ pos = queue.head := by
  obtain ⟨mover, held, threads, cases_⟩ := threads_of_step transition
  rw [threads] at reads
  by_cases mine : thread = mover
  · subst mine
    rw [Function.update_self] at reads
    exact cases_ pos reads
  · rw [Function.update_of_ne mine] at reads
    exact .inl reads

/-- The head counts the claims. -/
theorem Refines.head_of_step (refines : Refines 0 storage events queue)
    (after : Refines 0 storage (events ++ [event]) next) :
    next.head.toNat = queue.head.toNat + if event.claimsHead then 1 else 0 := by
  have before := refines.head_eq
  have later := after.head_eq
  rw [toPosition_zero] at before later
  rw [later, before, tally_concat]

/-- What a step of Enqueue shows of its item, and when it is the last one. -/
theorem enqueue_cases (state : EnqueueState α) (slots : QueueSlots α capacity)
    (tail : QueueSequence) (spurious : Bool) :
    (∃ later, (state.step slots tail spurious).state = some later ∧
      MPSCQueue.offering later = MPSCQueue.offering state ∧
      (state.step slots tail spurious).event ≠ .refused ∧
      ∀ pos item, (state.step slots tail spurious).event ≠ .published pos item) ∨
    ((state.step slots tail spurious).state = none ∧
      ((state.step slots tail spurious).event = .refused ∨
        ∃ pos, (state.step slots tail spurious).event =
          .published pos (MPSCQueue.offering state))) := by
  cases state with
  | loadTail item | moveIn item pos =>
      exact .inl ⟨_, rfl, rfl, by rintro ⟨⟩, by rintro _ _ ⟨⟩⟩
  | loadSequence item pos =>
      simp only [EnqueueState.step]
      split
      · exact .inl ⟨_, rfl, rfl, by rintro ⟨⟩, by rintro _ _ ⟨⟩⟩
      · split
        · exact .inr ⟨rfl, .inl rfl⟩
        · exact .inl ⟨_, rfl, rfl, by rintro ⟨⟩, by rintro _ _ ⟨⟩⟩
  | compareExchange item pos =>
      simp only [EnqueueState.step]
      split <;> exact .inl ⟨_, rfl, rfl, by rintro ⟨⟩, by rintro _ _ ⟨⟩⟩
  | storeSequence item pos => exact .inr ⟨rfl, .inr ⟨pos, rfl⟩⟩

/-- When a step of Dequeue is the last one. -/
theorem dequeue_cases (state : DequeueState α) (slots : QueueSlots α capacity)
    (head : QueueSequence) (spurious : Bool) (left : α) :
    (∃ later, (state.step slots head spurious left).state = some later ∧
      (state.step slots head spurious left).event ≠ .refused ∧
      ∀ pos item, (state.step slots head spurious left).event ≠ .released pos item) ∨
    ((state.step slots head spurious left).state = none ∧
      ((state.step slots head spurious left).event = .refused ∨
        ∃ pos item, (state.step slots head spurious left).event = .released pos item)) := by
  cases state with
  | loadHead | moveOut => exact .inl ⟨_, rfl, by rintro ⟨⟩, by rintro _ _ ⟨⟩⟩
  | loadSequence pos =>
      simp only [DequeueState.step]
      split
      · exact .inl ⟨_, rfl, by rintro ⟨⟩, by rintro _ _ ⟨⟩⟩
      · split
        · exact .inr ⟨rfl, .inl rfl⟩
        · exact .inl ⟨_, rfl, by rintro ⟨⟩, by rintro _ _ ⟨⟩⟩
  | compareExchange pos =>
      simp only [DequeueState.step]
      split <;> exact .inl ⟨_, rfl, by rintro ⟨⟩, by rintro _ _ ⟨⟩⟩
  | storeSequence pos item => exact .inr ⟨rfl, .inr ⟨pos, item, rfl⟩⟩

end MPMCQueue
end MmoServer.LockfreeQueue
