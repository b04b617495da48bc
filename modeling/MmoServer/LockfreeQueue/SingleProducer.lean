import MmoServer.LockfreeQueue.MPSCQueue
import MmoServer.LockfreeQueue.WrapAround
import MmoServer.Semantics.Simulation
import MmoServer.Std.QueueCalls

/-!
# MPSCQueue with one producer

NetServer's inbound queue is filled by its io thread alone. With one producer the queue
is a bounded queue whose calls take effect at one of their steps: Enqueue at its sequence
store or at the load that finds no room, Dequeue at its sequence store or at the load that
finds no item. This holds across the end of the counters too, since `Stores` speaks of
the words themselves.

While the consumer has moved an item out and not yet given the slot back, the memory is
what the queue stores up to the storage of that slot; `Represents` names the slots as the
queue stores them beside the memory as it is.
-/

namespace MmoServer.LockfreeQueue

open MmoServer.Std MmoServer.Semantics

/-! ## Writes to different slots -/

section Slots

variable {α : Type} {capacity : QueueCapacity} {slots : QueueSlots α capacity}
  {pos other sequence : QueueSequence} {item left : α}

theorem sequence_setStorage (slot : Fin capacity.value) :
    (QueueSlots.setStorage slots pos item slot).sequence = (slots slot).sequence := by
  rw [QueueSlots.setStorage]
  by_cases same : slot = capacity.index pos
  · rw [same, Function.update_self]
  · rw [Function.update_of_ne same]

/-- Stores into different slots can be exchanged. -/
theorem setStorage_setStorage (apart : capacity.index pos ≠ capacity.index other) :
    QueueSlots.setStorage (QueueSlots.setStorage slots pos item) other left =
      QueueSlots.setStorage (QueueSlots.setStorage slots other left) pos item := by
  simp only [QueueSlots.setStorage, Function.update_of_ne apart, Function.update_of_ne apart.symm]
  exact Function.update_comm apart ..

/-- So can a store of an item and one of a sequence. -/
theorem setSequence_setStorage (apart : capacity.index pos ≠ capacity.index other) :
    QueueSlots.setSequence (QueueSlots.setStorage slots pos item) other sequence =
      QueueSlots.setStorage (QueueSlots.setSequence slots other sequence) pos item := by
  simp only [QueueSlots.setStorage, QueueSlots.setSequence, Function.update_of_ne apart,
    Function.update_of_ne apart.symm]
  exact Function.update_comm apart ..

/-- A slot that has the item already. -/
theorem setStorage_same (stored : (slots (capacity.index pos)).storage = item) :
    QueueSlots.setStorage slots pos item = slots := by
  rw [QueueSlots.setStorage, ← stored]
  exact Function.update_eq_self ..

end Slots

namespace Stores

variable {α : Type} {capacity : QueueCapacity} {slots : QueueSlots α capacity}
  {head tail : QueueSequence} {items : List α} {item : α}

/-- The ends of a queue that is neither empty nor full are different slots. -/
theorem apart (stores : Stores slots head tail items) (some : items ≠ [])
    (room : items.length < capacity.value) : capacity.index tail ≠ capacity.index head := by
  intro same
  have first : capacity.index (head + UInt64.ofNat items.length) =
      capacity.index (head + UInt64.ofNat 0) := by
    rw [← stores.ends, add_ofNat_zero, same]
  have none := (capacity.index_add_inj head room (Nat.pos_of_neZero _)).mp first
  exact some (List.length_eq_zero_iff.mp none)

/-- The ends of an empty queue meet, and no others do. -/
theorem items_eq_nil (stores : Stores slots head tail items) (meet : tail = head) : items = [] := by
  have small := capacity.le_half
  have bounded := stores.bounded
  have ends := congrArg UInt64.toNat stores.ends
  have below := head.toNat_lt
  rw [meet, UInt64.toNat_add, UInt64.toNat_ofNat'] at ends
  exact List.length_eq_zero_iff.mp (by omega)

/-- The storage of the slot at the tail does not matter yet. -/
theorem moveIn (stores : Stores slots head tail items) (room : items.length < capacity.value)
    (item : α) : Stores (QueueSlots.setStorage slots tail item) head tail items where
  bounded := stores.bounded
  ends := stores.ends
  filled count found here := by
    obtain ⟨inside, -⟩ := List.getElem?_eq_some_iff.mp here
    have place : capacity.index (head + UInt64.ofNat count) ≠ capacity.index tail := by
      rw [stores.ends]
      intro same
      have equal := (capacity.index_add_inj head (Nat.lt_trans inside room) room).mp same
      exact Nat.ne_of_lt inside equal
    rw [QueueSlots.setStorage, Function.update_of_ne place]
    exact stores.filled count found here
  free count behind less := by
    rw [sequence_setStorage]
    exact stores.free count behind less

/-- The sequence store makes the item at the tail the newest one. -/
theorem publish (stores : Stores slots head tail items) (room : items.length < capacity.value)
    (stored : (slots (capacity.index tail)).storage = item) :
    Stores (QueueSlots.setSequence slots tail (tail + 1)) head (tail + 1) (items ++ [item]) := by
  have published := stores.enqueue room item
  rwa [setStorage_same stored] at published

end Stores

namespace MPSCQueue

variable {α : Type} {capacity : QueueCapacity}

/-! ## What the queue represents -/

/-- Where the producer stands, for a tail up to which the items are published. -/
def ProducerAt (slots : QueueSlots α capacity) (tail enqueuePos : QueueSequence) (items : List α) :
    Option (EnqueueState α) → Prop
  | none | some (.loadTail _) => enqueuePos = tail
  | some (.loadSequence _ pos) => enqueuePos = tail ∧ pos = tail
  | some (.compareExchange _ pos) => enqueuePos = tail ∧ pos = tail ∧ items.length < capacity.value
  | some (.moveIn _ pos) => enqueuePos = tail + 1 ∧ pos = tail ∧ items.length < capacity.value
  | some (.storeSequence item pos) => enqueuePos = tail + 1 ∧ pos = tail ∧
      items.length < capacity.value ∧ (slots (capacity.index tail)).storage = item

/-- Where the consumer stands, for a head up to which the slots are given back. The memory
is the slots, but for the one that the consumer has moved the item out of. -/
def ConsumerAt (slots memory : QueueSlots α capacity) (head dequeuePos : QueueSequence)
    (items : List α) : Option (DequeueState α) → Prop
  | none | some .loadPos => memory = slots ∧ dequeuePos = head
  | some (.loadSequence pos) => memory = slots ∧ dequeuePos = head ∧ pos = head
  | some (.moveOut pos) => memory = slots ∧ dequeuePos = head ∧ pos = head ∧ items ≠ []
  | some (.storeSequence pos item) => (∃ left, memory = QueueSlots.setStorage slots head left) ∧
      dequeuePos = head ∧ pos = head ∧ items.head? = some item
  | some (.storePos pos _) => memory = slots ∧ pos = dequeuePos ∧ head = dequeuePos + 1

/-- A queue with one producer as a bounded queue. -/
structure Represents (producer : Nat) (queue : MPSCQueue α capacity)
    (fifo : BoundedQueue α capacity.value) (slots : QueueSlots α capacity)
    (head tail : QueueSequence) : Prop where
  stores : LockfreeQueue.Stores slots head tail fifo.items
  producer : ProducerAt slots tail queue.enqueuePos fifo.items (queue.producers producer)
  consumer : ConsumerAt slots queue.slots head queue.dequeuePos fifo.items queue.consumer

/-- The steps at which a call takes effect, with its answer. -/
def Event.answer? : Event α → Option (QueueAnswer α)
  | .enqueue _ (.published _ item) => some (.enqueued item)
  | .enqueue _ .refused => some .full
  | .dequeue (.released _ item) => some (.dequeued item)
  | .dequeue .refused => some .empty
  | _ => none

/-- The producer that moves. -/
def Choice.producer? : Choice α → Option Nat
  | .callEnqueue producer _ | .enqueue producer _ => some producer
  | .callDequeue | .dequeue _ => none

/-- All calls of Enqueue are one producer's. -/
def OneProducer (producer : Nat) :
    TransitionSystem.StepCondition (MPSCQueue α capacity) (Choice α) (Event α) :=
  fun _ _ choice _ => ∀ other ∈ choice.producer?, other = producer

instance (producer : Nat) (events : List (Event α)) (queue : MPSCQueue α capacity)
    (choice : Choice α) (event : Event α) :
    Decidable (OneProducer producer events queue choice event) :=
  inferInstanceAs (Decidable (∀ other ∈ choice.producer?, other = producer))

variable {producer : Nat} {queue next : MPSCQueue α capacity} {fifo later : BoundedQueue α capacity.value}
  {slots memory : QueueSlots α capacity} {head tail enqueuePos dequeuePos : QueueSequence}
  {items rest : List α} {item : α} {consumer : Option (DequeueState α)}
  {enqueuing : Option (EnqueueState α)} {choice : Choice α} {event : Event α}
  {events : List (Event α)} {storage : Fin capacity.value → α} {base : QueueSequence}

/-- The sequences in memory are those of the slots. -/
theorem ConsumerAt.sequence (stands : ConsumerAt slots memory head dequeuePos items consumer)
    (slot : Fin capacity.value) : (memory slot).sequence = (slots slot).sequence := by
  cases consumer with
  | none => rw [stands.1]
  | some state =>
      cases state with
      | loadPos | loadSequence | moveOut | storePos => rw [stands.1]
      | storeSequence pos item =>
          obtain ⟨⟨left, rfl⟩, -⟩ := stands
          exact sequence_setStorage slot

/-- The producer may write into the slot at the tail. -/
theorem ConsumerAt.moveIn (stands : ConsumerAt slots memory head dequeuePos items consumer)
    (stores : LockfreeQueue.Stores slots head tail items) (room : items.length < capacity.value) (item : α) :
    ConsumerAt (QueueSlots.setStorage slots tail item) (QueueSlots.setStorage memory tail item)
      head dequeuePos items consumer := by
  cases consumer with
  | none => exact ⟨by rw [stands.1], stands.2⟩
  | some state =>
      cases state with
      | loadPos | loadSequence | moveOut | storePos => exact ⟨by rw [stands.1], stands.2⟩
      | storeSequence pos oldest =>
          obtain ⟨⟨left, rfl⟩, followed, same, first⟩ := stands
          have some : items ≠ [] := by
            rintro rfl
            cases first
          exact ⟨⟨left, setStorage_setStorage (stores.apart some room).symm⟩, followed, same, first⟩

/-- The producer may publish the item at the tail. -/
theorem ConsumerAt.publish (stands : ConsumerAt slots memory head dequeuePos items consumer)
    (stores : LockfreeQueue.Stores slots head tail items) (room : items.length < capacity.value)
    (sequence : QueueSequence) (item : α) :
    ConsumerAt (QueueSlots.setSequence slots tail sequence)
      (QueueSlots.setSequence memory tail sequence) head dequeuePos (items ++ [item]) consumer := by
  cases consumer with
  | none => exact ⟨by rw [stands.1], stands.2⟩
  | some state =>
      cases state with
      | loadPos | loadSequence | storePos => exact ⟨by rw [stands.1], stands.2⟩
      | moveOut pos =>
          obtain ⟨rfl, followed, same, -⟩ := stands
          exact ⟨rfl, followed, same, by simp⟩
      | storeSequence pos oldest =>
          obtain ⟨⟨left, rfl⟩, followed, same, first⟩ := stands
          have some : items ≠ [] := by
            rintro rfl
            cases first
          refine ⟨⟨left, setSequence_setStorage (stores.apart some room).symm⟩, followed, same, ?_⟩
          rw [List.head?_append_of_ne_nil _ some, first]

/-- The consumer may give the slot at the head back. -/
theorem ProducerAt.release (stands : ProducerAt slots tail enqueuePos (item :: rest) enqueuing)
    (stores : LockfreeQueue.Stores slots head tail (item :: rest)) (left : α) (sequence : QueueSequence) :
    ProducerAt (QueueSlots.setSequence (QueueSlots.setStorage slots head left) head sequence)
      tail enqueuePos rest enqueuing := by
  cases enqueuing with
  | none => exact stands
  | some state =>
      cases state with
      | loadTail | loadSequence => exact stands
      | compareExchange | moveIn => exact ⟨stands.1, stands.2.1, Nat.lt_of_succ_lt stands.2.2⟩
      | storeSequence newest pos =>
          obtain ⟨claimed, same, room, stored⟩ := stands
          have place := stores.apart (List.cons_ne_nil _ _) room
          refine ⟨claimed, same, Nat.lt_of_succ_lt room, ?_⟩
          rw [QueueSlots.setSequence, Function.update_of_ne place, QueueSlots.setStorage,
            Function.update_of_ne place, stored]

/-! ## Every step -/

/-- The queue represents some bounded queue. -/
def Related (producer : Nat) (queue : MPSCQueue α capacity)
    (fifo : BoundedQueue α capacity.value) : Prop :=
  ∃ slots head tail, Represents producer queue fifo slots head tail

/-- The bounded queue gives an answer, if there is one, and is represented afterwards. -/
def Matched (producer : Nat) (fifo : BoundedQueue α capacity.value)
    (answer? : Option (QueueAnswer α)) (next : MPSCQueue α capacity) : Prop :=
  ∃ later, (BoundedQueue.system α capacity.value).Runs fifo answer?.toList later ∧
    Related producer next later

/-- Every step of the producer. -/
theorem Represents.enqueue (represents : Represents producer queue fifo slots head tail)
    {state : EnqueueState α} (here : queue.producers producer = some state) (spurious : Bool) :
    Matched producer fifo
      (Event.enqueue producer (state.step queue.slots queue.enqueuePos spurious).event).answer?
      (queue.afterEnqueue producer (state.step queue.slots queue.enqueuePos spurious)) := by
  obtain ⟨stores, stands, consumer⟩ := represents
  rw [here] at stands
  cases state with
  | loadTail item =>
      have followed : queue.enqueuePos = tail := stands
      refine ⟨fifo, .refl, slots, head, tail, stores, ?_, consumer⟩
      simp [afterEnqueue, EnqueueState.step, ProducerAt, followed]
  | loadSequence item pos =>
      obtain ⟨followed, rfl⟩ := stands
      rcases fifo.enqueue_cases item with ⟨room, -, -⟩ | ⟨full, -, -⟩
      · have free : sequenceDiff (queue.slots (capacity.index pos)).sequence pos = 0 := by
          rw [sequenceDiff_eq_zero_iff, consumer.sequence, stores.at_tail room]
        simp only [EnqueueState.step, if_pos free]
        refine ⟨fifo, .refl, slots, head, pos, stores, ?_, consumer⟩
        simp [afterEnqueue, ProducerAt, followed, room]
      · have behind : sequenceDiff (queue.slots (capacity.index pos)).sequence pos < 0 := by
          rw [consumer.sequence]
          exact stores.behind_of_full full
        simp only [EnqueueState.step, if_neg (Int64.ne_of_lt behind), if_pos behind]
        refine ⟨fifo, BoundedQueue.runs_full full item, slots, head, pos, stores, ?_, consumer⟩
        simp [afterEnqueue, ProducerAt, followed]
  | compareExchange item pos =>
      obtain ⟨followed, rfl, room⟩ := stands
      refine ⟨fifo, ?_, slots, head, pos, ?_⟩
      · cases spurious <;> simp only [EnqueueState.step, followed] <;> exact .refl
      · cases spurious with
        | false =>
            refine ⟨stores, ?_, by simpa [afterEnqueue, EnqueueState.step, followed] using consumer⟩
            simp [afterEnqueue, EnqueueState.step, ProducerAt, followed, room]
        | true =>
            refine ⟨stores, ?_, by simpa [afterEnqueue, EnqueueState.step, followed] using consumer⟩
            simp [afterEnqueue, EnqueueState.step, ProducerAt, followed]
  | moveIn item pos =>
      obtain ⟨claimed, rfl, room⟩ := stands
      refine ⟨fifo, .refl, _, head, pos, stores.moveIn room item, ?_, consumer.moveIn stores room item⟩
      simp [afterEnqueue, EnqueueState.step, ProducerAt, claimed, room, QueueSlots.setStorage]
  | storeSequence item pos =>
      obtain ⟨claimed, rfl, room, stored⟩ := stands
      obtain ⟨later, run, items⟩ := BoundedQueue.runs_enqueued room item
      refine ⟨later, run, QueueSlots.setSequence slots pos (pos + 1), head, pos + 1, ?_, ?_, ?_⟩
      · rw [items]
        exact stores.publish room stored
      · simp [afterEnqueue, EnqueueState.step, ProducerAt, claimed]
      · rw [items]
        exact consumer.publish stores room _ item

/-- Every step of the consumer. -/
theorem Represents.dequeue (represents : Represents producer queue fifo slots head tail)
    {state : DequeueState α} (here : queue.consumer = some state) (left : α) :
    Matched producer fifo
      (Event.dequeue (state.step queue.slots queue.dequeuePos left).event).answer?
      (queue.afterDequeue (state.step queue.slots queue.dequeuePos left)) := by
  obtain ⟨stores, enqueuing, stands⟩ := represents
  rw [here] at stands
  cases state with
  | loadPos =>
      obtain ⟨memory, rfl⟩ := stands
      exact ⟨fifo, .refl, slots, _, tail, stores, enqueuing, memory, rfl, rfl⟩
  | loadSequence pos =>
      obtain ⟨memory, followed, rfl⟩ := stands
      cases items : fifo.items with
      | nil =>
          rw [items] at stores
          have behind := stores.behind_of_empty
          rw [← memory] at behind
          simp only [DequeueState.step, if_neg (Int64.ne_of_lt behind)]
          refine ⟨fifo, BoundedQueue.runs_empty items, slots, pos, tail, ?_, enqueuing, memory, followed⟩
          rwa [items]
      | cons oldest rest =>
          have filled : sequenceDiff (queue.slots (capacity.index pos)).sequence (pos + 1) = 0 := by
            rw [items] at stores
            rw [sequenceDiff_eq_zero_iff, memory, stores.at_head]
          simp only [DequeueState.step, if_pos filled]
          refine ⟨fifo, .refl, slots, pos, tail, stores, enqueuing, memory, followed, rfl, ?_⟩
          rw [items]
          exact List.cons_ne_nil _ _
  | moveOut pos =>
      obtain ⟨memory, followed, rfl, nonempty⟩ := stands
      obtain ⟨oldest, rest, items⟩ := List.exists_cons_of_ne_nil nonempty
      refine ⟨fifo, .refl, slots, pos, tail, stores, enqueuing, ⟨left, ?_⟩, followed, rfl, ?_⟩
      · simp only [afterDequeue, DequeueState.step, memory]
      · rw [items] at stores ⊢
        simp only [memory, stores.at_head, List.head?_cons]
  | storeSequence pos item =>
      obtain ⟨⟨left, memory⟩, followed, rfl, first⟩ := stands
      obtain ⟨rest, items⟩ := List.head?_eq_some_iff.mp first
      obtain ⟨later, run, remaining⟩ := BoundedQueue.runs_dequeued items
      rw [items] at stores enqueuing
      refine ⟨later, run, QueueSlots.setSequence (QueueSlots.setStorage slots pos left) pos
        (pos + UInt64.ofNat capacity.value), pos + 1, tail, ?_, ?_, ?_⟩
      · rw [remaining]
        exact stores.dequeue left
      · rw [remaining]
        exact enqueuing.release stores left _
      · refine ⟨?_, followed.symm, ?_⟩
        · simp only [afterDequeue, DequeueState.step, memory]
        · simp only [afterDequeue, DequeueState.step, followed]
  | storePos pos item =>
      obtain ⟨memory, rfl, rfl⟩ := stands
      exact ⟨fifo, .refl, slots, _, tail, stores, enqueuing, memory, rfl⟩

/-- Every step is matched by the bounded queue. -/
theorem Represents.step (represents : Represents producer queue fifo slots head tail)
    (transition : queue.step choice = some (next, event))
    (only : OneProducer producer events queue choice event) :
    Matched producer fifo event.answer? next := by
  cases step_sound transition with
  | callEnqueue idle item =>
      obtain rfl := only _ rfl
      obtain ⟨stores, stands, consumer⟩ := represents
      rw [idle] at stands
      refine ⟨fifo, .refl, slots, head, tail, stores, ?_, consumer⟩
      simpa [ProducerAt] using stands
  | callDequeue idle =>
      obtain ⟨stores, enqueuing, stands⟩ := represents
      rw [idle] at stands
      exact ⟨fifo, .refl, slots, head, tail, stores, enqueuing, stands⟩
  | enqueue here spurious =>
      obtain rfl := only _ rfl
      exact represents.enqueue here spurious
  | dequeue here left => exact represents.dequeue here left

/-! ## Every run -/

/-- The answers of the calls, in the order in which they take effect. -/
def answers (events : List (Event α)) : List (QueueAnswer α) := events.filterMap Event.answer?

/-- The item with which a Dequeue returns true. -/
def Event.returned? : Event α → Option α
  | .dequeue (.returned _ item) => some item
  | _ => none

/-- The item of a Dequeue between its two stores. -/
def pending? : Option (DequeueState α) → Option α
  | some (.storePos _ item) => some item
  | _ => none

/-- A new queue is an empty bounded queue. -/
theorem related_startedAt (aligned : capacity.value ∣ base.toNat) :
    Related producer (startedAt base storage) BoundedQueue.empty :=
  ⟨constructedSlots base storage, base, base, .startedAt aligned storage, rfl, rfl, rfl⟩

/-- Every run of a queue with one producer is one of a bounded queue. -/
theorem answers_runs (aligned : capacity.value ∣ base.toNat)
    (run : (system α capacity).RunsUnder (OneProducer producer) (startedAt base storage) events queue) :
    ∃ fifo, (BoundedQueue.system α capacity.value).Runs .empty (answers events) fifo ∧
      Related producer queue fifo := by
  refine run.simulated ?_ (related_startedAt aligned)
  rintro events queue choice next event fifo - ⟨slots, head, tail, represents⟩ transition only
  exact represents.step transition only

/-- An item is pending from the store that gives its slot back to the return. -/
theorem step_returned (transition : queue.step choice = some (next, event)) :
    (pending? queue.consumer).toList ++ event.answer?.toList.filterMap QueueAnswer.dequeued? =
      event.returned?.toList ++ (pending? next.consumer).toList := by
  cases step_sound transition with
  | callEnqueue idle item => exact List.append_nil _
  | callDequeue idle =>
      rw [idle]
      rfl
  | @enqueue producer state here spurious =>
      have other : (Event.enqueue producer
          (state.step queue.slots queue.enqueuePos spurious).event).answer?.toList.filterMap
            QueueAnswer.dequeued? = [] := by
        cases (state.step queue.slots queue.enqueuePos spurious).event <;> rfl
      rw [other]
      exact List.append_nil _
  | dequeue here left =>
      rename_i state
      rw [here]
      cases state with
      | loadSequence pos =>
          simp only [DequeueState.step, afterDequeue]
          split <;> rfl
      | loadPos | moveOut | storeSequence | storePos => rfl

/-- Dequeue returns the items of the slots it has given back, one after the other. -/
theorem dequeued_answers {allowed : TransitionSystem.StepCondition (MPSCQueue α capacity) (Choice α)
      (Event α)} (run : (system α capacity).RunsUnder allowed (startedAt base storage) events queue) :
    BoundedQueue.dequeued (answers events) =
      events.filterMap Event.returned? ++ (pending? queue.consumer).toList := by
  apply run.invariant fun events queue => BoundedQueue.dequeued (answers events) =
    events.filterMap Event.returned? ++ (pending? queue.consumer).toList
  · rfl
  · intro events queue choice next event _ before transition _
    rw [BoundedQueue.dequeued, answers] at before ⊢
    rw [filterMap_concat, filterMap_concat, List.filterMap_append, before, List.append_assoc,
      List.append_assoc, step_returned transition]

/-! ## What is offered -/

/-- The item that Enqueue was called with. -/
def offering : EnqueueState α → α
  | .loadTail item | .loadSequence item _ | .compareExchange item _ | .moveIn item _
  | .storeSequence item _ => item

/-- The item of a call of Enqueue that has not returned. -/
def offering? (enqueuing : Option (EnqueueState α)) : Option α := enqueuing.map offering

/-- What a step of Enqueue makes of its item. -/
inductive Settles (state : EnqueueState α) : Option (EnqueueState α) → Option (QueueAnswer α) → Prop
  | goesOn {later : EnqueueState α} (same : offering later = offering state) :
      Settles state (some later) none
  | accepted : Settles state none (some (.enqueued (offering state)))
  | refused : Settles state none (some .full)

/-- A step of Enqueue either goes on with its item or settles it. -/
theorem step_settles (state : EnqueueState α) (slots : QueueSlots α capacity)
    (enqueuePos : QueueSequence) (spurious : Bool) (producer : Nat) :
    Settles state (state.step slots enqueuePos spurious).state
      (Event.enqueue producer (state.step slots enqueuePos spurious).event).answer? := by
  cases state with
  | loadTail item | moveIn item pos => exact .goesOn rfl
  | loadSequence item pos =>
      simp only [EnqueueState.step]
      split
      · exact .goesOn rfl
      · split
        · exact .refused
        · exact .goesOn rfl
  | compareExchange item pos =>
      simp only [EnqueueState.step]
      split <;> exact .goesOn rfl
  | storeSequence item pos => exact .accepted

/-- The item that Enqueue is called with. -/
def Event.offered? : Event α → Option α
  | .calledEnqueue _ item => some item
  | _ => none

/-- The items that Enqueue has been called with. -/
def offered (events : List (Event α)) : List α := events.filterMap Event.offered?

/-- What is offered is accepted in its turn, refused, or still in its call. -/
structure Offered (producer : Nat) (events : List (Event α)) (queue : MPSCQueue α capacity) : Prop where
  inOrder : (BoundedQueue.enqueued (answers events) ++
    (offering? (queue.producers producer)).toList).Sublist (offered events)
  counted : (BoundedQueue.enqueued (answers events)).length +
    tally QueueAnswer.refuses (answers events) +
    (offering? (queue.producers producer)).toList.length = (offered events).length

theorem enqueued_concat (event : Event α) : BoundedQueue.enqueued (answers (events ++ [event])) =
    BoundedQueue.enqueued (answers events) ++
      event.answer?.toList.filterMap QueueAnswer.enqueued? := by
  rw [answers, filterMap_concat, BoundedQueue.enqueued, List.filterMap_append]
  rfl

theorem offered_concat (event : Event α) :
    offered (events ++ [event]) = offered events ++ event.offered?.toList :=
  filterMap_concat Event.offered? events event

theorem refusals_concat (event : Event α) : tally QueueAnswer.refuses (answers (events ++ [event])) =
    tally QueueAnswer.refuses (answers events) +
      tally QueueAnswer.refuses event.answer?.toList := by
  rw [answers, filterMap_concat, tally_append]
  rfl

/-- A step that neither offers nor answers anything. -/
theorem Offered.idle (offers : Offered producer events queue) (unanswered : ∀ answer ∈ event.answer?,
      answer.enqueued? = none ∧ answer.refuses = false) (unoffered : event.offered? = none)
    (same : offering? (next.producers producer) = offering? (queue.producers producer)) :
    Offered producer (events ++ [event]) next := by
  have accepted : event.answer?.toList.filterMap QueueAnswer.enqueued? = [] := by
    cases answered : event.answer? with
    | none => rfl
    | some answer => exact List.filterMap_cons_none (unanswered answer answered).1
  have refused : tally QueueAnswer.refuses event.answer?.toList = 0 := by
    cases answered : event.answer? with
    | none => rfl
    | some answer =>
        rw [Option.toList_some, tally, List.countP_singleton, (unanswered answer answered).2]
        rfl
  obtain ⟨inOrder, counted⟩ := offers
  constructor
  · rw [enqueued_concat, offered_concat, accepted, unoffered, same, List.append_nil]
    simpa using inOrder
  · rw [enqueued_concat, refusals_concat, offered_concat, accepted, refused, unoffered, same,
      List.append_nil]
    simpa using counted

/-- The producer offers another item. -/
theorem Offered.call (offers : Offered producer events queue)
    (idle : queue.producers producer = none) (item : α)
    (here : offering? (next.producers producer) = some item) :
    Offered producer (events ++ [.calledEnqueue producer item]) next := by
  obtain ⟨inOrder, counted⟩ := offers
  rw [idle] at inOrder counted
  constructor
  · rw [enqueued_concat, offered_concat, here]
    simpa [offering?, Event.answer?, Event.offered?] using inOrder
  · rw [enqueued_concat, refusals_concat, offered_concat, here]
    simpa [offering?, Event.answer?, Event.offered?] using counted

/-- The producer goes on with its offer, or has it answered. -/
theorem Offered.enqueue (offers : Offered producer events queue) {state : EnqueueState α}
    (here : queue.producers producer = some state) {enqueued : EnqueueEvent α}
    (settles : Settles state (next.producers producer)
      (Event.enqueue producer enqueued).answer?) :
    Offered producer (events ++ [.enqueue producer enqueued]) next := by
  generalize after : next.producers producer = later at settles
  generalize answered : (Event.enqueue producer enqueued).answer? = answer? at settles
  cases settles with
  | goesOn same =>
      refine offers.idle (by simp [answered]) rfl ?_
      rw [after, here, offering?, offering?, Option.map_some, Option.map_some, same]
  | accepted =>
      obtain ⟨inOrder, counted⟩ := offers
      rw [here] at inOrder counted
      constructor
      · rw [enqueued_concat, offered_concat, answered, after]
        simpa [offering?, Event.offered?, QueueAnswer.enqueued?] using inOrder
      · rw [enqueued_concat, refusals_concat, offered_concat, answered, after]
        simpa [offering?, Event.offered?, QueueAnswer.enqueued?, QueueAnswer.refuses, tally,
          Nat.add_right_comm] using counted
  | refused =>
      obtain ⟨inOrder, counted⟩ := offers
      rw [here] at inOrder counted
      have nothing : ([.full] : List (QueueAnswer α)).filterMap QueueAnswer.enqueued? = [] := rfl
      constructor
      · rw [enqueued_concat, offered_concat, answered, after, Option.toList_some, nothing]
        simpa [offering?, Event.offered?] using (List.sublist_append_left _ _).trans inOrder
      · rw [enqueued_concat, refusals_concat, offered_concat, answered, after, Option.toList_some,
          nothing]
        simpa [offering?, Event.offered?, QueueAnswer.refuses, tally, Nat.add_assoc] using counted

/-- Along every run the offers are those that have been answered and the one in hand. -/
theorem offered_of_runs
    (run : (system α capacity).RunsUnder (OneProducer producer) (startedAt base storage) events queue) :
    Offered producer events queue := by
  apply run.invariant fun events queue => Offered producer events queue
  · exact ⟨List.Sublist.refl _, rfl⟩
  · intro events queue choice next event _ offers transition only
    cases step_sound transition with
    | callEnqueue idle item =>
        obtain rfl := only _ rfl
        exact offers.call idle item (by simp [offering?, offering])
    | callDequeue idle => exact offers.idle (by simp [Event.answer?]) rfl rfl
    | enqueue here spurious =>
        obtain rfl := only _ rfl
        refine offers.enqueue here ?_
        simp only [afterEnqueue, Function.update_self]
        exact step_settles _ _ _ _ _
    | @dequeue state here left =>
        refine offers.idle (fun answer answered => ?_) rfl rfl
        generalize (state.step queue.slots queue.dequeuePos left).event = shown at answered
        cases shown <;> cases answered <;> exact ⟨rfl, rfl⟩

/-- Nobody is in a call. -/
theorem Represents.stores_of_quiescent (represents : Represents producer queue fifo slots head tail)
    (enqueuing : queue.producers producer = none) (dequeuing : queue.consumer = none) :
    LockfreeQueue.Stores queue.slots queue.dequeuePos queue.enqueuePos fifo.items := by
  obtain ⟨stores, stands, consumer⟩ := represents
  rw [enqueuing] at stands
  rw [dequeuing] at consumer
  obtain ⟨memory, followed⟩ := consumer
  have claimed : queue.enqueuePos = tail := stands
  rw [memory, followed, claimed]
  exact stores

/-- One producer and the consumer get from the queue what they get from a bounded queue,
in every interleaving and whatever multiple of the capacity the counters start at: the
answers, in the order in which the calls take effect, are those of a bounded queue, and
Dequeue returns the oldest accepted items, in order. Outside the calls the slots store
what the bounded queue holds. -/
theorem single_producer_refines_bounded_queue (capacity : QueueCapacity) (base : QueueSequence)
    (aligned : capacity.value ∣ base.toNat) (storage : Fin capacity.value → α) (producer : Nat)
    (events : List (Event α)) (queue : MPSCQueue α capacity)
    (run : (system α capacity).RunsUnder (OneProducer producer) (startedAt base storage) events queue) :
    ∃ fifo, (BoundedQueue.system α capacity.value).Runs .empty (answers events) fifo ∧
      events.filterMap Event.returned? ++ (pending? queue.consumer).toList ++ fifo.items =
        BoundedQueue.enqueued (answers events) ∧
      (queue.producers producer = none → queue.consumer = none →
        LockfreeQueue.Stores queue.slots queue.dequeuePos queue.enqueuePos fifo.items) := by
  obtain ⟨fifo, answered, slots, head, tail, represents⟩ := answers_runs aligned run
  refine ⟨fifo, answered, ?_, represents.stores_of_quiescent⟩
  rw [← dequeued_answers run, BoundedQueue.conserved answered]

/-- Two slots whose counters pass 2^64. The third item is offered while the consumer is
between its move and its stores, and refused. -/
theorem refusal_during_dequeue_of_two_slots : ∃ events queue,
    (system Nat twoSlots).RunsUnder (OneProducer 7) (startedAt 18446744073709551614 fun _ => 0)
      events queue ∧
    queue.enqueuePos = 1 ∧ events.filterMap Event.returned? = [10] ∧
    ∃ fifo, (BoundedQueue.system Nat twoSlots.value).Runs .empty
      [.enqueued 10, .enqueued 20, .full, .dequeued 10, .enqueued 40] fifo ∧
      [10] ++ fifo.items = [10, 20, 40] := by
  obtain ⟨events, queue, run, wrapped, outside, returned, answered⟩ :=
    (system Nat twoSlots).runs_of_exec (OneProducer 7) (startedAt 18446744073709551614 fun _ => 0)
      (.callEnqueue 7 10 :: List.replicate 5 (.enqueue 7 false) ++
        .callEnqueue 7 20 :: List.replicate 5 (.enqueue 7 false) ++
        .callDequeue :: List.replicate 3 (.dequeue 0) ++
        .callEnqueue 7 30 :: List.replicate 2 (.enqueue 7 false) ++
        List.replicate 2 (.dequeue 0) ++
        .callEnqueue 7 40 :: List.replicate 5 (.enqueue 7 false))
      (fun queue events => queue.enqueuePos = 1 ∧ queue.consumer.isNone = true ∧
        events.filterMap Event.returned? = [10] ∧
        answers events = [.enqueued 10, .enqueued 20, .full, .dequeued 10, .enqueued 40])
      (by decide +kernel)
  obtain ⟨fifo, runs, items, -⟩ := single_producer_refines_bounded_queue twoSlots
    18446744073709551614 (by decide) (fun _ => 0) 7 events queue run
  rw [answered] at runs items
  rw [returned, Option.isNone_iff_eq_none.mp outside] at items
  exact ⟨events, queue, run, wrapped, returned, fifo, runs, items⟩

end MPSCQueue
end MmoServer.LockfreeQueue
