import MmoServer.LockfreeQueue.MPMCLaps
import MmoServer.LockfreeQueue.MPSCDelivery
import MmoServer.LockfreeQueue.MPSCLaps
import MmoServer.LockfreeQueue.WrapAround

/-!
# ApproxSize

Both queues estimate their size from two loads, one counter after the other, while
other threads move on. `Estimated` adds the thread that does so to a queue.

Three things make an estimate impossible: consumers that overtake the tail as it was
loaded, the moment in which MPSCQueue has given a slot back and still counts its item,
and, in MPMCQueue, a multiple of 2^64 between the two counters. `Fair` excludes just
these, and `estimates_possible` says that nothing else goes wrong.
-/

namespace MmoServer.LockfreeQueue

open MmoServer.Std MmoServer.Semantics

/-- What ApproxSize loads first and second, and what it returns. -/
structure ApproxSize (Queue : Type) where
  loadFirst : Queue → QueueSequence
  loadSecond : Queue → QueueSequence
  size : QueueSequence → QueueSequence → QueueSequence

/-- What a call returns during which nobody else moves. -/
def ApproxSize.now {Queue : Type} (approxSize : ApproxSize Queue) (queue : Queue) : QueueSequence :=
  approxSize.size (approxSize.loadFirst queue) (approxSize.loadSecond queue)

/-- Empty: `ApproxSize() == 0`. -/
def ApproxSize.empty {Queue : Type} (approxSize : ApproxSize Queue) (queue : Queue) : Bool :=
  approxSize.now queue = 0

/-- ApproxSize and Empty tell what the slots store. -/
def ApproxSize.TellsStored {α Queue : Type} {capacity : QueueCapacity}
    (approxSize : ApproxSize Queue) (queue : Queue) (slots : QueueSlots α capacity) : Prop :=
  (approxSize.now queue).toNat = stored slots ∧ (approxSize.empty queue = true ↔ stored slots = 0)

theorem ApproxSize.tellsStored_iff {α Queue : Type} {capacity : QueueCapacity}
    {approxSize : ApproxSize Queue} {queue : Queue} {slots : QueueSlots α capacity} :
    approxSize.TellsStored queue slots ↔ (approxSize.now queue).toNat = stored slots := by
  refine ⟨fun tells => tells.1, fun same => ⟨same, ?_⟩⟩
  rw [empty, decide_eq_true_iff, ← same, ← UInt64.toNat_inj]
  rfl

/-- Where a thread is in ApproxSize. -/
inductive ApproxSizeState where
  /-- At the load of the first counter. -/
  | loadFirst
  /-- At the load of the second counter. -/
  | loadSecond (first : QueueSequence)

/-- A queue and a thread that calls ApproxSize; it is `none` outside its calls. -/
structure Estimated (Queue : Type) where
  queue : Queue
  estimator : Option ApproxSizeState

namespace Estimated

/-- Who moves: the queue's threads, or the one in ApproxSize. -/
inductive Choice (QueueChoice : Type) where
  /-- Another thread moves. -/
  | queue (choice : QueueChoice)
  /-- The thread calls ApproxSize. -/
  | call
  /-- The thread takes its next load. -/
  | load

/-- A step of the queue, or one of ApproxSize. -/
inductive Event (QueueEvent : Type) where
  | queue (event : QueueEvent)
  | called
  /-- The first load. -/
  | loaded (first : QueueSequence)
  /-- The second load, and the return. -/
  | returned (size : QueueSequence)
deriving DecidableEq

variable {Queue QueueChoice QueueEvent : Type}

/-- The estimating thread loads the two positions one after the other. -/
def step (queues : TransitionSystem Queue QueueChoice QueueEvent) (approxSize : ApproxSize Queue)
    (state : Estimated Queue) : Choice QueueChoice → Option (Estimated Queue × Event QueueEvent)
  | .queue choice =>
    match queues.step state.queue choice with
    | none => none
    | some (next, event) => some ({ state with queue := next }, .queue event)
  | .call =>
    match state.estimator with
    | none => some ({ state with estimator := some .loadFirst }, .called)
    | some _ => none
  | .load =>
    match state.estimator with
    | none => none
    | some .loadFirst =>
      let first := approxSize.loadFirst state.queue
      some ({ state with estimator := some (.loadSecond first) }, .loaded first)
    | some (.loadSecond first) =>
      let size := approxSize.size first (approxSize.loadSecond state.queue)
      some ({ state with estimator := none }, .returned size)

/-- A queue under any interleaving, with one thread in ApproxSize. -/
def system (queues : TransitionSystem Queue QueueChoice QueueEvent) (approxSize : ApproxSize Queue) :
    TransitionSystem (Estimated Queue) (Choice QueueChoice) (Event QueueEvent) where
  step := step queues approxSize

/-- What a step can do. -/
inductive Step (queues : TransitionSystem Queue QueueChoice QueueEvent)
    (approxSize : ApproxSize Queue) (state : Estimated Queue) :
    Estimated Queue → Event QueueEvent → Prop
  | queue {choice next event} (moved : queues.step state.queue choice = some (next, event)) :
      Step queues approxSize state { state with queue := next } (.queue event)
  | called (idle : state.estimator = none) :
      Step queues approxSize state { state with estimator := some .loadFirst } .called
  | loaded (here : state.estimator = some .loadFirst) :
      Step queues approxSize state
        { state with estimator := some (.loadSecond (approxSize.loadFirst state.queue)) }
        (.loaded (approxSize.loadFirst state.queue))
  | returned {first} (here : state.estimator = some (.loadSecond first)) :
      Step queues approxSize state { state with estimator := none }
        (.returned (approxSize.size first (approxSize.loadSecond state.queue)))

/-- Every step is one of those. -/
theorem step_sound {queues : TransitionSystem Queue QueueChoice QueueEvent}
    {approxSize : ApproxSize Queue} {state next : Estimated Queue} {choice : Choice QueueChoice}
    {event : Event QueueEvent} (transition : step queues approxSize state choice = some (next, event)) :
    Step queues approxSize state next event := by
  cases choice with
  | queue choice =>
      simp only [step] at transition
      split at transition
      · cases transition
      · next moved =>
        cases transition
        exact .queue moved
  | call =>
      simp only [step] at transition
      split at transition
      · next idle =>
        cases transition
        exact .called idle
      · cases transition
  | load =>
      simp only [step] at transition
      split at transition
      · cases transition
      · next here =>
        cases transition
        exact .loaded here
      · next here =>
        cases transition
        exact .returned here

/-- The step of the queue that an event is. -/
def Event.queue? : Event QueueEvent → Option QueueEvent
  | .queue event => some event
  | _ => none

/-- The first load of a call. -/
def Event.loads : Event QueueEvent → Bool
  | .loaded _ => true
  | _ => false

/-- The second load of a call. -/
def Event.returns : Event QueueEvent → Bool
  | .returned _ => true
  | _ => false

/-- The event is one of the queue that passes a test. -/
def Event.shows (test : QueueEvent → Bool) (event : Event QueueEvent) : Bool :=
  event.queue?.any test

/-- What the queue has shown. -/
def queueEvents (events : List (Event QueueEvent)) : List QueueEvent :=
  events.filterMap Event.queue?

/-- How many events of the queue had passed a test at the last first load. -/
def atLoad (test : QueueEvent → Bool) (events : List (Event QueueEvent)) : Nat :=
  tallyUntil Event.loads (Event.shows test) events

variable {queues : TransitionSystem Queue QueueChoice QueueEvent} {approxSize : ApproxSize Queue}
  {allowed : List QueueEvent → QueueEvent → Prop}
  {permitted : List (Event QueueEvent) → Event QueueEvent → Prop} {first : Queue}
  {events : List (Event QueueEvent)} {state : Estimated Queue} {test : QueueEvent → Bool}

theorem queueEvents_concat (events : List (Event QueueEvent)) (event : Event QueueEvent) :
    queueEvents (events ++ [event]) = queueEvents events ++ event.queue?.toList :=
  filterMap_concat Event.queue? events event

/-- What is counted of the queue is counted along the run. -/
theorem tally_shows : tally (Event.shows test) events = tally test (queueEvents events) :=
  (tally_filterMap fun _ => rfl).symm

/-- The queue of an estimated queue runs by itself. -/
theorem queue_runs
    (run : (system queues approxSize).RunsUnder (fun events _ _ event => permitted events event)
      { queue := first, estimator := none } events state)
    (implies : ∀ events event, permitted events event →
      ∀ shown ∈ event.queue?, allowed (queueEvents events) shown) :
    queues.RunsUnder (fun events _ _ event => allowed events event) first
      (queueEvents events) state.queue := by
  apply run.invariant fun events state => queues.RunsUnder
    (fun events _ _ event => allowed events event) first (queueEvents events) state.queue
  · exact .refl
  · intro events state choice next event _ prior transition allows
    rw [queueEvents_concat]
    cases step_sound transition with
    | queue moved => exact .step prior moved (implies _ _ allows _ rfl)
    | called | loaded | returned => exact (List.append_nil (queueEvents events)).symm ▸ prior

/-- The two counters count events of the queue, and the first is never far ahead. -/
structure Counts (approxSize : ApproxSize Queue) (start slack : Nat)
    (firstTest secondTest : QueueEvent → Bool) (events : List QueueEvent) (queue : Queue) : Prop where
  first : approxSize.loadFirst queue = toWord (start + tally firstTest events)
  second : approxSize.loadSecond queue = toWord (start + tally secondTest events)
  near : tally firstTest events ≤ tally secondTest events + slack

variable {start slack : Nat} {firstTest secondTest : QueueEvent → Bool}

/-- What the thread has loaded is the counter as it was at its first load. -/
theorem loaded_of_runs
    (run : (system queues approxSize).RunsUnder (fun events _ _ event => permitted events event)
      { queue := first, estimator := none } events state)
    (implies : ∀ events event, permitted events event →
      ∀ shown ∈ event.queue?, allowed (queueEvents events) shown)
    (counts : ∀ events queue,
      queues.RunsUnder (fun events _ _ event => allowed events event) first events queue →
      Counts approxSize start slack firstTest secondTest events queue)
    {loaded : QueueSequence} (here : state.estimator = some (.loadSecond loaded)) :
    loaded = toWord (start + atLoad firstTest events) ∧
      atLoad firstTest events ≤ tally secondTest (queueEvents events) + slack := by
  revert loaded
  apply run.invariant fun events state => ∀ loaded, state.estimator = some (.loadSecond loaded) →
    loaded = toWord (start + atLoad firstTest events) ∧
      atLoad firstTest events ≤ tally secondTest (queueEvents events) + slack
  · rintro loaded ⟨⟩
  · intro events state choice next event prior known transition _ loaded here
    have counted := counts _ _ (queue_runs prior implies)
    rw [queueEvents_concat, atLoad]
    cases step_sound transition with
    | queue moved =>
        rw [tallyUntil_unmarked rfl]
        obtain ⟨word, near⟩ := known loaded here
        refine ⟨word, Nat.le_trans near (Nat.add_le_add_right ?_ _)⟩
        rw [tally_append]
        exact Nat.le_add_right _ _
    | loaded =>
        cases here
        rw [tallyUntil_marked rfl, tally_concat, tally_shows]
        exact ⟨counted.first, (List.append_nil (queueEvents events)).symm ▸ counted.near⟩
    | called | returned => cases here

/-- Every call returns what it makes of the first counter at its first load and the
second counter at its second. -/
theorem returned_of_runs
    (run : (system queues approxSize).RunsUnder (fun events _ _ event => permitted events event)
      { queue := first, estimator := none } events state)
    (implies : ∀ events event, permitted events event →
      ∀ shown ∈ event.queue?, allowed (queueEvents events) shown)
    (counts : ∀ events queue,
      queues.RunsUnder (fun events _ _ event => allowed events event) first events queue →
      Counts approxSize start slack firstTest secondTest events queue)
    {size : QueueSequence} (returned : .returned size ∈ events) :
    ∃ before, permitted before (.returned size) ∧
      atLoad firstTest before ≤ tally secondTest (queueEvents before) + slack ∧
      size = approxSize.size (toWord (start + atLoad firstTest before))
        (toWord (start + tally secondTest (queueEvents before))) := by
  obtain ⟨before, after, split⟩ := List.append_of_mem returned
  obtain ⟨state, choice, next, prior, transition, allows, -⟩ := run.at_event split
  have counted := counts _ _ (queue_runs prior implies)
  cases step_sound transition with
  | returned here =>
      obtain ⟨word, near⟩ := loaded_of_runs prior implies counts here
      refine ⟨before, allows, near, ?_⟩
      rw [word, counted.second]

end Estimated
/-! ## MPSCQueue -/

namespace MPSCQueue

variable {α : Type} {capacity : QueueCapacity} {start : Nat} {storage : Fin capacity.value → α}
  {events : List (Event α)} {queue : MPSCQueue α capacity}
  {protocol : RingProtocol (Option Nat) α capacity.value}

/-- MPSCQueue::ApproxSize. -/
def approxSize : ApproxSize (MPSCQueue α capacity) where
  loadFirst := enqueuePos
  loadSecond := dequeuePos
  size enqueue dequeue := enqueue - dequeue

/-- Nobody is in a call. -/
def Quiescent (queue : MPSCQueue α capacity) : Prop :=
  (∀ producer, queue.producers producer = none) ∧ queue.consumer = none

/-- No compare-exchange is lapped, and at the second load of a call the consumer's counter
has not passed the position of the first load, nor is it still more than a capacity
behind: so it is only between the two stores of one Dequeue. -/
def Fair (capacity : QueueCapacity) (events : List (Estimated.Event (Event α)))
    (event : Estimated.Event (Event α)) : Prop :=
  (∀ shown ∈ event.queue?, Unlapped (Estimated.queueEvents events) shown) ∧
  (event.returns = true →
    tally Event.returns (Estimated.queueEvents events) ≤ Estimated.atLoad Event.claimsTail events ∧
    Estimated.atLoad Event.claimsTail events ≠
      tally Event.returns (Estimated.queueEvents events) + (capacity.value + 1))

instance (events : List (Estimated.Event (Event α))) (event : Estimated.Event (Event α)) :
    Decidable (Fair capacity events event) :=
  inferInstanceAs (Decidable (_ ∧ _))

/-- The consumer's counter is at most one position behind the head. -/
theorem headAt_le (position : Nat) (consumer : Option (DequeueState α)) :
    headAt position consumer ≤ position + 1 := by
  rw [headAt]
  split <;> omega

theorem Follows.valid (follows : Follows start storage events queue protocol)
    (lap : capacity.value ∣ start) : protocol.ring.Valid := by
  obtain ⟨labels, run⟩ := follows.run
  exact (RingProtocol.consistent_of_runs capacity.atLeastTwo lap run).valid

theorem Follows.counts (follows : Follows start storage events queue protocol)
    (lap : capacity.value ∣ start) : Estimated.Counts approxSize start (capacity.value + 1)
      Event.claimsTail Event.returns events queue := by
  refine ⟨follows.enqueuePos.trans (congrArg toWord follows.claimsTail), follows.dequeuePos, ?_⟩
  have bounded := (follows.valid lap).bounded
  have near := headAt_le (start + tally Event.returns events) queue.consumer
  rw [follows.claimsTail, follows.head] at bounded
  omega

/-- When nobody is in a call, ApproxSize is the number of stored items. -/
theorem Follows.now_eq_stored (follows : Follows start storage events queue protocol)
    (lap : capacity.value ∣ start) (quiescent : queue.Quiescent) :
    (approxSize.now queue).toNat = stored queue.slots := by
  obtain ⟨labels, run⟩ := follows.run
  have owned := RingProtocol.owned_of_runs capacity.atLeastTwo lap run
  have idle : ∀ agent, protocol.holds agent = .none := by
    intro agent
    cases agent with
    | none =>
        have tracks := follows.consumer
        rw [quiescent.2] at tracks
        exact tracks
    | some producer =>
        have tracks := follows.producers producer
        rw [quiescent.1 producer] at tracks
        exact tracks
  have valid := follows.valid lap
  have ordered := valid.ordered
  have bounded := valid.bounded
  have small := capacity.le_half
  have front : queue.dequeuePos = toWord protocol.ring.head := by
    rw [follows.dequeuePos, follows.head, quiescent.2]
    rfl
  change (queue.enqueuePos - queue.dequeuePos).toNat = _
  rw [follows.slots, stored_slotsOf valid (owned.quiet idle), follows.enqueuePos, front,
    toNat_toWord_sub ordered (by omega)]

end MPSCQueue

/-! ## MPMCQueue -/

namespace MPMCQueue

variable {α : Type} {capacity : QueueCapacity} {start : Nat} {storage : Fin capacity.value → α}
  {events : List (Event α)} {queue : MPMCQueue α capacity}
  {protocol : RingProtocol Nat α capacity.value}

/-- MPMCQueue::ApproxSize. -/
def approxSize : ApproxSize (MPMCQueue α capacity) where
  loadFirst := tail
  loadSecond := head
  size tail head := if tail ≥ head then tail - head else 0

/-- Nobody is in a call. -/
def Quiescent (queue : MPMCQueue α capacity) : Prop := ∀ thread, queue.threads thread = .idle

/-- No compare-exchange is lapped, and at the second load of a call the head has not
passed the tail as it was loaded, or has passed no multiple of 2^64 with it. -/
def Fair (start : Nat) (events : List (Estimated.Event (Event α)))
    (event : Estimated.Event (Event α)) : Prop :=
  (∀ shown ∈ event.queue?, Unlapped (Estimated.queueEvents events) shown) ∧
  (event.returns = true →
    tally Event.claimsHead (Estimated.queueEvents events) ≤
        Estimated.atLoad Event.claimsTail events ∨
    (start + tally Event.claimsHead (Estimated.queueEvents events)) / 2 ^ 64 =
      (start + Estimated.atLoad Event.claimsTail events) / 2 ^ 64)

instance (events : List (Estimated.Event (Event α))) (event : Estimated.Event (Event α)) :
    Decidable (Fair start events event) :=
  inferInstanceAs (Decidable (_ ∧ _))

theorem Follows.valid (follows : Follows start storage events queue protocol)
    (lap : capacity.value ∣ start) : protocol.ring.Valid := by
  obtain ⟨labels, run⟩ := follows.run
  exact (RingProtocol.consistent_of_runs capacity.atLeastTwo lap run).valid

theorem Follows.counts (follows : Follows start storage events queue protocol)
    (lap : capacity.value ∣ start) : Estimated.Counts approxSize start capacity.value
      Event.claimsTail Event.claimsHead events queue := by
  refine ⟨follows.tail.trans (congrArg toWord follows.claimsTail),
    follows.head.trans (congrArg toWord follows.claimsHead), ?_⟩
  have bounded := (follows.valid lap).bounded
  rw [follows.claimsTail, follows.claimsHead] at bounded
  omega

/-- The estimate is bounded unless a multiple of 2^64 separates the two positions. -/
theorem size_le {tail head : Nat} (near : tail ≤ head + capacity.value)
    (turn : head ≤ tail ∨ head / 2 ^ 64 = tail / 2 ^ 64) :
    ((@approxSize α capacity).size (toWord tail) (toWord head)).toNat ≤ capacity.value := by
  have small := capacity.le_half
  change (if toWord tail ≥ toWord head then toWord tail - toWord head else 0).toNat ≤ _
  split
  · next ordered =>
    rw [ge_iff_le, UInt64.le_iff_toNat_le, toNat_toWord, toNat_toWord] at ordered
    have forward : head ≤ tail := by
      rcases turn with forward | same <;> omega
    rw [toNat_toWord_sub forward (by omega)]
    omega
  · exact Nat.zero_le _

/-- When nobody is in a call, ApproxSize is the number of stored items, and Empty says
whether there are any, exactly when the tail is not below the head as a word. -/
theorem Follows.now_eq_stored_iff (follows : Follows start storage events queue protocol)
    (lap : capacity.value ∣ start) (quiescent : queue.Quiescent) :
    (approxSize.now queue).toNat = stored queue.slots ↔ queue.head ≤ queue.tail := by
  obtain ⟨labels, run⟩ := follows.run
  have owned := RingProtocol.owned_of_runs capacity.atLeastTwo lap run
  have idle : ∀ agent, protocol.holds agent = .none := by
    intro thread
    have tracks := follows.tracks thread
    rw [quiescent thread] at tracks
    exact tracks
  have valid := follows.valid lap
  have ordered := valid.ordered
  have bounded := valid.bounded
  have small := capacity.le_half
  change (if queue.tail ≥ queue.head then queue.tail - queue.head else 0).toNat = _ ↔ _
  rw [follows.slots, stored_slotsOf valid (owned.quiet idle), follows.tail, follows.head]
  split
  · next words =>
    rw [toNat_toWord_sub ordered (by omega)]
    exact iff_of_true rfl words
  · next wrapped =>
    refine iff_of_false (fun same => wrapped ?_) wrapped
    have equal : protocol.ring.tail = protocol.ring.head := by
      change 0 = protocol.ring.tail - protocol.ring.head at same
      omega
    rw [equal]
    exact UInt64.le_refl _

end MPMCQueue

/-! ## Both queues -/

/-- Whatever multiple of the capacity the counters start at, a run whose steps are all fair
estimates sizes between 0 and the capacity. When nobody is in a call the estimate is the
number of stored items, in MPMCQueue exactly when the tail is not below the head as a
word. -/
theorem estimates_possible {α : Type} (capacity : QueueCapacity) (base : QueueSequence)
    (aligned : capacity.value ∣ base.toNat) (storage : Fin capacity.value → α) :
    (∀ events (state : Estimated (MPSCQueue α capacity)),
      (Estimated.system (MPSCQueue.system α capacity) MPSCQueue.approxSize).RunsUnder
          (fun events _ _ event => MPSCQueue.Fair capacity events event)
          { queue := MPSCQueue.startedAt base storage, estimator := none } events state →
        (∀ size, .returned size ∈ events → size.toNat ≤ capacity.value) ∧
        (state.queue.Quiescent →
          MPSCQueue.approxSize.TellsStored state.queue state.queue.slots)) ∧
    (∀ events (state : Estimated (MPMCQueue α capacity)),
      (Estimated.system (MPMCQueue.system α capacity) MPMCQueue.approxSize).RunsUnder
          (fun events _ _ event => MPMCQueue.Fair base.toNat events event)
          { queue := MPMCQueue.startedAt base storage, estimator := none } events state →
        (∀ size, .returned size ∈ events → size.toNat ≤ capacity.value) ∧
        (state.queue.Quiescent →
          (MPMCQueue.approxSize.TellsStored state.queue state.queue.slots ↔
            state.queue.head ≤ state.queue.tail))) := by
  have small := capacity.le_half
  rw [← toWord_toNat base]
  constructor
  · intro events state run
    have alone := Estimated.queue_runs run fun _ _ fair => fair.1
    obtain ⟨protocol, follows⟩ := MPSCQueue.follows_of_runs aligned alone
    constructor
    · intro size returned
      obtain ⟨before, fair, near, rfl⟩ := Estimated.returned_of_runs run (fun _ _ fair => fair.1)
        (fun _ _ run => by
          obtain ⟨protocol, follows⟩ := MPSCQueue.follows_of_runs aligned run
          exact follows.counts aligned) returned
      obtain ⟨behind, inside⟩ := fair.2 rfl
      change (toWord _ - toWord _).toNat ≤ _
      rw [toNat_toWord_sub (by omega) (by omega)]
      omega
    · intro quiescent
      exact ApproxSize.tellsStored_iff.mpr (follows.now_eq_stored aligned quiescent)
  · intro events state run
    have alone := Estimated.queue_runs run fun _ _ fair => fair.1
    obtain ⟨protocol, follows⟩ := MPMCQueue.follows_of_runs aligned alone
    constructor
    · intro size returned
      obtain ⟨before, fair, near, rfl⟩ := Estimated.returned_of_runs run (fun _ _ fair => fair.1)
        (fun _ _ run => by
          obtain ⟨protocol, follows⟩ := MPMCQueue.follows_of_runs aligned run
          exact follows.counts aligned) returned
      refine MPMCQueue.size_le (by omega) ?_
      rcases fair.2 rfl with behind | same
      · exact .inl (by omega)
      · rw [toWord_toNat] at same
        exact .inr same
    · intro quiescent
      rw [ApproxSize.tellsStored_iff]
      exact follows.now_eq_stored_iff aligned quiescent

/-- A thread of a queue moves alone for some steps. -/
def moves {QueueChoice : Type} (choices : List QueueChoice) : List (Estimated.Choice QueueChoice) :=
  choices.map .queue

/-- An estimate while an item is enqueued, and one across the end of the words. -/
theorem fair_estimates_possible :
    (∃ events state, (Estimated.system (MPSCQueue.system Nat twoSlots) MPSCQueue.approxSize).Runs
        { queue := MPSCQueue.startedAt 0 fun _ => 0, estimator := none } events state ∧
      .returned 1 ∈ events ∧ ∀ size, .returned size ∈ events → size.toNat ≤ 2) ∧
    ∃ events state, (Estimated.system (MPMCQueue.system Nat twoSlots) MPMCQueue.approxSize).Runs
        { queue := MPMCQueue.startedAt 18446744073709551614 fun _ => 0, estimator := none }
        events state ∧
      .returned 1 ∈ events ∧ ∀ size, .returned size ∈ events → size.toNat ≤ 2 := by
  constructor
  · obtain ⟨events, state, run, shown⟩ :=
      (Estimated.system (MPSCQueue.system Nat twoSlots) MPSCQueue.approxSize).runs_of_exec
        (fun events _ _ event => MPSCQueue.Fair twoSlots events event)
        { queue := MPSCQueue.startedAt 0 fun _ => 0, estimator := none }
        (moves (.callEnqueue 0 10 :: MPSCQueue.enqueues 0) ++ [.call, .load] ++
          moves (.callEnqueue 0 20 :: MPSCQueue.enqueues 0) ++ [.load])
        (fun _ events => .returned 1 ∈ events) (by decide +kernel)
    exact ⟨events, state, run.runs, shown,
      ((estimates_possible twoSlots 0 (by decide) fun _ => 0).1 events state run).1⟩
  · obtain ⟨events, state, run, shown⟩ :=
      (Estimated.system (MPMCQueue.system Nat twoSlots) MPMCQueue.approxSize).runs_of_exec
        (fun events _ _ event => MPMCQueue.Fair 18446744073709551614 events event)
        { queue := MPMCQueue.startedAt 18446744073709551614 fun _ => 0, estimator := none }
        (moves (.call 0 (.enqueue 10) :: MPMCQueue.steps 0 5) ++ [.call, .load] ++
          moves (.call 0 (.enqueue 20) :: MPMCQueue.steps 0 5) ++ [.load])
        (fun _ events => .returned 1 ∈ events) (by decide +kernel)
    exact ⟨events, state, run.runs, shown,
      ((estimates_possible twoSlots 18446744073709551614 (by decide) fun _ => 0).2 events state
        run).1⟩

/-- A consumer that overtakes the loaded tail makes both estimates larger than the queue,
and with two items stored across the end of the words MPMCQueue calls itself empty. -/
theorem estimates_impossible :
    (¬ ∀ events state, (Estimated.system (MPSCQueue.system Nat twoSlots) MPSCQueue.approxSize).Runs
        { queue := MPSCQueue.startedAt 0 fun _ => 0, estimator := none } events state →
      ∀ size, .returned size ∈ events → size.toNat ≤ 2) ∧
    (¬ ∀ events state, (Estimated.system (MPMCQueue.system Nat twoSlots) MPMCQueue.approxSize).Runs
        { queue := MPMCQueue.startedAt 18446744073709551614 fun _ => 0, estimator := none }
        events state →
      ∀ size, .returned size ∈ events → size.toNat ≤ 2) ∧
    ¬ ∀ events queue, (MPMCQueue.system Nat twoSlots).Runs
        (MPMCQueue.startedAt 18446744073709551614 fun _ => 0) events queue →
      queue.Quiescent → MPMCQueue.approxSize.TellsStored queue queue.slots := by
  refine ⟨?_, ?_, ?_⟩
  · intro claim
    obtain ⟨events, state, run, shown⟩ :=
      (Estimated.system (MPSCQueue.system Nat twoSlots) MPSCQueue.approxSize).runs_of_exec
        (fun _ _ _ _ => True) { queue := MPSCQueue.startedAt 0 fun _ => 0, estimator := none }
        ([.call, .load] ++ moves (.callEnqueue 0 10 :: MPSCQueue.enqueues 0 ++
          .callDequeue :: MPSCQueue.dequeues 5) ++ [.load])
        (fun _ events => .returned 18446744073709551615 ∈ events) (by decide +kernel)
    exact absurd (claim events state run _ shown) (by decide)
  · intro claim
    obtain ⟨events, state, run, shown⟩ :=
      (Estimated.system (MPMCQueue.system Nat twoSlots) MPMCQueue.approxSize).runs_of_exec
        (fun _ _ _ _ => True)
        { queue := MPMCQueue.startedAt 18446744073709551614 fun _ => 0, estimator := none }
        ([.call, .load] ++ moves (.call 0 (.enqueue 10) :: MPMCQueue.steps 0 5 ++
          .call 0 (.enqueue 20) :: MPMCQueue.steps 0 5 ++ .call 0 .dequeue :: MPMCQueue.steps 0 5 ++
          .call 0 .dequeue :: MPMCQueue.steps 0 5) ++ [.load])
        (fun _ events => .returned 18446744073709551614 ∈ events) (by decide +kernel)
    exact absurd (claim events state run _ shown) (by decide)
  · intro claim
    obtain ⟨events, queue, run, idle, shown⟩ := (MPMCQueue.system Nat twoSlots).runs_of_exec
      (MPMCQueue.OneThread 0) (MPMCQueue.startedAt 18446744073709551614 fun _ => 0)
      (.call 0 (.enqueue 10) :: MPMCQueue.steps 0 5 ++ .call 0 (.enqueue 20) :: MPMCQueue.steps 0 5)
      (fun queue _ => (queue.threads 0).stepsLeft = 0 ∧
        (MPMCQueue.approxSize.now queue).toNat ≠ stored queue.slots)
      (by decide +kernel)
    have quiescent : queue.Quiescent := by
      intro thread
      by_cases mine : thread = 0
      · rw [mine]
        exact MPMCQueue.ThreadState.idle_of_stepsLeft idle
      · exact MPMCQueue.idle_of_runs run (fun _ _ => rfl) thread mine
    exact shown (claim events queue run.runs quiescent).1

end MmoServer.LockfreeQueue
