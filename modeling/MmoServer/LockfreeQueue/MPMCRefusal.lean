import MmoServer.LockfreeQueue.MPMCDelivery

/-!
# When MPMCQueue refuses

A call gives up when one slot's sequence number is behind. The slot of the tail is
behind when the ring is full, but also while a consumer that has claimed it a lap
ago has not released it; the slot of the head is behind when every item is claimed,
but also while its producer has not published it. `refusals_explained` says that
these are the only reasons, and `refusals_mislead` that a thread which stands still
in its slot makes a queue refuse that is neither full nor empty.
-/

namespace MmoServer.LockfreeQueue

open MmoServer.Std MmoServer.Semantics

namespace MPMCQueue

variable {α : Type} {capacity : QueueCapacity}

/-- The position a thread has claimed as a producer and not published. -/
def ThreadState.writes? : ThreadState α → Option QueueSequence
  | .enqueue (.moveIn _ pos) | .enqueue (.storeSequence _ pos) => some pos
  | _ => none

/-- The position a thread has claimed as a consumer and not released. -/
def ThreadState.reads? : ThreadState α → Option QueueSequence
  | .dequeue (.moveOut pos) | .dequeue (.storeSequence pos _) => some pos
  | _ => none

/-- The ring is full. -/
def Full (queue : MPMCQueue α capacity) : Prop :=
  queue.tail.toNat = queue.head.toNat + capacity.value

instance (queue : MPMCQueue α capacity) : Decidable queue.Full :=
  inferInstanceAs (Decidable (_ = _))

/-- A consumer has claimed the slot of the tail a lap ago and not released it. -/
def TailHeldBack (queue : MPMCQueue α capacity) : Prop :=
  ∃ consumer pos, (queue.threads consumer).reads? = some pos ∧
    pos.toNat + capacity.value = queue.tail.toNat

/-- A producer has claimed the position at the head and not published it. -/
def HeadHeldBack (queue : MPMCQueue α capacity) : Prop :=
  ∃ producer, (queue.threads producer).writes? = some queue.head

/-- Every item whose Enqueue has returned true has been claimed by a consumer. -/
def Drained (events : List (Event α)) : Prop :=
  ∀ producer pos item, .enqueue producer (.published pos item) ∈ events →
    ∃ consumer, .dequeue consumer (.claimed pos) ∈ events

/-- The events from a call of a thread on, in which it enters no other. -/
def InCall (thread : ThreadIndex) (during : List (Event α)) : Prop :=
  ∀ call, .called thread call ∉ during

/-- At some instant of a call the events so far and the queue were as described. -/
def AtSomeInstant (storage : Fin capacity.value → α) (before during : List (Event α))
    (holds : List (Event α) → MPMCQueue α capacity → Prop) : Prop :=
  ∃ early late queue, during = early ++ late ∧
    (system α capacity).Runs (constructed storage) (before ++ early) queue ∧
    holds (before ++ early) queue

/-- A refused Enqueue found the ring full at some instant of the call. -/
def EnqueueRefusesWhenFull (capacity : QueueCapacity) (storage : Fin capacity.value → α) : Prop :=
  ∀ before during thread item queue, InCall thread during →
    (system α capacity).Runs (constructed storage) (before ++ .called thread (.enqueue item) ::
      (during ++ [.enqueue thread .refused])) queue →
    AtSomeInstant storage (before ++ [.called thread (.enqueue item)]) during
      fun _ queue => queue.Full

/-- A refused Dequeue found every item claimed at some instant of the call. -/
def DequeueRefusesWhenDrained (capacity : QueueCapacity) (storage : Fin capacity.value → α) : Prop :=
  ∀ before during thread queue, InCall thread during →
    (system α capacity).Runs (constructed storage) (before ++ .called thread .dequeue ::
      (during ++ [.dequeue thread .refused])) queue →
    AtSomeInstant storage (before ++ [.called thread .dequeue]) during
      fun events _ => Drained events

/-- The reason of every refusal of a run, at its last sequence load. -/
structure RefusesForAReason (storage : Fin capacity.value → α) (events : List (Event α)) : Prop where
  enqueue : ∀ before after thread, events = before ++ .enqueue thread .refused :: after →
    ∃ queue choice next, (system α capacity).Runs (constructed storage) before queue ∧
      (system α capacity).step queue choice = some (next, .enqueue thread .refused) ∧
      (queue.Full ∨ queue.TailHeldBack)
  dequeue : ∀ before after thread, events = before ++ .dequeue thread .refused :: after →
    ∃ queue choice next, (system α capacity).Runs (constructed storage) before queue ∧
      (system α capacity).step queue choice = some (next, .dequeue thread .refused) ∧
      (Drained before ∨ queue.HeadHeldBack)

variable {storage : Fin capacity.value → α} {events : List (Event α)}
  {queue next : MPMCQueue α capacity} {choice : Choice α} {thread : ThreadIndex}

/-- A thread that writes a position of the ring has claimed the word of it. -/
theorem writes?_of_hold {state : ThreadState α} {position : Nat}
    (writes : (state.hold 0).writes? = some position) :
    ∃ pos, state.writes? = some pos ∧ pos.toNat = position := by
  cases state with
  | idle => cases writes
  | dequeue state => cases state <;> cases writes
  | enqueue state =>
      cases state <;> cases writes <;> exact ⟨_, rfl, (toPosition_zero _).symm⟩

/-- A thread that reads a position of the ring has claimed the word of it. -/
theorem reads?_of_hold {state : ThreadState α} {position : Nat}
    (reads : (state.hold 0).reads? = some position) :
    ∃ pos, state.reads? = some pos ∧ pos.toNat = position := by
  cases state with
  | idle => cases reads
  | enqueue state => cases state <;> cases reads
  | dequeue state =>
      cases state <;> cases reads <;> exact ⟨_, rfl, (toPosition_zero _).symm⟩

theorem Refines.owned (refines : Refines 0 storage events queue) :
    (queue.protocolOf 0).Owned :=
  RingProtocol.owned_of_runs capacity.atLeastTwo (Nat.dvd_zero _) refines.run

/-- The position at the tail is the number of claims so far. -/
theorem Refines.tail_eq (refines : Refines 0 storage events queue) :
    toPosition 0 queue.tail = tally Event.claimsTail events := by
  have labels : tally RingEvent.claimsTail (events.filterMap (Event.label 0)) =
      tally Event.claimsTail events := tally_claimsTail
  rw [← labels, ← Nat.zero_add (tally _ _)]
  exact (refines.consistent (Nat.dvd_zero _)).tail

theorem Refines.head_eq (refines : Refines 0 storage events queue) :
    toPosition 0 queue.head = tally Event.claimsHead events := by
  have labels : tally RingEvent.claimsHead (events.filterMap (Event.label 0)) =
      tally Event.claimsHead events := tally_claimsHead
  rw [← labels, ← Nat.zero_add (tally _ _)]
  exact (refines.consistent (Nat.dvd_zero _)).head

/-- No sequence number is further than a lap ahead of the tail. -/
theorem Refines.sequence_lt (refines : Refines 0 storage events queue) (pos : QueueSequence) :
    toPosition 0 (queue.slots (capacity.index pos)).sequence <
      tally Event.claimsTail events + capacity.value := by
  rw [← refines.tail_eq, ← sequenceAt_ring]
  exact (refines.consistent (Nat.dvd_zero _)).valid.sequence_lt _

/-- An Enqueue that gives up has found the ring full or its slot not released. -/
theorem enqueue_refused (refines : Refines 0 storage events queue)
    (few : tally Event.claimsTail events + capacity.value ≤ 2 ^ 63)
    (transition : queue.step choice = some (next, .enqueue thread .refused)) :
    queue.Full ∨ queue.TailHeldBack := by
  obtain ⟨state, spurious, here, refused⟩ := step_of_enqueue transition
  obtain ⟨item, pos, rfl, behind⟩ := EnqueueState.step_refused refused
  have seen := refines.seen thread
  rw [here] at seen
  have reached : toPosition 0 pos ≤ toPosition 0 queue.tail := seen
  have tail := refines.tail_eq
  have ahead := refines.sequence_lt pos
  have positive := capacity.atLeastTwo
  have consistent := refines.consistent (Nat.dvd_zero _)
  rw [sequenceDiff_neg_iff_lt 0 (by omega) (by omega), ← sequenceAt_ring] at behind
  rcases consistent.valid.behind_tail reached behind with full | ⟨earlier, lap, reads⟩
  · change toPosition 0 queue.tail = toPosition 0 queue.head + capacity.value at full
    rw [toPosition_zero, toPosition_zero] at full
    exact .inl full
  · obtain ⟨consumer, holds⟩ := refines.owned.readers earlier reads
    obtain ⟨word, held, rfl⟩ := reads?_of_hold holds
    change word.toNat + capacity.value = toPosition 0 queue.tail at lap
    rw [toPosition_zero] at lap
    exact .inr ⟨consumer, word, held, lap⟩

/-- When the head has caught up with the tail every published item is claimed. -/
theorem Refines.drained (refines : Refines 0 storage events queue)
    (caught : toPosition 0 queue.head = toPosition 0 queue.tail) : Drained events := by
  intro producer pos item published
  have explained := (refines.consistent (Nat.dvd_zero _)).explained
  have labelled : .published producer (toPosition 0 pos) item ∈
      events.filterMap (Event.label 0) := (mem_labels_iff rfl).mpr published
  have claimed := (RingProtocol.published_explained explained labelled).2
  have bounds := RingProtocol.claimsTail_numbered.bounds explained claimed rfl
  have below : toPosition 0 pos < tally RingEvent.claimsHead (events.filterMap (Event.label 0)) := by
    rw [tally_claimsHead, ← refines.head_eq, caught, refines.tail_eq, ← tally_claimsTail,
      ← Nat.zero_add (tally _ _)]
    exact bounds.2
  obtain ⟨event, member, claims, same⟩ :=
    RingProtocol.claimsHead_numbered.exists_event explained below
  cases event with
  | claimedHead consumer position =>
      rw [Nat.zero_add] at same
      cases same
      exact ⟨consumer, (mem_labels_iff rfl).mp member⟩
  | _ => cases claims

/-- A Dequeue that gives up has found every item claimed or its slot not published. -/
theorem dequeue_refused (refines : Refines 0 storage events queue)
    (few : tally Event.claimsTail events + capacity.value ≤ 2 ^ 63)
    (transition : queue.step choice = some (next, .dequeue thread .refused)) :
    Drained events ∨ queue.HeadHeldBack := by
  obtain ⟨state, spurious, left, here, refused⟩ := step_of_dequeue transition
  obtain ⟨pos, rfl, behind⟩ := DequeueState.step_refused refused
  have seen := refines.seen thread
  rw [here] at seen
  have reached : toPosition 0 pos ≤ toPosition 0 queue.head := seen
  have tail := refines.tail_eq
  have ahead := refines.sequence_lt pos
  have positive := capacity.atLeastTwo
  have consistent := refines.consistent (Nat.dvd_zero _)
  have ordered : toPosition 0 queue.head ≤ toPosition 0 queue.tail := consistent.valid.ordered
  have next : toPosition 0 (pos + 1) = toPosition 0 pos + 1 := toPosition_succ (by omega)
  rw [sequenceDiff_neg_iff_lt 0 (by omega) (by omega), next, ← sequenceAt_ring] at behind
  rcases consistent.valid.behind_head reached behind with caught | writes
  · exact .inl (refines.drained caught)
  · obtain ⟨producer, holds⟩ := refines.owned.writers _ writes
    obtain ⟨word, held, same⟩ := writes?_of_hold holds
    obtain rfl : word = queue.head := UInt64.toNat_inj.mp (same.trans (toPosition_zero _))
    exact .inr ⟨producer, held⟩

/-- In every run in which the sequence numbers stay below 2^63, a call is refused
only by a ring that is full or drained or held back in the one slot it needs. -/
theorem refusals_explained (capacity : QueueCapacity) (storage : Fin capacity.value → α)
    (events : List (Event α)) (queue : MPMCQueue α capacity)
    (run : (system α capacity).Runs (constructed storage) events queue)
    (few : tally Event.claimsTail events + capacity.value ≤ 2 ^ 63) :
    RefusesForAReason storage events := by
  have positive := capacity.atLeastTwo
  have fewer : ∀ {before event after}, events = before ++ event :: after →
      tally Event.claimsTail before + capacity.value ≤ 2 ^ 63 := by
    rintro before event after rfl
    rw [tally_append] at few
    omega
  constructor
  · intro before after thread split
    obtain ⟨state, choice, next, prior, transition, -⟩ := run.at_event split
    have few := fewer split
    have refines := refines_of_runs (Nat.dvd_zero _) prior (by omega)
    exact ⟨state, choice, next, prior, transition, enqueue_refused refines few transition⟩
  · intro before after thread split
    obtain ⟨state, choice, next, prior, transition, -⟩ := run.at_event split
    have few := fewer split
    have refines := refines_of_runs (Nat.dvd_zero _) prior (by omega)
    exact ⟨state, choice, next, prior, transition, dequeue_refused refines few transition⟩

/-- A consumer that stands still after its claim makes Enqueue give up with one
item in two slots. -/
theorem enqueue_refused_early : ¬ EnqueueRefusesWhenFull twoSlots fun _ => 0 := by
  intro truthful
  obtain ⟨_, queue, run, rfl⟩ := (system Nat twoSlots).runs_of_exec (fun _ _ _ _ => True)
    (constructed fun _ => 0)
    (.call 0 (.enqueue 10) :: steps 0 5 ++ .call 0 (.enqueue 20) :: steps 0 5 ++
      .call 1 .dequeue :: steps 1 3 ++ .call 0 (.enqueue 30) :: steps 0 2)
    (fun _ events => events =
      [.called 0 (.enqueue 10), .enqueue 0 .silent, .enqueue 0 .silent,
        .enqueue 0 (.claimed 0 10), .enqueue 0 (.wrote 0 10), .enqueue 0 (.published 0 10),
        .called 0 (.enqueue 20), .enqueue 0 .silent, .enqueue 0 .silent,
        .enqueue 0 (.claimed 1 20), .enqueue 0 (.wrote 1 20), .enqueue 0 (.published 1 20),
        .called 1 .dequeue, .dequeue 1 .silent, .dequeue 1 .silent, .dequeue 1 (.claimed 0)] ++
      .called 0 (.enqueue 30) :: ([.enqueue 0 .silent] ++ [.enqueue 0 .refused]))
    (by decide +kernel)
  obtain ⟨early, late, reached, parts, prior, full⟩ := truthful _ _ _ _ _ (by simp [InCall]) run
  have inside : early = [] ∨ early = [.enqueue 0 .silent] := by
    rcases List.singleton_eq_append_iff.mp parts with ⟨rfl, -⟩ | ⟨rfl, -⟩
    · exact .inl rfl
    · exact .inr rfl
  -- The ends of the ring are the claims so far, two and one.
  rcases inside with rfl | rfl <;>
  · have refines := refines_of_runs (Nat.dvd_zero _) prior (by decide)
    have tail := refines.tail_eq
    have head := refines.head_eq
    rw [toPosition_zero] at tail head
    rw [Full, tail, head] at full
    exact absurd full (by decide)

/-- A producer that stands still after its claim makes Dequeue give up with an
item published behind its slot. -/
theorem dequeue_refused_early : ¬ DequeueRefusesWhenDrained twoSlots fun _ => 0 := by
  intro truthful
  obtain ⟨_, queue, run, rfl⟩ := (system Nat twoSlots).runs_of_exec (fun _ _ _ _ => True)
    (constructed fun _ => 0)
    (.call 0 (.enqueue 10) :: steps 0 3 ++ .call 1 (.enqueue 20) :: steps 1 5 ++
      .call 2 .dequeue :: steps 2 2)
    (fun _ events => events =
      [.called 0 (.enqueue 10), .enqueue 0 .silent, .enqueue 0 .silent,
        .enqueue 0 (.claimed 0 10), .called 1 (.enqueue 20), .enqueue 1 .silent,
        .enqueue 1 .silent, .enqueue 1 (.claimed 1 20), .enqueue 1 (.wrote 1 20),
        .enqueue 1 (.published 1 20)] ++
      .called 2 .dequeue :: ([.dequeue 2 .silent] ++ [.dequeue 2 .refused]))
    (by decide +kernel)
  obtain ⟨early, late, reached, parts, prior, drained⟩ := truthful _ _ _ _ (by simp [InCall]) run
  obtain ⟨consumer, claimed⟩ := drained 1 1 20 (by simp)
  have inside : early = [] ∨ early = [.dequeue 2 .silent] := by
    rcases List.singleton_eq_append_iff.mp parts with ⟨rfl, -⟩ | ⟨rfl, -⟩
    · exact .inl rfl
    · exact .inr rfl
  rcases inside with rfl | rfl <;> simp at claimed

/-- Both refusals can mislead. -/
theorem refusals_mislead : ¬ EnqueueRefusesWhenFull twoSlots (fun _ => 0) ∧
    ¬ DequeueRefusesWhenDrained twoSlots fun _ => 0 :=
  ⟨enqueue_refused_early, dequeue_refused_early⟩

/-- The refusal behind a consumer that stands still has its reason. -/
theorem two_slots_refusals_explained : ∃ events queue,
    (system Nat twoSlots).Runs (constructed fun _ => 0) events queue ∧
    .enqueue 0 .refused ∈ events ∧ @RefusesForAReason Nat twoSlots (fun _ => 0) events := by
  obtain ⟨events, queue, run, few, shown⟩ := (system Nat twoSlots).runs_of_exec
    (fun _ _ _ _ => True) (constructed fun _ => 0)
    (.call 0 (.enqueue 10) :: steps 0 5 ++ .call 0 (.enqueue 20) :: steps 0 5 ++
      .call 1 .dequeue :: steps 1 3 ++ .call 0 (.enqueue 30) :: steps 0 2)
    (fun _ events => tally Event.claimsTail events + twoSlots.value ≤ 2 ^ 63 ∧
      .enqueue 0 .refused ∈ events)
    (by decide +kernel)
  exact ⟨events, queue, run, shown, refusals_explained _ _ _ _ run few⟩

end MPMCQueue
end MmoServer.LockfreeQueue
