import MmoServer.LockfreeQueue.MPSCDelivery

/-!
# When MPSCQueue refuses

Enqueue gives up when one slot's sequence number is behind a position that may be long
out of date. `refused_only_when_full` says that the queue is full then: there is one
consumer, and it releases the slots in their order. It needs the sequence numbers to
stay within half of the words: a producer that stands still while the slot of its
position comes 2^63 further takes that slot for one behind, and `refused_when_empty` is
such a run.
-/

namespace MmoServer.LockfreeQueue

open MmoServer.Std MmoServer.Semantics

namespace MPSCQueue

variable {α : Type} {capacity : QueueCapacity} {storage : Fin capacity.value → α}
  {events : List (Event α)} {queue next : MPSCQueue α capacity} {choice : Choice α}
  {producer : Nat}

/-- The consumer has found the slot of its position filled. -/
@[simp] def Event.finds : Event α → Bool
  | .dequeue (.found _) => true
  | _ => false

/-- The consumer gives a slot back: its sequence store. -/
@[simp] def Event.releases : Event α → Bool
  | .dequeue (.released _ _) => true
  | _ => false

/-- An event of Enqueue comes from a step of a producer in it. -/
theorem step_of_enqueue {shown : EnqueueEvent α}
    (transition : queue.step choice = some (next, .enqueue producer shown)) :
    ∃ state spurious, queue.producers producer = some state ∧
      (state.step queue.slots queue.enqueuePos spurious).event = shown := by
  cases step_sound transition with
  | enqueue here spurious => exact ⟨_, spurious, here, rfl⟩

/-- A step of Dequeue finds a slot, releases one or does neither. -/
theorem DequeueState.step_counts (state : DequeueState α) (slots : QueueSlots α capacity)
    (dequeuePos : QueueSequence) (left : α) :
    (if Event.finds (.dequeue (state.step slots dequeuePos left).event) then 1 else 0) +
        (if (unreleased? (some state)).isSome then 1 else 0) =
      (if Event.releases (.dequeue (state.step slots dequeuePos left).event) then 1 else 0) +
        if (unreleased? (state.step slots dequeuePos left).state).isSome then 1 else 0 := by
  cases state with
  | loadSequence pos =>
      simp only [step]
      split <;> rfl
  | loadPos | moveOut | storeSequence | storePos => rfl

/-- The slots that the consumer has found and not released are the one it has. -/
theorem finds_eq_of_runs {start : MPSCQueue α capacity} (idle : start.consumer = none)
    (run : (system α capacity).Runs start events queue) :
    tally Event.finds events =
      tally Event.releases events + if (unreleased? queue.consumer).isSome then 1 else 0 := by
  apply run.invariant fun events queue => tally Event.finds events =
    tally Event.releases events + if (unreleased? queue.consumer).isSome then 1 else 0
  · rw [idle]
    rfl
  · intro events queue choice next event _ counted transition _
    rw [tally_concat, tally_concat]
    cases step_sound transition with
    | callEnqueue | enqueue => exact counted
    | callDequeue here =>
        rw [here] at counted
        exact counted
    | @dequeue state here left =>
        rw [here] at counted
        have steps := state.step_counts queue.slots queue.dequeuePos left
        change tally Event.finds events + _ = tally Event.releases events + _ +
          if (unreleased? (state.step queue.slots queue.dequeuePos left).state).isSome then 1 else 0
        omega

/-- The ring counts the items that the consumer has found. -/
theorem tally_claimsHead {start : Nat} :
    tally RingEvent.claimsHead (events.filterMap (Event.label start)) =
      tally Event.finds events := by
  apply tally_filterMap
  rintro (_ | _ | ⟨_, event⟩ | event)
  · rfl
  · rfl
  · cases event <;> rfl
  · cases event <;> rfl

/-- A position that the consumer reads is that of the slot it has. -/
theorem unreleased?_of_hold {agent : Option Nat} {position : Nat}
    (reads : (queue.holds 0 agent).reads? = some position) :
    ∃ pos, unreleased? queue.consumer = some pos ∧ toPosition 0 pos = position := by
  cases agent with
  | some producer =>
      rw [holds] at reads
      cases here : queue.producers producer with
      | none =>
          rw [here] at reads
          cases reads
      | some state =>
          rw [here] at reads
          cases state <;> cases reads
  | none =>
      rw [holds] at reads
      cases here : queue.consumer with
      | none =>
          rw [here] at reads
          cases reads
      | some state =>
          rw [here] at reads
          cases state <;> cases reads <;> exact ⟨_, rfl, rfl⟩

/-- The consumer reads the position of the slot it has. -/
theorem Refines.reads (refines : Refines 0 storage events queue) {pos : QueueSequence}
    (held : unreleased? queue.consumer = some pos) : (queue.ring 0).Reads (toPosition 0 pos) := by
  have holding := (refines.consistent (Nat.dvd_zero _)).holding none
  change RingProtocol.Holding (queue.ring 0) _ none (hold? 0 queue.consumer) at holding
  cases here : queue.consumer with
  | none =>
      rw [here] at held
      cases held
  | some state =>
      rw [here] at held holding
      cases state <;> cases held <;> exact holding.1

/-- The position at the head counts the one that the consumer has. -/
theorem Refines.head_of_unreleased (refines : Refines 0 storage events queue) {pos : QueueSequence}
    (held : unreleased? queue.consumer = some pos) : (queue.ring 0).head = toPosition 0 pos + 1 := by
  have dequeuing : dequeuing? queue.consumer = some pos := by
    cases here : queue.consumer with
    | none =>
        rw [here] at held
        cases held
    | some state =>
        rw [here] at held
        cases state <;> cases held <;> rfl
  change head 0 queue.dequeuePos queue.consumer = _
  rw [head, dequeuing, refines.dequeuing_eq dequeuing]
  rfl

/-- When the slot of a position that the tail has reached is behind, the consumer has
given back a capacity less than has been claimed. -/
theorem Refines.full_of_behind (refines : Refines 0 storage events queue)
    (counted : tally Event.finds events =
      tally Event.releases events + if (unreleased? queue.consumer).isSome then 1 else 0)
    {position : Nat} (reached : position ≤ (queue.ring 0).tail)
    (behind : (queue.ring 0).sequenceAt position < position) :
    tally Event.claimsTail events = tally Event.releases events + capacity.value := by
  have consistent := refines.consistent (Nat.dvd_zero _)
  have tail : (queue.ring 0).tail = 0 + tally Event.claimsTail events :=
    consistent.tail.trans (congrArg (0 + ·) tally_claimsTail)
  have front : (queue.ring 0).head = 0 + tally Event.finds events :=
    consistent.head.trans (congrArg (0 + ·) tally_claimsHead)
  rcases consistent.valid.behind_tail reached behind with full | ⟨earlier, lap, reads⟩
  · change (queue.ring 0).tail = (queue.ring 0).head + capacity.value at full
    cases held : unreleased? queue.consumer with
    | none =>
        rw [held, Option.isSome_none, if_neg Bool.false_ne_true] at counted
        omega
    | some pos =>
        -- No position is claimed that shares its slot with the one being read.
        have last := refines.head_of_unreleased held
        have near := (refines.reads held).near
        omega
  · change earlier + capacity.value = (queue.ring 0).tail at lap
    have owned := RingProtocol.owned_of_runs capacity.atLeastTwo (Nat.dvd_zero _) refines.run
    obtain ⟨agent, holds⟩ := owned.readers earlier reads
    obtain ⟨pos, held, rfl⟩ := unreleased?_of_hold holds
    have last := refines.head_of_unreleased held
    rw [held, Option.isSome_some, if_pos rfl] at counted
    omega

/-- As long as the sequence numbers stay within half of the words, Enqueue returns false
only when as many positions as there are slots have been claimed and not released. -/
theorem refused_only_when_full (capacity : QueueCapacity) (storage : Fin capacity.value → α)
    (events : List (Event α)) (producer : Nat) (queue : MPSCQueue α capacity)
    (run : (system α capacity).Runs (constructed storage)
      (events ++ [.enqueue producer .refused]) queue)
    (few : tally Event.claimsTail events + capacity.value ≤ 2 ^ 63) :
    tally Event.claimsTail events = tally Event.releases events + capacity.value := by
  obtain ⟨before, choice, prior, transition, -⟩ := run.last
  have several := capacity.atLeastTwo
  have refines : Refines 0 storage events before :=
    refines_of_runs (Nat.dvd_zero _) prior (by omega)
  obtain ⟨state, spurious, here, refused⟩ := step_of_enqueue transition
  obtain ⟨item, pos, rfl, behind⟩ := EnqueueState.step_refused refused
  have reached : toPosition 0 pos ≤ (before.ring 0).tail := refines.seen producer _ here
  have consistent := refines.consistent (Nat.dvd_zero _)
  have tail : (before.ring 0).tail = 0 + tally Event.claimsTail events :=
    consistent.tail.trans (congrArg (0 + ·) tally_claimsTail)
  have sequence : (before.ring 0).sequenceAt (toPosition 0 pos) =
      toPosition 0 (before.slots (capacity.index pos)).sequence := sequenceAt_ringOf
  have ahead : (before.ring 0).sequenceAt (toPosition 0 pos) < (before.ring 0).tail + capacity.value :=
    consistent.valid.sequence_lt _
  rw [sequenceDiff_neg_iff_lt 0 (by omega) (by omega), ← sequence] at behind
  exact refines.full_of_behind (finds_eq_of_runs rfl prior) reached behind

/-- Two items fill two slots, and the third is refused. -/
theorem third_item_refused : ∃ events queue,
    (system Nat twoSlots).Runs (constructed fun _ => 0) (events ++ [.enqueue 0 .refused]) queue ∧
    tally Event.claimsTail events = tally Event.releases events + 2 := by
  obtain ⟨_, queue, run, rfl⟩ := (system Nat twoSlots).runs_of_exec (fun _ _ _ _ => True)
    (constructed fun _ => 0)
    (.callEnqueue 0 10 :: enqueues 0 ++ .callEnqueue 0 20 :: enqueues 0 ++
      .callEnqueue 0 30 :: [.enqueue 0 false, .enqueue 0 false])
    (fun _ events => events =
      [.calledEnqueue 0 10, .enqueue 0 .silent, .enqueue 0 .silent, .enqueue 0 (.claimed 0 10),
        .enqueue 0 (.wrote 0 10), .enqueue 0 (.published 0 10), .calledEnqueue 0 20,
        .enqueue 0 .silent, .enqueue 0 .silent, .enqueue 0 (.claimed 1 20),
        .enqueue 0 (.wrote 1 20), .enqueue 0 (.published 1 20), .calledEnqueue 0 30,
        .enqueue 0 .silent] ++ [.enqueue 0 .refused])
    (by decide +kernel)
  exact ⟨_, queue, run, refused_only_when_full _ _ _ _ _ run (by decide)⟩

/-! ## A producer that stands still too long -/

/-- The slot of `pos` has one sequence number and the other slot another. -/
def twoSequences (pos here there : QueueSequence) : QueueSlots Unit twoSlots :=
  fun slot => { sequence := if slot = twoSlots.index pos then here else there, storage := () }

/-- Two slots, and a producer 0 that has loaded the counter when it was 0. -/
def stale (slots : QueueSlots Unit twoSlots) (enqueuePos dequeuePos : QueueSequence)
    (producer : Option (EnqueueState Unit)) (consumer : Option (DequeueState Unit)) :
    MPSCQueue Unit twoSlots where
  slots
  enqueuePos
  dequeuePos
  producers other := if other = 0 then some (.loadSequence () 0) else
    if other = 1 then producer else none
  consumer

variable {pos here there later enqueuePos dequeuePos : QueueSequence}
  {slots : QueueSlots Unit twoSlots} {state : EnqueueState Unit} {consumes : DequeueState Unit}

theorem twoSequences_self : (twoSequences pos here there (twoSlots.index pos)).sequence = here :=
  if_pos rfl

theorem setStorage_unit : QueueSlots.setStorage slots pos () = slots := by
  funext slot
  by_cases same : slot = twoSlots.index pos
  · rw [same, QueueSlots.setStorage, Function.update_self]
  · rw [QueueSlots.setStorage, Function.update_of_ne same]

theorem setSequence_twoSequences : QueueSlots.setSequence (twoSequences pos here there) pos later =
    twoSequences pos later there := by
  funext slot
  by_cases same : slot = twoSlots.index pos
  · rw [same, QueueSlots.setSequence, Function.update_self]
    exact congrArg (QueueSlot.mk · ()) (if_pos rfl).symm
  · rw [QueueSlots.setSequence, Function.update_of_ne same, twoSequences, twoSequences,
      if_neg same, if_neg same]

/-- The slot of the next position is the other one. -/
theorem twoSequences_swap : twoSequences pos here there = twoSequences (pos + 1) there here := by
  funext slot
  have place : ∀ word : QueueSequence, (twoSlots.index word).val = word.toNat % 2 := by
    intro word
    exact twoSlots.mask_eq_mod word.toNat
  have next : (twoSlots.index (pos + 1)).val = (pos.toNat + 1) % 2 := by
    rw [place, UInt64.toNat_add]
    change (pos.toNat + 1) % 2 ^ 64 % 2 = _
    omega
  have small := slot.isLt
  change slot.val < 2 at small
  have other : slot = twoSlots.index (pos + 1) ↔ slot ≠ twoSlots.index pos := by
    rw [Ne, Fin.ext_iff, Fin.ext_iff, next, place pos]
    omega
  by_cases same : slot = twoSlots.index pos
  · rw [twoSequences, twoSequences, if_pos same, if_neg fun swapped => other.mp swapped same]
  · rw [twoSequences, twoSequences, if_neg same, if_pos (other.mpr same)]

theorem producers_stale (producer produces : Option (EnqueueState Unit))
    (consumer : Option (DequeueState Unit)) :
    Function.update (stale slots enqueuePos dequeuePos producer consumer).producers 1 produces =
      (stale slots enqueuePos dequeuePos produces consumer).producers := by
  funext other
  by_cases mine : other = 1
  · subst mine
    rw [Function.update_self]
    rfl
  · rw [Function.update_of_ne mine]
    simp [stale, mine]

/-- A step of the second producer, the first one standing still. -/
theorem step_producer {consumer : Option (DequeueState Unit)} {result : EnqueueStep Unit twoSlots}
    (steps : state.step slots enqueuePos false = result) :
    (system Unit twoSlots).step (stale slots enqueuePos dequeuePos (some state) consumer)
        (.enqueue 1 false) =
      some (stale result.slots result.tail dequeuePos result.state consumer,
        .enqueue 1 result.event) := by
  have stepped : (system Unit twoSlots).step
      (stale slots enqueuePos dequeuePos (some state) consumer) (.enqueue 1 false) =
      some ((stale slots enqueuePos dequeuePos (some state) consumer).afterEnqueue 1
        (state.step slots enqueuePos false), .enqueue 1 (state.step slots enqueuePos false).event) :=
    rfl
  rw [stepped, steps, afterEnqueue, producers_stale]
  rfl

/-- A step of the consumer, the first producer standing still. -/
theorem step_consumer {producer : Option (EnqueueState Unit)} {result : DequeueStep Unit twoSlots}
    (steps : consumes.step slots dequeuePos () = result) :
    (system Unit twoSlots).step (stale slots enqueuePos dequeuePos producer (some consumes))
        (.dequeue ()) =
      some (stale result.slots enqueuePos result.dequeuePos producer result.state,
        .dequeue result.event) := by
  rw [← steps]
  rfl

/-- Producer 1 enqueues while nobody else moves. -/
theorem enqueue_run (pos dequeuePos there : QueueSequence) : ∃ events,
    (system Unit twoSlots).Runs (stale (twoSequences pos pos there) pos dequeuePos none none) events
        (stale (twoSequences pos (pos + 1) there) (pos + 1) dequeuePos none none) ∧
      tally Event.claimsTail events = 1 ∧ tally Event.releases events = 0 := by
  let slots := twoSequences pos pos there
  have called : (system Unit twoSlots).step (stale slots pos dequeuePos none none)
      (.callEnqueue 1 ()) = some (stale slots pos dequeuePos (some (.loadTail ())) none,
        .calledEnqueue 1 ()) := by
    have entered : (system Unit twoSlots).step (stale slots pos dequeuePos none none)
        (.callEnqueue 1 ()) = some ({ stale slots pos dequeuePos none none with
          producers := Function.update (stale slots pos dequeuePos none none).producers 1
            (some (.loadTail ())) }, .calledEnqueue 1 ()) := rfl
    rw [entered, producers_stale]
    rfl
  have seen : EnqueueState.step slots pos false (.loadSequence () pos) =
      ⟨slots, pos, some (.compareExchange () pos), .silent⟩ :=
    if_pos (sequenceDiff_eq_zero_iff.mpr twoSequences_self)
  have claimed : EnqueueState.step slots pos false (.compareExchange () pos) =
      ⟨slots, pos + 1, some (.moveIn () pos), .claimed pos ()⟩ := if_pos ⟨rfl, rfl⟩
  have wrote : EnqueueState.step slots (pos + 1) false (.moveIn () pos) =
      ⟨slots, pos + 1, some (.storeSequence () pos), .wrote pos ()⟩ := by
    rw [EnqueueState.step, setStorage_unit]
  have published : EnqueueState.step slots (pos + 1) false (.storeSequence () pos) =
      ⟨twoSequences pos (pos + 1) there, pos + 1, none, .published pos ()⟩ := by
    rw [EnqueueState.step, setSequence_twoSequences]
  have run : (system Unit twoSlots).Runs (stale slots pos dequeuePos none none) _
      (stale (twoSequences pos (pos + 1) there) (pos + 1) dequeuePos none none) :=
    .step (.step (.step (.step (.step (.step .refl called trivial) (step_producer rfl) trivial)
      (step_producer seen) trivial) (step_producer claimed) trivial) (step_producer wrote) trivial)
      (step_producer published) trivial
  exact ⟨_, run, rfl, rfl⟩

/-- The consumer dequeues while nobody else moves. -/
theorem dequeue_run (pos enqueuePos there : QueueSequence) : ∃ events,
    (system Unit twoSlots).Runs (stale (twoSequences pos (pos + 1) there) enqueuePos pos none none)
        events (stale (twoSequences pos (pos + 2) there) enqueuePos (pos + 1) none none) ∧
      tally Event.claimsTail events = 0 ∧ tally Event.releases events = 1 := by
  let slots := twoSequences pos (pos + 1) there
  have called : (system Unit twoSlots).step (stale slots enqueuePos pos none none) .callDequeue =
      some (stale slots enqueuePos pos none (some .loadPos), .calledDequeue) := rfl
  have found : DequeueState.step slots pos () (.loadSequence pos) =
      ⟨slots, pos, some (.moveOut pos), .found pos⟩ :=
    if_pos (sequenceDiff_eq_zero_iff.mpr twoSequences_self)
  have took : DequeueState.step slots pos () (.moveOut pos) =
      ⟨slots, pos, some (.storeSequence pos ()), .took pos ()⟩ := by
    rw [DequeueState.step, setStorage_unit]
  have released : DequeueState.step slots pos () (.storeSequence pos ()) =
      ⟨twoSequences pos (pos + 2) there, pos, some (.storePos pos ()), .released pos ()⟩ := by
    rw [DequeueState.step, setSequence_twoSequences]
    rfl
  have run : (system Unit twoSlots).Runs (stale slots enqueuePos pos none none) _
      (stale (twoSequences pos (pos + 2) there) enqueuePos (pos + 1) none none) :=
    .step (.step (.step (.step (.step (.step .refl called trivial) (step_consumer rfl) trivial)
      (step_consumer found) trivial) (step_consumer took) trivial)
      (step_consumer released) trivial) (step_consumer rfl) trivial
  exact ⟨_, run, rfl, rfl⟩

/-- Two empty slots behind a producer that stands still. -/
def staleEmpty (pos : QueueSequence) : MPSCQueue Unit twoSlots :=
  stale (twoSequences pos pos (pos + 1)) pos pos none none

/-- Items go through the two slots one by one. -/
theorem rounds_run (count : Nat) : ∃ events,
    (system Unit twoSlots).Runs (staleEmpty 0) events (staleEmpty (UInt64.ofNat count)) ∧
      tally Event.claimsTail events = count ∧ tally Event.releases events = count := by
  induction count with
  | zero => exact ⟨[], .refl, rfl, rfl⟩
  | succ count ih =>
      obtain ⟨earlier, run, claims, releases⟩ := ih
      obtain ⟨entering, enqueued, claim, held⟩ :=
        enqueue_run (UInt64.ofNat count) (UInt64.ofNat count) (UInt64.ofNat count + 1)
      obtain ⟨leaving, dequeued, unclaimed, release⟩ :=
        dequeue_run (UInt64.ofNat count) (UInt64.ofNat count + 1) (UInt64.ofNat count + 1)
      have next : staleEmpty (UInt64.ofNat (count + 1)) =
          stale (twoSequences (UInt64.ofNat count) (UInt64.ofNat count + 2)
            (UInt64.ofNat count + 1)) (UInt64.ofNat count + 1) (UInt64.ofNat count + 1) none none := by
        have one : UInt64.ofNat (count + 1) = UInt64.ofNat count + 1 := UInt64.ofNat_add count 1
        rw [staleEmpty, one, ← twoSequences_swap, UInt64.add_assoc]
        rfl
      rw [next]
      refine ⟨_, (run.trans enqueued).trans dequeued, ?_, ?_⟩
      · rw [tally_append, tally_append, claims, claim, unclaimed]
      · rw [tally_append, tally_append, releases, held, release]

/-- The producer that will stand still loads the counter of a new queue. -/
theorem stale_reached : ∃ events,
    (system Unit twoSlots).Runs (constructed fun _ => ()) events (staleEmpty 0) ∧
      tally Event.claimsTail events = 0 ∧ tally Event.releases events = 0 := by
  let new : MPSCQueue Unit twoSlots := constructed fun _ => ()
  have called : (system Unit twoSlots).step new (.callEnqueue 0 ()) =
      some ({ new with producers := Function.update new.producers 0 (some (.loadTail ())) },
        .calledEnqueue 0 ()) := rfl
  have loaded : (system Unit twoSlots).step
      { new with producers := Function.update new.producers 0 (some (.loadTail ())) }
      (.enqueue 0 false) = some ({ new with
        producers := Function.update (Function.update new.producers 0 (some (.loadTail ()))) 0
          (some (.loadSequence () 0)) }, .enqueue 0 .silent) := rfl
  have slots : new.slots = twoSequences 0 0 (0 + 1) := by
    funext slot
    match slot with
    | ⟨0, _⟩ => rfl
    | ⟨1, _⟩ => rfl
  have producers : Function.update (Function.update new.producers 0 (some (.loadTail ()))) 0
      (some (.loadSequence () 0)) = (staleEmpty 0).producers := by
    funext other
    rw [Function.update_idem]
    by_cases mine : other = 0
    · subst mine
      rw [Function.update_self]
      rfl
    · rw [Function.update_of_ne mine]
      simp [staleEmpty, stale, mine, new, constructed, startedAt]
  have there : { new with
      producers := Function.update (Function.update new.producers 0 (some (.loadTail ()))) 0
        (some (.loadSequence () 0)) } = staleEmpty 0 := by
    rw [producers, slots]
    rfl
  rw [there] at loaded
  exact ⟨_, .step (.step .refl called trivial) loaded trivial, rfl, rfl⟩

/-- With fewer than 2^63 claims an empty queue can refuse: the slot of the position that
producer 0 has loaded is 2^63 further. -/
theorem refused_when_empty : ¬ ∀ (capacity : QueueCapacity) (storage : Fin capacity.value → Unit)
    (events : List (Event Unit)) (producer : Nat) (queue : MPSCQueue Unit capacity),
    (system Unit capacity).Runs (constructed storage)
      (events ++ [.enqueue producer .refused]) queue →
    tally Event.claimsTail events < 2 ^ 63 →
    tally Event.claimsTail events = tally Event.releases events + capacity.value := by
  intro claim
  obtain ⟨first, reached, unclaimed, unreleased⟩ := stale_reached
  obtain ⟨events, rounds, claims, releases⟩ := rounds_run 9223372036854775807
  have behind : sequenceDiff ((staleEmpty (UInt64.ofNat 9223372036854775807)).slots
      (twoSlots.index 0)).sequence 0 < 0 := by
    decide
  let state := staleEmpty (UInt64.ofNat 9223372036854775807)
  have refused : (EnqueueState.step state.slots state.enqueuePos false (.loadSequence () 0)).event =
      .refused := by
    simp only [EnqueueState.step, state, if_neg (Int64.ne_of_lt behind), if_pos behind]
  have stepped : (system Unit twoSlots).step state (.enqueue 0 false) = some
      (state.afterEnqueue 0 (EnqueueState.step state.slots state.enqueuePos false (.loadSequence () 0)),
        .enqueue 0
          (EnqueueState.step state.slots state.enqueuePos false (.loadSequence () 0)).event) := rfl
  rw [refused] at stepped
  have full := claim twoSlots _ _ 0 _ (.step (reached.trans rounds) stepped trivial)
  rw [tally_append, tally_append, unclaimed, unreleased, claims, releases] at full
  exact absurd (full (by decide)) (by decide)

end MPSCQueue
end MmoServer.LockfreeQueue
