import MmoServer.LockfreeQueue.MPSCQueue

/-!
# What MPSCQueue delivers

In every run in which fewer than 2^63 positions are claimed, the k-th Dequeue that
returns true returns the item of the producer that claimed position k. Between the
consumer's two stores a slot is free for the next lap while `m_dequeuePos` still
names it; every published item is returned, in the consumer's hands or in its slot.
-/

namespace MmoServer.LockfreeQueue

open MmoServer.Std MmoServer.Semantics

namespace MPSCQueue

variable {α : Type} {capacity : QueueCapacity}

/-- The consumer is dequeuing the item of a position. -/
def InHand (queue : MPSCQueue α capacity) (pos : QueueSequence) (item : α) : Prop :=
  match queue.consumer with
  | some (.moveOut other) => other = pos ∧ (queue.slots (capacity.index pos)).storage = item
  | some (.storeSequence other found) | some (.storePos other found) => other = pos ∧ found = item
  | _ => False

/-- The item of a position is stored and not yet dequeued. -/
structure Stores (queue : MPSCQueue α capacity) (pos : QueueSequence) (item : α) : Prop where
  unread : queue.dequeuePos.toNat ≤ pos.toNat
  claimed : pos.toNat < queue.enqueuePos.toNat
  slot : queue.slots (capacity.index pos) = { sequence := pos + 1, storage := item }

/-- The position that a producer has claimed and not published. -/
def claimed? : Option (EnqueueState α) → Option QueueSequence
  | some (.moveIn _ pos) | some (.storeSequence _ pos) => some pos
  | _ => none

/-- The position whose slot the consumer has and has not released. -/
def unreleased? : Option (DequeueState α) → Option QueueSequence
  | some (.moveOut pos) | some (.storeSequence pos _) => some pos
  | _ => none

/-- Dequeue has returned the item of the position. -/
@[simp] def Event.returnsAt (pos : QueueSequence) : Event α → Bool
  | .dequeue (.returned other _) => other = pos
  | _ => false

/-- What the events of a run and the state it reaches guarantee. -/
structure Delivers (events : List (Event α)) (queue : MPSCQueue α capacity) : Prop where
  /-- The k-th successful claim is for position k. -/
  tailOrder : ∀ before after producer pos item,
    events = before ++ .enqueue producer (.claimed pos item) :: after →
      pos.toNat = tally Event.claimsTail before
  /-- The k-th successful Dequeue returns the item whose producer claimed position k. -/
  headOrder : ∀ before after pos item, events = before ++ .dequeue (.returned pos item) :: after →
    pos.toNat = tally Event.returns before ∧
      ∃ producer, .enqueue producer (.claimed pos item) ∈ before
  /-- An item is read after its producer has published it. -/
  published : ∀ before after pos item, events = before ++ .dequeue (.took pos item) :: after →
    ∃ producer, .enqueue producer (.claimed pos item) ∈ before ∧
      .enqueue producer (.wrote pos item) ∈ before ∧
      .enqueue producer (.published pos item) ∈ before
  returnsOnce : ∀ pos, tally (Event.returnsAt pos) events ≤ 1
  /-- A published item has been returned, is being dequeued, or is stored. -/
  nothingLost : ∀ producer pos item, .enqueue producer (.published pos item) ∈ events →
    .dequeue (.returned pos item) ∈ events ∨ queue.InHand pos item ∨ queue.Stores pos item
  /-- A slot is written again after the consumer has released it. -/
  releasedFirst : ∀ before after producer pos item,
    events = before ++ .enqueue producer (.wrote pos item) :: after →
      capacity.value ≤ pos.toNat →
        ∃ earlier older, .dequeue (.released earlier older) ∈ before ∧
          earlier.toNat + capacity.value = pos.toNat
  /-- No two producers have one slot. -/
  exclusive : ∀ producer other pos second, claimed? (queue.producers producer) = some pos →
    claimed? (queue.producers other) = some second →
    capacity.index pos = capacity.index second → producer = other
  /-- No producer has the consumer's slot. -/
  apart : ∀ producer pos second, claimed? (queue.producers producer) = some pos →
    unreleased? queue.consumer = some second → capacity.index pos ≠ capacity.index second
  /-- What a producer has enqueued first is returned first. -/
  inOrder : ∀ producer first item second later,
    [.enqueue producer (.published first item),
      .enqueue producer (.published second later)].Sublist events →
    ∀ before after, events = before ++ .dequeue (.returned second later) :: after →
      .dequeue (.returned first item) ∈ before

variable {storage : Fin capacity.value → α} {events before after : List (Event α)}
  {queue : MPSCQueue α capacity} {event : Event α} {label : RingEvent (Option Nat) α}
  {pos : QueueSequence} {item : α} {producer : Nat}

/-- Only the consumer returns items. -/
theorem returns_cases (returns : event.returns = true) :
    ∃ pos item, event = .dequeue (.returned pos item) := by
  cases event with
  | dequeue shown =>
      cases shown with
      | returned pos item => exact ⟨pos, item, rfl⟩
      | _ => cases returns
  | _ => cases returns

/-- It returns the item of a position. -/
theorem returnsAt_cases (returns : event.returnsAt pos = true) :
    ∃ item, event = .dequeue (.returned pos item) := by
  cases event with
  | dequeue shown =>
      cases shown with
      | returned other item =>
          obtain rfl : other = pos := by simpa using returns
          exact ⟨item, rfl⟩
      | _ => cases returns
  | _ => cases returns

/-- Only producers publish. -/
theorem label_published {agent : Option Nat} {position : Nat}
    (shown : event.label 0 = some (.published agent position item)) :
    ∃ producer, agent = some producer := by
  cases event with
  | enqueue producer event =>
      cases event <;> cases shown
      exact ⟨producer, rfl⟩
  | dequeue event => cases event <;> cases shown
  | _ => cases shown

/-- The returns of a trace are numbered. -/
theorem returns_numbered :
    Numbered (@Explains α 0) Event.returns (Event.position 0) 0 := by
  intro before event explanation counts
  obtain ⟨pos, item, rfl⟩ := returns_cases counts
  exact explanation.1

/-- The moves of the ring are explained. -/
theorem Refines.trace (refines : Refines 0 storage events queue) :
    Explained (RingProtocol.Explains 0) (events.filterMap (Event.label 0)) :=
  (refines.consistent (Nat.dvd_zero _)).explained

/-- So they are up to any step. -/
theorem Refines.trace_front (refines : Refines 0 storage events queue)
    (split : events = before ++ after) :
    Explained (RingProtocol.Explains 0) (before.filterMap (Event.label 0)) := by
  have whole := refines.trace
  rw [split, List.filterMap_append] at whole
  exact whole.of_append

/-- What the consumer has released was published by the producer of its position. -/
theorem published_of_released
    (explained : Explained (RingProtocol.Explains 0) (events.filterMap (Event.label 0)))
    (released : .dequeue (.released pos item) ∈ events) :
    ∃ producer, .enqueue producer (.published pos item) ∈ events ∧
      .enqueue producer (.claimed pos item) ∈ events := by
  have gave : .released none (toPosition 0 pos) item ∈ events.filterMap (Event.label 0) :=
    (mem_labels_iff rfl).mpr released
  have took := RingProtocol.released_explained explained gave
  obtain ⟨_, agent, published⟩ := RingProtocol.took_explained explained took
  have claimed := (RingProtocol.published_explained explained published).2
  obtain ⟨event, _, shown⟩ := List.mem_filterMap.mp published
  obtain ⟨producer, rfl⟩ := label_published shown
  exact ⟨producer, (mem_labels_iff rfl).mp published, (mem_labels_iff rfl).mp claimed⟩

/-- A position has one item. -/
theorem item_unique {other : Nat} {second : α}
    (explained : Explained (RingProtocol.Explains 0) (events.filterMap (Event.label 0)))
    (published : .enqueue producer (.published pos item) ∈ events)
    (claimed : .enqueue other (.claimed pos second) ∈ events) : item = second := by
  have shown : .published (some producer) (toPosition 0 pos) item ∈
      events.filterMap (Event.label 0) := (mem_labels_iff rfl).mpr published
  have owns : .claimedTail (some other) (toPosition 0 pos) second ∈
      events.filterMap (Event.label 0) := (mem_labels_iff rfl).mpr claimed
  exact (RingProtocol.claimedTail_unique explained
    (RingProtocol.published_explained explained shown).2 owns).2

/-- Items are returned in the order of their positions, after their release. -/
theorem headOrder_of (refines : Refines 0 storage events queue)
    (split : events = before ++ .dequeue (.returned pos item) :: after) :
    pos.toNat = tally Event.returns before ∧ .dequeue (.released pos item) ∈ before := by
  obtain ⟨number, released⟩ := refines.explained before _ after split
  rw [toPosition_zero, Nat.zero_add] at number
  exact ⟨number, released⟩

/-- A position that has been returned from is not returned from again. -/
theorem returnsOnce_of (refines : Refines 0 storage events queue) (pos : QueueSequence) :
    tally (Event.returnsAt pos) events ≤ 1 := by
  apply refines.explained.tally_le_one
  intro before event front explanation returns
  rw [tally_eq_zero_iff]
  intro earlier member
  by_contra also
  obtain ⟨item, rfl⟩ := returnsAt_cases returns
  obtain ⟨second, rfl⟩ := returnsAt_cases (Bool.eq_true_of_not_eq_false also)
  -- An earlier return is numbered below this one.
  have below : toPosition 0 pos < 0 + tally Event.returns before :=
    (returns_numbered.bounds front member rfl).2
  exact absurd explanation.1 (Nat.ne_of_lt below)

/-- A position below the number of returns has been returned from. -/
theorem exists_returned (refines : Refines 0 storage events queue)
    (below : pos.toNat < tally Event.returns before) (split : events = before ++ after) :
    ∃ item, .dequeue (.returned pos item) ∈ before := by
  have whole := refines.explained
  rw [split] at whole
  obtain ⟨event, member, counts, number⟩ := returns_numbered.exists_event whole.of_append below
  obtain ⟨other, item, rfl⟩ := returns_cases counts
  change toPosition 0 other = 0 + pos.toNat at number
  rw [toPosition_zero, Nat.zero_add] at number
  obtain rfl := UInt64.toNat_inj.mp number
  exact ⟨item, member⟩

/-- The consumer dequeues the item that was published at its position. -/
theorem Refines.inHand (refines : Refines 0 storage events queue)
    (published : .enqueue producer (.published pos item) ∈ events)
    (dequeuing : dequeuing? queue.consumer = some pos) : queue.InHand pos item := by
  have explained := refines.trace
  have holding := (refines.consistent (Nat.dvd_zero _)).holding none
  change RingProtocol.Holding (queue.ring 0) _ none (hold? 0 queue.consumer) at holding
  have shown : .published (some producer) (toPosition 0 pos) item ∈
      events.filterMap (Event.label 0) := (mem_labels_iff rfl).mpr published
  have claimed := (RingProtocol.published_explained explained shown).2
  cases here : queue.consumer with
  | none =>
      rw [here] at dequeuing
      cases dequeuing
  | some state =>
      rw [here] at holding dequeuing
      rw [InHand, here]
      cases state with
      | loadPos | loadSequence => cases dequeuing
      | moveOut other =>
          cases dequeuing
          obtain ⟨_, _, ⟨agent, also⟩, _⟩ := holding
          have stored : (queue.ring 0).storageAt (toPosition 0 pos) =
              (queue.slots (capacity.index pos)).storage := storageAt_ringOf
          rw [stored] at also
          have owns := (RingProtocol.published_explained explained also).2
          exact ⟨rfl, (RingProtocol.claimedTail_unique explained owns claimed).2⟩
      | storeSequence other found =>
          cases dequeuing
          obtain ⟨_, _, took, _⟩ := holding
          obtain ⟨_, agent, also⟩ := RingProtocol.took_explained explained took
          have owns := (RingProtocol.published_explained explained also).2
          exact ⟨rfl, (RingProtocol.claimedTail_unique explained owns claimed).2⟩
      | storePos other found =>
          cases dequeuing
          obtain ⟨other, _, owns⟩ :=
            published_of_released explained (refines.gaveBack pos found here)
          exact ⟨rfl, (item_unique explained published owns).symm⟩

/-- The position being dequeued is the queue's. -/
theorem Refines.dequeuing_eq (refines : Refines 0 storage events queue)
    (dequeuing : dequeuing? queue.consumer = some pos) : pos = queue.dequeuePos := by
  cases here : queue.consumer with
  | none =>
      rw [here] at dequeuing
      cases dequeuing
  | some state =>
      have follows := refines.follows state here
      rw [here] at dequeuing
      cases state with
      | loadPos | loadSequence => cases dequeuing
      | moveOut | storeSequence | storePos =>
          cases dequeuing
          exact follows

/-- What has been returned was returned with the published item. -/
theorem Refines.returned_item (refines : Refines 0 storage events queue) {found : α}
    (published : .enqueue producer (.published pos item) ∈ events)
    (returned : .dequeue (.returned pos found) ∈ events) : found = item := by
  obtain ⟨before, after, rfl⟩ := List.append_of_mem returned
  have released := List.mem_append_left
    (.dequeue (.returned pos found) :: after) (headOrder_of refines rfl).2
  obtain ⟨other, _, owns⟩ := published_of_released refines.trace released
  exact (item_unique refines.trace published owns).symm

/-- A filled slot of the ring stores its item. -/
theorem Refines.stores (refines : Refines 0 storage events queue)
    (few : tally Event.claimsTail events < 2 ^ 63)
    (ready : (queue.ring 0).Ready (toPosition 0 pos))
    (stored : (queue.ring 0).storageAt (toPosition 0 pos) = item) : queue.Stores pos item := by
  obtain ⟨tail, -⟩ := refines.below (Nat.dvd_zero _) few
  obtain ⟨unclaimed, claimed, filled⟩ := ready
  change head 0 queue.dequeuePos queue.consumer ≤ toPosition 0 pos at unclaimed
  change toPosition 0 pos < toPosition 0 queue.enqueuePos at claimed
  have unread : toPosition 0 queue.dequeuePos ≤ toPosition 0 pos :=
    Nat.le_trans (Nat.le_add_right _ _) unclaimed
  have sequences : toPosition 0 (queue.slots (capacity.index pos)).sequence =
      toPosition 0 (pos + 1) := by
    rw [toPosition_succ (by omega), ← filled]
    exact sequenceAt_ringOf.symm
  have sequence := toPosition_injective 0 sequences
  have storage : (queue.slots (capacity.index pos)).storage = item := by
    rw [← stored]
    exact storageAt_ringOf.symm
  rw [toPosition_zero, toPosition_zero] at claimed unread
  refine ⟨unread, claimed, ?_⟩
  rw [← sequence, ← storage]

/-- An item that is published is returned, in hand or stored. -/
theorem nothingLost_of (refines : Refines 0 storage events queue)
    (few : tally Event.claimsTail events < 2 ^ 63)
    (published : .enqueue producer (.published pos item) ∈ events) :
    .dequeue (.returned pos item) ∈ events ∨ queue.InHand pos item ∨ queue.Stores pos item := by
  have kept := RingProtocol.kept_of_runs capacity.atLeastTwo (Nat.dvd_zero _) refines.run
  have shown : .published (some producer) (toPosition 0 pos) item ∈
      events.filterMap (Event.label 0) := (mem_labels_iff rfl).mpr published
  have counted := refines.counted
  rw [toPosition_zero] at counted
  rcases kept (some producer) (toPosition 0 pos) item shown with read | ⟨ready, stored⟩
  · change toPosition 0 pos < head 0 queue.dequeuePos queue.consumer at read
    rw [head, toPosition_zero, toPosition_zero] at read
    by_cases returned : pos.toNat < queue.dequeuePos.toNat
    · have below : pos.toNat < tally Event.returns events := by omega
      obtain ⟨found, member⟩ := exists_returned refines below (List.append_nil _).symm
      obtain rfl := refines.returned_item published member
      exact .inl member
    · cases dequeuing : dequeuing? queue.consumer with
      | none =>
          rw [dequeuing] at read
          exact absurd read returned
      | some other =>
          obtain rfl := refines.dequeuing_eq dequeuing
          have here : pos.toNat = queue.dequeuePos.toNat := by
            rw [dequeuing] at read
            change pos.toNat < queue.dequeuePos.toNat + 1 at read
            omega
          rw [← UInt64.toNat_inj.mp here] at dequeuing
          exact .inr (.inl (refines.inHand published dequeuing))
  · exact .inr (.inr (refines.stores few ready stored))

/-- A released label is an event of the consumer. -/
theorem label_released {agent : Option Nat} {position : Nat}
    (shown : event.label 0 = some (.released agent position item)) :
    ∃ pos, toPosition 0 pos = position ∧ event = .dequeue (.released pos item) := by
  cases event with
  | enqueue producer event => cases event <;> cases shown
  | dequeue event =>
      cases event <;> cases shown
      exact ⟨_, rfl, rfl⟩
  | _ => cases shown

/-- A slot that is written again has been released before. -/
theorem releasedFirst_of (refines : Refines 0 storage events queue)
    (split : events = before ++ .enqueue producer (.wrote pos item) :: after)
    (again : capacity.value ≤ pos.toNat) :
    ∃ earlier older, .dequeue (.released earlier older) ∈ before ∧
      earlier.toNat + capacity.value = pos.toNat := by
  have reuses := RingProtocol.reuses_of_runs capacity.atLeastTwo refines.run
  have claimed : .claimedTail (some producer) (toPosition 0 pos) item ∈
      before.filterMap (Event.label 0) := refines.trace.of_label split rfl
  rw [split, List.filterMap_append] at reuses
  obtain ⟨front, ⟨rest, cut⟩, freed⟩ := reuses.of_append.of_mem claimed
  obtain ⟨agent, older, released⟩ := freed (pos.toNat - capacity.value) (Nat.zero_le _)
    (by rw [toPosition_zero]; omega)
  have inside : .released agent (pos.toNat - capacity.value) older ∈
      before.filterMap (Event.label 0) := by
    rw [cut]
    exact List.mem_append_left _ released
  obtain ⟨event, member, shown⟩ := List.mem_filterMap.mp inside
  obtain ⟨earlier, same, rfl⟩ := label_released shown
  rw [toPosition_zero] at same
  exact ⟨earlier, older, member, by omega⟩

theorem claimed?_position {state : Option (EnqueueState α)} (claimed : claimed? state = some pos) :
    (EnqueueState.hold? 0 state).position? = some (toPosition 0 pos) := by
  cases state with
  | none => cases claimed
  | some state => cases state <;> cases claimed <;> rfl

theorem unreleased?_position {state : Option (DequeueState α)}
    (held : unreleased? state = some pos) :
    (hold? 0 state).position? = some (toPosition 0 pos) := by
  cases state with
  | none => cases held
  | some state => cases state <;> cases held <;> rfl

/-- What a producer publishes later is returned later. -/
theorem inOrder_of (refines : Refines 0 storage events queue) {first second : QueueSequence}
    {later : α}
    (order : [.enqueue producer (.published first item),
      .enqueue producer (.published second later)].Sublist events)
    (split : events = before ++ .dequeue (.returned second later) :: after) :
    .dequeue (.returned first item) ∈ before := by
  have inOrder := RingProtocol.inOrder_of_runs capacity.atLeastTwo (Nat.dvd_zero _) refines.run
  obtain ⟨front, rest, cut, publishedIn, laterIn⟩ := List.cons_sublist_iff.mp order
  obtain ⟨middle, last, rfl⟩ := List.append_of_mem (List.singleton_sublist.mp laterIn)
  rw [← List.append_assoc] at cut
  have increasing := inOrder.of_label cut rfl
  have shown : .published (some producer) (toPosition 0 first) item ∈
      (front ++ middle).filterMap (Event.label 0) :=
    (mem_labels_iff rfl).mpr (List.mem_append_left _ publishedIn)
  have smaller : toPosition 0 first < toPosition 0 second := increasing _ _ shown
  rw [toPosition_zero, toPosition_zero] at smaller
  have number := (headOrder_of refines split).1
  have below : first.toNat < tally Event.returns before := by omega
  obtain ⟨found, member⟩ := exists_returned refines below split
  have published : .enqueue producer (.published first item) ∈ events := by
    rw [cut]
    exact List.mem_append_left _ (List.mem_append_left _ publishedIn)
  have returned : .dequeue (.returned first found) ∈ events := by
    rw [split]
    exact List.mem_append_left _ member
  obtain rfl := refines.returned_item published returned
  exact member

/-- Every interleaving of any number of producers with one consumer delivers each
item once and each producer's items in order, as long as fewer than 2^63 positions
are claimed. -/
theorem mpsc_delivers (capacity : QueueCapacity) (storage : Fin capacity.value → α)
    (events : List (Event α)) (queue : MPSCQueue α capacity)
    (run : (system α capacity).Runs (constructed storage) events queue)
    (few : tally Event.claimsTail events < 2 ^ 63) : Delivers events queue := by
  have refines : Refines 0 storage events queue := refines_of_runs (Nat.dvd_zero _) run few
  have consistent := refines.consistent (Nat.dvd_zero _)
  constructor
  · intro before after producer pos item split
    have order := refines.trace.of_label split rfl
    rw [RingProtocol.Explains, tally_claimsTail, toPosition_zero, Nat.zero_add] at order
    exact order
  · intro before after pos item split
    obtain ⟨number, released⟩ := headOrder_of refines split
    obtain ⟨producer, _, claimed⟩ := published_of_released (refines.trace_front split) released
    exact ⟨number, producer, claimed⟩
  · intro before after pos item split
    obtain ⟨_, ⟨agent, published⟩, _⟩ := refines.trace.of_label split rfl
    obtain ⟨wrote, claimed⟩ := RingProtocol.published_explained (refines.trace_front split) published
    obtain ⟨event, _, shown⟩ := List.mem_filterMap.mp published
    obtain ⟨producer, rfl⟩ := label_published shown
    exact ⟨producer, (mem_labels_iff rfl).mp claimed, (mem_labels_iff rfl).mp wrote,
      (mem_labels_iff rfl).mp published⟩
  · exact returnsOnce_of refines
  · exact fun producer pos item published => nothingLost_of refines few published
  · exact fun before after producer pos item split again => releasedFirst_of refines split again
  · intro producer other pos second mine theirs same
    have slots : (SlotRing.slotOf (toPosition 0 pos) : Fin capacity.value) =
        SlotRing.slotOf (toPosition 0 second) := by
      rw [← index_eq_slotOf capacity 0 pos, ← index_eq_slotOf capacity 0 second, same]
    have one : ((queue.protocolOf 0).holds (some producer)).position? = some (toPosition 0 pos) :=
      claimed?_position mine
    have another : ((queue.protocolOf 0).holds (some other)).position? =
        some (toPosition 0 second) := claimed?_position theirs
    exact Option.some_injective _ (consistent.exclusive one another slots)
  · intro producer pos second mine theirs same
    have slots : (SlotRing.slotOf (toPosition 0 pos) : Fin capacity.value) =
        SlotRing.slotOf (toPosition 0 second) := by
      rw [← index_eq_slotOf capacity 0 pos, ← index_eq_slotOf capacity 0 second, same]
    have one : ((queue.protocolOf 0).holds (some producer)).position? = some (toPosition 0 pos) :=
      claimed?_position mine
    have another : ((queue.protocolOf 0).holds none).position? = some (toPosition 0 second) :=
      unreleased?_position theirs
    cases consistent.exclusive one another slots
  · intro producer first item second later order before after split
    exact inOrder_of refines order split

/-- A producer takes the five steps of an Enqueue that nobody disturbs. -/
def enqueues (producer : Nat) : List (Choice Nat) := List.replicate 5 (.enqueue producer false)

/-- The consumer takes a number of steps. -/
def dequeues (count : Nat) : List (Choice Nat) := List.replicate count (.dequeue 0)

/-- Three items through two slots: the third is enqueued between the two stores
of the Dequeue that frees its slot. -/
theorem window_delivers : ∃ events queue,
    (system Nat twoSlots).Runs (constructed fun _ => 0) events queue ∧ Delivers events queue ∧
    [.enqueue 0 (.published 2 30), .dequeue (.returned 0 10), .dequeue (.returned 1 20),
      .dequeue (.returned 2 30)].Sublist events := by
  obtain ⟨events, queue, run, few, shown⟩ := (system Nat twoSlots).runs_of_exec
    (fun _ _ _ _ => True) (constructed fun _ => 0)
    (.callEnqueue 0 10 :: enqueues 0 ++ .callEnqueue 1 20 :: enqueues 1 ++
      .callDequeue :: dequeues 4 ++ .callEnqueue 0 30 :: enqueues 0 ++ dequeues 1 ++
      .callDequeue :: dequeues 5 ++ .callDequeue :: dequeues 5)
    (fun _ events => tally Event.claimsTail events < 2 ^ 63 ∧
      [.enqueue 0 (.published 2 30), .dequeue (.returned 0 10), .dequeue (.returned 1 20),
        .dequeue (.returned 2 30)].Sublist events)
    (by decide +kernel)
  exact ⟨events, queue, run, mpsc_delivers _ _ _ _ run few, shown⟩

end MPSCQueue
end MmoServer.LockfreeQueue
