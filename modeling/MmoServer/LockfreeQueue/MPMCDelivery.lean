import MmoServer.LockfreeQueue.MPMCQueue

/-!
# What MPMCQueue delivers

In every run in which fewer than 2^63 positions are claimed at the tail, the
positions at either end are claimed in order, the item taken at a position is the
one written there, it is returned once, no slot has two users at a time, and the
order of completed Enqueues is the order of the claims by consumers.
-/

namespace MmoServer.LockfreeQueue

open MmoServer.Std MmoServer.Semantics

namespace MPMCQueue

variable {α : Type} {capacity : QueueCapacity}

/-- What the events of a run and the state it reaches guarantee. -/
structure Delivers (events : List (Event α)) (queue : MPMCQueue α capacity) : Prop where
  /-- The k-th successful claim at the tail is for position k. -/
  tailOrder : ∀ before after producer pos item,
    events = before ++ .enqueue producer (.claimed pos item) :: after →
      pos.toNat = tally Event.claimsTail before
  /-- The k-th successful claim at the head is for position k. -/
  headOrder : ∀ before after consumer pos,
    events = before ++ .dequeue consumer (.claimed pos) :: after →
      pos.toNat = tally Event.claimsHead before
  /-- The item taken at a position was written and published by the producer that
  claimed it, and is taken by the consumer that claimed it. -/
  sameItem : ∀ before after consumer pos item,
    events = before ++ .dequeue consumer (.took pos item) :: after →
      .dequeue consumer (.claimed pos) ∈ before ∧ ∃ producer,
        .enqueue producer (.claimed pos item) ∈ before ∧
        .enqueue producer (.wrote pos item) ∈ before ∧
        .enqueue producer (.published pos item) ∈ before
  /-- What is returned was taken. -/
  returnsTaken : ∀ consumer pos item,
    .dequeue consumer (.released pos item) ∈ events → .dequeue consumer (.took pos item) ∈ events
  /-- A position is returned by one Dequeue at most. -/
  returnsOnce : ∀ pos, tally (Event.returns pos) events ≤ 1
  /-- Two threads never have the same slot. -/
  exclusive : ∀ thread other pos second, (queue.threads thread).claimed? = some pos →
    (queue.threads other).claimed? = some second →
    capacity.index pos = capacity.index second → thread = other
  bounds : queue.head.toNat ≤ queue.tail.toNat ∧
    queue.tail.toNat ≤ queue.head.toNat + capacity.value
  /-- If an Enqueue returned before another was called and the item of the second
  is claimed by a consumer, that of the first was claimed before. -/
  inOrder : ∀ producer first item other later itemLater second,
    [.enqueue producer (.published first item), .called other (.enqueue later),
      .enqueue other (.claimed second itemLater)].Sublist events →
    ∀ before after consumer, events = before ++ .dequeue consumer (.claimed second) :: after →
      ∃ earlier, .dequeue earlier (.claimed first) ∈ before

variable {storage : Fin capacity.value → α} {events before after : List (Event α)}
  {queue : MPMCQueue α capacity} {event : Event α} {label : RingEvent Nat α}

/-- An event of the run is explained by those before it. -/
theorem Refines.explained (refines : Refines 0 storage events queue)
    (split : events = before ++ event :: after) (shown : event.label 0 = some label) :
    RingProtocol.Explains 0 (before.filterMap (Event.label 0)) label :=
  (refines.consistent (Nat.dvd_zero _)).explained.of_label split shown

theorem tailOrder_of (refines : Refines 0 storage events queue) {producer : ThreadIndex}
    {pos : QueueSequence} {item : α}
    (split : events = before ++ .enqueue producer (.claimed pos item) :: after) :
    pos.toNat = tally Event.claimsTail before := by
  have order := refines.explained split rfl
  rw [RingProtocol.Explains, tally_claimsTail, toPosition_zero, Nat.zero_add] at order
  exact order

theorem headOrder_of (refines : Refines 0 storage events queue) {consumer : ThreadIndex}
    {pos : QueueSequence} (split : events = before ++ .dequeue consumer (.claimed pos) :: after) :
    pos.toNat = tally Event.claimsHead before := by
  have order := refines.explained split rfl
  rw [RingProtocol.Explains, tally_claimsHead, toPosition_zero, Nat.zero_add] at order
  exact order

/-- An item is taken by the consumer of its position after its producer has published it. -/
theorem sameItem_of (refines : Refines 0 storage events queue) {consumer : ThreadIndex}
    {pos : QueueSequence} {item : α}
    (split : events = before ++ .dequeue consumer (.took pos item) :: after) :
    .dequeue consumer (.claimed pos) ∈ before ∧ ∃ producer,
      .enqueue producer (.claimed pos item) ∈ before ∧
      .enqueue producer (.wrote pos item) ∈ before ∧
      .enqueue producer (.published pos item) ∈ before := by
  obtain ⟨claimed, ⟨producer, published⟩, _⟩ := refines.explained split rfl
  have explained := (refines.consistent (Nat.dvd_zero _)).explained
  rw [split, List.filterMap_append] at explained
  obtain ⟨wrote, owned⟩ := RingProtocol.published_explained explained.of_append published
  exact ⟨(mem_labels_iff rfl).mp claimed, producer, (mem_labels_iff rfl).mp owned,
    (mem_labels_iff rfl).mp wrote, (mem_labels_iff rfl).mp published⟩

/-- A position below one that is claimed at the head was claimed before. -/
theorem claimed_before (refines : Refines 0 storage events queue) {consumer : ThreadIndex}
    {first second : QueueSequence} (below : first.toNat < second.toNat)
    (split : events = before ++ .dequeue consumer (.claimed second) :: after) :
    ∃ earlier, .dequeue earlier (.claimed first) ∈ before := by
  have explained := (refines.consistent (Nat.dvd_zero _)).explained
  have labels : events.filterMap (Event.label 0) = before.filterMap (Event.label 0) ++
      .claimedHead consumer (toPosition 0 second) :: after.filterMap (Event.label 0) := by
    rw [split, List.filterMap_append]
    rfl
  rw [labels] at explained
  rw [← toPosition_zero first, ← toPosition_zero second] at below
  obtain ⟨earlier, member⟩ := RingProtocol.claimedHead_before explained (Nat.zero_le _) below
  exact ⟨earlier, (mem_labels_iff rfl).mp member⟩

/-- What is enqueued after an Enqueue has returned gets a later position. -/
theorem position_lt (refines : Refines 0 storage events queue) {producer other : ThreadIndex}
    {first second : QueueSequence} {item itemLater : α}
    (order : [.enqueue producer (.published first item),
      .enqueue other (.claimed second itemLater)].Sublist events) :
    first.toNat < second.toNat := by
  obtain ⟨front, rest, rfl, publishedIn, claimedIn⟩ := List.cons_sublist_iff.mp order
  obtain ⟨middle, after, rfl⟩ := List.append_of_mem (List.singleton_sublist.mp claimedIn)
  have later := tailOrder_of refines (List.append_assoc front middle _).symm
  have explained := (refines.consistent (Nat.dvd_zero _)).explained
  rw [← List.append_assoc, List.filterMap_append] at explained
  have published : .published producer (toPosition 0 first) item ∈
      (front ++ middle).filterMap (Event.label 0) :=
    (mem_labels_iff rfl).mpr (List.mem_append_left _ publishedIn)
  have claimed := (RingProtocol.published_explained explained.of_append published).2
  have bounds := RingProtocol.claimsTail_numbered.bounds explained.of_append claimed rfl
  rw [tally_claimsTail] at bounds
  have low : toPosition 0 first < 0 + tally Event.claimsTail (front ++ middle) := bounds.2
  rw [toPosition_zero] at low
  omega

theorem claimed?_position {state : ThreadState α} {pos : QueueSequence}
    (claimed : state.claimed? = some pos) :
    (state.hold 0).position? = some (toPosition 0 pos) := by
  cases state with
  | idle => cases claimed
  | enqueue state => cases state <;> cases claimed <;> rfl
  | dequeue state => cases state <;> cases claimed <;> rfl

/-- Every interleaving of any number of producers and consumers delivers each
item once and in claim order, as long as fewer than 2^63 positions are claimed. -/
theorem mpmc_delivers (capacity : QueueCapacity) (storage : Fin capacity.value → α)
    (events : List (Event α)) (queue : MPMCQueue α capacity)
    (run : (system α capacity).Runs (constructed storage) events queue)
    (few : tally Event.claimsTail events < 2 ^ 63) : Delivers events queue := by
  have refines : Refines 0 storage events queue := refines_of_runs (Nat.dvd_zero _) run few
  have consistent := refines.consistent (Nat.dvd_zero _)
  constructor
  · exact fun before after producer pos item split => tailOrder_of refines split
  · exact fun before after consumer pos split => headOrder_of refines split
  · exact fun before after consumer pos item split => sameItem_of refines split
  · intro consumer pos item released
    have returned : .released consumer (toPosition 0 pos) item ∈
        events.filterMap (Event.label 0) := (mem_labels_iff rfl).mpr released
    exact (mem_labels_iff rfl).mp
      (RingProtocol.released_explained consistent.explained returned)
  · intro pos
    have once := RingProtocol.released_once consistent.explained (toPosition 0 pos)
    rwa [tally_returns] at once
  · intro thread other pos second mine theirs same
    apply consistent.exclusive (claimed?_position mine) (claimed?_position theirs)
    rw [← index_eq_slotOf capacity 0 pos, ← index_eq_slotOf capacity 0 second, same]
  · have ordered := consistent.valid.ordered
    have bounded := consistent.valid.bounded
    rw [← toPosition_zero queue.head, ← toPosition_zero queue.tail]
    exact ⟨ordered, bounded⟩
  · intro producer first item other later itemLater second order before after consumer split
    have claims : [.enqueue producer (.published first item),
        .enqueue other (.claimed second itemLater)].Sublist events :=
      ((List.sublist_cons_self _ _).cons_cons _).trans order
    exact claimed_before refines (position_lt refines claims) split

/-- A thread takes a number of steps. -/
def steps (thread : ThreadIndex) (count : Nat) : List (Choice Nat) :=
  List.replicate count (.step thread false 0)

/-- Three items through two slots: the third reuses the slot of the first, and a
second consumer overtakes one that has claimed a position. -/
theorem two_slots_deliver : ∃ events queue,
    (system Nat twoSlots).Runs (constructed fun _ => 0) events queue ∧ Delivers events queue ∧
    [.dequeue 3 (.released 1 20), .dequeue 2 (.released 0 10), .dequeue 3 (.released 2 30)].Sublist
      events := by
  obtain ⟨events, queue, run, few, shown⟩ := (system Nat twoSlots).runs_of_exec
    (fun _ _ _ _ => True) (constructed fun _ => 0)
    (.call 0 (.enqueue 10) :: .call 1 (.enqueue 20) :: steps 0 2 ++ steps 1 2 ++ steps 0 3 ++
      steps 1 5 ++ [.call 2 .dequeue] ++ steps 2 3 ++ [.call 3 .dequeue] ++ steps 3 5 ++
      steps 2 2 ++ [.call 0 (.enqueue 30)] ++ steps 0 5 ++ [.call 3 .dequeue] ++ steps 3 5)
    (fun _ events => tally Event.claimsTail events < 2 ^ 63 ∧
      [.dequeue 3 (.released 1 20), .dequeue 2 (.released 0 10),
        .dequeue 3 (.released 2 30)].Sublist events)
    (by decide +kernel)
  exact ⟨events, queue, run, mpmc_delivers _ _ _ _ run few, shown⟩

end MPMCQueue
end MmoServer.LockfreeQueue
