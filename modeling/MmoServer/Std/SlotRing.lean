import Mathlib.Data.Nat.ModEq
import Mathlib.Logic.Function.Basic

/-!
# Rings of sequence-numbered slots

Positions are handed out in order at the tail and at the head of a ring, and
position `p` is served by slot `p mod capacity`. The slot's sequence number says
how far the slot is: `p` while it waits for the item of position `p`, `p + 1`
while it holds that item, and `p + capacity` when it waits for the next lap.

`Valid` is the invariant of the six operations. It looks at the positions from
`head` to `head + capacity`, which use every slot once: those below `tail` have
an item or a writer, those from `tail` on are free or have a reader of the lap
before.
-/

namespace MmoServer.Std

/-- A ring of slots between two positions, with a sequence in each slot. -/
structure SlotRing (α : Type) (capacity : Nat) where
  head : Nat
  tail : Nat
  sequence : Fin capacity → Nat
  storage : Fin capacity → α

namespace SlotRing

variable {α : Type} {capacity : Nat} [NeZero capacity] {ring : SlotRing α capacity}
  {position other : Nat} {item : α}

/-- The slot that serves a position. -/
def slotOf (position : Nat) : Fin capacity := Fin.ofNat capacity position

/-- The sequence number of the slot of a position. -/
def sequenceAt (ring : SlotRing α capacity) (position : Nat) : Nat :=
  ring.sequence (slotOf position)

/-- What the slot of a position stores. -/
def storageAt (ring : SlotRing α capacity) (position : Nat) : α :=
  ring.storage (slotOf position)

/-! ## The operations -/

/-- Hand out the position at the tail. -/
def claimTail (ring : SlotRing α capacity) : SlotRing α capacity :=
  { ring with tail := ring.tail + 1 }

/-- Hand out the position at the head. -/
def claimHead (ring : SlotRing α capacity) : SlotRing α capacity :=
  { ring with head := ring.head + 1 }

/-- Store into the slot of a position. -/
def store (ring : SlotRing α capacity) (position : Nat) (item : α) : SlotRing α capacity :=
  { ring with storage := Function.update ring.storage (slotOf position) item }

/-- Say that the slot of a position holds its item. -/
def publish (ring : SlotRing α capacity) (position : Nat) : SlotRing α capacity :=
  { ring with sequence := Function.update ring.sequence (slotOf position) (position + 1) }

/-- Say that the slot of a position is free for the next lap. -/
def release (ring : SlotRing α capacity) (position : Nat) : SlotRing α capacity :=
  { ring with sequence := Function.update ring.sequence (slotOf position) (position + capacity) }

/-- One change of the ring. -/
inductive Operation (α : Type) where
  | claimTail
  | claimHead
  | store (position : Nat) (item : α)
  | publish (position : Nat)
  | release (position : Nat)

/-- One operation on the ring. -/
def apply (ring : SlotRing α capacity) : Operation α → SlotRing α capacity
  | .claimTail => ring.claimTail
  | .claimHead => ring.claimHead
  | .store position item => ring.store position item
  | .publish position => ring.publish position
  | .release position => ring.release position

/-! ## The invariant -/

/-- What the sequences say of the positions, and the positions of each other. -/
structure Valid (ring : SlotRing α capacity) : Prop where
  ordered : ring.head ≤ ring.tail
  bounded : ring.tail ≤ ring.head + capacity
  pending : ∀ position, ring.head ≤ position → position < ring.tail →
    ring.sequenceAt position = position ∨ ring.sequenceAt position = position + 1
  vacant : ∀ position, ring.tail ≤ position → position < ring.head + capacity →
    ring.sequenceAt position = position ∨
      (capacity ≤ position ∧ ring.sequenceAt position + capacity = position + 1)

/-- The position has been claimed at the tail and is not published. -/
structure Writes (ring : SlotRing α capacity) (position : Nat) : Prop where
  unclaimed : ring.head ≤ position
  claimed : position < ring.tail
  sequence : ring.sequenceAt position = position

/-- The position has been claimed at the head and is not released. -/
structure Reads (ring : SlotRing α capacity) (position : Nat) : Prop where
  claimed : position < ring.head
  near : ring.tail ≤ position + capacity
  sequence : ring.sequenceAt position = position + 1

/-- The position holds its item and has not been claimed at the head. -/
structure Ready (ring : SlotRing α capacity) (position : Nat) : Prop where
  unclaimed : ring.head ≤ position
  claimed : position < ring.tail
  sequence : ring.sequenceAt position = position + 1

/-- No slot is being written or read. -/
structure Quiet (ring : SlotRing α capacity) : Prop where
  unwritten : ∀ position, ¬ ring.Writes position
  unread : ∀ position, ¬ ring.Reads position

/-- When an operation may be applied. -/
def Permits (ring : SlotRing α capacity) : Operation α → Prop
  | .claimTail => ring.sequenceAt ring.tail = ring.tail
  | .claimHead => ring.sequenceAt ring.head = ring.head + 1
  | .store position _ => ring.Writes position ∨ ring.Reads position
  | .publish position => ring.Writes position
  | .release position => ring.Reads position

/-- The tail was seen at a position and its slot was seen free. -/
def SeenFree (ring : SlotRing α capacity) (position : Nat) : Prop :=
  position ≤ ring.tail ∧ (position = ring.tail → ring.sequenceAt position = position)

/-- The head was seen at a position and its slot was seen filled. -/
def SeenFilled (ring : SlotRing α capacity) (position : Nat) : Prop :=
  position ≤ ring.head ∧ (position = ring.head → ring.sequenceAt position = position + 1)

/-! ## Slots and positions -/

/-- Positions share a slot when they differ by whole laps. -/
theorem slotOf_eq_iff : (slotOf position : Fin capacity) = slotOf other ↔
    position % capacity = other % capacity := by
  rw [Fin.ext_iff]
  rfl

/-- Different positions of one lap have different slots. -/
theorem eq_of_slotOf_eq (same : (slotOf position : Fin capacity) = slotOf other)
    (after : position ≤ other) (near : other < position + capacity) : position = other := by
  have divides := (Nat.modEq_iff_dvd' after).mp (slotOf_eq_iff.mp same)
  have equal := Nat.eq_zero_of_dvd_of_lt divides (by omega)
  omega

/-- Neighbouring positions have different slots. -/
theorem slotOf_succ_ne (several : 2 ≤ capacity) :
    (slotOf (position + 1) : Fin capacity) ≠ slotOf position := by
  intro same
  have equal := eq_of_slotOf_eq same.symm (Nat.le_succ position) (by omega)
  omega

/-- A lap later it is the same slot. -/
theorem slotOf_add_capacity : (slotOf (position + capacity) : Fin capacity) = slotOf position := by
  rw [slotOf_eq_iff, Nat.add_mod_right]

/-- A lap later it is the same sequence. -/
theorem sequenceAt_add_capacity : ring.sequenceAt (position + capacity) = ring.sequenceAt position :=
  congrArg ring.sequence slotOf_add_capacity

@[simp] theorem sequenceAt_claimHead : ring.claimHead.sequenceAt position = ring.sequenceAt position :=
  rfl

theorem sequenceAt_publish_self : (ring.publish position).sequenceAt position = position + 1 :=
  Function.update_self ..

/-- Publishing touches no other slot. -/
theorem sequenceAt_publish_of_ne (apart : (slotOf position : Fin capacity) ≠ slotOf other) :
    (ring.publish other).sequenceAt position = ring.sequenceAt position :=
  Function.update_of_ne apart ..

theorem sequenceAt_release_self :
    (ring.release position).sequenceAt position = position + capacity := Function.update_self ..

/-- Releasing touches no other slot. -/
theorem sequenceAt_release_of_ne (apart : (slotOf position : Fin capacity) ≠ slotOf other) :
    (ring.release other).sequenceAt position = ring.sequenceAt position :=
  Function.update_of_ne apart ..

theorem storageAt_store_self : (ring.store position item).storageAt position = item :=
  Function.update_self ..

/-- Storing touches no other slot. -/
theorem storageAt_store_of_ne (apart : (slotOf position : Fin capacity) ≠ slotOf other) :
    (ring.store other item).storageAt position = ring.storageAt position :=
  Function.update_of_ne apart ..

/-- Slots whose sequence numbers differ are different. -/
theorem slotOf_ne_of_sequence (ring : SlotRing α capacity)
    (differ : ring.sequenceAt position ≠ ring.sequenceAt other) :
    (slotOf position : Fin capacity) ≠ slotOf other :=
  fun same => differ (congrArg ring.sequence same)

/-! ## Slots in different use are different -/

/-- Two positions that are being written have different slots. -/
theorem Writes.slot_ne (writes : ring.Writes position) (also : ring.Writes other)
    (differ : position ≠ other) : (slotOf position : Fin capacity) ≠ slotOf other := by
  apply slotOf_ne_of_sequence ring
  rw [writes.sequence, also.sequence]
  exact differ

/-- Two positions that are being read have different slots. -/
theorem Reads.slot_ne (reads : ring.Reads position) (also : ring.Reads other)
    (differ : position ≠ other) : (slotOf position : Fin capacity) ≠ slotOf other := by
  apply slotOf_ne_of_sequence ring
  rw [reads.sequence, also.sequence]
  omega

/-- A slot that is being written holds no item that is ready. -/
theorem Writes.slot_ne_ready (writes : ring.Writes position) (valid : ring.Valid)
    (ready : ring.Ready other) : (slotOf position : Fin capacity) ≠ slotOf other := by
  intro same
  have sequences : ring.sequenceAt position = ring.sequenceAt other := congrArg ring.sequence same
  obtain ⟨low, high, waits⟩ := writes
  obtain ⟨lowToo, highToo, filled⟩ := ready
  have bounded := valid.bounded
  rcases Nat.le_total position other with before | after
  · have equal := eq_of_slotOf_eq same before (by omega)
    omega
  · have equal := eq_of_slotOf_eq same.symm after (by omega)
    omega

/-- A slot that is being read is not being written. -/
theorem Reads.slot_ne_writes (reads : ring.Reads position) (writes : ring.Writes other) :
    (slotOf position : Fin capacity) ≠ slotOf other := by
  intro same
  obtain ⟨low, near, _⟩ := reads
  obtain ⟨above, high, _⟩ := writes
  have equal := eq_of_slotOf_eq same (by omega) (by omega)
  omega

/-- A slot that is being read holds no other item that is ready. -/
theorem Reads.slot_ne_ready (reads : ring.Reads position) (ready : ring.Ready other) :
    (slotOf position : Fin capacity) ≠ slotOf other := by
  intro same
  obtain ⟨low, near, _⟩ := reads
  obtain ⟨above, high, _⟩ := ready
  have equal := eq_of_slotOf_eq same (by omega) (by omega)
  omega

/-! ## What the operations keep -/

variable {operation : Operation α}

/-- A free slot at the tail means that the ring is not full. -/
theorem Valid.not_full (valid : ring.Valid) (several : 2 ≤ capacity)
    (free : ring.sequenceAt ring.tail = ring.tail) : ring.tail < ring.head + capacity := by
  have bounded := valid.bounded
  by_contra full
  have lap : ring.tail = ring.head + capacity := by omega
  have front := valid.pending ring.head (Nat.le_refl _) (by omega)
  have same : ring.sequenceAt ring.tail = ring.sequenceAt ring.head := by
    rw [lap, sequenceAt_add_capacity]
  omega

/-- A filled slot at the head means that the ring is not empty. -/
theorem Valid.not_empty (valid : ring.Valid) (several : 2 ≤ capacity)
    (filled : ring.sequenceAt ring.head = ring.head + 1) : ring.head < ring.tail := by
  by_contra empty
  have front := valid.vacant ring.head (by omega) (by omega)
  omega

/-- Claiming at the tail keeps the ring valid where the slot is free. -/
theorem Valid.claimTail (valid : ring.Valid) (several : 2 ≤ capacity)
    (free : ring.sequenceAt ring.tail = ring.tail) : ring.claimTail.Valid := by
  constructor
  · exact Nat.le_succ_of_le valid.ordered
  · exact valid.not_full several free
  · intro position low high
    rcases Nat.lt_succ_iff_lt_or_eq.mp high with earlier | rfl
    · exact valid.pending position low earlier
    · exact .inl free
  · intro position low high
    exact valid.vacant position (Nat.le_of_succ_le low) high

/-- Claiming at the head keeps the ring valid where the slot is filled. -/
theorem Valid.claimHead (valid : ring.Valid) (several : 2 ≤ capacity)
    (filled : ring.sequenceAt ring.head = ring.head + 1) : ring.claimHead.Valid := by
  constructor
  · exact valid.not_empty several filled
  · exact Nat.le_trans valid.bounded (Nat.add_le_add_right (Nat.le_succ _) _)
  · intro position low high
    exact valid.pending position (Nat.le_of_succ_le low) high
  · intro position low high
    have below : position < ring.head + 1 + capacity := high
    by_cases earlier : position < ring.head + capacity
    · exact valid.vacant position low earlier
    · -- The slot of the head turns to the next lap.
      obtain rfl : position = ring.head + capacity := by omega
      rw [sequenceAt_claimHead, sequenceAt_add_capacity]
      omega

/-- Publishing keeps the ring valid. -/
theorem Valid.publish (valid : ring.Valid) (writes : ring.Writes position) :
    (ring.publish position).Valid := by
  obtain ⟨ordered, bounded, pending, vacant⟩ := valid
  obtain ⟨unclaimed, claimed, _⟩ := writes
  refine ⟨ordered, bounded, fun other low high => ?_, fun other low high => ?_⟩
  · change ring.head ≤ other at low
    change other < ring.tail at high
    by_cases same : (slotOf other : Fin capacity) = slotOf position
    · obtain rfl : other = position := by
        rcases Nat.le_total other position with before | after
        · exact eq_of_slotOf_eq same before (by omega)
        · exact (eq_of_slotOf_eq same.symm after (by omega)).symm
      exact .inr sequenceAt_publish_self
    · rw [sequenceAt_publish_of_ne same]
      exact pending other low high
  · change ring.tail ≤ other at low
    change other < ring.head + capacity at high
    have apart : (slotOf other : Fin capacity) ≠ slotOf position := by
      intro same
      have equal := eq_of_slotOf_eq same.symm (by omega) (by omega)
      omega
    rw [sequenceAt_publish_of_ne apart]
    exact vacant other low high

/-- Releasing keeps the ring valid. -/
theorem Valid.release (valid : ring.Valid) (reads : ring.Reads position) :
    (ring.release position).Valid := by
  obtain ⟨ordered, bounded, pending, vacant⟩ := valid
  obtain ⟨claimed, near, _⟩ := reads
  refine ⟨ordered, bounded, fun other low high => ?_, fun other low high => ?_⟩
  · change ring.head ≤ other at low
    change other < ring.tail at high
    have apart : (slotOf other : Fin capacity) ≠ slotOf position := by
      intro same
      have equal := eq_of_slotOf_eq same.symm (by omega) (by omega)
      omega
    rw [sequenceAt_release_of_ne apart]
    exact pending other low high
  · change ring.tail ≤ other at low
    change other < ring.head + capacity at high
    by_cases same : (slotOf other : Fin capacity) = slotOf position
    · -- The slot of the position serves the position one lap later.
      obtain rfl : other = position + capacity := by
        rcases Nat.le_total other (position + capacity) with before | after
        · exact eq_of_slotOf_eq (same.trans slotOf_add_capacity.symm) before (by omega)
        · exact (eq_of_slotOf_eq (slotOf_add_capacity.trans same.symm) after (by omega)).symm
      rw [sequenceAt_add_capacity]
      exact .inl sequenceAt_release_self
    · rw [sequenceAt_release_of_ne same]
      exact vacant other low high

/-- Every permitted operation keeps the ring valid. -/
theorem Valid.apply (valid : ring.Valid) (several : 2 ≤ capacity)
    (permits : ring.Permits operation) : (ring.apply operation).Valid := by
  cases operation with
  | claimTail => exact valid.claimTail several permits
  | claimHead => exact valid.claimHead several permits
  | store => exact ⟨valid.ordered, valid.bounded, valid.pending, valid.vacant⟩
  | publish => exact valid.publish permits
  | release => exact valid.release permits

/-- A writer keeps its slot until it publishes. -/
theorem Writes.apply (writes : ring.Writes position)
    (permits : ring.Permits operation) (unpublished : operation ≠ .publish position) :
    (ring.apply operation).Writes position := by
  obtain ⟨unclaimed, claimed, sequence⟩ := id writes
  cases operation with
  | claimTail => exact ⟨unclaimed, Nat.lt_succ_of_lt claimed, sequence⟩
  | claimHead =>
      have filled : ring.sequenceAt ring.head = ring.head + 1 := permits
      have later : position ≠ ring.head := by
        rintro rfl
        omega
      exact ⟨Nat.lt_of_le_of_ne unclaimed later.symm, claimed, sequence⟩
  | store => exact ⟨unclaimed, claimed, sequence⟩
  | publish other =>
      have apart := writes.slot_ne permits fun same => unpublished (same ▸ rfl)
      exact ⟨unclaimed, claimed, (sequenceAt_publish_of_ne apart).trans sequence⟩
  | release other =>
      have reads : ring.Reads other := permits
      exact ⟨unclaimed, claimed,
        (sequenceAt_release_of_ne (reads.slot_ne_writes writes).symm).trans sequence⟩

/-- A reader keeps its slot until it releases. -/
theorem Reads.apply (reads : ring.Reads position) (several : 2 ≤ capacity)
    (permits : ring.Permits operation) (unreleased : operation ≠ .release position) :
    (ring.apply operation).Reads position := by
  obtain ⟨claimed, near, sequence⟩ := id reads
  cases operation with
  | claimTail =>
      have free : ring.sequenceAt ring.tail = ring.tail := permits
      have closer : ring.tail ≠ position + capacity := by
        intro lap
        rw [lap, sequenceAt_add_capacity] at free
        omega
      exact ⟨claimed, Nat.lt_of_le_of_ne near closer, sequence⟩
  | claimHead => exact ⟨Nat.lt_succ_of_lt claimed, near, sequence⟩
  | store => exact ⟨claimed, near, sequence⟩
  | publish other =>
      have writes : ring.Writes other := permits
      exact ⟨claimed, near,
        (sequenceAt_publish_of_ne (reads.slot_ne_writes writes)).trans sequence⟩
  | release other =>
      have apart := reads.slot_ne permits fun same => unreleased (same ▸ rfl)
      exact ⟨claimed, near, (sequenceAt_release_of_ne apart).trans sequence⟩

/-- A filled slot stays so until its position is claimed at the head. -/
theorem Ready.apply (ready : ring.Ready position) (valid : ring.Valid)
    (permits : ring.Permits operation) (unclaimed : operation = .claimHead → position ≠ ring.head) :
    (ring.apply operation).Ready position ∧
      (ring.apply operation).storageAt position = ring.storageAt position := by
  obtain ⟨low, high, filled⟩ := ready
  cases operation with
  | claimTail => exact ⟨⟨low, Nat.lt_succ_of_lt high, filled⟩, rfl⟩
  | claimHead => exact ⟨⟨Nat.lt_of_le_of_ne low (unclaimed rfl).symm, high, filled⟩, rfl⟩
  | store other item =>
      have apart : (slotOf other : Fin capacity) ≠ slotOf position := by
        rcases permits with writes | reads
        · exact writes.slot_ne_ready valid ⟨low, high, filled⟩
        · exact reads.slot_ne_ready ⟨low, high, filled⟩
      exact ⟨⟨low, high, filled⟩, storageAt_store_of_ne apart.symm⟩
  | publish other =>
      have writes : ring.Writes other := permits
      have apart := writes.slot_ne_ready valid ⟨low, high, filled⟩
      exact ⟨⟨low, high, (sequenceAt_publish_of_ne apart.symm).trans filled⟩, rfl⟩
  | release other =>
      have reads : ring.Reads other := permits
      have apart := reads.slot_ne_ready ⟨low, high, filled⟩
      exact ⟨⟨low, high, (sequenceAt_release_of_ne apart.symm).trans filled⟩, rfl⟩

/-- A position that is ready was so before, or has just been published. -/
theorem Ready.of_apply (ready : (ring.apply operation).Ready position) (valid : ring.Valid)
    (permits : ring.Permits operation) :
    operation = .publish position ∨ ring.Ready position := by
  obtain ⟨unclaimed, claimed, sequence⟩ := ready
  cases operation with
  | claimTail =>
      have free : ring.sequenceAt ring.tail = ring.tail := permits
      change ring.sequenceAt position = position + 1 at sequence
      change position < ring.tail + 1 at claimed
      have earlier : position ≠ ring.tail := by
        rintro rfl
        omega
      exact .inr ⟨unclaimed, by omega, sequence⟩
  | claimHead => exact .inr ⟨Nat.le_of_succ_le unclaimed, claimed, sequence⟩
  | store => exact .inr ⟨unclaimed, claimed, sequence⟩
  | publish other =>
      have writes : ring.Writes other := permits
      change ring.head ≤ position at unclaimed
      change position < ring.tail at claimed
      by_cases same : (slotOf position : Fin capacity) = slotOf other
      · have bounded := valid.bounded
        have low := writes.unclaimed
        have high := writes.claimed
        obtain rfl : position = other := by
          rcases Nat.le_total position other with before | after
          · exact eq_of_slotOf_eq same before (by omega)
          · exact (eq_of_slotOf_eq same.symm after (by omega)).symm
        exact .inl rfl
      · exact .inr ⟨unclaimed, claimed, (sequenceAt_publish_of_ne same).symm.trans sequence⟩
  | release other =>
      have reads : ring.Reads other := permits
      change ring.head ≤ position at unclaimed
      change position < ring.tail at claimed
      have apart : (slotOf position : Fin capacity) ≠ slotOf other := by
        intro same
        have low := reads.claimed
        have near := reads.near
        have equal := eq_of_slotOf_eq same.symm (by omega) (by omega)
        omega
      exact .inr ⟨unclaimed, claimed, (sequenceAt_release_of_ne apart).symm.trans sequence⟩

/-- A position that is being written was so before, or has just been claimed. -/
theorem Writes.of_apply (writes : (ring.apply operation).Writes position) (several : 2 ≤ capacity)
    (permits : ring.Permits operation) :
    (operation = .claimTail ∧ position = ring.tail) ∨
      (ring.Writes position ∧ operation ≠ .publish position) := by
  obtain ⟨unclaimed, claimed, sequence⟩ := writes
  cases operation with
  | claimTail =>
      change position < ring.tail + 1 at claimed
      by_cases last : position = ring.tail
      · exact .inl ⟨rfl, last⟩
      · exact .inr ⟨⟨unclaimed, by omega, sequence⟩, nofun⟩
  | claimHead => exact .inr ⟨⟨Nat.le_of_succ_le unclaimed, claimed, sequence⟩, nofun⟩
  | store => exact .inr ⟨⟨unclaimed, claimed, sequence⟩, nofun⟩
  | publish other =>
      change (ring.publish other).sequenceAt position = position at sequence
      have apart : (slotOf position : Fin capacity) ≠ slotOf other := by
        intro same
        have next : other + 1 = position := by
          rw [← sequence, sequenceAt, same]
          exact sequenceAt_publish_self.symm
        rw [← next] at same
        exact slotOf_succ_ne several same
      rw [sequenceAt_publish_of_ne apart] at sequence
      refine .inr ⟨⟨unclaimed, claimed, sequence⟩, ?_⟩
      intro same
      cases same
      exact apart rfl
  | release other =>
      have reads : ring.Reads other := permits
      change position < ring.tail at claimed
      change (ring.release other).sequenceAt position = position at sequence
      have near := reads.near
      have apart : (slotOf position : Fin capacity) ≠ slotOf other := by
        intro same
        have lap : other + capacity = position := by
          rw [← sequence, sequenceAt, same]
          exact sequenceAt_release_self.symm
        omega
      rw [sequenceAt_release_of_ne apart] at sequence
      exact .inr ⟨⟨unclaimed, claimed, sequence⟩, nofun⟩

/-- A position that is being read was so before, or has just been claimed. -/
theorem Reads.of_apply (reads : (ring.apply operation).Reads position) (several : 2 ≤ capacity)
    (permits : ring.Permits operation) :
    (operation = .claimHead ∧ position = ring.head) ∨
      (ring.Reads position ∧ operation ≠ .release position) := by
  obtain ⟨claimed, near, sequence⟩ := reads
  cases operation with
  | claimTail => exact .inr ⟨⟨claimed, Nat.le_of_succ_le near, sequence⟩, nofun⟩
  | claimHead =>
      change position < ring.head + 1 at claimed
      by_cases last : position = ring.head
      · exact .inl ⟨rfl, last⟩
      · exact .inr ⟨⟨by omega, near, sequence⟩, nofun⟩
  | store => exact .inr ⟨⟨claimed, near, sequence⟩, nofun⟩
  | publish other =>
      have writes : ring.Writes other := permits
      change position < ring.head at claimed
      change (ring.publish other).sequenceAt position = position + 1 at sequence
      have low := writes.unclaimed
      have apart : (slotOf position : Fin capacity) ≠ slotOf other := by
        intro same
        have next : other + 1 = position + 1 := by
          rw [← sequence, sequenceAt, same]
          exact sequenceAt_publish_self.symm
        omega
      rw [sequenceAt_publish_of_ne apart] at sequence
      exact .inr ⟨⟨claimed, near, sequence⟩, nofun⟩
  | release other =>
      change (ring.release other).sequenceAt position = position + 1 at sequence
      have apart : (slotOf position : Fin capacity) ≠ slotOf other := by
        intro same
        have lap : other + capacity = position + 1 := by
          rw [← sequence, sequenceAt, same]
          exact sequenceAt_release_self.symm
        have next : (slotOf (position + 1) : Fin capacity) = slotOf position := by
          rw [← lap, slotOf_add_capacity, same]
        exact slotOf_succ_ne several next
      rw [sequenceAt_release_of_ne apart] at sequence
      refine .inr ⟨⟨claimed, near, sequence⟩, ?_⟩
      intro same
      cases same
      exact apart rfl

/-- What a producer has seen of a free slot stays true while the tail stays. -/
theorem SeenFree.apply (seen : ring.SeenFree position) (several : 2 ≤ capacity)
    (permits : ring.Permits operation) : (ring.apply operation).SeenFree position := by
  obtain ⟨below, free⟩ := seen
  cases operation with
  | claimTail =>
      refine ⟨Nat.le_succ_of_le below, fun same => ?_⟩
      change position = ring.tail + 1 at same
      omega
  | claimHead => exact ⟨below, free⟩
  | store => exact ⟨below, free⟩
  | publish other =>
      have writes : ring.Writes other := permits
      refine ⟨below, fun same => ?_⟩
      change position = ring.tail at same
      have apart : (slotOf position : Fin capacity) ≠ slotOf other := by
        apply slotOf_ne_of_sequence ring
        have high := writes.claimed
        rw [free same, writes.sequence]
        omega
      exact (sequenceAt_publish_of_ne apart).trans (free same)
  | release other =>
      have reads : ring.Reads other := permits
      refine ⟨below, fun same => ?_⟩
      change position = ring.tail at same
      have apart : (slotOf position : Fin capacity) ≠ slotOf other := by
        intro equal
        have sequences : ring.sequenceAt position = ring.sequenceAt other :=
          congrArg ring.sequence equal
        rw [free same, reads.sequence] at sequences
        rw [sequences] at equal
        exact slotOf_succ_ne several equal
      exact (sequenceAt_release_of_ne apart).trans (free same)

/-- What a consumer has seen of a filled slot stays true while the head stays. -/
theorem SeenFilled.apply (seen : ring.SeenFilled position) (several : 2 ≤ capacity)
    (permits : ring.Permits operation) : (ring.apply operation).SeenFilled position := by
  obtain ⟨below, filled⟩ := seen
  cases operation with
  | claimTail => exact ⟨below, filled⟩
  | claimHead =>
      refine ⟨Nat.le_succ_of_le below, fun same => ?_⟩
      change position = ring.head + 1 at same
      omega
  | store => exact ⟨below, filled⟩
  | publish other =>
      have writes : ring.Writes other := permits
      refine ⟨below, fun same => ?_⟩
      change position = ring.head at same
      have apart : (slotOf position : Fin capacity) ≠ slotOf other := by
        intro equal
        have sequences : ring.sequenceAt position = ring.sequenceAt other :=
          congrArg ring.sequence equal
        rw [filled same, writes.sequence] at sequences
        rw [← sequences] at equal
        exact slotOf_succ_ne several equal.symm
      exact (sequenceAt_publish_of_ne apart).trans (filled same)
  | release other =>
      have reads : ring.Reads other := permits
      refine ⟨below, fun same => ?_⟩
      change position = ring.head at same
      have apart : (slotOf position : Fin capacity) ≠ slotOf other := by
        apply slotOf_ne_of_sequence ring
        have low := reads.claimed
        rw [filled same, reads.sequence]
        omega
      exact (sequenceAt_release_of_ne apart).trans (filled same)

/-! ## What a sequence number says -/

/-- Every slot serves a position of the current lap. -/
theorem exists_in_lap (ring : SlotRing α capacity) (position : Nat) : ∃ current,
    ring.head ≤ current ∧ current < ring.head + capacity ∧
      (slotOf current : Fin capacity) = slotOf position := by
  have positive : 0 < capacity := Nat.pos_of_neZero _
  refine ⟨ring.head + (position + capacity * ring.head - ring.head) % capacity,
    Nat.le_add_right _ _, Nat.add_lt_add_left (Nat.mod_lt _ positive) _, ?_⟩
  have enough : ring.head ≤ capacity * ring.head := Nat.le_mul_of_pos_left _ positive
  rw [slotOf_eq_iff, Nat.add_mod_mod, show ring.head + (position + capacity * ring.head - ring.head)
    = position + capacity * ring.head by omega, Nat.add_mul_mod_self_left]

/-- Sequence numbers stay less than a lap ahead of the tail. -/
theorem Valid.sequence_lt (valid : ring.Valid) (position : Nat) :
    ring.sequenceAt position < ring.tail + capacity := by
  obtain ⟨current, low, high, same⟩ := ring.exists_in_lap position
  have ordered := valid.ordered
  have positive : 0 < capacity := Nat.pos_of_neZero _
  have equal : ring.sequenceAt position = ring.sequenceAt current :=
    congrArg ring.sequence same.symm
  rcases Nat.lt_or_ge current ring.tail with before | after
  · rcases valid.pending current low before with waits | filled <;> omega
  · rcases valid.vacant current after high with waits | read <;> omega

/-- Sequence numbers stay within a lap behind the tail. -/
theorem Valid.le_sequence (valid : ring.Valid) (position : Nat) :
    ring.tail ≤ ring.sequenceAt position + capacity := by
  obtain ⟨current, low, high, same⟩ := ring.exists_in_lap position
  have bounded := valid.bounded
  have equal : ring.sequenceAt position = ring.sequenceAt current :=
    congrArg ring.sequence same.symm
  rcases Nat.lt_or_ge current ring.tail with before | after
  · rcases valid.pending current low before with waits | filled <;> omega
  · rcases valid.vacant current after high with waits | read <;> omega

/-- A slot that is behind a position the tail has reached: the ring is full, or
a reader of the lap before has not released it. -/
theorem Valid.behind_tail (valid : ring.Valid) (reached : position ≤ ring.tail)
    (behind : ring.sequenceAt position < position) :
    ring.tail = ring.head + capacity ∨
      ∃ earlier, earlier + capacity = ring.tail ∧ ring.Reads earlier := by
  obtain ⟨current, low, high, same⟩ := ring.exists_in_lap position
  have equal : ring.sequenceAt position = ring.sequenceAt current :=
    congrArg ring.sequence same.symm
  have bounded := valid.bounded
  rcases Nat.lt_or_ge current ring.tail with pending | vacant
  · have front := valid.pending current low pending
    have lap : ¬ position < current + capacity := by
      intro near
      have one := eq_of_slotOf_eq same (by omega) near
      omega
    exact .inl (by omega)
  · rcases valid.vacant current vacant high with waits | ⟨later, read⟩
    · omega
    · have close : current < position + capacity := by omega
      obtain rfl := eq_of_slotOf_eq same.symm (by omega) close
      obtain ⟨earlier, rfl⟩ := Nat.exists_eq_add_of_le' later
      rw [sequenceAt_add_capacity] at read
      exact .inr ⟨earlier, by omega, ⟨by omega, by omega, by omega⟩⟩

/-- A slot that is not filled yet for a position the head has reached: every
claimed position has been claimed at the head, or the writer of the position at
the head has not published it. -/
theorem Valid.behind_head (valid : ring.Valid) (reached : position ≤ ring.head)
    (behind : ring.sequenceAt position < position + 1) :
    ring.head = ring.tail ∨ ring.Writes ring.head := by
  obtain ⟨current, low, high, same⟩ := ring.exists_in_lap position
  have equal : ring.sequenceAt position = ring.sequenceAt current :=
    congrArg ring.sequence same.symm
  have ordered := valid.ordered
  rcases Nat.lt_or_ge current ring.tail with pending | vacant
  · rcases valid.pending current low pending with waits | filled
    · obtain rfl : current = ring.head := by omega
      exact .inr ⟨low, pending, waits⟩
    · omega
  · rcases valid.vacant current vacant high with waits | ⟨later, read⟩
    · exact .inl (by omega)
    · have one := eq_of_slotOf_eq same.symm (by omega) (by omega)
      exact .inl (by omega)

/-! ## Quiet rings -/

/-- Every claimed position of a quiet ring holds its item. -/
theorem Quiet.filled (quiet : ring.Quiet) (valid : ring.Valid) (unclaimed : ring.head ≤ position)
    (claimed : position < ring.tail) : ring.sequenceAt position = position + 1 := by
  rcases valid.pending position unclaimed claimed with waits | filled
  · exact absurd ⟨unclaimed, claimed, waits⟩ (quiet.unwritten position)
  · exact filled

/-- Every other position of its lap is free. -/
theorem Quiet.free (quiet : ring.Quiet) (valid : ring.Valid) (unclaimed : ring.tail ≤ position)
    (inLap : position < ring.head + capacity) : ring.sequenceAt position = position := by
  rcases valid.vacant position unclaimed inLap with waits | ⟨later, read⟩
  · exact waits
  · obtain ⟨earlier, rfl⟩ := Nat.exists_eq_add_of_le' later
    rw [sequenceAt_add_capacity] at read
    exact absurd ⟨by omega, by omega, by omega⟩ (quiet.unread earlier)

/-! ## What the operations establish -/

/-- The position claimed at the tail is to be written. -/
theorem writes_claimTail (valid : ring.Valid) (free : ring.sequenceAt ring.tail = ring.tail) :
    ring.claimTail.Writes ring.tail :=
  ⟨valid.ordered, Nat.lt_succ_self _, free⟩

/-- The position claimed at the head is to be read. -/
theorem reads_claimHead (valid : ring.Valid)
    (filled : ring.sequenceAt ring.head = ring.head + 1) : ring.claimHead.Reads ring.head :=
  ⟨Nat.lt_succ_self _, valid.bounded, filled⟩

/-- In a ring that starts at a multiple of its capacity the first lap is free. -/
theorem sequenceAt_of_start {start : Nat} (lap : capacity ∣ start)
    (sequences : ∀ slot : Fin capacity, ring.sequence slot = start + slot)
    (low : start ≤ position) (high : position < start + capacity) :
    ring.sequenceAt position = position := by
  obtain ⟨laps, rfl⟩ := lap
  obtain ⟨offset, rfl⟩ := Nat.exists_eq_add_of_le low
  have inside : offset < capacity := by omega
  have slot : (slotOf (capacity * laps + offset) : Fin capacity).val = offset := by
    change (capacity * laps + offset) % capacity = offset
    rw [Nat.mul_add_mod, Nat.mod_eq_of_lt inside]
  rw [sequenceAt, sequences, slot]

/-- A ring that starts at a multiple of its capacity is valid. -/
theorem valid_of_start {start : Nat} {sequence : Fin capacity → Nat} {storage : Fin capacity → α}
    (lap : capacity ∣ start) (sequences : ∀ slot, sequence slot = start + slot) :
    Valid { head := start, tail := start, sequence, storage } := by
  refine ⟨Nat.le_refl _, Nat.le_add_right _ _, fun position low high => ?_,
    fun position low high => .inl ?_⟩
  · exact absurd low (Nat.not_le.mpr high)
  · exact sequenceAt_of_start lap sequences low high

end SlotRing
end MmoServer.Std
