import Mathlib.Data.Finset.Card
import Mathlib.Order.Interval.Finset.Nat
import MmoServer.LockfreeQueue.Enqueue

/-!
# Queues over any number of laps

`toPosition` follows a counter for fewer than 2^64 claims. Here it is the other way
round: a run of the ring protocol hands out positions without end, and the memory of a
queue is the words of such a ring, `slotsOf`. What a thread has loaded is the word of a
position that the tail has left behind since; `Tracks` keeps how far. A compare-exchange
compares words, so it can be trusted while the counter has not gone all the way round
since the load.
-/

namespace MmoServer.LockfreeQueue

open MmoServer.Std MmoServer.Semantics

/-! ## Words of positions -/

/-- The word of a position. -/
def toWord (position : Nat) : QueueSequence := UInt64.ofNat position

variable {position other count : Nat}

theorem toWord_toNat (word : QueueSequence) : toWord word.toNat = word := UInt64.ofNat_toNat

theorem toNat_toWord (position : Nat) : (toWord position).toNat = position % 2 ^ 64 :=
  UInt64.toNat_ofNat'

theorem toWord_add (position count : Nat) :
    toWord (position + count) = toWord position + UInt64.ofNat count := UInt64.ofNat_add ..

theorem toWord_succ (position : Nat) : toWord (position + 1) = toWord position + 1 :=
  toWord_add position 1

/-- Positions less than all words apart have different words. -/
theorem toWord_inj (above : position < other + 2 ^ 64) (below : other < position + 2 ^ 64) :
    toWord position = toWord other ↔ position = other := by
  constructor
  · intro same
    have words := congrArg UInt64.toNat same
    rw [toNat_toWord, toNat_toWord] at words
    omega
  · rintro rfl
    rfl

/-- The words of two positions are as far apart as the positions. -/
theorem toNat_toWord_sub (ordered : other ≤ position) (near : position < other + 2 ^ 64) :
    (toWord position - toWord other).toNat = position - other := by
  rw [UInt64.toNat_sub, toNat_toWord, toNat_toWord]
  omega

/-- The mask of a word is the slot of its position. -/
theorem index_toWord (capacity : QueueCapacity) (position : Nat) :
    capacity.index (toWord position) = SlotRing.slotOf position := by
  apply Fin.ext
  change (toWord position).toNat &&& (capacity.value - 1) = position % capacity.value
  rw [capacity.mask_eq_mod, toNat_toWord, Nat.mod_mod_of_dvd _ capacity.dvd_words]

section Slots

variable {α : Type} {capacity : QueueCapacity} {ring : SlotRing α capacity.value}

/-- The slots of a ring, with their sequence numbers as words. -/
def slotsOf (ring : SlotRing α capacity.value) : QueueSlots α capacity := fun slot =>
  { sequence := toWord (ring.sequence slot), storage := ring.storage slot }

/-- The word's slot holds what the position's does. -/
theorem slotsOf_index (position : Nat) : slotsOf ring (capacity.index (toWord position)) =
    { sequence := toWord (ring.sequenceAt position), storage := ring.storageAt position } := by
  rw [index_toWord]
  rfl

/-- Storing at a position stores at its word. -/
theorem slotsOf_store (position : Nat) (item : α) : slotsOf (ring.store position item) =
    QueueSlots.setStorage (slotsOf ring) (toWord position) item := by
  funext slot
  simp only [QueueSlots.setStorage, index_toWord, slotsOf, SlotRing.store]
  by_cases same : slot = SlotRing.slotOf position
  · rw [same, Function.update_self, Function.update_self]
  · rw [Function.update_of_ne same, Function.update_of_ne same]
    rfl

/-- Storing the word of a sequence number. -/
theorem slotsOf_setSequence (position sequence : Nat) :
    slotsOf { ring with
        sequence := Function.update ring.sequence (SlotRing.slotOf position) sequence } =
      QueueSlots.setSequence (slotsOf ring) (toWord position) (toWord sequence) := by
  funext slot
  simp only [QueueSlots.setSequence, index_toWord, slotsOf]
  by_cases same : slot = SlotRing.slotOf position
  · rw [same, Function.update_self, Function.update_self]
  · rw [Function.update_of_ne same, Function.update_of_ne same]
    rfl

/-- So does publishing. -/
theorem slotsOf_publish (position : Nat) : slotsOf (ring.publish position) =
    QueueSlots.setSequence (slotsOf ring) (toWord position) (toWord position + 1) := by
  rw [← toWord_succ]
  exact slotsOf_setSequence position (position + 1)

/-- And releasing. -/
theorem slotsOf_release (position : Nat) : slotsOf (ring.release position) =
    QueueSlots.setSequence (slotsOf ring) (toWord position)
      (toWord position + UInt64.ofNat capacity.value) := by
  rw [← toWord_add]
  exact slotsOf_setSequence position (position + capacity.value)

/-- The ring that starts at a position is the constructed array. -/
theorem slotsOf_startedAt {Agent : Type} (start : Nat) (storage : Fin capacity.value → α) :
    slotsOf (RingProtocol.startedAt start storage : RingProtocol Agent α capacity.value).ring =
      constructedSlots (toWord start) storage := by
  funext slot
  rw [constructedSlots, ← toWord_add]
  rfl

/-- The slot of the tail reads as free only when it is. -/
theorem free_of_word (valid : ring.Valid)
    (same : (slotsOf ring (capacity.index (toWord ring.tail))).sequence = toWord ring.tail) :
    ring.sequenceAt ring.tail = ring.tail := by
  have above := valid.sequence_lt ring.tail
  have below := valid.le_sequence ring.tail
  have small := capacity.le_half
  rw [slotsOf_index] at same
  exact (toWord_inj (by omega) (by omega)).mp same

/-- The slot of the head reads as filled only when it is. -/
theorem filled_of_word (valid : ring.Valid)
    (same : (slotsOf ring (capacity.index (toWord ring.head))).sequence = toWord ring.head + 1) :
    ring.sequenceAt ring.head = ring.head + 1 := by
  have above := valid.sequence_lt ring.head
  have below := valid.le_sequence ring.head
  have ordered := valid.ordered
  have bounded := valid.bounded
  have small := capacity.le_half
  rw [slotsOf_index, ← toWord_succ] at same
  exact (toWord_inj (by omega) (by omega)).mp same

/-- The items that a queue stores: the slots whose sequence number is one past a position
of theirs, which is what Dequeue looks for. -/
def stored (slots : QueueSlots α capacity) : Nat :=
  (Finset.univ.filter fun slot => capacity.index ((slots slot).sequence - 1) = slot).card

/-- A filled slot is stored, and a free one is not. -/
theorem stored_slot_iff (valid : ring.Valid) (quiet : ring.Quiet) (low : ring.head ≤ position)
    (high : position < ring.head + capacity.value) :
    capacity.index ((slotsOf ring (SlotRing.slotOf position)).sequence - 1) =
      SlotRing.slotOf position ↔ position < ring.tail := by
  rw [← index_toWord, slotsOf_index]
  rcases Nat.lt_or_ge position ring.tail with claimed | free
  · rw [quiet.filled valid low claimed, toWord_succ, UInt64.add_sub_cancel]
    exact iff_of_true rfl claimed
  · rw [quiet.free valid free high]
    refine iff_of_false (fun same => ?_) (Nat.not_lt.mpr free)
    -- The slot before is another one, for there are two.
    have places : capacity.index (toWord position - 1 + UInt64.ofNat 0) =
        capacity.index (toWord position - 1 + UInt64.ofNat 1) := by
      rw [add_ofNat_zero, same]
      exact congrArg capacity.index (UInt64.sub_add_cancel (toWord position) 1).symm
    exact absurd ((capacity.index_add_inj _ (Nat.pos_of_neZero _) capacity.atLeastTwo).mp places)
      Nat.zero_ne_one

/-- In a quiet ring as many items are stored as positions are claimed at the tail and not
at the head. -/
theorem stored_slotsOf (valid : ring.Valid) (quiet : ring.Quiet) :
    stored (slotsOf ring) = ring.tail - ring.head := by
  have bounded := valid.bounded
  have places : Finset.univ.filter (fun slot =>
      capacity.index ((slotsOf ring slot).sequence - 1) = slot) =
      (Finset.Ico ring.head ring.tail).image SlotRing.slotOf := by
    ext slot
    simp only [Finset.mem_filter, Finset.mem_univ, true_and, Finset.mem_image, Finset.mem_Ico]
    constructor
    · intro filled
      obtain ⟨current, low, high, same⟩ := ring.exists_in_lap slot.val
      have here : SlotRing.slotOf current = slot := by
        rw [same]
        exact Fin.ext (Nat.mod_eq_of_lt slot.isLt)
      rw [← here] at filled
      exact ⟨current, ⟨low, (stored_slot_iff valid quiet low high).mp filled⟩, here⟩
    · rintro ⟨position, ⟨low, claimed⟩, rfl⟩
      exact (stored_slot_iff valid quiet low (Nat.lt_of_lt_of_le claimed bounded)).mpr claimed
  rw [stored, places, Finset.card_image_of_injOn, Nat.card_Ico]
  intro first one second other same
  rw [Finset.coe_Ico, Set.mem_Ico] at one other
  rcases Nat.le_total first second with before | after
  · exact SlotRing.eq_of_slotOf_eq same before (by omega)
  · exact (SlotRing.eq_of_slotOf_eq same.symm after (by omega)).symm

end Slots

/-! ## Enqueue -/

/-- The compare-exchange of Enqueue has succeeded. -/
def EnqueueEvent.claims {α : Type} : EnqueueEvent α → Bool
  | .claimed _ _ => true
  | _ => false

namespace EnqueueState

variable {Agent α : Type} {capacity : QueueCapacity} {agent : Agent} {since : Nat × Nat}
  {ring nextRing : SlotRing α capacity.value} {hold held : Hold α} {state : EnqueueState α}
  {label : Option (RingEvent Agent α)} {labels : List (RingEvent Agent α)}

/-- A thread in Enqueue on the words of a ring, with what it holds of the ring. `since`
is how far the tail has gone since the thread's last step and since the one before. -/
def Tracks (ring : SlotRing α capacity.value) (hold : Hold α) (since : Nat × Nat) :
    EnqueueState α → Prop
  | .loadTail _ => hold = .none
  | .loadSequence _ pos => hold = .none ∧
      ∃ position, pos = toWord position ∧ position + since.1 = ring.tail
  | .compareExchange _ pos => hold = .none ∧
      ∃ position, pos = toWord position ∧ position + since.2 = ring.tail ∧ ring.SeenFree position
  | .moveIn item pos => ∃ position, pos = toWord position ∧ hold = .writing position item
  | .storeSequence item pos => ∃ position, pos = toWord position ∧ hold = .written position item

/-- A thread that may have returned. -/
def Tracks? (ring : SlotRing α capacity.value) (hold : Hold α) (since : Nat × Nat) :
    Option (EnqueueState α) → Prop
  | none => hold = .none
  | some state => state.Tracks ring hold since

/-- A step of another agent only moves the tail on. -/
theorem Tracks.keep (tracks : state.Tracks ring hold since) {mover : Agent} {mine : Hold α}
    (moves : RingProtocol.Moves ring mover mine nextRing held label)
    (holding : RingProtocol.Holding ring labels mover mine) {more : Nat}
    (tail : nextRing.tail = ring.tail + more) :
    state.Tracks nextRing hold (since.1 + more, since.2 + more) := by
  cases state with
  | loadTail item => exact tracks
  | loadSequence item pos =>
      obtain ⟨free, position, word, behind⟩ := tracks
      exact ⟨free, position, word, by rw [tail, ← behind, Nat.add_assoc]⟩
  | compareExchange item pos =>
      obtain ⟨free, position, word, behind, seen⟩ := tracks
      exact ⟨free, position, word, by rw [tail, ← behind, Nat.add_assoc],
        moves.keep_free capacity.atLeastTwo holding seen⟩
  | moveIn item pos => exact tracks
  | storeSequence item pos => exact tracks

/-- A step on the words of a ring, as a step on the ring. -/
structure Steps (ring : SlotRing α capacity.value) (agent : Agent) (hold : Hold α)
    (since : Nat × Nat) (result : EnqueueStep α capacity) (nextRing : SlotRing α capacity.value)
    (held : Hold α) (label : Option (RingEvent Agent α)) : Prop where
  moves : RingProtocol.Moves ring agent hold nextRing held label
  slots : result.slots = slotsOf nextRing
  tail : result.tail = toWord nextRing.tail
  head : nextRing.head = ring.head
  claims : nextRing.tail = ring.tail + if result.event.claims then 1 else 0
  tracks : Tracks? nextRing held (0, since.1) result.state

/-- Every step of Enqueue is a move on the ring or none, unless the tail has gone all
the way round behind a compare-exchange. -/
theorem step_tracks (agent : Agent) (valid : ring.Valid) (tracks : state.Tracks ring hold since)
    (spurious : Bool)
    (near : (state.step (slotsOf ring) (toWord ring.tail) spurious).event.claims = true →
      since.2 < 2 ^ 64) :
    ∃ nextRing held label, Steps ring agent hold since
      (state.step (slotsOf ring) (toWord ring.tail) spurious) nextRing held label := by
  cases state with
  | loadTail item =>
      obtain rfl : hold = .none := tracks
      exact ⟨ring, .none, none, .stutter, rfl, rfl, rfl, rfl, rfl, ring.tail, rfl, rfl⟩
  | loadSequence item pos =>
      obtain ⟨rfl, position, rfl, behind⟩ := tracks
      refine ⟨ring, .none, none, ?_⟩
      simp only [step]
      split
      · next same =>
        rw [sequenceDiff_eq_zero_iff] at same
        refine ⟨.stutter, rfl, rfl, rfl, rfl, rfl, position, rfl, behind, by omega, ?_⟩
        rintro rfl
        exact free_of_word valid same
      · split
        · exact ⟨.stutter, rfl, rfl, rfl, rfl, rfl⟩
        · exact ⟨.stutter, rfl, rfl, rfl, rfl, rfl⟩
  | compareExchange item pos =>
      obtain ⟨rfl, position, rfl, behind, seen⟩ := tracks
      simp only [step] at near ⊢
      split
      · next succeeded =>
        rw [if_pos succeeded] at near
        have round : since.2 < 2 ^ 64 := near rfl
        obtain rfl : position = ring.tail :=
          ((toWord_inj (by omega) (by omega)).mp succeeded.1).symm
        exact ⟨ring.claimTail, _, _, .move (.claimTail (seen.2 rfl)), rfl,
          (toWord_succ ring.tail).symm, rfl, rfl, ring.tail, rfl, rfl⟩
      · exact ⟨ring, .none, none, .stutter, rfl, rfl, rfl, rfl, rfl, ring.tail, rfl, rfl⟩
  | moveIn item pos =>
      obtain ⟨position, rfl, rfl⟩ := tracks
      exact ⟨_, _, _, .move .write, (slotsOf_store position item).symm, rfl, rfl, rfl, position, rfl,
        rfl⟩
  | storeSequence item pos =>
      obtain ⟨position, rfl, rfl⟩ := tracks
      exact ⟨_, _, _, .move .publish, (slotsOf_publish position).symm, rfl, rfl, rfl, rfl⟩

end EnqueueState
end MmoServer.LockfreeQueue
