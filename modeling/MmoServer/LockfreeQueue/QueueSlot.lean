import Mathlib.Data.Nat.Bitwise
import MmoServer.Std.RingProtocol

/-!
# Slots and sequence numbers of the lock-free queues

Both queues are arrays of slots indexed by `pos & (Capacity - 1)`, and all their
counters are 64-bit words that wrap around. A queue whose counters start at some
value hands out positions from there on; `toPosition` reads a counter as such a
position, which is exact for as long as fewer than 2^64 have been handed out.
With it a queue's memory is a `SlotRing`.
-/

namespace MmoServer.LockfreeQueue

open MmoServer.Std

/-- The 64-bit positions and sequences of the queue. -/
abbrev QueueSequence := UInt64

/-- The template parameter Capacity, with what its type and the static_asserts
demand of it. -/
structure QueueCapacity where
  value : Nat
  fitsSize : value < 2 ^ 64
  atLeastTwo : 2 ≤ value
  powerOfTwo : value &&& (value - 1) = 0

/-- The smallest queue. -/
def twoSlots : QueueCapacity where
  value := 2
  fitsSize := by decide
  atLeastTwo := by decide
  powerOfTwo := by decide

/-- One slot of `slots_`: its sequence and its item. -/
structure QueueSlot (α : Type) where
  sequence : QueueSequence
  storage : α

namespace QueueCapacity

variable (capacity : QueueCapacity)

instance : NeZero capacity.value := ⟨Nat.ne_of_gt (Nat.lt_of_lt_of_le Nat.two_pos capacity.atLeastTwo)⟩

/-- A capacity is a power of two. -/
theorem exists_exponent : ∃ exponent, exponent ≤ 63 ∧ capacity.value = 2 ^ exponent := by
  have nonzero : capacity.value ≠ 0 := NeZero.ne _
  obtain ⟨exponent, power⟩ :=
    (Nat.and_sub_one_eq_zero_iff_isPowerOfTwo nonzero).mp capacity.powerOfTwo
  refine ⟨exponent, ?_, power⟩
  have below := capacity.fitsSize
  rw [power] at below
  exact Nat.le_of_lt_succ ((Nat.pow_lt_pow_iff_right (by decide)).mp below)

/-- It is at most half of the words. -/
theorem le_half : capacity.value ≤ 2 ^ 63 := by
  obtain ⟨exponent, small, power⟩ := capacity.exists_exponent
  rw [power]
  exact Nat.pow_le_pow_right (by decide) small

/-- It divides the number of words. -/
theorem dvd_words : capacity.value ∣ 2 ^ 64 := by
  obtain ⟨exponent, small, power⟩ := capacity.exists_exponent
  rw [power]
  exact Nat.pow_dvd_pow 2 (Nat.le_succ_of_le small)

/-- Masking with `Capacity - 1` is the remainder. -/
theorem mask_eq_mod (pos : Nat) : pos &&& (capacity.value - 1) = pos % capacity.value := by
  obtain ⟨exponent, _, power⟩ := capacity.exists_exponent
  rw [power, Nat.and_two_pow_sub_one_eq_mod]

/-- The slot of a counter value, `pos & (Capacity - 1)`. -/
def index (pos : QueueSequence) : Fin capacity.value :=
  ⟨pos.toNat &&& (capacity.value - 1), by
    rw [mask_eq_mod]
    exact Nat.mod_lt _ (Nat.pos_of_neZero _)⟩

end QueueCapacity

/-- The slot array, `m_slots`. -/
abbrev QueueSlots (α : Type) (capacity : QueueCapacity) := Fin capacity.value → QueueSlot α

/-- `static_cast<std::intptr_t>(seq - pos)`. -/
def sequenceDiff (seq pos : QueueSequence) : Int64 := (seq - pos).toInt64

/-- Slot `i` of a queue whose counters start at `base` waits for position `base + i`. -/
def constructedSlots {α : Type} {capacity : QueueCapacity} (base : QueueSequence)
    (storage : Fin capacity.value → α) : QueueSlots α capacity :=
  fun slot => { sequence := base + UInt64.ofNat slot, storage := storage slot }

/-! ## The slots of a lap -/

/-- No place behind a counter is its own. -/
theorem add_ofNat_zero (pos : QueueSequence) : pos + UInt64.ofNat 0 = pos := UInt64.add_zero pos

theorem add_ofNat_succ (pos : QueueSequence) (count : Nat) :
    pos + UInt64.ofNat (count + 1) = pos + 1 + UInt64.ofNat count := by
  rw [Nat.add_comm, UInt64.ofNat_add, ← UInt64.add_assoc]
  rfl

namespace QueueCapacity

variable (capacity : QueueCapacity) {count other : Nat}

/-- The slot some places behind that of a counter. -/
theorem index_add (pos : QueueSequence) (count : Nat) :
    (capacity.index (pos + UInt64.ofNat count)).val = (pos.toNat + count) % capacity.value := by
  change (pos + UInt64.ofNat count).toNat &&& (capacity.value - 1) = _
  rw [capacity.mask_eq_mod, UInt64.toNat_add, UInt64.toNat_ofNat', Nat.add_mod_mod,
    Nat.mod_mod_of_dvd _ capacity.dvd_words]

/-- Within one lap every place has a slot of its own. -/
theorem index_add_inj (pos : QueueSequence) (less : count < capacity.value)
    (otherLess : other < capacity.value) :
    capacity.index (pos + UInt64.ofNat count) = capacity.index (pos + UInt64.ofNat other) ↔
      count = other := by
  constructor
  · intro same
    have places := congrArg Fin.val same
    rw [capacity.index_add, capacity.index_add] at places
    have offsets : count % capacity.value = other % capacity.value :=
      Nat.ModEq.add_left_cancel' pos.toNat places
    rwa [Nat.mod_eq_of_lt less, Nat.mod_eq_of_lt otherLess] at offsets
  · rintro rfl
    rfl

/-- A lap later the slot is the same. -/
theorem index_add_capacity (pos : QueueSequence) :
    capacity.index (pos + UInt64.ofNat capacity.value) = capacity.index pos := by
  apply Fin.ext
  have here := capacity.index_add pos 0
  rw [Nat.add_zero, add_ofNat_zero] at here
  rw [capacity.index_add, here, Nat.add_mod_right]

end QueueCapacity

/-! ## Counters as positions -/

/-- A counter value as a position, for counters that started at `start`. -/
def toPosition (start : Nat) (pos : QueueSequence) : Nat := start + (pos - UInt64.ofNat start).toNat

variable {start count : Nat} {pos seq other : QueueSequence}

/-- No two words are the same position of a window. -/
theorem toPosition_injective (start : Nat) : Function.Injective (toPosition start) := by
  intro pos other same
  have equal : pos - UInt64.ofNat start = other - UInt64.ofNat start :=
    UInt64.toNat_inj.mp (Nat.add_left_cancel same)
  calc pos = pos - UInt64.ofNat start + UInt64.ofNat start := (UInt64.sub_add_cancel _ _).symm
    _ = other - UInt64.ofNat start + UInt64.ofNat start := by rw [equal]
    _ = other := UInt64.sub_add_cancel _ _

theorem toPosition_zero (pos : QueueSequence) : toPosition 0 pos = pos.toNat := by
  simp [toPosition]

/-- Adding to a counter advances its position, as long as it does not pass 2^64 positions. -/
theorem toPosition_add (inside : toPosition start pos + count < start + 2 ^ 64) :
    toPosition start (pos + UInt64.ofNat count) = toPosition start pos + count := by
  have distance : pos + UInt64.ofNat count - UInt64.ofNat start =
      pos - UInt64.ofNat start + UInt64.ofNat count := by
    rw [UInt64.sub_eq_add_neg, UInt64.sub_eq_add_neg, UInt64.add_assoc, UInt64.add_assoc,
      UInt64.add_comm (UInt64.ofNat count)]
  have small : (pos - UInt64.ofNat start).toNat + count < 2 ^ 64 := by
    rw [toPosition] at inside
    omega
  rw [toPosition, distance, UInt64.toNat_add, UInt64.toNat_ofNat', Nat.add_mod_mod,
    Nat.mod_eq_of_lt small, toPosition, Nat.add_assoc]

/-- The next word is the next position, inside the window. -/
theorem toPosition_succ (inside : toPosition start pos + 1 < start + 2 ^ 64) :
    toPosition start (pos + 1) = toPosition start pos + 1 := toPosition_add inside

/-- The start itself is position `start`. -/
theorem toPosition_start (start : Nat) : toPosition start (UInt64.ofNat start) = start := by
  rw [toPosition, UInt64.sub_self]
  rfl

/-- A position is its word up to whole turns of the counter. -/
theorem toPosition_mod (start : Nat) (pos : QueueSequence) :
    toPosition start pos % 2 ^ 64 = pos.toNat := by
  have back : pos.toNat = (pos - UInt64.ofNat start + UInt64.ofNat start).toNat := by
    rw [UInt64.sub_add_cancel]
  rw [back, UInt64.toNat_add, UInt64.toNat_ofNat', Nat.add_mod_mod, toPosition, Nat.add_comm]

/-- A counter indexes the slot of its position. -/
theorem index_eq_slotOf (capacity : QueueCapacity) (start : Nat) (pos : QueueSequence) :
    capacity.index pos = SlotRing.slotOf (toPosition start pos) := by
  apply Fin.ext
  change pos.toNat &&& (capacity.value - 1) = toPosition start pos % capacity.value
  rw [capacity.mask_eq_mod, ← toPosition_mod start pos, Nat.mod_mod_of_dvd _ capacity.dvd_words]

/-- The difference is zero exactly for equal words. -/
theorem sequenceDiff_eq_zero_iff : sequenceDiff seq pos = 0 ↔ seq = pos := by
  constructor
  · intro same
    have words : seq - pos = 0 := congrArg Int64.toUInt64 same
    calc seq = seq - pos + pos := (UInt64.sub_add_cancel _ _).symm
      _ = pos := by rw [words, UInt64.zero_add]
  · rintro rfl
    rw [sequenceDiff, UInt64.sub_self]
    rfl

/-- A difference is negative when it fills half of the words. -/
theorem sequenceDiff_neg_iff : sequenceDiff seq pos < 0 ↔ 2 ^ 63 ≤ (seq - pos).toNat := by
  have signed : (sequenceDiff seq pos).toInt = (seq - pos).toBitVec.toInt := rfl
  have words : (seq - pos).toBitVec.toNat = (seq - pos).toNat := rfl
  have below := (seq - pos).toNat_lt
  rw [Int64.lt_iff_toInt_lt, signed, BitVec.toInt_eq_toNat_cond, words]
  have zero : (0 : Int64).toInt = 0 := rfl
  rw [zero]
  split <;> omega

/-- For counters less than half of the words apart the sign compares positions. -/
theorem sequenceDiff_neg_iff_lt (start : Nat)
    (above : toPosition start seq < toPosition start pos + 2 ^ 63)
    (below : toPosition start pos < toPosition start seq + 2 ^ 63) :
    sequenceDiff seq pos < 0 ↔ toPosition start seq < toPosition start pos := by
  rw [sequenceDiff_neg_iff]
  have seqBelow := seq.toNat_lt
  have posBelow := pos.toNat_lt
  simp only [toPosition, UInt64.toNat_sub, UInt64.toNat_ofNat'] at above below ⊢
  omega

end MmoServer.LockfreeQueue
