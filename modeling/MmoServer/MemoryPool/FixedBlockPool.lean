import Mathlib.Algebra.Group.Nat.Defs
import MmoServer.Std.Ledger

/-!
# FixedBlockPool

A pointer is its address, and null is address 0. The blocks are numbered; the free list
holds the numbers of those that are not out, with its back at the end of the list, and
the marks say which are. Deallocate trusts nothing of its argument: it computes a number
from the address and takes the block back only where the mark is set.
-/

namespace MmoServer.MemoryPool

open MmoServer.Std MmoServer.Semantics

/-- What Allocate hands out: an address and a size. -/
structure MemoryBlock where
  data : UInt64
  size : UInt64
deriving DecidableEq

namespace MemoryBlock

/-- `MemoryBlock{}`. -/
def null : MemoryBlock := ⟨0, 0⟩

/-- MemoryBlock::IsValid. -/
def isValid (block : MemoryBlock) : Bool := block.data ≠ 0

/-- The blocks have no byte in common. -/
def Apart (block other : MemoryBlock) : Prop :=
  block.data.toNat + block.size.toNat ≤ other.data.toNat ∨
    other.data.toNat + other.size.toNat ≤ block.data.toNat

theorem Apart.symm {block other : MemoryBlock} (apart : block.Apart other) : other.Apart block :=
  Or.symm apart

end MemoryBlock

/-- What does not change after the construction. -/
structure Layout where
  storage : UInt64
  blockSize : UInt64
  blockCount : UInt64
deriving DecidableEq

/-- A pool: the numbers that are free, the next one last, and a mark for each number. -/
structure FixedBlockPool extends Layout where
  freeList : List UInt64
  allocated : List UInt8
deriving DecidableEq

/-- What the allocations of the constructor find. -/
structure Heap where
  /-- Where `make_unique` finds so many bytes, none when it throws. -/
  newBytes : UInt64 → Option UInt64
  /-- There is memory for so many numbers on the free list. -/
  reserves : UInt64 → Bool
  /-- There is memory for so many marks. -/
  resizes : UInt64 → Bool

/-- `max_size` of a vector whose elements have so many bytes: no object has more bytes than a
`std::ptrdiff_t` counts. -/
def vectorMaxSize (elementSize : Nat) : Nat := (2 ^ 63 - 1) / elementSize

namespace FixedBlockPool

/-- FixedBlockPool::FixedBlockPool. `make_unique` comes first, then `reserve` of the free list
and `resize` of the marks, either of which throws for more elements than a vector can have and
where there is no memory for them. -/
def construct (heap : Heap) (blockSize blockCount : UInt64) : Except String FixedBlockPool :=
  if blockSize = 0 then .error "FixedBlockPool: blockSize must be > 0"
  else if blockCount = 0 then .error "FixedBlockPool: blockCount must be > 0"
  else
    let totalSize := blockSize * blockCount
    match heap.newBytes totalSize with
    | none => .error "std::bad_alloc"
    | some storage =>
      if vectorMaxSize 8 < blockCount.toNat then .error "vector::reserve"
      else if heap.reserves blockCount = false then .error "std::bad_alloc"
      else if vectorMaxSize 1 < blockCount.toNat then .error "vector::_M_fill_insert"
      else if heap.resizes blockCount = false then .error "std::bad_alloc"
      else
        .ok
          { storage, blockSize, blockCount
            freeList := (List.range blockCount.toNat).map fun i => blockCount - 1 - UInt64.ofNat i
            allocated := List.replicate blockCount.toNat 0 }

/-- FixedBlockPool::Allocate; an access outside `m_allocated` is undefined. -/
def allocate (pool : FixedBlockPool) : Option (MemoryBlock × FixedBlockPool) :=
  match pool.freeList.getLast? with
  | none => some (.null, pool)
  | some index =>
    if index.toNat < pool.allocated.length then
      some
        ({ data := pool.storage + index * pool.blockSize, size := pool.blockSize },
          { pool with
            freeList := pool.freeList.dropLast
            allocated := pool.allocated.set index.toNat 1 })
    else none

/-- FixedBlockPool::Owns. -/
def owns (pool : FixedBlockPool) (block : MemoryBlock) : Bool :=
  if block.isValid = false then false
  else
    let last := pool.storage + pool.blockSize * pool.blockCount
    pool.storage ≤ block.data ∧ block.data < last ∧ block.size = pool.blockSize

/-- FixedBlockPool::Deallocate; the offset is converted to `std::size_t` before it is
divided. -/
def deallocate (pool : FixedBlockPool) (block : MemoryBlock) : Option (Bool × FixedBlockPool) :=
  if pool.owns block = false then some (false, pool)
  else
    let offset := block.data - pool.storage
    if offset % pool.blockSize ≠ 0 then some (false, pool)
    else
      let index := offset / pool.blockSize
      match pool.allocated[index.toNat]? with
      | none => none
      | some mark =>
        if mark = 0 then some (false, pool)
        else
          some
            (true,
              { pool with
                allocated := pool.allocated.set index.toNat 0
                freeList := pool.freeList ++ [index] })

/-- FixedBlockPool::AvailableBlocks. -/
def availableBlocks (pool : FixedBlockPool) : UInt64 := UInt64.ofNat pool.freeList.length

end FixedBlockPool

/-! ## Where the blocks are -/

namespace Layout

variable {layout : Layout} {index other : UInt64} {block : MemoryBlock}

/-- The storage is there, and its addresses do not wrap around. -/
structure Sound (layout : Layout) : Prop where
  present : 0 < layout.storage.toNat
  positive : 0 < layout.blockSize.toNat
  noWrap : layout.storage.toNat + layout.blockSize.toNat * layout.blockCount.toNat < 2 ^ 64

/-- The block of a number, in 64-bit arithmetic. -/
def blockAt (layout : Layout) (index : UInt64) : MemoryBlock :=
  ⟨layout.storage + index * layout.blockSize, layout.blockSize⟩

/-- The block lies inside the storage. -/
def Holds (layout : Layout) (block : MemoryBlock) : Prop :=
  layout.storage.toNat ≤ block.data.toNat ∧
    block.data.toNat + block.size.toNat ≤
      layout.storage.toNat + layout.blockSize.toNat * layout.blockCount.toNat

/-- A numbered block ends before the storage does. -/
theorem blockEnd_le (inside : index < layout.blockCount) :
    index.toNat * layout.blockSize.toNat + layout.blockSize.toNat ≤
      layout.blockSize.toNat * layout.blockCount.toNat := by
  have more : index.toNat + 1 ≤ layout.blockCount.toNat := UInt64.lt_iff_toNat_lt.mp inside
  calc index.toNat * layout.blockSize.toNat + layout.blockSize.toNat
      = layout.blockSize.toNat * (index.toNat + 1) := by
        rw [Nat.mul_comm layout.blockSize.toNat, Nat.succ_mul]
    _ ≤ layout.blockSize.toNat * layout.blockCount.toNat := Nat.mul_le_mul_left _ more

theorem Sound.toNat_data (sound : layout.Sound) (inside : index < layout.blockCount) :
    (layout.blockAt index).data.toNat =
      layout.storage.toNat + index.toNat * layout.blockSize.toNat := by
  have reach := blockEnd_le inside
  have noWrap := sound.noWrap
  rw [blockAt, UInt64.toNat_add, UInt64.toNat_mul, Nat.add_mod_mod]
  exact Nat.mod_eq_of_lt (by omega)

theorem Sound.holds (sound : layout.Sound) (inside : index < layout.blockCount) :
    layout.Holds (layout.blockAt index) := by
  have reach := blockEnd_le inside
  rw [Holds, sound.toNat_data inside, Nat.add_assoc]
  exact ⟨Nat.le_add_right .., Nat.add_le_add_left reach _⟩

theorem Sound.isValid (sound : layout.Sound) (inside : index < layout.blockCount) :
    (layout.blockAt index).isValid = true := by
  have data := sound.toNat_data inside
  have present := sound.present
  rw [MemoryBlock.isValid, decide_eq_true_iff]
  intro zero
  rw [zero, UInt64.toNat_zero] at data
  omega

/-- Two numbered blocks have no byte in common. -/
theorem Sound.apart (sound : layout.Sound) (inside : index < layout.blockCount)
    (within : other < layout.blockCount) (different : index ≠ other) :
    (layout.blockAt index).Apart (layout.blockAt other) := by
  have sides : index.toNat < other.toNat ∨ other.toNat < index.toNat :=
    Nat.lt_or_gt_of_ne fun same => different (UInt64.toNat_inj.mp same)
  have spaced : ∀ {low high : UInt64}, low.toNat < high.toNat →
      low.toNat * layout.blockSize.toNat + layout.blockSize.toNat ≤
        high.toNat * layout.blockSize.toNat := fun below =>
    Nat.succ_mul .. ▸ Nat.mul_le_mul_right _ below
  have size : ∀ number, (layout.blockAt number).size = layout.blockSize := fun _ => rfl
  rw [MemoryBlock.Apart, sound.toNat_data inside, sound.toNat_data within, size, size]
  rcases sides with below | above
  · have gap := spaced below
    omega
  · have gap := spaced above
    omega

theorem Sound.blockAt_inj (sound : layout.Sound) (inside : index < layout.blockCount)
    (within : other < layout.blockCount) (same : layout.blockAt index = layout.blockAt other) :
    index = other := by
  by_contra different
  have apart := sound.apart inside within different
  have positive := sound.positive
  have size : (layout.blockAt other).size = layout.blockSize := rfl
  rw [same, MemoryBlock.Apart, size] at apart
  omega

/-- An owned address at a multiple of the block size is that of a numbered block. -/
theorem Sound.located (sound : layout.Sound) (low : layout.storage ≤ block.data)
    (high : block.data < layout.storage + layout.blockSize * layout.blockCount)
    (size : block.size = layout.blockSize)
    (aligned : (block.data - layout.storage) % layout.blockSize = 0) :
    (block.data - layout.storage) / layout.blockSize < layout.blockCount ∧
      block = layout.blockAt ((block.data - layout.storage) / layout.blockSize) := by
  have noWrap := sound.noWrap
  have offset := UInt64.toNat_sub_of_le _ _ low
  have whole : (layout.storage + layout.blockSize * layout.blockCount).toNat =
      layout.storage.toNat + layout.blockSize.toNat * layout.blockCount.toNat := by
    rw [UInt64.toNat_add, UInt64.toNat_mul, Nat.add_mod_mod]
    exact Nat.mod_eq_of_lt noWrap
  have remainder := congrArg UInt64.toNat aligned
  rw [UInt64.lt_iff_toNat_lt, whole] at high
  rw [UInt64.le_iff_toNat_le] at low
  rw [UInt64.toNat_mod, UInt64.toNat_zero] at remainder
  have inside : (block.data - layout.storage) / layout.blockSize < layout.blockCount := by
    rw [UInt64.lt_iff_toNat_lt, UInt64.toNat_div, Nat.div_lt_iff_lt_mul sound.positive,
      Nat.mul_comm, offset]
    omega
  refine ⟨inside, ?_⟩
  obtain ⟨data, width⟩ := block
  obtain rfl : width = layout.blockSize := size
  have numbered : data = (layout.blockAt ((data - layout.storage) / layout.blockSize)).data := by
    rw [← UInt64.toNat_inj, sound.toNat_data inside, UInt64.toNat_div,
      Nat.div_mul_cancel (Nat.dvd_of_mod_eq_zero remainder), offset]
    exact (Nat.add_sub_cancel' low).symm
  exact congrArg (MemoryBlock.mk · layout.blockSize) numbered

/-- A numbered block is owned, and its number is found again. -/
theorem Sound.found (sound : layout.Sound) (inside : index < layout.blockCount) :
    layout.storage ≤ (layout.blockAt index).data ∧
      (layout.blockAt index).data < layout.storage + layout.blockSize * layout.blockCount ∧
      ((layout.blockAt index).data - layout.storage) % layout.blockSize = 0 ∧
      ((layout.blockAt index).data - layout.storage) / layout.blockSize = index := by
  have data := sound.toNat_data inside
  have reach := blockEnd_le inside
  have noWrap := sound.noWrap
  have positive := sound.positive
  have low : layout.storage ≤ (layout.blockAt index).data := by
    rw [UInt64.le_iff_toNat_le, data]
    exact Nat.le_add_right ..
  have offset : ((layout.blockAt index).data - layout.storage).toNat =
      index.toNat * layout.blockSize.toNat := by
    rw [UInt64.toNat_sub_of_le _ _ low, data, Nat.add_sub_cancel_left]
  refine ⟨low, ?_, ?_, ?_⟩
  · rw [UInt64.lt_iff_toNat_lt, data, UInt64.toNat_add, UInt64.toNat_mul, Nat.add_mod_mod,
      Nat.mod_eq_of_lt noWrap]
    omega
  · rw [← UInt64.toNat_inj, UInt64.toNat_mod, offset, Nat.mul_mod_left]
    rfl
  · rw [← UInt64.toNat_inj, UInt64.toNat_div, offset, Nat.mul_div_cancel _ positive]

end Layout
end MmoServer.MemoryPool
