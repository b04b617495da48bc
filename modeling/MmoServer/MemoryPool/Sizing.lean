import MmoServer.MemoryPool.LiveBlocks

/-!
# The size of the storage

The constructor asks for `blockSize * blockCount` bytes, a product of 64 bits that
nothing checks. Where the index arrays cannot be had it throws, and more than `2^60 - 1`
blocks cannot be numbered; there is no pool then. The numbers that Allocate takes off the
free list are below the block count whatever the calls, and each of them is handed out in
some run, so the blocks end inside the storage exactly when the product does not wrap:
`blocks_within_storage_iff`. Nothing is assumed of the addresses here.
-/

namespace MmoServer.MemoryPool

open MmoServer.Std MmoServer.Semantics

/-- The bytes that the constructor asks for. -/
def Layout.storageSize (layout : Layout) : Nat := (layout.blockSize * layout.blockCount).toNat

/-- The numbered block ends inside the storage. -/
def Layout.Within (layout : Layout) (index : UInt64) : Prop :=
  index.toNat * layout.blockSize.toNat + layout.blockSize.toNat ≤ layout.storageSize

namespace FixedBlockPool

/-- The number of the block that Allocate would return. -/
def nextIndex (pool : FixedBlockPool) : Option UInt64 := pool.freeList.getLast?

/-- The part of well-formedness that does not depend on the addresses. -/
structure Numbered (layout : Layout) (pool : FixedBlockPool) : Prop where
  layout_eq : pool.toLayout = layout
  marks : pool.allocated.length = layout.blockCount.toNat
  free_lt : ∀ index ∈ pool.freeList, index < layout.blockCount

variable {layout : Layout} {pool next start : FixedBlockPool} {index : UInt64} {choice : Call}
  {event : Ledger.Event MemoryBlock} {heap : Heap}
  {blockSize blockCount : UInt64} {rest : List UInt64}

theorem Numbered.allocate_of_free (numbered : Numbered layout pool)
    (list : pool.freeList = rest ++ [index]) :
    pool.allocate = some (pool.blockAt index,
      { pool with freeList := rest, allocated := pool.allocated.set index.toNat 1 }) := by
  have inside : index.toNat < pool.allocated.length := by
    rw [numbered.marks]
    exact UInt64.lt_iff_toNat_lt.mp (numbered.free_lt index (free_of_list list))
  rw [allocate, list, List.getLast?_concat]
  dsimp only
  rw [if_pos inside, List.dropLast_concat]
  rfl

/-- The number at the back leaves the free list. -/
theorem Numbered.taken (numbered : Numbered layout pool)
    (list : pool.freeList = rest ++ [index]) :
    Numbered layout
      { pool with freeList := rest, allocated := pool.allocated.set index.toNat 1 } := by
  refine ⟨numbered.layout_eq, ?_, fun other member => ?_⟩
  · rw [List.length_set]
    exact numbered.marks
  · apply numbered.free_lt
    rw [list]
    exact List.mem_append_left _ member

/-- A number that has a mark comes to the back of the free list. -/
theorem Numbered.given (numbered : Numbered layout pool) {mark : UInt8}
    (found : pool.allocated[index.toNat]? = some mark) :
    Numbered layout
      { pool with
        freeList := pool.freeList ++ [index], allocated := pool.allocated.set index.toNat 0 } := by
  refine ⟨numbered.layout_eq, ?_, fun other member => ?_⟩
  · rw [List.length_set]
    exact numbered.marks
  · rcases List.mem_append.mp member with earlier | back
    · exact numbered.free_lt other earlier
    · obtain rfl := List.mem_singleton.mp back
      rw [UInt64.lt_iff_toNat_lt, ← numbered.marks]
      exact (List.getElem?_eq_some_iff.mp found).1

/-- Deallocate changes nothing, or takes a number with a mark back. -/
theorem deallocate_cases {block : MemoryBlock} {returned : Bool}
    (done : pool.deallocate block = some (returned, next)) :
    next = pool ∨ ∃ index mark, pool.allocated[index.toNat]? = some mark ∧
      next = { pool with
        freeList := pool.freeList ++ [index], allocated := pool.allocated.set index.toNat 0 } := by
  rw [deallocate] at done
  split at done
  · cases done
    exact .inl rfl
  · dsimp only at done
    split at done
    · cases done
      exact .inl rfl
    · split at done
      · cases done
      · next mark found =>
        split at done
        · cases done
          exact .inl rfl
        · cases done
          exact .inr ⟨_, mark, found, rfl⟩

/-- No call brings a number from outside onto the free list. -/
theorem Numbered.step (numbered : Numbered layout pool)
    (transition : system.step pool choice = some (next, event)) : Numbered layout next := by
  cases choice with
  | allocate =>
      obtain ⟨⟨block, after⟩, done, same⟩ := Option.map_eq_some_iff.mp transition
      cases same
      rcases List.eq_nil_or_concat pool.freeList with empty | ⟨rest, index, list⟩
      · rw [allocate, empty] at done
        cases done
        exact numbered
      · rw [List.concat_eq_append] at list
        rw [numbered.allocate_of_free list] at done
        cases done
        exact numbered.taken list
  | deallocate block =>
      obtain ⟨⟨returned, after⟩, done, same⟩ := Option.map_eq_some_iff.mp transition
      cases same
      rcases deallocate_cases done with rfl | ⟨index, mark, found, rfl⟩
      · exact numbered
      · exact numbered.given found

theorem Numbered.run {events : List (Ledger.Event MemoryBlock)} (numbered : Numbered layout start)
    (run : system.Runs start events pool) : Numbered layout pool := by
  induction run with
  | refl => exact numbered
  | step _ transition _ ih => exact ih.step transition

/-- Every number on the free list is the next one after enough calls of Allocate. -/
theorem Numbered.reaches (numbered : Numbered layout pool) {behind : List UInt64}
    (list : pool.freeList = rest ++ index :: behind) :
    ∃ events later, system.Runs pool events later ∧ later.nextIndex = some index := by
  induction behind using List.reverseRecOn generalizing pool with
  | nil => exact ⟨[], pool, .refl, by rw [nextIndex, list, List.getLast?_concat]⟩
  | append_singleton behind back ih =>
      rw [← List.cons_append, ← List.append_assoc] at list
      obtain ⟨events, later, run, reached⟩ := ih (numbered.taken list) rfl
      have first : system.step pool .allocate = some _ :=
        call_allocate (numbered.allocate_of_free list)
      exact ⟨_, later, .trans (.step .refl first trivial) run, reached⟩

/-! ## The constructed pool -/

/-- All the numbers below the block count are free in a new pool, and no others. -/
theorem numbered_of_construct (constructed : construct heap blockSize blockCount = .ok start) :
    Numbered start.toLayout start ∧ ∀ index, index < blockCount → index ∈ start.freeList := by
  obtain ⟨-, -, -, -, rfl, free, marks⟩ := of_construct constructed
  refine ⟨⟨rfl, ?_, fun index member => ?_⟩, fun index inside => ?_⟩
  · rw [marks, List.length_replicate]
  · rw [free] at member
    exact mem_seeds.mp member
  · rw [free]
    exact mem_seeds.mpr inside

theorem toNat_pred (positive : blockCount ≠ 0) :
    (blockCount - 1).toNat + 1 = blockCount.toNat := by
  have one : (1 : UInt64).toNat = 1 := rfl
  have some_ : 1 ≤ blockCount.toNat :=
    Nat.one_le_iff_ne_zero.mpr fun zero => positive (UInt64.toNat_inj.mp zero)
  rw [UInt64.toNat_sub_of_le, one]
  · exact Nat.sub_add_cancel some_
  · rw [UInt64.le_iff_toNat_le, one]
    exact some_

/-- The last block ends where the product of the two sizes does. -/
theorem lastEnd (positive : blockCount ≠ 0) :
    (blockCount - 1).toNat * blockSize.toNat + blockSize.toNat =
      blockSize.toNat * blockCount.toNat := by
  rw [← toNat_pred positive, ← Nat.succ_mul, Nat.mul_comm]

/-- A product of 64 bits is no smaller than the product exactly when it has not wrapped. -/
theorem le_toNat_mul_iff : blockSize.toNat * blockCount.toNat ≤ (blockSize * blockCount).toNat ↔
    blockSize.toNat * blockCount.toNat < 2 ^ 64 := by
  rw [UInt64.toNat_mul]
  constructor
  · intro fits
    exact Nat.lt_of_le_of_lt fits (Nat.mod_lt _ (by decide))
  · intro small
    rw [Nat.mod_eq_of_lt small]

/-- Every block that Allocate can return, whatever the calls before it, ends inside the
storage exactly when the size of the storage has not wrapped. -/
theorem blocks_within_storage_iff
    (constructed : construct heap blockSize blockCount = .ok start) :
    (∀ events pool index, system.Runs start events pool → pool.nextIndex = some index →
      (∃ next, pool.allocate = some (start.blockAt index, next)) ∧ start.Within index) ↔
    blockSize.toNat * blockCount.toNat < 2 ^ 64 := by
  obtain ⟨-, positive, -, size, count, -, -⟩ := of_construct constructed
  obtain ⟨numbered, free⟩ := numbered_of_construct constructed
  have bytes : start.storageSize = (blockSize * blockCount).toNat := by
    rw [Layout.storageSize, size, count]
  constructor
  · intro within
    have last : blockCount - 1 < blockCount := by
      rw [UInt64.lt_iff_toNat_lt, ← toNat_pred positive]
      exact Nat.lt_succ_self _
    obtain ⟨before, behind, list⟩ := List.append_of_mem (free _ last)
    obtain ⟨events, pool, run, reached⟩ := numbered.reaches list
    have fits := (within events pool _ run reached).2
    rw [Layout.Within, bytes, size, lastEnd positive] at fits
    exact le_toNat_mul_iff.mp fits
  · intro small events pool index run taken
    have now := numbered.run run
    obtain ⟨rest, list⟩ := List.getLast?_eq_some_iff.mp taken
    have took := now.allocate_of_free list
    rw [now.layout_eq] at took
    have reach := Layout.blockEnd_le (now.free_lt index (free_of_list list))
    rw [size, count] at reach
    refine ⟨⟨_, took⟩, ?_⟩
    rw [Layout.Within, bytes, size]
    exact Nat.le_trans reach (le_toNat_mul_iff.mpr small)

/-- A pool of two blocks of 64 bytes: behind the first one, and a misaligned block that is
refused, the second ends with the 128 bytes. -/
theorem two_blocks_within_storage :
    ∃ next, allocate ⟨⟨4096, 64, 2⟩, [1], [1, 0]⟩ = some (⟨4160, 64⟩, next) ∧
      1 * 64 + 64 ≤ 128 := by
  have constructed : construct ⟨fun _ => some 4096, fun _ => true, fun _ => true⟩ 64 2 =
      .ok ⟨⟨4096, 64, 2⟩, [1, 0], [0, 0]⟩ := rfl
  have run : system.Runs ⟨⟨4096, 64, 2⟩, [1, 0], [0, 0]⟩
      [.handOut (some ⟨4096, 64⟩), .takeBack ⟨4100, 64⟩ false]
      ⟨⟨4096, 64, 2⟩, [1], [1, 0]⟩ := by
    have first : system.step ⟨⟨4096, 64, 2⟩, [1, 0], [0, 0]⟩ .allocate =
        some (⟨⟨4096, 64, 2⟩, [1], [1, 0]⟩, .handOut (some ⟨4096, 64⟩)) := rfl
    have refused : system.step ⟨⟨4096, 64, 2⟩, [1], [1, 0]⟩ (.deallocate ⟨4100, 64⟩) =
        some (⟨⟨4096, 64, 2⟩, [1], [1, 0]⟩, .takeBack ⟨4100, 64⟩ false) := rfl
    exact .step (.step .refl first trivial) refused trivial
  have within := (blocks_within_storage_iff constructed).mpr (by decide) _ _ 1 run rfl
  obtain ⟨⟨next, taken⟩, fits⟩ := within
  exact ⟨next, taken, fits⟩

/-- So many blocks that a vector cannot number them are never constructed, whatever the size. -/
example : construct ⟨fun _ => some 4096, fun _ => true, fun _ => true⟩ 16 1152921504606846976 =
    .error "vector::reserve" := rfl

/-- Sixteen blocks of 2^60 bytes are constructed in a storage of no bytes at all. -/
theorem pool_size_wraps : ¬ ∀ (heap : Heap) (blockSize blockCount : UInt64)
    (start : FixedBlockPool), construct heap blockSize blockCount = .ok start →
      ∀ events pool index, system.Runs start events pool → pool.nextIndex = some index →
        start.Within index := by
  intro claim
  have fits := claim ⟨fun _ => some 4096, fun _ => true, fun _ => true⟩ 1152921504606846976 16 _
    rfl [] _ 0 .refl rfl
  rw [Layout.Within, Layout.storageSize] at fits
  exact absurd fits (by decide)

end FixedBlockPool
end MmoServer.MemoryPool
