import MmoServer.MemoryPool.FixedBlockPool

/-!
# The pool as a set of live blocks

The pool, called with any arguments, refines a ledger of the numbered blocks: a block is
out exactly when its number is marked, and its number is on the free list otherwise.
-/

namespace MmoServer.MemoryPool

open MmoServer.Std MmoServer.Semantics

/-- A call of the pool, with any argument. -/
inductive Call where
  | allocate
  | deallocate (block : MemoryBlock)
deriving DecidableEq

namespace FixedBlockPool

/-- One call, and what its caller sees. -/
def call (pool : FixedBlockPool) : Call → Option (FixedBlockPool × Ledger.Event MemoryBlock)
  | .allocate => pool.allocate.map fun (block, next) =>
      (next, .handOut (if block.isValid then some block else none))
  | .deallocate block => (pool.deallocate block).map fun (returned, next) =>
      (next, .takeBack block returned)

/-- The pool under any sequence of calls. -/
def system : TransitionSystem FixedBlockPool Call (Ledger.Event MemoryBlock) where
  step := call

/-- The number is marked as that of a block that is out. -/
def Marked (pool : FixedBlockPool) (index : UInt64) : Prop :=
  ∃ mark, pool.allocated[index.toNat]? = some mark ∧ mark ≠ 0

/-- The free list and the marks agree about every number. -/
structure WellFormed (pool : FixedBlockPool) : Prop where
  sound : pool.Sound
  marks : pool.allocated.length = pool.blockCount.toNat
  nodup : pool.freeList.Nodup
  mem_freeList : ∀ {index}, index ∈ pool.freeList ↔ pool.allocated[index.toNat]? = some 0

variable {pool : FixedBlockPool} {index : UInt64} {block : MemoryBlock}

namespace WellFormed

/-- Only the numbers of blocks have marks. -/
theorem lt_of_getElem? (wellFormed : pool.WellFormed) {mark : UInt8}
    (found : pool.allocated[index.toNat]? = some mark) : index < pool.blockCount := by
  rw [UInt64.lt_iff_toNat_lt, ← wellFormed.marks]
  exact (List.getElem?_eq_some_iff.mp found).1

/-- Only the numbers of blocks are free. -/
theorem lt_of_free (wellFormed : pool.WellFormed) (free : index ∈ pool.freeList) :
    index < pool.blockCount :=
  wellFormed.lt_of_getElem? (wellFormed.mem_freeList.mp free)

/-- Only the numbers of blocks are marked. -/
theorem lt_of_marked (wellFormed : pool.WellFormed) (marked : pool.Marked index) :
    index < pool.blockCount := by
  obtain ⟨mark, found, -⟩ := marked
  exact wellFormed.lt_of_getElem? found

/-- A free number is not marked. -/
theorem not_marked_of_free (wellFormed : pool.WellFormed) (free : index ∈ pool.freeList) :
    ¬ pool.Marked index := by
  rintro ⟨mark, found, positive⟩
  rw [wellFormed.mem_freeList.mp free] at found
  exact positive (Option.some.inj found).symm

/-- Every number is on the free list or marked. -/
theorem free_or_marked (wellFormed : pool.WellFormed) (inside : index < pool.blockCount) :
    index ∈ pool.freeList ∨ pool.Marked index := by
  have within : index.toNat < pool.allocated.length := by
    rw [wellFormed.marks]
    exact UInt64.lt_iff_toNat_lt.mp inside
  by_cases zero : pool.allocated[index.toNat] = 0
  · left
    rw [wellFormed.mem_freeList, List.getElem?_eq_getElem within, zero]
  · exact .inr ⟨_, List.getElem?_eq_getElem within, zero⟩

/-- Setting a mark sets no other. -/
theorem getElem?_set (wellFormed : pool.WellFormed) (inside : index < pool.blockCount)
    (mark : UInt8) (other : UInt64) :
    (pool.allocated.set index.toNat mark)[other.toNat]? =
      if other = index then some mark else pool.allocated[other.toNat]? := by
  have within : index.toNat < pool.allocated.length := by
    rw [wellFormed.marks]
    exact UInt64.lt_iff_toNat_lt.mp inside
  rw [List.getElem?_set, if_pos within]
  by_cases same : other = index
  · rw [if_pos same, if_pos (congrArg UInt64.toNat same.symm)]
  · rw [if_neg same, if_neg fun equal => same (UInt64.toNat_inj.mp equal.symm)]

end WellFormed

/-! ## What the calls do -/

/-- Allocate takes the number at the back of the free list, if there is one. -/
theorem WellFormed.allocate_cases (wellFormed : pool.WellFormed) :
    pool.freeList = [] ∧ pool.allocate = some (.null, pool) ∨
    ∃ rest index, pool.freeList = rest ++ [index] ∧ index < pool.blockCount ∧
      pool.allocate = some (pool.blockAt index,
        { pool with freeList := rest, allocated := pool.allocated.set index.toNat 1 }) := by
  rcases List.eq_nil_or_concat pool.freeList with empty | ⟨rest, index, list⟩
  · left
    refine ⟨empty, ?_⟩
    rw [allocate, empty]
    rfl
  · right
    rw [List.concat_eq_append] at list
    have free : index ∈ pool.freeList := by
      rw [list]
      exact List.mem_append_right _ List.mem_cons_self
    have inside := wellFormed.lt_of_free free
    refine ⟨rest, index, list, inside, ?_⟩
    rw [allocate, list, List.getLast?_concat]
    dsimp only
    rw [if_pos, List.dropLast_concat]
    · rfl
    · rw [wellFormed.marks]
      exact UInt64.lt_iff_toNat_lt.mp inside

/-- What Owns asks of a block. -/
theorem owns_eq_true_iff : pool.owns block = true ↔
    block.isValid = true ∧ pool.storage ≤ block.data ∧
      block.data < pool.storage + pool.blockSize * pool.blockCount ∧ block.size = pool.blockSize := by
  rw [owns]
  cases block.isValid <;> simp

/-- Deallocate takes a numbered block back whose number is marked, and refuses every other
argument. -/
theorem WellFormed.deallocate_cases (wellFormed : pool.WellFormed) (block : MemoryBlock) :
    (∃ index, pool.Marked index ∧ block = pool.blockAt index ∧
      pool.deallocate block = some (true,
        { pool with
          freeList := pool.freeList ++ [index], allocated := pool.allocated.set index.toNat 0 })) ∨
    (¬ ∃ index, pool.Marked index ∧ block = pool.blockAt index) ∧
      pool.deallocate block = some (false, pool) := by
  have sound := wellFormed.sound
  by_cases owned : pool.owns block = true
  · obtain ⟨valid, low, high, size⟩ := owns_eq_true_iff.mp owned
    by_cases aligned : (block.data - pool.storage) % pool.blockSize = 0
    · obtain ⟨inside, numbered⟩ := sound.located low high size aligned
      generalize index_eq : (block.data - pool.storage) / pool.blockSize = index at inside numbered
      rcases wellFormed.free_or_marked inside with free | marked
      · right
        refine ⟨?_, ?_⟩
        · rintro ⟨other, marked, same⟩
          obtain rfl := sound.blockAt_inj inside (wellFormed.lt_of_marked marked)
            (numbered.symm.trans same)
          exact wellFormed.not_marked_of_free free marked
        · rw [deallocate, if_neg (by rw [owned]; decide)]
          dsimp only
          rw [if_neg (not_not.mpr aligned), index_eq, wellFormed.mem_freeList.mp free]
          rfl
      · left
        refine ⟨index, marked, numbered, ?_⟩
        obtain ⟨mark, found, positive⟩ := marked
        rw [deallocate, if_neg (by rw [owned]; decide)]
        dsimp only
        rw [if_neg (not_not.mpr aligned), index_eq, found]
        exact if_neg positive
    · right
      refine ⟨?_, ?_⟩
      · rintro ⟨index, marked, rfl⟩
        exact aligned (sound.found (wellFormed.lt_of_marked marked)).2.2.1
      · rw [deallocate, if_neg (by rw [owned]; decide)]
        exact if_pos aligned
  · right
    refine ⟨?_, if_pos (Bool.eq_false_iff.mpr owned)⟩
    rintro ⟨index, marked, rfl⟩
    have inside := wellFormed.lt_of_marked marked
    obtain ⟨low, high, -, -⟩ := sound.found inside
    exact owned (owns_eq_true_iff.mpr ⟨sound.isValid inside, low, high, rfl⟩)

/-! ## The ledger behind the pool -/

/-- The blocks that are out are those whose number is marked. -/
structure Represents (layout : Layout) (pool : FixedBlockPool) (live : Finset MemoryBlock) : Prop where
  layout_eq : pool.toLayout = layout
  wellFormed : pool.WellFormed
  mem_live : ∀ {block}, block ∈ live ↔ ∃ index, pool.Marked index ∧ block = pool.blockAt index
  card : live.card + pool.freeList.length = pool.blockCount.toNat

variable {layout : Layout} {live : Finset MemoryBlock} {rest : List UInt64}

/-- The number at the back of the free list is free. -/
theorem free_of_list (list : pool.freeList = rest ++ [index]) : index ∈ pool.freeList := by
  rw [list]
  exact List.mem_append_right _ List.mem_cons_self

/-- The marks when a number has been taken. -/
theorem WellFormed.marked_taken_iff (wellFormed : pool.WellFormed) (inside : index < pool.blockCount)
    {other : UInt64} :
    Marked { pool with freeList := rest, allocated := pool.allocated.set index.toNat 1 } other ↔
      other = index ∨ pool.Marked other := by
  rw [Marked, Marked, wellFormed.getElem?_set inside]
  split
  · next same => exact iff_of_true ⟨1, rfl, by decide⟩ (.inl same)
  · next different => exact (or_iff_right different).symm

/-- The marks when a number has been given back. -/
theorem WellFormed.marked_given_iff (wellFormed : pool.WellFormed) (inside : index < pool.blockCount)
    {other : UInt64} :
    Marked { pool with
        freeList := pool.freeList ++ [index], allocated := pool.allocated.set index.toNat 0 } other ↔
      other ≠ index ∧ pool.Marked other := by
  rw [Marked, Marked, wellFormed.getElem?_set inside]
  split
  · next same =>
    refine iff_of_false ?_ fun both => both.1 same
    rintro ⟨mark, found, positive⟩
    exact positive (Option.some.inj found).symm
  · next different => exact (and_iff_right different).symm

/-- The number at the back of the free list leaves it and is marked. -/
theorem WellFormed.taken (wellFormed : pool.WellFormed) (list : pool.freeList = rest ++ [index]) :
    WellFormed { pool with freeList := rest, allocated := pool.allocated.set index.toNat 1 } := by
  have inside := wellFormed.lt_of_free (free_of_list list)
  have nodup := wellFormed.nodup
  rw [list, List.nodup_append] at nodup
  obtain ⟨nodup, -, others⟩ := nodup
  refine ⟨wellFormed.sound, ?_, nodup, fun {other} => ?_⟩
  · rw [List.length_set]
    exact wellFormed.marks
  · dsimp only
    rw [wellFormed.getElem?_set inside]
    split
    · next same =>
      refine iff_of_false (fun member => ?_) (by decide)
      exact others other member index List.mem_cons_self same
    · next different =>
      rw [← wellFormed.mem_freeList, list, List.mem_append, List.mem_singleton,
        or_iff_left different]

/-- A marked number is cleared and comes to the back of the free list. -/
theorem WellFormed.given (wellFormed : pool.WellFormed) (marked : pool.Marked index) :
    WellFormed { pool with
      freeList := pool.freeList ++ [index], allocated := pool.allocated.set index.toNat 0 } := by
  have inside := wellFormed.lt_of_marked marked
  have absent : index ∉ pool.freeList := fun free => wellFormed.not_marked_of_free free marked
  refine ⟨wellFormed.sound, ?_, ?_, fun {other} => ?_⟩
  · rw [List.length_set]
    exact wellFormed.marks
  · rw [← List.concat_eq_append]
    exact wellFormed.nodup.concat absent
  · dsimp only
    rw [wellFormed.getElem?_set inside, List.mem_append, List.mem_singleton]
    split
    · next same => exact iff_of_true (.inr same) rfl
    · next different => rw [← wellFormed.mem_freeList, or_iff_left different]

/-- The block of the number that is taken joins those that are out. -/
theorem Represents.taken (represents : Represents layout pool live)
    (list : pool.freeList = rest ++ [index]) :
    Represents layout
      { pool with freeList := rest, allocated := pool.allocated.set index.toNat 1 }
      (insert (pool.blockAt index) live) := by
  have wellFormed := represents.wellFormed
  have free := free_of_list list
  have inside := wellFormed.lt_of_free free
  have fresh : pool.blockAt index ∉ live := by
    intro out
    obtain ⟨other, marked, same⟩ := represents.mem_live.mp out
    obtain rfl := wellFormed.sound.blockAt_inj inside (wellFormed.lt_of_marked marked) same
    exact wellFormed.not_marked_of_free free marked
  refine ⟨represents.layout_eq, wellFormed.taken list, ?_, ?_⟩
  · intro block
    rw [Finset.mem_insert, represents.mem_live]
    constructor
    · rintro (rfl | ⟨other, marked, rfl⟩)
      · exact ⟨index, (wellFormed.marked_taken_iff inside).mpr (.inl rfl), rfl⟩
      · exact ⟨other, (wellFormed.marked_taken_iff inside).mpr (.inr marked), rfl⟩
    · rintro ⟨other, marked, rfl⟩
      rcases (wellFormed.marked_taken_iff inside).mp marked with rfl | marked
      · exact .inl rfl
      · exact .inr ⟨other, marked, rfl⟩
  · have card := represents.card
    rw [list, List.length_append, List.length_singleton] at card
    rw [Finset.card_insert_of_notMem fresh]
    dsimp only
    omega

/-- The block of a number that comes back is out no more. -/
theorem Represents.given (represents : Represents layout pool live) (marked : pool.Marked index) :
    Represents layout
      { pool with
        freeList := pool.freeList ++ [index], allocated := pool.allocated.set index.toNat 0 }
      (live.erase (pool.blockAt index)) := by
  have wellFormed := represents.wellFormed
  have inside := wellFormed.lt_of_marked marked
  have out : pool.blockAt index ∈ live := represents.mem_live.mpr ⟨index, marked, rfl⟩
  refine ⟨represents.layout_eq, wellFormed.given marked, ?_, ?_⟩
  · intro block
    rw [Finset.mem_erase, represents.mem_live]
    constructor
    · rintro ⟨different, other, marked, rfl⟩
      refine ⟨other, (wellFormed.marked_given_iff inside).mpr ⟨?_, marked⟩, rfl⟩
      rintro rfl
      exact different rfl
    · rintro ⟨other, after, rfl⟩
      obtain ⟨different, before⟩ := (wellFormed.marked_given_iff inside).mp after
      refine ⟨fun same => different ?_, other, before, rfl⟩
      exact wellFormed.sound.blockAt_inj (wellFormed.lt_of_marked before) inside same
  · have card := represents.card
    have positive : 0 < live.card := Finset.card_pos.mpr ⟨_, out⟩
    rw [Finset.card_erase_of_mem out, List.length_append, List.length_singleton]
    dsimp only
    omega

/-- Allocate as an event of the ledger. -/
theorem call_allocate {next : FixedBlockPool} (done : pool.allocate = some (block, next)) :
    call pool .allocate = some (next, .handOut (if block.isValid then some block else none)) := by
  rw [call, done]
  rfl

/-- Deallocate as an event of the ledger. -/
theorem call_deallocate {next : FixedBlockPool} {returned : Bool}
    (done : pool.deallocate block = some (returned, next)) :
    call pool (.deallocate block) = some (next, .takeBack block returned) := by
  rw [call, done]
  rfl

/-- Every call is one that the ledger allows. -/
theorem Represents.simulates {next : FixedBlockPool} {event : Ledger.Event MemoryBlock} {choice : Call}
    (represents : Represents layout pool live)
    (transition : system.step pool choice = some (next, event)) :
    ∃ after, Ledger.Step layout.blockCount.toNat MemoryBlock.Apart live event after ∧
      Represents layout next after := by
  have wellFormed := represents.wellFormed
  have card := represents.card
  obtain rfl := represents.layout_eq
  cases choice with
  | allocate =>
      rcases wellFormed.allocate_cases with ⟨empty, done⟩ | ⟨rest, index, list, inside, done⟩
      · obtain ⟨rfl, rfl⟩ := Prod.mk.inj (Option.some.inj ((call_allocate done).symm.trans transition))
        rw [empty] at card
        exact ⟨live, .exhausted card, represents⟩
      · obtain ⟨rfl, rfl⟩ := Prod.mk.inj (Option.some.inj ((call_allocate done).symm.trans transition))
        rw [if_pos (wellFormed.sound.isValid inside)]
        refine ⟨_, .handOut ?_ ?_, represents.taken list⟩
        · rw [list, List.length_append, List.length_singleton] at card
          omega
        · intro other out
          obtain ⟨number, marked, rfl⟩ := represents.mem_live.mp out
          refine wellFormed.sound.apart inside (wellFormed.lt_of_marked marked) ?_
          rintro rfl
          exact wellFormed.not_marked_of_free (free_of_list list) marked
  | deallocate block =>
      rcases wellFormed.deallocate_cases block with ⟨index, marked, rfl, done⟩ | ⟨absent, done⟩
      · obtain ⟨rfl, rfl⟩ :=
          Prod.mk.inj (Option.some.inj ((call_deallocate done).symm.trans transition))
        exact ⟨_, .takeBack (represents.mem_live.mpr ⟨index, marked, rfl⟩), represents.given marked⟩
      · obtain ⟨rfl, rfl⟩ :=
          Prod.mk.inj (Option.some.inj ((call_deallocate done).symm.trans transition))
        exact ⟨live, .refuse fun out => absent (represents.mem_live.mp out), represents⟩

/-! ## The constructed pool -/

section Construction

variable {blockSize blockCount : UInt64} {heap : Heap} {start : FixedBlockPool}

/-- The constructor's subtraction does not wrap. -/
theorem toNat_seed {i : Nat} (inside : i < blockCount.toNat) :
    (blockCount - 1 - UInt64.ofNat i).toNat = blockCount.toNat - 1 - i := by
  have one : (1 : UInt64).toNat = 1 := rfl
  have number : (UInt64.ofNat i).toNat = i := by
    rw [UInt64.toNat_ofNat']
    exact Nat.mod_eq_of_lt (Nat.lt_trans inside blockCount.toNat_lt)
  have first : (blockCount - 1).toNat = blockCount.toNat - 1 := by
    rw [UInt64.toNat_sub_of_le, one]
    rw [UInt64.le_iff_toNat_le, one]
    omega
  rw [UInt64.toNat_sub_of_le, first, number]
  rw [UInt64.le_iff_toNat_le, first, number]
  omega

/-- The free list starts with all numbers. -/
theorem mem_seeds :
    index ∈ ((List.range blockCount.toNat).map fun i => blockCount - 1 - UInt64.ofNat i) ↔
      index < blockCount := by
  rw [List.mem_map, UInt64.lt_iff_toNat_lt]
  constructor
  · rintro ⟨i, member, rfl⟩
    have inside := List.mem_range.mp member
    rw [toNat_seed inside]
    omega
  · intro inside
    have mirrored : blockCount.toNat - 1 - index.toNat < blockCount.toNat := by
      omega
    refine ⟨_, List.mem_range.mpr mirrored, ?_⟩
    rw [← UInt64.toNat_inj, toNat_seed mirrored]
    omega

/-- The constructor puts no number on the free list twice. -/
theorem nodup_seeds :
    ((List.range blockCount.toNat).map fun i => blockCount - 1 - UInt64.ofNat i).Nodup := by
  refine List.Nodup.map_on ?_ List.nodup_range
  intro i member j other same
  have inside := List.mem_range.mp member
  have within := List.mem_range.mp other
  have equal := congrArg UInt64.toNat same
  rw [toNat_seed inside, toNat_seed within] at equal
  omega

/-- A constructor that does not throw has passed its guard. -/
theorem passed_of_ok {guard : Prop} [Decidable guard] {message : String}
    {rest : Except String FixedBlockPool}
    (constructed : (if guard then .error message else rest) = .ok start) :
    ¬ guard ∧ rest = .ok start := by
  split at constructed
  · cases constructed
  · next passed => exact ⟨passed, constructed⟩

/-- What a constructor that does not throw has checked and built. -/
theorem of_construct (constructed : construct heap blockSize blockCount = .ok start) :
    blockSize ≠ 0 ∧ blockCount ≠ 0 ∧ heap.newBytes (blockSize * blockCount) = some start.storage ∧
      start.blockSize = blockSize ∧ start.blockCount = blockCount ∧
      start.freeList =
        (List.range blockCount.toNat).map (fun i => blockCount - 1 - UInt64.ofNat i) ∧
      start.allocated = List.replicate blockCount.toNat 0 := by
  obtain ⟨sizePositive, constructed⟩ := passed_of_ok constructed
  obtain ⟨countPositive, constructed⟩ := passed_of_ok constructed
  dsimp only at constructed
  split at constructed
  · cases constructed
  · next storage given =>
    -- The four ways in which the index arrays make it throw.
    obtain ⟨-, constructed⟩ := passed_of_ok constructed
    obtain ⟨-, constructed⟩ := passed_of_ok constructed
    obtain ⟨-, constructed⟩ := passed_of_ok constructed
    obtain ⟨-, constructed⟩ := passed_of_ok constructed
    cases constructed
    exact ⟨sizePositive, countPositive, given, rfl, rfl, rfl, rfl⟩

/-- In a new pool nothing is out. -/
theorem represents_of_construct (constructed : construct heap blockSize blockCount = .ok start)
    (present : start.storage ≠ 0)
    (noWrap : start.storage.toNat + blockSize.toNat * blockCount.toNat < 2 ^ 64) :
    Represents ⟨start.storage, blockSize, blockCount⟩ start ∅ := by
  obtain ⟨sizePositive, -, -, rfl, rfl, free, marks⟩ := of_construct constructed
  have there : 0 < start.storage.toNat :=
    Nat.pos_of_ne_zero fun zero => present (UInt64.toNat_inj.mp zero)
  have wide : 0 < start.blockSize.toNat :=
    Nat.pos_of_ne_zero fun zero => sizePositive (UInt64.toNat_inj.mp zero)
  have unmarked : ∀ {index : Nat} {mark}, start.allocated[index]? = some mark → mark = 0 := by
    intro index mark found
    rw [marks] at found
    exact List.eq_of_mem_replicate (List.mem_of_getElem? found)
  refine ⟨rfl, ⟨⟨there, wide, noWrap⟩, ?_, ?_, ?_⟩, ?_, ?_⟩
  · rw [marks, List.length_replicate]
  · rw [free]
    exact nodup_seeds
  · intro index
    rw [free, marks, mem_seeds, List.getElem?_replicate, UInt64.lt_iff_toNat_lt]
    simp
  · intro block
    refine iff_of_false (Finset.notMem_empty _) ?_
    rintro ⟨index, ⟨mark, found, positive⟩, -⟩
    exact positive (unmarked found)
  · rw [Finset.card_empty, free, List.length_map, List.length_range]
    exact Nat.zero_add _

end Construction

/-! ## What the pool is for -/

/-- The pool keeps account of the blocks that are out. -/
structure Manages (layout : Layout) (pool : FixedBlockPool) (live : Finset MemoryBlock) : Prop where
  nodup : pool.freeList.Nodup
  free_or_marked : ∀ index, index < layout.blockCount ↔ index ∈ pool.freeList ∨ pool.Marked index
  not_both : ∀ index ∈ pool.freeList, ¬ pool.Marked index
  inside : ∀ block ∈ live, layout.Holds block
  apart : (live : Set MemoryBlock).Pairwise MemoryBlock.Apart
  available : pool.availableBlocks.toNat = layout.blockCount.toNat - live.card
  allocates : ∃ block next, pool.allocate = some (block, next) ∧
    (block.isValid = false ↔ live.card = layout.blockCount.toNat)
  deallocates : ∀ block, ∃ returned next, pool.deallocate block = some (returned, next) ∧
    (returned = true ↔ block ∈ live) ∧ (returned = false → next = pool)

/-- A pool that represents a ledger manages its blocks. -/
theorem Represents.manages (represents : Represents layout pool live)
    (apart : (live : Set MemoryBlock).Pairwise MemoryBlock.Apart) : Manages layout pool live := by
  have wellFormed := represents.wellFormed
  have card := represents.card
  obtain rfl := represents.layout_eq
  refine ⟨wellFormed.nodup, ?_, fun _ => wellFormed.not_marked_of_free, ?_, apart, ?_, ?_, ?_⟩
  · intro index
    refine ⟨wellFormed.free_or_marked, ?_⟩
    rintro (free | marked)
    · exact wellFormed.lt_of_free free
    · exact wellFormed.lt_of_marked marked
  · intro block out
    obtain ⟨index, marked, rfl⟩ := represents.mem_live.mp out
    exact wellFormed.sound.holds (wellFormed.lt_of_marked marked)
  · have below := pool.blockCount.toNat_lt
    rw [availableBlocks, UInt64.toNat_ofNat', Nat.mod_eq_of_lt (by omega)]
    omega
  · rcases wellFormed.allocate_cases with ⟨empty, done⟩ | ⟨rest, index, list, inside, done⟩
    · refine ⟨_, _, done, iff_of_true rfl ?_⟩
      rw [empty] at card
      exact card
    · refine ⟨_, _, done, iff_of_false ?_ ?_⟩
      · rw [wellFormed.sound.isValid inside]
        decide
      · rw [list, List.length_append, List.length_singleton] at card
        omega
  · intro block
    rcases wellFormed.deallocate_cases block with ⟨index, marked, same, done⟩ | ⟨absent, done⟩
    · refine ⟨_, _, done, iff_of_true rfl ?_, fun impossible => by cases impossible⟩
      exact represents.mem_live.mpr ⟨index, marked, same⟩
    · refine ⟨_, _, done, iff_of_false (by decide) ?_, fun _ => rfl⟩
      exact fun out => absent (represents.mem_live.mp out)

/-- Every pool that the constructor returns, called in any order with any arguments, refines the
ledger of its blocks. -/
theorem refines_ledger {heap : Heap} {blockSize blockCount : UInt64} {start : FixedBlockPool}
    (constructed : construct heap blockSize blockCount = .ok start) (present : start.storage ≠ 0)
    (noWrap : start.storage.toNat + blockSize.toNat * blockCount.toNat < 2 ^ 64)
    (events : List (Ledger.Event MemoryBlock)) (pool : FixedBlockPool)
    (run : system.Runs start events pool) :
    ∃ live, Ledger.Runs blockCount.toNat MemoryBlock.Apart events live ∧
      Manages ⟨start.storage, blockSize, blockCount⟩ pool live := by
  have initial := represents_of_construct constructed present noWrap
  obtain ⟨live, runs, represents⟩ :=
    Ledger.Runs.of_simulation (Represents _) initial Represents.simulates run
  exact ⟨live, runs, represents.manages (runs.pairwise fun _ _ => MemoryBlock.Apart.symm)⟩

/-- A pool of two blocks at address 4096: both go out, a misaligned block is refused, and the
first one comes back. -/
theorem refines_ledger_of_two :
    ∃ live, Ledger.Runs 2 MemoryBlock.Apart
        [.handOut (some ⟨4096, 64⟩), .handOut (some ⟨4160, 64⟩), .takeBack ⟨4100, 64⟩ false,
          .takeBack ⟨4096, 64⟩ true] live ∧
      Manages ⟨4096, 64, 2⟩ ⟨⟨4096, 64, 2⟩, [0], [0, 1]⟩ live := by
  have constructed : construct ⟨fun _ => some 4096, fun _ => true, fun _ => true⟩ 64 2 =
      .ok ⟨⟨4096, 64, 2⟩, [1, 0], [0, 0]⟩ := rfl
  have run : system.Runs ⟨⟨4096, 64, 2⟩, [1, 0], [0, 0]⟩
      [.handOut (some ⟨4096, 64⟩), .handOut (some ⟨4160, 64⟩), .takeBack ⟨4100, 64⟩ false,
        .takeBack ⟨4096, 64⟩ true] ⟨⟨4096, 64, 2⟩, [0], [0, 1]⟩ := by
    have first : system.step ⟨⟨4096, 64, 2⟩, [1, 0], [0, 0]⟩ .allocate =
        some (⟨⟨4096, 64, 2⟩, [1], [1, 0]⟩, .handOut (some ⟨4096, 64⟩)) := rfl
    have second : system.step ⟨⟨4096, 64, 2⟩, [1], [1, 0]⟩ .allocate =
        some (⟨⟨4096, 64, 2⟩, [], [1, 1]⟩, .handOut (some ⟨4160, 64⟩)) := rfl
    have refused : system.step ⟨⟨4096, 64, 2⟩, [], [1, 1]⟩ (.deallocate ⟨4100, 64⟩) =
        some (⟨⟨4096, 64, 2⟩, [], [1, 1]⟩, .takeBack ⟨4100, 64⟩ false) := rfl
    have returned : system.step ⟨⟨4096, 64, 2⟩, [], [1, 1]⟩ (.deallocate ⟨4096, 64⟩) =
        some (⟨⟨4096, 64, 2⟩, [0], [0, 1]⟩, .takeBack ⟨4096, 64⟩ true) := rfl
    exact .step (.step (.step (.step .refl first trivial) second trivial) refused trivial) returned
      trivial
  exact refines_ledger constructed (by decide) (by decide) _ _ run

end FixedBlockPool
end MmoServer.MemoryPool
