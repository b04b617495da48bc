import MmoServer.LockfreeQueue.QueueSlot

/-!
# Enqueue

MPMCQueue::Enqueue and MPSCQueue::Enqueue are one algorithm on differently named
counters. `EnqueueState` is where a thread stands in it and `EnqueueState.step`
its next atomic step: a counter load, a sequence load, a compare-exchange that
may fail for no reason, the move of the item, or the sequence store. Returning is
folded into the last of them.

`EnqueueState.step_refines` says that every step is a step of the ring protocol.
-/

namespace MmoServer.LockfreeQueue

open MmoServer.Std

/-- Where a thread is in Enqueue. -/
inductive EnqueueState (α : Type) where
  /-- At the load of the tail counter. -/
  | loadTail (item : α)
  /-- At `slot.sequence.load`. -/
  | loadSequence (item : α) (pos : QueueSequence)
  /-- At `compare_exchange_weak(pos, pos + 1)`. -/
  | compareExchange (item : α) (pos : QueueSequence)
  /-- At `slot.storage = std::move(item)`. -/
  | moveIn (item : α) (pos : QueueSequence)
  /-- At `slot.sequence.store(pos + 1)`. -/
  | storeSequence (item : α) (pos : QueueSequence)

/-- What a step of Enqueue shows. -/
inductive EnqueueEvent (α : Type) where
  | silent
  /-- The compare-exchange succeeded. -/
  | claimed (pos : QueueSequence) (item : α)
  | wrote (pos : QueueSequence) (item : α)
  /-- The sequence store, and `return true`. -/
  | published (pos : QueueSequence) (item : α)
  /-- The sequence load found the slot behind, and `return false`. -/
  | refused
deriving DecidableEq

/-- The memory after a step of Enqueue. The state is `none` when it has returned. -/
structure EnqueueStep (α : Type) (capacity : QueueCapacity) where
  slots : QueueSlots α capacity
  tail : QueueSequence
  state : Option (EnqueueState α)
  event : EnqueueEvent α

section Slots

variable {α : Type} {capacity : QueueCapacity}

/-- A store into the item of the position's slot. -/
def QueueSlots.setStorage (slots : QueueSlots α capacity) (pos : QueueSequence) (item : α) :
    QueueSlots α capacity :=
  let slot := capacity.index pos
  Function.update slots slot { slots slot with storage := item }

/-- A store into the sequence of the position's slot. -/
def QueueSlots.setSequence (slots : QueueSlots α capacity) (pos sequence : QueueSequence) :
    QueueSlots α capacity :=
  let slot := capacity.index pos
  Function.update slots slot { slots slot with sequence }

/-- The memory of a queue as a ring. -/
def ringOf (start : Nat) (slots : QueueSlots α capacity) (head : Nat) (tail : QueueSequence) :
    SlotRing α capacity.value where
  head := head
  tail := toPosition start tail
  sequence slot := toPosition start (slots slot).sequence
  storage slot := (slots slot).storage

variable {start head : Nat} {slots : QueueSlots α capacity} {tail pos sequence : QueueSequence}
  {item : α}

theorem sequenceAt_ringOf : (ringOf start slots head tail).sequenceAt (toPosition start pos) =
    toPosition start (slots (capacity.index pos)).sequence := by
  rw [index_eq_slotOf capacity start pos]
  rfl

theorem storageAt_ringOf : (ringOf start slots head tail).storageAt (toPosition start pos) =
    (slots (capacity.index pos)).storage := by
  rw [index_eq_slotOf capacity start pos]
  rfl

/-- A store into a slot is one of the ring. -/
theorem ringOf_setStorage : ringOf start (QueueSlots.setStorage slots pos item) head tail =
    (ringOf start slots head tail).store (toPosition start pos) item := by
  simp only [ringOf, SlotRing.store, QueueSlots.setStorage, ← index_eq_slotOf capacity start pos,
    SlotRing.mk.injEq, true_and]
  constructor
  · funext slot
    by_cases same : slot = capacity.index pos
    · rw [same, Function.update_self]
    · rw [Function.update_of_ne same]
  · funext slot
    by_cases same : slot = capacity.index pos
    · rw [same, Function.update_self, Function.update_self]
    · rw [Function.update_of_ne same, Function.update_of_ne same]

/-- So is a store into its sequence. -/
theorem ringOf_setSequence : ringOf start (QueueSlots.setSequence slots pos sequence) head tail =
    { ringOf start slots head tail with
      sequence := Function.update (ringOf start slots head tail).sequence
        (SlotRing.slotOf (toPosition start pos)) (toPosition start sequence) } := by
  simp only [ringOf, QueueSlots.setSequence, ← index_eq_slotOf capacity start pos,
    SlotRing.mk.injEq, true_and]
  constructor
  · funext slot
    by_cases same : slot = capacity.index pos
    · rw [same, Function.update_self, Function.update_self]
    · rw [Function.update_of_ne same, Function.update_of_ne same]
  · funext slot
    by_cases same : slot = capacity.index pos
    · rw [same, Function.update_self]
    · rw [Function.update_of_ne same]

/-- Claiming at the tail is claiming of the ring, as long as the words do not wrap. -/
theorem ringOf_claimTail (room : toPosition start tail + 1 < start + 2 ^ 64) :
    ringOf start slots head (tail + 1) = (ringOf start slots head tail).claimTail := by
  simp only [ringOf, SlotRing.claimTail, toPosition_succ room]

/-- So is publishing. -/
theorem ringOf_publish (room : toPosition start pos + 1 < start + 2 ^ 64) :
    ringOf start (QueueSlots.setSequence slots pos (pos + 1)) head tail =
      (ringOf start slots head tail).publish (toPosition start pos) := by
  rw [ringOf_setSequence, toPosition_succ room]
  rfl

/-- And releasing. -/
theorem ringOf_release (room : toPosition start pos + capacity.value < start + 2 ^ 64) :
    ringOf start (QueueSlots.setSequence slots pos (pos + UInt64.ofNat capacity.value)) head tail =
      (ringOf start slots head tail).release (toPosition start pos) := by
  rw [ringOf_setSequence, toPosition_add room]
  rfl

end Slots

namespace EnqueueState

variable {α : Type} {capacity : QueueCapacity}

/-- The next step of Enqueue. `spurious` is whether a compare-exchange fails
although the counter is as expected. -/
def step (slots : QueueSlots α capacity) (tail : QueueSequence) (spurious : Bool) :
    EnqueueState α → EnqueueStep α capacity
  | .loadTail item => { slots, tail, state := some (.loadSequence item tail), event := .silent }
  | .loadSequence item pos =>
    let seq := (slots (capacity.index pos)).sequence
    let diff := sequenceDiff seq pos
    if diff = 0 then
      { slots, tail, state := some (.compareExchange item pos), event := .silent }
    else if diff < 0 then { slots, tail, state := none, event := .refused }
    else { slots, tail, state := some (.loadTail item), event := .silent }
  | .compareExchange item pos =>
    if tail = pos ∧ spurious = false then
      { slots, tail := pos + 1, state := some (.moveIn item pos), event := .claimed pos item }
    else
      -- The failed exchange has loaded the counter into `pos`.
      { slots, tail, state := some (.loadSequence item tail), event := .silent }
  | .moveIn item pos =>
    { slots := QueueSlots.setStorage slots pos item, tail
      state := some (.storeSequence item pos), event := .wrote pos item }
  | .storeSequence item pos =>
    { slots := QueueSlots.setSequence slots pos (pos + 1), tail, state := none
      event := .published pos item }

/-- What the thread holds of the ring. -/
def hold (start : Nat) : EnqueueState α → Hold α
  | .loadTail _ | .loadSequence _ _ | .compareExchange _ _ => .none
  | .moveIn item pos => .writing (toPosition start pos) item
  | .storeSequence item pos => .written (toPosition start pos) item

/-- What the thread has seen of the ring. -/
def Seen (start : Nat) (ring : SlotRing α capacity.value) : EnqueueState α → Prop
  | .loadSequence _ pos => toPosition start pos ≤ ring.tail
  | .compareExchange _ pos => ring.SeenFree (toPosition start pos)
  | _ => True

/-- What a thread that may have returned holds. -/
def hold? (start : Nat) : Option (EnqueueState α) → Hold α
  | none => .none
  | some state => state.hold start

end EnqueueState

/-- The event as the ring protocol has it. -/
def EnqueueEvent.label {Agent α : Type} (start : Nat) (agent : Agent) :
    EnqueueEvent α → Option (RingEvent Agent α)
  | .silent | .refused => none
  | .claimed pos item => some (.claimedTail agent (toPosition start pos) item)
  | .wrote pos item => some (.wrote agent (toPosition start pos) item)
  | .published pos item => some (.published agent (toPosition start pos) item)

/-- The label tells the event and the agent. -/
theorem EnqueueEvent.label_injective {Agent α : Type} {start : Nat} {agent other : Agent}
    {first second : EnqueueEvent α} {label : RingEvent Agent α}
    (shown : first.label start agent = some label)
    (also : second.label start other = some label) : agent = other ∧ first = second := by
  cases first <;> cases shown <;> cases second <;>
    simp_all [EnqueueEvent.label, (toPosition_injective start).eq_iff]

namespace EnqueueState

variable {Agent α : Type} {capacity : QueueCapacity} {start head : Nat} {agent : Agent}
  {slots : QueueSlots α capacity} {tail pos : QueueSequence} {state : EnqueueState α}
  {events : List (RingEvent Agent α)}

/-- What a thread in Enqueue has seen stays true while others move. -/
theorem Seen.keep {ring nextRing : SlotRing α capacity.value} {other : Agent} {hold held : Hold α}
    {label : Option (RingEvent Agent α)} (seen : state.Seen start ring)
    (moves : RingProtocol.Moves ring other hold nextRing held label)
    (holding : RingProtocol.Holding ring events other hold) : state.Seen start nextRing := by
  cases state with
  | loadSequence item pos => exact Nat.le_trans seen moves.ends_le.1
  | compareExchange item pos => exact moves.keep_free capacity.atLeastTwo holding seen
  | loadTail | moveIn | storeSequence => trivial

/-- Enqueue returns false only when a sequence load has found the slot behind. -/
theorem step_refused {spurious : Bool} (refused : (state.step slots tail spurious).event = .refused) :
    ∃ item pos, state = .loadSequence item pos ∧
      sequenceDiff (slots (capacity.index pos)).sequence pos < 0 := by
  cases state with
  | loadSequence item pos =>
      simp only [step] at refused
      split at refused
      · cases refused
      · split at refused
        · next behind => exact ⟨item, pos, rfl, behind⟩
        · cases refused
  | compareExchange item pos =>
      simp only [step] at refused
      split at refused <;> cases refused
  | loadTail | moveIn | storeSequence => cases refused

/-- Every step of Enqueue is a move on the ring or none, and what it has seen of
the ring afterwards is so. -/
theorem step_refines (spurious : Bool) (room : toPosition start tail + 1 < start + 2 ^ 64)
    (holding : RingProtocol.Holding (ringOf start slots head tail) events agent (state.hold start))
    (seen : state.Seen start (ringOf start slots head tail)) :
    RingProtocol.Moves (ringOf start slots head tail) agent (state.hold start)
        (ringOf start (state.step slots tail spurious).slots head
          (state.step slots tail spurious).tail)
        (hold? start (state.step slots tail spurious).state)
        ((state.step slots tail spurious).event.label start agent) ∧
      ∀ next, (state.step slots tail spurious).state = some next →
        next.Seen start (ringOf start (state.step slots tail spurious).slots head
          (state.step slots tail spurious).tail) := by
  cases state with
  | loadTail item =>
      refine ⟨.stutter, fun next here => ?_⟩
      cases here
      exact Nat.le_refl _
  | loadSequence item pos =>
      simp only [step]
      split
      · next same =>
        refine ⟨.stutter, fun next here => ?_⟩
        cases here
        refine ⟨seen, fun _ => ?_⟩
        rw [sequenceAt_ringOf, sequenceDiff_eq_zero_iff.mp same]
      · split
        · exact ⟨.stutter, nofun⟩
        · refine ⟨.stutter, fun next here => ?_⟩
          cases here
          trivial
  | compareExchange item pos =>
      simp only [step]
      split
      · next succeeded =>
        obtain ⟨rfl, -⟩ := succeeded
        refine ⟨?_, fun next here => ?_⟩
        · rw [ringOf_claimTail room]
          exact .move (.claimTail (seen.2 rfl))
        · cases here
          trivial
      · refine ⟨.stutter, fun next here => ?_⟩
        cases here
        exact Nat.le_refl _
  | moveIn item pos =>
      refine ⟨?_, fun next here => ?_⟩
      · simp only [step, ringOf_setStorage]
        exact .move .write
      · cases here
        trivial
  | storeSequence item pos =>
      refine ⟨?_, nofun⟩
      have below : toPosition start pos < toPosition start tail := holding.1.claimed
      simp only [step]
      rw [ringOf_publish (by omega)]
      exact .move .publish

end EnqueueState
end MmoServer.LockfreeQueue
