import MmoServer.Std.RingHistory

/-!
# A ring with one writer is a queue

When one agent claims all the positions at the tail, the published items that nobody has
claimed stand between the ends of the ring without a gap. They are a first-in first-out
queue: a publication appends to it, a claim at the head takes its oldest item for the reader
that claims, and no other move changes it.
-/

namespace MmoServer.Std.RingProtocol

open MmoServer.Semantics

variable {Agent α : Type} {capacity start position : Nat} [NeZero capacity]
  {state next : RingProtocol Agent α capacity} {writer agent other : Agent}
  {operation : SlotRing.Operation α} {held : Hold α} {event : RingEvent Agent α}
  {events : List (RingEvent Agent α)}

/-- Nobody but the writer writes, and the writer writes at the end. -/
structure OneWriter (writer : Agent) (state : RingProtocol Agent α capacity) : Prop where
  only : ∀ agent position, (state.holds agent).writes? = some position → agent = writer
  last : ∀ position, (state.holds writer).writes? = some position → position + 1 = state.ring.tail

/-- Where the published positions end. -/
def published (writer : Agent) (state : RingProtocol Agent α capacity) : Nat :=
  (state.holds writer).writes?.getD state.ring.tail

/-- The published items that nobody has claimed, oldest first. -/
def waiting (writer : Agent) (state : RingProtocol Agent α capacity) : List α :=
  (List.range' state.ring.head (state.published writer - state.ring.head)).map state.ring.storageAt

/-- The item that a reader has claimed and not given back. -/
def due (state : RingProtocol Agent α capacity) (agent : Agent) : Option α :=
  match state.holds agent with
  | .reading position => some (state.ring.storageAt position)
  | .taken _ item => some item
  | _ => none

/-- What an event says about the queue and what is due to the readers. -/
def Queued [DecidableEq Agent] (before after : List α) (due dueAfter : Agent → Option α) :
    RingEvent Agent α → Prop
  | .published _ _ item => after = before ++ [item] ∧ dueAfter = due
  | .claimedHead agent _ => due agent = none ∧ ∃ item, before = item :: after ∧
      dueAfter = Function.update due agent (some item)
  | .released agent _ item => due agent = some item ∧ after = before ∧
      dueAfter = Function.update due agent none
  | _ => after = before ∧ dueAfter = due

/-! ## The queue -/

omit [NeZero capacity] in
theorem OneWriter.published_le (oneWriter : OneWriter writer state) :
    state.published writer ≤ state.ring.tail := by
  rw [published]
  cases here : (state.holds writer).writes? with
  | none => exact Nat.le_refl _
  | some position =>
      rw [← oneWriter.last position here]
      exact Nat.le_succ position

/-- Every position of the queue holds its item. -/
theorem OneWriter.ready (oneWriter : OneWriter writer state) (owned : Owned state)
    (valid : state.ring.Valid) (unclaimed : state.ring.head ≤ position)
    (below : position < state.published writer) : state.ring.Ready position := by
  have claimed := Nat.lt_of_lt_of_le below oneWriter.published_le
  have either := valid.pending position unclaimed claimed
  refine ⟨unclaimed, claimed, either.resolve_left fun writing => ?_⟩
  obtain ⟨agent, writes⟩ := owned.writers position ⟨unclaimed, claimed, writing⟩
  obtain rfl := oneWriter.only agent position writes
  rw [published, writes] at below
  exact Nat.lt_irrefl _ below

/-- What is not published is being written. -/
theorem OneWriter.published_of_writes (oneWriter : OneWriter writer state) (owned : Owned state)
    (writes : state.ring.Writes position) : state.published writer = position := by
  obtain ⟨agent, here⟩ := owned.writers position writes
  obtain rfl := oneWriter.only agent position here
  rw [published, here]
  rfl

theorem length_waiting : (state.waiting writer).length =
    state.published writer - state.ring.head := by
  rw [waiting, List.length_map, List.length_range']

theorem OneWriter.length_waiting_le (oneWriter : OneWriter writer state)
    (valid : state.ring.Valid) : (state.waiting writer).length ≤ capacity := by
  have published := oneWriter.published_le
  have bounded := valid.bounded
  rw [length_waiting]
  omega

/-- A reader that finds the slot of a position not filled has found the queue empty. -/
theorem OneWriter.waiting_eq_nil (oneWriter : OneWriter writer state) (owned : Owned state)
    (valid : state.ring.Valid) (reached : position ≤ state.ring.head)
    (behind : state.ring.sequenceAt position < position + 1) : state.waiting writer = [] := by
  have none : state.published writer ≤ state.ring.head := by
    rcases valid.behind_head reached behind with meet | writes
    · rw [meet]
      exact oneWriter.published_le
    · rw [oneWriter.published_of_writes owned writes]
  rw [← List.length_eq_zero_iff, length_waiting]
  omega

/-! ## Moves -/

/-- Moves that leave the ends and the published items alone. -/
theorem waiting_congr (oneWriter : OneWriter writer state) (owned : Owned state)
    (valid : state.ring.Valid) (head : next.ring.head = state.ring.head)
    (published : next.published writer = state.published writer)
    (stored : ∀ position, state.ring.Ready position →
      next.ring.storageAt position = state.ring.storageAt position) :
    next.waiting writer = state.waiting writer := by
  rw [waiting, waiting, head, published]
  refine List.map_congr_left fun position member => stored position ?_
  obtain ⟨low, high⟩ := List.mem_range'_1.mp member
  exact oneWriter.ready owned valid low (by omega)

/-- What an agent writes has not got its sequence number yet. -/
theorem Consistent.writes (consistent : Consistent start events state)
    (here : (state.holds agent).writes? = some position) : state.ring.Writes position := by
  have holding := consistent.holding agent
  cases mine : state.holds agent with
  | writing | written =>
      rw [mine] at here holding
      cases here
      exact holding.1
  | none | reading | taken =>
      rw [mine] at here
      cases here

variable [DecidableEq Agent]

/-- What is due to the other readers stays so. -/
theorem Consistent.due_of_ne (consistent : Consistent start events state) (several : 2 ≤ capacity)
    (effected : Effect state.ring agent (state.holds agent) operation held event)
    (apart : other ≠ agent) : (state.after agent operation held).due other = state.due other := by
  have theirs := consistent.holding other
  rw [due, due, after_holds_of_ne _ _ _ apart]
  cases here : state.holds other with
  | reading position =>
      rw [here] at theirs
      obtain ⟨-, stored, -⟩ := (consistent.holding agent).keep_reads several effected
        consistent.explained (Ne.symm apart) theirs.1 theirs.2.1
      exact congrArg some stored
  | _ => rfl

/-- What is due after a move, by what is due to its agent. -/
theorem Consistent.due_after (consistent : Consistent start events state) (several : 2 ≤ capacity)
    (effected : Effect state.ring agent (state.holds agent) operation held event) :
    (state.after agent operation held).due =
      Function.update state.due agent ((state.after agent operation held).due agent) := by
  funext other
  by_cases mine : other = agent
  · rw [mine, Function.update_self]
  · rw [Function.update_of_ne mine]
    exact consistent.due_of_ne several effected mine

/-- A move that leaves what is due to its agent. -/
theorem Consistent.due_eq (consistent : Consistent start events state) (several : 2 ≤ capacity)
    (effected : Effect state.ring agent (state.holds agent) operation held event)
    (same : (state.after agent operation held).due agent = state.due agent) :
    (state.after agent operation held).due = state.due := by
  rw [consistent.due_after several effected, same, Function.update_eq_self]

/-- No new position is written. -/
theorem OneWriter.keep (oneWriter : OneWriter writer state)
    (fewer : ∀ position, held.writes? = some position →
      (state.holds agent).writes? = some position)
    (tail : (state.ring.apply operation).tail = state.ring.tail) :
    OneWriter writer (state.after agent operation held) := by
  have before : ∀ other position, ((state.after agent operation held).holds other).writes? =
      some position → (state.holds other).writes? = some position := by
    intro other position writes
    by_cases mine : other = agent
    · subst mine
      rw [after_holds_self] at writes
      exact fewer position writes
    · rwa [after_holds_of_ne _ _ _ mine] at writes
  refine ⟨fun other position writes => oneWriter.only other position (before other position writes),
    fun position writes => ?_⟩
  rw [after_ring, tail]
  exact oneWriter.last position (before writer position writes)

theorem OneWriter.claimTail {item : α} (oneWriter : OneWriter writer state) :
    OneWriter writer (state.after writer .claimTail (.writing state.ring.tail item)) := by
  refine ⟨fun other position writes => ?_, fun position writes => ?_⟩
  · by_contra apart
    rw [after_holds_of_ne _ _ _ apart] at writes
    exact apart (oneWriter.only other position writes)
  · rw [after_holds_self] at writes
    cases writes
    rfl

/-- The published positions end where they did. -/
theorem published_after (same : held.writes? = (state.holds agent).writes?)
    (tail : (state.ring.apply operation).tail = state.ring.tail) :
    (state.after agent operation held).published writer = state.published writer := by
  rw [published, published, after_ring, tail]
  by_cases mine : writer = agent
  · rw [mine, after_holds_self, same]
  · rw [after_holds_of_ne _ _ _ mine]

/-- What a publication does to the queue. -/
theorem OneWriter.publish {item : α} (oneWriter : OneWriter writer state)
    (here : state.holds writer = .written position item) (writes : state.ring.Writes position)
    (stored : state.ring.storageAt position = item) :
    (state.after writer (.publish position) .none).waiting writer =
      state.waiting writer ++ [item] := by
  have last := oneWriter.last position (congrArg Hold.writes? here)
  have before : state.published writer = position := by
    rw [published, here]
    rfl
  have after : (state.after writer (.publish position) .none).published writer = position + 1 := by
    rw [published, after_holds_self, last]
    rfl
  have longer : position + 1 - state.ring.head = position - state.ring.head + 1 :=
    Nat.succ_sub writes.unclaimed
  have place : state.ring.head + (position - state.ring.head) = position :=
    Nat.add_sub_cancel' writes.unclaimed
  rw [waiting, waiting, after, before]
  change (List.range' state.ring.head (position + 1 - state.ring.head)).map state.ring.storageAt = _
  rw [longer, List.range'_1_concat, List.map_append, place, ← stored]
  rfl

/-- What a claim at the head does to the queue. -/
theorem OneWriter.claimHead (oneWriter : OneWriter writer state)
    (consistent : Consistent start events state) (several : 2 ≤ capacity)
    (idle : state.holds agent = .none)
    (filled : state.ring.sequenceAt state.ring.head = state.ring.head + 1) :
    state.waiting writer = state.ring.storageAt state.ring.head ::
      (state.after agent .claimHead (.reading state.ring.head)).waiting writer := by
  have nonempty := consistent.valid.not_empty several filled
  have some : state.ring.head < state.published writer := by
    rw [published]
    cases here : (state.holds writer).writes? with
    | none => exact nonempty
    | some position =>
        rw [← oneWriter.last position here] at nonempty
        refine Nat.lt_of_le_of_ne (Nat.le_of_lt_succ nonempty) fun same => ?_
        have unfilled := (consistent.writes here).sequence
        change state.ring.head = position at same
        rw [← same, filled] at unfilled
        exact Nat.succ_ne_self _ unfilled
  have same : (state.after agent .claimHead (.reading state.ring.head)).published writer =
      state.published writer := published_after (by rw [idle]; rfl) rfl
  have shorter : state.published writer - state.ring.head =
      state.published writer - (state.ring.head + 1) + 1 := by omega
  rw [waiting, waiting, same, shorter, List.range'_succ]
  rfl

/-- A move that keeps the ends and writes no published slot. -/
theorem OneWriter.unmoved (oneWriter : OneWriter writer state)
    (consistent : Consistent start events state) (owned : Owned state) (agent : Agent)
    (operation : SlotRing.Operation α) (held : Hold α)
    (same : held.writes? = (state.holds agent).writes?)
    (tail : (state.ring.apply operation).tail = state.ring.tail)
    (head : (state.ring.apply operation).head = state.ring.head)
    (stored : ∀ position, state.ring.Ready position →
      (state.ring.apply operation).storageAt position = state.ring.storageAt position) :
    OneWriter writer (state.after agent operation held) ∧
      (state.after agent operation held).waiting writer = state.waiting writer :=
  ⟨oneWriter.keep (fun _ writes => same ▸ writes) tail,
    waiting_congr oneWriter owned consistent.valid head (published_after same tail) stored⟩

/-- Every move of an agent on a ring with one writer is a move on a queue. -/
theorem OneWriter.step (oneWriter : OneWriter writer state)
    (consistent : Consistent start events state) (owned : Owned state) (several : 2 ≤ capacity)
    (effected : Effect state.ring agent (state.holds agent) operation held event)
    (mine : event.claimsTail = true → agent = writer) :
    OneWriter writer (state.after agent operation held) ∧
      Queued (state.waiting writer) ((state.after agent operation held).waiting writer) state.due
        (state.after agent operation held).due event := by
  have holding := consistent.holding agent
  have due := consistent.due_after several effected
  have kept := consistent.due_eq several effected
  generalize here : state.holds agent = hold at effected holding
  cases effected with
  | @claimTail item free =>
      obtain rfl := mine rfl
      refine ⟨oneWriter.claimTail, ?_, kept ?_⟩
      · refine waiting_congr oneWriter owned consistent.valid rfl ?_ fun _ _ => rfl
        rw [published, published, after_holds_self, here]
        rfl
      · rw [RingProtocol.due, RingProtocol.due, after_holds_self, here]
  | @write position item =>
      obtain ⟨alone, same⟩ := oneWriter.unmoved consistent owned agent (.store position item)
        (.written position item) (by rw [here]; rfl) rfl rfl
        fun _ ready => SlotRing.storageAt_store_of_ne
          (holding.1.slot_ne_ready consistent.valid ready).symm
      refine ⟨alone, same, kept ?_⟩
      rw [RingProtocol.due, RingProtocol.due, after_holds_self, here]
  | @publish position item =>
      obtain rfl := oneWriter.only agent position (congrArg Hold.writes? here)
      refine ⟨oneWriter.keep nofun rfl, oneWriter.publish here holding.1 holding.2.2.2, kept ?_⟩
      rw [RingProtocol.due, RingProtocol.due, after_holds_self, here]
  | claimHead filled =>
      refine ⟨oneWriter.keep nofun rfl, ?_, _, oneWriter.claimHead consistent several here filled, ?_⟩
      · rw [RingProtocol.due, here]
      · rw [due, RingProtocol.due, after_holds_self]
        rfl
  | @take position left =>
      obtain ⟨alone, same⟩ := oneWriter.unmoved consistent owned agent (.store position left)
        (.taken position (state.ring.storageAt position)) (by rw [here]; rfl) rfl rfl
        fun _ ready => SlotRing.storageAt_store_of_ne (holding.1.slot_ne_ready ready).symm
      refine ⟨alone, same, kept ?_⟩
      rw [RingProtocol.due, RingProtocol.due, after_holds_self, here]
  | @release position item =>
      obtain ⟨alone, same⟩ := oneWriter.unmoved consistent owned agent (.release position) .none
        (by rw [here]; rfl) rfl rfl fun _ _ => rfl
      refine ⟨alone, ?_, same, ?_⟩
      · rw [RingProtocol.due, here]
      · rw [due, RingProtocol.due, after_holds_self]

end MmoServer.Std.RingProtocol
