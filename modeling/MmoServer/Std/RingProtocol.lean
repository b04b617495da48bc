import MmoServer.Semantics.Explained
import MmoServer.Std.SlotRing

/-!
# Agents on a ring of slots

Any number of agents share a ring. An agent claims the position at the tail when
its slot is free, writes its item and publishes it; or it claims the position at
the head when its slot is filled, takes the item and releases the slot. The moves
of the agents interleave without restriction.

`Delivery` collects what a run guarantees: every position is claimed once at
either end, the item taken at a position is the one written there, and it is
handed out once. A concurrent queue that refines this protocol inherits all of it.
-/

namespace MmoServer.Std

open MmoServer.Semantics

/-- What an agent has of the ring. -/
inductive Hold (α : Type) where
  | none
  | writing (position : Nat) (item : α)
  | written (position : Nat) (item : α)
  | reading (position : Nat)
  | taken (position : Nat) (item : α)

/-- The position an agent has claimed and not given back. -/
def Hold.position? {α : Type} : Hold α → Option Nat
  | .none => Option.none
  | .writing position _ | .written position _ | .reading position | .taken position _ =>
    some position

/-- The position an agent writes. -/
def Hold.writes? {α : Type} : Hold α → Option Nat
  | .writing position _ | .written position _ => some position
  | _ => Option.none

/-- The position an agent reads. -/
def Hold.reads? {α : Type} : Hold α → Option Nat
  | .reading position | .taken position _ => some position
  | _ => Option.none

/-- A ring, and what each agent holds of it. -/
structure RingProtocol (Agent α : Type) (capacity : Nat) where
  ring : SlotRing α capacity
  holds : Agent → Hold α

/-- What an agent may do to the ring. -/
inductive RingMove (α : Type) where
  | claimTail (item : α)
  | write
  | publish
  | claimHead
  /-- Take the item and leave another value in the slot. -/
  | take (left : α)
  | release

/-- What a move shows of itself. -/
inductive RingEvent (Agent α : Type) where
  | claimedTail (agent : Agent) (position : Nat) (item : α)
  | wrote (agent : Agent) (position : Nat) (item : α)
  | published (agent : Agent) (position : Nat) (item : α)
  | claimedHead (agent : Agent) (position : Nat)
  | took (agent : Agent) (position : Nat) (item : α)
  | released (agent : Agent) (position : Nat) (item : α)

namespace RingEvent

variable {Agent α : Type}

/-- The position an event is about. -/
@[simp] def position : RingEvent Agent α → Nat
  | .claimedTail _ position _ | .wrote _ position _ | .published _ position _
  | .claimedHead _ position | .took _ position _ | .released _ position _ => position

/-- A position for writing has been claimed. -/
@[simp] def claimsTail : RingEvent Agent α → Bool
  | .claimedTail .. => true
  | _ => false

/-- A position for reading has been claimed. -/
@[simp] def claimsHead : RingEvent Agent α → Bool
  | .claimedHead .. => true
  | _ => false

/-- The item of the position has been moved out. -/
@[simp] def takes (position : Nat) : RingEvent Agent α → Bool
  | .took _ other _ => other = position
  | _ => false

/-- The slot of the position has been given back. -/
@[simp] def releases (position : Nat) : RingEvent Agent α → Bool
  | .released _ other _ => other = position
  | _ => false

end RingEvent

namespace RingProtocol

variable {Agent α : Type} {capacity : Nat} [NeZero capacity]

/-- What a move of an agent does to the ring, to the agent's hold, and what it shows. -/
def effect (ring : SlotRing α capacity) (agent : Agent) :
    RingMove α → Hold α → Option (SlotRing.Operation α × Hold α × RingEvent Agent α)
  | .claimTail item, .none =>
    if ring.sequenceAt ring.tail = ring.tail then
      some (.claimTail, .writing ring.tail item, .claimedTail agent ring.tail item)
    else none
  | .write, .writing position item =>
    some (.store position item, .written position item, .wrote agent position item)
  | .publish, .written position item =>
    some (.publish position, .none, .published agent position item)
  | .claimHead, .none =>
    if ring.sequenceAt ring.head = ring.head + 1 then
      some (.claimHead, .reading ring.head, .claimedHead agent ring.head)
    else none
  | .take left, .reading position =>
    some (.store position left, .taken position (ring.storageAt position),
      .took agent position (ring.storageAt position))
  | .release, .taken position item =>
    some (.release position, .none, .released agent position item)
  | _, _ => none

/-- `effect` as a relation. -/
inductive Effect (ring : SlotRing α capacity) (agent : Agent) :
    Hold α → SlotRing.Operation α → Hold α → RingEvent Agent α → Prop
  | claimTail {item} (free : ring.sequenceAt ring.tail = ring.tail) :
      Effect ring agent .none .claimTail (.writing ring.tail item)
        (.claimedTail agent ring.tail item)
  | write {position item} :
      Effect ring agent (.writing position item) (.store position item) (.written position item)
        (.wrote agent position item)
  | publish {position item} :
      Effect ring agent (.written position item) (.publish position) .none
        (.published agent position item)
  | claimHead (filled : ring.sequenceAt ring.head = ring.head + 1) :
      Effect ring agent .none .claimHead (.reading ring.head) (.claimedHead agent ring.head)
  | take {position left} :
      Effect ring agent (.reading position) (.store position left)
        (.taken position (ring.storageAt position))
        (.took agent position (ring.storageAt position))
  | release {position item} :
      Effect ring agent (.taken position item) (.release position) .none
        (.released agent position item)

/-- What one step of a refining program does for an agent: nothing, or one move. -/
inductive Moves (ring : SlotRing α capacity) (agent : Agent) (hold : Hold α) :
    SlotRing α capacity → Hold α → Option (RingEvent Agent α) → Prop
  | stutter : Moves ring agent hold ring hold none
  | move {operation held event} (effected : Effect ring agent hold operation held event) :
      Moves ring agent hold (ring.apply operation) held (some event)

variable [DecidableEq Agent]

/-- The state after an agent has applied an operation. -/
def after (state : RingProtocol Agent α capacity) (agent : Agent)
    (operation : SlotRing.Operation α) (hold : Hold α) : RingProtocol Agent α capacity where
  ring := state.ring.apply operation
  holds := Function.update state.holds agent hold

@[simp] theorem after_ring (state : RingProtocol Agent α capacity) (agent : Agent)
    (operation : SlotRing.Operation α) (hold : Hold α) :
    (state.after agent operation hold).ring = state.ring.apply operation := rfl

@[simp] theorem after_holds_self (state : RingProtocol Agent α capacity) (agent : Agent)
    (operation : SlotRing.Operation α) (hold : Hold α) :
    (state.after agent operation hold).holds agent = hold := Function.update_self ..

@[simp] theorem after_holds_of_ne (state : RingProtocol Agent α capacity) {agent other : Agent}
    (operation : SlotRing.Operation α) (hold : Hold α) (apart : other ≠ agent) :
    (state.after agent operation hold).holds other = state.holds other :=
  Function.update_of_ne apart ..

/-- The ring under any interleaving of its agents. -/
def system (Agent α : Type) (capacity : Nat) [NeZero capacity] [DecidableEq Agent] :
    TransitionSystem (RingProtocol Agent α capacity) (Agent × RingMove α) (RingEvent Agent α) where
  step state choice :=
    (effect state.ring choice.1 choice.2 (state.holds choice.1)).map fun moved =>
      (state.after choice.1 moved.1 moved.2.1, moved.2.2)

variable {state next : RingProtocol Agent α capacity} {agent other : Agent} {move : RingMove α}
  {ring : SlotRing α capacity} {hold held : Hold α} {operation : SlotRing.Operation α}
  {events : List (RingEvent Agent α)} {event : RingEvent Agent α} {position start : Nat} {item : α}

omit [DecidableEq Agent] in
/-- Every computed move is one of the listed effects. -/
theorem effect_sound (moved : effect ring agent move hold = some (operation, held, event)) :
    Effect ring agent hold operation held event := by
  unfold effect at moved
  split at moved
  · split at moved
    · next free =>
      cases moved
      exact .claimTail free
    · cases moved
  · cases moved
    exact .write
  · cases moved
    exact .publish
  · split at moved
    · next filled =>
      cases moved
      exact .claimHead filled
    · cases moved
  · cases moved
    exact .take
  · cases moved
    exact .release
  · cases moved

omit [DecidableEq Agent] in
/-- Every listed effect can be computed. -/
theorem Effect.complete (effected : Effect ring agent hold operation held event) :
    ∃ move, effect ring agent move hold = some (operation, held, event) := by
  cases effected with
  | @claimTail item free => exact ⟨.claimTail item, if_pos free⟩
  | write => exact ⟨.write, rfl⟩
  | publish => exact ⟨.publish, rfl⟩
  | claimHead filled => exact ⟨.claimHead, if_pos filled⟩
  | @take position left => exact ⟨.take left, rfl⟩
  | release => exact ⟨.release, rfl⟩

/-- Every step is an effect of one agent. -/
theorem step_sound (moved : (system Agent α capacity).step state (agent, move) =
    some (next, event)) : ∃ operation held,
      Effect state.ring agent (state.holds agent) operation held event ∧
      next = state.after agent operation held := by
  obtain ⟨⟨operation, held, shown⟩, effected, same⟩ := Option.map_eq_some_iff.mp moved
  cases same
  exact ⟨operation, held, effect_sound effected, rfl⟩

/-- Every effect of an agent is a step. -/
theorem Effect.run (effected : Effect state.ring agent (state.holds agent) operation held event)
    {before : RingProtocol Agent α capacity}
    (prior : (system Agent α capacity).Runs before events state) :
    (system Agent α capacity).Runs before (events ++ [event])
      (state.after agent operation held) := by
  obtain ⟨move, moved⟩ := effected.complete
  have transition : (system Agent α capacity).step state (agent, move) =
      some (state.after agent operation held, event) := by
    change (effect state.ring agent move (state.holds agent)).map _ = _
    rw [moved]
    rfl
  exact .step prior transition trivial

/-- A step that refines the protocol continues its run. -/
theorem Moves.run {nextRing : SlotRing α capacity} {label : Option (RingEvent Agent α)}
    (moves : Moves state.ring agent (state.holds agent) nextRing held label)
    {before : RingProtocol Agent α capacity}
    (prior : (system Agent α capacity).Runs before events state) :
    (system Agent α capacity).Runs before (events ++ label.toList)
      { ring := nextRing, holds := Function.update state.holds agent held } := by
  generalize mine : state.holds agent = hold at moves
  cases moves with
  | stutter =>
      rw [← mine, Function.update_eq_self, Option.toList_none, List.append_nil]
      exact prior
  | move effected =>
      subst mine
      exact effected.run prior

/-! ## The invariant -/

/-- What must have happened before an event. -/
def Explains (start : Nat) (before : List (RingEvent Agent α)) : RingEvent Agent α → Prop
  | .claimedTail _ position _ => position = start + tally RingEvent.claimsTail before
  | .wrote agent position item => .claimedTail agent position item ∈ before
  | .published agent position item => .wrote agent position item ∈ before
  | .claimedHead _ position => position = start + tally RingEvent.claimsHead before
  | .took agent position item => .claimedHead agent position ∈ before ∧
      (∃ producer, .published producer position item ∈ before) ∧
      tally (RingEvent.takes position) before = 0
  | .released agent position item => .took agent position item ∈ before ∧
      tally (RingEvent.releases position) before = 0

/-- What the trace says about an agent's hold. -/
def Holding (ring : SlotRing α capacity) (events : List (RingEvent Agent α)) (agent : Agent) :
    Hold α → Prop
  | .none => True
  | .writing position item => ring.Writes position ∧ .claimedTail agent position item ∈ events
  | .written position item => ring.Writes position ∧ .claimedTail agent position item ∈ events ∧
      .wrote agent position item ∈ events ∧ ring.storageAt position = item
  | .reading position => ring.Reads position ∧ .claimedHead agent position ∈ events ∧
      (∃ producer, .published producer position (ring.storageAt position) ∈ events) ∧
      tally (RingEvent.takes position) events = 0
  | .taken position item => ring.Reads position ∧ .claimedHead agent position ∈ events ∧
      .took agent position item ∈ events ∧ tally (RingEvent.releases position) events = 0

omit [DecidableEq Agent] in
/-- A hold with a position is a writer's or a reader's. -/
theorem Holding.role {ring : SlotRing α capacity} {events : List (RingEvent Agent α)} {agent : Agent}
    {hold : Hold α} {position : Nat} (holding : Holding ring events agent hold)
    (here : hold.position? = some position) :
    (ring.Writes position ∧ ∃ item, .claimedTail agent position item ∈ events) ∨
      (ring.Reads position ∧ .claimedHead agent position ∈ events) := by
  cases hold with
  | none => cases here
  | writing | written =>
      cases here
      exact .inl ⟨holding.1, _, by first | exact holding.2.1 | exact holding.2⟩
  | reading | taken =>
      cases here
      exact .inr ⟨holding.1, holding.2.1⟩

/-- The invariant of all runs from a ring that starts at a given position. -/
structure Consistent (start : Nat) (events : List (RingEvent Agent α))
    (state : RingProtocol Agent α capacity) : Prop where
  valid : state.ring.Valid
  tail : state.ring.tail = start + tally RingEvent.claimsTail events
  head : state.ring.head = start + tally RingEvent.claimsHead events
  holding : ∀ agent, Holding state.ring events agent (state.holds agent)
  ready : ∀ position, state.ring.Ready position →
    ∃ producer, .published producer position (state.ring.storageAt position) ∈ events
  explained : Explained (Explains start) events

/-! ## What the trace says -/

section Trace

omit [DecidableEq Agent]

/-- The claims at the tail are numbered without a gap. -/
theorem claimsTail_numbered : Numbered (@Explains Agent α start)
    RingEvent.claimsTail RingEvent.position start := by
  intro before event explanation counts
  cases event <;> first | exact explanation | cases counts

/-- So are those at the head. -/
theorem claimsHead_numbered : Numbered (@Explains Agent α start)
    RingEvent.claimsHead RingEvent.position start := by
  intro before event explanation counts
  cases event <;> first | exact explanation | cases counts

variable {second : α} (explained : Explained (Explains start) events)
include explained

/-- A position is claimed at the tail once. -/
theorem claimedTail_unique (claimed : .claimedTail agent position item ∈ events)
    (also : .claimedTail other position second ∈ events) : agent = other ∧ item = second := by
  have same := claimsTail_numbered.unique explained claimed also rfl rfl rfl
  cases same
  exact ⟨rfl, rfl⟩

/-- A position is claimed at the head once. -/
theorem claimedHead_unique (claimed : .claimedHead agent position ∈ events)
    (also : .claimedHead other position ∈ events) : agent = other := by
  have same := claimsHead_numbered.unique explained claimed also rfl rfl rfl
  cases same
  rfl

/-- An item is taken from a position that was claimed at the head, after it was published. -/
theorem took_explained (took : .took agent position item ∈ events) :
    .claimedHead agent position ∈ events ∧ ∃ producer, .published producer position item ∈ events := by
  obtain ⟨before, ⟨after, rfl⟩, claimed, ⟨producer, published⟩, _⟩ := explained.of_mem took
  exact ⟨List.mem_append_left _ claimed, producer, List.mem_append_left _ published⟩

/-- A position that is released was taken. -/
theorem released_explained (released : .released agent position item ∈ events) :
    .took agent position item ∈ events := by
  obtain ⟨before, ⟨after, rfl⟩, took, _⟩ := explained.of_mem released
  exact List.mem_append_left _ took

/-- A published item was written by the agent that claimed the position. -/
theorem published_explained (published : .published agent position item ∈ events) :
    .wrote agent position item ∈ events ∧ .claimedTail agent position item ∈ events := by
  obtain ⟨before, ⟨after, rfl⟩, wrote⟩ := explained.of_mem published
  obtain ⟨earlier, ⟨later, rfl⟩, claimed⟩ := explained.of_append.of_mem wrote
  exact ⟨List.mem_append_left _ wrote,
    List.mem_append_left _ (List.mem_append_left _ claimed)⟩

/-- A position is released once. -/
theorem released_once (position : Nat) : tally (RingEvent.releases position) events ≤ 1 := by
  apply explained.tally_le_one
  intro before event _ explanation counts
  cases event <;> first | cases counts | skip
  obtain rfl : _ = position := by simpa using counts
  exact explanation.2

end Trace

/-! ## Every move keeps the invariant -/

section Step

omit [DecidableEq Agent]

/-- Whoever applies an operation is permitted to. -/
theorem Effect.permits (effected : Effect ring agent hold operation held event)
    (holding : Holding ring events agent hold) : ring.Permits operation := by
  cases effected with
  | claimTail free => exact free
  | write => exact .inl holding.1
  | publish => exact holding.1
  | claimHead filled => exact filled
  | take => exact .inr holding.1
  | release => exact holding.1

/-- What a producer has seen stays true along every step of an agent. -/
theorem Moves.keep_free {nextRing : SlotRing α capacity} {label : Option (RingEvent Agent α)}
    (moves : Moves ring agent hold nextRing held label) (several : 2 ≤ capacity)
    (holding : Holding ring events agent hold) (seen : ring.SeenFree position) :
    nextRing.SeenFree position := by
  cases moves with
  | stutter => exact seen
  | move effected => exact seen.apply several (effected.permits holding)

/-- What a consumer has seen stays true along every step of an agent. -/
theorem Moves.keep_filled {nextRing : SlotRing α capacity} {label : Option (RingEvent Agent α)}
    (moves : Moves ring agent hold nextRing held label) (several : 2 ≤ capacity)
    (holding : Holding ring events agent hold) (seen : ring.SeenFilled position) :
    nextRing.SeenFilled position := by
  cases moves with
  | stutter => exact seen
  | move effected => exact seen.apply several (effected.permits holding)

/-- The ends of the ring never move back. -/
theorem Moves.ends_le {nextRing : SlotRing α capacity} {label : Option (RingEvent Agent α)}
    (moves : Moves ring agent hold nextRing held label) :
    ring.tail ≤ nextRing.tail ∧ ring.head ≤ nextRing.head := by
  cases moves with
  | stutter => exact ⟨Nat.le_refl _, Nat.le_refl _⟩
  | move effected =>
      cases effected <;> simp [SlotRing.apply, SlotRing.claimTail, SlotRing.claimHead,
        SlotRing.store, SlotRing.publish, SlotRing.release]

/-- An operation leaves a writer's position and its storage to the writer. -/
theorem Holding.keep_writes {mine : Hold α} (effected : Effect ring agent mine operation held event)
    (holding : Holding ring events agent mine) (explained : Explained (Explains start) events)
    (apart : agent ≠ other) (writes : ring.Writes position)
    (claimed : .claimedTail other position item ∈ events) :
    (ring.apply operation).Writes position ∧
      (ring.apply operation).storageAt position = ring.storageAt position := by
  have permits := effected.permits holding
  have differ : ∀ also second, .claimedTail agent also second ∈ events → position ≠ also := by
    rintro also second ours rfl
    exact apart (claimedTail_unique explained ours claimed).1
  cases effected with
  | claimTail | claimHead => exact ⟨writes.apply permits nofun, rfl⟩
  | @write also second =>
      have slots := writes.slot_ne holding.1 (differ also second holding.2)
      exact ⟨writes.apply permits nofun, SlotRing.storageAt_store_of_ne slots⟩
  | @publish also second =>
      have positions := differ also second holding.2.1
      refine ⟨writes.apply permits ?_, rfl⟩
      intro same
      cases same
      exact positions rfl
  | take =>
      have slots := holding.1.slot_ne_writes writes
      exact ⟨writes.apply permits nofun, SlotRing.storageAt_store_of_ne slots.symm⟩
  | release => exact ⟨writes.apply permits nofun, rfl⟩

/-- An operation leaves a reader's position and its storage to the reader. -/
theorem Holding.keep_reads {mine : Hold α} (several : 2 ≤ capacity)
    (effected : Effect ring agent mine operation held event)
    (holding : Holding ring events agent mine) (explained : Explained (Explains start) events)
    (apart : agent ≠ other) (reads : ring.Reads position)
    (claimed : .claimedHead other position ∈ events) :
    (ring.apply operation).Reads position ∧
      (ring.apply operation).storageAt position = ring.storageAt position ∧
      event.takes position = false ∧ event.releases position = false := by
  have permits := effected.permits holding
  have differ : ∀ also, .claimedHead agent also ∈ events → position ≠ also := by
    rintro also ours rfl
    exact apart (claimedHead_unique explained ours claimed)
  cases effected with
  | claimTail | claimHead | publish => exact ⟨reads.apply several permits nofun, rfl, rfl, rfl⟩
  | write =>
      have slots := reads.slot_ne_writes holding.1
      exact ⟨reads.apply several permits nofun, SlotRing.storageAt_store_of_ne slots, rfl, rfl⟩
  | @take also left =>
      have positions := differ also holding.2.1
      have slots := reads.slot_ne holding.1 positions
      exact ⟨reads.apply several permits nofun, SlotRing.storageAt_store_of_ne slots,
        decide_eq_false positions.symm, rfl⟩
  | @release also second =>
      have positions := differ also holding.2.1
      refine ⟨reads.apply several permits ?_, rfl, rfl, decide_eq_false positions.symm⟩
      intro same
      cases same
      exact positions rfl

/-- A move of one agent keeps what every other agent holds. -/
theorem Holding.keep {mine : Hold α} (several : 2 ≤ capacity)
    (effected : Effect ring agent mine operation held event)
    (holding : Holding ring events agent mine) (explained : Explained (Explains start) events)
    (apart : agent ≠ other) (theirs : Holding ring events other hold) :
    Holding (ring.apply operation) (events ++ [event]) other hold := by
  have grow : ∀ {each : RingEvent Agent α}, each ∈ events → each ∈ events ++ [event] :=
    List.mem_append_left _
  cases hold with
  | none => trivial
  | writing position item =>
      obtain ⟨writes, claimed⟩ := theirs
      have kept := holding.keep_writes effected explained apart writes claimed
      exact ⟨kept.1, grow claimed⟩
  | written position item =>
      obtain ⟨writes, claimed, wrote, stored⟩ := theirs
      have kept := holding.keep_writes effected explained apart writes claimed
      exact ⟨kept.1, grow claimed, grow wrote, kept.2.trans stored⟩
  | reading position =>
      obtain ⟨reads, claimed, ⟨producer, published⟩, untaken⟩ := theirs
      obtain ⟨reads', stored, takes, _⟩ :=
        holding.keep_reads several effected explained apart reads claimed
      refine ⟨reads', grow claimed, ⟨producer, stored ▸ grow published⟩, ?_⟩
      rw [tally_concat, takes, untaken]
      rfl
  | taken position item =>
      obtain ⟨reads, claimed, took, unreleased⟩ := theirs
      obtain ⟨reads', _, _, releases⟩ :=
        holding.keep_reads several effected explained apart reads claimed
      refine ⟨reads', grow claimed, grow took, ?_⟩
      rw [tally_concat, releases, unreleased]
      rfl

/-- The mover's own hold after a move. -/
theorem Effect.holding (effected : Effect ring agent hold operation held event)
    (before : Holding ring events agent hold) (valid : ring.Valid) (several : 2 ≤ capacity)
    (ready : ∀ position, ring.Ready position →
      ∃ producer, .published producer position (ring.storageAt position) ∈ events)
    (untaken : ∀ position, ring.head ≤ position → tally (RingEvent.takes position) events = 0)
    (unreleased : ∀ position, tally (RingEvent.takes position) events = 0 →
      tally (RingEvent.releases position) events = 0) :
    Holding (ring.apply operation) (events ++ [event]) agent held := by
  cases effected with
  | claimTail free => exact ⟨SlotRing.writes_claimTail valid free, by simp⟩
  | write =>
      obtain ⟨writes, claimed⟩ := before
      exact ⟨writes.apply (.inl writes) nofun, List.mem_append_left _ claimed, by simp,
        SlotRing.storageAt_store_self⟩
  | publish | release => trivial
  | claimHead filled =>
      obtain ⟨producer, published⟩ :=
        ready ring.head ⟨Nat.le_refl _, valid.not_empty several filled, filled⟩
      refine ⟨SlotRing.reads_claimHead valid filled, by simp,
        ⟨producer, List.mem_append_left _ published⟩, ?_⟩
      rw [tally_concat, untaken ring.head (Nat.le_refl _)]
      rfl
  | @take position left =>
      obtain ⟨reads, claimed, _, none⟩ := before
      refine ⟨reads.apply several (.inr reads) nofun, List.mem_append_left _ claimed, by simp, ?_⟩
      rw [tally_concat, unreleased position none]
      rfl

/-- What a move shows is explained by what its agent holds. -/
theorem Effect.explains (effected : Effect ring agent hold operation held event)
    (holding : Holding ring events agent hold)
    (tail : ring.tail = start + tally RingEvent.claimsTail events)
    (head : ring.head = start + tally RingEvent.claimsHead events) :
    Explains start events event := by
  cases effected with
  | claimTail => exact tail
  | claimHead => exact head
  | write => exact holding.2
  | publish => exact holding.2.2.1
  | take => exact holding.2
  | release => exact ⟨holding.2.2.1, holding.2.2.2⟩

/-- The ends of the ring move with the claims. -/
theorem Effect.ends (effected : Effect ring agent hold operation held event) :
    (ring.apply operation).tail = ring.tail + (if event.claimsTail then 1 else 0) ∧
      (ring.apply operation).head = ring.head + if event.claimsHead then 1 else 0 := by
  cases effected <;> exact ⟨rfl, rfl⟩

/-- The published items are still stored, and a newly published one is. -/
theorem Effect.ready (effected : Effect ring agent hold operation held event)
    (holding : Holding ring events agent hold) (valid : ring.Valid)
    (ready : ∀ position, ring.Ready position →
      ∃ producer, .published producer position (ring.storageAt position) ∈ events)
    (now : (ring.apply operation).Ready position) : ∃ producer,
      .published producer position ((ring.apply operation).storageAt position) ∈
        events ++ [event] := by
  rcases now.of_apply valid (effected.permits holding) with rfl | before
  · cases effected with
    | publish =>
        obtain ⟨_, _, _, rfl⟩ := holding
        exact ⟨agent, List.mem_append_right _ (List.mem_singleton.mpr rfl)⟩
  · obtain ⟨producer, published⟩ := ready position before
    have stored : (ring.apply operation).storageAt position = ring.storageAt position := by
      cases effected with
      | claimTail | claimHead | publish | release => rfl
      | write => exact SlotRing.storageAt_store_of_ne (holding.1.slot_ne_ready valid before).symm
      | take => exact SlotRing.storageAt_store_of_ne (holding.1.slot_ne_ready before).symm
    exact ⟨producer, stored ▸ List.mem_append_left _ published⟩

end Step

/-- Every step of the protocol keeps its invariant. -/
theorem Consistent.step (consistent : Consistent start events state) (several : 2 ≤ capacity)
    (effected : Effect state.ring agent (state.holds agent) operation held event) :
    Consistent start (events ++ [event]) (state.after agent operation held) := by
  obtain ⟨valid, tail, head, holding, ready, explained⟩ := consistent
  have permits := effected.permits (holding agent)
  constructor
  · exact valid.apply several permits
  · rw [after_ring, effected.ends.1, tail, tally_concat, Nat.add_assoc]
  · rw [after_ring, effected.ends.2, head, tally_concat, Nat.add_assoc]
  · intro other
    by_cases mine : other = agent
    · subst mine
      rw [after_holds_self]
      apply effected.holding (holding other) valid several ready
      · intro position beyond
        by_contra positive
        obtain ⟨event, member, takes⟩ := tally_pos_iff.mp (Nat.pos_of_ne_zero positive)
        cases event <;> first | cases takes | skip
        obtain rfl : _ = position := by simpa using takes
        have claimed := (took_explained explained member).1
        have below := (claimsHead_numbered.bounds explained claimed rfl).2
        rw [← head] at below
        exact absurd beyond (Nat.not_le.mpr below)
      · intro position untaken
        by_contra positive
        obtain ⟨event, member, releases⟩ := tally_pos_iff.mp (Nat.pos_of_ne_zero positive)
        cases event <;> first | cases releases | skip
        obtain rfl : _ = position := by simpa using releases
        have took := released_explained explained member
        have taken := tally_eq_zero_iff.mp untaken _ took
        simp at taken
    · rw [after_holds_of_ne _ _ _ mine]
      exact (holding agent).keep several effected explained (Ne.symm mine) (holding other)
  · intro position now
    exact effected.ready (holding agent) valid ready now
  · exact explained_concat.mpr ⟨explained, effected.explains (holding agent) tail head⟩

/-- The protocol before its first move. -/
def startedAt (start : Nat) (storage : Fin capacity → α) : RingProtocol Agent α capacity where
  ring := { head := start, tail := start, sequence := fun slot => start + slot, storage }
  holds _ := .none

omit [DecidableEq Agent] in
/-- A new ring is consistent with the empty history. -/
theorem consistent_startedAt {storage : Fin capacity → α} (lap : capacity ∣ start) :
    Consistent start [] (startedAt start storage : RingProtocol Agent α capacity) := by
  constructor
  · exact SlotRing.valid_of_start lap fun _ => rfl
  · rfl
  · rfl
  · exact fun _ => trivial
  · intro position ready
    exact absurd ready.unclaimed (Nat.not_le.mpr ready.claimed)
  · exact explained_nil

/-- Every run from the start is consistent. -/
theorem consistent_of_runs {storage : Fin capacity → α} (several : 2 ≤ capacity)
    (lap : capacity ∣ start)
    (run : (system Agent α capacity).Runs (startedAt start storage) events state) :
    Consistent start events state := by
  apply run.invariant (Consistent start) (consistent_startedAt lap)
  rintro events state ⟨agent, move⟩ next event - consistent transition -
  obtain ⟨operation, held, effected, rfl⟩ := step_sound transition
  exact consistent.step several effected

/-! ## What a run guarantees -/

section Guarantees

omit [DecidableEq Agent]

variable {later : List (RingEvent Agent α)}

/-- Two agents never hold the same slot. -/
theorem Consistent.exclusive (consistent : Consistent start events state)
    {position second : Nat} (mine : (state.holds agent).position? = some position)
    (theirs : (state.holds other).position? = some second)
    (same : (SlotRing.slotOf position : Fin capacity) = SlotRing.slotOf second) :
    agent = other := by
  have explained := consistent.explained
  rcases (consistent.holding agent).role mine with ⟨writes, item, claimed⟩ | ⟨reads, claimed⟩ <;>
    rcases (consistent.holding other).role theirs with ⟨writes', item', claimed'⟩ |
      ⟨reads', claimed'⟩
  · obtain rfl : position = second := by
      by_contra differ
      exact writes.slot_ne writes' differ same
    exact (claimedTail_unique explained claimed claimed').1
  · exact absurd same.symm (reads'.slot_ne_writes writes)
  · exact absurd same (reads.slot_ne_writes writes')
  · obtain rfl : position = second := by
      by_contra differ
      exact reads.slot_ne reads' differ same
    exact claimedHead_unique explained claimed claimed'

/-- A position below one that is claimed at the head has been claimed before. -/
theorem claimedHead_before (explained : Explained (Explains start)
      (events ++ .claimedHead agent position :: later)) {earlier : Nat}
    (low : start ≤ earlier) (below : earlier < position) :
    ∃ consumer, .claimedHead consumer earlier ∈ events := by
  have number : position = start + tally RingEvent.claimsHead events :=
    explained events _ later rfl
  have inside : earlier - start < tally RingEvent.claimsHead events := by omega
  obtain ⟨event, member, claims, same⟩ :=
    claimsHead_numbered.exists_event explained.of_append inside
  cases event with
  | claimedHead consumer found =>
      obtain rfl : found = earlier := by
        change found = start + (earlier - start) at same
        omega
      exact ⟨consumer, member⟩
  | _ => cases claims

end Guarantees

end RingProtocol
end MmoServer.Std
