import MmoServer.Std.RingProtocol

/-!
# The history of a ring

What the runs of the ring protocol say about its past and its present: every used
slot has a user, a published item that nobody has claimed is still stored, a slot
is written again only after its last reader has released it, and an agent publishes
its positions in order.
-/

namespace MmoServer.Std.RingProtocol

open MmoServer.Semantics

variable {Agent α : Type} {capacity start position : Nat} [NeZero capacity]
  {ring : SlotRing α capacity} {agent : Agent} {hold held : Hold α}
  {operation : SlotRing.Operation α} {event : RingEvent Agent α}
  {events : List (RingEvent Agent α)} [DecidableEq Agent]
  {state : RingProtocol Agent α capacity} {storage : Fin capacity → α}

/-! ## Every used slot has a user -/

/-- A claimed position that is not given back is held by an agent. -/
structure Owned (state : RingProtocol Agent α capacity) : Prop where
  writers : ∀ position, state.ring.Writes position →
    ∃ agent, (state.holds agent).writes? = some position
  readers : ∀ position, state.ring.Reads position →
    ∃ agent, (state.holds agent).reads? = some position

omit [DecidableEq Agent] in
/-- What a move does to the position an agent writes. -/
theorem Effect.writes (effected : Effect ring agent hold operation held event)
    (before : hold.writes? = some position) (unpublished : operation ≠ .publish position) :
    held.writes? = some position := by
  cases effected with
  | claimTail | claimHead | take | release => cases before
  | write => exact before
  | publish =>
      cases before
      exact absurd rfl unpublished

omit [DecidableEq Agent] in
/-- What a move does to the position an agent reads. -/
theorem Effect.reads (effected : Effect ring agent hold operation held event)
    (before : hold.reads? = some position) (unreleased : operation ≠ .release position) :
    held.reads? = some position := by
  cases effected with
  | claimTail | claimHead | write | publish => cases before
  | take => exact before
  | release =>
      cases before
      exact absurd rfl unreleased

/-- Every step keeps every used slot owned. -/
theorem Owned.step (owned : Owned state) (several : 2 ≤ capacity)
    (effected : Effect state.ring agent (state.holds agent) operation held event)
    (permits : state.ring.Permits operation) : Owned (state.after agent operation held) := by
  constructor
  · intro position writes
    rcases writes.of_apply several permits with ⟨rfl, rfl⟩ | ⟨before, unpublished⟩
    · refine ⟨agent, ?_⟩
      rw [after_holds_self]
      generalize state.holds agent = hold at effected
      cases effected
      rfl
    · obtain ⟨owner, holds⟩ := owned.writers position before
      refine ⟨owner, ?_⟩
      by_cases mine : owner = agent
      · subst mine
        rw [after_holds_self]
        exact effected.writes holds unpublished
      · rw [after_holds_of_ne _ _ _ mine]
        exact holds
  · intro position reads
    rcases reads.of_apply several permits with ⟨rfl, rfl⟩ | ⟨before, unreleased⟩
    · refine ⟨agent, ?_⟩
      rw [after_holds_self]
      generalize state.holds agent = hold at effected
      cases effected
      rfl
    · obtain ⟨owner, holds⟩ := owned.readers position before
      refine ⟨owner, ?_⟩
      by_cases mine : owner = agent
      · subst mine
        rw [after_holds_self]
        exact effected.reads holds unreleased
      · rw [after_holds_of_ne _ _ _ mine]
        exact holds

/-- In every run from the start every used slot has a user. -/
theorem owned_of_runs {storage : Fin capacity → α} (several : 2 ≤ capacity)
    (lap : capacity ∣ start)
    (run : (system Agent α capacity).Runs (startedAt start storage) events state) :
    Owned state := by
  apply run.invariant fun _ state => Owned state
  · constructor
    · intro position writes
      exact absurd writes.unclaimed (Nat.not_le.mpr writes.claimed)
    · intro position reads
      have free : (startedAt start storage : RingProtocol Agent α capacity).ring.sequenceAt
          (position + capacity) = position + capacity :=
        SlotRing.sequenceAt_of_start lap (fun _ => rfl) reads.near
          (Nat.add_lt_add_right reads.claimed capacity)
      rw [SlotRing.sequenceAt_add_capacity, reads.sequence] at free
      omega
  · rintro events state ⟨agent, move⟩ next event prior owned transition -
    obtain ⟨operation, held, effected, rfl⟩ := step_sound transition
    have consistent := consistent_of_runs several lap prior
    exact owned.step several effected (effected.permits (consistent.holding agent))

omit [DecidableEq Agent] in
/-- When no agent has a slot, none is written or read. -/
theorem Owned.quiet (owned : Owned state) (idle : ∀ agent, state.holds agent = .none) :
    state.ring.Quiet := by
  constructor
  · intro position writes
    obtain ⟨agent, holds⟩ := owned.writers position writes
    rw [idle agent] at holds
    cases holds
  · intro position reads
    obtain ⟨agent, holds⟩ := owned.readers position reads
    rw [idle agent] at holds
    cases holds

/-! ## Published items are stored until they are claimed -/

/-- A published item is stored, or its position has been claimed at the head. -/
def Kept (events : List (RingEvent Agent α)) (state : RingProtocol Agent α capacity) : Prop :=
  ∀ producer position item, .published producer position item ∈ events →
    position < state.ring.head ∨
      (state.ring.Ready position ∧ state.ring.storageAt position = item)

/-- Every move keeps the published items in their slots. -/
theorem Kept.step (kept : Kept events state) (consistent : Consistent start events state)
    (effected : Effect state.ring agent (state.holds agent) operation held event) :
    Kept (events ++ [event]) (state.after agent operation held) := by
  have permits := effected.permits (consistent.holding agent)
  intro producer position item published
  rcases List.mem_append.mp published with earlier | now
  · rcases kept producer position item earlier with claimed | ⟨ready, stored⟩
    · refine .inl (Nat.lt_of_lt_of_le claimed ?_)
      rw [after_ring, effected.ends.2]
      exact Nat.le_add_right _ _
    · by_cases claims : operation = .claimHead ∧ position = state.ring.head
      · obtain ⟨rfl, rfl⟩ := claims
        exact .inl (Nat.lt_succ_self _)
      · have unclaimed : operation = .claimHead → position ≠ state.ring.head :=
          fun same here => claims ⟨same, here⟩
        obtain ⟨ready', same⟩ := ready.apply consistent.valid permits unclaimed
        exact .inr ⟨ready', same.trans stored⟩
  · obtain rfl : _ = event := by simpa using now
    have holding := consistent.holding agent
    rw [after_ring]
    generalize state.holds agent = hold at effected holding
    cases effected with
    | publish =>
        obtain ⟨writes, _, _, stored⟩ := holding
        exact .inr ⟨⟨writes.unclaimed, writes.claimed, SlotRing.sequenceAt_publish_self⟩, stored⟩

/-- They are kept along every run. -/
theorem kept_of_runs (several : 2 ≤ capacity) (lap : capacity ∣ start)
    (run : (system Agent α capacity).Runs (startedAt start storage) events state) :
    Kept events state := by
  apply run.invariant Kept
  · exact fun _ _ _ published => absurd published List.not_mem_nil
  · rintro events state ⟨agent, move⟩ next event prior kept transition -
    obtain ⟨operation, held, effected, rfl⟩ := step_sound transition
    exact kept.step (consistent_of_runs several lap prior) effected

/-! ## Slots are released before they are written again -/

/-- A slot that waits for the next lap has been released by its last reader. -/
def Freed (start : Nat) (events : List (RingEvent Agent α))
    (state : RingProtocol Agent α capacity) : Prop :=
  ∀ position, start ≤ position → state.ring.sequenceAt position = position + capacity →
    ∃ consumer item, .released consumer position item ∈ events

/-- Every move keeps the vacant slots explained. -/
theorem Freed.step (freed : Freed start events state) (several : 2 ≤ capacity)
    (effected : Effect state.ring agent (state.holds agent) operation held event) :
    Freed start (events ++ [event]) (state.after agent operation held) := by
  intro position low waits
  rw [after_ring] at waits
  have before : state.ring.sequenceAt position = position + capacity →
      ∃ consumer item, .released consumer position item ∈ events ++ [event] := by
    intro same
    obtain ⟨consumer, item, released⟩ := freed position low same
    exact ⟨consumer, item, List.mem_append_left _ released⟩
  generalize state.holds agent = hold at effected
  cases effected with
  | claimTail | write | claimHead | take => exact before waits
  | @publish other =>
      by_cases same : (SlotRing.slotOf position : Fin capacity) = SlotRing.slotOf other
      · -- The slot of the next position is another one.
        have next : other + 1 = position + capacity := by
          rw [← waits, SlotRing.sequenceAt, same]
          exact SlotRing.sequenceAt_publish_self.symm
        have close : (SlotRing.slotOf (other + 1) : Fin capacity) = SlotRing.slotOf other := by
          rw [next, SlotRing.slotOf_add_capacity, same]
        exact absurd close (SlotRing.slotOf_succ_ne several)
      · exact before ((SlotRing.sequenceAt_publish_of_ne same).symm.trans waits)
  | @release other item =>
      by_cases same : (SlotRing.slotOf position : Fin capacity) = SlotRing.slotOf other
      · have lap : other + capacity = position + capacity := by
          rw [← waits, SlotRing.sequenceAt, same]
          exact SlotRing.sequenceAt_release_self.symm
        obtain rfl : other = position := Nat.add_right_cancel lap
        exact ⟨agent, item, by simp⟩
      · exact before ((SlotRing.sequenceAt_release_of_ne same).symm.trans waits)

/-- They are explained along every run. -/
theorem freed_of_runs (several : 2 ≤ capacity)
    (run : (system Agent α capacity).Runs (startedAt start storage) events state) :
    Freed start events state := by
  apply run.invariant (Freed start)
  · intro position low waits
    have below : (startedAt start storage : RingProtocol Agent α capacity).ring.sequenceAt position <
        start + capacity := Nat.add_lt_add_left (Fin.isLt _) _
    omega
  · rintro events state ⟨agent, move⟩ next event - freed transition -
    obtain ⟨operation, held, effected, rfl⟩ := step_sound transition
    exact freed.step several effected

/-- The position of the lap before has been released when an event claims a position. -/
def Reuses (start capacity : Nat) (before : List (RingEvent Agent α)) : RingEvent Agent α → Prop
  | .claimedTail _ position _ => ∀ earlier, start ≤ earlier → earlier + capacity = position →
      ∃ consumer item, .released consumer earlier item ∈ before
  | _ => True

/-- A slot is claimed again only after its release. -/
theorem reuses_of_runs (several : 2 ≤ capacity)
    (run : (system Agent α capacity).Runs (startedAt start storage) events state) :
    Explained (Reuses start capacity) events := by
  apply run.invariant fun events _ => Explained (Reuses start capacity) events
  · exact explained_nil
  · rintro events state ⟨agent, move⟩ next event prior reuses transition -
    obtain ⟨operation, held, effected, rfl⟩ := step_sound transition
    have freed := freed_of_runs several prior
    refine explained_concat.mpr ⟨reuses, ?_⟩
    generalize state.holds agent = hold at effected
    cases effected with
    | claimTail free =>
        intro earlier low same
        apply freed earlier low
        rw [← SlotRing.sequenceAt_add_capacity, same, free]
    | write | publish | claimHead | take | release => trivial

/-! ## An agent publishes its positions in order -/

/-- What an agent writes comes after what it has published. -/
def Sequential (events : List (RingEvent Agent α)) (state : RingProtocol Agent α capacity) : Prop :=
  ∀ agent position, (state.holds agent).writes? = some position →
    ∀ earlier item, .published agent earlier item ∈ events → earlier < position

/-- What an agent has published before comes before what it publishes. -/
def InOrder (before : List (RingEvent Agent α)) : RingEvent Agent α → Prop
  | .published agent position _ =>
      ∀ earlier item, .published agent earlier item ∈ before → earlier < position
  | _ => True

omit [DecidableEq Agent] in
/-- An effect leaves its agent writing what it wrote, or the position at the tail. -/
theorem Effect.writes_cases (effected : Effect ring agent hold operation held event)
    (writes : held.writes? = some position) :
    (hold.writes? = some position ∨ position = ring.tail) ∧
      ∀ earlier item, event ≠ .published agent earlier item := by
  cases effected with
  | claimTail =>
      cases writes
      exact ⟨.inr rfl, nofun⟩
  | write =>
      cases writes
      exact ⟨.inl rfl, nofun⟩
  | publish | claimHead | take | release => cases writes

/-- Every move keeps a single agent's positions in order. -/
theorem Sequential.step (sequential : Sequential events state)
    (consistent : Consistent start events state)
    (effected : Effect state.ring agent (state.holds agent) operation held event) :
    Sequential (events ++ [event]) (state.after agent operation held) := by
  intro other position writes earlier item published
  by_cases mine : other = agent
  · subst mine
    rw [after_holds_self] at writes
    obtain ⟨before, unpublished⟩ := effected.writes_cases writes
    have old : .published other earlier item ∈ events := by
      rcases List.mem_append.mp published with old | now
      · exact old
      · exact absurd (List.mem_singleton.mp now).symm (unpublished earlier item)
    rcases before with same | rfl
    · exact sequential other position same earlier item old
    · have claimed := (published_explained consistent.explained old).2
      have bounds := claimsTail_numbered.bounds consistent.explained claimed rfl
      rw [consistent.tail]
      exact bounds.2
  · rw [after_holds_of_ne _ _ _ mine] at writes
    have old : .published other earlier item ∈ events := by
      rcases List.mem_append.mp published with old | now
      · exact old
      · obtain rfl : _ = event := by simpa using now
        generalize state.holds agent = hold at effected
        cases effected
        exact absurd rfl mine
    exact sequential other position writes earlier item old

/-- They are in order along every run. -/
theorem sequential_of_runs (several : 2 ≤ capacity) (lap : capacity ∣ start)
    (run : (system Agent α capacity).Runs (startedAt start storage) events state) :
    Sequential events state := by
  apply run.invariant Sequential
  · exact fun _ _ _ _ _ published => absurd published List.not_mem_nil
  · rintro events state ⟨agent, move⟩ next event prior sequential transition -
    obtain ⟨operation, held, effected, rfl⟩ := step_sound transition
    exact sequential.step (consistent_of_runs several lap prior) effected

/-- Positions are released in order along every run. -/
theorem inOrder_of_runs (several : 2 ≤ capacity) (lap : capacity ∣ start)
    (run : (system Agent α capacity).Runs (startedAt start storage) events state) :
    Explained InOrder events := by
  apply run.invariant fun events _ => Explained InOrder events
  · exact explained_nil
  · rintro events state ⟨agent, move⟩ next event prior inOrder transition -
    obtain ⟨operation, held, effected, rfl⟩ := step_sound transition
    have sequential := sequential_of_runs several lap prior agent
    refine explained_concat.mpr ⟨inOrder, ?_⟩
    generalize state.holds agent = hold at effected sequential
    cases effected with
    | @publish position item => exact sequential position rfl
    | claimTail | write | claimHead | take | release => trivial

end MmoServer.Std.RingProtocol
