import MmoServer.Events.Publication
import MmoServer.Events.Subscribers

/-!
# Delivery

What a Publish call invokes. `stable_subscribers_invoked` is about any number of
threads: a handler that is subscribed before the call and not unsubscribed before it
returns is invoked once, and what is invoked is invoked in the order of the ids.
`publish_delivers` is about one thread, where the handlers call the bus again: the
turns of the call go through the subscribers it began with, and each is invoked
exactly if it is still subscribed at its turn.
-/

namespace MmoServer.Events

open MmoServer.Semantics

variable {count : Nat}

/-- No Clear is called. -/
def NeverCleared (events : List (Event count)) : Prop := ∀ thread, .called thread .clear ∉ events

/-- No Unsubscribe is called with the token. -/
def NeverNamed (events : List (Event count)) (token : SubscriptionToken) : Prop :=
  ∀ thread, .called thread (.unsubscribe token) ∉ events

/-- Every Publish call invokes the handlers that stay subscribed during it once, and
whatever it invokes in the order of the ids. -/
structure InvokesStable (events : List (Event count)) (bus : EventBus count) : Prop where
  stable : ∀ before during after thread publication type handler token,
    events = before ++ .began thread publication type :: (during ++ .finished publication :: after) →
    Subscribed before handler token → token.type = type → NeverNamed (before ++ during) token →
    (invokedBy publication events).count handler = 1
  increasing : ∀ publication,
    (invokedBy publication events).Pairwise fun first second => bus.idOf first < bus.idOf second

/-- Every Publish call goes through the subscribers it began with, and invokes those
that are subscribed at their turn. -/
structure Delivers (events : List (Event count)) : Prop where
  once : ∀ before after thread publication type,
    events = before ++ .began thread publication type :: after → (subscribersOf type before).Nodup
  turns : ∀ before after thread publication type,
    events = before ++ .began thread publication type :: after →
    (turnsOf publication events).map Prod.fst <+: subscribersOf type before
  all : ∀ before after thread publication type,
    events = before ++ .began thread publication type :: after → .finished publication ∈ events →
    (turnsOf publication events).map Prod.fst = subscribersOf type before
  current : ∀ before after thread publication type handler active,
    events = before ++ .turn publication handler active :: after →
    .began thread publication type ∈ before →
    (active = true ↔ handler ∈ subscribersOf type before)
  calls : ∀ publication, invokedBy publication events <+: foundActive (turnsOf publication events)
  allCalls : ∀ publication, .finished publication ∈ events →
    invokedBy publication events = foundActive (turnsOf publication events)

variable {events before after : List (Event count)} {bus : EventBus count} {thread other : Fin count}
  {publication : Publication} {type : EventTypeId} {handler : HandlerRef} {token : SubscriptionToken}
  {snapshot : List HandlerRef}

theorem NeverCleared.of_append (never : NeverCleared (before ++ after)) : NeverCleared before :=
  fun thread called => never thread (List.mem_append_left _ called)

/-! ## Runs at their events -/

/-- Where a snapshot is copied. -/
theorem copied_in_run (run : EventBus.Reached events bus)
    (split : events = before ++ .copied publication snapshot :: after) :
    ∃ state thread type below, EventBus.Reached before state ∧
      state.threads thread = .publish publication (.copy type) :: below ∧
      state.snapshots type = some snapshot ∧ .began thread publication type ∈ before := by
  obtain ⟨state, choice, next, prior, transition, _, _⟩ := run.at_event split
  generalize copied : Event.copied publication snapshot = event at transition
  cases EventBus.step_sound transition with
  | @copied thread number type below copy here there =>
      cases copied
      obtain ⟨began, member, same⟩ :=
        (publishing_of_runs prior).began thread publication _ (mem_publishes here)
      rw [← same type rfl] at member
      exact ⟨state, thread, type, below, prior, here, there, member⟩
  | _ => cases copied

/-- Where a handler's turn comes. -/
theorem turn_in_run {active : Bool} (run : EventBus.Reached events bus)
    (split : events = before ++ .turn publication handler active :: after) :
    ∃ state thread rest below, EventBus.Reached before state ∧
      state.threads thread = .publish publication (.next (handler :: rest)) :: below ∧
      active = state.active handler := by
  obtain ⟨state, choice, next, prior, transition, _, _⟩ := run.at_event split
  generalize turned : Event.turn publication handler active = event at transition
  cases EventBus.step_sound transition with
  | @turned thread number second rest below here =>
      cases turned
      exact ⟨state, thread, rest, below, prior, here, rfl⟩
  | _ => cases turned

/-- A call is over once every handler of its snapshot has had its turn, or when it
finds no snapshot. -/
theorem finished_in_run (run : EventBus.Reached events bus)
    (split : events = before ++ .finished publication :: after) :
    (∃ snapshot, .copied publication snapshot ∈ before) ∨
      ∃ state thread type below, EventBus.Reached before state ∧
        state.threads thread = .publish publication (.copy type) :: below ∧
        state.snapshots type = none ∧ .began thread publication type ∈ before := by
  obtain ⟨state, choice, next, prior, transition, _, _⟩ := run.at_event split
  have publishing := publishing_of_runs prior
  generalize finished : Event.finished publication = event at transition
  cases EventBus.step_sound transition with
  | @absent thread number type below here empty =>
      cases finished
      obtain ⟨began, member, same⟩ := publishing.began thread publication _ (mem_publishes here)
      rw [← same type rfl] at member
      exact .inr ⟨state, thread, type, below, prior, here, empty, member⟩
  | @finished thread number below here =>
      cases finished
      have follows := publishing.follows thread publication _ (mem_publishes here)
      exact .inl (follows.copied.resolve_left nofun)
  | _ => cases finished

/-- A call copies one snapshot. -/
theorem copiedBy_eq (run : EventBus.Reached events bus)
    (copied : .copied publication snapshot ∈ events) : copiedBy publication events = snapshot := by
  obtain ⟨before, after, rfl⟩ := List.append_of_mem copied
  have fresh : ∀ front rest other, before ++ .copied publication snapshot :: after =
      front ++ .copied publication other :: rest → ∀ earlier, .copied publication earlier ∉ front := by
    intro front rest other split
    obtain ⟨state, thread, type, below, prior, here, _, _⟩ := copied_in_run run split
    have follows := (publishing_of_runs prior).follows thread publication _ (mem_publishes here)
    exact follows.uncopied type rfl
  have later : ∀ other, .copied publication other ∉ after := by
    intro other member
    obtain ⟨between, rest, rfl⟩ := List.append_of_mem member
    exact fresh (before ++ .copied publication snapshot :: between) rest other (by simp) snapshot
      (by simp)
  have parts : copiedBy publication (before ++ .copied publication snapshot :: after) =
      copiedBy publication before ++ (snapshot ++ copiedBy publication after) := by
    simp [copiedBy, Event.copies]
  rw [parts, copiedBy_eq_nil (fresh before after snapshot rfl), copiedBy_eq_nil later]
  simp

/-- A snapshot is a part of the list of its type. -/
theorem snapshot_sublist (run : EventBus.Reached events bus)
    (there : bus.snapshots type = some snapshot) : snapshot.Sublist (bus.handlersOf type) := by
  have inside := (EventBus.topology_of_runs run).snapshot type
  rwa [EventBus.snapshotOf, there] at inside

/-- The ids of the handlers that were copied never change. -/
theorem copiedBy_increasing (run : EventBus.Reached events bus) :
    (copiedBy publication events).Pairwise fun first second => bus.idOf first < bus.idOf second := by
  by_cases copied : ∃ snapshot, .copied publication snapshot ∈ events
  · obtain ⟨snapshot, member⟩ := copied
    rw [copiedBy_eq run member]
    obtain ⟨before, after, rfl⟩ := List.append_of_mem member
    obtain ⟨state, thread, type, below, prior, _, there, _⟩ := copied_in_run run rfl
    have inside := snapshot_sublist prior there
    have same : ∀ handler ∈ snapshot, bus.idOf handler = state.idOf handler := by
      intro handler copied
      obtain ⟨owner, appended⟩ :=
        ((consistent_of_runs prior).registered.standing type handler (inside.subset copied)).appended
      exact (consistent_of_runs run).registered.ids owner handler _ (List.mem_append_left _ appended)
    refine ((EventBus.topology_of_runs prior).ordered type |>.sublist inside).imp_of_mem ?_
    intro first second firstIn secondIn less
    rw [same first firstIn, same second secondIn]
    exact less
  · rw [copiedBy_eq_nil fun snapshot member => copied ⟨snapshot, member⟩]
    exact List.Pairwise.nil

/-- What a call invokes is a part of what it has copied. -/
theorem invokedBy_sublist (run : EventBus.Reached events bus) :
    (invokedBy publication events).Sublist (copiedBy publication events) := by
  have ordered := (publishing_of_runs run).ordered publication
  refine ordered.calls.sublist.trans (List.Sublist.trans ?_ ordered.turns.sublist)
  exact List.Sublist.map _ List.filter_sublist

/-! ## Stable subscribers -/

/-- A trace without a call of Clear clears nothing. -/
theorem NeverCleared.uncleared (never : NeverCleared events) (run : EventBus.Reached events bus)
    (thread : Fin count) : .cleared thread ∉ events := by
  intro cleared
  obtain ⟨before, ⟨after, rfl⟩, called⟩ := (consistent_of_runs run).explained.of_mem cleared
  exact never thread (List.mem_append_left _ called)

/-- A subscribed handler that no Unsubscribe has named is active and in the snapshot. -/
theorem stable_in_snapshot (run : EventBus.Reached events bus) (never : NeverCleared events)
    (subscribed : Subscribed events handler token) (unnamed : NeverNamed events token) :
    bus.active handler = true ∧ handler ∈ bus.snapshotOf token.type := by
  obtain ⟨_, _, registered, returning, explained⟩ := consistent_of_runs run
  have topology := EventBus.topology_of_runs run
  obtain ⟨thread, appended⟩ := subscribed.appended explained
  have inside := registered.kept (never.uncleared run) thread handler token appended
  have active : bus.active handler = true := by
    by_contra inactive
    obtain ⟨other, named, deactivated⟩ := registered.inactive handler (topology.known _ _ inside)
      (eq_false_of_ne_true inactive)
    obtain ⟨before, ⟨after, rfl⟩, standing, _, called⟩ := explained.of_mem deactivated
    obtain ⟨third, also⟩ := standing.appended
    obtain rfl := appended_unique explained appended (List.mem_append_left _ also)
    exact unnamed other (List.mem_append_left _ called)
  have live : handler ∈ bus.liveOf token.type := EventBus.mem_liveOf.mpr ⟨inside, active⟩
  refine ⟨active, ?_⟩
  by_cases scanning : bus.Scanning token.type
  · obtain ⟨owner, rest, taken, result, owns⟩ := scanning
    refine ((topology.scan owner _ rest taken result owns).stale handler live).resolve_right ?_
    -- The handler that is being registered has not been returned.
    rintro ⟨named, rfl⟩
    exact (returning.settled handler named (EventBus.result?_of_owns owns)).2 token subscribed
  · rw [topology.fresh token.type scanning]
    exact live

section Stable

variable {during : List (Event count)} (run : EventBus.Reached events bus)
  (never : NeverCleared events)
  (split : events = before ++ .began thread publication type :: (during ++ [.finished publication]))
include run never split

/-- The state of a run at an event of a call, seen from where the call began. -/
theorem stable_during {front rest : List (Event count)} {state : EventBus count}
    (subscribed : Subscribed before handler token) (unnamed : NeverNamed (before ++ during) token)
    (cut : before ++ .began thread publication type :: during = front ++ rest)
    (reached : EventBus.Reached front state) {second : EventTypeId}
    (begun : .began other publication second ∈ front) :
    second = type ∧ state.active handler = true ∧ handler ∈ state.snapshotOf token.type := by
  have explained := (consistent_of_runs run).explained
  have whole : events = front ++ (rest ++ [.finished publication]) := by
    rw [← List.append_assoc, ← cut, split]
    simp
  obtain ⟨between, rfl⟩ := began_numbered.reaches explained split rfl whole begun rfl rfl
  have member : .began other publication second ∈ events := by
    rw [whole]
    exact List.mem_append_left _ begun
  have first : .began thread publication type ∈ events := by
    rw [split]
    simp
  have same : second = type := (began_unique explained member first).2
  refine ⟨same, stable_in_snapshot reached ?_ ?_ ?_⟩
  · rw [whole] at never
    exact never.of_append
  · obtain ⟨owner, returned⟩ := subscribed
    exact ⟨owner, List.mem_append_left _ returned⟩
  · intro owner called
    obtain ⟨more, rfl⟩ : ∃ more, during = between ++ more := by
      rw [List.append_assoc, List.cons_append] at cut
      exact ⟨rest, (List.cons.inj (List.append_cancel_left cut)).2⟩
    apply unnamed owner
    rcases List.mem_append.mp called with early | late
    · exact List.mem_append_left _ early
    · have inner : .called owner (.unsubscribe token) ∈ between := by simpa using late
      exact List.mem_append_right _ (List.mem_append_left _ inner)

/-- The call invokes the handler. -/
theorem stable_invoked (subscribed : Subscribed before handler token) (same : token.type = type)
    (unnamed : NeverNamed (before ++ during) token) : handler ∈ invokedBy publication events := by
  have cut : events = (before ++ .began thread publication type :: during) ++
      .finished publication :: [] := by simp [split]
  have completed := ((publishing_of_runs run).finished publication (by rw [cut]; simp)).1
  -- The call has copied a snapshot with the handler.
  have copied : ∃ snapshot, .copied publication snapshot ∈ events ∧ handler ∈ snapshot := by
    rcases finished_in_run run cut with ⟨snapshot, copied⟩ |
      ⟨state, other, second, below, reached, _, empty, begun⟩
    · obtain ⟨front, rest, inner⟩ := List.append_of_mem copied
      have whole : events = front ++ .copied publication snapshot ::
          (rest ++ [.finished publication]) := by simp [cut, inner]
      obtain ⟨state, other, second, below, reached, _, there, begun⟩ := copied_in_run run whole
      obtain ⟨rfl, _, inside⟩ := stable_during run never split subscribed unnamed inner reached begun
      rw [same, EventBus.snapshotOf, there] at inside
      exact ⟨snapshot, by rw [whole]; simp, inside⟩
    · obtain ⟨rfl, _, inside⟩ := stable_during run never split subscribed unnamed
        (List.append_nil _).symm reached begun
      rw [same, EventBus.snapshotOf, empty] at inside
      cases inside
  obtain ⟨snapshot, copied, inside⟩ := copied
  -- Its turn has come, and found it active.
  have turn : ∃ active, (handler, active) ∈ turnsOf publication events := by
    have member : handler ∈ (turnsOf publication events).map Prod.fst := by
      rw [completed.turns, copiedBy_eq run copied]
      exact inside
    obtain ⟨⟨found, active⟩, turned, rfl⟩ := List.mem_map.mp member
    exact ⟨active, turned⟩
  obtain ⟨active, turned⟩ := turn
  have found : active = true := by
    have member : .turn publication handler active ∈
        before ++ .began thread publication type :: during := by
      have whole := mem_turnsOf.mp turned
      rw [cut] at whole
      simpa using whole
    obtain ⟨front, rest, inner⟩ := List.append_of_mem member
    have whole : events = front ++ .turn publication handler active ::
        (rest ++ [.finished publication]) := by simp [cut, inner]
    obtain ⟨state, other, left, below, reached, here, rfl⟩ := turn_in_run run whole
    obtain ⟨second, begun, _⟩ :=
      (publishing_of_runs reached).began other publication _ (mem_publishes here)
    exact (stable_during run never split subscribed unnamed inner reached begun).2.1
  rw [completed.calls, mem_foundActive, ← found]
  exact turned

end Stable

/-- Without a Clear every Publish call invokes its stable subscribers once, and
everything in the order of the ids, whatever the threads do. -/
theorem stable_subscribers_invoked (events : List (Event count)) (bus : EventBus count)
    (run : EventBus.Reached events bus) (never : NeverCleared events) : InvokesStable events bus := by
  have increasing : ∀ publication,
      (invokedBy publication events).Pairwise fun first second => bus.idOf first < bus.idOf second :=
    fun publication => (copiedBy_increasing run).sublist (invokedBy_sublist run)
  refine ⟨?_, increasing⟩
  intro before during after thread publication type handler token split subscribed same unnamed
  have cut : events = (before ++ .began thread publication type :: during) ++
      .finished publication :: after := by simp [split]
  obtain ⟨_, _, finish, _, _, _, reached⟩ := run.at_event cut
  have shorter : (before ++ .began thread publication type :: during) ++ [.finished publication] =
      before ++ .began thread publication type :: (during ++ [.finished publication]) := by simp
  have whole : events = ((before ++ .began thread publication type :: during) ++
      [.finished publication]) ++ after := by simp [split]
  have neverShorter : NeverCleared ((before ++ .began thread publication type :: during) ++
      [.finished publication]) := by
    rw [whole] at never
    exact never.of_append
  have invoked := stable_invoked reached neverShorter shorter subscribed same unnamed
  refine List.count_eq_one_of_mem ?_ ?_
  · exact (increasing publication).imp fun less equal => Nat.ne_of_lt less (congrArg bus.idOf equal)
  · rw [mem_invokedBy] at invoked ⊢
    rw [whole]
    exact List.mem_append_left _ invoked

/-- A thread calls Subscribe and goes through it, with a list of the given length. -/
def subscribes (thread : Fin count) (type : EventTypeId) (length : Nat) : List (Choice count) :=
  .call thread (.subscribe type) :: List.replicate (length + 5) (.advance thread)

/-- A thread calls Unsubscribe and goes through it, with a list of the given length. -/
def unsubscribes (thread : Fin count) (token : SubscriptionToken) (length : Nat) :
    List (Choice count) :=
  .call thread (.unsubscribe token) :: List.replicate (length + 4) (.advance thread)

/-- While one thread publishes, another subscribes a second handler and removes it. -/
theorem stable_subscriber_is_invoked : ∃ events bus, @EventBus.Reached 2 events bus ∧
    InvokesStable events bus ∧ .finished 0 ∈ events ∧ invokedBy 0 events = [0] ∧
    .deactivated 0 { id := 2, type := 1 } 1 ∈ events := by
  obtain ⟨events, bus, run, never, shown⟩ := (EventBus.system 2).runs_of_exec
    (fun _ _ _ _ => True) EventBus.constructed
    (subscribes 0 1 0 ++ [.publish 1 1, .advance 1, .advance 1] ++ subscribes 0 1 1 ++
      [.advance 1] ++ unsubscribes 0 { id := 2, type := 1 } 2 ++ [.advance 1, .advance 1])
    (fun _ events => (∀ thread, .called thread .clear ∉ events) ∧ .finished 0 ∈ events ∧
      invokedBy 0 events = [0] ∧ .deactivated 0 { id := 2, type := 1 } 1 ∈ events)
    (by decide +kernel)
  exact ⟨events, bus, run, stable_subscribers_invoked events bus run never, shown⟩

/-! ## One thread -/

section Single

variable {events before after : List (Event 1)} {bus next : EventBus 1} {event : Event 1}
  {thread : Fin 1} {below : List Frame} {state : PublishState}

/-- A thread that is in Publish does not hold the mutex, and no other does. -/
theorem free_of_publish (run : EventBus.Reached events bus)
    (here : bus.threads thread = .publish publication state :: below) : bus.writeMutex = none := by
  cases owns : bus.writeMutex with
  | none => rfl
  | some owner =>
      obtain ⟨⟨mutation, rest, there⟩, _⟩ :=
        (consistent_of_runs run).calling.owner owner.1 owner.2 owns
      rw [Subsingleton.elim owner.1 thread, here] at there
      cases there

/-- What a thread publishes to is what is live. -/
theorem live_of_publish (run : EventBus.Reached events bus)
    (here : bus.threads thread = .publish publication state :: below) :
    subscribersOf type events = bus.liveOf type ∧ bus.snapshotOf type = bus.liveOf type := by
  have free := free_of_publish run here
  refine ⟨EventBus.subscribersOf_eq run (EventBus.result?_of_free free), ?_⟩
  apply (EventBus.topology_of_runs run).fresh
  rintro ⟨_, _, _, _, owns⟩
  rw [free] at owns
  cases owns

/-- Only the call of Publish leads in front of the look into `snapshots_`. -/
theorem began_of_copy (calling : Calling events bus) (moved : EventBus.Step bus next event)
    (here : next.threads thread = .publish publication (.copy type) :: below) :
    event = .began thread publication type := by
  have only : ∀ other : Fin 1, other = thread := fun other => Subsingleton.elim other thread
  cases moved with
  | @ignored mine token may =>
      obtain rfl := only mine
      have running := (calling.running_of_mayCall may).1
      rw [here] at running
      exact absurd (running _ List.mem_cons_self) id
  | @called mine mutation may =>
      obtain rfl := only mine
      rw [EventBus.setStack_threads_self] at here
      cases here
  | @began mine second may =>
      obtain rfl := only mine
      rw [EventBus.setStack_threads_self] at here
      cases here
      rfl
  | @locked mine mutation rest there =>
      obtain rfl := only mine
      have same : bus.threads mine = _ := here
      rw [there] at same
      cases same
  | @appended mine _ owns | @unknown mine _ owns | @missed mine _ _ owns
  | @deactivated mine _ _ _ owns | @cleared mine owns | @scanned mine _ _ _ _ _ owns
  | @installed mine _ _ _ owns =>
      obtain rfl := only mine
      obtain ⟨⟨mutation, rest, there⟩, _⟩ := calling.owner mine _ owns
      have same : bus.threads mine = _ := here
      rw [there] at same
      cases same
  | @returned mine _ _ rest _ there | @absent mine _ _ rest there | @finished mine _ rest there =>
      -- What is left below an innermost call is running.
      obtain rfl := only mine
      rw [EventBus.setStack_threads_self] at here
      have inner := calling.inner mine
      rw [there, here] at inner
      exact absurd (inner _ List.mem_cons_self) id
  | @turned mine _ handler _ _ there =>
      obtain rfl := only mine
      rw [EventBus.setStack_threads_self] at here
      generalize bus.active handler = active at here
      cases active <;> cases here
  | @copied mine _ _ _ _ there | @invoked mine _ _ _ _ there | @handled mine _ _ _ _ there =>
      obtain rfl := only mine
      rw [EventBus.setStack_threads_self] at here
      cases here

/-- Publish looks into `snapshots_` as soon as it is called. -/
theorem ends_with_began (run : EventBus.Reached events bus)
    (here : bus.threads thread = .publish publication (.copy type) :: below) :
    ∃ before, events = before ++ [.began thread publication type] := by
  rcases List.eq_nil_or_concat events with rfl | ⟨before, event, rfl⟩
  · have start := (publishing_of_runs run).began thread publication _ (mem_publishes here)
    obtain ⟨_, member, _⟩ := start
    cases member
  · rw [List.concat_eq_append] at run ⊢
    obtain ⟨state, choice, prior, transition, _⟩ := run.last
    have began := began_of_copy (consistent_of_runs prior).calling (EventBus.step_sound transition) here
    exact ⟨before, by rw [began]⟩

theorem subscribersOf_concat_began {second : EventTypeId} :
    subscribersOf type (events ++ [.began thread publication second]) = subscribersOf type events := by
  rw [subscribersOf, subscribersAfter_concat]
  rfl

/-- Where a call copies its snapshot it has just begun, and copies its subscribers. -/
theorem copy_of_began (run : EventBus.Reached events bus) {state : EventBus 1}
    {front rest : List (Event 1)} {owner : Fin 1} {second : EventTypeId}
    (split : events = before ++ .began thread publication type :: after)
    (cut : events = front ++ rest) (reached : EventBus.Reached front state)
    (here : state.threads owner = .publish publication (.copy second) :: below) :
    second = type ∧ state.snapshotOf type = subscribersOf type before := by
  have explained := (consistent_of_runs run).explained
  obtain ⟨earlier, rfl⟩ := ends_with_began reached here
  have also : events = earlier ++ .began owner publication second :: rest := by simp [cut]
  obtain rfl := began_numbered.split_unique explained split rfl also rfl rfl
  cases (List.cons.inj (List.append_cancel_left (split.symm.trans also))).1
  obtain ⟨subscribers, snapshot⟩ := live_of_publish reached here
  rw [subscribersOf_concat_began] at subscribers
  exact ⟨rfl, snapshot.trans subscribers.symm⟩

/-- The subscribers a call begins with are different handlers. -/
theorem subscribersOf_nodup (run : EventBus.Reached events bus)
    (split : events = before ++ .began thread publication type :: after) :
    (subscribersOf type before).Nodup := by
  obtain ⟨state, choice, next, prior, transition, _, _⟩ := run.at_event split
  have topology := EventBus.topology_of_runs prior
  have calling := (consistent_of_runs prior).calling
  generalize called : Event.began thread publication type = event at transition
  cases EventBus.step_sound transition with
  | @began mine second may =>
      have free : state.writeMutex = none := by
        cases owns : state.writeMutex with
        | none => rfl
        | some owner =>
            refine absurd (Subsingleton.elim owner.1 mine) ?_
            exact calling.not_owner owns (calling.running_of_mayCall may).2
      rw [EventBus.subscribersOf_eq prior (EventBus.result?_of_free free)]
      exact topology.nodup_handlersOf.filter _
  | _ => cases called

/-- What a call copies are the subscribers it began with. -/
theorem copiedBy_of_began (run : EventBus.Reached events bus)
    (split : events = before ++ .began thread publication type :: after)
    (copied : .copied publication snapshot ∈ events) :
    copiedBy publication events = subscribersOf type before := by
  rw [copiedBy_eq run copied]
  obtain ⟨front, rest, cut⟩ := List.append_of_mem copied
  obtain ⟨state, owner, second, below, reached, here, there, _⟩ := copied_in_run run cut
  obtain ⟨rfl, same⟩ := copy_of_began run split cut reached here
  rw [← same, EventBus.snapshotOf, there]
  rfl

/-- A call that has returned has copied the subscribers it began with. -/
theorem copiedBy_of_finished (run : EventBus.Reached events bus)
    (split : events = before ++ .began thread publication type :: after)
    (finished : .finished publication ∈ events) :
    copiedBy publication events = subscribersOf type before := by
  by_cases copied : ∃ snapshot, .copied publication snapshot ∈ events
  · obtain ⟨snapshot, member⟩ := copied
    exact copiedBy_of_began run split member
  · obtain ⟨front, rest, cut⟩ := List.append_of_mem finished
    rw [copiedBy_eq_nil fun snapshot member => copied ⟨snapshot, member⟩]
    rcases finished_in_run run cut with ⟨snapshot, inside⟩ |
      ⟨state, owner, second, below, reached, here, empty, _⟩
    · exact absurd ⟨snapshot, by rw [cut]; exact List.mem_append_left _ inside⟩ copied
    · obtain ⟨rfl, same⟩ := copy_of_began run split cut reached here
      rw [← same, EventBus.snapshotOf, empty]
      rfl

/-- The turn of a handler finds it active exactly if it is subscribed. -/
theorem active_iff_subscribed {active : Bool} (run : EventBus.Reached events bus)
    (never : NeverCleared events) (split : events = before ++ .turn publication handler active :: after)
    (began : .began thread publication type ∈ before) :
    active = true ↔ handler ∈ subscribersOf type before := by
  obtain ⟨state, owner, rest, below, reached, here, rfl⟩ := turn_in_run run split
  obtain ⟨_, _, registered, _, explained⟩ := consistent_of_runs reached
  have publishing := publishing_of_runs reached
  have follows := publishing.follows owner publication _ (mem_publishes here)
  have neverBefore : NeverCleared before := by
    rw [split] at never
    exact never.of_append
  -- The handler was copied from the list of the type, and has stayed there.
  have inside : handler ∈ state.handlersOf type := by
    obtain ⟨snapshot, copied⟩ := follows.copied.resolve_left nofun
    have member : handler ∈ snapshot := by
      rw [← copiedBy_eq reached copied, ← follows.turns]
      simp [PublishState.rest]
    obtain ⟨front, behind, cut⟩ := List.append_of_mem copied
    obtain ⟨earlier, third, second, _, prior, _, there, begun⟩ := copied_in_run reached cut
    have listed := (snapshot_sublist prior there).subset member
    have begunToo : .began third publication second ∈ before := by
      rw [cut]
      exact List.mem_append_left _ begun
    obtain rfl := (began_unique explained begunToo began).2
    obtain ⟨author, appended⟩ :=
      ((consistent_of_runs prior).registered.standing second handler listed).appended
    have member : .appended author handler { id := earlier.idOf handler, type := second } ∈ before := by
      rw [cut]
      exact List.mem_append_left _ appended
    exact registered.kept (neverBefore.uncleared reached) author handler _ member
  rw [(live_of_publish reached here).1, EventBus.mem_liveOf]
  exact ⟨fun active => ⟨inside, active⟩, fun live => live.2⟩

end Single

/-- Without a Clear every Publish call of a single thread, however deep it is nested in
handlers that change the subscriptions, delivers to the subscribers it began with. -/
theorem publish_delivers (events : List (Event 1)) (bus : EventBus 1)
    (run : EventBus.Reached events bus) (never : NeverCleared events) : Delivers events := by
  have publishing := publishing_of_runs run
  constructor
  · intro before after thread publication type split
    exact subscribersOf_nodup run split
  · intro before after thread publication type split
    by_cases copied : ∃ snapshot, .copied publication snapshot ∈ events
    · obtain ⟨snapshot, member⟩ := copied
      rw [← copiedBy_of_began run split member]
      exact (publishing.ordered publication).turns
    · have turns := (publishing.ordered publication).turns
      rw [copiedBy_eq_nil fun snapshot member => copied ⟨snapshot, member⟩] at turns
      rw [List.prefix_nil.mp turns]
      exact List.nil_prefix
  · intro before after thread publication type split finished
    rw [← copiedBy_of_finished run split finished]
    exact (publishing.finished publication finished).1.turns
  · intro before after thread publication type handler active split began
    exact active_iff_subscribed run never split began
  · exact fun publication => (publishing.ordered publication).calls
  · exact fun publication finished => (publishing.finished publication finished).1.calls

/-- The first of two handlers removes the second, subscribes a third and publishes
again; the inner call invokes the first and the third, the outer one the first alone. -/
theorem nested_publish_delivers : ∃ events bus, @EventBus.Reached 1 events bus ∧
    Delivers events ∧ .finished 0 ∈ events ∧ invokedBy 1 events = [0, 2] ∧
    invokedBy 0 events = [0] ∧ turnsOf 0 events = [(0, true), (1, false)] := by
  obtain ⟨events, bus, run, never, shown⟩ := (EventBus.system 1).runs_of_exec
    (fun _ _ _ _ => True) EventBus.constructed
    (subscribes 0 1 0 ++ subscribes 0 1 1 ++ .publish 0 1 :: List.replicate 3 (.advance 0) ++
      unsubscribes 0 { id := 2, type := 1 } 2 ++ subscribes 0 1 2 ++
      .publish 0 1 :: List.replicate 8 (.advance 0) ++ List.replicate 3 (.advance 0))
    (fun _ events => (∀ thread, .called thread .clear ∉ events) ∧ .finished 0 ∈ events ∧
      invokedBy 1 events = [0, 2] ∧ invokedBy 0 events = [0] ∧
      turnsOf 0 events = [(0, true), (1, false)])
    (by decide +kernel)
  exact ⟨events, bus, run, publish_delivers events bus run never, shown⟩

end MmoServer.Events
