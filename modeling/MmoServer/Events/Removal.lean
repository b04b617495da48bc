import MmoServer.Events.Delivery

/-!
# Removed handlers

An Unsubscribe resets the active flag of its handler, which a Publish loads right
before the call, so only a thread between the load and the call still invokes it.
Clear resets no flag: a Publish that is running goes on through its snapshot.
`removed_stay_silent` says that nothing else goes wrong.
-/

namespace MmoServer.Events

open MmoServer.Semantics

/-- The handler that a call is about to invoke. -/
def Frame.calling? : Frame → Option HandlerRef
  | .publish _ (.call handler _) => some handler
  | _ => none

/-- The handlers whose turn is still to come in a call. -/
def Frame.rest : Frame → List HandlerRef
  | .publish _ state => state.rest
  | .mutate _ => []

variable {count : Nat}

/-- Where an Unsubscribe returns nobody is about to invoke its handler, and where a
Clear returns no running Publish has an active handler left. -/
def EventBus.clearOfCalls (bus : EventBus count) : Event count → Bool
  | .returned _ (.unsubscribed _ (some handler)) =>
      decide (∀ thread, ∀ frame ∈ bus.threads thread, frame.calling? ≠ some handler)
  | .returned _ .cleared =>
      decide (∀ thread, ∀ frame ∈ bus.threads thread, frame.calling? = none ∧
        ∀ handler ∈ frame.rest, bus.active handler = false)
  | _ => true

/-- No handler is invoked once the call that removed it has returned. -/
structure RemovedSilent (events : List (Event count)) : Prop where
  unsubscribed : ∀ before after thread token handler,
    events = before ++ .returned thread (.unsubscribed token (some handler)) :: after →
    ∀ publication, .invoked publication handler ∉ after
  cleared : ∀ before after thread, events = before ++ .returned thread .cleared :: after →
    ∀ owner handler token, .appended owner handler token ∈ before →
    ∀ publication, .invoked publication handler ∉ after

/-- A call that removed the handler has returned. -/
inductive Removed (events : List (Event count)) (handler : HandlerRef) : Prop
  | unsubscribed {thread : Fin count} {token : SubscriptionToken}
      (returned : .returned thread (.unsubscribed token (some handler)) ∈ events) :
      Removed events handler
  | cleared {before after : List (Event count)} {thread owner : Fin count} {token : SubscriptionToken}
      (split : events = before ++ .returned thread .cleared :: after)
      (appended : .appended owner handler token ∈ before) : Removed events handler

/-- An invocation is of a handler that is not removed. -/
def InvokesPresent (before : List (Event count)) (event : Event count) : Prop :=
  ∀ publication handler, event = .invoked publication handler → ¬ Removed before handler

variable {events : List (Event count)} {event : Event count} {bus next : EventBus count}
  {thread : Fin count} {handler : HandlerRef}

theorem RemovedSilent.of_explained (explained : Explained InvokesPresent events) :
    RemovedSilent events := by
  constructor
  · intro before after thread token handler split publication invoked
    obtain ⟨between, rest, rfl⟩ := List.append_of_mem invoked
    have returned : .returned thread (.unsubscribed token (some handler)) ∈
        before ++ .returned thread (.unsubscribed token (some handler)) :: between := by simp
    exact explained _ _ rest (by simp [split]) publication handler rfl (.unsubscribed returned)
  · intro before after thread split owner handler token appended publication invoked
    obtain ⟨between, rest, rfl⟩ := List.append_of_mem invoked
    exact explained (before ++ .returned thread .cleared :: between) _ rest (by simp [split])
      publication handler rfl (.cleared rfl appended)

/-- What the last event removes. -/
theorem removed_concat (removed : Removed (events ++ [event]) handler) :
    Removed events handler ∨
      (∃ thread token, event = .returned thread (.unsubscribed token (some handler))) ∨
      ∃ thread owner token, event = .returned thread .cleared ∧
        .appended owner handler token ∈ events := by
  cases removed with
  | unsubscribed returned =>
      rcases List.mem_append.mp returned with before | last
      · exact .inl (.unsubscribed before)
      · exact .inr (.inl ⟨_, _, (List.mem_singleton.mp last).symm⟩)
  | @cleared before after thread owner token split appended =>
      rcases List.eq_nil_or_concat after with rfl | ⟨shorter, last, rfl⟩
      · obtain ⟨rfl, same⟩ := List.append_inj' split rfl
        exact .inr (.inr ⟨thread, owner, token, by simpa using same, appended⟩)
      · rw [List.concat_eq_append, ← List.cons_append, ← List.append_assoc] at split
        exact .inl (.cleared (List.append_inj_left' split rfl) appended)

/-! ## Silence -/

namespace EventBus

/-- Nobody invokes the handler, nor will: its flag is reset, or it is in no list and in
no call. -/
structure Silences (bus : EventBus count) (handler : HandlerRef) : Prop where
  known : handler < bus.allocated
  idle : ∀ thread, ∀ frame ∈ bus.threads thread, frame.calling? ≠ some handler
  passed : bus.active handler = true →
    ∀ thread, ∀ frame ∈ bus.threads thread, handler ∉ frame.rest
  unlisted : bus.active handler = true → ∀ type, handler ∉ bus.handlersOf type

/-- The result of a call says what has been removed. -/
structure Settled (bus : EventBus count) : Prop where
  deactivated : ∀ token handler, bus.result? = some (.unsubscribed token (some handler)) →
    handler < bus.allocated ∧ bus.active handler = false
  cleared : bus.result? = some .cleared → ∀ type, bus.handlersOf type = []

section Silences

variable (silences : bus.Silences handler)
include silences

/-- A step that leaves the stacks alone and sets no flag. -/
theorem Silences.keep (threads : next.threads = bus.threads)
    (allocated : bus.allocated ≤ next.allocated)
    (active : next.active handler = true → bus.active handler = true)
    (lists : ∀ type, handler ∈ next.handlersOf type → handler ∈ bus.handlersOf type) :
    next.Silences handler := by
  refine ⟨Nat.lt_of_lt_of_le silences.known allocated, ?_, ?_, ?_⟩
  · rw [threads]
    exact silences.idle
  · rw [threads]
    exact fun set => silences.passed (active set)
  · exact fun set type member => silences.unlisted (active set) type (lists type member)

/-- A step that changes one stack: a new frame has nothing to do with the handler. -/
theorem Silences.restack {stack : List Frame}
    (threads : next.threads = Function.update bus.threads thread stack)
    (allocated : next.allocated = bus.allocated) (entries : next.entries = bus.entries)
    (handlers : next.handlers = bus.handlers)
    (frames : ∀ frame ∈ stack, frame ∈ bus.threads thread ∨
      (frame.calling? ≠ some handler ∧ (bus.active handler = true → handler ∉ frame.rest))) :
    next.Silences handler := by
  have flags : next.active handler = bus.active handler := by rw [active, active, entries]
  have either : ∀ other, ∀ frame ∈ next.threads other,
      (∃ owner, frame ∈ bus.threads owner) ∨
        (frame.calling? ≠ some handler ∧ (bus.active handler = true → handler ∉ frame.rest)) := by
    intro other frame inside
    rw [threads] at inside
    by_cases same : other = thread
    · subst same
      rw [Function.update_self] at inside
      exact (frames frame inside).imp_left fun before => ⟨other, before⟩
    · rw [Function.update_of_ne same] at inside
      exact .inl ⟨other, inside⟩
  constructor
  · rw [allocated]
    exact silences.known
  · intro other frame inside
    rcases either other frame inside with ⟨owner, before⟩ | ⟨idle, _⟩
    · exact silences.idle owner frame before
    · exact idle
  · intro set other frame inside
    rw [flags] at set
    rcases either other frame inside with ⟨owner, before⟩ | ⟨_, passed⟩
    · exact silences.passed set owner frame before
    · exact passed set
  · intro set type
    rw [flags] at set
    rw [handlersOf, handlers]
    exact silences.unlisted set type

theorem Silences.passed_here {publication : Publication} {state : PublishState} {below : List Frame}
    (here : bus.threads thread = .publish publication state :: below)
    (set : bus.active handler = true) : handler ∉ state.rest := by
  have member : Frame.publish publication state ∈ bus.threads thread := by
    rw [here]
    exact List.mem_cons_self
  exact silences.passed set thread _ member

/-- A step of the innermost call of a thread. -/
theorem Silences.advance {publication : Publication} {state later : PublishState} {below : List Frame}
    (here : bus.threads thread = .publish publication state :: below)
    (calling : (Frame.publish publication later).calling? ≠ some handler)
    (rest : bus.active handler = true → handler ∉ later.rest) :
    (bus.setStack thread (.publish publication later :: below)).Silences handler := by
  refine silences.restack rfl rfl rfl rfl fun frame inside => ?_
  rcases List.mem_cons.mp inside with rfl | under
  · exact .inr ⟨calling, rest⟩
  · refine .inl ?_
    rw [here]
    exact List.mem_cons_of_mem _ under

/-- No step ends the silence. -/
theorem Silences.step (topology : bus.Topology) (moved : Step bus next event) :
    next.Silences handler := by
  cases moved with
  | ignored | locked | unknown | missed | scanned | installed =>
      exact silences.keep rfl (Nat.le_refl _) id fun _ => id
  | called | began =>
      refine silences.restack rfl rfl rfl rfl fun frame inside => ?_
      rcases List.mem_cons.mp inside with rfl | before
      · exact .inr ⟨by rintro ⟨⟩, fun _ => List.not_mem_nil⟩
      · exact .inl before
  | @appended thread type =>
      have apart : handler ≠ bus.allocated := Nat.ne_of_lt silences.known
      refine silences.keep rfl (Nat.le_succ _) ?_ fun other member => ?_
      · rw [active_setSection, active, active, entries_append_of_ne apart]
        exact id
      · rw [handlersOf_setSection, mem_handlersOf_append] at member
        exact member.resolve_right fun new => apart new.2
  | @deactivated thread token handlers dead =>
      refine silences.keep rfl (Nat.le_refl _) ?_ fun _ => id
      rw [active_setSection, active_deactivate, Bool.and_eq_true]
      exact And.left
  | cleared => exact silences.keep rfl (Nat.le_refl _) id fun _ => by rintro ⟨⟩
  | @returned thread result mutation below owns here =>
      refine silences.restack rfl rfl rfl rfl fun frame inside => .inl ?_
      rw [here]
      exact List.mem_cons_of_mem _ inside
  | absent here | finished here =>
      refine silences.restack rfl rfl rfl rfl fun frame inside => .inl ?_
      rw [here]
      exact List.mem_cons_of_mem _ inside
  | @copied thread publication type below snapshot here there =>
      refine silences.advance here (by rintro ⟨⟩) fun set member => ?_
      have inside := topology.snapshot type
      rw [snapshotOf, there] at inside
      exact silences.unlisted set type (inside.subset member)
  | @turned thread publication second rest below here =>
      have passed : bus.active handler = true → handler ∉ second :: rest := silences.passed_here here
      cases loaded : bus.active second with
      | true =>
          refine silences.advance here (fun calling => ?_) fun set member =>
            passed set (List.mem_cons_of_mem _ member)
          cases Option.some.inj calling
          exact passed loaded List.mem_cons_self
      | false =>
          exact silences.advance here (by rintro ⟨⟩) fun set member =>
            passed set (List.mem_cons_of_mem _ member)
  | invoked here | handled here =>
      have passed := silences.passed_here here
      exact silences.advance here (by rintro ⟨⟩) passed

/-- A silenced handler is not invoked. -/
theorem Silences.not_invoked {publication : Publication}
    (moved : Step bus next (.invoked publication handler)) : False := by
  generalize invoked : Event.invoked publication handler = event at moved
  cases moved with
  | @invoked thread number second rest below here =>
      cases invoked
      exact silences.idle thread _ (by rw [here]; exact List.mem_cons_self) rfl
  | _ => cases invoked

end Silences

/-! ## What has been removed -/

/-- A step that leaves the lists and the result alone. -/
theorem Settled.keep (settled : bus.Settled) (entries : next.entries = bus.entries)
    (allocated : next.allocated = bus.allocated) (handlers : next.handlers = bus.handlers)
    (result : next.result? = bus.result?) : next.Settled := by
  constructor
  · intro token handler removed
    rw [result] at removed
    rw [allocated, active, entries]
    exact settled.deactivated token handler removed
  · intro cleared type
    rw [result] at cleared
    rw [handlersOf, handlers]
    exact settled.cleared cleared type

theorem Settled.step (settled : bus.Settled) (topology : bus.Topology) (moved : Step bus next event) :
    next.Settled := by
  cases moved with
  | ignored | called | began | absent | copied | turned | invoked | handled | finished =>
      exact settled.keep rfl rfl rfl rfl
  | locked here free => exact settled.keep rfl rfl rfl (result?_of_free free).symm
  | scanned owns | installed owns => exact settled.keep rfl rfl rfl (result?_of_owns owns).symm
  | appended | unknown | missed | returned => exact ⟨nofun, nofun⟩
  | @deactivated thread token handlers handler owns registered found =>
      refine ⟨fun other dead removed => ?_, nofun⟩
      obtain rfl : handler = dead := by
        cases removed
        rfl
      have inside := (mem_of_found registered found).1
      exact ⟨topology.known token.type handler inside, by simp⟩
  | cleared => exact ⟨nofun, fun _ _ => rfl⟩

theorem settled_of_runs (run : Reached events bus) : bus.Settled := by
  apply run.invariant (fun _ bus => bus.Settled)
  · exact ⟨nofun, nofun⟩
  · intro events bus choice next event prior settled transition _
    exact settled.step (topology_of_runs prior) (step_sound transition)

/-- What a returning call removes is silenced, if nobody is about to call it. -/
theorem silences_of_removed (consistent : Consistent events bus) (settled : bus.Settled)
    (moved : Step bus next event) (clear : bus.clearOfCalls event = true)
    (removed : (∃ thread token, event = .returned thread (.unsubscribed token (some handler))) ∨
      ∃ thread owner token, event = .returned thread .cleared ∧
        .appended owner handler token ∈ events) : bus.Silences handler := by
  rcases removed with ⟨thread, token, rfl⟩ | ⟨thread, owner, token, rfl, appended⟩
  · generalize returned : Event.returned thread (.unsubscribed token (some handler)) = event at moved
    cases moved with
    | returned owns here =>
        cases returned
        obtain ⟨known, reset⟩ := settled.deactivated token handler (result?_of_owns owns)
        have idle := of_decide_eq_true clear
        refine ⟨known, idle, ?_, ?_⟩
        · exact fun set => absurd (reset.symm.trans set) nofun
        · exact fun set => absurd (reset.symm.trans set) nofun
    | _ => cases returned
  · generalize returned : Event.returned thread .cleared = event at moved
    cases moved with
    | returned owns here =>
        cases returned
        have quiet := of_decide_eq_true clear
        have known : handler < bus.allocated := by
          have bound := (appended_numbered.bounds consistent.explained appended rfl).2
          rw [Nat.zero_add, ← consistent.counted.allocated] at bound
          exact bound
        refine ⟨known, ?_, ?_, ?_⟩
        · intro other frame inside
          rw [(quiet other frame inside).1]
          exact nofun
        · intro set other frame inside member
          exact absurd (((quiet other frame inside).2 handler member).symm.trans set) nofun
        · intro _ type
          rw [settled.cleared (result?_of_owns owns) type]
          exact List.not_mem_nil
    | _ => cases returned

/-- In every run in which no Unsubscribe returns between the load of its handler's flag
and the call, and no Clear while a Publish has active handlers left, the removed
handlers stay silent. -/
theorem removed_stay_silent (events : List (Event count)) (bus : EventBus count)
    (run : (system count).RunsUnder (fun _ bus _ event => bus.clearOfCalls event)
      constructed events bus) : RemovedSilent events := by
  have holds : Explained InvokesPresent events ∧
      ∀ handler, Removed events handler → bus.Silences handler := by
    apply run.invariant (fun events bus => Explained InvokesPresent events ∧
      ∀ handler, Removed events handler → bus.Silences handler)
    · refine ⟨explained_nil, ?_⟩
      rintro handler (returned | ⟨split, _⟩)
      · cases returned
      · simp at split
    · intro events bus choice next event prior before transition clear
      obtain ⟨explained, silenced⟩ := before
      have moved := step_sound transition
      have topology := topology_of_runs prior.runs
      refine ⟨explained_concat.mpr ⟨explained, ?_⟩, ?_⟩
      · rintro publication handler rfl removed
        exact (silenced handler removed).not_invoked moved
      · intro handler removed
        rcases removed_concat removed with earlier | now
        · exact (silenced handler earlier).step topology moved
        · have silences := silences_of_removed (consistent_of_runs prior.runs)
            (settled_of_runs prior.runs) moved clear now
          exact silences.step topology moved
  exact RemovedSilent.of_explained holds.1

/-- The first of two handlers unsubscribes the second, which is not invoked any more;
after the Publish the bus is cleared. -/
theorem unsubscribed_handler_stays_silent : ∃ events bus,
    (system 1).RunsUnder (fun _ bus _ event => bus.clearOfCalls event) constructed events bus ∧
    RemovedSilent events ∧ invokedBy 0 events = [0] ∧
    .returned 0 (.unsubscribed { id := 2, type := 1 } (some 1)) ∈ events ∧
    .returned 0 .cleared ∈ events := by
  obtain ⟨events, bus, run, shown⟩ := (system 1).runs_of_exec
    (fun _ bus _ event => bus.clearOfCalls event) constructed
    (subscribes 0 1 0 ++ subscribes 0 1 1 ++ .publish 0 1 :: List.replicate 3 (.advance 0) ++
      unsubscribes 0 { id := 2, type := 1 } 2 ++ List.replicate 3 (.advance 0) ++
      .call 0 .clear :: List.replicate 3 (.advance 0))
    (fun _ events => invokedBy 0 events = [0] ∧
      .returned 0 (.unsubscribed { id := 2, type := 1 } (some 1)) ∈ events ∧
      .returned 0 .cleared ∈ events)
    (by decide +kernel)
  exact ⟨events, bus, run, removed_stay_silent events bus run, shown⟩

/-- The first of two handlers clears the bus, and the second is invoked after Clear has
returned. -/
theorem cleared_handler_is_invoked : ¬ ∀ (events : List (Event 1)) bus,
    Reached events bus → RemovedSilent events := by
  intro silent
  obtain ⟨events, bus, run, order⟩ := (system 1).runs_of_exec (fun _ _ _ _ => True) constructed
    (subscribes 0 1 0 ++ subscribes 0 1 1 ++ .publish 0 1 :: List.replicate 3 (.advance 0) ++
      .call 0 .clear :: List.replicate 3 (.advance 0) ++ List.replicate 3 (.advance 0))
    (fun _ events => [.appended 0 1 { id := 2, type := 1 }, .returned 0 .cleared,
      .invoked 0 1].Sublist events)
    (by decide +kernel)
  obtain ⟨front, rest, rfl, appended, later⟩ := List.cons_sublist_iff.mp order
  obtain ⟨middle, last, rfl, returned, invoked⟩ := List.cons_sublist_iff.mp later
  obtain ⟨between, behind, rfl⟩ := List.append_of_mem returned
  refine (silent _ bus run).cleared (front ++ between) (behind ++ last) 0 (by simp) 0 1 _
    (List.mem_append_left _ appended) 0 ?_
  exact List.mem_append_right _ (List.singleton_sublist.mp invoked)

end EventBus
end MmoServer.Events
