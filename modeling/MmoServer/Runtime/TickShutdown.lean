import MmoServer.Runtime.TickScheduler

/-!
# Shutdown of the tick scheduler

Between ticks Shutdown leaves a scheduler that every later call finds stopped:
`frozen_of_outside`. Inside a callback it changes the state under a RunOneTick that does
not look at it again: the callbacks that are due and the rest of the tick follow, and the
tick id is counted up: `not_frozen_of_callback`.
-/

namespace MmoServer.Runtime

open MmoServer.Semantics MmoServer.Std MmoServer.Timer

namespace TickScheduler

variable {Callback : Type} {scheduler next last : TickScheduler Callback}
  {queue after : TimerQueue Callback} {events before : List (Event Callback)}
  {event : Event Callback} {choice : Choice Callback}

/-- From here on, whatever is called, the tick id and the mode stay as they are and no
callback is entered. -/
def Frozen (scheduler : TickScheduler Callback) : Prop :=
  ∀ events last, (system Callback).Runs scheduler events last →
    last.context.tickId = scheduler.context.tickId ∧ last.context.mode = scheduler.context.mode ∧
      ∀ task, .timer (.entered task) ∉ events

/-- The timer queue is in a Tick exactly when RunOneTick is. -/
def Placed (scheduler : TickScheduler Callback) : Prop :=
  scheduler.timerQueue.tick.isSome = true ↔ scheduler.point = .timers

/-! ## The steps of the timer queue -/

/-- Schedule and Cancel do not touch a Tick. -/
theorem queue_kept {call : Timer.Choice Callback} {seen : Timer.Event Callback}
    (may : scheduler.maySchedule call = true) (transition : queue.step call = some (after, seen)) :
    after.tick = queue.tick ∧ ∀ task, seen ≠ .entered task := by
  cases call with
  | schedule thread delay callback =>
      simp only [TimerQueue.step] at transition
      split at transition
      · cases callback <;> cases transition <;> exact ⟨rfl, by rintro _ ⟨⟩⟩
      · cases transition
  | advance thread reading =>
      obtain ⟨state, _, moved⟩ := Option.map_eq_some_iff.mp transition
      cases state <;> cases moved <;> exact ⟨rfl, by rintro _ ⟨⟩⟩
  | cancel thread id =>
      simp only [TimerQueue.step] at transition
      split at transition
      · cases transition
        exact ⟨rfl, by rintro _ ⟨⟩⟩
      · cases transition
  | tick | dispatch => cases may

/-- How far a Tick is from its next pop. -/
def rank : DispatchState Callback → Nat
  | .pop _ => 0
  | .execute _ _ => 1
  | .enter _ _ => 2
  | .check _ _ => 3

/-- A step of a Tick is its return, or leaves less to do. -/
theorem dispatchStep_cases (queue : TimerQueue Callback) (state : DispatchState Callback) :
    (queue.dispatchStep state).1.calls = queue.calls ∧
    (((queue.dispatchStep state).2 = .returned ∧ (queue.dispatchStep state).1.tick = none) ∨
      ((queue.dispatchStep state).2 ≠ .returned ∧ ∃ later,
        (queue.dispatchStep state).1.tick = some later ∧
        4 * (queue.dispatchStep state).1.tasks.length + rank later <
          4 * queue.tasks.length + rank state)) := by
  cases state with
  | pop now =>
      rw [TimerQueue.dispatchStep]
      split
      · exact ⟨rfl, .inl ⟨rfl, rfl⟩⟩
      · next task rest taken =>
        split
        · exact ⟨rfl, .inl ⟨rfl, rfl⟩⟩
        · have length := ((TimerTask.priority Callback).extract_spec taken).1.length_eq
          refine ⟨rfl, .inr ⟨by rintro ⟨⟩, _, rfl, ?_⟩⟩
          rw [length, List.length_cons]
          change 4 * rest.length + 3 < 4 * (rest.length + 1) + 0
          omega
  | check now task =>
      rw [TimerQueue.dispatchStep]
      split
      · exact ⟨rfl, .inr ⟨by rintro ⟨⟩, _, rfl, Nat.add_lt_add_left (show 0 < 3 by decide) _⟩⟩
      · exact ⟨rfl, .inr ⟨by rintro ⟨⟩, _, rfl, Nat.add_lt_add_left (show 2 < 3 by decide) _⟩⟩
  | enter now task =>
      rw [TimerQueue.dispatchStep]
      split
      · exact ⟨rfl, .inr ⟨by rintro ⟨⟩, _, rfl, Nat.add_lt_add_left (show 0 < 2 by decide) _⟩⟩
      · exact ⟨rfl, .inr ⟨by rintro ⟨⟩, _, rfl, Nat.add_lt_add_left (show 1 < 2 by decide) _⟩⟩
  | execute now task =>
      exact ⟨rfl, .inr ⟨by rintro ⟨⟩, _, rfl, Nat.add_lt_add_left (show 0 < 1 by decide) _⟩⟩

/-- Tick goes on until it returns. -/
theorem afterDispatch_of_ne {seen : Timer.Event Callback} (stays : seen ≠ .returned) :
    afterDispatch seen = .timers := by
  cases seen <;> first | rfl | exact absurd rfl stays

/-- The runtime thread can always go on inside Tick. -/
theorem queue_dispatch {state : DispatchState Callback} (free : queue.calls runtime = none)
    (here : queue.tick = some state) : queue.step .dispatch = some (queue.dispatchStep state) := by
  rw [TimerQueue.step, free, here]
  rfl

/-! ## Where the runtime thread is -/

/-- Only the point and the queue have to be looked at. -/
theorem placed_of_point (placed : scheduler.Placed) (queue : next.timerQueue = scheduler.timerQueue)
    (point : next.point = .timers ↔ scheduler.point = .timers) : next.Placed := by
  rw [Placed, queue, point]
  exact placed

/-- The calls leave RunOneTick or enter it at the clock. -/
theorem runOneTick_kept (scheduler : TickScheduler Callback) :
    scheduler.runOneTick.1.timerQueue = scheduler.timerQueue ∧
      scheduler.runOneTick.1.point ≠ .timers := by
  rw [runOneTick]
  split
  · exact ⟨rfl, nofun⟩
  · split
    · exact ⟨rfl, nofun⟩
    · exact ⟨rfl, nofun⟩

/-- The test of the loop leaves the timers. -/
theorem loopTest_kept (scheduler : TickScheduler Callback) :
    scheduler.loopTest.1.timerQueue = scheduler.timerQueue ∧
      scheduler.loopTest.1.point ≠ .timers := by
  rw [loopTest]
  split
  · exact ⟨rfl, nofun⟩
  · exact runOneTick_kept { scheduler with looping := true }

/-- Shutdown leaves the timers, and its caller where it is. -/
theorem shutdown_kept (scheduler : TickScheduler Callback) :
    scheduler.shutdown.timerQueue = scheduler.timerQueue ∧
      scheduler.shutdown.point = scheduler.point := by
  rw [shutdown]
  split <;> exact ⟨rfl, rfl⟩

/-- So does Initialize. -/
theorem initializeAt_kept (scheduler : TickScheduler Callback) (reading : TimePoint) :
    (scheduler.initializeAt reading).1.timerQueue = scheduler.timerQueue ∧
      (scheduler.initializeAt reading).1.point = scheduler.point := by
  rw [initializeAt]
  split <;> exact ⟨rfl, rfl⟩

/-- The wait ends in the next call of RunOneTick or outside, at whatever time it is due. -/
theorem Placed.wait (placed : scheduler.Placed) (point : scheduler.point = .waitNextTick)
    (deadline : TimePoint) :
    (if scheduler.looping then { scheduler with nextTickTime := deadline }.loopTest
      else ({ scheduler with nextTickTime := deadline, point := .outside }, .returned)).1.Placed := by
  have waiting : ¬ scheduler.point = .timers := by
    rw [point]
    decide
  split
  · obtain ⟨kept, elsewhere⟩ := loopTest_kept { scheduler with nextTickTime := deadline }
    exact placed_of_point placed kept (iff_of_false elsewhere waiting)
  · exact placed_of_point placed rfl (iff_of_false (by rintro ⟨⟩) waiting)

/-- A step of RunOneTick keeps the point with the timers. -/
theorem Placed.advance (placed : scheduler.Placed) {reading : TimePoint}
    (moved : scheduler.advance reading = some (next, event)) : next.Placed := by
  rw [TickScheduler.advance] at moved
  cases point : scheduler.point with
  | outside =>
      rw [point] at moved
      cases moved
  | readClock =>
      rw [point] at moved
      obtain ⟨⟨queue, seen⟩, ticked, same⟩ := Option.map_eq_some_iff.mp moved
      cases same
      simp only [TimerQueue.step] at ticked
      split at ticked
      · cases ticked
        exact iff_of_true rfl rfl
      · cases ticked
  | timers =>
      rw [point] at moved
      obtain ⟨⟨queue, seen⟩, dispatched, same⟩ := Option.map_eq_some_iff.mp moved
      cases same
      simp only [TimerQueue.step] at dispatched
      split at dispatched
      · obtain ⟨state, here, done⟩ := Option.map_eq_some_iff.mp dispatched
        obtain ⟨-, outcome⟩ := dispatchStep_cases scheduler.timerQueue state
        rw [done] at outcome
        rcases outcome with ⟨rfl, gone⟩ | ⟨stays, later, there, -⟩
        · refine iff_of_false ?_ (by rintro ⟨⟩)
          change ¬ queue.tick.isSome = true
          rw [gone]
          exact Bool.false_ne_true
        · exact iff_of_true (Option.isSome_iff_exists.mpr ⟨later, there⟩)
            (afterDispatch_of_ne stays)
      · cases dispatched
  | updateRuntimeContext | dispatchPipeline | advanceTick =>
      rw [point] at moved
      cases moved
      exact placed_of_point placed rfl (by simp [point])
  | waitNextTick =>
      rw [point] at moved
      obtain rfl := congrArg Prod.fst (Option.some.inj moved)
      exact placed.wait point _

/-- So does every step. -/
theorem Placed.step (placed : scheduler.Placed)
    (transition : (system Callback).step scheduler choice = some (next, event)) : next.Placed := by
  change scheduler.step choice = _ at transition
  cases choice with
  | advance reading => exact placed.advance transition
  | timer call =>
      simp only [TickScheduler.step] at transition
      split at transition
      · next may =>
        obtain ⟨⟨queue, seen⟩, called, same⟩ := Option.map_eq_some_iff.mp transition
        cases same
        rw [Placed, (queue_kept may called).1]
        exact placed
      · cases transition
  | initializeAt reading =>
      simp only [TickScheduler.step] at transition
      split at transition
      · obtain ⟨kept, there⟩ := initializeAt_kept scheduler reading
        rw [Option.some.inj transition] at kept there
        exact placed_of_point placed kept (by rw [there])
      · cases transition
  | shutdown =>
      simp only [TickScheduler.step] at transition
      split at transition
      · cases transition
        obtain ⟨kept, there⟩ := shutdown_kept scheduler
        exact placed_of_point placed kept (by rw [there])
      · cases transition
  | runOneTick =>
      simp only [TickScheduler.step] at transition
      split at transition
      · next outside =>
        obtain ⟨kept, elsewhere⟩ := runOneTick_kept scheduler
        rw [Option.some.inj transition] at kept elsewhere
        exact placed_of_point placed kept (iff_of_false elsewhere (by rw [outside.1]; decide))
      · cases transition
  | runUntilStopped =>
      simp only [TickScheduler.step] at transition
      split at transition
      · next outside =>
        have elsewhere : ¬ scheduler.point = .timers := by
          rw [outside.1]
          decide
        have same := Option.some.inj transition
        rw [runUntilStopped] at same
        split at same
        · cases same
          exact placed
        · obtain ⟨kept, there⟩ := loopTest_kept scheduler
          rw [same] at kept there
          exact placed_of_point placed kept (iff_of_false there elsewhere)
      · cases transition

/-- The point agrees with the timers along every run. -/
theorem placed_of_runs {config : TickSchedulerConfig}
    (run : (system Callback).Runs (constructed config) events scheduler) : scheduler.Placed := by
  apply run.invariant fun _ (scheduler : TickScheduler Callback) => scheduler.Placed
  · exact iff_of_false Bool.false_ne_true nofun
  · intro _ _ _ _ _ _ placed transition _
    exact placed.step transition

/-! ## Shutdown between ticks -/

/-- A scheduler that is stopped, and outside of RunOneTick. -/
structure Down (scheduler : TickScheduler Callback) : Prop where
  stopped : scheduler.state = .stopped
  outside : scheduler.point = .outside
  quiet : scheduler.timerQueue.tick = none

/-- Every call finds a stopped scheduler, and the timer queue is left to Schedule and
Cancel. -/
theorem Down.step (down : scheduler.Down)
    (transition : (system Callback).step scheduler choice = some (next, event)) :
    next.Down ∧ next.context = scheduler.context ∧ ∀ task, event ≠ .timer (.entered task) := by
  obtain ⟨stopped, outside, quiet⟩ := down
  change scheduler.step choice = _ at transition
  cases choice with
  | advance reading =>
      rw [TickScheduler.step, TickScheduler.advance, outside] at transition
      cases transition
  | timer call =>
      simp only [TickScheduler.step] at transition
      split at transition
      · next may =>
        obtain ⟨⟨queue, seen⟩, called, same⟩ := Option.map_eq_some_iff.mp transition
        cases same
        obtain ⟨kept, silent⟩ := queue_kept may called
        exact ⟨⟨stopped, outside, kept.trans quiet⟩, rfl, fun task same =>
          silent task (Event.timer.inj same)⟩
      · cases transition
  | initializeAt reading =>
      simp only [TickScheduler.step, initializeAt, stopped] at transition
      split at transition
      · cases transition
        exact ⟨⟨stopped, outside, quiet⟩, rfl, nofun⟩
      · cases transition
  | shutdown =>
      simp only [TickScheduler.step, shutdown, stopped] at transition
      split at transition
      · cases transition
        exact ⟨⟨stopped, outside, quiet⟩, rfl, nofun⟩
      · cases transition
  | runOneTick =>
      simp only [TickScheduler.step, runOneTick, stopped] at transition
      split at transition
      · cases transition
        exact ⟨⟨rfl, rfl, quiet⟩, rfl, nofun⟩
      · cases transition
  | runUntilStopped =>
      simp only [TickScheduler.step, runUntilStopped, stopped] at transition
      split at transition
      · cases transition
        exact ⟨⟨stopped, outside, quiet⟩, rfl, nofun⟩
      · cases transition

/-- A scheduler that is down is frozen. -/
theorem Down.frozen (down : scheduler.Down) : scheduler.Frozen := by
  intro events last run
  have kept : last.Down ∧ last.context = scheduler.context ∧
      ∀ task, .timer (.entered task) ∉ events := by
    apply run.invariant fun events (last : TickScheduler Callback) =>
      last.Down ∧ last.context = scheduler.context ∧ ∀ task, .timer (.entered task) ∉ events
    · exact ⟨down, rfl, fun _ => List.not_mem_nil⟩
    · rintro events middle choice last event - ⟨down, same, silent⟩ transition -
      obtain ⟨downToo, kept, silentToo⟩ := down.step transition
      refine ⟨downToo, kept.trans same, fun task entered => ?_⟩
      rcases List.mem_append.mp entered with earlier | final
      · exact silent task earlier
      · exact silentToo task (List.mem_singleton.mp final).symm
  obtain ⟨-, same, silent⟩ := kept
  exact ⟨congrArg RuntimeContext.tickId same, congrArg RuntimeContext.mode same, silent⟩

/-- Shutdown outside a tick leaves the scheduler down. -/
theorem down_shutdown (outside : scheduler.point = .outside)
    (quiet : scheduler.timerQueue.tick = none) : scheduler.shutdown.Down := by
  obtain ⟨queue, point⟩ := shutdown_kept scheduler
  refine ⟨?_, point.trans outside, ?_⟩
  · rw [shutdown]
    split
    · next stopped => exact stopped
    · rfl
  · rw [queue]
    exact quiet

/-! ## Shutdown inside a callback -/

/-- The Tick of the queue can be taken to its end, and RunOneTick goes on. -/
theorem timers_end (inside : scheduler.point = .timers)
    (free : scheduler.timerQueue.calls runtime = none) {state : DispatchState Callback}
    (here : scheduler.timerQueue.tick = some state) : ∃ events last,
      (system Callback).Runs scheduler events last ∧ last.point = .updateRuntimeContext ∧
        last.context = scheduler.context := by
  generalize left : 4 * scheduler.timerQueue.tasks.length + rank state = fuel
  induction fuel using Nat.strong_induction_on generalizing scheduler state with
  | _ fuel ih =>
      obtain ⟨calls, outcome⟩ := dispatchStep_cases scheduler.timerQueue state
      have stepped : (system Callback).step scheduler (.advance 0) = some
          ({ scheduler with
              timerQueue := (scheduler.timerQueue.dispatchStep state).1
              point := afterDispatch (scheduler.timerQueue.dispatchStep state).2 },
            .timer (scheduler.timerQueue.dispatchStep state).2) := by
        simp [system, step, advance, inside, timerStep, queue_dispatch free here]
      have first : (system Callback).Runs scheduler _ _ := .step .refl stepped trivial
      rcases outcome with ⟨returned, -⟩ | ⟨stays, later, there, less⟩
      · refine ⟨_, _, first, ?_, rfl⟩
        rw [returned]
        rfl
      · obtain ⟨events, last, run, point, context⟩ := @ih _ (left ▸ less)
          { scheduler with
            timerQueue := (scheduler.timerQueue.dispatchStep state).1
            point := afterDispatch (scheduler.timerQueue.dispatchStep state).2 }
          (afterDispatch_of_ne stays) ((congrFun calls runtime).trans free) later there rfl
        exact ⟨_, last, first.trans run, point, context⟩

/-- From there on the tick is counted. -/
theorem tick_counted (here : scheduler.point = .updateRuntimeContext) : ∃ events last,
    (system Callback).Runs scheduler events last ∧
      last.context.tickId = scheduler.context.tickId + 1 := by
  have updated : (system Callback).step scheduler (.advance 0) = some
      ({ scheduler.updateRuntimeContext with point := .dispatchPipeline }, .updated) := by
    simp [system, step, advance, here]
  exact ⟨_, _, .step (.step (.step .refl updated trivial)
    (show (system Callback).step _ (.advance 0) = some (_, .dispatchedPipeline) from rfl) trivial)
    (show (system Callback).step _ (.advance 0) = some (_, .advanced) from rfl) trivial, rfl⟩

/-- Inside Tick the runtime thread still goes on. -/
theorem not_frozen_of_timers (inside : scheduler.point = .timers)
    (free : scheduler.timerQueue.calls runtime = none) {state : DispatchState Callback}
    (here : scheduler.timerQueue.tick = some state) : ¬ scheduler.Frozen := by
  intro frozen
  obtain ⟨events, middle, run, point, context⟩ := timers_end inside free here
  obtain ⟨more, last, rest, counted⟩ := tick_counted point
  have same := (frozen _ last (run.trans rest)).1
  rw [counted, context, ← UInt64.toNat_inj, UInt64.toNat_add] at same
  have small := scheduler.context.tickId.toNat_lt
  have one : (1 : UInt64).toNat = 1 := rfl
  omega

/-- Shutdown from a callback does not freeze the scheduler. -/
theorem not_frozen_of_callback (placed : scheduler.Placed) (inside : scheduler.point = .timers)
    (user : scheduler.runsUserCode = true) : ¬ scheduler.shutdown.Frozen := by
  obtain ⟨queue, point⟩ := shutdown_kept scheduler
  obtain ⟨-, may⟩ := of_decide_eq_true user
  obtain ⟨state, here⟩ := Option.isSome_iff_exists.mp (placed.mpr inside)
  have free := TimerQueue.calls_of_mayCall may
  rw [← queue] at here free
  exact not_frozen_of_timers (point.trans inside) free here

/-- A Shutdown freezes the tick id, the mode and the callbacks exactly when it is not
called from inside a callback. -/
theorem shutdown_freezes_iff {config : TickSchedulerConfig}
    (run : (system Callback).Runs (constructed config) before scheduler)
    (called : (system Callback).step scheduler .shutdown = some (next, event)) :
    next.Frozen ↔ scheduler.point = .outside := by
  have placed := placed_of_runs run
  change scheduler.step .shutdown = _ at called
  simp only [step] at called
  split at called
  · next user =>
    cases called
    rcases (of_decide_eq_true user).1 with outside | inside
    · have quiet : scheduler.timerQueue.tick = none := by
        rw [← Option.not_isSome_iff_eq_none]
        intro busy
        exact absurd (outside.symm.trans (placed.mp busy)) (by decide)
      exact iff_of_true (down_shutdown outside quiet).frozen outside
    · refine iff_of_false (not_frozen_of_callback placed inside user) ?_
      rw [inside]
      exact nofun
  · cases called

/-- Two ticks, the second of which dispatches a timer that has become due, and then Shutdown:
the scheduler stays at tick 2. -/
theorem frozen_after_two_ticks : ∃ before scheduler,
    (system Unit).Runs (constructed {}) before scheduler ∧ scheduler.context.tickId = 2 ∧
    .timer (.entered ⟨1, 20000000, 0, some (), .scheduled⟩) ∈ before ∧
    scheduler.shutdown.Frozen := by
  obtain ⟨before, scheduler, run, ticks, entered, outside, user⟩ := (system Unit).runs_of_exec
    (fun _ _ _ _ => True) (constructed {})
    (.initializeAt 0 :: .timer (.schedule 1 20 (some ())) ::
      List.replicate 4 (.timer (.advance 1 0)) ++ .runOneTick :: List.replicate 6 (.advance 0) ++
      .runOneTick :: List.replicate 10 (.advance 57000000))
    (fun scheduler before => scheduler.context.tickId = 2 ∧
      .timer (.entered ⟨1, 20000000, 0, some (), .scheduled⟩) ∈ before ∧
      scheduler.point = .outside ∧ scheduler.runsUserCode = true)
    (by decide +kernel)
  have called : (system Unit).step scheduler .shutdown = some (scheduler.shutdown, .shutDown) :=
    if_pos user
  exact ⟨before, scheduler, run, ticks, entered, (shutdown_freezes_iff run called).mpr outside⟩

/-- A timer that is due in the first tick calls Shutdown; the tick is counted all the same. -/
theorem callback_shutdown_counts_tick : ¬ ∀ (config : TickSchedulerConfig) before
    (scheduler next : TickScheduler Unit) event,
    (system Unit).Runs (constructed config) before scheduler →
    (system Unit).step scheduler .shutdown = some (next, event) → next.Frozen := by
  intro claim
  obtain ⟨before, scheduler, run, inside, user⟩ := (system Unit).runs_of_exec
    (fun _ _ _ _ => True) (constructed {})
    [.initializeAt 0, .timer (.schedule 1 0 (some ())), .timer (.advance 1 0), .timer (.advance 1 0),
      .timer (.advance 1 0), .timer (.advance 1 0), .runOneTick, .advance 0, .advance 0, .advance 0,
      .advance 0]
    (fun scheduler _ => scheduler.point = .timers ∧ scheduler.runsUserCode = true) (by decide)
  have called : (system Unit).step scheduler .shutdown = some (scheduler.shutdown, .shutDown) :=
    if_pos user
  exact not_frozen_of_callback (placed_of_runs run) inside user
    (claim {} before scheduler _ _ run called)

end TickScheduler
end MmoServer.Runtime
