import MmoServer.Runtime.TickShutdown
import MmoServer.Timer.Dispatch

/-!
# The pace of the tick scheduler

What a step of the scheduler does to the time that it waits for: Initialize sets it, the end of
a wait adds the interval, and nothing else changes it. A tick is sampled once between two
waits, by the call of Tick.
-/

namespace MmoServer.Runtime

open MmoServer.Semantics MmoServer.Std MmoServer.Timer

/-- Between the sample of a tick and the end of its wait. -/
def TickPoint.inTick : TickPoint → Bool
  | .outside | .readClock => false
  | _ => true

namespace TickScheduler

variable {Callback : Type} {scheduler next : TickScheduler Callback} {choice : Choice Callback}
  {event : Event Callback} {events : List (Event Callback)} {reading : TimePoint}

/-- The scheduler is not initialized, or no more, and in no call. -/
def Idle (scheduler : TickScheduler Callback) : Prop :=
  scheduler.point = .outside ∧ (scheduler.state = .created ∨ scheduler.state = .stopped)

/-- An event that neither begins the grid nor samples a tick. -/
def Event.Unsampled : Event Callback → Prop
  | .initialized | .timer (.ticked _) => False
  | _ => True

/-- What happens in the timer queue. -/
def timerEvents (events : List (Event Callback)) : List (Timer.Event Callback) :=
  events.filterMap fun
    | .timer event => some event
    | _ => none

/-- The timer queue takes the step that the event shows, or none. -/
def StepsQueue (scheduler next : TickScheduler Callback) (event : Event Callback) : Prop :=
  (∃ call seen, event = .timer seen ∧
    scheduler.timerQueue.step call = some (next.timerQueue, seen)) ∨
  (timerEvents [event] = [] ∧ next.timerQueue = scheduler.timerQueue)

theorem StepsQueue.congr {other : TickScheduler Callback} (steps : StepsQueue scheduler next event)
    (same : other.timerQueue = scheduler.timerQueue) : StepsQueue other next event := by
  rw [StepsQueue, same]
  exact steps

/-- A step of the scheduler, by what it does to the grid of its ticks. -/
inductive Paces (scheduler next : TickScheduler Callback) (choice : Choice Callback) :
    Event Callback → Prop
  | initialized {reading : TimePoint} (asked : choice = .initializeAt reading)
      (created : scheduler.state = .created) (after : next.state ≠ .created)
      (before : scheduler.point = .outside) (outside : next.point = .outside)
      (time : next.nextTickTime = deadlineOf reading scheduler.config.tickInterval) :
      Paces scheduler next choice .initialized
  | sampled {now : TimePoint} (asked : choice = .advance now)
      (before : scheduler.point = .readClock) (after : next.point = .timers)
      (time : next.nextTickTime = scheduler.nextTickTime) (state : next.state = scheduler.state) :
      Paces scheduler next choice (.timer (.ticked now))
  | waited {event : Event Callback} {reading : TimePoint} (asked : choice = .advance reading)
      (before : scheduler.point = .waitNextTick) (after : next.point.inTick = false)
      (time : next.nextTickTime = deadlineOf scheduler.nextTickTime scheduler.config.tickInterval)
      (state : scheduler.state ≠ .created → next.state ≠ .created) (silent : event.Unsampled) :
      Paces scheduler next choice event
  | other {event : Event Callback} (same : next.point.inTick = scheduler.point.inTick)
      (time : next.nextTickTime = scheduler.nextTickTime)
      (state : scheduler.state ≠ .created → next.state ≠ .created)
      (idle : scheduler.Idle → next.Idle) (silent : event.Unsampled) :
      Paces scheduler next choice event

/-- RunOneTick up to the reading of the clock. -/
theorem runOneTick_paces (scheduler : TickScheduler Callback) :
    scheduler.runOneTick.1.point.inTick = false ∧
      scheduler.runOneTick.1.nextTickTime = scheduler.nextTickTime ∧
      scheduler.runOneTick.1.config = scheduler.config ∧
      (scheduler.state ≠ .created → scheduler.runOneTick.1.state ≠ .created) ∧
      (scheduler.state = .created ∨ scheduler.state = .stopped → scheduler.runOneTick.1.Idle) ∧
      scheduler.runOneTick.2.Unsampled ∧
      StepsQueue scheduler scheduler.runOneTick.1 scheduler.runOneTick.2 := by
  rw [runOneTick]
  split
  · next stopped =>
    exact ⟨rfl, rfl, rfl, id, fun _ => ⟨rfl, .inr stopped⟩, trivial, .inr ⟨rfl, rfl⟩⟩
  · next going =>
    split
    · next created =>
      exact ⟨rfl, rfl, rfl, id, fun _ => ⟨rfl, .inl created⟩, trivial, .inr ⟨rfl, rfl⟩⟩
    · next ready =>
      refine ⟨rfl, rfl, rfl, fun _ => ?_, fun early => (early.elim ready going).elim, trivial,
        .inr ⟨rfl, rfl⟩⟩
      show (if scheduler.state = .initialized then TickSchedulerState.running else _) ≠ _
      split
      · rintro ⟨⟩
      · exact ready

/-- The test of the loop, and what follows. -/
theorem loopTest_paces (scheduler : TickScheduler Callback) :
    scheduler.loopTest.1.point.inTick = false ∧
      scheduler.loopTest.1.nextTickTime = scheduler.nextTickTime ∧
      scheduler.loopTest.1.config = scheduler.config ∧
      (scheduler.state ≠ .created → scheduler.loopTest.1.state ≠ .created) ∧
      (scheduler.state = .created ∨ scheduler.state = .stopped → scheduler.loopTest.1.Idle) ∧
      scheduler.loopTest.2.Unsampled ∧
      StepsQueue scheduler scheduler.loopTest.1 scheduler.loopTest.2 := by
  rw [loopTest]
  split
  · exact ⟨rfl, rfl, rfl, id, fun early => ⟨rfl, early⟩, trivial, .inr ⟨rfl, rfl⟩⟩
  · exact runOneTick_paces { scheduler with looping := true }

/-- Only the call of Tick takes a sample. -/
theorem unsampled_of_maySchedule {queue after : TimerQueue Callback} {call : Timer.Choice Callback}
    {seen : Timer.Event Callback} (may : scheduler.maySchedule call = true)
    (moved : queue.step call = some (after, seen)) : (Event.timer seen).Unsampled := by
  cases seen with
  | ticked now =>
      have kept := (queue_kept may moved).1
      cases TimerQueue.step_sound moved with
      | ticked idle free =>
          rw [idle] at kept
          cases kept
  | _ => trivial

theorem unsampled_of_dispatch {queue after : TimerQueue Callback} {seen : Timer.Event Callback}
    (moved : queue.step .dispatch = some (after, seen)) : (Event.timer seen).Unsampled := by
  cases seen with
  | ticked now =>
      cases TimerQueue.step_sound moved with
      | ticked idle free => simp [TimerQueue.step, idle] at moved
  | _ => trivial

theorem advance_paces (moved : scheduler.advance reading = some (next, event)) :
    next.config = scheduler.config ∧ StepsQueue scheduler next event ∧
      Paces scheduler next (.advance reading) event := by
  rw [TickScheduler.advance] at moved
  cases point : scheduler.point with
  | outside =>
      rw [point] at moved
      cases moved
  | readClock =>
      rw [point] at moved
      obtain ⟨⟨queue, seen⟩, ticked, same⟩ := Option.map_eq_some_iff.mp moved
      cases same
      have called := ticked
      simp only [TimerQueue.step] at ticked
      split at ticked
      · cases ticked
        exact ⟨rfl, .inl ⟨.tick reading, _, rfl, called⟩, .sampled rfl point rfl rfl rfl⟩
      · cases ticked
  | timers =>
      rw [point] at moved
      obtain ⟨⟨queue, seen⟩, dispatched, same⟩ := Option.map_eq_some_iff.mp moved
      cases same
      have inside : (afterDispatch seen).inTick = scheduler.point.inTick := by
        rw [point]
        cases seen <;> rfl
      refine ⟨rfl, .inl ⟨.dispatch, seen, rfl, dispatched⟩,
        .other inside rfl id (fun idle => ?_) (unsampled_of_dispatch dispatched)⟩
      cases idle.1.symm.trans point
  | updateRuntimeContext | dispatchPipeline | advanceTick =>
      rw [point] at moved
      cases moved
      refine ⟨rfl, .inr ⟨rfl, rfl⟩, .other (by rw [point]; rfl) rfl id (fun idle => ?_) trivial⟩
      cases idle.1.symm.trans point
  | waitNextTick =>
      rw [point] at moved
      have same := Option.some.inj moved
      split at same
      · obtain ⟨after, time, config, state, -, silent, queue⟩ := loopTest_paces { scheduler with
          nextTickTime := deadlineOf scheduler.nextTickTime scheduler.config.tickInterval
          point := .waitNextTick }
        rw [same] at after time config state silent queue
        exact ⟨config, queue.congr rfl, .waited rfl point after time state silent⟩
      · cases same
        exact ⟨rfl, .inr ⟨rfl, rfl⟩, .waited rfl point rfl rfl id trivial⟩

theorem step_paces (transition : scheduler.step choice = some (next, event)) :
    next.config = scheduler.config ∧ StepsQueue scheduler next event ∧
      Paces scheduler next choice event := by
  cases choice with
  | initializeAt reading =>
      simp only [step] at transition
      split at transition
      · next user =>
        simp only [TickScheduler.initializeAt] at transition
        split at transition
        · cases transition
          exact ⟨rfl, .inr ⟨rfl, rfl⟩, .other rfl rfl id id trivial⟩
        · next created =>
          cases transition
          exact ⟨rfl, .inr ⟨rfl, rfl⟩,
            .initialized rfl (not_not.mp created) (by rintro ⟨⟩) user.1 user.1 rfl⟩
      · cases transition
  | shutdown =>
      simp only [step] at transition
      split at transition
      · cases transition
        rw [TickScheduler.shutdown]
        split
        · exact ⟨rfl, .inr ⟨rfl, rfl⟩, .other rfl rfl id id trivial⟩
        · exact ⟨rfl, .inr ⟨rfl, rfl⟩,
            .other rfl rfl (by rintro _ ⟨⟩) (fun idle => ⟨idle.1, .inr rfl⟩) trivial⟩
      · cases transition
  | runOneTick =>
      simp only [step] at transition
      split at transition
      · next user =>
        obtain ⟨point, time, config, state, idle, silent, queue⟩ := runOneTick_paces scheduler
        rw [Option.some.inj transition] at point time config state idle silent queue
        refine ⟨config, queue,
          .other (point.trans ?_) time state (fun before => idle before.2) silent⟩
        rw [user.1]
        rfl
      · cases transition
  | runUntilStopped =>
      simp only [step] at transition
      split at transition
      · next user =>
        have same := Option.some.inj transition
        rw [TickScheduler.runUntilStopped] at same
        split at same
        · cases same
          exact ⟨rfl, .inr ⟨rfl, rfl⟩, .other rfl rfl id id trivial⟩
        · obtain ⟨point, time, config, state, idle, silent, queue⟩ := loopTest_paces scheduler
          rw [same] at point time config state idle silent queue
          refine ⟨config, queue,
          .other (point.trans ?_) time state (fun before => idle before.2) silent⟩
          rw [user.1]
          rfl
      · cases transition
  | advance reading => exact advance_paces transition
  | timer call =>
      simp only [step] at transition
      split at transition
      · next may =>
        obtain ⟨⟨queue, seen⟩, called, same⟩ := Option.map_eq_some_iff.mp transition
        cases same
        exact ⟨rfl, .inl ⟨call, seen, rfl, called⟩,
          .other rfl rfl id id (unsampled_of_maySchedule may called)⟩
      · cases transition

theorem timerEvents_concat (events : List (Event Callback)) (event : Event Callback) :
    timerEvents (events ++ [event]) = timerEvents events ++ timerEvents [event] :=
  List.filterMap_append

/-- The timer queue of a run has a run of its own. -/
theorem timer_runs {config : TickSchedulerConfig}
    (run : (system Callback).Runs (constructed config) events scheduler) :
    TimerQueue.Reached (timerEvents events) scheduler.timerQueue := by
  apply run.invariant fun events scheduler =>
    TimerQueue.Reached (timerEvents events) scheduler.timerQueue
  · exact .refl
  · intro events scheduler choice next event _ reached transition _
    rw [timerEvents_concat]
    obtain ⟨-, ⟨call, seen, rfl, moved⟩ | ⟨quiet, same⟩, -⟩ := step_paces transition
    · exact .step reached moved trivial
    · rw [quiet, List.append_nil, same]
      exact reached

end TickScheduler

end MmoServer.Runtime
