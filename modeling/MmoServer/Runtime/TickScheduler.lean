import MmoServer.Timer.Steps

/-!
# TickScheduler

The runtime thread calls the scheduler; RunOneTick runs the callbacks of the timer queue
on the way, and a callback may call Shutdown. A step is a call up to its first reading of
the clock, a step of the timer queue, or one of the parts of RunOneTick after it. Other
threads, and the callbacks, schedule and cancel timers meanwhile; only RunOneTick calls
the Tick of the queue.

The steady clock is whatever it says, and waiting for the next tick may take any time.
DispatchPipeline goes over the phases and does nothing with them.
-/

namespace MmoServer.Runtime

open MmoServer.Semantics MmoServer.Timer

/-- The mode that the context shows. -/
inductive RuntimeMode where
  | initializing
  | running
  | stopping
  | stopped
deriving DecidableEq

/-- What the scheduler shows of itself to the pipeline and to others. -/
structure RuntimeContext where
  tickId : UInt64 := 0
  deltaTimeMs : UInt32 := 0
  mode : RuntimeMode := .initializing
  workerCount : UInt32 := 0
deriving DecidableEq

/-- The lifecycle of the scheduler. -/
inductive TickSchedulerState where
  | created
  | initialized
  | running
  | stopping
  | stopped
deriving DecidableEq

/-- The interval of the ticks in milliseconds. -/
structure TickSchedulerConfig where
  tickInterval : Duration := 50

/-- Where the runtime thread is in RunOneTick. -/
inductive TickPoint where
  /-- In no call of the scheduler. -/
  | outside
  /-- At `m_clock.Now()`. -/
  | readClock
  /-- Inside `m_timerQueue.Tick(now)`. -/
  | timers
  | updateRuntimeContext
  | dispatchPipeline
  | advanceTick
  | waitNextTick
deriving DecidableEq

/-- The scheduler with its timers, and the place of the runtime thread in it. -/
structure TickScheduler (Callback : Type) where
  config : TickSchedulerConfig
  context : RuntimeContext := {}
  timerQueue : TimerQueue Callback := TimerQueue.constructed
  state : TickSchedulerState := .created
  nextTickTime : TimePoint := 0
  stopRequested : Bool := false
  point : TickPoint := .outside
  /-- RunOneTick was called by RunUntilStopped. -/
  looping : Bool := false

namespace TickScheduler

/-- The owner calls, the runtime thread goes on, or the timers are used. -/
inductive Choice (Callback : Type) where
  /-- The runtime thread calls Initialize; `reading` is what the clock says. -/
  | initializeAt (reading : TimePoint)
  /-- The runtime thread calls Shutdown, between ticks or from a callback. -/
  | shutdown
  | runOneTick
  | runUntilStopped
  /-- The runtime thread takes its next step in RunOneTick. -/
  | advance (reading : TimePoint)
  /-- A thread calls Schedule or Cancel, or takes its next step in Schedule. -/
  | timer (choice : Timer.Choice Callback)

/-- What a step shows of itself. -/
inductive Event (Callback : Type) where
  | threw (what : String)
  | initialized
  | shutDown
  /-- RunOneTick has passed its tests. -/
  | began
  | timer (event : Timer.Event Callback)
  | updated
  | dispatchedPipeline
  | advanced
  /-- RunOneTick, or RunUntilStopped, returns. -/
  | returned
deriving DecidableEq

variable {Callback : Type}

/-- TickScheduler::UpdateRuntimeContext. -/
def updateRuntimeContext (scheduler : TickScheduler Callback) : TickScheduler Callback :=
  { scheduler with context := { scheduler.context with
      deltaTimeMs := scheduler.config.tickInterval.toUInt64.toUInt32 } }

/-- TickScheduler::Initialize. -/
def initializeAt (scheduler : TickScheduler Callback) (reading : TimePoint) :
    TickScheduler Callback × Event Callback :=
  if scheduler.state ≠ .created then (scheduler, .threw "TickScheduler already initialized")
  else
    let zeroed := { scheduler with context := { scheduler.context with tickId := 0 } }
    let updated := zeroed.updateRuntimeContext
    ({ updated with
        context := { updated.context with mode := .initializing, workerCount := 0 }
        stopRequested := false
        nextTickTime := deadlineOf reading scheduler.config.tickInterval
        state := .initialized }, .initialized)

/-- TickScheduler::Shutdown. -/
def shutdown (scheduler : TickScheduler Callback) : TickScheduler Callback :=
  if scheduler.state = .stopped then scheduler
  else
    let stopping := { scheduler with
      stopRequested := true
      context := { scheduler.context with mode := .stopping }
      state := .stopping }
    { stopping with
      context := { stopping.context with mode := .stopped }
      state := .stopped }

/-- TickScheduler::RunOneTick up to the reading of the clock. What it throws leaves
RunUntilStopped too. -/
def runOneTick (scheduler : TickScheduler Callback) : TickScheduler Callback × Event Callback :=
  if scheduler.state = .stopped then
    ({ scheduler with point := .outside, looping := false }, .threw "RunOneTick after shutdown")
  else if scheduler.state = .created then
    ({ scheduler with point := .outside, looping := false }, .threw "RunOneTick before initialize")
  else
    ({ scheduler with
        context := { scheduler.context with mode := .running }
        state := if scheduler.state = .initialized then .running else scheduler.state
        point := .readClock }, .began)

/-- The test of the loop of RunUntilStopped. -/
def loopTest (scheduler : TickScheduler Callback) : TickScheduler Callback × Event Callback :=
  if scheduler.stopRequested then
    ({ scheduler with point := .outside, looping := false }, .returned)
  else { scheduler with looping := true }.runOneTick

/-- TickScheduler::RunUntilStopped up to the first test of its loop. -/
def runUntilStopped (scheduler : TickScheduler Callback) :
    TickScheduler Callback × Event Callback :=
  if scheduler.state = .stopped then (scheduler, .threw "RunUntilStopped after shutdown")
  else scheduler.loopTest

/-- A step of the timer queue, after which the runtime thread is at a point. -/
def timerStep (scheduler : TickScheduler Callback) (choice : Timer.Choice Callback)
    (point : Timer.Event Callback → TickPoint) :
    Option (TickScheduler Callback × Event Callback) :=
  (scheduler.timerQueue.step choice).map fun (timerQueue, event) =>
    ({ scheduler with timerQueue, point := point event }, .timer event)

/-- Where the runtime thread is after a step of the Tick of the queue. -/
def afterDispatch : Timer.Event Callback → TickPoint
  | .returned => .updateRuntimeContext
  | _ => .timers

/-- The next step in RunOneTick. -/
def advance (scheduler : TickScheduler Callback) (reading : TimePoint) :
    Option (TickScheduler Callback × Event Callback) :=
  match scheduler.point with
  | .outside => none
  | .readClock => scheduler.timerStep (.tick reading) fun _ => .timers
  | .timers => scheduler.timerStep .dispatch afterDispatch
  | .updateRuntimeContext =>
    some ({ scheduler.updateRuntimeContext with point := .dispatchPipeline }, .updated)
  | .dispatchPipeline => some ({ scheduler with point := .advanceTick }, .dispatchedPipeline)
  | .advanceTick =>
    some ({ scheduler with
        context := { scheduler.context with tickId := scheduler.context.tickId + 1 }
        point := .waitNextTick }, .advanced)
  | .waitNextTick =>
    let waited := { scheduler with
      nextTickTime := deadlineOf scheduler.nextTickTime scheduler.config.tickInterval }
    some (if waited.looping then waited.loopTest else ({ waited with point := .outside }, .returned))

/-- The runtime thread is between calls or inside a callback, and in no call of the
timer queue of its own. -/
def runsUserCode (scheduler : TickScheduler Callback) : Bool :=
  (scheduler.point = .outside ∨ scheduler.point = .timers) ∧
    scheduler.timerQueue.mayCall runtime = true

/-- The call of the timer queue is one of Schedule or Cancel, and the runtime thread makes
it in user code only. -/
def maySchedule (scheduler : TickScheduler Callback) : Timer.Choice Callback → Bool
  | .schedule thread _ _ | .cancel thread _ => thread ≠ runtime ∨ scheduler.runsUserCode
  | .advance _ _ => true
  | .tick _ | .dispatch => false

/-- A call is entered where the thread runs user code; else it goes on. -/
def step (scheduler : TickScheduler Callback) :
    Choice Callback → Option (TickScheduler Callback × Event Callback)
  | .initializeAt reading =>
    if scheduler.point = .outside ∧ scheduler.runsUserCode then
      some (scheduler.initializeAt reading)
    else none
  | .shutdown =>
    if scheduler.runsUserCode then some (scheduler.shutdown, .shutDown) else none
  | .runOneTick =>
    if scheduler.point = .outside ∧ scheduler.runsUserCode then some scheduler.runOneTick else none
  | .runUntilStopped =>
    if scheduler.point = .outside ∧ scheduler.runsUserCode then some scheduler.runUntilStopped
    else none
  | .advance reading => scheduler.advance reading
  | .timer choice =>
    if scheduler.maySchedule choice then scheduler.timerStep choice fun _ => scheduler.point
    else none

/-- The scheduler under any sequence of calls, from callbacks too. -/
def system (Callback : Type) :
    TransitionSystem (TickScheduler Callback) (Choice Callback) (Event Callback) where
  step := step

/-- TickScheduler::TickScheduler. -/
def constructed (config : TickSchedulerConfig) : TickScheduler Callback where
  config

end TickScheduler
end MmoServer.Runtime
