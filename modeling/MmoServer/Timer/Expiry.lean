import MmoServer.Timer.Dispatch
import MmoServer.Std.Loop

/-!
# DispatchExpired as a loop

When only the runtime thread runs, the callbacks run inside the rounds of the loop: an
invocation is the list of the calls that it makes before it returns. `loop_run` says
that the loop is a run of the queue, step by step.
-/

namespace MmoServer.Timer

open MmoServer.Semantics MmoServer.Std

/-- A call that a callback makes. -/
inductive Action (Callback : Type) where
  | schedule (delay : Duration) (callback : Option Callback)
  | cancel (id : TimerId)

/-- What each invocation of a callback does, counted over the Tick. -/
abbrev Behaviour (Callback : Type) := Nat → Callback → List (Action Callback)

/-- No invocation schedules a timer with a negative delay. -/
def Behaviour.NonNegative {Callback : Type} (behaviour : Behaviour Callback) : Prop :=
  ∀ invocation callback delay later,
    .schedule delay later ∈ behaviour invocation callback → 0 ≤ delay

/-- The delay in nanoseconds, or its sum with the reading, leaves 64 bits, which is
undefined. -/
def Overflows (reading : TimePoint) (delay : Duration) : Prop :=
  ¬ ((-2 ^ 63 ≤ delay.toInt * 1000000 ∧ delay.toInt * 1000000 < 2 ^ 63) ∧
    -2 ^ 63 ≤ reading.toInt + delay.toInt * 1000000 ∧
      reading.toInt + delay.toInt * 1000000 < 2 ^ 63)

instance (reading : TimePoint) (delay : Duration) : Decidable (Overflows reading delay) :=
  inferInstanceAs (Decidable (¬ _))

/-- TimerQueue::Schedule with a callback, in one go. -/
def TimerQueue.scheduled {Callback : Type} (queue : TimerQueue Callback) (reading : TimePoint)
    (delay : Duration) (callback : Callback) : TimerQueue Callback :=
  { queue with
    tasks :=
      { id := queue.nextId, deadline := deadlineOf reading delay, sequence := queue.nextSequence
        callback := some callback, state := .scheduled } :: queue.tasks
    nextId := queue.nextId + 1
    nextSequence := queue.nextSequence + 1 }

/-- The loop between two rounds. -/
structure Expiry (Callback : Type) where
  queue : TimerQueue Callback
  /-- How often the clock has been read. -/
  readings : Nat
  invocations : Nat

namespace Expiry

variable {Callback : Type}

/-- A call of a callback; `clock` gives the readings one after the other. -/
def act (clock : Nat → TimePoint) (expiry : Expiry Callback) :
    Action Callback → Option (Expiry Callback)
  | .schedule _ none => some expiry
  | .schedule delay (some callback) =>
    if Overflows (clock expiry.readings) delay then none
    else
      some
        { expiry with
          queue := expiry.queue.scheduled (clock expiry.readings) delay callback
          readings := expiry.readings + 1 }
  | .cancel id => some { expiry with queue := (expiry.queue.cancel id).1 }

/-- The calls of one invocation. -/
def invoke (clock : Nat → TimePoint) : List (Action Callback) → Expiry Callback →
    Option (Expiry Callback)
  | [], expiry => some expiry
  | action :: actions, expiry => (expiry.act clock action).bind (invoke clock actions)

/-- One round of DispatchExpired. -/
def round (clock : Nat → TimePoint) (behaviour : Behaviour Callback) (now : TimePoint)
    (expiry : Expiry Callback) : Round (Expiry Callback) :=
  match (TimerTask.priority Callback).extract expiry.queue.tasks with
  | none => .returned expiry
  | some (task, rest) =>
    if task.deadline > now then .returned expiry
    else if task.id ∈ expiry.queue.cancelledTimers then
      .again
        { expiry with
          queue := { expiry.queue with
            tasks := rest
            cancelledTimers := expiry.queue.cancelledTimers.erase task.id } }
    else
      match task.callback with
      | none => .again { expiry with queue := { expiry.queue with tasks := rest } }
      | some callback =>
        match invoke clock (behaviour expiry.invocations callback)
          { expiry with
            queue := { expiry.queue with tasks := rest }
            invocations := expiry.invocations + 1 } with
        | none => .undefined
        | some next => .again next

/-- The loop that Tick starts. -/
def started (queue : TimerQueue Callback) : Expiry Callback := ⟨queue, 0, 0⟩

end Expiry

namespace Expiry

variable {Callback : Type} {clock : Nat → TimePoint} {behaviour : Behaviour Callback}
  {now : TimePoint} {expiry next last : Expiry Callback} {action : Action Callback}
  {actions : List (Action Callback)} {task : TimerTask Callback} {rest : List (TimerTask Callback)}

/-! ## What a round does -/

/-- A round that drops a cancelled task. -/
theorem round_of_cancelled
    (taken : (TimerTask.priority Callback).extract expiry.queue.tasks = some (task, rest))
    (due : task.deadline ≤ now) (cancelled : task.id ∈ expiry.queue.cancelledTimers) :
    round clock behaviour now expiry = .again
      { expiry with
        queue := { expiry.queue with
          tasks := rest
          cancelledTimers := expiry.queue.cancelledTimers.erase task.id } } := by
  rw [round, taken]
  dsimp only
  rw [if_neg (Int64.not_lt.mpr due), if_pos cancelled]

/-- A round over a task without a callback. -/
theorem round_of_empty
    (taken : (TimerTask.priority Callback).extract expiry.queue.tasks = some (task, rest))
    (due : task.deadline ≤ now) (live : task.id ∉ expiry.queue.cancelledTimers)
    (empty : task.callback = none) : round clock behaviour now expiry = .again
      { expiry with queue := { expiry.queue with tasks := rest } } := by
  rw [round, taken]
  dsimp only
  rw [if_neg (Int64.not_lt.mpr due), if_neg live, empty]

/-- A round that invokes a callback. -/
theorem round_of_live {callback : Callback}
    (taken : (TimerTask.priority Callback).extract expiry.queue.tasks = some (task, rest))
    (due : task.deadline ≤ now) (live : task.id ∉ expiry.queue.cancelledTimers)
    (given : task.callback = some callback) : round clock behaviour now expiry =
      match invoke clock (behaviour expiry.invocations callback)
        { expiry with
          queue := { expiry.queue with tasks := rest }
          invocations := expiry.invocations + 1 } with
      | none => .undefined
      | some next => .again next := by
  rw [round, taken]
  dsimp only
  rw [if_neg (Int64.not_lt.mpr due), if_neg live, given]

/-- What a round that is followed by another has done. -/
inductive Continues (clock : Nat → TimePoint) (behaviour : Behaviour Callback) (now : TimePoint)
    (expiry : Expiry Callback) : Expiry Callback → Prop
  | dropped {task : TimerTask Callback} {rest : List (TimerTask Callback)}
      (taken : (TimerTask.priority Callback).extract expiry.queue.tasks = some (task, rest))
      (due : task.deadline ≤ now) (cancelled : task.id ∈ expiry.queue.cancelledTimers) :
      Continues clock behaviour now expiry
        { expiry with
          queue := { expiry.queue with
            tasks := rest
            cancelledTimers := expiry.queue.cancelledTimers.erase task.id } }
  | skipped {task : TimerTask Callback} {rest : List (TimerTask Callback)}
      (taken : (TimerTask.priority Callback).extract expiry.queue.tasks = some (task, rest))
      (due : task.deadline ≤ now) (live : task.id ∉ expiry.queue.cancelledTimers)
      (empty : task.callback = none) :
      Continues clock behaviour now expiry
        { expiry with queue := { expiry.queue with tasks := rest } }
  | invoked {task : TimerTask Callback} {rest : List (TimerTask Callback)} {callback}
      {next : Expiry Callback}
      (taken : (TimerTask.priority Callback).extract expiry.queue.tasks = some (task, rest))
      (due : task.deadline ≤ now) (live : task.id ∉ expiry.queue.cancelledTimers)
      (given : task.callback = some callback)
      (done : invoke clock (behaviour expiry.invocations callback)
        { expiry with
          queue := { expiry.queue with tasks := rest }
          invocations := expiry.invocations + 1 } = some next) :
      Continues clock behaviour now expiry next

/-- Every further round takes a due task off the heap. -/
theorem continues_of_round (more : round clock behaviour now expiry = .again next) :
    Continues clock behaviour now expiry next := by
  rw [round] at more
  split at more
  · cases more
  · next task rest taken =>
    split at more
    · cases more
    · next due =>
      have due := Int64.not_lt.mp due
      split at more
      · next cancelled =>
        cases more
        exact .dropped taken due cancelled
      · next live =>
        split at more
        · next empty =>
          cases more
          exact .skipped taken due live empty
        · next callback given =>
          split at more
          · cases more
          · next done =>
            cases more
            exact .invoked taken due live given done

/-- A round that is the last leaves the queue as it is, and without a task that is due. -/
theorem returned_of_round (final : round clock behaviour now expiry = .returned last) :
    last = expiry ∧ ((TimerTask.priority Callback).extract expiry.queue.tasks = none ∨
      ∃ task rest, (TimerTask.priority Callback).extract expiry.queue.tasks = some (task, rest) ∧
        now < task.deadline) := by
  rw [round] at final
  split at final
  · next empty =>
    cases final
    exact ⟨rfl, .inl empty⟩
  · next task rest taken =>
    split at final
    · next later =>
      cases final
      exact ⟨rfl, .inr ⟨task, rest, taken, later⟩⟩
    · split at final
      · cases final
      · split at final
        · cases final
        · split at final
          · cases final
          · cases final

end Expiry

/-! ## The loop is a run of the queue -/

namespace TimerQueue

variable {Callback : Type}

/-- The runtime thread is at a place in Tick. -/
def inTick (queue : TimerQueue Callback) (state : DispatchState Callback) : TimerQueue Callback :=
  { queue with tick := some state }

variable {queue next : TimerQueue Callback} {now : TimePoint} {task : TimerTask Callback}
  {event : Event Callback}

/-- One step is a run. -/
theorem run_of_step (choice : Choice Callback) (stepped : queue.step choice = some (next, event)) :
    (system Callback).Runs queue [event] next := .step .refl stepped trivial

section Dispatch

variable (free : queue.calls runtime = none) {rest : List (TimerTask Callback)}
include free

/-- DispatchExpired pops the due task of least deadline. -/
theorem run_popped (taken : (TimerTask.priority Callback).extract queue.tasks = some (task, rest))
    (due : task.deadline ≤ now) :
    (system Callback).Runs (queue.inTick (.pop now)) [.popped task]
      ({ queue with tasks := rest }.inTick (.check now task)) :=
  run_of_step .dispatch (by simp [step, inTick, free, dispatchStep, taken, Int64.not_lt.mpr due])

/-- The look-up drops a cancelled task. -/
theorem run_dropped (cancelled : task.id ∈ queue.cancelledTimers) :
    (system Callback).Runs (queue.inTick (.check now task)) [.dropped task]
      ({ queue with cancelledTimers := queue.cancelledTimers.erase task.id }.inTick (.pop now)) :=
  run_of_step .dispatch (by simp [step, inTick, free, dispatchStep, cancelled])

/-- The look-up passes any other. -/
theorem run_passed (live : task.id ∉ queue.cancelledTimers) :
    (system Callback).Runs (queue.inTick (.check now task)) [.passed task]
      (queue.inTick (.enter now task)) :=
  run_of_step .dispatch (by simp [step, inTick, free, dispatchStep, live])

/-- An empty callback is not entered. -/
theorem run_skipped (empty : task.callback = none) :
    (system Callback).Runs (queue.inTick (.enter now task)) [.left { task with state := .completed }]
      (queue.inTick (.pop now)) :=
  run_of_step .dispatch (by simp [step, inTick, free, dispatchStep, empty])

/-- The callback is entered. -/
theorem run_entered {callback : Callback} (given : task.callback = some callback) :
    (system Callback).Runs (queue.inTick (.enter now task)) [.entered task]
      (queue.inTick (.execute now { task with state := .executing })) :=
  run_of_step .dispatch (by simp [step, inTick, free, dispatchStep, given])

/-- The callback returns. -/
theorem run_left :
    (system Callback).Runs (queue.inTick (.execute now task))
      [.left { task with state := .completed }] (queue.inTick (.pop now)) :=
  run_of_step .dispatch (by simp [step, inTick, free, dispatchStep])

end Dispatch

/-- The loop ends where nothing is due. -/
theorem run_returned (free : queue.calls runtime = none)
    (nothing : (TimerTask.priority Callback).extract queue.tasks = none ∨
      ∃ task rest, (TimerTask.priority Callback).extract queue.tasks = some (task, rest) ∧
        now < task.deadline) :
    (system Callback).Runs (queue.inTick (.pop now)) [.returned] { queue with tick := none } := by
  apply run_of_step .dispatch
  rcases nothing with empty | ⟨task, rest, taken, later⟩
  · simp [step, inTick, free, dispatchStep, empty]
  · simp [step, inTick, free, dispatchStep, taken, later]

/-- Inside a callback the runtime thread may call the queue. -/
theorem mayCall_inTick (free : queue.calls runtime = none) :
    (queue.inTick (.execute now task)).mayCall runtime = true := by
  simp [mayCall, runsUserCode, inTick, free]

/-- The five steps of a Schedule. -/
theorem run_scheduled (free : queue.calls runtime = none) (may : queue.mayCall runtime = true)
    (reading : TimePoint) (delay : Duration) (callback : Callback) :
    ∃ events, (system Callback).Runs queue events (queue.scheduled reading delay callback) ∧
      tally Event.checks events = 0 := by
  have called : (system Callback).Runs queue [.called runtime delay]
      (queue.setCall runtime (some (.takeId delay callback))) :=
    run_of_step (.schedule runtime delay (some callback)) (by rw [step, if_pos may])
  have issued : (system Callback).Runs (queue.setCall runtime (some (.takeId delay callback)))
      [.issued runtime queue.nextId]
      ({ queue with nextId := queue.nextId + 1 }.setCall runtime
        (some (.readClock queue.nextId delay callback))) :=
    run_of_step (.advance runtime reading) (by simp [step, setCall, scheduleStep])
  have read : (system Callback).Runs
      ({ queue with nextId := queue.nextId + 1 }.setCall runtime
        (some (.readClock queue.nextId delay callback)))
      [.readClock runtime reading]
      ({ queue with nextId := queue.nextId + 1 }.setCall runtime
        (some (.takeSequence queue.nextId (deadlineOf reading delay) callback))) :=
    run_of_step (.advance runtime reading) (by simp [step, setCall, scheduleStep])
  have sequenced : (system Callback).Runs
      ({ queue with nextId := queue.nextId + 1 }.setCall runtime
        (some (.takeSequence queue.nextId (deadlineOf reading delay) callback)))
      [.sequenced runtime queue.nextId queue.nextSequence]
      ({ queue with
          nextId := queue.nextId + 1
          nextSequence := queue.nextSequence + 1 }.setCall runtime
        (some (.push
          { id := queue.nextId, deadline := deadlineOf reading delay, sequence := queue.nextSequence
            callback := some callback, state := .scheduled }))) :=
    run_of_step (.advance runtime reading) (by simp [step, setCall, scheduleStep])
  have pushed : (system Callback).Runs
      ({ queue with
          nextId := queue.nextId + 1
          nextSequence := queue.nextSequence + 1 }.setCall runtime
        (some (.push
          { id := queue.nextId, deadline := deadlineOf reading delay, sequence := queue.nextSequence
            callback := some callback, state := .scheduled })))
      [.pushed runtime
        { id := queue.nextId, deadline := deadlineOf reading delay, sequence := queue.nextSequence
          callback := some callback, state := .scheduled }]
      (queue.scheduled reading delay callback) :=
    run_of_step (.advance runtime reading)
      (by simp [step, setCall, scheduleStep, scheduled, ← free])
  exact ⟨_, called.trans (issued.trans (read.trans (sequenced.trans pushed))), rfl⟩

end TimerQueue

namespace Expiry

open TimerQueue

variable {Callback : Type} {clock : Nat → TimePoint} {behaviour : Behaviour Callback}
  {now : TimePoint} {expiry next last : Expiry Callback} {action : Action Callback}
  {actions : List (Action Callback)} {task : TimerTask Callback} {rest : List (TimerTask Callback)}

/-- A call from a callback is a run of the queue. -/
theorem act_run (free : expiry.queue.calls runtime = none)
    (done : expiry.act clock action = some next) :
    next.queue.calls = expiry.queue.calls ∧
      ∃ events, (system Callback).Runs (expiry.queue.inTick (.execute now task)) events
        (next.queue.inTick (.execute now task)) ∧ tally Event.checks events = 0 := by
  have may : (expiry.queue.inTick (.execute now task)).mayCall runtime = true := mayCall_inTick free
  cases action with
  | cancel id =>
      cases done
      have cancelled : (expiry.queue.inTick (.execute now task)).step (.cancel runtime id) =
          some ((expiry.queue.cancel id).1.inTick (.execute now task),
            .cancelled runtime id (id ∉ expiry.queue.cancelledTimers)) := by
        rw [step, if_pos may]
        rfl
      exact ⟨rfl, _, run_of_step _ cancelled, rfl⟩
  | schedule delay callback =>
      cases callback with
      | none =>
          cases done
          have refused : (expiry.queue.inTick (.execute now task)).step (.schedule runtime delay none) =
              some (expiry.queue.inTick (.execute now task), .refused runtime) := by
            rw [step, if_pos may]
          exact ⟨rfl, _, run_of_step _ refused, rfl⟩
      | some callback =>
          rw [act] at done
          split at done
          · cases done
          · cases done
            have unused : (expiry.queue.inTick (.execute now task)).calls runtime = none := free
            exact ⟨rfl, run_scheduled unused may (clock expiry.readings) delay callback⟩

/-- The calls of an invocation, made inside the callback. -/
theorem invoke_run (done : invoke clock actions expiry = some next)
    (free : expiry.queue.calls runtime = none) :
    next.queue.calls = expiry.queue.calls ∧
      ∃ events, (system Callback).Runs (expiry.queue.inTick (.execute now task)) events
        (next.queue.inTick (.execute now task)) ∧ tally Event.checks events = 0 := by
  induction actions generalizing expiry with
  | nil =>
      cases done
      exact ⟨rfl, [], .refl, rfl⟩
  | cons action actions ih =>
      rw [invoke, Option.bind_eq_some_iff] at done
      obtain ⟨middle, first, rest⟩ := done
      obtain ⟨same, before, run, quiet⟩ := act_run free first
      obtain ⟨sameToo, after, later, quietToo⟩ := ih rest (by rw [same]; exact free)
      refine ⟨sameToo.trans same, before ++ after, run.trans later, ?_⟩
      rw [tally_append, quiet, quietToo]

/-- A round that is followed by another takes out one task. -/
theorem round_run (free : expiry.queue.calls runtime = none)
    (more : round clock behaviour now expiry = .again next) :
    next.queue.calls = expiry.queue.calls ∧
      ∃ events, (system Callback).Runs (expiry.queue.inTick (.pop now)) events
        (next.queue.inTick (.pop now)) ∧ tally Event.checks events = 1 := by
  cases continues_of_round more with
  | @dropped task rest taken due cancelled =>
      have unused : { expiry.queue with tasks := rest }.calls runtime = none := free
      exact ⟨rfl, _, (run_popped free taken due).trans (run_dropped unused cancelled), rfl⟩
  | @skipped task rest taken due live empty =>
      have unused : { expiry.queue with tasks := rest }.calls runtime = none := free
      exact ⟨rfl, _, (run_popped free taken due).trans
        ((run_passed unused live).trans (run_skipped unused empty)), rfl⟩
  | @invoked task rest callback next taken due live given done =>
      have unused : { expiry.queue with tasks := rest }.calls runtime = none := free
      obtain ⟨same, events, called, quiet⟩ := invoke_run done unused
      have after : next.queue.calls runtime = none := by
        rw [same]
        exact free
      refine ⟨same, _, (run_popped free taken due).trans ((run_passed unused live).trans
        ((run_entered unused given).trans (called.trans (run_left after)))), ?_⟩
      rw [tally_append, tally_append, tally_append, tally_append, quiet]
      rfl

/-- The loop after some rounds, as a run of the queue. -/
theorem rounds_run {count : Nat} (free : expiry.queue.calls runtime = none)
    (more : Loop.rounds (round clock behaviour now) count expiry = .again next) :
    next.queue.calls = expiry.queue.calls ∧ ∃ events,
      (system Callback).Runs (expiry.queue.inTick (.pop now)) events
        (next.queue.inTick (.pop now)) ∧ tally Event.checks events = count := by
  induction count generalizing expiry with
  | zero =>
      cases more
      exact ⟨rfl, [], .refl, rfl⟩
  | succ count ih =>
      rw [Loop.rounds] at more
      split at more
      · next middle continued =>
        obtain ⟨same, before, run, once⟩ := round_run free continued
        obtain ⟨sameToo, after, later, others⟩ := ih (by rw [same]; exact free) more
        refine ⟨sameToo.trans same, before ++ after, run.trans later, ?_⟩
        rw [tally_append, once, others, Nat.add_comm]
      · cases more
      · cases more

/-- A loop that ends is a Tick of the queue, with a task taken out in every round
but the last. -/
theorem loop_run {count : Nat} {queue : TimerQueue Callback} (free : queue.calls runtime = none)
    (idle : queue.tick = none)
    (done : Loop.rounds (round clock behaviour now) count (started queue) = .returned last) :
    ∃ during, (system Callback).Runs queue (.ticked now :: (during ++ [.returned]))
      { last.queue with tick := none } ∧ tally Event.checks during < count := by
  obtain ⟨earlier, middle, fewer, more, final⟩ := Loop.again_of_returned done
  obtain ⟨same, during, run, once⟩ := rounds_run free more
  obtain ⟨rfl, nothing⟩ := returned_of_round final
  have ticked : (system Callback).Runs queue [.ticked now] (queue.inTick (.pop now)) :=
    run_of_step (.tick now) (by simp [step, free, idle, inTick])
  have after : last.queue.calls runtime = none := by
    rw [same]
    exact free
  refine ⟨during, ticked.trans (run.trans (run_returned after nothing)), ?_⟩
  rw [once]
  exact fewer

end Expiry
end MmoServer.Timer
