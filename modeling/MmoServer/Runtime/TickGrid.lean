import MmoServer.Runtime.TickPacing
import MmoServer.Timer.Deadline

/-!
# The ticks on the steady clock

The scheduler beside the steady clock, which only goes forward: whoever reads it at the same
moment reads the same time, and `sleep_until` does not return before its time.

WaitNextTick adds the interval to the time that it has waited for, not to the time at which
it returns. So the ticks keep to a grid that starts at Initialize: one that is late does not
move the later ones, and none comes before its turn (`ticks_on_schedule`). A timer is run in
the first tick that is sampled when it is due.
-/

namespace MmoServer.Runtime

open MmoServer.Semantics MmoServer.Std MmoServer.Timer

namespace TickSchedulerConfig

/-- The interval in nanoseconds. -/
def nanoseconds (config : TickSchedulerConfig) : Int := config.tickInterval.toInt * 1000000

/-- The time of a turn on the grid. -/
def turn (config : TickSchedulerConfig) (anchor : TimePoint) (count : Nat) : Int :=
  anchor.toInt + count * config.nanoseconds

variable {config : TickSchedulerConfig} {anchor : TimePoint} {count : Nat}

/-- The grid starts at its anchor. -/
theorem turn_zero : config.turn anchor 0 = anchor.toInt := by
  simp [turn]

/-- Its points are one interval apart. -/
theorem turn_succ :
    config.turn anchor (count + 1) = config.turn anchor count + config.nanoseconds := by
  rw [turn, turn, Int.natCast_add, Int.add_mul, Int.natCast_one, Int.one_mul, Int.add_assoc]

/-- Later points are no earlier. -/
theorem turn_mono (config : TickSchedulerConfig) (anchor : TimePoint)
    (forward : 0 ≤ config.nanoseconds) {fewer more : Nat} (le : fewer ≤ more) :
    config.turn anchor fewer ≤ config.turn anchor more := by
  have scaled := Int.mul_le_mul_of_nonneg_right (Int.ofNat_le.mpr le) forward
  rw [turn, turn]
  omega

end TickSchedulerConfig

/-- The scheduler and the clock that it and every Schedule read. -/
structure PacedScheduler (Callback : Type) where
  scheduler : TickScheduler Callback
  clock : TimePoint

namespace PacedScheduler

/-- Time passes, or the scheduler moves. -/
inductive Choice (Callback : Type) where
  /-- Time passes. -/
  | elapse (time : TimePoint)
  | act (choice : TickScheduler.Choice Callback)

/-- What a step shows of itself. -/
inductive Event (Callback : Type) where
  | elapsed
  /-- A step of the scheduler, and the time at which it is taken. -/
  | act (time : TimePoint) (event : TickScheduler.Event Callback)
deriving DecidableEq

variable {Callback : Type}

/-- The clock says what it says, and `sleep_until` returns no earlier than it is asked to. -/
def mayAct (paced : PacedScheduler Callback) : TickScheduler.Choice Callback → Bool
  | .initializeAt reading | .timer (.advance _ reading) => reading = paced.clock
  | .advance reading => reading = paced.clock ∧
      (paced.scheduler.point = .waitNextTick → paced.scheduler.nextTickTime ≤ paced.clock)
  | _ => true

/-- A step that reads the clock reads the current time. -/
def step (paced : PacedScheduler Callback) :
    Choice Callback → Option (PacedScheduler Callback × Event Callback)
  | .elapse time =>
    if paced.clock ≤ time then some ({ paced with clock := time }, .elapsed) else none
  | .act choice =>
    if paced.mayAct choice then
      (paced.scheduler.step choice).map fun (scheduler, event) =>
        ({ paced with scheduler }, .act paced.clock event)
    else none

/-- The scheduler on a steady clock. -/
def system (Callback : Type) :
    TransitionSystem (PacedScheduler Callback) (Choice Callback) (Event Callback) where
  step := step

/-- A scheduler that is constructed at a time. -/
def constructed (config : TickSchedulerConfig) (clock : TimePoint) : PacedScheduler Callback where
  scheduler := .constructed config
  clock

/-- What happens in the scheduler. -/
def schedulerEvents (events : List (Event Callback)) : List (TickScheduler.Event Callback) :=
  events.filterMap fun
    | .act _ event => some event
    | .elapsed => none

/-- When Initialize has returned. -/
def anchor? (events : List (Event Callback)) : Option TimePoint :=
  events.findSome? fun
    | .act time .initialized => some time
    | _ => none

/-- A tick has been sampled. -/
def Event.samples : Event Callback → Bool
  | .act _ (.timer (.ticked _)) => true
  | _ => false

variable {config : TickSchedulerConfig} {paced next : PacedScheduler Callback}
  {choice : TickScheduler.Choice Callback} {event : TickScheduler.Event Callback}
  {events : List (Event Callback)} {anchor : TimePoint}

/-- A step of the scheduler is taken at the current time. -/
theorem act_sound {seen : Event Callback}
    (transition : paced.step (.act choice) = some (next, seen)) :
    ∃ event, seen = .act paced.clock event ∧ paced.mayAct choice = true ∧
      next.clock = paced.clock ∧ paced.scheduler.step choice = some (next.scheduler, event) := by
  simp only [step] at transition
  split at transition
  · next may =>
    obtain ⟨⟨scheduler, event⟩, moved, same⟩ := Option.map_eq_some_iff.mp transition
    cases same
    exact ⟨event, rfl, may, rfl, moved⟩
  · cases transition

/-- How far the ticks have got on the grid that starts at an anchor. -/
def OnGrid (config : TickSchedulerConfig) (anchor : TimePoint) (samples : Nat)
    (paced : PacedScheduler Callback) : Prop :=
  ∃ waits, samples = waits + paced.scheduler.point.inTick.toNat ∧
    paced.scheduler.nextTickTime.toInt = config.turn anchor (waits + 1) ∧
    config.turn anchor waits ≤ paced.clock.toInt

/-- The times of this many ticks are counts of 64 signed bits. -/
def Fits (config : TickSchedulerConfig) (anchor : TimePoint) (samples : Nat) : Prop :=
  config.turn anchor (samples + 1) < 2 ^ 63

/-- What holds of the scheduler and of its grid along a run. -/
structure Paced (config : TickSchedulerConfig) (events : List (Event Callback))
    (paced : PacedScheduler Callback) : Prop where
  configured : paced.scheduler.config = config
  before : anchor? events = none →
    paced.scheduler.Idle ∧ tally Event.samples events = 0
  after : ∀ anchor, anchor? events = some anchor → paced.scheduler.state ≠ .created ∧
    (Fits config anchor (tally Event.samples events) →
      OnGrid config anchor (tally Event.samples events) paced)

theorem anchor?_concat (events : List (Event Callback)) (seen : Event Callback) :
    anchor? (events ++ [seen]) = (anchor? events).or (anchor? [seen]) := by
  rw [anchor?, List.findSome?_append, ← anchor?, ← anchor?]

/-- A sum that is in range is stored as it is. -/
theorem toInt_deadlineOf_of_fits {time : TimePoint} {count : Nat}
    (forward : 0 ≤ config.nanoseconds) (here : time.toInt = config.turn anchor count)
    (fits : config.turn anchor (count + 1) < 2 ^ 63) :
    (deadlineOf time config.tickInterval).toInt = config.turn anchor (count + 1) := by
  have exactly : dueTime time config.tickInterval = config.turn anchor (count + 1) := by
    rw [TickSchedulerConfig.turn_succ, ← here]
    rfl
  have low := Int64.le_toInt time
  have rises := config.turn_mono anchor forward (Nat.le_add_right count 1)
  rw [← exactly, deadline_exactly_iff, Representable, exactly]
  omega

/-- An event that does not sample a tick, after the grid has begun or before. -/
theorem anchor?_of_unsampled (silent : event.Unsampled) (time : TimePoint) :
    anchor? [(.act time event : Event Callback)] = none ∧
      Event.samples (.act time event) = false := by
  cases event with
  | initialized => exact silent.elim
  | timer seen =>
      cases seen with
      | ticked => exact silent.elim
      | _ => exact ⟨rfl, rfl⟩
  | _ => exact ⟨rfl, rfl⟩

/-- Time may pass. -/
theorem Paced.elapse (before : Paced config events paced) {time : TimePoint}
    (later : paced.clock ≤ time) :
    Paced config (events ++ [.elapsed]) { paced with clock := time } where
  configured := before.configured
  before none := by
    rw [anchor?_concat, Option.or_eq_none_iff] at none
    rw [tally_concat]
    exact before.before none.1
  after anchor found := by
    have same : anchor? events = some anchor := by
      rw [anchor?_concat] at found
      exact (Option.or_none).symm.trans found
    obtain ⟨alive, grid⟩ := before.after anchor same
    refine ⟨alive, fun fits => ?_⟩
    rw [tally_concat] at fits ⊢
    obtain ⟨waits, counted, next, reached⟩ := grid fits
    exact ⟨waits, counted, next, reached.trans (Int64.le_iff_toInt_le.mp later)⟩

/-- Every step of the scheduler keeps to the grid. -/
theorem Paced.act (before : Paced config events paced) (forward : 0 ≤ config.nanoseconds)
    (may : paced.mayAct choice = true) (clock : next.clock = paced.clock)
    (kept : next.scheduler.config = paced.scheduler.config)
    (paces : paced.scheduler.Paces next.scheduler choice event) :
    Paced config (events ++ [.act paced.clock event]) next := by
  have configured : next.scheduler.config = config := kept.trans before.configured
  cases paces with
  | @initialized reading asked created alive _ outside time =>
      subst asked
      have reads : reading = paced.clock := by simpa [mayAct] using may
      have unanchored : anchor? events = none := by
        cases found : anchor? events with
        | none => rfl
        | some anchor => exact absurd created (before.after anchor found).1
      refine ⟨configured, fun none => ?_, fun anchor found => ⟨alive, fun fits => ?_⟩⟩
      · rw [anchor?_concat, unanchored] at none
        cases none
      · rw [anchor?_concat, unanchored] at found
        cases found
        rw [tally_concat, (before.before unanchored).2] at fits ⊢
        rw [before.configured, reads] at time
        refine ⟨0, ?_, ?_, ?_⟩
        · rw [outside]
          rfl
        · rw [time]
          exact toInt_deadlineOf_of_fits forward TickSchedulerConfig.turn_zero.symm fits
        · rw [TickSchedulerConfig.turn_zero, clock]
  | @sampled now asked here inside time state =>
      refine ⟨configured, fun none => ?_, fun anchor found => ?_⟩
      · rw [anchor?_concat, Option.or_eq_none_iff] at none
        cases (before.before none.1).1.1.symm.trans here
      · have same : anchor? events = some anchor := by
          rw [anchor?_concat] at found
          exact (Option.or_none).symm.trans found
        obtain ⟨alive, grid⟩ := before.after anchor same
        refine ⟨state ▸ alive, fun fits => ?_⟩
        rw [tally_concat] at fits ⊢
        have fewer : Fits config anchor (tally Event.samples events) :=
          Int.lt_of_le_of_lt (config.turn_mono anchor forward (Nat.le_succ _)) fits
        obtain ⟨waits, counted, nextTime, reached⟩ := grid fewer
        rw [here] at counted
        refine ⟨waits, ?_, ?_, ?_⟩
        · rw [inside, counted]
          rfl
        · rw [time, nextTime]
        · rw [clock]
          exact reached
  | @waited _ reading asked here outside time state silent =>
      subst asked
      obtain ⟨quiet, unsampled⟩ := anchor?_of_unsampled silent paced.clock
      have slept : paced.scheduler.nextTickTime ≤ paced.clock := by
        simp only [mayAct, decide_eq_true_eq] at may
        exact may.2 here
      refine ⟨configured, fun none => ?_, fun anchor found => ?_⟩
      · rw [anchor?_concat, quiet, Option.or_none] at none
        cases (before.before none).1.1.symm.trans here
      · rw [anchor?_concat, quiet, Option.or_none] at found
        obtain ⟨alive, grid⟩ := before.after anchor found
        refine ⟨state alive, fun fits => ?_⟩
        rw [tally_concat, unsampled] at fits ⊢
        obtain ⟨waits, counted, nextTime, reached⟩ := grid fits
        rw [here] at counted
        have due : tally Event.samples events = waits + 1 := counted
        refine ⟨waits + 1, ?_, ?_, ?_⟩
        · rw [outside]
          exact due
        · rw [time, before.configured]
          refine toInt_deadlineOf_of_fits forward nextTime ?_
          rw [← due]
          exact fits
        · rw [← nextTime, clock]
          exact Int64.le_iff_toInt_le.mp slept
  | other same time state idle silent =>
      obtain ⟨quiet, unsampled⟩ := anchor?_of_unsampled silent paced.clock
      refine ⟨configured, fun none => ?_, fun anchor found => ?_⟩
      · rw [anchor?_concat, quiet, Option.or_none] at none
        rw [tally_concat, unsampled]
        exact ⟨idle (before.before none).1, (before.before none).2⟩
      · rw [anchor?_concat, quiet, Option.or_none] at found
        obtain ⟨alive, grid⟩ := before.after anchor found
        refine ⟨state alive, fun fits => ?_⟩
        rw [tally_concat, unsampled] at fits ⊢
        obtain ⟨waits, counted, nextTime, reached⟩ := grid fits
        refine ⟨waits, ?_, ?_, ?_⟩
        · rw [same]
          exact counted
        · rw [time, nextTime]
        · rw [clock]
          exact reached

/-! ## Runs -/

theorem schedulerEvents_concat (events : List (Event Callback)) (seen : Event Callback) :
    schedulerEvents (events ++ [seen]) = schedulerEvents events ++ schedulerEvents [seen] :=
  List.filterMap_append

/-- The scheduler of a run has a run of its own. -/
theorem scheduler_runs {clock : TimePoint}
    (run : (system Callback).Runs (constructed config clock) events paced) :
    (TickScheduler.system Callback).Runs (.constructed config) (schedulerEvents events)
      paced.scheduler := by
  apply run.invariant fun events paced =>
    (TickScheduler.system Callback).Runs (.constructed config) (schedulerEvents events)
      paced.scheduler
  · exact .refl
  · intro events paced choice next seen _ before transition _
    rw [schedulerEvents_concat]
    cases choice with
    | elapse time =>
        simp only [system, step] at transition
        split at transition
        · cases transition
          exact (List.append_nil _).symm ▸ before
        · cases transition
    | act choice =>
        obtain ⟨event, rfl, -, -, moved⟩ := act_sound transition
        exact .step before moved trivial

/-- The scheduler keeps to the grid along every run. -/
theorem paced_of_runs {clock : TimePoint} (forward : 0 ≤ config.nanoseconds)
    (run : (system Callback).Runs (constructed config clock) events paced) :
    Paced config events paced := by
  apply run.invariant fun events paced => Paced config events paced
  · exact ⟨rfl, fun _ => ⟨⟨rfl, .inl rfl⟩, rfl⟩, nofun⟩
  · intro events paced choice next seen _ before transition _
    cases choice with
    | elapse time =>
        simp only [system, step] at transition
        split at transition
        · next later =>
          cases transition
          exact before.elapse later
        · cases transition
    | act choice =>
        obtain ⟨event, rfl, may, clock, moved⟩ := act_sound transition
        obtain ⟨kept, -, paces⟩ := TickScheduler.step_paces moved
        exact before.act forward may clock kept paces

/-- The sample of a tick is the time at which it is taken. -/
theorem now_of_sampled {now : TimePoint} {scheduler : TickScheduler Callback}
    (may : paced.mayAct choice = true)
    (moved : paced.scheduler.step choice = some (scheduler, .timer (.ticked now))) :
    now = paced.clock ∧ paced.scheduler.point = .readClock := by
  obtain ⟨-, -, paces⟩ := TickScheduler.step_paces moved
  cases paces with
  | sampled asked before =>
      subst asked
      simp only [mayAct, decide_eq_true_eq] at may
      exact ⟨may.1, before⟩
  | waited _ _ _ _ _ silent => exact silent.elim
  | other _ _ _ _ silent => exact silent.elim

/-- What happens in the timer queue. -/
def timersOf (events : List (Event Callback)) : List (Timer.Event Callback) :=
  TickScheduler.timerEvents (schedulerEvents events)

theorem timersOf_append (events more : List (Event Callback)) :
    timersOf (events ++ more) = timersOf events ++ timersOf more := by
  simp [timersOf, schedulerEvents, TickScheduler.timerEvents]

/-- The running Tick has been sampled by now. -/
theorem sample_le_clock {clock : TimePoint}
    (run : (system Callback).Runs (constructed config clock) events paced) :
    ∀ now, tickOf (timersOf events) = some now → now ≤ paced.clock := by
  apply run.invariant fun events paced =>
    ∀ now, tickOf (timersOf events) = some now → now ≤ paced.clock
  · nofun
  · intro events paced choice next seen _ before transition _ now running
    rw [timersOf_append] at running
    cases choice with
    | elapse time =>
        simp only [system, step] at transition
        split at transition
        · next later =>
          cases transition
          have same : timersOf events ++ timersOf [.elapsed] = timersOf events := List.append_nil _
          rw [same] at running
          exact Int64.le_trans (before now running) later
        · cases transition
    | act choice =>
        obtain ⟨event, rfl, may, clock, moved⟩ := act_sound transition
        rw [clock]
        cases event with
        | timer seen =>
            have shown : timersOf [.act paced.clock (.timer seen)] = [seen] := rfl
            rw [shown, tickOf_concat] at running
            cases seen with
            | ticked sample =>
                cases running
                rw [(now_of_sampled may moved).1]
                exact Int64.le_refl _
            | returned => cases running
            | _ => exact before now running
        | _ =>
            have same : timersOf events ++ [] = timersOf events := List.append_nil _
            exact before now (same ▸ running)

/-- A task that is run in a later tick was not due in an earlier one that had it. -/
theorem not_due_before {front middle later : List (Timer.Event Callback)}
    {queue : TimerQueue Callback} {task : TimerTask Callback}
    (run : TimerQueue.Reached (front ++ .returned :: (middle ++ .entered task :: later)) queue)
    (pushed : Pushed front task) :
    ∃ now, tickOf front = some now ∧ now < task.deadline := by
  have explained := (consistent_of_runs run).explained
  obtain ⟨state, choice, next, prior, transition, -, -⟩ := run.at_event rfl
  have consistent := consistent_of_runs prior
  have split : front ++ .returned :: (middle ++ .entered task :: later) =
      (front ++ .returned :: middle) ++ .entered task :: later := by simp
  obtain ⟨passed, fresh, -⟩ := explained _ _ _ split
  cases TimerQueue.step_sound transition with
  | @returned now here nothing =>
      have pending : Pending front task := by
        refine ⟨pushed, fun popped => ?_⟩
        rcases consistent.dispatching.settled task popped with open_ | dropped | entered
        · rw [here] at open_
          cases open_
        · refine dropped_or_passed explained (List.mem_append_left _ dropped) ?_
          rw [split]
          exact List.mem_append_left _ passed
        · exact fresh (List.mem_append_left _ entered)
      refine ⟨now, ?_, nothing task ((consistent.registered.tasks task).mpr pending)⟩
      rw [consistent.dispatching.now, here]
      rfl

/-- What the scheduler shows is shown at the time of the clock. -/
theorem at_act {clock time : TimePoint} {before later : List (Event Callback)}
    (run : (system Callback).Runs (constructed config clock) events paced)
    (split : events = before ++ .act time event :: later) :
    ∃ state choice scheduler, (system Callback).Runs (constructed config clock) before state ∧
      time = state.clock ∧ state.mayAct choice = true ∧
      state.scheduler.step choice = some (scheduler, event) := by
  obtain ⟨state, choice, next, prior, transition, -, -⟩ := run.at_event split
  cases choice with
  | elapse other =>
      simp only [system, step] at transition
      split at transition <;> cases transition
  | act choice =>
      obtain ⟨shown, same, may, -, moved⟩ := act_sound transition
      cases same
      exact ⟨state, choice, next.scheduler, prior, rfl, may, moved⟩

/-- Its timers have had a run of their own. -/
theorem timers_of_runs {clock : TimePoint}
    (run : (system Callback).Runs (constructed config clock) events paced) :
    TimerQueue.Reached (timersOf events) paced.scheduler.timerQueue :=
  TickScheduler.timer_runs (scheduler_runs run)

/-- The ticks that have been sampled before come each at its turn. -/
theorem sampled_on_turn {clock time now : TimePoint} {before later : List (Event Callback)}
    (run : (system Callback).Runs (constructed config clock) events paced)
    (forward : 0 ≤ config.nanoseconds) (initialized : anchor? events = some anchor)
    (fits : Fits config anchor (tally Event.samples events))
    (split : events = before ++ .act time (.timer (.ticked now)) :: later) :
    now = time ∧ config.turn anchor (tally Event.samples before) ≤ now.toInt := by
  obtain ⟨state, choice, scheduler, prior, rfl, may, moved⟩ := at_act run split
  obtain ⟨rfl, here⟩ := now_of_sampled may moved
  obtain ⟨-, idle, after⟩ := paced_of_runs forward prior
  have begun : anchor? before = some anchor := by
    rw [split, anchor?, List.findSome?_append, ← anchor?] at initialized
    cases found : anchor? before with
    | none => cases (idle found).1.1.symm.trans here
    | some other =>
        rw [found] at initialized
        exact initialized
  have fewer : Fits config anchor (tally Event.samples before) := by
    refine Int.lt_of_le_of_lt (config.turn_mono anchor forward (Nat.succ_le_succ ?_)) fits
    rw [split, tally_append]
    exact Nat.le_add_right _ _
  obtain ⟨waits, counted, -, reached⟩ := (after anchor begun).2 fewer
  rw [here] at counted
  have turns : tally Event.samples before = waits := counted
  rw [turns]
  exact ⟨rfl, reached⟩

/-- On a clock that does not run over, from Initialize on: the tick that comes after some
others is sampled no earlier than their number of intervals later, and the next one waits for
its turn on the same grid. A callback is run when its deadline has passed, in the first tick
that is sampled then: the deadline was still to come in every tick that has returned with
the timer pending. -/
theorem ticks_on_schedule (config : TickSchedulerConfig) (clock : TimePoint)
    (events : List (Event Callback)) (paced : PacedScheduler Callback)
    (run : (system Callback).Runs (constructed config clock) events paced)
    (forward : 0 ≤ config.nanoseconds) (anchor : TimePoint)
    (initialized : anchor? events = some anchor)
    (fits : Fits config anchor (tally Event.samples events)) :
    (∀ before time now later, events = before ++ .act time (.timer (.ticked now)) :: later →
      now = time ∧ config.turn anchor (tally Event.samples before) ≤ now.toInt) ∧
    config.turn anchor (tally Event.samples events) ≤ paced.clock.toInt + config.nanoseconds ∧
    (∃ waits, tally Event.samples events = waits + paced.scheduler.point.inTick.toNat ∧
      paced.scheduler.nextTickTime.toInt = config.turn anchor (waits + 1)) ∧
    ∀ before time task later, events = before ++ .act time (.timer (.entered task)) :: later →
      (∃ now, tickOf (timersOf before) = some now ∧ task.deadline ≤ now ∧ now ≤ time) ∧
      ∀ front returned middle, before = front ++ .act returned (.timer .returned) :: middle →
        Pushed (timersOf front) task →
        ∃ earlier, tickOf (timersOf front) = some earlier ∧ earlier < task.deadline := by
  obtain ⟨-, -, after⟩ := paced_of_runs forward run
  obtain ⟨waits, counted, nextTime, reached⟩ := (after anchor initialized).2 fits
  refine ⟨?_, ?_, ⟨waits, counted, nextTime⟩, ?_⟩
  · exact fun _ _ _ _ split => sampled_on_turn run forward initialized fits split
  · have turns : tally Event.samples events ≤ waits + 1 := by
      rw [counted]
      exact Nat.add_le_add_left (Bool.toNat_le _) waits
    have bound := config.turn_mono anchor forward turns
    rw [TickSchedulerConfig.turn_succ] at bound
    omega
  · intro before time task later split
    have explained := (consistent_of_runs (timers_of_runs run)).explained
    have shown : timersOf events = timersOf before ++ .entered task :: timersOf later := by
      rw [split, timersOf_append]
      rfl
    obtain ⟨-, -, now, running, due⟩ := explained _ _ _ shown
    obtain ⟨state, choice, scheduler, prior, rfl, -, -⟩ := at_act run split
    refine ⟨⟨now, running, due, sample_le_clock prior now running⟩, ?_⟩
    intro front returned middle earlier pushed
    have inner : timersOf before = timersOf front ++ .returned :: timersOf middle := by
      rw [earlier, timersOf_append]
      rfl
    have reached := timers_of_runs run
    rw [shown, inner, List.append_assoc, List.cons_append] at reached
    exact not_due_before reached pushed

/-- The first wait is 7 ms too long. The second tick runs the timer that was pending in the
first, and the third comes at its turn. -/
theorem late_tick_caught_up : ∃ events paced before task later,
    (system Unit).Runs (constructed {} 0) events paced ∧
    events = before ++ .act 57000000 (.timer (.entered task)) :: later ∧
    task.deadline = 20000000 ∧ (∃ now, tickOf (timersOf before) = some now ∧ now ≤ 57000000) ∧
    tally Event.samples events = 3 ∧ paced.clock = 100000000 ∧
    paced.scheduler.nextTickTime.toInt = 150000000 := by
  obtain ⟨events, paced, run, initialized, member, samples, clock, inside⟩ :=
    (system Unit).runs_of_exec (fun _ _ _ _ => True) (constructed {} 0)
      (.act (.initializeAt 0) :: .act (.timer (.schedule 1 20 (some ()))) ::
        List.replicate 4 (.act (.timer (.advance 1 0))) ++ .act .runUntilStopped ::
        List.replicate 5 (.act (.advance 0)) ++ .elapse 57000000 ::
        List.replicate 10 (.act (.advance 57000000)) ++ .elapse 100000000 ::
        List.replicate 2 (.act (.advance 100000000)))
      (fun paced events => anchor? events = some 0 ∧
        .act 57000000 (.timer (.entered ⟨1, 20000000, 0, some (), .scheduled⟩)) ∈ events ∧
        tally Event.samples events = 3 ∧ paced.clock = 100000000 ∧
        paced.scheduler.point.inTick = true)
      (by decide +kernel)
  have interval : TickSchedulerConfig.nanoseconds {} = 50000000 := rfl
  have fits : Fits {} 0 (tally Event.samples events) := by
    rw [samples, Fits, TickSchedulerConfig.turn, interval]
    decide
  obtain ⟨-, -, ⟨waits, counted, time⟩, timers⟩ :=
    ticks_on_schedule {} 0 events paced run (by decide) 0 initialized fits
  obtain ⟨before, later, split⟩ := List.append_of_mem member
  obtain ⟨now, running, -, past⟩ := (timers before _ _ later split).1
  refine ⟨events, paced, before, _, later, run, split, rfl, ⟨now, running, past⟩, samples, clock,
    ?_⟩
  rw [samples, inside, Bool.toNat_true] at counted
  rw [time, ← counted, TickSchedulerConfig.turn, interval]
  rfl

end PacedScheduler
end MmoServer.Runtime
