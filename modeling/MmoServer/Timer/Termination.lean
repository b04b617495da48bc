import MmoServer.Timer.Expiry
import Mathlib.Order.Interval.Finset.Nat

/-!
# Whether Tick ends

Nothing bounds the loop of DispatchExpired but the clock. Callbacks that schedule timers
for at once keep it going for as long as the clock has not passed the time that Tick was
called with.
-/

namespace MmoServer.Timer

open MmoServer.Semantics MmoServer.Std

/-! ## Deadlines -/

/-- Without overflow, the deadline is the sum. -/
theorem toInt_deadlineOf {reading : TimePoint} {delay : Duration} (fits : ¬ Overflows reading delay) :
    (deadlineOf reading delay).toInt = reading.toInt + delay.toInt * 1000000 := by
  obtain ⟨⟨low, high⟩, least, most⟩ := not_not.mp fits
  have factor : (1000000 : Int64).toInt = 1000000 := by
    decide
  have product : (delay * 1000000).toInt = delay.toInt * 1000000 := by
    rw [Int64.toInt_mul, factor]
    exact Int.bmod_eq_of_le (by omega) (by omega)
  rw [deadlineOf, Int64.toInt_add, product]
  exact Int.bmod_eq_of_le (by omega) (by omega)

/-- A timer is not due before it is scheduled. -/
theorem le_deadlineOf {reading : TimePoint} {delay : Duration} (fits : ¬ Overflows reading delay)
    (nonNegative : 0 ≤ delay) : reading ≤ deadlineOf reading delay := by
  rw [Int64.le_iff_toInt_le] at nonNegative ⊢
  have zero : (0 : Int64).toInt = 0 := rfl
  rw [toInt_deadlineOf fits]
  omega

/-- A delay of zero never overflows. -/
theorem not_overflows_zero (reading : TimePoint) : ¬ Overflows reading 0 := by
  have low := reading.le_toInt
  have high := reading.toInt_lt
  have zero : (0 : Int64).toInt = 0 := rfl
  rw [Overflows, not_not, zero]
  omega

/-- It is due at once. -/
theorem deadlineOf_zero (reading : TimePoint) : deadlineOf reading 0 = reading := by
  rw [deadlineOf, Int64.zero_mul, Int64.add_zero]

namespace Expiry

variable {Callback : Type} {clock : Nat → TimePoint} {behaviour : Behaviour Callback}
  {now : TimePoint} {expiry next : Expiry Callback} {action : Action Callback}
  {actions : List (Action Callback)} {task : TimerTask Callback} {rest : List (TimerTask Callback)}

/-! ## A clock that passes the time of the Tick -/

/-- How many tasks are due. -/
def dueCount (now : TimePoint) (expiry : Expiry Callback) : Nat :=
  expiry.queue.tasks.countP fun task => task.deadline ≤ now

/-- The readings until the clock has passed `now`, then the tasks that are due. -/
def variant (now : TimePoint) (passed : Nat) (expiry : Expiry Callback) : Nat ×ₗ Nat :=
  toLex (passed - expiry.readings, expiry.dueCount now)

variable {passed : Nat}

/-- A timer for later adds nothing that is due. -/
theorem dueCount_scheduled {reading : TimePoint} {delay : Duration} {callback : Callback}
    (later : now < deadlineOf reading delay) (readings : Nat) :
    dueCount now { expiry with queue := expiry.queue.scheduled reading delay callback, readings } =
      expiry.dueCount now := by
  rw [dueCount, dueCount, TimerQueue.scheduled]
  refine List.countP_cons_of_neg ?_
  rw [decide_eq_true_iff]
  exact Int64.not_le.mpr later

/-- A timer that is scheduled after the clock has passed `now` is not due. -/
theorem variant_act_le (monotone : ∀ first second, first ≤ second → clock first ≤ clock second)
    (passes : now < clock passed)
    (nonNegative : ∀ delay callback, action = .schedule delay callback → 0 ≤ delay)
    (done : expiry.act clock action = some next) :
    next.variant now passed ≤ expiry.variant now passed := by
  rw [variant, variant, Prod.Lex.toLex_le_toLex]
  cases action with
  | cancel id =>
      cases done
      exact .inr ⟨rfl, Nat.le_refl _⟩
  | schedule delay callback =>
      cases callback with
      | none =>
          cases done
          exact .inr ⟨rfl, Nat.le_refl _⟩
      | some callback =>
          rw [act] at done
          split at done
          · cases done
          · next fits =>
            cases done
            by_cases early : expiry.readings < passed
            · exact .inl (Nat.sub_lt_sub_left early (Nat.lt_succ_self _))
            · have late := Nat.not_lt.mp early
              have after : now < deadlineOf (clock expiry.readings) delay := by
                have reading := monotone _ _ late
                have deadline := le_deadlineOf fits (nonNegative _ _ rfl)
                exact Int64.lt_of_lt_of_le passes (Int64.le_trans reading deadline)
              refine .inr ⟨?_, ?_⟩
              · dsimp only
                omega
              · exact Nat.le_of_eq (dueCount_scheduled after expiry.readings)

/-- A callback does not raise the variant once the clock has passed `now`. -/
theorem variant_invoke_le (monotone : ∀ first second, first ≤ second → clock first ≤ clock second)
    (passes : now < clock passed)
    (nonNegative : ∀ delay callback, .schedule delay callback ∈ actions → 0 ≤ delay)
    (done : invoke clock actions expiry = some next) :
    next.variant now passed ≤ expiry.variant now passed := by
  induction actions generalizing expiry with
  | nil =>
      cases done
      exact le_refl _
  | cons action actions ih =>
      rw [invoke, Option.bind_eq_some_iff] at done
      obtain ⟨middle, first, rest⟩ := done
      have head : middle.variant now passed ≤ expiry.variant now passed := by
        refine variant_act_le monotone passes ?_ first
        rintro delay callback rfl
        exact nonNegative delay callback List.mem_cons_self
      exact le_trans (ih (fun delay callback member =>
        nonNegative delay callback (List.mem_cons_of_mem _ member)) rest) head

/-- A due task is taken out. -/
theorem variant_taken_lt
    (taken : (TimerTask.priority Callback).extract expiry.queue.tasks = some (task, rest))
    (due : task.deadline ≤ now) (tasks : next.queue.tasks = rest)
    (readings : next.readings = expiry.readings) :
    next.variant now passed < expiry.variant now passed := by
  have same := ((TimerTask.priority Callback).extract_spec taken).1
  rw [variant, variant, Prod.Lex.toLex_lt_toLex, readings]
  refine .inr ⟨rfl, ?_⟩
  rw [dueCount, dueCount, tasks, same.countP_eq, List.countP_cons_of_pos (by simpa using due)]
  exact Nat.lt_succ_self _

/-- The loop ends when the clock passes the time of the Tick. -/
theorem ends_of_passes (monotone : ∀ first second, first ≤ second → clock first ≤ clock second)
    (passes : now < clock passed) (nonNegative : behaviour.NonNegative)
    (defined : Loop.Defined (round clock behaviour now) expiry) :
    Loop.Ends (round clock behaviour now) expiry := by
  refine Loop.ends_of_variant (fun _ => True) (variant now passed) ?_ trivial defined
  intro expiry next _ more
  refine ⟨trivial, ?_⟩
  cases continues_of_round more with
  | dropped taken due cancelled => exact variant_taken_lt taken due rfl rfl
  | skipped taken due live empty => exact variant_taken_lt taken due rfl rfl
  | invoked taken due live given done =>
      have called := variant_invoke_le monotone passes (nonNegative _ _) done
      exact lt_of_le_of_lt called (variant_taken_lt taken due rfl rfl)

/-! ## Nothing to run -/

/-- Every due task is cancelled, and no two tasks have one id. -/
structure Idle (now : TimePoint) (expiry : Expiry Callback) : Prop where
  cancelled : ∀ task ∈ expiry.queue.tasks, task.deadline ≤ now →
    task.id ∈ expiry.queue.cancelledTimers
  distinct : (expiry.queue.tasks.map TimerTask.id).Nodup

/-- The loop drops the due tasks and ends. -/
theorem ends_of_idle (idle : expiry.Idle now)
    (defined : Loop.Defined (round clock behaviour now) expiry) :
    Loop.Ends (round clock behaviour now) expiry := by
  refine Loop.ends_of_variant (Idle now) (fun expiry => expiry.queue.tasks.length) ?_ idle defined
  intro expiry next idle more
  have found : ∀ {task rest}, (TimerTask.priority Callback).extract expiry.queue.tasks =
      some (task, rest) → task ∈ expiry.queue.tasks := fun taken =>
    ((TimerTask.priority Callback).extract_spec taken).1.mem_iff.mpr List.mem_cons_self
  cases continues_of_round more with
  | @dropped task rest taken due cancelled =>
      have same := ((TimerTask.priority Callback).extract_spec taken).1
      have distinct := (same.map TimerTask.id).nodup_iff.mp idle.distinct
      rw [List.map_cons, List.nodup_cons] at distinct
      refine ⟨⟨fun other member late => ?_, distinct.2⟩, ?_⟩
      · have inside := idle.cancelled other (same.mem_iff.mpr (List.mem_cons_of_mem _ member)) late
        refine Finset.mem_erase.mpr ⟨?_, inside⟩
        intro equal
        rw [← equal] at distinct
        exact distinct.1 (List.mem_map_of_mem member)
      · dsimp only
        rw [same.length_eq, List.length_cons]
        exact Nat.lt_succ_self _
  | skipped taken due live empty => exact absurd (idle.cancelled _ (found taken) due) live
  | invoked taken due live given done => exact absurd (idle.cancelled _ (found taken) due) live

/-! ## A clock that does not -/

/-- Every invocation schedules its callback for at once, so many times and once more. -/
def again (marks : Nat) : Behaviour Callback := fun _ callback =>
  List.replicate (marks + 1) (.schedule 0 (some callback))

/-- This callback asks for no negative delay. -/
theorem again_nonNegative (marks : Nat) : (again marks : Behaviour Callback).NonNegative := by
  intro invocation callback delay later member
  cases List.eq_of_mem_replicate member
  exact Int64.le_refl 0

/-- A callback that schedules itself gets as many new ids, all of them due. -/
theorem invoke_again (stuck : ∀ reading, clock reading ≤ now) (callback : Callback) (count : Nat)
    (expiry : Expiry Callback) :
    ∃ next, invoke clock (List.replicate count (.schedule 0 (some callback))) expiry = some next ∧
      next.queue.cancelledTimers = expiry.queue.cancelledTimers ∧
      (∀ task ∈ expiry.queue.tasks, task ∈ next.queue.tasks) ∧
      ∀ id : Nat, expiry.queue.nextId ≤ id → id < expiry.queue.nextId + count →
        ∃ task ∈ next.queue.tasks,
          task.id = id ∧ task.deadline ≤ now ∧ task.callback = some callback := by
  induction count generalizing expiry with
  | zero =>
      refine ⟨expiry, rfl, rfl, fun _ member => member, fun id low high => ?_⟩
      exact absurd low (Nat.not_le.mpr high)
  | succ count ih =>
      obtain ⟨next, done, marks, kept, fresh⟩ := ih
        { expiry with
          queue := expiry.queue.scheduled (clock expiry.readings) 0 callback
          readings := expiry.readings + 1 }
      refine ⟨next, ?_, marks, fun task member => kept task (List.mem_cons_of_mem _ member), ?_⟩
      · rw [List.replicate_succ, invoke, act, if_neg (not_overflows_zero _)]
        exact done
      · intro id low high
        rcases Nat.eq_or_lt_of_le low with rfl | above
        · refine ⟨_, kept _ List.mem_cons_self, rfl, ?_, rfl⟩
          dsimp only
          rw [deadlineOf_zero]
          exact stuck _
        · refine fresh id above ?_
          have further : (expiry.queue.scheduled (clock expiry.readings) 0 callback).nextId =
            expiry.queue.nextId + 1 := rfl
          dsimp only
          rw [further]
          omega

/-- A due task is not cancelled, and there are few marks. -/
structure Alive (now : TimePoint) (marks : Nat) (expiry : Expiry Callback) : Prop where
  live : ∃ task ∈ expiry.queue.tasks, task.deadline ≤ now ∧
    task.id ∉ expiry.queue.cancelledTimers ∧ ∃ callback, task.callback = some callback
  few : expiry.queue.cancelledTimers.card ≤ marks

/-- Too few marks for so many ids. -/
theorem exists_unmarked {marks : Finset TimerId} {count : Nat} (few : marks.card < count)
    (first : Nat) :
    ∃ id : Nat, first ≤ id ∧ id < first + count ∧ id ∉ marks := by
  by_contra all
  have inside : Finset.Ico first (first + count) ⊆ marks := by
    intro id member
    obtain ⟨low, high⟩ := Finset.mem_Ico.mp member
    by_contra unmarked
    exact all ⟨id, low, high, unmarked⟩
  have size := Finset.card_le_card inside
  rw [Nat.card_Ico, Nat.add_sub_cancel_left] at size
  exact Nat.not_le.mpr few size

/-- Where a task is due, the task that is taken is due. -/
theorem exists_taken_due (member : task ∈ expiry.queue.tasks) (due : task.deadline ≤ now) :
    ∃ first rest, (TimerTask.priority Callback).extract expiry.queue.tasks = some (first, rest) ∧
      first.deadline ≤ now := by
  cases taken : (TimerTask.priority Callback).extract expiry.queue.tasks with
  | none =>
      rw [Priority.extract_eq_none_iff] at taken
      rw [taken] at member
      cases member
  | some found =>
      refine ⟨found.1, found.2, rfl, ?_⟩
      by_contra later
      have nothing := TimerQueue.nothingDue_of_extract taken (Int64.not_le.mp later)
      exact absurd due (Int64.not_le.mpr (nothing task member))

/-- A live task that is not taken stays live. -/
theorem Alive.left {first : TimerTask Callback} {marks : Nat} (alive : expiry.Alive now marks)
    (taken : (TimerTask.priority Callback).extract expiry.queue.tasks = some (first, rest))
    (dead : first.id ∈ expiry.queue.cancelledTimers ∨ first.callback = none)
    (tasks : next.queue.tasks = rest)
    (fewer : next.queue.cancelledTimers ⊆ expiry.queue.cancelledTimers) :
    next.Alive now marks := by
  obtain ⟨⟨task, member, due, unmarked, callback, given⟩, few⟩ := alive
  have same := ((TimerTask.priority Callback).extract_spec taken).1
  refine ⟨⟨task, ?_, due, fun inside => unmarked (fewer inside), callback, given⟩, ?_⟩
  · rw [tasks]
    rcases List.mem_cons.mp (same.mem_iff.mp member) with rfl | left
    · rcases dead with cancelled | empty
      · exact absurd cancelled unmarked
      · rw [given] at empty
        cases empty
    · exact left
  · exact Nat.le_trans (Finset.card_le_card fewer) few

/-- The callback of a live task is run, and leaves a live task. -/
theorem alive_again {marks : Nat} (stuck : ∀ reading, clock reading ≤ now)
    (alive : expiry.Alive now marks) :
    ∃ next, round clock (again marks) now expiry = .again next ∧ next.Alive now marks := by
  obtain ⟨task, member, taskDue, -⟩ := alive.live
  obtain ⟨first, rest, taken, due⟩ := exists_taken_due member taskDue
  by_cases cancelled : first.id ∈ expiry.queue.cancelledTimers
  · exact ⟨_, round_of_cancelled taken due cancelled,
      alive.left taken (.inl cancelled) rfl (Finset.erase_subset _ _)⟩
  cases given : first.callback with
  | none =>
      exact ⟨_, round_of_empty taken due cancelled given,
        alive.left taken (.inr given) rfl (Finset.Subset.refl _)⟩
  | some callback =>
      obtain ⟨next, done, marksSame, -, fresh⟩ := invoke_again stuck callback (marks + 1)
        { expiry with
          queue := { expiry.queue with tasks := rest }
          invocations := expiry.invocations + 1 }
      have continued : round clock (again marks) now expiry = _ :=
        round_of_live taken due cancelled given
      rw [again, done] at continued
      -- There are more new ids than marks.
      obtain ⟨id, low, high, free⟩ :=
        exists_unmarked (Nat.lt_succ_of_le alive.few) expiry.queue.nextId
      obtain ⟨task, inside, rfl, taskDue, given⟩ := fresh id low high
      refine ⟨next, continued, ⟨task, inside, taskDue, ?_, callback, given⟩, ?_⟩
      · rw [marksSame]
        exact free
      · rw [marksSame]
        exact alive.few

end Expiry

/-! ## When Tick ends -/

variable {Callback : Type} {events : List (Event Callback)} {queue : TimerQueue Callback}
  {clock : Nat → TimePoint} {now : TimePoint}

/-- Tick ends whatever the callbacks do, as long as they schedule no timer with a
negative delay and the deadlines stay within 64 bits. -/
def TickEnds (queue : TimerQueue Callback) (clock : Nat → TimePoint) (now : TimePoint) : Prop :=
  ∀ behaviour : Behaviour Callback, behaviour.NonNegative →
    Loop.Defined (Expiry.round clock behaviour now) (Expiry.started queue) →
    Loop.Ends (Expiry.round clock behaviour now) (Expiry.started queue)

/-- The heap has no two tasks with one id. -/
theorem ids_distinct (run : TimerQueue.Reached events queue) :
    (queue.tasks.map TimerTask.id).Nodup := by
  have consistent := consistent_of_runs run
  refine List.Nodup.map_on ?_ consistent.registered.distinct
  intro first member second memberToo same
  have pushed := ((consistent.registered.tasks first).mp member).1
  have pushedToo := ((consistent.registered.tasks second).mp memberToo).1
  exact Pushed.unique consistent.explained pushed pushedToo same

/-- Schedule takes no task without a callback. -/
theorem callback_given (run : TimerQueue.Reached events queue) {task : TimerTask Callback}
    (member : task ∈ queue.tasks) : ∃ callback, task.callback = some callback := by
  have consistent := consistent_of_runs run
  obtain ⟨thread, pushed⟩ := ((consistent.registered.tasks task).mp member).1
  exact Option.isSome_iff_exists.mp (pushed_explained consistent.explained pushed).2.2

/-- With a clock that never passes the time of the Tick, a task that is due and not
cancelled is enough for callbacks to keep the loop going. -/
theorem not_tickEnds_of_stuck (stuck : ∀ reading, clock reading ≤ now) {task : TimerTask Callback}
    (member : task ∈ queue.tasks) (due : task.deadline ≤ now)
    (live : task.id ∉ queue.cancelledTimers) (given : ∃ callback, task.callback = some callback) :
    ¬ TickEnds queue clock now := by
  intro ends
  have alive : (Expiry.started queue).Alive now queue.cancelledTimers.card :=
    ⟨⟨task, member, due, live, given⟩, Nat.le_refl _⟩
  obtain ⟨defined, goesOn⟩ := Loop.defined_and_not_ends
    (Expiry.Alive now queue.cancelledTimers.card) (Expiry.alive_again stuck) alive
  exact goesOn (ends _ (Expiry.again_nonNegative _) defined)

/-- Tick ends, whatever the callbacks do, if and only if it finds nothing to run or the
clock passes the time that it was called with. -/
theorem tick_ends_iff (run : TimerQueue.Reached events queue)
    (monotone : ∀ first second, first ≤ second → clock first ≤ clock second) (now : TimePoint) :
    TickEnds queue clock now ↔
      (∀ task ∈ queue.tasks, task.deadline ≤ now → task.id ∈ queue.cancelledTimers) ∨
        ∃ reading, now < clock reading := by
  constructor
  · intro ends
    by_contra neither
    rw [not_or] at neither
    obtain ⟨live, never⟩ := neither
    have stuck : ∀ reading, clock reading ≤ now := fun reading =>
      Int64.not_lt.mp fun passes => never ⟨reading, passes⟩
    push Not at live
    obtain ⟨task, member, due, unmarked⟩ := live
    exact not_tickEnds_of_stuck stuck member due unmarked (callback_given run member) ends
  · rintro (cancelled | ⟨reading, passes⟩) behaviour nonNegative defined
    · exact Expiry.ends_of_idle ⟨cancelled, ids_distinct run⟩ defined
    · exact Expiry.ends_of_passes monotone passes nonNegative defined

/-- One timer, due at once. -/
def oneDue : TimerQueue Unit := TimerQueue.constructed.scheduled 10 0 ()

/-- The queue with one due timer can be reached. -/
theorem oneDue_reached : ∃ events, TimerQueue.Reached events oneDue := by
  have may : (TimerQueue.constructed : TimerQueue Unit).mayCall runtime = true := by
    decide
  obtain ⟨events, run, -⟩ := TimerQueue.run_scheduled rfl may 10 0 ()
  exact ⟨events, run⟩

/-- Whatever the callbacks do, the fifth timer that they schedule comes too late. -/
theorem tick_ends_after_five : TickEnds oneDue (fun reading => if reading < 5 then 10 else 11) 10 := by
  obtain ⟨events, run⟩ := oneDue_reached
  refine (tick_ends_iff run ?_ 10).mpr (.inr ⟨5, by decide⟩)
  intro first second order
  split
  · split
    · exact Int64.le_refl _
    · decide
  · rw [if_neg (by omega)]
    exact Int64.le_refl _

/-- A clock that stands still, and a callback that schedules itself for at once. -/
theorem reschedule_never_ends :
    (∃ events, TimerQueue.Reached events oneDue) ∧
    Behaviour.NonNegative (fun _ callback => [.schedule 0 (some callback)] : Behaviour Unit) ∧
    Loop.Defined
      (Expiry.round (fun _ => 10) (fun _ callback => [.schedule 0 (some callback)]) 10)
      (Expiry.started oneDue) ∧
    ¬ Loop.Ends
      (Expiry.round (fun _ => 10) (fun _ callback => [.schedule 0 (some callback)]) 10)
      (Expiry.started oneDue) := by
  have alive : (Expiry.started oneDue).Alive 10 0 := by
    refine ⟨⟨_, List.mem_cons_self, ?_, ?_, (), rfl⟩, Nat.le_refl 0⟩
    · decide
    · decide
  have goes := Loop.defined_and_not_ends (Expiry.Alive 10 0)
    (Expiry.alive_again fun _ => Int64.le_refl 10) alive
  exact ⟨oneDue_reached, Expiry.again_nonNegative 0, goes⟩

end MmoServer.Timer
