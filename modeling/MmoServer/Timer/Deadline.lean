import MmoServer.Timer.Termination

/-!
# Deadlines that wrap around

Schedule adds the delay in nanoseconds to the clock, both in 64 signed bits. Where the
exact sum is representable the task carries it as its deadline, and its callback runs in
no earlier Tick; where it is not, the deadline that is stored is another one. What 64
bits do there is what the machine does; the standard leaves it undefined.
-/

namespace MmoServer.Timer

open MmoServer.Semantics MmoServer.Std TimerQueue

/-- `c + delay` in nanoseconds, as an integer. -/
def dueTime (reading : TimePoint) (delay : Duration) : Int :=
  reading.toInt + delay.toInt * 1000000

/-- The integer is a count of 64 signed bits. -/
def Representable (nanoseconds : Int) : Prop := -2 ^ 63 ≤ nanoseconds ∧ nanoseconds < 2 ^ 63

/-- The delay in nanoseconds is the exact one. -/
def ConvertsExactly (delay : Duration) : Prop :=
  (delay * 1000000).toInt = delay.toInt * 1000000

/-- In every run, the task of a call with this delay and this reading of the clock carries
the exact deadline, and its callback is entered in no Tick of an earlier time. -/
def OnTime (Callback : Type) (reading : TimePoint) (delay : Duration) : Prop :=
  ∀ (before : List (Event Callback)) queue thread id callback next after final,
    Reached before queue →
    queue.calls thread = some (.readClock id delay callback) →
    (system Callback).step queue (.advance thread reading) =
      some (next, .readClock thread reading) →
    (system Callback).Runs next after final →
    (∀ task, Pushed after task → task.id = id → task.deadline.toInt = dueTime reading delay) ∧
    ∀ front task rest now, after = front ++ .entered task :: rest → task.id = id →
      tickOf (before ++ [.readClock thread reading] ++ front) = some now →
      dueTime reading delay ≤ now.toInt

variable {Callback : Type} {reading : TimePoint} {delay : Duration}

/-! ## The arithmetic -/

/-- What is stored is the exact sum, reduced to 64 signed bits. -/
theorem toInt_deadlineOf_eq_bmod (reading : TimePoint) (delay : Duration) :
    (deadlineOf reading delay).toInt = (dueTime reading delay).bmod (2 ^ 64) := by
  have factor : (1000000 : Int64).toInt = 1000000 := by
    decide
  rw [deadlineOf, Int64.toInt_add, Int64.toInt_mul, factor, Int.add_bmod_bmod, dueTime]

/-- The stored deadline is the due time exactly when that is a number of 64 bits. -/
theorem deadline_exactly_iff :
    (deadlineOf reading delay).toInt = dueTime reading delay ↔
      Representable (dueTime reading delay) := by
  constructor
  · intro exactly
    rw [Representable, ← exactly]
    exact ⟨Int64.le_toInt _, Int64.toInt_lt _⟩
  · rintro ⟨low, high⟩
    rw [toInt_deadlineOf_eq_bmod]
    exact Int.bmod_eq_of_le (by omega) (by omega)

/-- The delay in nanoseconds is exact when it is a number of 64 bits. -/
theorem convertsExactly_iff : ConvertsExactly delay ↔ Representable (delay.toInt * 1000000) := by
  have fromZero : dueTime 0 delay = delay.toInt * 1000000 := by
    rw [dueTime, Int64.toInt_zero, Int.zero_add]
  have same : deadlineOf 0 delay = delay * 1000000 := by
    rw [deadlineOf, Int64.zero_add]
  rw [ConvertsExactly, ← fromZero, ← deadline_exactly_iff, same]

/-- Neither of the two operations overflows. -/
theorem not_overflows_iff : ¬ Overflows reading delay ↔
    Representable (delay.toInt * 1000000) ∧ Representable (dueTime reading delay) := not_not

/-! ## The deadline on its way into the queue -/

/-- A thread in Schedule that has the id has the deadline with it. -/
def ScheduleState.Keeps (id : TimerId) (deadline : TimePoint) : ScheduleState Callback → Prop
  | .takeId _ _ => True
  | .readClock other _ _ => other ≠ id
  | .takeSequence other time _ => other = id → time = deadline
  | .push task => task.id = id → task.deadline = deadline

/-- The id is issued, and wherever it goes the deadline goes with it. -/
structure Stored (id : TimerId) (deadline : TimePoint) (events : List (Event Callback))
    (queue : TimerQueue Callback) : Prop where
  issued : id < queue.nextId
  calls : ∀ thread state, queue.calls thread = some state → state.Keeps id deadline
  pushed : ∀ task, Pushed events task → task.id = id → task.deadline = deadline

variable {events before after : List (Event Callback)} {event : Event Callback}
  {queue next final : TimerQueue Callback} {task : TimerTask Callback} {thread : ThreadIndex}
  {id : TimerId} {deadline : TimePoint} {callback : Callback}

theorem TimerQueue.calls_setCall {state : Option (ScheduleState Callback)} :
    (queue.setCall thread state).calls = Function.update queue.calls thread state := rfl

/-- What pushes nothing leaves the pushed tasks. -/
theorem pushed_concat_of_quiet (quiet : event.pushes = false) :
    Pushed (events ++ [event]) task ↔ Pushed events task :=
  exists_congr fun _ => mem_concat_iff_of_kind Event.pushes rfl quiet

/-- What does not touch the call keeps its deadline stored. -/
theorem Stored.keep (stored : Stored id deadline events queue) (quiet : event.pushes = false)
    (ids : next.nextId = queue.nextId) (calls : next.calls = queue.calls) :
    Stored id deadline (events ++ [event]) next := by
  refine ⟨ids ▸ stored.issued, calls ▸ stored.calls, fun task pushed => ?_⟩
  exact stored.pushed task ((pushed_concat_of_quiet quiet).mp pushed)

/-- One thread moves on in Schedule to a state that has the deadline too. -/
theorem Stored.move (stored : Stored id deadline events queue) {state : Option (ScheduleState Callback)}
    (ids : queue.nextId ≤ next.nextId) (calls : next.calls = Function.update queue.calls thread state)
    (mine : ∀ later, state = some later → later.Keeps id deadline)
    (pushes : ∀ task, Pushed (events ++ [event]) task → Pushed events task ∨
      (task.id = id → task.deadline = deadline)) :
    Stored id deadline (events ++ [event]) next := by
  refine ⟨Nat.lt_of_lt_of_le stored.issued ids, ?_, ?_⟩
  · intro other later here
    rw [calls] at here
    by_cases same : other = thread
    · subst same
      rw [Function.update_self] at here
      exact mine later here
    · rw [Function.update_of_ne same] at here
      exact stored.calls other later here
  · intro task pushed
    rcases pushes task pushed with earlier | mine
    · exact stored.pushed task earlier
    · exact mine

/-- Every step keeps the deadline stored. -/
theorem Stored.step (stored : Stored id deadline events queue)
    (moved : TimerQueue.Step queue next event) : Stored id deadline (events ++ [event]) next := by
  cases moved with
  | called =>
      refine stored.move (Nat.le_refl _) rfl ?_ fun task pushed =>
        .inl ((pushed_concat_of_quiet rfl).mp pushed)
      rintro later ⟨⟩
      trivial
  | issued =>
      refine stored.move (Nat.le_succ _) rfl ?_ fun task pushed =>
        .inl ((pushed_concat_of_quiet rfl).mp pushed)
      rintro later ⟨⟩
      exact Nat.ne_of_gt stored.issued
  | readClock here =>
      have other := stored.calls _ _ here
      refine stored.move (Nat.le_refl _) rfl ?_ fun task pushed =>
        .inl ((pushed_concat_of_quiet rfl).mp pushed)
      rintro later ⟨⟩
      exact fun same => absurd same other
  | sequenced here =>
      have carries := stored.calls _ _ here
      refine stored.move (Nat.le_refl _) rfl ?_ fun task pushed =>
        .inl ((pushed_concat_of_quiet rfl).mp pushed)
      rintro later ⟨⟩
      exact carries
  | pushed here =>
      have carries := stored.calls _ _ here
      refine stored.move (Nat.le_refl _) rfl (by rintro later ⟨⟩) fun task pushed => ?_
      rcases pushed_concat_iff.mp pushed with earlier | ⟨other, same⟩
      · exact .inl earlier
      · cases same
        exact .inr carries
  | _ => exact stored.keep rfl rfl rfl

/-- The step that reads the clock starts it. -/
theorem stored_of_readClock (reached : Reached before queue)
    (here : queue.calls thread = some (.readClock id delay callback)) :
    Stored id (deadlineOf reading delay) (before ++ [.readClock thread reading])
      (queue.setCall thread (some (.takeSequence id (deadlineOf reading delay) callback))) := by
  obtain ⟨registered, -, explained⟩ := consistent_of_runs reached
  obtain ⟨issued, unpushed⟩ := registered.calls _ _ here
  -- The id was issued to one thread, so no other has it.
  have alone : ∀ other, other ≠ thread → ∀ second, .issued other second ∈ before → second ≠ id := by
    rintro other different second issuedToo rfl
    exact different (issued_unique explained issuedToo issued)
  refine ⟨?_, ?_, ?_⟩
  · have below := (issues_numbered.bounds explained issued rfl).2
    exact Nat.lt_of_lt_of_eq below registered.nextId.symm
  · intro other state there
    rw [calls_setCall] at there
    by_cases same : other = thread
    · subst same
      rw [Function.update_self] at there
      cases there
      exact fun _ => rfl
    · rw [Function.update_of_ne same] at there
      have follows := registered.calls other state there
      cases state with
      | takeId => trivial
      | readClock second => exact alone other same second follows.1
      | takeSequence second =>
          exact fun equal => absurd equal (alone other same second follows.1)
      | push task => exact fun equal => absurd equal (alone other same task.id follows.1)
  · intro task pushed equal
    exact absurd equal (unpushed task ((pushed_concat_of_quiet rfl).mp pushed))

/-- The deadline stays stored along every run. -/
theorem stored_of_runs (stored : Stored id deadline before queue)
    (run : (system Callback).Runs queue after final) :
    Stored id deadline (before ++ after) final := by
  apply run.invariant fun after final => Stored id deadline (before ++ after) final
  · rw [List.append_nil]
    exact stored
  · intro after queue choice next event _ stored transition _
    rw [← List.append_assoc]
    exact stored.step (step_sound transition)

/-! ## Every run -/

/-- A task that carries the exact deadline is on time. -/
theorem onTime_of_representable (fits : Representable (dueTime reading delay)) :
    OnTime Callback reading delay := by
  intro before queue thread id callback next after final reached here transition run
  have step : (system Callback).step queue (.advance thread reading) =
      some (queue.setCall thread (some (.takeSequence id (deadlineOf reading delay) callback)),
        .readClock thread reading) := by
    change (queue.calls thread).map _ = _
    rw [here]
    rfl
  obtain rfl := (Prod.mk.inj (Option.some.inj (step.symm.trans transition))).1
  have stored := stored_of_runs (@stored_of_readClock _ reading _ _ _ _ _ _ reached here) run
  have exactly := deadline_exactly_iff.mpr fits
  refine ⟨fun task pushed same => ?_, fun front task rest now split same current => ?_⟩
  · obtain ⟨pusher, member⟩ := pushed
    rw [stored.pushed task ⟨pusher, List.mem_append_right _ member⟩ same]
    exact exactly
  · have whole : Reached (before ++ [.readClock thread reading] ++ after) final :=
      .trans (.step reached transition trivial) run
    have explained := (consistent_of_runs whole).explained
    have entered : .entered task ∈ before ++ [.readClock thread reading] ++ after := by
      rw [split]
      simp
    have pushed := popped_explained explained
      (checked_explained explained (.inr (entered_explained explained entered)))
    rw [split, ← List.append_assoc] at explained
    obtain ⟨-, -, time, ticked, due⟩ := explained _ _ _ rfl
    obtain rfl := Option.some.inj (ticked.symm.trans current)
    rw [Int64.le_iff_toInt_le, stored.pushed task pushed same, exactly] at due
    exact due

/-- A new queue in which a thread is about to read the clock for its first timer. -/
def atClock (delay : Duration) (callback : Callback) : TimerQueue Callback :=
  { (constructed : TimerQueue Callback) with nextId := 2 }.setCall 1
    (some (.readClock 1 delay callback))

/-- A thread in its first Schedule, before it reads the clock. -/
theorem atClock_reached (delay : Duration) (callback : Callback) :
    Reached [.called 1 delay, .issued 1 1] (atClock delay callback) := by
  have called : (system Callback).step constructed
      (.schedule 1 delay (some callback)) =
        some (constructed.setCall 1 (some (.takeId delay callback)), .called 1 delay) := rfl
  have issued : (system Callback).step
      (constructed.setCall 1 (some (.takeId delay callback))) (.advance 1 0) =
        some (atClock delay callback, .issued 1 1) := by
    simp [system, step, setCall, scheduleStep, atClock, constructed]
  exact .step (.step .refl called trivial) issued trivial

/-- The queue after the clock has been read. -/
def afterClock (reading : TimePoint) (delay : Duration) (callback : Callback) :
    TimerQueue Callback :=
  (atClock delay callback).setCall 1 (some (.takeSequence 1 (deadlineOf reading delay) callback))

/-- It reads the clock. -/
theorem atClock_read (reading : TimePoint) (delay : Duration) (callback : Callback) :
    (system Callback).step (atClock delay callback) (.advance 1 reading) =
      some (afterClock reading delay callback, .readClock 1 reading) := rfl

/-- The task that the first Schedule pushes. -/
def firstTask (reading : TimePoint) (delay : Duration) (callback : Callback) : TimerTask Callback :=
  { id := 1, deadline := deadlineOf reading delay, sequence := 0, callback := some callback
    state := .scheduled }

/-- It pushes the task with that deadline. -/
theorem firstTask_pushed (reading : TimePoint) (delay : Duration) (callback : Callback) :
    ∃ final, (system Callback).Runs (afterClock reading delay callback)
        [.sequenced 1 1 0, .pushed 1 (firstTask reading delay callback)] final ∧
      final.tasks = [firstTask reading delay callback] ∧ final.tick = none ∧
      final.calls runtime = none ∧ final.cancelledTimers = ∅ := by
  have sequenced : (system Callback).step (afterClock reading delay callback) (.advance 1 reading) =
      some ({ afterClock reading delay callback with nextSequence := 1 }.setCall 1
        (some (.push (firstTask reading delay callback))), .sequenced 1 1 0) := rfl
  have pushed : (system Callback).step
      ({ afterClock reading delay callback with nextSequence := 1 }.setCall 1
        (some (.push (firstTask reading delay callback)))) (.advance 1 reading) =
      some (_, .pushed 1 (firstTask reading delay callback)) := rfl
  exact ⟨_, .step (.step .refl sequenced trivial) pushed trivial, rfl, rfl, rfl, rfl⟩

/-- The first timer of a new queue shows what is stored. -/
theorem representable_of_onTime (callback : Callback) (onTime : OnTime Callback reading delay) :
    Representable (dueTime reading delay) := by
  obtain ⟨final, run, -⟩ := firstTask_pushed reading delay callback
  have carried := (onTime _ _ 1 1 callback _ _ final (atClock_reached delay callback) rfl
    (atClock_read reading delay callback) run).1
  exact deadline_exactly_iff.mp (carried (firstTask reading delay callback)
    ⟨1, List.mem_cons_of_mem _ List.mem_cons_self⟩ rfl)

/-- A timer carries the exact deadline, and so never fires early, exactly when the sum of
the clock and the delay is a time point; and nothing on the way to it overflows exactly
when the delay in nanoseconds is one too. -/
theorem timer_on_time_iff (callback : Callback) (reading : TimePoint) (delay : Duration) :
    (OnTime Callback reading delay ↔ Representable (dueTime reading delay)) ∧
      (ConvertsExactly delay ∧ OnTime Callback reading delay ↔ ¬ Overflows reading delay) := by
  have onTime : OnTime Callback reading delay ↔ Representable (dueTime reading delay) :=
    ⟨representable_of_onTime callback, onTime_of_representable⟩
  refine ⟨onTime, ?_⟩
  rw [onTime, convertsExactly_iff, not_overflows_iff]

/-- A timer in 292 years, set at clock 0, is entered in a Tick at clock 0. -/
theorem far_timer_fires_at_once : ¬ ∀ (reading : TimePoint) (delay : Duration),
    OnTime Unit reading delay := by
  intro claim
  obtain ⟨queue, run, tasks, idle, free, unmarked⟩ := firstTask_pushed 0 9223372036855 ()
  have ticked : (system Unit).step queue (.tick 0) =
      some ({ queue with tick := some (.pop 0) }, .ticked 0) := by
    simp [system, step, free, idle]
  have taken : (TimerTask.priority Unit).extract queue.tasks =
      some (firstTask 0 9223372036855 (), []) := by
    rw [tasks]
    rfl
  have due : (firstTask 0 9223372036855 ()).deadline ≤ 0 := by
    decide
  have unmarkedTask : (firstTask 0 9223372036855 ()).id ∉ queue.cancelledTimers := by
    rw [unmarked]
    exact Finset.notMem_empty _
  have fired := ((((run.trans (.step .refl ticked trivial)).trans (run_popped free taken due)).trans
    (run_passed free unmarkedTask)).trans (run_entered free rfl))
  have early := (claim 0 9223372036855 _ _ 1 1 () _ _ _ (atClock_reached _ _) rfl
    (atClock_read _ _ _) fired).2
  have late := early [.sequenced 1 1 0, .pushed 1 (firstTask 0 9223372036855 ()), .ticked 0,
    .popped (firstTask 0 9223372036855 ()), .passed (firstTask 0 9223372036855 ())] _ [] 0 rfl rfl rfl
  exact absurd late (by decide)

end MmoServer.Timer
