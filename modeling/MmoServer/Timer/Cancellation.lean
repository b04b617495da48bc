import MmoServer.Timer.Dispatch

/-!
# What Cancel does

`cancelledTimers_` is looked up once for every task, right after it is popped. A
Cancel that comes after the look and before the callback returns true and does not
stop it; `cancelled_never_runs` says that nothing else goes wrong. Cancel does not
look into `tasks_`, so it also marks ids that no pending task has; `cancel_exact_iff`
says that the set names pending tasks exactly as long as every Cancel does.
-/

namespace MmoServer.Timer

open MmoServer.Semantics MmoServer.Std

namespace TimerQueue

variable {Callback : Type}

/-- No Cancel names the task whose callback is about to be entered. -/
def clearOfEntry (queue : TimerQueue Callback) (event : Event Callback) : Bool :=
  match event, queue.tick with
  | .cancelled _ id _, some (.enter _ task) => task.id != id
  | _, _ => true

/-- A callback is entered only if no Cancel of its timer has returned true before. -/
def CancelledNeverRun (events : List (Event Callback)) : Prop :=
  ∀ before after task, events = before ++ .entered task :: after →
    ∀ thread, .cancelled thread task.id true ∉ before

/-- The runtime thread is between the pop of a task and its look into `cancelledTimers_`. -/
def checking (queue : TimerQueue Callback) : Bool :=
  match queue.tick with
  | some (.check _ _) => true
  | _ => false

/-- A task with the id is in `tasks_`. -/
def HasTask (queue : TimerQueue Callback) (id : TimerId) : Prop :=
  ∃ task ∈ queue.tasks, task.id = id

/-- The cancellation set only names pending timers. -/
structure MarksPending (queue : TimerQueue Callback) : Prop where
  pending : ∀ id ∈ queue.cancelledTimers, queue.HasTask id
  bounded : queue.cancelledTimers.card ≤ queue.tasks.length
  fresh : ∀ id ∈ queue.cancelledTimers, id < queue.nextId

/-- In every state of a run the set only names pending timers, and Cancel returns
true exactly for a pending timer that is not cancelled. -/
structure CancelsPending (events : List (Event Callback)) : Prop where
  marks : ∀ before after queue, events = before ++ after → Reached before queue →
    queue.checking = false → queue.MarksPending
  results : ∀ before after thread id result queue,
    events = before ++ .cancelled thread id result :: after → Reached before queue →
    (result = true ↔ queue.HasTask id ∧ id ∉ queue.cancelledTimers)

/-- Every Cancel of a run names a pending timer. -/
def NamesPending (events : List (Event Callback)) : Prop :=
  ∀ before after thread id result queue,
    events = before ++ .cancelled thread id result :: after → Reached before queue →
    queue.HasTask id

end TimerQueue

/-- The choices of one thread that calls Schedule, Cancel and Tick. -/
def Choice.sequential {Callback : Type} : Choice Callback → Bool
  | .schedule thread _ _ | .advance thread _ | .cancel thread _ => thread == runtime
  | .tick _ | .dispatch => true

namespace TimerQueue

variable {Callback : Type} {events before after : List (Event Callback)} {event : Event Callback}
  {queue next : TimerQueue Callback} {task : TimerTask Callback} {id : TimerId}

/-! ## Cancelled timers -/

/-- What Cancel has returned true for stays marked until it is checked, and is not
what the runtime thread is about to run. -/
structure Guarded (events : List (Event Callback)) (queue : TimerQueue Callback) : Prop where
  marked : ∀ thread id, .cancelled thread id true ∈ events →
    id ∈ queue.cancelledTimers ∨ ∃ task, Checked events task ∧ task.id = id
  ahead : ∀ now task, queue.tick = some (.enter now task) →
    ∀ thread, .cancelled thread task.id true ∉ events
  never : CancelledNeverRun events

/-- Events other than an entry keep what is never run. -/
theorem CancelledNeverRun.concat (never : CancelledNeverRun events)
    (last : ∀ task, event = .entered task → ∀ thread, .cancelled thread task.id true ∉ events) :
    CancelledNeverRun (events ++ [event]) := by
  have explained : Explained (fun before event => ∀ task, event = .entered task →
      ∀ thread, .cancelled thread task.id true ∉ before) (events ++ [event]) := by
    refine explained_concat.mpr ⟨?_, last⟩
    rintro before event after split task rfl
    exact never before after task split
  intro before after task split
  exact explained before _ after split task rfl

section Guarded

variable (guarded : Guarded events queue)
include guarded

/-- What is marked stays so while no id leaves the set. -/
theorem Guarded.marked_concat (grows : queue.cancelledTimers ⊆ next.cancelledTimers)
    (last : ∀ thread id, event = .cancelled thread id true → id ∈ next.cancelledTimers) :
    ∀ thread id, .cancelled thread id true ∈ events ++ [event] →
      id ∈ next.cancelledTimers ∨ ∃ task, Checked (events ++ [event]) task ∧ task.id = id := by
  intro thread id cancelled
  rcases List.mem_append.mp cancelled with before | now
  · rcases guarded.marked thread id before with inside | ⟨task, checked, same⟩
    · exact .inl (grows inside)
    · exact .inr ⟨task, checked.concat, same⟩
  · exact .inl (last thread id (List.mem_singleton.mp now).symm)

/-- The task that is about to be run is not cancelled by a step that is clear of it. -/
theorem Guarded.ahead_concat (tick : next.tick = queue.tick) (clear : queue.clearOfEntry event = true) :
    ∀ now task, next.tick = some (.enter now task) →
      ∀ thread, .cancelled thread task.id true ∉ events ++ [event] := by
  intro now task here thread cancelled
  rw [tick] at here
  rcases List.mem_append.mp cancelled with before | last
  · exact guarded.ahead now task here thread before
  · obtain rfl := List.mem_singleton.mp last
    simp [clearOfEntry, here] at clear

/-- A step that changes neither the set nor the Tick. -/
theorem Guarded.keep (clear : queue.clearOfEntry event = true) (tick : next.tick = queue.tick)
    (same : next.cancelledTimers = queue.cancelledTimers)
    (quiet : ∀ thread id, event ≠ .cancelled thread id true)
    (outside : ∀ task, event ≠ .entered task) : Guarded (events ++ [event]) next :=
  ⟨guarded.marked_concat (same ▸ Finset.Subset.refl _) fun thread id shown =>
      absurd shown (quiet thread id),
    guarded.ahead_concat tick clear, guarded.never.concat fun task shown => absurd shown (outside task)⟩

/-- A step of Tick that does not bring it in front of a callback. -/
theorem Guarded.move (tick : ∀ now task, next.tick ≠ some (.enter now task))
    (same : next.cancelledTimers = queue.cancelledTimers)
    (quiet : ∀ thread id, event ≠ .cancelled thread id true)
    (never : CancelledNeverRun (events ++ [event])) : Guarded (events ++ [event]) next :=
  ⟨guarded.marked_concat (same ▸ Finset.Subset.refl _) fun thread id shown =>
      absurd shown (quiet thread id),
    fun now task here => absurd here (tick now task), never⟩

theorem Guarded.step (consistent : Consistent events queue) (moved : Step queue next event)
    (clear : queue.clearOfEntry event = true) : Guarded (events ++ [event]) next := by
  obtain ⟨marked, ahead, never⟩ := guarded
  have guarded : Guarded events queue := ⟨marked, ahead, never⟩
  cases moved with
  | refused | called | issued | readClock | sequenced | pushed =>
      exact guarded.keep clear rfl rfl nofun nofun
  | ticked | returned | popped | skipped | left =>
      exact guarded.move nofun rfl nofun (never.concat nofun)
  | @cancelled thread id may =>
      refine ⟨guarded.marked_concat (Finset.subset_insert _ _) ?_, guarded.ahead_concat rfl clear,
        never.concat nofun⟩
      intro other named shown
      cases (Event.cancelled.inj shown).2.1
      exact Finset.mem_insert_self _ _
  | @dropped now task here found =>
      refine ⟨?_, nofun, never.concat nofun⟩
      intro thread id cancelled
      have before : .cancelled thread id true ∈ events := by simpa using cancelled
      rcases marked thread id before with inside | ⟨other, checked, same⟩
      · by_cases same : task.id = id
        · exact .inr ⟨task, .inl (by simp), same⟩
        · exact .inl (Finset.mem_erase.mpr ⟨Ne.symm same, inside⟩)
      · exact .inr ⟨other, checked.concat, same⟩
  | @passed now task here unmarked =>
      refine ⟨guarded.marked_concat (Finset.Subset.refl _) nofun, ?_, never.concat nofun⟩
      intro later other entered thread cancelled
      cases entered
      have before : .cancelled thread task.id true ∈ events := by simpa using cancelled
      obtain ⟨_, popped, unchecked⟩ := consistent.dispatching.follows _ here
      have explained := consistent.explained
      rcases marked thread task.id before with inside | ⟨other, checked, same⟩
      · exact unmarked inside
      · have pushed := popped_explained explained (checked_explained explained checked)
        obtain rfl := Pushed.unique explained pushed (popped_explained explained popped) same
        exact unchecked checked
  | @entered now task callback here given =>
      refine guarded.move nofun rfl nofun (never.concat ?_)
      intro other shown thread
      cases shown
      exact ahead now task here thread

end Guarded

/-- In every run in which no Cancel names a task between its look-up and its
callback, a timer is not run once a Cancel of it has returned true. -/
theorem cancelled_never_runs (events : List (Event Callback)) (queue : TimerQueue Callback)
    (run : (system Callback).RunsUnder (fun _ queue _ event => queue.clearOfEntry event)
      constructed events queue) : CancelledNeverRun events := by
  have guarded : Guarded events queue := by
    apply run.invariant Guarded
    · refine ⟨nofun, nofun, ?_⟩
      intro before after task split
      simp at split
    · intro events queue choice next event prior guarded transition clear
      exact guarded.step (consistent_of_runs prior.runs) (step_sound transition) clear
  exact guarded.never

/-- Of two timers the first is cancelled between its pop and its look-up, and the
second is run. -/
theorem cancelled_timer_stays_away : ∃ events queue,
    (system Unit).RunsUnder (fun _ queue _ event => queue.clearOfEntry event)
      constructed events queue ∧ CancelledNeverRun events ∧ .cancelled 1 1 true ∈ events ∧
      tally (Event.enters 1) events = 0 ∧ tally (Event.enters 2) events = 1 := by
  obtain ⟨events, queue, run, shown⟩ := (system Unit).runs_of_exec
    (fun _ queue _ event => queue.clearOfEntry event) constructed
    (schedules 0 0 10 ++ schedules 0 0 10 ++ [.tick 10, .dispatch, .cancel 1 1] ++
      List.replicate 6 .dispatch)
    (fun _ events => .cancelled 1 1 true ∈ events ∧ tally (Event.enters 1) events = 0 ∧
      tally (Event.enters 2) events = 1)
    (by decide +kernel)
  exact ⟨events, queue, run, cancelled_never_runs events queue run, shown⟩

/-- A Cancel between the look-up and the callback returns true, and the callback runs. -/
theorem cancelled_timer_runs : ¬ ∀ (events : List (Event Unit)) queue,
    Reached events queue → CancelledNeverRun events := by
  intro never
  obtain ⟨events, queue, run, order⟩ := (system Unit).runs_of_exec (fun _ _ _ _ => True) constructed
    (schedules 0 0 10 ++ [.tick 10, .dispatch, .dispatch, .cancel 1 1, .dispatch])
    (fun _ events => [.cancelled 1 1 true, .entered
      { id := 1, deadline := 10, sequence := 0, callback := some (), state := .scheduled }].Sublist
        events)
    (by decide +kernel)
  obtain ⟨front, rest, rfl, cancelled, entered⟩ := List.cons_sublist_iff.mp order
  obtain ⟨between, after, rfl⟩ := List.append_of_mem (List.singleton_sublist.mp entered)
  exact never _ queue run (front ++ between) after _ (List.append_assoc ..).symm 1
    (List.mem_append_left _ cancelled)

/-! ## Marked timers -/

/-- What is marked is pending, or popped and about to be looked up. -/
def Marks (queue : TimerQueue Callback) : Prop :=
  ∀ id ∈ queue.cancelledTimers, queue.HasTask id ∨
    ∃ now task, queue.tick = some (.check now task) ∧ task.id = id

theorem Marks.step (marks : queue.Marks) (moved : Step queue next event)
    (names : ∀ thread id result, event = .cancelled thread id result → queue.HasTask id) :
    next.Marks := by
  cases moved with
  | refused | called | issued | readClock | sequenced => exact marks
  | pushed here =>
      intro id marked
      rcases marks id marked with ⟨task, member, same⟩ | popped
      · exact .inl ⟨task, List.mem_cons_of_mem _ member, same⟩
      · exact .inr popped
  | cancelled may =>
      intro id marked
      rcases Finset.mem_insert.mp marked with rfl | before
      · exact .inl (names _ _ _ rfl)
      · exact marks id before
  | @popped now task rest here taken due =>
      intro id marked
      rcases marks id marked with ⟨other, member, same⟩ | ⟨_, _, there, _⟩
      · have left := ((TimerTask.priority Callback).extract_spec taken).1.subset member
        rcases List.mem_cons.mp left with rfl | stays
        · exact .inr ⟨now, other, rfl, same⟩
        · exact .inl ⟨other, stays, same⟩
      · rw [here] at there
        cases there
  | @dropped now task here found =>
      intro id marked
      obtain ⟨apart, before⟩ := Finset.mem_erase.mp marked
      rcases marks id before with pending | ⟨_, _, there, same⟩
      · exact .inl pending
      · rw [here] at there
        cases there
        exact absurd same.symm apart
  | @passed now task here unmarked =>
      intro id marked
      rcases marks id marked with pending | ⟨_, _, there, same⟩
      · exact .inl pending
      · rw [here] at there
        cases there
        exact absurd (same ▸ marked) unmarked
  | ticked here | returned here | skipped here | entered here | left here =>
      intro id marked
      rcases marks id marked with pending | ⟨_, _, there, _⟩
      · exact .inl pending
      · rw [here] at there
        cases there

/-- The front of a run that names pending timers does. -/
theorem NamesPending.of_append (names : NamesPending (before ++ after)) : NamesPending before := by
  intro front rest thread id result queue split reached
  exact names front (rest ++ after) thread id result queue (by simp [split]) reached

theorem marks_of_runs (run : Reached events queue) (names : NamesPending events) : queue.Marks := by
  apply run.invariant (fun events queue => NamesPending events → queue.Marks) _ _ names
  · exact fun _ id marked => absurd marked (Finset.notMem_empty id)
  · intro events queue choice next event prior ih transition _ names
    refine (ih names.of_append).step (step_sound transition) ?_
    rintro thread id result rfl
    exact names events [] thread id result queue rfl prior

/-- A set of marks on pending timers is no larger than `tasks_`, and marks no id
that is still to be issued. -/
theorem Marks.marksPending (marks : queue.Marks) (reached : Reached events queue)
    (idle : queue.checking = false) : queue.MarksPending := by
  have consistent := consistent_of_runs reached
  have pending : ∀ id ∈ queue.cancelledTimers, queue.HasTask id := by
    intro id marked
    refine (marks id marked).resolve_right ?_
    rintro ⟨now, task, here, _⟩
    rw [checking, here] at idle
    cases idle
  refine ⟨pending, ?_, ?_⟩
  · have inside : queue.cancelledTimers ⊆ (queue.tasks.map TimerTask.id).toFinset := by
      intro id marked
      obtain ⟨task, member, same⟩ := pending id marked
      exact List.mem_toFinset.mpr (List.mem_map.mpr ⟨task, member, same⟩)
    calc queue.cancelledTimers.card ≤ (queue.tasks.map TimerTask.id).toFinset.card :=
          Finset.card_le_card inside
      _ ≤ (queue.tasks.map TimerTask.id).length := List.toFinset_card_le _
      _ = queue.tasks.length := List.length_map _
  · intro id marked
    obtain ⟨task, member, rfl⟩ := pending id marked
    obtain ⟨thread, pushed⟩ := ((consistent.registered.tasks task).mp member).1
    have issued := (pushed_explained consistent.explained pushed).2.1
    rw [consistent.registered.nextId]
    exact (issues_numbered.bounds consistent.explained issued rfl).2

/-- Cancel returns true when the id was not in the set. -/
theorem result_iff {last : TimerQueue Callback} {thread : ThreadIndex} {result : Bool}
    (run : Reached events last)
    (split : events = before ++ .cancelled thread id result :: after)
    (reached : Reached before queue) : result = true ↔ id ∉ queue.cancelledTimers := by
  obtain ⟨state, choice, next, prior, transition, -⟩ := run.at_event split
  rw [cancelledTimers_eq reached, ← cancelledTimers_eq prior]
  generalize shown : Event.cancelled thread id result = event at transition
  cases step_sound transition with
  | cancelled may =>
      cases shown
      exact decide_eq_true_iff
  | _ => cases shown

theorem dispatchStep_ne_cancelled (state : DispatchState Callback) {thread : ThreadIndex}
    {result : Bool} : (queue.dispatchStep state).2 ≠ .cancelled thread id result := by
  cases state with
  | pop now =>
      simp only [dispatchStep]
      split
      · rintro ⟨⟩
      · split <;> rintro ⟨⟩
  | check now task =>
      simp only [dispatchStep]
      split <;> rintro ⟨⟩
  | enter now task =>
      simp only [dispatchStep]
      split <;> rintro ⟨⟩
  | execute now task => rintro ⟨⟩

/-- A Cancel event comes from a call of Cancel. -/
theorem choice_of_cancelled {choice : Choice Callback} {thread : ThreadIndex} {result : Bool}
    (transition : queue.step choice = some (next, .cancelled thread id result)) :
    choice = .cancel thread id ∧ queue.mayCall thread = true := by
  cases choice with
  | schedule other delay callback =>
      simp only [step] at transition
      split at transition
      · cases callback <;> cases transition
      · cases transition
  | advance other reading =>
      obtain ⟨state, _, same⟩ := Option.map_eq_some_iff.mp transition
      cases state <;> cases same
  | cancel other named =>
      simp only [step] at transition
      split at transition
      · next may =>
        cases transition
        exact ⟨rfl, may⟩
      · cases transition
  | tick now =>
      simp only [step] at transition
      split at transition <;> cases transition
  | dispatch =>
      simp only [step] at transition
      split at transition
      · obtain ⟨state, _, same⟩ := Option.map_eq_some_iff.mp transition
        have shown := congrArg Prod.snd same
        exact absurd shown (dispatchStep_ne_cancelled state)
      · cases transition

/-- The runtime thread calls nothing between a pop and a look-up. -/
theorem checking_of_mayCall (may : queue.mayCall runtime = true) : queue.checking = false := by
  have runs : queue.runsUserCode = true := by
    rw [mayCall, Bool.and_eq_true] at may
    simpa using may.2
  rw [runsUserCode] at runs
  rw [checking]
  cases here : queue.tick with
  | none => rfl
  | some state =>
      rw [here] at runs
      cases state with
      | execute => rfl
      | pop | check | enter => cases runs

/-- In every run of one thread's calls, the set names pending timers and Cancel
tells them, exactly when every Cancel names a pending timer. -/
theorem cancel_exact_iff (events : List (Event Callback)) (queue : TimerQueue Callback)
    (run : (system Callback).RunsUnder (fun _ _ choice _ => choice.sequential) constructed events
      queue) : CancelsPending events ↔ NamesPending events := by
  constructor
  · rintro ⟨marks, results⟩ before after thread id result reached split prior
    obtain ⟨state, choice, next, earlier, transition, sequential, -⟩ := run.at_event split
    obtain ⟨rfl, may⟩ := choice_of_cancelled transition
    obtain rfl : thread = runtime := by simpa [Choice.sequential] using sequential
    have idle := checking_of_mayCall may
    have named : state.HasTask id := by
      by_cases marked : id ∈ state.cancelledTimers
      · exact (marks before _ state split earlier.runs idle).pending id marked
      · have truth := results before after runtime id result state split earlier.runs
        exact (truth.mp ((result_iff run.runs split earlier.runs).mpr marked)).1
    obtain ⟨task, member, same⟩ := named
    refine ⟨task, ?_, same⟩
    rw [(consistent_of_runs prior).registered.tasks task]
    exact ((consistent_of_runs earlier.runs).registered.tasks task).mp member
  · intro names
    constructor
    · rintro before after reached rfl prior idle
      exact (marks_of_runs prior names.of_append).marksPending prior idle
    · intro before after thread id result reached split prior
      rw [result_iff run.runs split prior]
      exact ⟨fun unmarked => ⟨names before after thread id result reached split prior, unmarked⟩,
        fun both => both.2⟩

/-- A run in which a pending timer is cancelled, popped and dropped. -/
theorem pending_timer_is_cancelled : ∃ events queue,
    (system Unit).RunsUnder (fun _ _ choice _ => choice.sequential) constructed events queue ∧
    (CancelsPending events ↔ NamesPending events) ∧ .cancelled 0 1 true ∈ events := by
  obtain ⟨events, queue, run, shown⟩ := (system Unit).runs_of_exec
    (fun _ _ choice _ => choice.sequential) constructed
    (schedules 0 0 10 ++ [.cancel 0 1, .tick 10] ++ List.replicate 3 .dispatch)
    (fun _ events => .cancelled 0 1 true ∈ events)
    (by decide +kernel)
  exact ⟨events, queue, run, cancel_exact_iff events queue run, shown⟩

/-- Cancel of the id 1 before any Schedule returns true, and marks the timer that
the first Schedule is going to return. -/
theorem cancel_marks_future_timer : ¬ ∀ (events : List (Event Unit)) queue,
    (system Unit).RunsUnder (fun _ _ choice _ => choice.sequential) constructed events queue →
    CancelsPending events := by
  intro always
  obtain ⟨events, queue, run, rfl⟩ := (system Unit).runs_of_exec
    (fun _ _ choice _ => choice.sequential) constructed
    ([.cancel 0 1] ++ schedules 0 0 10)
    (fun _ events => events = [.cancelled 0 1 true, .called 0 0, .issued 0 1, .readClock 0 10,
      .sequenced 0 1 0, .pushed 0 { id := 1, deadline := 10, sequence := 0, callback := some ()
                                    state := .scheduled }])
    (by decide +kernel)
  obtain ⟨⟨task, member, _⟩, _⟩ :=
    ((always _ queue run).results [] _ 0 1 true constructed rfl .refl).mp rfl
  cases member

end TimerQueue

end MmoServer.Timer
