import MmoServer.Semantics.Explained
import MmoServer.Timer.Steps

/-!
# The history of TimerQueue

`Explains` says of every event of a run what has happened before it, `Consistent`
what the events say about the state, and `consistent_of_runs` that both hold of
every run, whichever threads call Schedule and Cancel while the runtime thread
dispatches.
-/

namespace MmoServer.Timer

open MmoServer.Semantics MmoServer.Std

variable {Callback : Type} {events : List (Event Callback)} {event other : Event Callback}
  {task earlier : TimerTask Callback} {thread : ThreadIndex} {id : TimerId}

namespace Event

/-- Schedule has drawn an id. -/
@[simp] def issues : Event Callback → Bool
  | .issued _ _ => true
  | _ => false

/-- Schedule has drawn a sequence number. -/
@[simp] def sequences : Event Callback → Bool
  | .sequenced _ _ _ => true
  | _ => false

/-- The number an event gives out. -/
@[simp] def number : Event Callback → Nat
  | .issued _ id => id
  | .sequenced _ _ sequence => sequence
  | _ => 0

/-- The thread of an event that gives a sequence number or pushes. -/
@[simp] def author? : Event Callback → Option ThreadIndex
  | .sequenced thread _ _ | .pushed thread _ => some thread
  | _ => none

/-- Schedule has pushed its task. -/
@[simp] def pushes : Event Callback → Bool
  | .pushed _ _ => true
  | _ => false

/-- The id of a pushed task. -/
@[simp] def id? : Event Callback → Option TimerId
  | .pushed _ task => some task.id
  | _ => none

/-- A task is looked up in `cancelledTimers_`. -/
@[simp] def checks : Event Callback → Bool
  | .dropped _ | .passed _ => true
  | _ => false

/-- The task that the cancellation look-up was for. -/
@[simp] def checked? : Event Callback → Option (TimerTask Callback)
  | .dropped task | .passed task => some task
  | _ => none

/-- Events that change what is known of ids and pending tasks. -/
@[simp] def schedules : Event Callback → Bool
  | .issued _ _ | .sequenced _ _ _ | .pushed _ _ | .popped _ => true
  | _ => false

/-- Events that change what is known of the running Tick. -/
@[simp] def dispatches : Event Callback → Bool
  | .ticked _ | .popped _ | .dropped _ | .passed _ | .entered _ | .returned => true
  | _ => false

end Event

/-- The time of the Tick that is running after a trace. -/
def tickOf (events : List (Event Callback)) : Option TimePoint :=
  events.foldl (fun current event =>
    match event with
    | .ticked now => some now
    | .returned => none
    | _ => current) none

theorem tickOf_concat : tickOf (events ++ [event]) =
    match event with
    | .ticked now => some now
    | .returned => none
    | _ => tickOf events := by
  rw [tickOf, List.foldl_append]
  rfl

/-- What is no step of Tick leaves it as it is. -/
theorem tickOf_of_quiet (quiet : event.dispatches = false) :
    tickOf (events ++ [event]) = tickOf events := by
  rw [tickOf_concat]
  cases event <;> first | rfl | cases quiet

/-- The task has been pushed. -/
def Pushed (events : List (Event Callback)) (task : TimerTask Callback) : Prop :=
  ∃ thread, .pushed thread task ∈ events

/-- No task with the id has been pushed. -/
def Unpushed (events : List (Event Callback)) (id : TimerId) : Prop :=
  ∀ task, Pushed events task → task.id ≠ id

/-- The task has been pushed and not popped. -/
def Pending (events : List (Event Callback)) (task : TimerTask Callback) : Prop :=
  Pushed events task ∧ .popped task ∉ events

/-- The runtime thread has looked the task up in `cancelledTimers_`. -/
def Checked (events : List (Event Callback)) (task : TimerTask Callback) : Prop :=
  .dropped task ∈ events ∨ .passed task ∈ events

/-- The runtime thread has dropped the task or entered its callback. -/
def Settled (events : List (Event Callback)) (task : TimerTask Callback) : Prop :=
  .dropped task ∈ events ∨ .entered task ∈ events

/-- The running Tick was called with a time that the task has reached. -/
def Due (events : List (Event Callback)) (task : TimerTask Callback) : Prop :=
  ∃ now, tickOf events = some now ∧ task.deadline ≤ now

/-- What must have happened before an event. -/
def Explains (before : List (Event Callback)) : Event Callback → Prop
  | .called thread _ => ∀ id sequence, .sequenced thread id sequence ∈ before →
      ∃ task, .pushed thread task ∈ before ∧ task.id = id
  | .issued _ id => id = 1 + tally Event.issues before
  | .sequenced thread id sequence =>
      sequence = tally Event.sequences before ∧ .issued thread id ∈ before
  | .pushed thread task => .sequenced thread task.id task.sequence ∈ before ∧
      Unpushed before task.id ∧ task.callback.isSome = true
  | .ticked _ => tickOf before = none
  | .returned => ∃ now, tickOf before = some now ∧
      ∀ task, Pending before task → now < task.deadline
  | .popped task => Pending before task ∧ Due before task ∧
      (∀ other, Pending before other → other ≠ task → task.Before other) ∧
      ∀ earlier, .popped earlier ∈ before → Settled before earlier
  | .dropped task | .passed task => .popped task ∈ before ∧ ¬ Checked before task
  | .entered task => .passed task ∈ before ∧ .entered task ∉ before ∧ Due before task
  | _ => True

/-! ## What the trace says -/

/-- Another event is no new one. -/
theorem mem_concat_iff_of_ne (differ : other ≠ event) :
    other ∈ events ++ [event] ↔ other ∈ events := by
  rw [List.mem_append, List.mem_singleton]
  exact or_iff_left differ

/-- Nor is an event of another kind. -/
theorem mem_concat_iff_of_kind (kind : Event Callback → Bool) (counts : kind other = true)
    (quiet : kind event = false) : other ∈ events ++ [event] ↔ other ∈ events := by
  apply mem_concat_iff_of_ne
  rintro rfl
  rw [counts] at quiet
  cases quiet

/-- A task has been pushed before, or is pushed now. -/
theorem pushed_concat_iff : Pushed (events ++ [event]) task ↔
    Pushed events task ∨ ∃ thread, event = .pushed thread task := by
  simp only [Pushed, List.mem_append, List.mem_singleton, exists_or, eq_comm]

theorem pushes_cases (counts : event.pushes = true) : ∃ thread task, event = .pushed thread task := by
  cases event with
  | pushed thread task => exact ⟨thread, task, rfl⟩
  | _ => cases counts

theorem checks_cases (counts : event.checks = true) :
    ∃ task, event.checked? = some task ∧ (event = .dropped task ∨ event = .passed task) := by
  cases event with
  | dropped task => exact ⟨task, rfl, .inl rfl⟩
  | passed task => exact ⟨task, rfl, .inr rfl⟩
  | _ => cases counts

/-- The ids are issued in ascending order from one. -/
theorem issues_numbered : Numbered (@Explains Callback) Event.issues Event.number 1 := by
  intro before event explanation counts
  cases event <;> first | exact explanation | cases counts

/-- The sequence numbers are drawn in ascending order from zero. -/
theorem sequences_numbered : Numbered (@Explains Callback) Event.sequences Event.number 0 := by
  intro before event explanation counts
  cases event with
  | sequenced thread id sequence => exact explanation.1.trans (Nat.zero_add _).symm
  | _ => cases counts

section Trace

variable (explained : Explained (@Explains Callback) events)
include explained

/-- An id is issued to one thread. -/
theorem issued_unique {other : ThreadIndex} (issued : .issued thread id ∈ events)
    (also : .issued other id ∈ events) : thread = other := by
  have same := issues_numbered.unique explained issued also rfl rfl rfl
  cases same
  rfl

/-- A task is pushed with an id and a sequence number that were drawn for it. -/
theorem pushed_explained (pushed : .pushed thread task ∈ events) :
    .sequenced thread task.id task.sequence ∈ events ∧ .issued thread task.id ∈ events ∧
      task.callback.isSome = true := by
  obtain ⟨before, ⟨after, rfl⟩, sequenced, _, given⟩ := explained.of_mem pushed
  obtain ⟨front, ⟨rest, rfl⟩, _, issued⟩ := explained.of_append.of_mem sequenced
  exact ⟨List.mem_append_left _ sequenced, List.mem_append_left _ (List.mem_append_left _ issued),
    given⟩

/-- One task is pushed for an id, once. -/
theorem pushed_unique {other : ThreadIndex} {second : TimerTask Callback}
    (pushed : .pushed thread task ∈ events) (also : .pushed other second ∈ events)
    (same : task.id = second.id) : task = second := by
  have one : Event.pushed thread task = .pushed other second := by
    refine explained.unique Event.pushes Event.id? ?_ pushed also rfl rfl (congrArg some same)
    intro before event _ explanation counts earlier inside countsToo
    obtain ⟨thread, task, rfl⟩ := pushes_cases counts
    obtain ⟨other, second, rfl⟩ := pushes_cases countsToo
    exact fun same => explanation.2.1 second ⟨other, inside⟩ (Option.some_injective _ same)
  cases one
  rfl

/-- Tasks with one sequence number are one task. -/
theorem sequence_unique {second : TimerTask Callback} (pushed : Pushed events task)
    (also : Pushed events second) (same : task.sequence = second.sequence) : task = second := by
  obtain ⟨thread, member⟩ := pushed
  obtain ⟨other, memberToo⟩ := also
  have sequenced := (pushed_explained explained member).1
  have sequencedToo := (pushed_explained explained memberToo).1
  have one := sequences_numbered.unique explained sequenced sequencedToo rfl rfl same
  exact pushed_unique explained member memberToo (Event.sequenced.inj one).2.1

/-- A popped task has been pushed. -/
theorem popped_explained (popped : .popped task ∈ events) : Pushed events task := by
  obtain ⟨before, ⟨after, rfl⟩, ⟨⟨thread, pushed⟩, _⟩, _⟩ := explained.of_mem popped
  exact ⟨thread, List.mem_append_left _ pushed⟩

/-- A task that has been looked up has been popped. -/
theorem checked_explained (checked : Checked events task) : .popped task ∈ events := by
  rcases checked with dropped | passed
  · obtain ⟨before, ⟨after, rfl⟩, popped, _⟩ := explained.of_mem dropped
    exact List.mem_append_left _ popped
  · obtain ⟨before, ⟨after, rfl⟩, popped, _⟩ := explained.of_mem passed
    exact List.mem_append_left _ popped

/-- A callback is entered after its look-up. -/
theorem entered_explained (entered : .entered task ∈ events) : .passed task ∈ events := by
  obtain ⟨before, ⟨after, rfl⟩, passed, _⟩ := explained.of_mem entered
  exact List.mem_append_left _ passed

end Trace

/-! ## The invariant -/

/-- What the trace says of a thread in Schedule. -/
def ScheduleState.Follows (thread : ThreadIndex) (events : List (Event Callback)) :
    ScheduleState Callback → Prop
  | .takeId _ _ => True
  | .readClock id _ _ | .takeSequence id _ _ => .issued thread id ∈ events ∧ Unpushed events id
  | .push task => .issued thread task.id ∈ events ∧ Unpushed events task.id ∧
      .sequenced thread task.id task.sequence ∈ events ∧ task.callback.isSome = true

/-- The time a Tick was called with. -/
def DispatchState.now : DispatchState Callback → TimePoint
  | .pop now | .check now _ | .enter now _ | .execute now _ => now

/-- The task that is popped and neither dropped nor entered. -/
def DispatchState.current? : DispatchState Callback → Option (TimerTask Callback)
  | .check _ task | .enter _ task => some task
  | _ => none

/-- What the trace says of the runtime thread in Tick. -/
def DispatchState.Follows (events : List (Event Callback)) : DispatchState Callback → Prop
  | .pop _ | .execute _ _ => True
  | .check now task => task.deadline ≤ now ∧ .popped task ∈ events ∧ ¬ Checked events task
  | .enter now task => task.deadline ≤ now ∧ .passed task ∈ events ∧ .entered task ∉ events

/-- What the trace says of ids and pending tasks. -/
structure Registered (events : List (Event Callback)) (queue : TimerQueue Callback) : Prop where
  nextId : queue.nextId = 1 + tally Event.issues events
  nextSequence : queue.nextSequence = tally Event.sequences events
  tasks : ∀ task, task ∈ queue.tasks ↔ Pending events task
  distinct : queue.tasks.Nodup
  calls : ∀ thread state, queue.calls thread = some state → state.Follows thread events
  waiting : ∀ thread id sequence, .sequenced thread id sequence ∈ events →
    (∃ task, queue.calls thread = some (.push task) ∧ task.id = id) ∨
      ∃ task, .pushed thread task ∈ events ∧ task.id = id

/-- What the trace says of the running Tick. -/
structure Dispatching (events : List (Event Callback)) (queue : TimerQueue Callback) : Prop where
  now : tickOf events = queue.tick.map DispatchState.now
  follows : ∀ state, queue.tick = some state → state.Follows events
  settled : ∀ task, .popped task ∈ events →
    queue.tick.bind DispatchState.current? = some task ∨ Settled events task

/-- What the queue holds is what has happened to it. -/
structure Consistent (events : List (Event Callback)) (queue : TimerQueue Callback) : Prop where
  registered : Registered events queue
  dispatching : Dispatching events queue
  explained : Explained Explains events

/-- A new queue is consistent with the empty history. -/
theorem consistent_constructed : Consistent [] (TimerQueue.constructed : TimerQueue Callback) := by
  constructor
  · refine ⟨rfl, rfl, fun task => ?_, List.nodup_nil, nofun, nofun⟩
    exact ⟨nofun, fun pending => absurd pending.1.choose_spec List.not_mem_nil⟩
  · exact ⟨rfl, nofun, nofun⟩
  · exact explained_nil

/-! ## What the steps keep -/

variable {queue next : TimerQueue Callback}

/-- An id stays unpushed until its own task is pushed. -/
theorem Unpushed.concat (unpushed : Unpushed events id)
    (differ : ∀ thread task, event = .pushed thread task → task.id ≠ id) :
    Unpushed (events ++ [event]) id := by
  intro task pushed
  rcases pushed_concat_iff.mp pushed with before | ⟨thread, same⟩
  · exact unpushed task before
  · exact differ thread task same

/-- What a thread in Schedule knows is kept by events that push no task with its id. -/
theorem ScheduleState.Follows.concat {state : ScheduleState Callback}
    (follows : state.Follows thread events)
    (differ : ∀ id, .issued thread id ∈ events →
      ∀ other task, event = .pushed other task → task.id ≠ id) :
    state.Follows thread (events ++ [event]) := by
  cases state with
  | takeId => trivial
  | readClock id | takeSequence id =>
      obtain ⟨issued, unpushed⟩ := follows
      exact ⟨List.mem_append_left _ issued, unpushed.concat (differ id issued)⟩
  | push task =>
      obtain ⟨issued, unpushed, sequenced, given⟩ := follows
      exact ⟨List.mem_append_left _ issued, unpushed.concat (differ task.id issued),
        List.mem_append_left _ sequenced, given⟩

/-- What the runtime thread knows is kept by the events of Schedule and Cancel. -/
theorem DispatchState.Follows.concat {state : DispatchState Callback}
    (follows : state.Follows events) (quiet : event.dispatches = false) :
    state.Follows (events ++ [event]) := by
  cases state with
  | pop | execute => trivial
  | check now task =>
      obtain ⟨due, popped, unchecked⟩ := follows
      refine ⟨due, List.mem_append_left _ popped, ?_⟩
      rw [Checked, mem_concat_iff_of_kind Event.dispatches rfl quiet,
        mem_concat_iff_of_kind Event.dispatches rfl quiet]
      exact unchecked
  | enter now task =>
      obtain ⟨due, passed, unentered⟩ := follows
      refine ⟨due, List.mem_append_left _ passed, ?_⟩
      rw [mem_concat_iff_of_kind Event.dispatches rfl quiet]
      exact unentered

/-- A task that has been looked up stays so. -/
theorem Checked.concat (checked : Checked events task) : Checked (events ++ [event]) task :=
  checked.imp (List.mem_append_left _) (List.mem_append_left _)

/-- A task that has been settled stays so. -/
theorem Settled.concat (settled : Settled events task) : Settled (events ++ [event]) task := by
  rcases settled with dropped | entered
  · exact .inl (List.mem_append_left _ dropped)
  · exact .inr (List.mem_append_left _ entered)

/-- The events of Schedule and Cancel keep what is known of the running Tick. -/
theorem Dispatching.keep (dispatching : Dispatching events queue) (same : next.tick = queue.tick)
    (quiet : event.dispatches = false) : Dispatching (events ++ [event]) next := by
  constructor
  · rw [tickOf_of_quiet quiet, same]
    exact dispatching.now
  · intro state here
    rw [same] at here
    exact (dispatching.follows state here).concat quiet
  · intro task popped
    rw [mem_concat_iff_of_kind Event.dispatches rfl quiet] at popped
    rw [same]
    exact (dispatching.settled task popped).imp_right Settled.concat

/-- What concerns no task leaves the pending ones. -/
theorem pending_concat_of_quiet (quiet : event.schedules = false) :
    Pending (events ++ [event]) task ↔ Pending events task := by
  rw [Pending, Pending, mem_concat_iff_of_kind Event.schedules rfl quiet]
  have same : Pushed (events ++ [event]) task ↔ Pushed events task :=
    exists_congr fun thread => mem_concat_iff_of_kind Event.schedules rfl quiet
  rw [same]

/-- Nor does it draw a number. -/
theorem counts_of_quiet (events : List (Event Callback)) (quiet : event.schedules = false) :
    tally Event.issues (events ++ [event]) = tally Event.issues events ∧
      tally Event.sequences (events ++ [event]) = tally Event.sequences events := by
  rw [tally_concat, tally_concat]
  cases event <;> first | exact ⟨rfl, rfl⟩ | cases quiet

/-- Events that neither schedule nor pop keep what is known of ids and pending tasks. -/
theorem Registered.keep (registered : Registered events queue) (quiet : event.schedules = false)
    (tasks : next.tasks = queue.tasks) (ids : next.nextId = queue.nextId)
    (sequences : next.nextSequence = queue.nextSequence) (calls : next.calls = queue.calls) :
    Registered (events ++ [event]) next := by
  obtain ⟨issues, numbers⟩ := counts_of_quiet events quiet
  constructor
  · rw [ids, issues]
    exact registered.nextId
  · rw [sequences, numbers]
    exact registered.nextSequence
  · intro task
    rw [tasks, pending_concat_of_quiet quiet]
    exact registered.tasks task
  · rw [tasks]
    exact registered.distinct
  · intro thread state here
    rw [calls] at here
    refine (registered.calls thread state here).concat fun id _ other task pushed => ?_
    rw [pushed] at quiet
    cases quiet
  · intro thread id sequence sequenced
    rw [mem_concat_iff_of_kind Event.schedules rfl quiet] at sequenced
    rw [calls]
    refine (registered.waiting thread id sequence sequenced).imp_right ?_
    rintro ⟨task, pushed, same⟩
    exact ⟨task, List.mem_append_left _ pushed, same⟩

/-! ## The steps of Schedule -/

section Schedule

variable (registered : Registered events queue) (explained : Explained Explains events)
include registered explained

/-- An id that has not been issued has not been pushed. -/
theorem Registered.unpushed_nextId : Unpushed events queue.nextId := by
  rintro task ⟨thread, pushed⟩ same
  have issued := (pushed_explained explained pushed).2.1
  have below := (issues_numbered.bounds explained issued rfl).2
  change task.id < 1 + tally Event.issues events at below
  rw [same, registered.nextId] at below
  exact absurd below (Nat.lt_irrefl _)

/-- One thread moves on in Schedule, and its event concerns no other. -/
theorem Registered.move {state : Option (ScheduleState Callback)}
    (nextId : next.nextId = 1 + tally Event.issues (events ++ [event]))
    (nextSequence : next.nextSequence = tally Event.sequences (events ++ [event]))
    (tasks : ∀ task, task ∈ next.tasks ↔ Pending (events ++ [event]) task)
    (distinct : next.tasks.Nodup)
    (calls : next.calls = Function.update queue.calls thread state)
    (author : ∀ other, event.author? = some other → other = thread ∧
      ∀ task, event = .pushed other task → .issued other task.id ∈ events)
    (mine : ∀ later, state = some later → later.Follows thread (events ++ [event]))
    (waits : ∀ id sequence, .sequenced thread id sequence ∈ events ++ [event] →
      (∃ task, state = some (.push task) ∧ task.id = id) ∨
        ∃ task, .pushed thread task ∈ events ++ [event] ∧ task.id = id) :
    Registered (events ++ [event]) next := by
  refine ⟨nextId, nextSequence, tasks, distinct, ?_, ?_⟩
  · intro other later here
    rw [calls] at here
    by_cases same : other = thread
    · subst same
      rw [Function.update_self] at here
      exact mine later here
    · rw [Function.update_of_ne same] at here
      refine (registered.calls other later here).concat ?_
      rintro id issued pusher task rfl equal
      obtain ⟨rfl, owns⟩ := author pusher rfl
      have own := owns task rfl
      rw [equal] at own
      exact same (issued_unique explained issued own)
  · intro other id sequence sequenced
    by_cases same : other = thread
    · subst same
      rw [calls, Function.update_self]
      exact waits id sequence sequenced
    · have before : .sequenced other id sequence ∈ events := by
        rcases List.mem_append.mp sequenced with before | last
        · exact before
        · obtain rfl : _ = event := by simpa using last
          exact absurd (author other rfl).1 same
      rw [calls, Function.update_of_ne same]
      refine (registered.waiting other id sequence before).imp_right ?_
      rintro ⟨task, pushed, same⟩
      exact ⟨task, List.mem_append_left _ pushed, same⟩

/-- A thread enters Schedule. -/
theorem Registered.call {delay : Duration} {callback : Callback}
    (free : queue.calls thread = none) :
    Registered (events ++ [.called thread delay])
      (queue.setCall thread (some (.takeId delay callback))) := by
  have kept : Registered (events ++ [.called thread delay]) queue :=
    registered.keep rfl rfl rfl rfl rfl
  refine registered.move explained kept.nextId kept.nextSequence kept.tasks kept.distinct rfl nofun
    ?_ ?_
  · intro later here
    cases here
    trivial
  · intro id sequence sequenced
    refine (kept.waiting thread id sequence sequenced).imp_left ?_
    rintro ⟨task, here, _⟩
    rw [free] at here
    cases here

/-- Schedule draws its id. -/
theorem Registered.issue {delay : Duration} {callback : Callback}
    (here : queue.calls thread = some (.takeId delay callback)) :
    Registered (events ++ [.issued thread queue.nextId])
      ({ queue with nextId := queue.nextId + 1 }.setCall thread
        (some (.readClock queue.nextId delay callback))) := by
  have fresh := registered.unpushed_nextId explained
  refine registered.move explained ?_ ?_ ?_ registered.distinct rfl nofun ?_ ?_
  · rw [tally_concat]
    change queue.nextId + 1 = 1 + (tally Event.issues events + 1)
    rw [registered.nextId, Nat.add_assoc]
  · rw [tally_concat]
    exact registered.nextSequence
  · intro task
    refine (registered.tasks task).trans ?_
    simp [Pending, Pushed]
  · intro later entered
    cases entered
    exact ⟨by simp, fresh.concat nofun⟩
  · intro id sequence sequenced
    have before : .sequenced thread id sequence ∈ events := by simpa using sequenced
    rcases registered.waiting thread id sequence before with ⟨task, there, _⟩ | ⟨task, pushed, same⟩
    · rw [here] at there
      cases there
    · exact .inr ⟨task, List.mem_append_left _ pushed, same⟩

/-- Schedule reads the clock. -/
theorem Registered.read {reading : TimePoint} {delay : Duration} {callback : Callback}
    (here : queue.calls thread = some (.readClock id delay callback)) :
    Registered (events ++ [.readClock thread reading])
      (queue.setCall thread (some (.takeSequence id (deadlineOf reading delay) callback))) := by
  have kept : Registered (events ++ [.readClock thread reading]) queue :=
    registered.keep rfl rfl rfl rfl rfl
  refine registered.move explained kept.nextId kept.nextSequence kept.tasks kept.distinct rfl nofun
    ?_ ?_
  · intro later entered
    cases entered
    have follows := kept.calls thread _ here
    exact follows
  · intro id sequence sequenced
    refine (kept.waiting thread id sequence sequenced).imp_left ?_
    rintro ⟨task, there, _⟩
    rw [here] at there
    cases there

/-- Schedule draws its sequence number. -/
theorem Registered.sequence {deadline : TimePoint} {callback : Callback}
    (here : queue.calls thread = some (.takeSequence id deadline callback)) :
    Registered (events ++ [.sequenced thread id queue.nextSequence])
      ({ queue with nextSequence := queue.nextSequence + 1 }.setCall thread
        (some (.push { id, deadline, sequence := queue.nextSequence, callback := some callback
                       state := .scheduled }))) := by
  obtain ⟨issued, unpushed⟩ := registered.calls thread _ here
  refine registered.move explained ?_ ?_ ?_ registered.distinct rfl ?_ ?_ ?_
  · rw [tally_concat]
    exact registered.nextId
  · rw [tally_concat, ← registered.nextSequence]
    rfl
  · intro task
    refine (registered.tasks task).trans ?_
    simp [Pending, Pushed]
  · rintro other same
    cases same
    exact ⟨rfl, nofun⟩
  · intro later entered
    cases entered
    exact ⟨List.mem_append_left _ issued, unpushed.concat nofun, by simp, rfl⟩
  · intro other number sequenced
    rcases List.mem_append.mp sequenced with before | last
    · rcases registered.waiting thread other number before with ⟨task, there, _⟩ | ⟨task, pushed, same⟩
      · rw [here] at there
        cases there
      · exact .inr ⟨task, List.mem_append_left _ pushed, same⟩
    · cases List.mem_singleton.mp last
      exact .inl ⟨_, rfl, rfl⟩

/-- Schedule pushes its task. -/
theorem Registered.push (here : queue.calls thread = some (.push task)) :
    Registered (events ++ [.pushed thread task])
      ({ queue with tasks := task :: queue.tasks }.setCall thread none) := by
  obtain ⟨issued, unpushed, _, _⟩ := registered.calls thread _ here
  have absent : task ∉ queue.tasks := by
    intro member
    exact unpushed task ((registered.tasks task).mp member).1 rfl
  have unpopped : .popped task ∉ events :=
    fun popped => unpushed task (popped_explained explained popped) rfl
  refine registered.move explained ?_ ?_ ?_ (List.nodup_cons.mpr ⟨absent, registered.distinct⟩) rfl
    ?_ nofun ?_
  · rw [tally_concat]
    exact registered.nextId
  · rw [tally_concat]
    exact registered.nextSequence
  · intro other
    change other ∈ task :: queue.tasks ↔ _
    rw [List.mem_cons, registered.tasks other, Pending, Pending, pushed_concat_iff]
    constructor
    · rintro (rfl | ⟨pushed, waits⟩)
      · exact ⟨.inr ⟨thread, rfl⟩, by simpa using unpopped⟩
      · exact ⟨.inl pushed, by simpa using waits⟩
    · rintro ⟨pushed | ⟨pusher, same⟩, waits⟩
      · exact .inr ⟨pushed, by simpa using waits⟩
      · cases same
        exact .inl rfl
  · rintro other same
    cases same
    refine ⟨rfl, fun second same => ?_⟩
    cases same
    exact issued
  · intro other number sequenced
    have before : .sequenced thread other number ∈ events := by simpa using sequenced
    rcases registered.waiting thread other number before with
      ⟨second, there, same⟩ | ⟨second, pushed, same⟩
    · rw [here] at there
      cases there
      exact .inr ⟨task, by simp, same⟩
    · exact .inr ⟨second, List.mem_append_left _ pushed, same⟩

end Schedule

/-! ## The steps of Tick -/

/-- A popped task is no longer pending. -/
theorem pending_concat_popped : Pending (events ++ [.popped earlier]) task ↔
    Pending events task ∧ task ≠ earlier := by
  simp only [Pending, Pushed, List.mem_append, List.mem_singleton, reduceCtorEq, or_false, not_or,
    Event.popped.injEq, and_assoc]

/-- Tick pops the task of least deadline. -/
theorem Registered.pop (registered : Registered events queue) {rest : List (TimerTask Callback)}
    (taken : (TimerTask.priority Callback).extract queue.tasks = some (task, rest))
    (tasks : next.tasks = rest) (ids : next.nextId = queue.nextId)
    (sequences : next.nextSequence = queue.nextSequence) (calls : next.calls = queue.calls) :
    Registered (events ++ [.popped task]) next := by
  constructor
  · rw [ids, tally_concat]
    exact registered.nextId
  · rw [sequences, tally_concat]
    exact registered.nextSequence
  · intro other
    rw [tasks, pending_concat_popped, ← registered.tasks other]
    exact (TimerTask.priority Callback).mem_rest_iff taken registered.distinct
  · have same := ((TimerTask.priority Callback).extract_spec taken).1
    rw [tasks]
    exact (List.nodup_cons.mp (same.nodup_iff.mp registered.distinct)).2
  · intro thread state here
    rw [calls] at here
    exact (registered.calls thread state here).concat nofun
  · intro thread id sequence sequenced
    have before : .sequenced thread id sequence ∈ events := by simpa using sequenced
    rw [calls]
    refine (registered.waiting thread id sequence before).imp_right ?_
    rintro ⟨task, pushed, same⟩
    exact ⟨task, List.mem_append_left _ pushed, same⟩

section Tick

variable (dispatching : Dispatching events queue) (explained : Explained Explains events)
  {now : TimePoint}
include dispatching

/-- A step of Tick that leaves no task popped and open. -/
theorem Dispatching.close {state : Option (DispatchState Callback)} (tick : next.tick = state)
    (now : tickOf (events ++ [event]) = state.map DispatchState.now)
    (idle : ∀ later, state = some later → later.current? = none)
    (unpopped : ∀ task, event ≠ .popped task)
    (closes : ∀ task, queue.tick.bind DispatchState.current? = some task →
      Settled (events ++ [event]) task) : Dispatching (events ++ [event]) next := by
  refine ⟨tick ▸ now, ?_, ?_⟩
  · intro later here
    rw [tick] at here
    have none := idle later here
    cases later with
    | pop | execute => trivial
    | check | enter => cases none
  · intro task popped
    have before : .popped task ∈ events := (mem_concat_iff_of_ne (unpopped task).symm).mp popped
    rcases dispatching.settled task before with open_ | settled
    · exact .inr (closes task open_)
    · exact .inr settled.concat

/-- The task that is popped is the one that is open. -/
theorem Dispatching.pop (here : queue.tick = some (.pop now)) (due : task.deadline ≤ now)
    (pending : Pending events task) (explained : Explained Explains events)
    (tick : next.tick = some (.check now task)) : Dispatching (events ++ [.popped task]) next := by
  have current := dispatching.now
  rw [here] at current
  constructor
  · rw [tickOf_concat, tick]
    exact current
  · intro later entered
    rw [tick] at entered
    cases entered
    refine ⟨due, by simp, ?_⟩
    rintro (dropped | passed)
    · have before : .dropped task ∈ events := by simpa using dropped
      exact pending.2 (checked_explained explained (.inl before))
    · have before : .passed task ∈ events := by simpa using passed
      exact pending.2 (checked_explained explained (.inr before))
  · intro other popped
    rcases List.mem_append.mp popped with before | last
    · rcases dispatching.settled other before with open_ | settled
      · rw [here] at open_
        cases open_
      · exact .inr settled.concat
    · cases List.mem_singleton.mp last
      rw [tick]
      exact .inl rfl

/-- The open task passes the look into `cancelledTimers_`. -/
theorem Dispatching.pass (here : queue.tick = some (.check now task))
    (explained : Explained Explains events) (tick : next.tick = some (.enter now task)) :
    Dispatching (events ++ [.passed task]) next := by
  have current := dispatching.now
  rw [here] at current
  obtain ⟨due, popped, unchecked⟩ := dispatching.follows _ here
  constructor
  · rw [tickOf_concat, tick]
    exact current
  · intro later entered
    rw [tick] at entered
    cases entered
    refine ⟨due, by simp, fun entered => ?_⟩
    have before : .entered task ∈ events := by simpa using entered
    exact unchecked (.inr (entered_explained explained before))
  · intro other popped
    have before : .popped other ∈ events := by simpa using popped
    rw [tick]
    rcases dispatching.settled other before with open_ | settled
    · rw [here] at open_
      exact .inl open_
    · exact .inr settled.concat

end Tick

/-! ## Every run is consistent -/

/-- Every step keeps what the trace says. -/
theorem Consistent.step (consistent : Consistent events queue)
    (moved : TimerQueue.Step queue next event) : Consistent (events ++ [event]) next := by
  obtain ⟨registered, dispatching, explained⟩ := consistent
  have current := dispatching.now
  cases moved with
  | refused =>
      exact ⟨registered.keep rfl rfl rfl rfl rfl, dispatching.keep rfl rfl,
        explained_concat.mpr ⟨explained, trivial⟩⟩
  | called may =>
      have free := TimerQueue.calls_of_mayCall may
      refine ⟨registered.call explained free, dispatching.keep rfl rfl,
        explained_concat.mpr ⟨explained, fun id sequence sequenced => ?_⟩⟩
      rcases registered.waiting _ id sequence sequenced with ⟨task, here, _⟩ | pushed
      · rw [free] at here
        cases here
      · exact pushed
  | issued here =>
      exact ⟨registered.issue explained here, dispatching.keep rfl rfl,
        explained_concat.mpr ⟨explained, registered.nextId⟩⟩
  | readClock here =>
      exact ⟨registered.read explained here, dispatching.keep rfl rfl,
        explained_concat.mpr ⟨explained, trivial⟩⟩
  | sequenced here =>
      exact ⟨registered.sequence explained here, dispatching.keep rfl rfl,
        explained_concat.mpr ⟨explained, registered.nextSequence,
          (registered.calls _ _ here).1⟩⟩
  | pushed here =>
      obtain ⟨_, unpushed, sequenced, given⟩ := registered.calls _ _ here
      exact ⟨registered.push explained here, dispatching.keep rfl rfl,
        explained_concat.mpr ⟨explained, sequenced, unpushed, given⟩⟩
  | cancelled =>
      exact ⟨registered.keep rfl rfl rfl rfl rfl, dispatching.keep rfl rfl,
        explained_concat.mpr ⟨explained, trivial⟩⟩
  | ticked idle =>
      rw [idle] at current
      refine ⟨registered.keep rfl rfl rfl rfl rfl, dispatching.close rfl tickOf_concat ?_ ?_ ?_,
        explained_concat.mpr ⟨explained, current⟩⟩
      · intro later here
        cases here
        rfl
      · exact nofun
      · rw [idle]
        exact nofun
  | returned here nothing =>
      rw [here] at current
      refine ⟨registered.keep rfl rfl rfl rfl rfl, dispatching.close rfl tickOf_concat ?_ ?_ ?_,
        explained_concat.mpr ⟨explained, _, current, fun task pending => ?_⟩⟩
      · exact nofun
      · exact nofun
      · rw [here]
        exact nofun
      · exact nothing task ((registered.tasks task).mpr pending)
  | @popped now task rest here taken due =>
      rw [here] at current
      obtain ⟨same, least⟩ := (TimerTask.priority Callback).extract_spec taken
      have pending := (registered.tasks task).mp (same.symm.subset List.mem_cons_self)
      refine ⟨registered.pop taken rfl rfl rfl rfl, dispatching.pop here due pending explained rfl,
        explained_concat.mpr ⟨explained, pending, ⟨now, current, due⟩, ?_, ?_⟩⟩
      · intro other waits apart
        have left : other ∈ rest := by
          rw [(TimerTask.priority Callback).mem_rest_iff taken registered.distinct]
          exact ⟨(registered.tasks other).mpr waits, apart⟩
        -- Two pending tasks with equal keys would have one sequence number.
        rw [TimerTask.before_iff_key]
        refine lt_of_le_of_ne (TimerTask.greater_eq_false_iff.mp (least other left)) ?_
        intro equal
        have sequences : task.sequence = other.sequence := congrArg (fun key => (ofLex key).2) equal
        exact apart (sequence_unique explained pending.1 waits.1 sequences).symm
      · intro earlier popped
        rcases dispatching.settled earlier popped with open_ | settled
        · rw [here] at open_
          cases open_
        · exact settled
  | dropped here marked =>
      rw [here] at current
      obtain ⟨_, popped, unchecked⟩ := dispatching.follows _ here
      refine ⟨registered.keep rfl rfl rfl rfl rfl, dispatching.close rfl ?_ ?_ ?_ ?_,
        explained_concat.mpr ⟨explained, popped, unchecked⟩⟩
      · rw [tickOf_concat]
        exact current
      · intro later entered
        cases entered
        rfl
      · exact nofun
      · intro other open_
        rw [here] at open_
        cases open_
        exact .inl (by simp)
  | passed here unmarked =>
      obtain ⟨_, popped, unchecked⟩ := dispatching.follows _ here
      exact ⟨registered.keep rfl rfl rfl rfl rfl, dispatching.pass here explained rfl,
        explained_concat.mpr ⟨explained, popped, unchecked⟩⟩
  | skipped here empty =>
      -- Only tasks with a callback have been pushed.
      obtain ⟨_, passed, _⟩ := dispatching.follows _ here
      obtain ⟨thread, pushed⟩ := popped_explained explained (checked_explained explained (.inr passed))
      have given := (pushed_explained explained pushed).2.2
      rw [empty] at given
      cases given
  | @entered now task callback here given =>
      rw [here] at current
      obtain ⟨due, passed, unentered⟩ := dispatching.follows _ here
      refine ⟨registered.keep rfl rfl rfl rfl rfl, dispatching.close rfl ?_ ?_ ?_ ?_,
        explained_concat.mpr ⟨explained, passed, unentered, now, current, due⟩⟩
      · rw [tickOf_concat]
        exact current
      · intro later executes
        cases executes
        rfl
      · exact nofun
      · intro other open_
        rw [here] at open_
        cases open_
        exact .inr (by simp)
  | left here =>
      rw [here] at current
      refine ⟨registered.keep rfl rfl rfl rfl rfl, dispatching.close rfl ?_ ?_ ?_ ?_,
        explained_concat.mpr ⟨explained, trivial⟩⟩
      · rw [tickOf_concat]
        exact current
      · intro later pops
        cases pops
        rfl
      · exact nofun
      · rw [here]
        exact nofun

/-- Every run is consistent with its history. -/
theorem consistent_of_runs
    (run : (TimerQueue.system Callback).Runs TimerQueue.constructed events queue) :
    Consistent events queue := by
  apply run.invariant Consistent consistent_constructed
  intro events queue choice next event _ consistent transition _
  exact consistent.step (TimerQueue.step_sound transition)

end MmoServer.Timer
