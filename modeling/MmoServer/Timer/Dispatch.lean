import MmoServer.Timer.History

/-!
# What a Tick does

For every interleaving of Schedule and Cancel, by any threads and by callbacks,
with the Ticks of the runtime thread: when Tick returns nothing is due, it has run
due tasks only that were not found cancelled, tasks that were pending together run
in the order of (deadline, sequence), later ones stay, and no id is run twice.
-/

namespace MmoServer.Timer

open MmoServer.Semantics MmoServer.Std

namespace Event

variable {Callback : Type}

/-- The callback of an id is entered. -/
@[simp] def enters (id : TimerId) : Event Callback → Bool
  | .entered task => task.id = id
  | _ => false

end Event

namespace TimerQueue

variable {Callback : Type}

/-- The queue is one that a trace leads to. -/
abbrev Reached (events : List (Event Callback)) (queue : TimerQueue Callback) : Prop :=
  (system Callback).Runs constructed events queue

/-- What the Ticks of a run do. -/
structure Dispatches (events : List (Event Callback)) : Prop where
  /-- The pending tasks are those that have been pushed and not popped. -/
  pending : ∀ before after queue, events = before ++ after → Reached before queue →
    ∀ task, task ∈ queue.tasks ↔ Pending before task
  /-- When Tick returns no pending task is due. -/
  nothingDue : ∀ before now during after queue,
    events = before ++ .ticked now :: (during ++ .returned :: after) → .returned ∉ during →
    Reached (before ++ .ticked now :: (during ++ [.returned])) queue → queue.NothingDue now
  /-- The callbacks that a Tick runs are those of due tasks. -/
  due : ∀ before now during after, events = before ++ .ticked now :: (during ++ after) →
    .returned ∉ during → ∀ task, .entered task ∈ during → task.deadline ≤ now
  /-- The id of a task whose callback runs was not in `cancelledTimers_` when the
  task was popped, nor when it was checked. -/
  unmarked : ∀ task, .entered task ∈ events → .popped task ∈ events ∧ .passed task ∈ events ∧
    ∀ before after queue, events = before ++ .popped task :: after ∨
      events = before ++ .passed task :: after → Reached before queue →
      task.id ∉ queue.cancelledTimers
  /-- Of two tasks that are pending when one of them is popped, that one comes
  first in the order of (deadline, sequence), and its callback is run first. -/
  inOrder : ∀ before after queue first second, events = before ++ .popped first :: after →
    Reached before queue → second ∈ queue.tasks → first ≠ second →
    first.Before second ∧ ∀ front rest, events = front ++ .entered second :: rest →
      .entered first ∈ events → .entered first ∈ front
  /-- A Schedule that is called after another has returned takes a later sequence number. -/
  scheduled : ∀ thread first other delay second,
    [.pushed thread first, .called other delay, .pushed other second].Sublist events →
      first.sequence < second.sequence
  /-- A task that is not due when Tick returns stays pending. -/
  stays : ∀ before now during after queue,
    events = before ++ .ticked now :: (during ++ .returned :: after) → .returned ∉ during →
    Reached (before ++ .ticked now :: (during ++ [.returned])) queue →
    ∀ task, Pending before task ∨ Pushed during task → now < task.deadline → task ∈ queue.tasks
  /-- No id is run twice. -/
  once : ∀ id, tally (Event.enters id) events ≤ 1

end TimerQueue

variable {Callback : Type} {events before after during front : List (Event Callback)}
  {event : Event Callback} {queue : TimerQueue Callback} {task first second : TimerTask Callback}
  {id : TimerId} {now : TimePoint}

/-! ## The cancellation set -/

/-- The ids that a trace leaves in `cancelledTimers_`. -/
def cancelledOf (events : List (Event Callback)) : Finset TimerId :=
  events.foldl (fun ids event =>
    match event with
    | .cancelled _ id _ => insert id ids
    | .dropped task => ids.erase task.id
    | _ => ids) ∅

theorem cancelledOf_concat : cancelledOf (events ++ [event]) =
    match event with
    | .cancelled _ id _ => insert id (cancelledOf events)
    | .dropped task => (cancelledOf events).erase task.id
    | _ => cancelledOf events := by
  rw [cancelledOf, List.foldl_append]
  rfl

theorem cancelledTimers_eq (run : TimerQueue.Reached events queue) :
    queue.cancelledTimers = cancelledOf events := by
  apply run.invariant fun events (queue : TimerQueue Callback) =>
    queue.cancelledTimers = cancelledOf events
  · rfl
  · intro events queue choice next event _ same transition _
    rw [cancelledOf_concat]
    cases TimerQueue.step_sound transition with
    | cancelled | dropped => rw [← same]
    | _ => exact same

/-- An id stays in the set until its task is dropped. -/
theorem mem_cancelledOf_append (member : id ∈ cancelledOf before)
    (kept : ∀ task, .dropped task ∈ after → task.id ≠ id) : id ∈ cancelledOf (before ++ after) := by
  induction after using List.reverseRecOn with
  | nil => rwa [List.append_nil]
  | append_singleton after event ih =>
      have inside := ih fun task dropped => kept task (List.mem_append_left _ dropped)
      rw [← List.append_assoc, cancelledOf_concat]
      cases event with
      | cancelled thread other result => exact Finset.mem_insert_of_mem inside
      | dropped task =>
          have apart := kept task (by simp)
          exact Finset.mem_erase.mpr ⟨apart.symm, inside⟩
      | _ => exact inside

/-! ## Within one Tick -/

theorem enters_cases (enters : event.enters id = true) :
    ∃ task, event = .entered task ∧ task.id = id := by
  cases event with
  | entered task => exact ⟨task, rfl, by simpa using enters⟩
  | _ => cases enters

section Trace

variable (explained : Explained (@Explains Callback) events)
include explained

/-- The Tick that was called last runs until it returns. -/
theorem tickOf_during (split : events = before ++ .ticked now :: (during ++ after))
    (running : .returned ∉ during) : tickOf (before ++ .ticked now :: during) = some now := by
  induction during using List.reverseRecOn generalizing after with
  | nil => rw [tickOf_concat]
  | append_singleton during event ih =>
      rw [List.append_assoc] at split
      have earlier := ih split (fun inside => running (List.mem_append_left _ inside))
      have explanation : Explains (before ++ .ticked now :: during) event := by
        apply explained _ _ after
        simp [split]
      rw [show before ++ .ticked now :: (during ++ [event]) =
        before ++ .ticked now :: during ++ [event] by simp, tickOf_concat]
      cases event with
      | ticked other =>
          have idle : tickOf (before ++ .ticked now :: during) = none := explanation
          rw [earlier] at idle
          cases idle
      | returned => exact absurd (by simp) running
      | _ => exact earlier

/-- A task that is dropped is not run. -/
theorem dropped_or_passed (dropped : .dropped task ∈ events) : .passed task ∉ events := by
  intro passed
  have same := explained.unique Event.checks Event.checked? ?_ dropped passed rfl rfl rfl
  · cases same
  · intro before event _ explanation counts earlier inside countsToo same
    obtain ⟨task, found, which⟩ := checks_cases counts
    obtain ⟨other, foundToo, whichToo⟩ := checks_cases countsToo
    rw [found, foundToo] at same
    obtain rfl := Option.some_injective _ same
    have checked : Checked before other := by
      rcases whichToo with rfl | rfl
      · exact .inl inside
      · exact .inr inside
    rcases which with rfl | rfl
    · exact explanation.2 checked
    · exact explanation.2 checked

theorem popped_of_entered (entered : .entered task ∈ events) : .popped task ∈ events :=
  checked_explained explained (.inr (entered_explained explained entered))

/-- Tasks with one id are one task. -/
theorem Pushed.unique (pushed : Pushed events first) (also : Pushed events second)
    (same : first.id = second.id) : first = second := by
  obtain ⟨thread, member⟩ := pushed
  obtain ⟨other, memberToo⟩ := also
  exact pushed_unique explained member memberToo same

/-- The task that is popped first is run first. -/
theorem entered_before {rest : List (Event Callback)}
    (split : events = before ++ .popped first :: after) (waits : .popped second ∉ before)
    (differ : first ≠ second) (entered : events = front ++ .entered second :: rest)
    (run : .entered first ∈ events) : .entered first ∈ front := by
  have earlier : Explained Explains front := by
    rw [entered] at explained
    exact explained.of_append
  have passed : .passed second ∈ front := (explained front _ rest entered).1
  obtain ⟨start, finish, rfl⟩ := List.append_of_mem (checked_explained earlier (.inr passed))
  have cut : events = start ++ .popped second :: (finish ++ .entered second :: rest) := by
    rw [entered, List.append_assoc, List.cons_append]
  have firstPopped := mem_of_split split cut (fun same => differ (Event.popped.inj same)) waits
  rcases (explained start _ _ cut).2.2.2 first firstPopped with dropped | ran
  · have inside : .dropped first ∈ events := by
      rw [cut]
      exact List.mem_append_left _ dropped
    exact absurd (entered_explained explained run) (dropped_or_passed explained inside)
  · exact List.mem_append_left _ ran

/-- A task that is found unmarked was unmarked when it was popped. -/
theorem unmarked_of_passed {rest : List (Event Callback)}
    (split : events = before ++ .popped task :: after)
    (passed : events = front ++ .passed task :: rest) (unmarked : task.id ∉ cancelledOf front) :
    task.id ∉ cancelledOf before := by
  intro marked
  obtain ⟨popped, unchecked⟩ := explained front _ rest passed
  have unpopped := (explained before _ after split).1.2
  rcases List.append_eq_append_iff.mp (split.symm.trans passed) with
    ⟨between, rfl, _⟩ | ⟨between, rfl, _⟩
  · apply unmarked
    apply mem_cancelledOf_append marked
    intro other dropped same
    have inside : .dropped other ∈ before ++ between := List.mem_append_right _ dropped
    have earlier : Explained Explains (before ++ between) := by
      rw [passed] at explained
      exact explained.of_append
    obtain rfl := Pushed.unique earlier
      (popped_explained earlier (checked_explained earlier (.inl inside)))
      (popped_explained earlier popped) same
    exact unchecked (.inl inside)
  · exact unpopped (List.mem_append_left _ popped)

/-- A Schedule that is called after another has returned takes a later sequence number. -/
theorem sequence_lt {thread other : ThreadIndex} {delay : Duration}
    (order : [.pushed thread first, .called other delay, .pushed other second].Sublist events) :
    first.sequence < second.sequence := by
  obtain ⟨start, rest, rfl, firstIn, later⟩ := List.cons_sublist_iff.mp order
  obtain ⟨middle, last, rfl, calledIn, secondIn⟩ := List.cons_sublist_iff.mp later
  obtain ⟨between, behind, rfl⟩ := List.append_of_mem calledIn
  obtain ⟨front, rest, rfl⟩ := List.append_of_mem (List.singleton_sublist.mp secondIn)
  have atCall : Explains (start ++ between) (.called other delay) :=
    explained _ _ (behind ++ (front ++ .pushed other second :: rest)) (by simp)
  obtain ⟨sequenced, unpushed, _⟩ :=
    explained (start ++ between ++ .called other delay :: (behind ++ front))
      (.pushed other second) rest (by simp)
  have outset : Explained Explains (start ++ between) := by
    have whole := explained
    rw [List.append_assoc, List.cons_append, ← List.append_assoc] at whole
    exact whole.of_append
  rcases List.mem_append.mp sequenced with early | late
  · -- A sequence number that was taken before the call belongs to a task pushed before.
    obtain ⟨task, pushed, same⟩ := atCall _ _ early
    exact absurd same (unpushed task ⟨other, List.mem_append_left _ pushed⟩)
  · have inside : .sequenced other second.id second.sequence ∈ behind ++ front := by simpa using late
    obtain ⟨left, right, cut⟩ := List.append_of_mem inside
    have number : second.sequence =
        tally Event.sequences (start ++ between ++ .called other delay :: left) := by
      refine (explained _ (.sequenced other second.id second.sequence)
        (right ++ .pushed other second :: rest) ?_).1
      have parts : behind ++ (front ++ .pushed other second :: rest) =
          left ++ .sequenced other second.id second.sequence ::
            (right ++ .pushed other second :: rest) := by
        rw [← List.append_assoc, cut]
        simp
      simp only [List.append_assoc, List.cons_append, parts]
    have taken := (pushed_explained outset (List.mem_append_left between firstIn)).1
    have below : first.sequence < 0 + tally Event.sequences (start ++ between) :=
      (sequences_numbered.bounds outset taken rfl).2
    rw [number, tally_append]
    rw [Nat.zero_add] at below
    exact Nat.lt_of_lt_of_le below (Nat.le_add_right _ _)

end Trace

/-! ## The Ticks of a run -/

/-- A task that a Tick pops is due. -/
theorem due_of_popped (explained : Explained (@Explains Callback) events)
    (split : events = before ++ .ticked now :: (during ++ after)) (running : .returned ∉ during)
    (popped : .popped task ∈ during) : task.deadline ≤ now := by
  obtain ⟨left, right, rfl⟩ := List.append_of_mem popped
  have cut : events = before ++ .ticked now :: (left ++ .popped task :: (right ++ after)) := by
    rw [split]
    simp
  have outer : events = (before ++ .ticked now :: left) ++ .popped task :: (right ++ after) := by
    simp [cut]
  obtain ⟨_, ⟨time, current, due⟩, _⟩ := explained _ _ _ outer
  have quiet : .returned ∉ left := fun inside => running (List.mem_append_left _ inside)
  rw [tickOf_during explained cut quiet] at current
  cases current
  exact due

/-- A task that is pushed during a Tick has not been popped before. -/
theorem unpopped_of_pushed (explained : Explained (@Explains Callback) events)
    (split : events = before ++ after) (pushed : Pushed after task) : .popped task ∉ before := by
  intro popped
  obtain ⟨thread, member⟩ := pushed
  obtain ⟨left, right, rfl⟩ := List.append_of_mem member
  rw [← List.append_assoc] at split
  have earlier : Explained Explains (before ++ left) := by
    rw [split] at explained
    exact explained.of_append
  have already := popped_explained earlier (List.mem_append_left left popped)
  exact (explained _ _ _ split).2.1 task already rfl

/-- A check that a task passes found its id unmarked. -/
theorem unmarked_at_pass (run : TimerQueue.Reached events queue)
    (split : events = before ++ .passed task :: after) : task.id ∉ cancelledOf before := by
  obtain ⟨state, choice, next, prior, transition, -⟩ := run.at_event split
  rw [← cancelledTimers_eq prior]
  generalize passed : Event.passed task = event at transition
  cases TimerQueue.step_sound transition with
  | passed here unmarked =>
      cases passed
      exact unmarked
  | _ => cases passed

/-- What the Ticks of every run do. -/
theorem timer_dispatches (events : List (Event Callback)) (queue : TimerQueue Callback)
    (run : TimerQueue.Reached events queue) : TimerQueue.Dispatches events := by
  have explained := (consistent_of_runs run).explained
  constructor
  · exact fun before after queue _ prior => (consistent_of_runs prior).registered.tasks
  · intro before now during after queue split running reached task member
    have split' : events = (before ++ .ticked now :: during) ++ .returned :: after := by simp [split]
    obtain ⟨time, current, nothing⟩ := explained _ _ _ split'
    rw [tickOf_during explained split running] at current
    cases current
    have pending := ((consistent_of_runs reached).registered.tasks task).mp member
    apply nothing task
    simpa [Pending, Pushed] using pending
  · intro before now during after split running task entered
    obtain ⟨left, right, rfl⟩ := List.append_of_mem entered
    have cut : events = before ++ .ticked now :: (left ++ .entered task :: (right ++ after)) := by
      rw [split]
      simp
    have outer : events = (before ++ .ticked now :: left) ++ .entered task :: (right ++ after) := by
      simp [cut]
    obtain ⟨_, _, time, current, due⟩ := explained _ _ _ outer
    have quiet : .returned ∉ left := fun inside => running (List.mem_append_left _ inside)
    rw [tickOf_during explained cut quiet] at current
    cases current
    exact due
  · intro task entered
    have passed := entered_explained explained entered
    refine ⟨popped_of_entered explained entered, passed, ?_⟩
    obtain ⟨front, rest, cut⟩ := List.append_of_mem passed
    intro before after queue split reached
    rw [cancelledTimers_eq reached]
    rcases split with popped | passed
    · exact unmarked_of_passed explained popped cut (unmarked_at_pass run cut)
    · exact unmarked_at_pass run passed
  · intro before after queue first second split reached member differ
    have pending := ((consistent_of_runs reached).registered.tasks second).mp member
    refine ⟨(explained _ _ _ split).2.2.1 second pending differ.symm, fun front rest entered ran => ?_⟩
    exact entered_before explained split pending.2 differ entered ran
  · exact fun thread first other delay second order => sequence_lt explained order
  · intro before now during after queue split running reached task pushed later
    rw [(consistent_of_runs reached).registered.tasks task]
    have whole : events = before ++ (.ticked now :: during ++ .returned :: after) := by simp [split]
    refine ⟨?_, fun popped => ?_⟩
    · rcases pushed with ⟨⟨thread, member⟩, _⟩ | ⟨thread, member⟩
      · exact ⟨thread, by simp [member]⟩
      · exact ⟨thread, by simp [member]⟩
    · have inside : .popped task ∈ before ∨ .popped task ∈ during := by simpa using popped
      rcases inside with earlier | within
      · rcases pushed with pending | ⟨thread, member⟩
        · exact pending.2 earlier
        · exact unpopped_of_pushed explained whole ⟨thread, by simp [member]⟩ earlier
      · have due := due_of_popped explained split running within
        exact absurd later (Int64.not_lt.mpr due)
  · intro id
    apply explained.tally_le_one
    intro before event front explanation enters
    rw [tally_eq_zero_iff]
    intro earlier member
    by_contra also
    obtain ⟨task, rfl, same⟩ := enters_cases enters
    obtain ⟨other, rfl, sameToo⟩ := enters_cases (Bool.eq_true_of_not_eq_false also)
    obtain rfl := Pushed.unique front (popped_explained front (checked_explained front
      (.inr explanation.1))) (popped_explained front (popped_of_entered front member))
      (same.trans sameToo.symm)
    exact explanation.2.1 member

/-- A thread calls Schedule and goes through it, with one clock reading. -/
def schedules (thread : ThreadIndex) (delay : Duration) (reading : TimePoint) : List (Choice Unit) :=
  .schedule thread delay (some ()) :: List.replicate 4 (.advance thread reading)

/-- A Tick of four timers: the callback of the first schedules the fourth, due at
once, and cancels the third; the second was cancelled by another thread. -/
theorem four_timers_dispatch : ∃ events queue,
    @TimerQueue.Reached Unit events queue ∧ TimerQueue.Dispatches events ∧
    tally (Event.enters 1) events = 1 ∧ tally (Event.enters 2) events = 0 ∧
    tally (Event.enters 3) events = 0 ∧ tally (Event.enters 4) events = 1 ∧ .returned ∈ events := by
  obtain ⟨events, queue, run, shown⟩ := (TimerQueue.system Unit).runs_of_exec
    (fun _ _ _ _ => True) TimerQueue.constructed
    (schedules 0 0 10 ++ schedules 1 0 10 ++ schedules 0 1 10 ++ [.cancel 1 2, .tick 10] ++
      List.replicate 3 .dispatch ++ schedules 0 0 10 ++ [.cancel 0 3] ++
      List.replicate 8 .dispatch ++ [.tick 2000000] ++ List.replicate 3 .dispatch)
    (fun _ events => tally (Event.enters 1) events = 1 ∧ tally (Event.enters 2) events = 0 ∧
      tally (Event.enters 3) events = 0 ∧ tally (Event.enters 4) events = 1 ∧ .returned ∈ events)
    (by decide +kernel)
  exact ⟨events, queue, run, timer_dispatches events queue run, shown⟩

end MmoServer.Timer
