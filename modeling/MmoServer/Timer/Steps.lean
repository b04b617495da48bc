import MmoServer.Timer.TimerQueue

/-!
# The steps of TimerQueue

`TimerQueue.Step` lists what a step can do, and `step_sound` says that it lists
everything. All invariants go through it.
-/

namespace MmoServer.Timer

open MmoServer.Semantics MmoServer.Std

namespace TimerQueue

variable {Callback : Type} {queue next : TimerQueue Callback} {thread other : ThreadIndex}
  {state : Option (ScheduleState Callback)} {choice : Choice Callback} {event : Event Callback}

/-- A queue without a task that is due. -/
def NothingDue (queue : TimerQueue Callback) (now : TimePoint) : Prop :=
  ∀ task ∈ queue.tasks, now < task.deadline

/-- What a step of the queue can do. -/
inductive Step (queue : TimerQueue Callback) : TimerQueue Callback → Event Callback → Prop
  | refused {thread : ThreadIndex} (may : queue.mayCall thread = true) :
      Step queue queue (.refused thread)
  | called {thread : ThreadIndex} {delay callback} (may : queue.mayCall thread = true) :
      Step queue (queue.setCall thread (some (.takeId delay callback))) (.called thread delay)
  | issued {thread : ThreadIndex} {delay callback}
      (here : queue.calls thread = some (.takeId delay callback)) :
      Step queue
        ({ queue with nextId := queue.nextId + 1 }.setCall thread
          (some (.readClock queue.nextId delay callback)))
        (.issued thread queue.nextId)
  | readClock {thread : ThreadIndex} {id delay callback reading}
      (here : queue.calls thread = some (.readClock id delay callback)) :
      Step queue
        (queue.setCall thread (some (.takeSequence id (deadlineOf reading delay) callback)))
        (.readClock thread reading)
  | sequenced {thread : ThreadIndex} {id deadline callback}
      (here : queue.calls thread = some (.takeSequence id deadline callback)) :
      Step queue
        ({ queue with nextSequence := queue.nextSequence + 1 }.setCall thread
          (some (.push { id, deadline, sequence := queue.nextSequence, callback := some callback
                         state := .scheduled })))
        (.sequenced thread id queue.nextSequence)
  | pushed {thread : ThreadIndex} {task} (here : queue.calls thread = some (.push task)) :
      Step queue ({ queue with tasks := task :: queue.tasks }.setCall thread none)
        (.pushed thread task)
  | cancelled {thread : ThreadIndex} {id} (may : queue.mayCall thread = true) :
      Step queue { queue with cancelledTimers := insert id queue.cancelledTimers }
        (.cancelled thread id (id ∉ queue.cancelledTimers))
  | ticked {now} (idle : queue.tick = none) (free : queue.calls runtime = none) :
      Step queue { queue with tick := some (.pop now) } (.ticked now)
  | returned {now} (here : queue.tick = some (.pop now)) (nothing : queue.NothingDue now) :
      Step queue { queue with tick := none } .returned
  | popped {now task rest} (here : queue.tick = some (.pop now))
      (taken : (TimerTask.priority Callback).extract queue.tasks = some (task, rest))
      (due : task.deadline ≤ now) :
      Step queue { queue with tasks := rest, tick := some (.check now task) } (.popped task)
  | dropped {now task} (here : queue.tick = some (.check now task))
      (marked : task.id ∈ queue.cancelledTimers) :
      Step queue
        { queue with
          cancelledTimers := queue.cancelledTimers.erase task.id
          tick := some (.pop now) }
        (.dropped task)
  | passed {now task} (here : queue.tick = some (.check now task))
      (unmarked : task.id ∉ queue.cancelledTimers) :
      Step queue { queue with tick := some (.enter now task) } (.passed task)
  | skipped {now task} (here : queue.tick = some (.enter now task)) (empty : task.callback = none) :
      Step queue { queue with tick := some (.pop now) } (.left { task with state := .completed })
  | entered {now task callback} (here : queue.tick = some (.enter now task))
      (given : task.callback = some callback) :
      Step queue { queue with tick := some (.execute now { task with state := .executing }) }
        (.entered task)
  | left {now task} (here : queue.tick = some (.execute now task)) :
      Step queue { queue with tick := some (.pop now) } (.left { task with state := .completed })

theorem calls_of_mayCall (may : queue.mayCall thread = true) : queue.calls thread = none := by
  rw [mayCall, Bool.and_eq_true] at may
  exact Option.isNone_iff_eq_none.mp may.1

/-- The task that is taken is not due: then none is. -/
theorem nothingDue_of_extract {now : TimePoint} {task : TimerTask Callback}
    {rest : List (TimerTask Callback)}
    (taken : (TimerTask.priority Callback).extract queue.tasks = some (task, rest))
    (later : now < task.deadline) : queue.NothingDue now := by
  obtain ⟨same, least⟩ := (TimerTask.priority Callback).extract_spec taken
  intro other member
  rcases List.mem_cons.mp (same.subset member) with rfl | left
  · exact later
  · have order := TimerTask.greater_eq_false_iff.mp (least other left)
    have deadlines : task.deadline.toInt ≤ other.deadline.toInt := by
      rcases Prod.Lex.toLex_le_toLex.mp order with less | ⟨same, _⟩
      · exact le_of_lt less
      · exact le_of_eq same
    rw [Int64.lt_iff_toInt_lt] at later ⊢
    exact lt_of_lt_of_le later deadlines

theorem scheduleStep_sound (reading : TimePoint) {state : ScheduleState Callback}
    (here : queue.calls thread = some state) :
    Step queue (queue.scheduleStep thread reading state).1
      (queue.scheduleStep thread reading state).2 := by
  cases state with
  | takeId => exact .issued here
  | readClock => exact .readClock here
  | takeSequence => exact .sequenced here
  | push => exact .pushed here

theorem dispatchStep_sound {state : DispatchState Callback} (here : queue.tick = some state) :
    Step queue (queue.dispatchStep state).1 (queue.dispatchStep state).2 := by
  cases state with
  | pop now =>
      simp only [dispatchStep]
      split
      · next empty =>
        rw [Priority.extract_eq_none_iff] at empty
        refine .returned here ?_
        rw [NothingDue, empty]
        exact nofun
      · next task rest taken =>
        split
        · next later => exact .returned here (nothingDue_of_extract taken later)
        · next due => exact .popped here taken (Int64.not_lt.mp due)
  | check now task =>
      simp only [dispatchStep]
      split
      · next marked => exact .dropped here marked
      · next unmarked => exact .passed here unmarked
  | enter now task =>
      simp only [dispatchStep]
      split
      · next empty => exact .skipped here empty
      · next callback given => exact .entered here given
  | execute now task => exact .left here

/-- Every step is one of those. -/
theorem step_sound (transition : queue.step choice = some (next, event)) :
    Step queue next event := by
  cases choice with
  | schedule thread delay callback =>
      simp only [step] at transition
      split at transition
      · next may =>
        cases callback <;> cases transition
        · exact .refused may
        · exact .called may
      · cases transition
  | advance thread reading =>
      simp only [step, Option.map_eq_some_iff] at transition
      obtain ⟨state, here, same⟩ := transition
      have sound := scheduleStep_sound reading here
      rw [same] at sound
      exact sound
  | cancel thread id =>
      simp only [step] at transition
      split at transition
      · next may =>
        cases transition
        exact .cancelled may
      · cases transition
  | tick now =>
      simp only [step, Bool.and_eq_true, Option.isNone_iff_eq_none] at transition
      split at transition
      · next free =>
        cases transition
        exact .ticked free.2 free.1
      · cases transition
  | dispatch =>
      simp only [step] at transition
      split at transition
      · simp only [Option.map_eq_some_iff] at transition
        obtain ⟨state, here, same⟩ := transition
        have sound := dispatchStep_sound here
        rw [same] at sound
        exact sound
      · cases transition

end TimerQueue
end MmoServer.Timer
