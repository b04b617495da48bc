import MmoServer.Runtime.JobDispatch.Lifecycle

/-!
# What Shutdown leaves behind

Shutdown stops the workers and joins them, then clears the counters, the epoch
and the phase. It does not drain the ready queue: it relies on the barrier for
that. When the barrier has opened early (see `BarrierGuard`), a worker that was
still releasing successors queues them after the pool was stopped, every worker
leaves its loop, and the tasks wait in the queue for the next session:
`shutdown_keeps_task`. Under the guard Shutdown returns a fresh dispatcher, and
whatever happens afterwards is a run of a fresh one.
-/

namespace MmoServer.Runtime

open MmoServer.Std MmoServer.Semantics

/-- One for a worker that has dequeued the task and not begun it. -/
def WorkerState.unbegun (task : TaskId) (state : WorkerState) : Nat :=
  if state = .execute task then 1 else 0

namespace JobDispatch

/-- Nothing is dequeued that was not queued, and nothing begun or completed that
was not dequeued. -/
structure Provenance (events : List Event) (dispatch : JobDispatch) : Prop where
  queued : ∀ task, dispatch.readyQueue.items.count task + dequeues events task ≤
    enqueues events task
  begun : ∀ task, threadSum (WorkerState.unbegun task) dispatch.workers + begins events task ≤
    dequeues events task
  held : ∀ task, threadSum (WorkerState.holds task) dispatch.workers + completions events task ≤
    dequeues events task

/-- When Shutdown returns the dispatcher is a fresh one, and the rest of the run
is a run of a fresh dispatcher: it dequeues, executes and completes no task more
often than it has enqueued it itself. -/
def LeavesNothing (events : List Event) (finish : JobDispatch) : Prop :=
  (∀ before, events = before ++ [.returnedShutdown] → finish = fresh) ∧
  ∀ before after, events = before ++ .returnedShutdown :: after →
    system.Runs fresh after finish ∧ ∀ task, dequeues after task ≤ enqueues after task ∧
      begins after task ≤ dequeues after task ∧ completions after task ≤ dequeues after task

variable {graph : TaskGraph} {dispatch next start finish : JobDispatch} {events : List Event}
  {event : Event} {worker : WorkerIndex} {choice : Choice} {task : TaskId}

theorem Provenance.fresh : Provenance [] fresh := by
  have none : ∀ weight : WorkerState → Nat, weight .unstarted = 0 →
      threadSum weight JobDispatch.fresh.workers = 0 :=
    fun weight zero => threadSum_eq_zero_iff.mpr fun _ => zero
  constructor
  · intro task
    exact Nat.le_refl 0
  · intro task
    rw [none (WorkerState.unbegun task) rfl]
    exact Nat.le_refl 0
  · intro task
    rw [none (WorkerState.holds task) rfl]
    exact Nat.le_refl 0

/-- One thread moves and trades what it holds for what its event shows. -/
theorem Provenance.move (provenance : Provenance events dispatch) {state : WorkerState}
    (workers : next.workers = Function.update dispatch.workers worker state)
    (queued : ∀ task, next.readyQueue.items.count task + (if event.dequeues task then 1 else 0) ≤
      dispatch.readyQueue.items.count task + if event.enqueues task then 1 else 0)
    (begun : ∀ task, state.unbegun task + (if event.begins task then 1 else 0) ≤
      (dispatch.workers worker).unbegun task + if event.dequeues task then 1 else 0)
    (held : ∀ task, state.holds task + (if event.completes task then 1 else 0) ≤
      (dispatch.workers worker).holds task + if event.dequeues task then 1 else 0) :
    Provenance (events ++ [event]) next := by
  constructor
  · intro task
    have before := provenance.queued task
    have trade := queued task
    simp only [dequeues, enqueues, tally_concat] at before trade ⊢
    omega
  · intro task
    have before := provenance.begun task
    have trade := begun task
    have total := threadSum_update (WorkerState.unbegun task) dispatch.workers worker state
    rw [workers]
    simp only [dequeues, begins, tally_concat] at before trade ⊢
    omega
  · intro task
    have before := provenance.held task
    have trade := held task
    have total := threadSum_update (WorkerState.holds task) dispatch.workers worker state
    rw [workers]
    simp only [dequeues, completions, tally_concat] at before trade ⊢
    omega

/-- A refused or accepted Enqueue adds at most one item. -/
theorem count_enqueue_le (queue : BoundedQueue TaskId taskGraphMaxNodesV1) (item task : TaskId) :
    (queue.enqueue item).1.items.count task ≤
      queue.items.count task + if item = task then 1 else 0 := by
  rcases BoundedQueue.enqueue_cases queue item with ⟨_, _, items⟩ | ⟨_, _, same⟩
  · rw [items, List.count_append, List.count_singleton]
    simp
  · rw [same]
    exact Nat.le_add_right _ _

theorem Provenance.workerStep (provenance : Provenance events dispatch)
    (moved : WorkerStep dispatch worker next event) : Provenance (events ++ [event]) next := by
  cases moved with
  | @enqueue task phase position child here =>
      refine provenance.move rfl (fun other => ?_) (fun other => ?_) fun other => ?_
      · simpa [setWorker] using count_enqueue_le dispatch.readyQueue child other
      · simp [here, WorkerState.unbegun]
      · simp [here, WorkerState.holds, WorkerState.task?]
  | @dequeue task rest here taken =>
      have items := BoundedQueue.dequeue_eq_some taken
      refine provenance.move rfl (fun other => ?_) (fun other => ?_) fun other => ?_
      · simp only [setWorker, items, List.count_cons]
        simp
      · simp [here, WorkerState.unbegun]
      · simp [here, WorkerState.holds, WorkerState.task?]
  | checkRunning here =>
      refine provenance.move rfl (fun other => ?_) (fun other => ?_) fun other => ?_
      all_goals
        try split
        all_goals simp [here, setWorker, WorkerState.unbegun, WorkerState.holds, WorkerState.task?]
  | subActive here =>
      refine provenance.move rfl (fun other => ?_) (fun other => ?_) fun other => ?_
      all_goals
        try split
        all_goals simp [here, setWorker, WorkerState.unbegun, WorkerState.holds, WorkerState.task?]
  | fault task counters cause =>
      refine provenance.move rfl (fun other => ?_) (fun other => ?_) fun other => ?_
      all_goals simp [setWorker, WorkerState.unbegun, WorkerState.holds, WorkerState.task?]
  | _ here =>
      refine provenance.move rfl (fun other => ?_) (fun other => ?_) fun other => ?_
      all_goals simp [here, setWorker, WorkerState.unbegun, WorkerState.holds, WorkerState.task?]

/-- A step that moves no thread of the pool. -/
theorem Provenance.keep (provenance : Provenance events dispatch)
    (workers : next.workers = dispatch.workers)
    (quiet : ∀ task, event.dequeues task = false ∧ event.begins task = false ∧
      event.completes task = false)
    (queued : ∀ task, next.readyQueue.items.count task ≤
      dispatch.readyQueue.items.count task + if event.enqueues task then 1 else 0) :
    Provenance (events ++ [event]) next := by
  have same := workers.trans (Function.update_eq_self (0 : WorkerIndex) dispatch.workers).symm
  refine provenance.move same (fun task => ?_) (fun task => ?_) fun task => ?_
  all_goals
    obtain ⟨dequeued, begun, completed⟩ := quiet task
    simp only [dequeued, begun, completed, Bool.false_eq_true, if_false, Nat.add_zero]
  · exact queued task
  · exact Nat.le_refl _
  · exact Nat.le_refl _

theorem Provenance.mainStep (provenance : Provenance events dispatch)
    (moved : MainStep dispatch next event) : Provenance (events ++ [event]) next := by
  have idle : ∀ {state : WorkerState}, state = .checkRunning ∨ state = .unstarted → ∀ task,
      state.unbegun task = 0 ∧ state.holds task = 0 := by
    rintro state (rfl | rfl) task <;> exact ⟨rfl, rfl⟩
  cases moved with
  | seedEnqueue =>
      exact provenance.keep rfl (fun _ => ⟨rfl, rfl, rfl⟩) fun other => by
        simpa using count_enqueue_le dispatch.readyQueue _ other
  | @startWorker index here more slot =>
      refine provenance.move rfl (fun task => ?_) (fun task => ?_) fun task => ?_
      · exact Nat.le_refl _
      · exact (idle (.inl rfl) task).1 ▸ Nat.zero_le _
      · exact (idle (.inl rfl) task).2 ▸ Nat.zero_le _
  | @join index here more slot finished =>
      refine provenance.move rfl (fun task => ?_) (fun task => ?_) fun task => ?_
      · exact Nat.le_refl _
      · exact (idle (.inr rfl) task).1 ▸ Nat.zero_le _
      · exact (idle (.inr rfl) task).2 ▸ Nat.zero_le _
  | _ => exact provenance.keep rfl (fun _ => ⟨rfl, rfl, rfl⟩) fun _ => Nat.le_add_right _ _

theorem Provenance.step (provenance : Provenance events dispatch)
    (moved : SystemStep dispatch choice next event) : Provenance (events ++ [event]) next := by
  cases moved with
  | worker moved => exact provenance.workerStep moved
  | main moved => exact provenance.mainStep moved
  | _ => exact provenance.keep rfl (fun _ => ⟨rfl, rfl, rfl⟩) fun _ => Nat.le_add_right _ _

/-- Every run of a fresh dispatcher accounts for what it executes. -/
theorem provenance_invariant (run : system.Runs fresh events finish) :
    Provenance events finish := by
  apply run.invariant Provenance .fresh
  intro events dispatch choice next event _ provenance transition _
  exact provenance.step (step_sound transition)

/-- Under the guard a dispatcher goes from stage to stage, and is a fresh one
whenever Shutdown returns. -/
theorem lifecycle_invariant (run : system.RunsUnder SessionGuard fresh events finish) :
    Lifecycle events finish ∧
      ∀ before, events = before ++ [Event.returnedShutdown] → finish = fresh := by
  apply run.invariant fun events dispatch => Lifecycle events dispatch ∧
    ∀ before, events = before ++ [Event.returnedShutdown] → dispatch = fresh
  · exact ⟨.down (.inl rfl), fun before empty => by simp at empty⟩
  · rintro events dispatch choice next event _ ⟨lifecycle, _⟩ transition permitted
    obtain ⟨after, returned⟩ := lifecycle.step (step_sound transition) permitted
    refine ⟨after, fun before same => returned ?_⟩
    simpa using (List.append_inj' same rfl).2

/-- In every sequence of sessions in which the barrier never reads a zero count
while a worker stands between an Enqueue and its increment, every Shutdown
returns a fresh dispatcher, and no task of an earlier session reaches a later
one. -/
theorem shutdown_leaves_nothing (run : system.RunsUnder SessionGuard fresh events finish) :
    LeavesNothing events finish := by
  constructor
  · exact (lifecycle_invariant run).2
  · intro before after cut
    rw [← List.singleton_append, ← List.append_assoc] at cut
    obtain ⟨middle, first, second⟩ := run.split cut
    obtain rfl := (lifecycle_invariant first).2 before rfl
    refine ⟨second.runs, fun task => ?_⟩
    have invariant := provenance_invariant second.runs
    have queued := invariant.queued task
    have begun := invariant.begun task
    have held := invariant.held task
    omega

/-- A session on the chain, its shutdown, and a second session on the diamond
that begins task 0. -/
theorem linear_shutdown_leaves_nothing : ∃ events finish,
    system.Runs fresh events finish ∧ .returnedShutdown ∈ events ∧ begins events 2 = 1 ∧
    begins events 0 = 2 ∧ LeavesNothing events finish := by
  have graphs : ∀ choice ∈ (.call (.initializeWith .linearGraph .full 1) ::
      List.replicate 4 .main ++ callThen .input 13 ++ work 0 29 ++ [.main, .call .shutdown, .main] ++
      work 0 1 ++ List.replicate 262 .main ++ .call (.initializeWith .diamondGraph .full 1) ::
      List.replicate 4 .main ++ callThen .input 10 ++ work 0 3 : List Choice),
      choice.WellFormed := by
    simp [-List.reduceReplicate, callThen, work, or_imp, forall_and, Choice.WellFormed,
      TaskGraph.linearGraph_wellFormed, TaskGraph.diamondGraph_wellFormed]
  obtain ⟨events, finish, run, returned, executed, again⟩ := system.runs_of_exec_admitted
    (fun events dispatch choice event =>
      PhaseOrder events dispatch choice event ∧ BarrierGuard events dispatch choice event) fresh _
    (fun _ events => Event.returnedShutdown ∈ events ∧ begins events 2 = 1 ∧ begins events 0 = 2)
    graphs (by decide +kernel)
  refine ⟨events, finish, run.runs, returned, executed, again, shutdown_leaves_nothing ?_⟩
  exact run.mono fun _ _ _ _ permitted => ⟨⟨permitted.1.1, permitted.2⟩, permitted.1.2⟩

/-- Without the guard it fails on the diamond with two workers: one has enqueued
task 1 and not counted it yet, the other completes it, ExecutePhase returns and
Shutdown is called. The first worker then queues task 2, and the two leave their
loops. -/
theorem shutdown_keeps_task : ¬ ∀ events finish, system.RunsUnder SessionOrder fresh events finish →
    LeavesNothing events finish := by
  intro claim
  have graphs : ∀ choice ∈ (.call (.initializeWith .diamondGraph .full 2) ::
      List.replicate 5 .main ++ callThen .input 15 ++ work 0 7 ++ work 1 8 ++
      [.main, .call .shutdown, .main] ++ work 0 7 ++ work 1 3 ++ List.replicate 263 .main :
      List Choice), choice.WellFormed := by
    simp [-List.reduceReplicate, callThen, work, or_imp, forall_and, Choice.WellFormed,
      TaskGraph.diamondGraph_wellFormed]
  obtain ⟨events, finish, run, last, kept⟩ := system.runs_of_exec_admitted PhaseOrder fresh _
    (fun finish events => events.getLast? = some Event.returnedShutdown ∧
      finish.readyQueue.items = [2]) graphs (by decide +kernel)
  obtain ⟨before, rfl⟩ := List.getLast?_eq_some_iff.mp last
  rw [(claim _ finish run).1 before rfl] at kept
  cases kept

end JobDispatch
end MmoServer.Runtime
