import MmoServer.Runtime.JobDispatch.Barrier
import MmoServer.Runtime.JobDispatch.Duplicate

/-!
# The capacity of the ready queue

The queue holds as many items as a graph has nodes, so it never refuses a task
as long as every task is created once in each tick. Each duplicate is one item
more. `SurplusGuard` says that the tasks of the graph and the duplicates of the
tick together never exceed the capacity. A graph of up to 128 tasks needs no such
guard (`small_graph_never_refuses`); a fan-out of one task to 129 others does:
`queue_overflows`.
-/

namespace MmoServer.Runtime

open MmoServer.Std MmoServer.Semantics

namespace JobDispatch

/-- The creations of a tick beyond the first one of each task. -/
def surplus (graph : TaskGraph) (events : List Event) : Nat :=
  ∑ task ∈ graph.tasks, (created events task - 1)

/-- The tasks of the graph, the duplicates of this tick and the one that
SeedReadyQueue is about to make, fit the ready queue. -/
def SurplusGuard (graph : TaskGraph) : TransitionSystem.StepCondition JobDispatch Choice Event :=
  fun events _ _ event =>
    match event with
    | .scanned task 0 => 0 < releases (currentTick events) task →
      graph.tasks.card + surplus graph (currentTick events) < taskGraphMaxNodesV1
    | _ => True

/-- The task that SeedReadyQueue is about to make. -/
def zeroScan? : Event → Option TaskId
  | .scanned task 0 => some task
  | _ => none

theorem surplusGuard_iff {graph : TaskGraph} {events : List Event} {dispatch : JobDispatch}
    {choice : Choice} {event : Event} : SurplusGuard graph events dispatch choice event ↔
      ∀ task ∈ zeroScan? event, 0 < releases (currentTick events) task →
        graph.tasks.card + surplus graph (currentTick events) < taskGraphMaxNodesV1 := by
  unfold SurplusGuard zeroScan?
  split <;> simp

instance (graph : TaskGraph) (events : List Event) (dispatch : JobDispatch) (choice : Choice)
    (event : Event) : Decidable (SurplusGuard graph events dispatch choice event) :=
  decidable_of_iff _ surplusGuard_iff.symm

/-- The barrier does not open on an uncounted worker, and duplicates are few. -/
def CapacityGuard (graph : TaskGraph) : TransitionSystem.StepCondition JobDispatch Choice Event :=
  fun events dispatch choice event =>
    BarrierGuard events dispatch choice event ∧ SurplusGuard graph events dispatch choice event

instance (graph : TaskGraph) (events : List Event) (dispatch : JobDispatch) (choice : Choice)
    (event : Event) : Decidable (CapacityGuard graph events dispatch choice event) :=
  inferInstanceAs (Decidable (_ ∧ _))

variable {graph : TaskGraph} {dispatch next start finish : JobDispatch} {events : List Event}
  {event : Event} {worker : WorkerIndex} {choice : Choice} {task parent child : TaskId}

/-- What an event adds to the creations of a task. -/
theorem created_concat (events : List Event) (event : Event) (task : TaskId) :
    created (events ++ [event]) task = created events task +
      (if event.zeroScans task then 1 else 0) + if event.releases task then 1 else 0 := by
  simp only [created, zeroScans, releases, tally_concat]
  omega

/-- The surplus grows by one with a zero scan of a task created before, and with
nothing else, because a release is a first creation. -/
theorem surplus_concat (events : List Event) (event : Event)
    (first : ∀ task ∈ graph.tasks, event.releases task = true → created events task = 0) :
    surplus graph (events ++ [event]) ≤ surplus graph events ∨
      ∃ task, event = .scanned task 0 ∧ 0 < created events task ∧
        surplus graph (events ++ [event]) ≤ surplus graph events + 1 := by
  by_cases again : ∃ task, event = .scanned task 0 ∧ 0 < created events task
  · obtain ⟨task, rfl, positive⟩ := again
    refine .inr ⟨task, rfl, positive, ?_⟩
    have each : ∀ other ∈ graph.tasks, created (events ++ [.scanned task 0]) other - 1 ≤
        (created events other - 1) + if other = task then 1 else 0 := by
      intro other _
      rw [created_concat]
      by_cases same : other = task
      · subst same
        simp
        omega
      · simp [same, Ne.symm same]
    refine Nat.le_trans (Finset.sum_le_sum each) ?_
    rw [Finset.sum_add_distrib, Finset.sum_ite_eq']
    refine Nat.add_le_add_left ?_ _
    split <;> omega
  · refine .inl (Finset.sum_le_sum fun other member => ?_)
    rw [created_concat]
    by_cases released : event.releases other = true
    · have apart : event.zeroScans other = false := by
        cases event <;> simp_all
      rw [first other member released, released, apart]
      decide
    · by_cases scanned : event.zeroScans other = true
      · have unborn : created events other = 0 := by
          by_contra positive
          cases event with
          | scanned task remaining =>
              obtain ⟨rfl, rfl⟩ : task = other ∧ remaining = 0 := by simpa using scanned
              exact again ⟨task, rfl, Nat.pos_of_ne_zero positive⟩
          | _ => cases scanned
        rw [unborn, scanned, if_neg released]
        decide
      · rw [if_neg released, if_neg scanned]
        exact Nat.le_refl _

/-- The tasks of the graph and the duplicates of the tick fit the queue. -/
def Fits (graph : TaskGraph) (events : List Event) : Prop :=
  graph.tasks.card + surplus graph events ≤ taskGraphMaxNodesV1

theorem Fits.step (fits : Fits graph (currentTick events)) (wellFormed : graph.WellFormed)
    (session : Session graph events dispatch) (moved : SystemStep dispatch choice next event)
    (guard : SurplusGuard graph events dispatch choice event)
    (after : Session graph (events ++ [event]) next) :
    Fits graph (currentTick (events ++ [event])) := by
  have scheduled := after.tick.schedule
  rw [currentTick_concat] at scheduled ⊢
  split
  · next first =>
    have none : surplus graph [event] = 0 := by
      subst first
      simp [surplus, created, zeroScans, releases, tally]
    have size := wellFormed.card_tasks_le
    rw [Fits, none]
    omega
  · next later =>
    rw [if_neg later] at scheduled
    have size : graph.tasks.card + surplus graph (currentTick events) ≤ taskGraphMaxNodesV1 := fits
    have outcome := surplus_concat (currentTick events) event fun task (_ : task ∈ graph.tasks) =>
      session.tick.created_of_release wellFormed moved
    rcases outcome with same | ⟨task, rfl, positive, more⟩
    · exact Nat.le_trans (Nat.add_le_add_left same _) size
    · -- The tick scans the task only once, so a worker has released it.
      have member := session.tick.placement.tasks task positive
      have once := scheduled.scanCount_le member
      have fewer := zeroScans_le_scanCount (currentTick events) task
      have shown : scanCount (currentTick events ++ [.scanned task 0]) task =
          scanCount (currentTick events) task + 1 := by simp [scanCount]
      have room : graph.tasks.card + surplus graph (currentTick events) < taskGraphMaxNodesV1 := by
        apply guard
        rw [created] at positive
        omega
      rw [Fits]
      omega

/-- All creations of a tick together fit the queue. -/
theorem Fits.sum_created_le (fits : Fits graph events) :
    ∑ task ∈ graph.tasks, created events task ≤ taskGraphMaxNodesV1 := by
  have each : ∑ task ∈ graph.tasks, created events task ≤
      ∑ task ∈ graph.tasks, (1 + (created events task - 1)) := by
    apply Finset.sum_le_sum
    intro task _
    omega
  rw [Finset.sum_add_distrib, Finset.sum_const, smul_eq_mul, Nat.mul_one] at each
  exact Nat.le_trans each fits

/-- A task that is about to be enqueued is created and not queued yet, so it finds room. -/
theorem Placement.room (placement : Placement graph events dispatch) (fits : Fits graph events)
    (offered : 0 < dispatch.main.offers task +
      threadSum (WorkerState.offers task) dispatch.workers) :
    dispatch.readyQueue.items.length < taskGraphMaxNodesV1 := by
  have balance := placement.balance task
  have member := placement.tasks task (by omega)
  have length : ∑ each ∈ graph.tasks, dispatch.readyQueue.items.count each =
      dispatch.readyQueue.items.length := by
    have queued : ∀ each ∈ (dispatch.readyQueue.items : Multiset TaskId), each ∈ graph.tasks :=
      fun each queued => placement.queued_mem queued
    simpa using Multiset.sum_count_eq_card queued
  have fewer : ∑ each ∈ graph.tasks, dispatch.readyQueue.items.count each <
      ∑ each ∈ graph.tasks, created events each := by
    apply Finset.sum_lt_sum
    · intro each _
      have balance := placement.balance each
      omega
    · exact ⟨task, member, by omega⟩
  have total := fits.sum_created_le
  omega

/-- A refused Enqueue found the queue full and a thread about to enqueue the task. -/
theorem offered_of_refused (moved : SystemStep dispatch choice next (.enqueued task false)) :
    dispatch.readyQueue.items.length = taskGraphMaxNodesV1 ∧
      0 < dispatch.main.offers task + threadSum (WorkerState.offers task) dispatch.workers := by
  generalize shown : Event.enqueued task false = event at moved
  cases moved with
  | main moved =>
      cases moved with
      | @seedEnqueue phase position item here =>
          obtain ⟨rfl, refused⟩ := Event.enqueued.inj shown
          rcases BoundedQueue.enqueue_cases dispatch.readyQueue task with
            ⟨_, accepted, _⟩ | ⟨full, _, _⟩
          · exact absurd (refused.trans accepted) nofun
          · exact ⟨full, by rw [here, MainState.offers, MainState.offer?, if_pos rfl]; omega⟩
      | _ => cases shown
  | @worker index _ _ moved =>
      cases moved with
      | @enqueue parent phase position item here =>
          obtain ⟨rfl, refused⟩ := Event.enqueued.inj shown
          rcases BoundedQueue.enqueue_cases dispatch.readyQueue task with
            ⟨_, accepted, _⟩ | ⟨full, _, _⟩
          · exact absurd (refused.trans accepted) nofun
          · have weight := weight_le_threadSum (WorkerState.offers task) dispatch.workers index
            rw [here, WorkerState.offers, WorkerState.offer?, if_pos rfl] at weight
            exact ⟨full, by omega⟩
      | _ => cases shown
  | _ => cases shown

/-- As long as the creations of the tick fit the queue, no Enqueue is refused. -/
theorem Session.not_refused (session : Session graph events dispatch)
    (fits : Fits graph (currentTick events)) :
    ¬ SystemStep dispatch choice next (.enqueued task false) := by
  intro moved
  obtain ⟨full, offered⟩ := offered_of_refused moved
  have room := session.tick.placement.room fits offered
  omega

/-- Every task is created twice at most, so the duplicates of a graph that fills
half of the queue fit the other half. -/
theorem Session.fits_of_small (session : Session graph events dispatch)
    (small : graph.tasks.card ≤ 128) : Fits graph (currentTick events) := by
  have twice : surplus graph (currentTick events) ≤ ∑ _task ∈ graph.tasks, 1 := by
    apply Finset.sum_le_sum
    intro task _
    have created := session.tick.counters.created_le session.tick.schedule
      session.tick.placement task
    omega
  rw [Finset.sum_const, smul_eq_mul, Nat.mul_one] at twice
  have size : taskGraphMaxNodesV1 = 256 := rfl
  rw [Fits]
  omega

/-- In every session of a graph of at most 128 tasks in which the barrier never
reads a zero count while a worker is uncounted, every Enqueue succeeds. -/
theorem small_graph_never_refuses (wellFormed : graph.WellFormed)
    (small : graph.tasks.card ≤ 128) (rest : AtRest graph start)
    (run : system.RunsUnder BarrierGuard start events finish) (inOrder : InPhaseOrder events)
    (notShutdown : .calledShutdown ∉ events) (task : TaskId) :
    .enqueued task false ∉ events := by
  intro refused
  obtain ⟨before, after, split⟩ := List.append_of_mem refused
  obtain ⟨state, choice, next, prior, transition, _⟩ := run.at_event split
  obtain ⟨session, _⟩ := session_rule (fun _ _ => True) wellFormed rest prior
    (fun _ _ _ _ guard => guard) (inOrder.of_prefix (split ▸ List.prefix_append _ _))
    (fun member => notShutdown (split ▸ List.mem_append_left _ member)) trivial
    (fun _ _ _ _ _ => trivial)
  exact session.not_refused (session.fits_of_small small) (step_sound transition)

/-- In every session in which the barrier never reads a zero count while a
worker stands between an Enqueue and its increment, and in which the tasks of
the graph and the duplicates of each tick together do not exceed its capacity,
every Enqueue succeeds. -/
theorem queue_never_refuses (wellFormed : graph.WellFormed) (rest : AtRest graph start)
    (run : system.RunsUnder (CapacityGuard graph) start events finish)
    (inOrder : InPhaseOrder events) (notShutdown : .calledShutdown ∉ events) (task : TaskId) :
    .enqueued task false ∉ events := by
  intro refused
  obtain ⟨before, after, split⟩ := List.append_of_mem refused
  obtain ⟨state, choice, next, prior, transition, _⟩ := run.at_event split
  obtain ⟨session, fits⟩ := session_rule (fun events _ => Fits graph (currentTick events))
    wellFormed rest prior (fun _ _ _ _ permitted => permitted.1)
    (inOrder.of_prefix (split ▸ List.prefix_append _ _))
    (fun member => notShutdown (split ▸ List.mem_append_left _ member))
    (by
      have none : surplus graph (currentTick []) = 0 :=
        Finset.sum_eq_zero fun _ _ => rfl
      rw [Fits, none]
      exact wellFormed.card_tasks_le)
    fun session fits moved guard after => fits.step wellFormed session moved guard.2 after
  exact session.not_refused fits (step_sound transition)

/-- The chain run with a duplicate of task 1: all four Enqueues succeed. -/
theorem linear_queue_never_refuses : ∃ events finish,
    system.Runs (started .linearGraph .full 1) events finish ∧ enqueues events 1 = 2 ∧
    ∀ task, .enqueued task false ∉ events := by
  obtain ⟨events, finish, run, called, notShutdown, twice⟩ := system.runs_of_exec
    (CapacityGuard .linearGraph) (started .linearGraph .full 1)
    (callThen .input 10 ++ work 0 7 ++ List.replicate 3 .main ++ work 0 16)
    (fun _ events => calledPhases events = [.input] ∧ Event.calledShutdown ∉ events ∧
      enqueues events 1 = 2)
    (by decide +kernel)
  exact ⟨events, finish, run.runs, twice, queue_never_refuses TaskGraph.linearGraph_wellFormed
    (started_atRest (TaskRegistry.validate_full TaskGraph.linearGraph_wellFormed) 1) run
    (InPhaseOrder.of_input called) notShutdown⟩

/-- Without the guard it fails on a fan-out of one task to 129 others with one
worker. The worker executes task 0 and queues its 129 children before the scan
gets to them. The scan finds all their counters at zero, queues 127 of them
again, and the next Enqueue is refused. -/
theorem queue_overflows : ¬ ∀ (graph : TaskGraph) (start finish : JobDispatch)
    (events : List Event) (task : TaskId), graph.WellFormed → AtRest graph start →
    system.Runs start events finish → InPhaseOrder events → .calledShutdown ∉ events →
    .enqueued task false ∉ events := by
  intro claim
  have wellFormed : (TaskGraph.fanOutGraph 129).WellFormed :=
    TaskGraph.fanOutGraph_wellFormed (by decide)
  obtain ⟨events, finish, run, called, notShutdown, refused⟩ := system.runs_of_exec
    (fun _ _ _ _ => True) (started (.fanOutGraph 129) .full 1)
    (callThen .input 137 ++ work 0 392 ++ List.replicate 383 .main)
    (fun _ events => calledPhases events = [.input] ∧ Event.calledShutdown ∉ events ∧
      Event.enqueued 128 false ∈ events)
    (by decide +kernel)
  exact claim (.fanOutGraph 129) _ finish events 128 wellFormed
    (started_atRest (TaskRegistry.validate_full wellFormed) 1) run (InPhaseOrder.of_input called)
    notShutdown refused

end JobDispatch
end MmoServer.Runtime
