import MmoServer.Runtime.JobDispatch.Flow

/-!
# The scan of one tick

A tick calls ExecutePhase for the four phases in order, and SeedReadyQueue scans
the nodes of each phase in range order. Ranking the tasks of a well-formed graph
by phase and position makes that one scan over all of them: `frontier` says how
far it has come, and a task has been scanned exactly when it ranks below.
-/

namespace MmoServer.Runtime

open MmoServer.Std MmoServer.Semantics

namespace TaskGraph

variable (graph : TaskGraph)

/-- The place of a task in the order in which a tick scans the graph. -/
def rank (task : TaskId) : Nat :=
  (graph.phaseOf task).index * taskGraphMaxNodesV1 +
    (graph.taskIdToNodeIndex.peek task - (graph.phaseRange (graph.phaseOf task)).begin)

variable {graph} {task other : TaskId} {phase : RuntimePhaseId} {position : Nat}

namespace WellFormed

variable (wellFormed : graph.WellFormed)

include wellFormed

/-- A phase has no more tasks than the table has slots. -/
theorem range_count_le (phase : RuntimePhaseId) :
    (graph.phaseRange phase).count ≤ taskGraphMaxNodesV1 := by
  have limit := wellFormed.nodeCount_le
  rcases wellFormed.range_le phase with empty | fits <;> omega

/-- The task at a position of a phase range. -/
theorem task_of_range (inside : position < (graph.phaseRange phase).count) :
    graph.phaseOf (graph.node ((graph.phaseRange phase).begin + position)).id = phase ∧
      graph.rank (graph.node ((graph.phaseRange phase).begin + position)).id =
        phase.index * taskGraphMaxNodesV1 + position := by
  obtain ⟨within, here⟩ := wellFormed.node_of_range inside
  have at_phase : graph.phaseOf (graph.node ((graph.phaseRange phase).begin + position)).id =
      phase := by
    rw [phaseOf, wellFormed.nodeOf_id within, here]
  refine ⟨at_phase, ?_⟩
  rw [rank, at_phase, wellFormed.index_of_id _ within, Nat.add_sub_cancel_left]

/-- The rank of a task is a position of its phase range. -/
theorem rank_eq (member : task ∈ graph.tasks) :
    ∃ position < (graph.phaseRange (graph.phaseOf task)).count,
      graph.rank task = (graph.phaseOf task).index * taskGraphMaxNodesV1 + position ∧
      (graph.node ((graph.phaseRange (graph.phaseOf task)).begin + position)).id = task := by
  obtain ⟨position, inside, id⟩ := wellFormed.range_of_task member
  refine ⟨position, inside, ?_, id⟩
  have ranked := (wellFormed.task_of_range inside).2
  rwa [id] at ranked

/-- A tick scans no two tasks at the same place. -/
theorem rank_injective (member : task ∈ graph.tasks) (memberOther : other ∈ graph.tasks)
    (same : graph.rank task = graph.rank other) : task = other := by
  obtain ⟨position, inside, ranked, id⟩ := wellFormed.rank_eq member
  obtain ⟨place, within, rankedOther, idOther⟩ := wellFormed.rank_eq memberOther
  have small := wellFormed.range_count_le (graph.phaseOf task)
  have smallOther := wellFormed.range_count_le (graph.phaseOf other)
  have limit : taskGraphMaxNodesV1 = 256 := rfl
  rw [limit] at ranked rankedOther small smallOther
  have phases : graph.phaseOf task = graph.phaseOf other :=
    RuntimePhaseId.index_injective (by omega)
  have places : position = place := by
    rw [phases] at ranked
    omega
  rw [← id, ← idOther, phases, places]

/-- The tasks of a phase rank below those of the next. -/
theorem rank_lt_of_phase (member : task ∈ graph.tasks) :
    graph.rank task < ((graph.phaseOf task).index + 1) * taskGraphMaxNodesV1 := by
  obtain ⟨position, inside, ranked, _⟩ := wellFormed.rank_eq member
  have small := wellFormed.range_count_le (graph.phaseOf task)
  have limit : taskGraphMaxNodesV1 = 256 := rfl
  rw [limit] at ranked small ⊢
  omega

/-- No task has more than 256 parents. -/
theorem parentCount_le (member : task ∈ graph.tasks) :
    (graph.nodeOf task).parentCount ≤ 256 := by
  rw [wellFormed.parentCount_eq_inDegree member]
  exact wellFormed.inDegree_le

end WellFormed
end TaskGraph

theorem RuntimePhaseId.index_eq_zero {phase : RuntimePhaseId} :
    phase.index = 0 ↔ phase = .input := by
  cases phase <;> decide

namespace JobDispatch

/-- How far a tick's scan has come: the tasks ranked below have been scanned. -/
def frontier (events : List Event) : MainState → Nat
  | .loadRunning _ | .storePhase _ | .build _ | .loadSeedPhase =>
    (calls events - 1) * taskGraphMaxNodesV1
  | .seed _ position => (calls events - 1) * taskGraphMaxNodesV1 + position
  | .seedEnqueue _ position _ | .seedAdd _ position =>
    (calls events - 1) * taskGraphMaxNodesV1 + (position + 1)
  | _ => calls events * taskGraphMaxNodesV1

/-- The counters of this tick have been set. -/
def Built (events : List Event) : Prop := .builtRuntimeState ∈ events

/-- Where the runtime thread is, against the calls it has made in this tick. -/
def MainOk (graph : TaskGraph) (events : List Event) (dispatch : JobDispatch) : Prop :=
  match dispatch.main with
  | .idle => (calls events = 0 ∧ ¬ Built events) ∨
    (calls events = dispatch.currentPhase.index + 1 ∧ Built events)
  | .loadRunning phase | .storePhase phase =>
    calls events = phase.index + 1 ∧ (Built events ↔ phase ≠ .input)
  | .build _ => calls events = 1 ∧ dispatch.currentPhase = .input ∧ ¬ Built events
  | .loadSeedPhase | .waitActive | .waitEpoch | .waitRecheck _ | .waitBlocked _ =>
    calls events = dispatch.currentPhase.index + 1 ∧ Built events
  | .seed phase position =>
    (dispatch.currentPhase = phase ∧ calls events = phase.index + 1 ∧ Built events) ∧
      position ≤ (graph.phaseRange phase).count
  | .seedEnqueue phase position _ | .seedAdd phase position =>
    (dispatch.currentPhase = phase ∧ calls events = phase.index + 1 ∧ Built events) ∧
      position < (graph.phaseRange phase).count
  | _ => False

/-- The scan of a tick visits the tasks in rank order, each once. -/
structure Schedule (graph : TaskGraph) (events : List Event) (dispatch : JobDispatch) : Prop where
  main : MainOk graph events dispatch
  scanned : ∀ task ∈ graph.tasks,
    scanCount events task = if graph.rank task < frontier events dispatch.main then 1 else 0

variable {graph : TaskGraph} {dispatch next : JobDispatch} {events : List Event} {event : Event}
  {worker : WorkerIndex} {choice : Choice} {task parent child : TaskId}

/-! ## The scan -/

/-- The counters have been built before, or are now. -/
theorem built_concat : Built (events ++ [event]) ↔ Built events ∨ event = .builtRuntimeState := by
  simp only [Built, List.mem_append, List.mem_singleton, eq_comm]

/-- The thread moves on without scanning, and the scanned tasks stay the same. -/
theorem Schedule.advance (schedule : Schedule graph events dispatch)
    (main : MainOk graph (events ++ [event]) next) (noScan : ∀ task, event.scans task = false)
    (front : ∀ task ∈ graph.tasks, graph.rank task < frontier (events ++ [event]) next.main ↔
      graph.rank task < frontier events dispatch.main) :
    Schedule graph (events ++ [event]) next := by
  constructor
  · exact main
  · intro task member
    have scanned := schedule.scanned task member
    rw [scanCount] at scanned ⊢
    rw [tally_concat, noScan task, scanned]
    simp only [front task member, Bool.false_eq_true, if_false, Nat.add_zero]

/-- Steps that leave the runtime thread where it is. -/
theorem Schedule.keep (schedule : Schedule graph events dispatch)
    (main : next.main = dispatch.main) (phase : next.currentPhase = dispatch.currentPhase)
    (noCall : event.calledPhase? = none) (noBuild : event ≠ .builtRuntimeState)
    (noScan : ∀ task, event.scans task = false) : Schedule graph (events ++ [event]) next := by
  have called : calls (events ++ [event]) = calls events := by
    rw [calls_concat, noCall]
    rfl
  have built : Built (events ++ [event]) ↔ Built events := by
    rw [built_concat]
    exact or_iff_left noBuild
  have front : frontier (events ++ [event]) next.main = frontier events dispatch.main := by
    unfold frontier
    rw [main, called]
  apply schedule.advance ?_ noScan
  · intro task _
    rw [front]
  · have ok := schedule.main
    unfold MainOk at ok ⊢
    rw [main, phase, called, built]
    exact ok

/-- A worker leaves the runtime thread where it is. -/
theorem Schedule.workerStep (schedule : Schedule graph events dispatch)
    (moved : WorkerStep dispatch worker next event) : Schedule graph (events ++ [event]) next := by
  have frame := moved.frame
  have plain : event.calledPhase? = none ∧ event ≠ .builtRuntimeState ∧
      ∀ task, event.scans task = false := by
    cases moved <;> exact ⟨rfl, nofun, fun task => rfl⟩
  exact schedule.keep frame.main frame.currentPhase plain.1 plain.2.1 plain.2.2

/-- The next call in phase order. -/
theorem Schedule.calledPhase (schedule : Schedule graph events dispatch)
    (idle : dispatch.main = .idle) {phase : RuntimePhaseId} (inOrder : phase.index = calls events) :
    Schedule graph (events ++ [.calledPhase phase]) (dispatch.setMain (.loadRunning phase)) := by
  have called : calls (events ++ [.calledPhase phase]) = calls events + 1 := by
    rw [calls_concat]
    rfl
  have built : Built (events ++ [.calledPhase phase]) ↔ Built events := by
    simp [built_concat]
  have ok := schedule.main
  rw [MainOk, idle] at ok
  apply schedule.advance ?_ fun task => rfl
  · intro task _
    simp only [idle, setMain, frontier, called, Nat.add_sub_cancel]
  · rw [MainOk, setMain]
    dsimp only
    rw [called, built, inOrder]
    refine ⟨rfl, ?_⟩
    rw [ne_eq, ← RuntimePhaseId.index_eq_zero, inOrder]
    rcases ok with ⟨none, unbuilt⟩ | ⟨some, builtAlready⟩
    · simp [none, unbuilt]
    · simp [some, builtAlready]

/-- SeedReadyQueue scans the task at the frontier. -/
theorem Schedule.scan (schedule : Schedule graph events dispatch) (wellFormed : graph.WellFormed)
    {phase : RuntimePhaseId} {position remaining : Nat} {node : TaskNode}
    (here : dispatch.main = .seed phase position)
    (more : position < (graph.phaseRange phase).count)
    (found : graph.node? ((graph.phaseRange phase).begin + position) = some node) :
    Schedule graph (events ++ [.scanned node.id remaining])
      (dispatch.setMain (if remaining = 0 then .seedEnqueue phase position node.id
        else .seed phase (position + 1))) := by
  obtain ⟨same, scannedMember⟩ := scanned_mem wellFormed more found
  have ranked := (wellFormed.task_of_range more).2
  rw [same] at ranked
  have called : calls (events ++ [.scanned node.id remaining]) = calls events := by
    rw [calls_concat]
    rfl
  have ok := schedule.main
  rw [MainOk, here] at ok
  constructor
  · have later : (dispatch.currentPhase = phase ∧
        calls (events ++ [.scanned node.id remaining]) = phase.index + 1 ∧
        Built (events ++ [.scanned node.id remaining])) := by
      refine ⟨ok.1.1, called.trans ok.1.2.1, built_concat.mpr (.inl ok.1.2.2)⟩
    by_cases zero : remaining = 0
    · simp only [MainOk, setMain, if_pos zero]
      exact ⟨later, more⟩
    · simp only [MainOk, setMain, if_neg zero]
      exact ⟨later, more⟩
  · intro task member
    have scanned := schedule.scanned task member
    have front : frontier (events ++ [.scanned node.id remaining]) (dispatch.setMain
        (if remaining = 0 then .seedEnqueue phase position node.id
          else .seed phase (position + 1))).main = graph.rank node.id + 1 := by
      rw [ranked]
      by_cases zero : remaining = 0
      · simp only [setMain, frontier, called, if_pos zero, ok.1.2.1, Nat.add_sub_cancel]
        omega
      · simp only [setMain, frontier, called, if_neg zero, ok.1.2.1, Nat.add_sub_cancel]
        omega
    have before : frontier events dispatch.main = graph.rank node.id := by
      rw [ranked, here, frontier, ok.1.2.1, Nat.add_sub_cancel]
    rw [scanCount] at scanned ⊢
    rw [tally_concat, scanned, front, before]
    by_cases equal : node.id = task
    · subst equal
      simp
    · have distinct : graph.rank task ≠ graph.rank node.id :=
        fun collide => equal (wellFormed.rank_injective member scannedMember collide).symm
      simp only [Event.scans, equal, decide_false, Bool.false_eq_true, if_false, Nat.add_zero]
      split_ifs <;> omega

/-- A step of the runtime thread inside a tick keeps to the schedule. -/
theorem Schedule.mainStep (schedule : Schedule graph events dispatch)
    (wellFormed : graph.WellFormed) (bound : dispatch.taskGraph = some graph)
    (running : dispatch.running = true) (moved : MainStep dispatch next event) :
    Schedule graph (events ++ [event]) next ∧ event ≠ .faulted := by
  have ok := schedule.main
  have limit : taskGraphMaxNodesV1 = 256 := rfl
  have called : event.calledPhase? = none → calls (events ++ [event]) = calls events := by
    intro noCall
    rw [calls_concat, noCall]
    rfl
  cases moved with
  | loadRunning here _ =>
      rw [MainOk, here] at ok
      have same := called rfl
      refine ⟨schedule.advance ?_ (fun _ => rfl) fun task _ => ?_, by rintro ⟨⟩⟩
      · simpa [MainOk, setMain, same, built_concat] using ok
      · simp only [here, setMain, frontier, same]
  | loadRunningRefused here stopped => exact absurd (running.symm.trans stopped) (by rintro ⟨⟩)
  | @storePhase phase here =>
      rw [MainOk, here] at ok
      have same := called rfl
      refine ⟨schedule.advance ?_ (fun _ => rfl) fun task _ => ?_, by rintro ⟨⟩⟩
      · by_cases first : phase = .input
        · subst first
          simpa [MainOk, same, built_concat, RuntimePhaseId.index] using ok
        · simpa [MainOk, same, built_concat, first] using ok
      · by_cases first : phase = .input
        · simp only [here, frontier, same, if_pos first]
        · simp only [here, frontier, same, if_neg first]
  | build here =>
      rw [MainOk, here] at ok
      have same := called rfl
      refine ⟨schedule.advance ?_ (fun _ => rfl) fun task _ => ?_, by rintro ⟨⟩⟩
      · simpa [MainOk, same, built_concat] using ok
      · simp only [here, frontier, same]
  | buildDone here =>
      rw [MainOk, here] at ok
      have same := called rfl
      refine ⟨schedule.advance ?_ (fun _ => rfl) fun task _ => ?_, by rintro ⟨⟩⟩
      · simp [MainOk, setMain, same, built_concat, ok.1, ok.2.1, RuntimePhaseId.index]
      · simp only [here, setMain, frontier, same]
  | buildFault here inside cause =>
      have within := inside graph bound
      exact absurd (wellFormed.id_lt _ within) (cause graph _ bound (wellFormed.node?_eq within))
  | loadSeedPhase here =>
      rw [MainOk, here] at ok
      have same := called rfl
      refine ⟨schedule.advance ?_ (fun _ => rfl) fun task _ => ?_, by rintro ⟨⟩⟩
      · simpa [MainOk, setMain, same, built_concat] using ok
      · simp only [here, setMain, frontier, same, Nat.add_zero]
  | seed here bound' more found =>
      cases bound.symm.trans bound'
      exact ⟨schedule.scan wellFormed here more found, by rintro ⟨⟩⟩
  | @seedDone phase position graph' here bound' done =>
      cases bound.symm.trans bound'
      rw [MainOk, here] at ok
      have same := called rfl
      refine ⟨schedule.advance ?_ (fun _ => rfl) fun task member => ?_, by rintro ⟨⟩⟩
      · simpa [MainOk, setMain, same, built_concat, ok.1.1] using ok.1.2
      · -- The positions beyond the last one of this phase belong to no task.
        obtain ⟨place, inside, ranked, _⟩ := wellFormed.rank_eq member
        have small := wellFormed.range_count_le (graph.phaseOf task)
        have smallHere := wellFormed.range_count_le phase
        have apart : graph.phaseOf task = phase ∨ (graph.phaseOf task).index ≠ phase.index := by
          by_cases equal : graph.phaseOf task = phase
          · exact .inl equal
          · exact .inr fun index => equal (RuntimePhaseId.index_injective index)
        simp only [here, setMain, frontier, same, ok.1.2.1, Nat.add_sub_cancel]
        rw [limit] at ranked small smallHere ⊢
        rcases apart with equal | different
        · rw [equal] at ranked inside
          omega
        · omega
  | seedFault here inside cause =>
      have within := (wellFormed.node_of_range (inside graph bound)).1
      exact absurd (wellFormed.id_lt _ within) (cause graph _ bound (wellFormed.node?_eq within))
  | seedEnqueue here | seedAdd here =>
      rw [MainOk, here] at ok
      have same := called rfl
      refine ⟨schedule.advance ?_ (fun _ => rfl) fun task _ => ?_, by rintro ⟨⟩⟩
      · simpa [MainOk, same, built_concat, Nat.succ_le_iff] using ok
      · simp only [here, frontier, same]
  | waitBusy here | waitEpoch here | waitRecheck here | waitReturned here =>
      rw [MainOk, here] at ok
      have same := called rfl
      refine ⟨schedule.advance ?_ (fun _ => rfl) fun task _ => ?_, by rintro ⟨⟩⟩
      · simpa [MainOk, setMain, same, built_concat] using ok
      · simp only [here, setMain, frontier, same]
  | waitDone here =>
      have same := called rfl
      refine ⟨schedule.advance ?_ (fun _ => rfl) fun task _ => ?_, by rintro ⟨⟩⟩
      · rcases here with here | ⟨epoch, here⟩
        all_goals rw [MainOk, here] at ok
        all_goals exact .inr (by simpa [setMain, same, built_concat] using ok)
      · rcases here with here | ⟨epoch, here⟩ <;> simp only [here, setMain, frontier, same]
  | startPoolRefused here | startPool here | startWorker here | startWorkerFault here
  | startedWorkers here | storeRunning here | stopPool here | joinSkip here | join here
  | joinFault here | joined here | clearActive here | clearEpoch here | clearPhase here
  | clearCounters here | cleared here =>
      rw [MainOk, here] at ok
      exact ok.elim

/-- The runtime thread is past the loop that sets the counters. -/
theorem Schedule.not_building (schedule : Schedule graph events dispatch) (built : Built events)
    (index : Nat) : dispatch.main ≠ .build index := by
  intro here
  have ok := schedule.main
  rw [MainOk, here] at ok
  exact ok.2.2 built

/-- A scan that reads zero is a scan. -/
theorem zeroScans_le_scanCount (events : List Event) (task : TaskId) :
    zeroScans events task ≤ scanCount events task := by
  apply tally_mono
  intro event _ shown
  cases event <;> simp_all

/-- Every task is scanned at most once in a tick. -/
theorem Schedule.scanCount_le (schedule : Schedule graph events dispatch)
    (member : task ∈ graph.tasks) : scanCount events task ≤ 1 := by
  rw [schedule.scanned task member]
  split <;> omega

end JobDispatch
end MmoServer.Runtime
