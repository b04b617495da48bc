import MmoServer.Runtime.JobDispatch.Schedule

/-!
# The dependency counters of one tick

Once BuildRuntimeState has run, a task's counter is its parent count less the
decrements made since, modulo the word size; the load never comes near it. A
task is created only when all of its edges have been decremented, and at most
twice: SeedReadyQueue may find its counter at zero once, and one decrement of
ReleaseSuccessors may bring it there.
-/

namespace MmoServer.Runtime

open MmoServer.Std MmoServer.Semantics

theorem WorkerState.task?_of_passed {parent : TaskId} {position : Nat}
    {state : WorkerState} (passed : state.passed parent position = true) :
    state.task? = some parent := by
  cases state <;> simp_all [WorkerState.passed, WorkerState.task?]

theorem WorkerState.passes_le_holds (parent : TaskId) (position : Nat) (state : WorkerState) :
    state.passes parent position ≤ state.holds parent := by
  unfold WorkerState.passes
  split
  · next passed => rw [WorkerState.holds, WorkerState.task?_of_passed passed, if_pos rfl]
  · exact Nat.zero_le _

namespace JobDispatch

/-- The dependency counters against the decrements made in this tick. -/
structure Counters (graph : TaskGraph) (events : List Event) (dispatch : JobDispatch) : Prop where
  unbuilt : ¬ Built events → ∀ task, created events task = 0
  building : ∀ index, dispatch.main = .build index → ∀ earlier < index, earlier < graph.nodeCount →
    dispatch.remainingDependencies.peek (graph.node earlier).id = (graph.node earlier).parentCount
  remaining : Built events → ∀ task ∈ graph.tasks,
    dispatch.remainingDependencies.peek task < 2 ^ 32 ∧
    (dispatch.remainingDependencies.peek task + load graph events task) % 2 ^ 32 =
      (graph.nodeOf task).parentCount
  readied : ∀ task, 0 < created events task →
    (graph.nodeOf task).parentCount ≤ load graph events task
  released : ∀ task, releases events task ≤ 1

variable {graph : TaskGraph} {dispatch next : JobDispatch} {events : List Event} {event : Event}
  {worker : WorkerIndex} {choice : Choice} {task parent child : TaskId}

/-! ## Bounds -/

/-- A task decrements each of its children at most once for each creation. -/
theorem Release.decrements_le (release : Release graph events dispatch)
    (placement : Placement graph events dispatch) (parent child : TaskId) :
    decrements events parent child ≤ created events parent := by
  rcases Nat.eq_zero_or_pos (decrements events parent child) with none | positive
  · omega
  · obtain ⟨member, edge⟩ := release.edges parent child positive
    obtain ⟨position, named⟩ := List.mem_iff_getElem?.mp edge
    have passed := release.passed parent member position child named
    have held : threadSum (WorkerState.passes parent position) dispatch.workers ≤
        threadSum (WorkerState.holds parent) dispatch.workers :=
      threadSum_mono fun worker => WorkerState.passes_le_holds parent position _
    have balance := placement.balance parent
    omega

/-- The load of a task is bounded by its parents, each with its decrements. -/
theorem Release.load_le (release : Release graph events dispatch)
    (wellFormed : graph.WellFormed) (child : TaskId) (bound : Nat)
    (each : ∀ parent, graph.Edge parent child → decrements events parent child ≤ bound) :
    load graph events child ≤ bound * graph.inDegree child := by
  rw [load, wellFormed.inDegree_eq_sum, Finset.mul_sum]
  apply Finset.sum_le_sum
  intro parent member
  split
  · next edge => simpa using each parent ⟨member, edge⟩
  · next apart =>
    rcases Nat.eq_zero_or_pos (decrements events parent child) with none | positive
    · omega
    · exact absurd (release.edges parent child positive).2 apart

/-- One creation for each of the two threads that can make it. -/
theorem Counters.created_le (counters : Counters graph events dispatch)
    (schedule : Schedule graph events dispatch) (placement : Placement graph events dispatch)
    (task : TaskId) : created events task ≤ 2 := by
  rcases Nat.eq_zero_or_pos (created events task) with none | positive
  · omega
  · have scanned := schedule.scanCount_le (placement.tasks task positive)
    have zero := zeroScans_le_scanCount events task
    have released := counters.released task
    rw [created]
    omega

/-- The load of a task stays far below the counter's word size. -/
theorem Counters.load_le (counters : Counters graph events dispatch)
    (schedule : Schedule graph events dispatch) (placement : Placement graph events dispatch)
    (release : Release graph events dispatch) (wellFormed : graph.WellFormed) (child : TaskId) :
    load graph events child ≤ 512 := by
  have total := release.load_le wellFormed child 2 fun parent _ =>
    Nat.le_trans (release.decrements_le placement parent child)
      (counters.created_le schedule placement parent)
  have degree : graph.inDegree child ≤ taskGraphMaxNodesV1 := wellFormed.inDegree_le
  have limit : taskGraphMaxNodesV1 = 256 := rfl
  omega

/-! ## The counters -/

/-- No counter moves, nothing is created and nothing is decremented. -/
theorem Counters.keep (counters : Counters graph events dispatch)
    (built : Built (events ++ [event]) ↔ Built events)
    (creates : ∀ task, created (events ++ [event]) task = created events task ∧
      releases (events ++ [event]) task = releases events task)
    (loads : ∀ task, load graph (events ++ [event]) task = load graph events task)
    (same : next.remainingDependencies = dispatch.remainingDependencies)
    (building : ∀ index, next.main = .build index → dispatch.main = .build index ∨ index = 0) :
    Counters graph (events ++ [event]) next := by
  constructor
  · intro unbuilt task
    rw [(creates task).1]
    exact counters.unbuilt (mt built.mpr unbuilt) task
  · intro index here earlier before inside
    rw [same]
    rcases building index here with there | start
    · exact counters.building index there earlier before inside
    · omega
  · intro nowBuilt task member
    rw [same, loads]
    exact counters.remaining (built.mp nowBuilt) task member
  · intro task positive
    rw [loads]
    exact counters.readied task ((creates task).1 ▸ positive)
  · intro task
    rw [(creates task).2]
    exact counters.released task

/-- A task that a worker holds has been created, so the counters are built. -/
theorem Counters.built_of_holds (counters : Counters graph events dispatch)
    (placement : Placement graph events dispatch)
    (held : (dispatch.workers worker).task? = some task) : Built events := by
  by_contra unbuilt
  have none := counters.unbuilt unbuilt task
  have balance := placement.balance task
  have weight := weight_le_threadSum (WorkerState.holds task) dispatch.workers worker
  rw [WorkerState.holds, if_pos held] at weight
  omega

/-- A counter that still reads above zero belongs to a task nobody has created:
its parent count has not been decremented away. -/
theorem Counters.created_eq_zero (counters : Counters graph events dispatch)
    (below : load graph events task < (graph.nodeOf task).parentCount) :
    created events task = 0 := by
  by_contra positive
  have readied := counters.readied task (Nat.pos_of_ne_zero positive)
  omega

/-- The decrement that reads one is the last of the task's edges, and nobody has
created the task before it. -/
theorem Counters.last_decrement (counters : Counters graph events dispatch)
    (small : load graph events child ≤ 512) (wellFormed : graph.WellFormed)
    (built : Built events) (member : child ∈ graph.tasks)
    (loaded : dispatch.remainingDependencies.at? child = some 1) :
    created events child = 0 ∧
      load graph events child + 1 = (graph.nodeOf child).parentCount := by
  have read := (FixedArray.at?_eq_some_iff.mp loaded).2
  have balance := counters.remaining built child member
  have parents := wellFormed.parentCount_le member
  rw [read] at balance
  have full : load graph events child + 1 = (graph.nodeOf child).parentCount := by omega
  exact ⟨counters.created_eq_zero (by omega), full⟩

/-- ReleaseSuccessors decrements one counter and adds one to its load. -/
theorem Counters.decrement (counters : Counters graph events dispatch)
    (small : load graph events child ≤ 512) (wellFormed : graph.WellFormed)
    (built : Built events) {old : Nat} {ready : Bool}
    (member : parent ∈ graph.tasks) (memberChild : child ∈ graph.tasks)
    (loaded : dispatch.remainingDependencies.at? child = some old) (last : ready = true → old = 1)
    (stored : next.remainingDependencies =
      dispatch.remainingDependencies.set child (decrement32 old))
    (outside : ∀ index, next.main ≠ .build index) :
    Counters graph (events ++ [.decremented worker parent child old ready]) next := by
  obtain ⟨slot, read⟩ := FixedArray.at?_eq_some_iff.mp loaded
  have balance := counters.remaining built child memberChild
  rw [read] at balance
  have loads : ∀ task,
      load graph (events ++ [.decremented worker parent child old ready]) task =
        load graph events task + if child = task then 1 else 0 := fun task => load_concat member
  have unborn : ready = true → created events child = 0 ∧
      load graph events child + 1 = (graph.nodeOf child).parentCount := by
    intro isReady
    rw [last isReady] at loaded
    exact counters.last_decrement small wellFormed built memberChild loaded
  have creates : ∀ task,
      created (events ++ [.decremented worker parent child old ready]) task =
        created events task + if child = task ∧ ready = true then 1 else 0 := by
    intro task
    simp only [created, zeroScans, releases, tally_concat, Event.zeroScans, Event.releases,
      Bool.false_eq_true, if_false, Nat.add_zero, decide_eq_true_eq, Nat.add_assoc]
  constructor
  · intro unbuilt
    exact absurd (built_concat.mpr (.inl built)) unbuilt
  · intro index here
    exact absurd here (outside index)
  · intro _ task memberTask
    rw [stored, loads, FixedArray.peek_set slot]
    by_cases same : task = child
    · subst same
      rw [if_pos rfl, if_pos rfl]
      refine ⟨decrement32_lt _, ?_⟩
      unfold decrement32
      omega
    · rw [if_neg same, if_neg (Ne.symm same)]
      exact counters.remaining built task memberTask
  · intro task positive
    rw [loads]
    rw [creates] at positive
    by_cases same : child = task ∧ ready = true
    · obtain ⟨rfl, isReady⟩ := same
      have full := (unborn isReady).2
      rw [if_pos rfl]
      omega
    · rw [if_neg same, Nat.add_zero] at positive
      exact Nat.le_trans (counters.readied task positive) (Nat.le_add_right _ _)
  · intro task
    have before := counters.released task
    have shown : releases (events ++ [.decremented worker parent child old ready]) task =
        releases events task + if child = task ∧ ready = true then 1 else 0 := by
      simp only [releases, tally_concat, Event.releases, decide_eq_true_eq]
    rw [shown]
    by_cases same : child = task ∧ ready = true
    · obtain ⟨rfl, isReady⟩ := same
      have none := (unborn isReady).1
      rw [created] at none
      rw [if_pos ⟨rfl, isReady⟩]
      omega
    · rw [if_neg same]
      omega

theorem Counters.workerStep (counters : Counters graph events dispatch)
    (schedule : Schedule graph events dispatch) (placement : Placement graph events dispatch)
    (release : Release graph events dispatch) (wellFormed : graph.WellFormed)
    (bound : dispatch.taskGraph = some graph) (sound : Local graph dispatch)
    (moved : WorkerStep dispatch worker next event) (calm : event ≠ .faulted) :
    Counters graph (events ++ [event]) next := by
  have frame := moved.frame
  have small := counters.load_le schedule placement release wellFormed
  cases moved with
  | checkRunning here | dequeueEmpty here | dequeue here | execute here | executing here
  | loadPhase here | releaseDone here | enqueue here | addActive here | subActive here
  | bumpEpoch here | notifyAll here =>
      apply counters.keep
      · simp [built_concat]
      · intro task
        simp [created, zeroScans, releases]
      · intro task
        exact load_concat_of_not fun _ _ => rfl
      · rfl
      · exact fun index same => .inl same
  | @releaseHeld task phase position graph' node child old here bound' found more named loaded =>
      have reads := sound.child_eq wellFormed bound here bound' found more named
      have built := counters.built_of_holds placement (congrArg WorkerState.task? here)
      exact counters.decrement (small child) wellFormed built reads.1 reads.2.2 loaded
        (by rintro ⟨⟩) rfl (schedule.not_building built)
  | @releaseReady task phase position graph' node child childNode here bound' found more named
      loaded =>
      have reads := sound.child_eq wellFormed bound here bound' found more named
      have built := counters.built_of_holds placement (congrArg WorkerState.task? here)
      exact counters.decrement (small child) wellFormed built reads.1 reads.2.2 loaded
        (fun _ => rfl) rfl (schedule.not_building built)
  | fault => exact absurd rfl calm

/-- SeedReadyQueue finds a counter at zero only when all edges of its task have
been decremented. -/
theorem Counters.scan (counters : Counters graph events dispatch)
    (small : ∀ task, load graph events task ≤ 512) (wellFormed : graph.WellFormed)
    (built : Built events) (member : task ∈ graph.tasks) {remaining : Nat}
    (loaded : dispatch.remainingDependencies.at? task = some remaining)
    (same : next.remainingDependencies = dispatch.remainingDependencies)
    (outside : ∀ index, next.main ≠ .build index) :
    Counters graph (events ++ [.scanned task remaining]) next := by
  have read := (FixedArray.at?_eq_some_iff.mp loaded).2
  have balance := counters.remaining built task member
  have parents := wellFormed.parentCount_le member
  have few := small task
  have loads : ∀ other, load graph (events ++ [.scanned task remaining]) other =
      load graph events other := fun other => load_concat_of_not fun _ _ => rfl
  constructor
  · intro unbuilt
    exact absurd (built_concat.mpr (.inl built)) unbuilt
  · intro index here
    exact absurd here (outside index)
  · intro _ other memberOther
    rw [same, loads]
    exact counters.remaining built other memberOther
  · intro other positive
    rw [loads]
    by_cases zero : task = other ∧ remaining = 0
    · obtain ⟨rfl, rfl⟩ := zero
      rw [read] at balance
      omega
    · refine counters.readied other ?_
      simpa [created, zeroScans, releases, zero] using positive
  · intro other
    simpa [releases] using counters.released other

/-- Each iteration of BuildRuntimeState sets one counter and keeps the earlier ones. -/
theorem Counters.build (counters : Counters graph events dispatch) (wellFormed : graph.WellFormed)
    {index : Nat} {node : TaskNode} (here : dispatch.main = .build index)
    (unbuilt : ¬ Built events) (more : index < graph.nodeCount)
    (found : graph.node? index = some node) :
    Counters graph (events ++ [.builtTask node.id])
      { dispatch with
        remainingDependencies := dispatch.remainingDependencies.set node.id node.parentCount
        main := .build (index + 1) } := by
  cases Option.some.inj ((wellFormed.node?_eq more).symm.trans found)
  have creates : ∀ task, created (events ++ [.builtTask (graph.node index).id]) task = 0 := by
    intro task
    have before := counters.unbuilt unbuilt task
    simpa [created, zeroScans, releases] using before
  have notYet : ¬ Built (events ++ [.builtTask (graph.node index).id]) := by
    simp [built_concat, unbuilt]
  constructor
  · intro _ task
    exact creates task
  · intro reached there earlier before inside
    cases there
    rw [FixedArray.peek_set (wellFormed.id_lt index more)]
    by_cases same : (graph.node earlier).id = (graph.node index).id
    · have position := wellFormed.index_of_id earlier inside
      rw [same, wellFormed.index_of_id index more] at position
      rw [if_pos same, position]
    · rw [if_neg same]
      have below : earlier ≠ index := fun equal => same (equal ▸ rfl)
      exact counters.building index here earlier (by omega) inside
  · intro built
    exact absurd built notYet
  · intro task positive
    rw [creates] at positive
    exact absurd positive (Nat.lt_irrefl 0)
  · intro task
    simpa [releases] using counters.released task

/-- After BuildRuntimeState every counter is its task's parent count. -/
theorem Counters.buildDone (counters : Counters graph events dispatch)
    (placement : Placement graph events dispatch) (release : Release graph events dispatch)
    (wellFormed : graph.WellFormed) {index : Nat} (here : dispatch.main = .build index)
    (unbuilt : ¬ Built events) (done : ¬ index < graph.nodeCount) :
    Counters graph (events ++ [.builtRuntimeState]) (dispatch.setMain .loadSeedPhase) := by
  have none : ∀ task, load graph (events ++ [.builtRuntimeState]) task = 0 := by
    intro task
    rw [load_concat_of_not fun _ _ => rfl]
    have bounded := release.load_le wellFormed task 0 fun parent _ => by
      have few := release.decrements_le placement parent task
      rwa [counters.unbuilt unbuilt parent] at few
    omega
  have creates : ∀ task, created (events ++ [.builtRuntimeState]) task = 0 := by
    intro task
    have before := counters.unbuilt unbuilt task
    simpa [created, zeroScans, releases] using before
  constructor
  · intro _ task
    exact creates task
  · intro index there
    cases there
  · intro _ task member
    obtain ⟨position, inside, same, rfl⟩ := wellFormed.exists_index member
    have set := counters.building index here position (by omega) inside
    have parents := wellFormed.parentCount_le member
    rw [same] at parents ⊢
    simp only [setMain, none, set, Nat.add_zero]
    omega
  · intro task positive
    rw [creates] at positive
    exact absurd positive (Nat.lt_irrefl 0)
  · intro task
    simpa [releases] using counters.released task

theorem Counters.mainStep (counters : Counters graph events dispatch)
    (schedule : Schedule graph events dispatch) (placement : Placement graph events dispatch)
    (release : Release graph events dispatch) (wellFormed : graph.WellFormed)
    (bound : dispatch.taskGraph = some graph) (moved : MainStep dispatch next event) :
    Counters graph (events ++ [event]) next := by
  have ok := schedule.main
  have small := counters.load_le schedule placement release wellFormed
  cases moved with
  | loadRunning here | loadRunningRefused here | storePhase here | buildFault here
  | loadSeedPhase here | seedDone here | seedFault here | seedEnqueue here | seedAdd here
  | waitBusy here | waitEpoch here | waitRecheck here | waitReturned here | waitDone here =>
      apply counters.keep
      · simp [built_concat]
      · intro task
        simp [created, zeroScans, releases]
      · intro task
        exact load_concat_of_not fun _ _ => rfl
      · rfl
      · intro index there
        simp only [setMain] at there
        first
          | cases there
          | split at there <;> cases there
            exact .inr rfl
  | build here bound' more found =>
      cases bound.symm.trans bound'
      rw [MainOk, here] at ok
      exact counters.build wellFormed here ok.2.2 more found
  | buildDone here bound' done =>
      cases bound.symm.trans bound'
      rw [MainOk, here] at ok
      exact counters.buildDone placement release wellFormed here ok.2.2 done
  | seed here bound' more found loaded =>
      cases bound.symm.trans bound'
      rw [MainOk, here] at ok
      refine counters.scan small wellFormed ok.1.2.2 (scanned_mem wellFormed more found).2 loaded
        rfl ?_
      intro index
      simp only [setMain]
      split <;> rintro ⟨⟩
  | startPoolRefused here | startPool here | startWorker here | startWorkerFault here
  | startedWorkers here | storeRunning here | stopPool here | joinSkip here | join here
  | joinFault here | joined here | clearActive here | clearEpoch here | clearPhase here
  | clearCounters here | cleared here =>
      rw [MainOk, here] at ok
      exact ok.elim

end JobDispatch
end MmoServer.Runtime
