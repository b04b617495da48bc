import MmoServer.Runtime.JobDispatch.Lifecycle

/-!
# An Initialize that fails

Initialize refuses before it changes anything, or fails in the pool, which sets its own
flag before it starts its workers. While no thread constructor has thrown the two flags
agree between calls (`FlagsAgree`), so the pool never refuses and a failed Initialize has
changed nothing. After a throw the dispatcher is `Broken`: the flag of the pool stays
set, that of the dispatcher does not, and Shutdown looks at the latter.
-/

namespace MmoServer.Runtime

open MmoServer.Std MmoServer.Semantics

/-- Initialize returns or throws. -/
def Event.answersInitialize : Event → Bool
  | .initialized _ | .initializeThrew => true
  | _ => false

namespace JobDispatch

/-- The thread constructor does not throw. -/
def NoThreadFailure : TransitionSystem.StepCondition JobDispatch Choice Event :=
  fun _ _ _ event => event ≠ .initializeThrew

/-- Only the runtime thread moves. -/
def MainOnly : TransitionSystem.StepCondition JobDispatch Choice Event :=
  fun _ _ choice _ => choice = .main

/-- A call of Initialize from its entry to its answer, with what else happens meanwhile. -/
inductive Initializes (before : JobDispatch) (graph : TaskGraph) (registry : TaskRegistry)
    (hardwareConcurrency : Nat) : List Event → JobDispatch → Prop
  | atOnce {after event}
      (called : system.step before (.call (.initializeWith graph registry hardwareConcurrency)) =
        some (after, event))
      (answers : event.answersInitialize = true) :
      Initializes before graph registry hardwareConcurrency [event] after
  | entered {first entered events last choice after event}
      (called : system.step before (.call (.initializeWith graph registry hardwareConcurrency)) =
        some (entered, first))
      (during : system.Runs entered events last)
      (unanswered : ∀ event ∈ first :: events, event.answersInitialize = false)
      (returned : system.step last choice = some (after, event))
      (answers : event.answersInitialize = true) :
      Initializes before graph registry hardwareConcurrency (first :: events ++ [event]) after

/-- Initialize called here returns true, whatever the workers do meanwhile, if no thread
constructor throws: it gives no other answer, and its own steps lead to this one. -/
def InitializeSucceeds (dispatch : JobDispatch) (graph : TaskGraph) (registry : TaskRegistry)
    (hardwareConcurrency : Nat) : Prop :=
  ∃ entered, system.step dispatch (.call (.initializeWith graph registry hardwareConcurrency)) =
      some (entered, .silent) ∧
    ∀ events reached, system.RunsUnder NoThreadFailure entered events reached →
      (∀ event ∈ events, event.answersInitialize = false) →
      (∀ choice next event, system.step reached choice = some (next, event) →
        event.answersInitialize = true → event = .initialized true ∨ event = .initializeThrew) ∧
      ∃ more finish, system.RunsUnder MainOnly reached (more ++ [.initialized true]) finish

/-- The dispatcher is as it was before, and an Initialize with valid arguments succeeds
whenever the dispatcher does not run. -/
structure RolledBack (before after : JobDispatch) : Prop where
  workers : ∀ worker, before.workers worker = .unstarted → after.workers worker = .unstarted
  running : after.running = before.running
  poolRunning : after.poolRunning = before.poolRunning
  taskGraph : after.taskGraph = before.taskGraph
  registry : after.registry = before.registry
  retry : ∀ events later graph registry hardwareConcurrency,
    system.RunsUnder NoThreadFailure after events later → later.main = .idle →
    later.running = false → registry.validate graph = some true →
    later.InitializeSucceeds graph registry hardwareConcurrency

/-- What the flags of the dispatcher and of the pool say at each point of the runtime
thread, as long as no thread constructor has thrown. -/
def FlagsAgree (dispatch : JobDispatch) : Prop :=
  match dispatch.main with
  | .startPool _ | .join _ | .clearActive | .clearEpoch | .clearPhase | .clearCounters _ =>
    dispatch.running = false ∧ dispatch.poolRunning = false
  | .startWorker _ | .storeRunning | .stopPool =>
    dispatch.running = false ∧ dispatch.poolRunning = true
  | .fault => True
  | _ => dispatch.running = dispatch.poolRunning

/-- The runtime thread is on its way to an answer of true. -/
def PoolStarts (dispatch : JobDispatch) : Prop :=
  match dispatch.main with
  | .startPool _ => dispatch.poolRunning = false
  | .startWorker _ => dispatch.activeWorkerCount ≤ maxHardwareWorkers
  | .storeRunning => True
  | _ => False

variable {before after dispatch next : JobDispatch} {earlier trace events : List Event}
  {event : Event} {choice : Choice} {graph : TaskGraph} {registry : TaskRegistry}
  {hardwareConcurrency : Nat}

/-! ## The steps of Initialize -/

/-- A call of Initialize is a run. -/
theorem Initializes.runs
    (initializes : Initializes before graph registry hardwareConcurrency trace after) :
    system.Runs before trace after := by
  cases initializes with
  | atOnce called => exact .step .refl called trivial
  | entered called during _ returned =>
      have first : system.Runs before [_] _ := .step .refl called trivial
      exact .step (first.trans during) returned trivial

/-- The runtime thread is idle when Initialize has answered. -/
theorem idle_of_answers (moved : SystemStep dispatch choice next event)
    (answers : event.answersInitialize = true) : next.main = .idle := by
  cases moved with
  | initializeRefused idle => exact idle
  | threadFailure => rfl
  | main moved => cases moved <;> first | rfl | cases answers
  | worker moved => cases moved <;> cases answers
  | _ => cases answers

/-- So it is after the whole call. -/
theorem Initializes.idle
    (initializes : Initializes before graph registry hardwareConcurrency trace after) :
    after.main = .idle := by
  cases initializes with
  | atOnce called answers => exact idle_of_answers (step_sound called) answers
  | entered _ _ _ returned answers => exact idle_of_answers (step_sound returned) answers

/-- Nothing leads out of undefined behaviour. -/
theorem SystemStep.fault (moved : SystemStep dispatch choice next event)
    (stuck : dispatch.main = .fault) : next.main = .fault := by
  cases moved with
  | worker moved => exact moved.frame.main.trans stuck
  | main moved =>
      cases moved with
      | waitDone here => rcases here with here | ⟨epoch, here⟩ <;> cases stuck.symm.trans here
      | _ here => cases stuck.symm.trans here
  | threadFailure here => cases stuck.symm.trans here
  | _ idle => cases stuck.symm.trans idle

/-- Nor does any run. -/
theorem fault_of_runs (run : system.Runs dispatch events next) (stuck : dispatch.main = .fault) :
    next.main = .fault := by
  apply run.invariant (fun _ (next : JobDispatch) => next.main = .fault) stuck
  intro _ _ _ _ _ _ stuck transition _
  exact (step_sound transition).fault stuck

/-- The start of the pool goes on, or Initialize returns true. -/
theorem PoolStarts.step (starts : dispatch.PoolStarts) (moved : SystemStep dispatch choice next event)
    (constructed : event ≠ .initializeThrew) :
    event = .initialized true ∨ (event.answersInitialize = false ∧ next.PoolStarts) := by
  rw [PoolStarts] at starts
  cases moved with
  | threadFailure => exact absurd rfl constructed
  | worker moved =>
      right
      have frame := moved.frame
      rw [PoolStarts, frame.main, frame.poolRunning, frame.activeWorkerCount]
      exact ⟨by cases moved <;> rfl, starts⟩
  | main moved =>
      cases moved with
      | startPoolRefused here refused =>
          rw [here] at starts
          exact absurd (refused.symm.trans starts) (by decide)
      | startPool => exact .inr ⟨rfl, workerCount_le _⟩
      | startWorker here =>
          rw [here] at starts
          exact .inr ⟨rfl, starts⟩
      | startWorkerFault here more outside =>
          rw [here] at starts
          exact absurd (Nat.lt_of_lt_of_le more starts) outside
      | startedWorkers => exact .inr ⟨rfl, trivial⟩
      | storeRunning => exact .inl rfl
      | waitDone here =>
          rcases here with here | ⟨epoch, here⟩
          all_goals
            rw [here] at starts
            exact starts.elim
      | _ here =>
          rw [here] at starts
          exact starts.elim
  | _ idle =>
      rw [idle] at starts
      exact starts.elim

/-- The dispatcher after Initialize has accepted its arguments. -/
def bound (dispatch : JobDispatch) (graph : TaskGraph) (registry : TaskRegistry)
    (hardwareConcurrency : Nat) : JobDispatch :=
  { dispatch with
    taskGraph := some graph
    registry := some registry
    main := .startPool hardwareConcurrency }

/-- Initialize binds a valid graph and enters the pool. -/
theorem step_bound (idle : dispatch.main = .idle) (stopped : dispatch.running = false)
    (valid : registry.validate graph = some true) (hardwareConcurrency : Nat) :
    system.step dispatch (.call (.initializeWith graph registry hardwareConcurrency)) =
      some (dispatch.bound graph registry hardwareConcurrency, .silent) := by
  simp [step, callStep, initializeWith, idle, stopped, valid, bound]

/-- A pool whose flag is set refuses to start. -/
theorem step_startPool_refused (here : dispatch.main = .startPool hardwareConcurrency)
    (refused : dispatch.poolRunning = true) :
    system.step dispatch .main = some (dispatch.setMain .idle, .initialized false) := by
  simp [step, mainStep, here, startPool, refused]

/-- Otherwise it sets the flag and starts its workers. -/
theorem step_startPool (here : dispatch.main = .startPool hardwareConcurrency)
    (stopped : dispatch.poolRunning = false) :
    system.step dispatch .main = some
      ({ dispatch with
          activeWorkerCount := workerCount hardwareConcurrency
          poolRunning := true
          main := .startWorker 0 }, .silent) := by
  simp [step, mainStep, here, startPool, stopped]

/-- The next worker is started. -/
theorem step_startWorker {index : Nat} (here : dispatch.main = .startWorker index)
    (more : index < dispatch.activeWorkerCount) (slot : index < maxHardwareWorkers) :
    system.step dispatch .main = some
      ((dispatch.setWorker ⟨index, slot⟩ .checkRunning).setMain (.startWorker (index + 1)),
        .silent) := by
  simp [step, mainStep, here, startWorker, more, slot]

/-- All workers have been started. -/
theorem step_startedWorkers {index : Nat} (here : dispatch.main = .startWorker index)
    (done : ¬ index < dispatch.activeWorkerCount) :
    system.step dispatch .main = some (dispatch.setMain .storeRunning, .silent) := by
  simp [step, mainStep, here, startWorker, done]

/-- Initialize returns true. -/
theorem step_storeRunning (here : dispatch.main = .storeRunning) :
    system.step dispatch .main =
      some ({ dispatch with running := true, main := .idle }, .initialized true) := by
  simp [step, mainStep, here]

/-- What follows a step of the runtime thread follows the state before it. -/
theorem completes_of_step {first : Event}
    (stepped : system.step dispatch .main = some (next, first))
    (completes : ∃ more finish, system.RunsUnder MainOnly next (more ++ [.initialized true]) finish) :
    ∃ more finish, system.RunsUnder MainOnly dispatch (more ++ [.initialized true]) finish := by
  obtain ⟨more, finish, run⟩ := completes
  have start : system.RunsUnder MainOnly dispatch [first] next := .step .refl stepped rfl
  exact ⟨first :: more, finish, start.append run⟩

/-- The steps of the runtime thread alone lead to an answer of true. -/
theorem PoolStarts.completes (starts : dispatch.PoolStarts) : ∃ more finish,
    system.RunsUnder MainOnly dispatch (more ++ [.initialized true]) finish := by
  have stored : ∀ {state : JobDispatch}, state.main = .storeRunning → ∃ more finish,
      system.RunsUnder MainOnly state (more ++ [.initialized true]) finish :=
    fun here => ⟨[], _, .step .refl (step_storeRunning here) rfl⟩
  have started : ∀ (left index : Nat) {state : JobDispatch}, state.main = .startWorker index →
      state.activeWorkerCount - index = left → state.activeWorkerCount ≤ maxHardwareWorkers →
      ∃ more finish, system.RunsUnder MainOnly state (more ++ [.initialized true]) finish := by
    intro left
    induction left with
    | zero =>
        intro index state here none few
        refine completes_of_step (step_startedWorkers here (by omega)) (stored rfl)
    | succ left ih =>
        intro index state here some_ few
        refine completes_of_step (step_startWorker here (by omega) (by omega)) (ih _ rfl ?_ few)
        change state.activeWorkerCount - (index + 1) = left
        omega
  rw [PoolStarts] at starts
  cases here : dispatch.main with
  | startPool hardwareConcurrency =>
      rw [here] at starts
      exact completes_of_step (step_startPool here starts)
        (started _ 0 rfl rfl (workerCount_le hardwareConcurrency))
  | startWorker index =>
      rw [here] at starts
      exact started _ index here rfl starts
  | storeRunning => exact stored here
  | _ =>
      rw [here] at starts
      exact starts.elim

/-- Until it answers, Initialize stays in the start of the pool. -/
theorem PoolStarts.of_runs (starts : dispatch.PoolStarts)
    (run : system.RunsUnder NoThreadFailure dispatch events next)
    (unanswered : ∀ event ∈ events, event.answersInitialize = false) : next.PoolStarts := by
  apply run.invariant (fun events next =>
    (∀ event ∈ events, event.answersInitialize = false) → next.PoolStarts)
    (fun _ => starts) ?_ unanswered
  intro events reached choice next event _ ih transition permitted unanswered
  have starts := ih fun event member => unanswered event (List.mem_append_left _ member)
  have last := unanswered event (List.mem_append_right _ List.mem_cons_self)
  rcases starts.step (step_sound transition) permitted with rfl | ⟨_, keeps⟩
  · cases last
  · exact keeps

/-! ## The flags -/

/-- Between calls a step other than a throw keeps the flags in agreement. -/
theorem FlagsAgree.step (agree : dispatch.FlagsAgree) (moved : SystemStep dispatch choice next event)
    (constructed : event ≠ .initializeThrew) : next.FlagsAgree := by
  rw [FlagsAgree] at agree
  cases moved with
  | initializeRefused idle | ignoredShutdown idle =>
      rw [FlagsAgree, idle]
      rw [idle] at agree
      exact agree
  | initializeFault => trivial
  | initializeBound idle stopped =>
      rw [idle] at agree
      exact ⟨stopped, agree.symm.trans stopped⟩
  | calledPhase idle =>
      rw [idle] at agree
      exact agree
  | calledShutdown idle running =>
      rw [idle] at agree
      exact ⟨rfl, agree.symm.trans running⟩
  | threadFailure => exact absurd rfl constructed
  | worker moved =>
      have frame := moved.frame
      rw [FlagsAgree, frame.main, frame.running, frame.poolRunning]
      exact agree
  | main moved =>
      cases moved with
      | startPoolRefused here refused =>
          rw [here] at agree
          exact absurd (refused.symm.trans agree.2) (by decide)
      | startPool here =>
          rw [here] at agree
          exact ⟨agree.1, rfl⟩
      | storeRunning here =>
          rw [here] at agree
          exact agree.2.symm
      | stopPool here =>
          rw [here] at agree
          exact ⟨agree.1, rfl⟩
      | cleared here =>
          rw [here] at agree
          exact agree.1.trans agree.2.symm
      | @storePhase phase here =>
          rw [here] at agree
          by_cases first : phase = .input
          · rw [if_pos first]
            exact agree
          · rw [if_neg first]
            exact agree
      | waitDone here =>
          rcases here with here | ⟨epoch, here⟩
          all_goals
            rw [here] at agree
            exact agree
      | startWorkerFault | joinFault | buildFault | seedFault => trivial
      | @seed phase position graph node remaining here =>
          rw [here] at agree
          by_cases ready : remaining = 0
          · rw [if_pos ready]
            exact agree
          · rw [if_neg ready]
            exact agree
      | _ here =>
          rw [here] at agree
          exact agree

/-- After a throw the dispatcher is broken, and before it the flags agree. -/
theorem flags_of_runs (run : system.Runs fresh events dispatch) :
    (.initializeThrew ∈ events ∧ dispatch.Broken) ∨
      (.initializeThrew ∉ events ∧ dispatch.FlagsAgree) := by
  apply run.invariant fun events (dispatch : JobDispatch) =>
    (.initializeThrew ∈ events ∧ dispatch.Broken) ∨
      (.initializeThrew ∉ events ∧ dispatch.FlagsAgree)
  · exact .inr ⟨List.not_mem_nil, rfl⟩
  · intro events dispatch choice next event _ ih transition _
    have moved := step_sound transition
    rcases ih with ⟨threw, broken⟩ | ⟨quiet, agree⟩
    · exact .inl ⟨List.mem_append_left _ threw, (broken.step moved).1⟩
    · by_cases throws : event = .initializeThrew
      · subst throws
        left
        refine ⟨List.mem_append_right _ List.mem_cons_self, ?_⟩
        cases moved with
        | threadFailure here =>
            rw [FlagsAgree, here] at agree
            exact ⟨agree.1, agree.2, trivial⟩
        | main moved => cases moved
        | worker moved => cases moved
      · refine .inr ⟨?_, agree.step moved throws⟩
        rw [List.mem_append, List.mem_singleton]
        rintro (earlier | last)
        · exact quiet earlier
        · exact throws last.symm

/-- Without a failure of a thread nothing is thrown. -/
theorem not_threw_of_runs (run : system.RunsUnder NoThreadFailure before events after) :
    .initializeThrew ∉ events := by
  apply run.invariant fun events _ => .initializeThrew ∉ events
  · exact List.not_mem_nil
  · intro events _ _ _ event _ quiet _ permitted
    rw [List.mem_append, List.mem_singleton]
    rintro (earlier | last)
    · exact quiet earlier
    · exact permitted last.symm

/-- A dispatcher whose flags agree and that does not run accepts valid arguments. -/
theorem FlagsAgree.initializeSucceeds (agree : dispatch.FlagsAgree) (idle : dispatch.main = .idle)
    (stopped : dispatch.running = false) (valid : registry.validate graph = some true)
    (hardwareConcurrency : Nat) :
    dispatch.InitializeSucceeds graph registry hardwareConcurrency := by
  rw [FlagsAgree, idle] at agree
  refine ⟨_, step_bound idle stopped valid hardwareConcurrency, ?_⟩
  · intro events reached run unanswered
    have starts : PoolStarts (dispatch.bound graph registry hardwareConcurrency) :=
      agree.symm.trans stopped
    have there := starts.of_runs run unanswered
    refine ⟨fun choice next event transition answers => ?_, there.completes⟩
    by_cases throws : event = .initializeThrew
    · exact .inr throws
    · rcases there.step (step_sound transition) throws with accepted | ⟨open_, _⟩
      · exact .inl accepted
      · exact absurd (answers.symm.trans open_) (by decide)

/-- A broken dispatcher refuses them. -/
theorem Broken.not_initializeSucceeds (broken : dispatch.Broken) :
    ¬ dispatch.InitializeSucceeds graph registry hardwareConcurrency := by
  rintro ⟨entered, called, every⟩
  cases step_sound called with
  | initializeBound idle =>
      have refused : system.step (dispatch.bound graph registry hardwareConcurrency) .main =
          some (_, .initialized false) := step_startPool_refused rfl broken.poolRunning
      rcases (every [] _ .refl (by simp)).1 _ _ _ refused rfl with accepted | threw
      · cases accepted
      · cases threw

/-- While the flags agree, Initialize fails only before it changes anything. -/
theorem Initializes.unchanged
    (initializes : Initializes before graph registry hardwareConcurrency trace after)
    (agree : before.FlagsAgree) (failed : .initialized true ∉ trace)
    (quiet : .initializeThrew ∉ trace) : after = before := by
  cases initializes with
  | atOnce called answers =>
      cases step_sound called with
      | initializeRefused => rfl
      | _ => cases answers
  | @entered first entered events last choice after event called during unanswered returned answers =>
      have moved := step_sound returned
      have answered : event ∈ first :: events ++ [event] :=
        List.mem_append_right _ List.mem_cons_self
      cases step_sound called with
      | initializeRefused => cases unanswered _ List.mem_cons_self
      | initializeFault =>
          -- The scan of the graph has left its arrays, and nothing returns.
          have stuck := fault_of_runs during rfl
          exact absurd ((moved.fault stuck).symm.trans (idle_of_answers moved answers)) (by decide)
      | initializeBound idle stopped =>
          rw [FlagsAgree, idle] at agree
          have starts : PoolStarts (before.bound graph registry hardwareConcurrency) :=
            agree.symm.trans stopped
          have silent : ∀ event ∈ events, event ≠ .initializeThrew := by
            rintro event member rfl
            exact quiet (List.mem_append_left _ (List.mem_cons_of_mem _ member))
          have there := starts.of_runs
            ((during.restrict _ silent).mono fun _ _ _ _ permitted => permitted.2)
            fun event member => unanswered event (List.mem_cons_of_mem _ member)
          rcases there.step moved (fun throws => quiet (throws ▸ answered)) with rfl | ⟨open_, _⟩
          · exact absurd answered failed
          · exact absurd (answers.symm.trans open_) (by decide)

/-- A failed Initialize leaves the dispatcher as it was exactly when no thread
constructor has thrown, in this call or in one before it. -/
theorem failed_initialize_rolls_back_iff (run : system.Runs fresh earlier before)
    (initializes : Initializes before graph registry hardwareConcurrency trace after)
    (failed : .initialized true ∉ trace) :
    RolledBack before after ↔ .initializeThrew ∉ earlier ++ trace := by
  have whole := run.trans initializes.runs
  constructor
  · intro rolledBack threw
    rcases flags_of_runs whole with ⟨_, broken⟩ | ⟨quiet, _⟩
    · exact broken.not_initializeSucceeds (rolledBack.retry [] after .linearGraph .full 1 .refl
        initializes.idle broken.stopped (TaskRegistry.validate_full TaskGraph.linearGraph_wellFormed))
    · exact quiet threw
  · intro quiet
    have agree : before.FlagsAgree := by
      rcases flags_of_runs run with ⟨threw, _⟩ | ⟨_, agree⟩
      · exact absurd (List.mem_append_left _ threw) quiet
      · exact agree
    have same := initializes.unchanged agree failed fun threw =>
      quiet (List.mem_append_right _ threw)
    subst same
    refine ⟨fun _ unstarted => unstarted, rfl, rfl, rfl, rfl, ?_⟩
    intro events later graph registry hardwareConcurrency more idle stopped valid
    rcases flags_of_runs (whole.trans more.runs) with ⟨threw, _⟩ | ⟨_, agree⟩
    · rcases List.mem_append.mp threw with threw | threw
      · exact absurd threw quiet
      · exact absurd threw (not_threw_of_runs more)
    · exact agree.initializeSucceeds idle stopped valid hardwareConcurrency

/-- After a session that has been shut down, a graph with an unregistered task is refused, and
the dispatcher is as it was. -/
theorem refused_initialize_rolls_back : ∃ earlier before,
    system.Runs fresh earlier before ∧ .initialized true ∈ earlier ∧
    .returnedPhase .output ∈ earlier ∧ .returnedShutdown ∈ earlier ∧
    Initializes before .linearGraph { registry := fun _ => none } 2 [.initialized false] before ∧
    RolledBack before before := by
  obtain ⟨earlier, before, run, accepted, ticked, returned, idle, stopped, quiet⟩ :=
    system.runs_of_exec (fun _ _ _ _ => True) fresh
      (.call (.initializeWith .linearGraph .full 1) :: List.replicate 4 .main ++
        .call (.executePhase .output) :: List.replicate 5 .main ++
        .call .shutdown :: .main :: .worker 0 :: List.replicate 262 .main)
      (fun before earlier => .initialized true ∈ earlier ∧ .returnedPhase .output ∈ earlier ∧
        .returnedShutdown ∈ earlier ∧ before.main = .idle ∧ before.running = false ∧
        .initializeThrew ∉ earlier)
      (by decide +kernel)
  have called : system.step before
      (.call (.initializeWith .linearGraph { registry := fun _ => none } 2)) =
        some (before, .initialized false) := by
    have invalid : TaskRegistry.validate { registry := fun _ => none } .linearGraph = some false :=
      rfl
    simp [step, callStep, initializeWith, idle, stopped, invalid]
  have initializes : Initializes before .linearGraph { registry := fun _ => none } 2
      [.initialized false] before := .atOnce called rfl
  refine ⟨earlier, before, run.runs, accepted, ticked, returned, initializes, ?_⟩
  refine (failed_initialize_rolls_back_iff run.runs initializes (by decide)).mpr fun threw => ?_
  rcases List.mem_append.mp threw with before | now
  · exact quiet before
  · exact absurd now (by decide)

/-- The constructor of the second of two threads throws: the first worker goes on, and
the flag of the pool stays set. -/
theorem failed_start_leaves_worker : ¬ ∀ earlier before graph registry hardwareConcurrency trace after,
    system.Runs fresh earlier before →
    Initializes before graph registry hardwareConcurrency trace after →
    .initialized true ∉ trace → RolledBack before after := by
  intro claim
  have called : system.step fresh (.call (.initializeWith .linearGraph .full 2)) =
      some (fresh.bound .linearGraph .full 2, .silent) :=
    step_bound rfl rfl (TaskRegistry.validate_full TaskGraph.linearGraph_wellFormed) 2
  have poolStarted : system.step (fresh.bound .linearGraph .full 2) .main = some
      ({ fresh.bound .linearGraph .full 2 with
          activeWorkerCount := workerCount 2
          poolRunning := true
          main := .startWorker 0 }, .silent) := step_startPool rfl rfl
  have workerStarted : system.step
      { fresh.bound .linearGraph .full 2 with
        activeWorkerCount := workerCount 2
        poolRunning := true
        main := .startWorker 0 } .main = some (_, .silent) :=
    step_startWorker rfl (by decide) (by decide)
  have initializes : Initializes fresh .linearGraph .full 2 _ _ :=
    .entered called (.step (.step .refl poolStarted trivial) workerStarted trivial) (by decide)
      (show system.step _ .threadFailure = some (_, .initializeThrew) from rfl) rfl
  have unchanged := (claim [] fresh _ _ _ _ _ .refl initializes (by decide)).poolRunning
  exact absurd unchanged (by decide)

end JobDispatch
end MmoServer.Runtime
