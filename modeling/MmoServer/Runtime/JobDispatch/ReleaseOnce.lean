import MmoServer.Runtime.JobDispatch.Callers

/-!
# A child is released once

Between two stores of BuildRuntimeState to a child's counter at most one decrement observes
one, whoever calls OnTaskCompleted and for whatever task: `child_released_once`. It is the last
decrement when the counter starts at the number of the child's parents and each of them
decrements it once. A graph that counts the parents wrongly, and a Shutdown in between, leave
the child without a release, and an Enqueue may be late by a tick: `release_exceptions`.
-/

namespace MmoServer.Runtime.Callers

open MmoServer.Std MmoServer.Semantics

variable {count : Nat} {before stored after callers next : Callers count}
  {choice : Choice count} {mover : Mover count} {event : Event} {child : TaskId}
  {graph : TaskGraph} {during events : List (Mover count × Event)}

/-- The values that the decrements of a child's counter have observed, in their order. -/
def observed (child : TaskId) (events : List (Mover count × Event)) : List Nat :=
  events.filterMap fun shown => shown.2.observed? child

/-- The tasks of the graph that have the child among their children. -/
def parents (graph : TaskGraph) (child : TaskId) : Finset TaskId :=
  graph.tasks.filter fun parent => child ∈ graph.children parent

/-- The child has parents, and its node says how many. -/
def CountsParents (graph : TaskGraph) (child : TaskId) : Prop :=
  0 < (parents graph child).card ∧ ∀ index < graph.nodeCount, (graph.node index).id = child →
    (graph.node index).parentCount = (parents graph child).card

instance : Decidable (CountsParents graph child) := inferInstanceAs (Decidable (_ ∧ _))

/-- Each parent decrements the child once, and nobody else does. -/
def DecrementedOnce (graph : TaskGraph) (child : TaskId) (during : List (Mover count × Event)) :
    Prop :=
  (∀ parent ∈ parents graph child, tally (fun shown => shown.2.decrements parent child) during = 1) ∧
    ∀ shown ∈ during, ∀ parent ∈ shown.2.parent? child, parent ∈ parents graph child

instance : Decidable (DecrementedOnce graph child during) := inferInstanceAs (Decidable (_ ∧ _))

/-- One decrement observes one, and it is the last. -/
def FiresLast (child : TaskId) (during : List (Mover count × Event)) : Prop :=
  ∃ earlier, observed child during = earlier ++ [1] ∧ 1 ∉ earlier

/-- No Shutdown of a running dispatcher. -/
def NoShutdown (during : List (Mover count × Event)) : Prop :=
  ∀ shown ∈ during, shown.2 ≠ .calledShutdown

instance : Decidable (NoShutdown during) := inferInstanceAs (Decidable (∀ _ ∈ _, _))

/-- A store of BuildRuntimeState to a child's counter, in any history of the dispatcher, and
what follows it before the next one: every access is inside its array, and the decrements are
less than a counter can tell apart. -/
structure Window (graph : TaskGraph) (child : TaskId) (stored : Callers count)
    (during : List (Mover count × Event)) : Prop where
  built : ∃ events before choice mover, (system count).Runs (fresh count) events before ∧
    before.dispatch.taskGraph = some graph ∧
    (system count).step before choice = some (stored, mover, .builtTask child)
  run : ∃ after, (system count).Runs stored during after
  unbuilt : ∀ shown ∈ during, shown.2 ≠ .builtTask child
  defined : ∀ shown ∈ during, shown.2 ≠ .faulted
  few : (observed child during).length < 2 ^ 32

/-! ## The order of the decrements -/

theorem observed_concat : observed child (during ++ [(mover, event)]) =
    observed child during ++ (event.observed? child).toList :=
  filterMap_concat _ _ _

/-- The counter after a store, by the decrements and the stores of Shutdown. -/
theorem decrements_of_runs (run : (system count).Runs stored during after)
    (outside : stored.dispatch.main.inShutdown = false)
    (unbuilt : ∀ shown ∈ during, shown.2 ≠ .builtTask child)
    (defined : ∀ shown ∈ during, shown.2 ≠ .faulted) :
    Decrements (2 ^ 32) (fun value => value = 0 ∧ ¬ NoShutdown during)
        (stored.dispatch.counter child) (observed child during) (after.dispatch.counter child) ∧
      (after.dispatch.main.inShutdown = true → ¬ NoShutdown during) := by
  have restricted := run.restrict (fun shown => shown.2 ≠ .builtTask child ∧ shown.2 ≠ .faulted)
    fun shown member => ⟨unbuilt shown member, defined shown member⟩
  apply restricted.invariant fun during (after : Callers count) =>
    Decrements (2 ^ 32) (fun value => value = 0 ∧ ¬ NoShutdown during)
        (stored.dispatch.counter child) (observed child during) (after.dispatch.counter child) ∧
      (after.dispatch.main.inShutdown = true → ¬ NoShutdown during)
  · exact ⟨.refl, fun inside => absurd (outside.symm.trans inside) (by decide)⟩
  · rintro during callers choice next ⟨mover, event⟩ - ⟨decrements, inside⟩ transition
      ⟨-, unbuilt, defined⟩
    have later (called : ¬ NoShutdown during) : ¬ NoShutdown (during ++ [(mover, event)]) :=
      fun none => called fun shown member => none shown (List.mem_append_left _ member)
    have wider := decrements.mono fun value allowed => And.intro allowed.1 (later allowed.2)
    refine ⟨?_, fun insideToo => ?_⟩
    · rw [observed_concat]
      cases (step_sound transition).counterMove unbuilt defined with
      | kept unseen same =>
          rw [unseen, same, Option.toList_none, List.append_nil]
          exact wider
      | lowered seen lower =>
          rw [seen, lower]
          exact .fetchSub wider
      | cleared unseen zero there =>
          rw [unseen, zero, Option.toList_none, List.append_nil]
          exact .store wider ⟨rfl, later (inside there)⟩
    · rcases (step_sound transition).inShutdown insideToo with there | rfl
      · exact later (inside there)
      · exact fun none => none (mover, .calledShutdown) (by simp) rfl

/-- Every Enqueue of ReleaseSuccessors was pending or comes from a decrement that observed
one. -/
theorem enqueues_of_runs (run : (system count).Runs stored during after) :
    tally (enqueues child) during + after.offers child ≤
      stored.offers child + (observed child during).count 1 := by
  apply run.invariant fun during (after : Callers count) =>
    tally (enqueues child) during + after.offers child ≤
      stored.offers child + (observed child during).count 1
  · simp [observed]
  · rintro during callers choice next ⟨mover, event⟩ - balance transition -
    have traded : _ ≤ callers.offers child + _ := (step_sound transition).offers_le
    have fired : (if event.releases child then 1 else 0) ≤
        (event.observed? child).toList.count 1 := by
      split
      · next ready => rw [(step_sound transition).ready ready, Option.toList_some, List.count_singleton_self]
      · exact Nat.zero_le _
    rw [tally_concat, observed_concat, List.count_append]
    omega

/-- A decrement of the child is one of one parent. -/
theorem decrement_split {parents : Finset TaskId}
    (inside : ∀ parent ∈ event.parent? child, parent ∈ parents) :
    (if (event.observed? child).isSome then 1 else 0) =
      ∑ parent ∈ parents, if event.decrements parent child then 1 else 0 := by
  cases event with
  | decremented worker task target old ready =>
      by_cases same : target = child
      · have member : task ∈ parents := inside task (if_pos same)
        simp [Event.observed?, same, member]
      · simp [Event.observed?, same]
  | _ => simp [Event.observed?]

/-- Each parent once and nobody else are as many decrements as there are parents. -/
theorem DecrementedOnce.length (once : DecrementedOnce graph child during) :
    (observed child during).length = (parents graph child).card := by
  obtain ⟨each, others⟩ := once
  calc (observed child during).length
      = tally (fun shown => (shown.2.observed? child).isSome) during := by
        rw [observed, List.length_filterMap_eq_countP]
        rfl
    _ = ∑ parent ∈ parents graph child,
          tally (fun shown => shown.2.decrements parent child) during :=
        tally_eq_sum fun shown member => decrement_split (others shown member)
    _ = ∑ parent ∈ parents graph child, 1 := Finset.sum_congr rfl each
    _ = (parents graph child).card := (Finset.card_eq_sum_ones _).symm

/-! ## Evaluating windows -/

section Evaluation

variable (child : TaskId) (later : List (Choice count))
  (check : TaskGraph → Callers count → List (Mover count × Event) → Prop)
  [decidable : ∀ graph stored during, Decidable (check graph stored during)]

/-- The runtime thread's next step is a store to the child's counter, and the choices lead
through a window that passes a check. -/
def Opens (before : Callers count) : Prop :=
  ∃ graph ∈ before.dispatch.taskGraph, ∃ built ∈ before.step (.dispatch .main),
    built.2.2 = .builtTask child ∧
      ((system count).exec (fun _ _ _ _ => True) [] built.1 later).any (fun finished => decide
        ((∀ shown ∈ finished.2, shown.2 ≠ .builtTask child ∧ shown.2 ≠ .faulted) ∧
          (observed child finished.2).length < 2 ^ 32 ∧ check graph built.1 finished.2)) = true

instance (before : Callers count) : Decidable (Opens child later check before) :=
  inferInstanceAs (Decidable (∃ _ ∈ _, _))

/-- A window is found by evaluating what leads to the store and what follows it. -/
theorem exists_window (earlier : List (Choice count))
    (evaluated : ((system count).exec (fun _ _ _ _ => True) [] (fresh count) earlier).any
      (fun reached => decide (Opens child later check reached.1)) = true) :
    ∃ graph stored during, Window graph child stored during ∧ check graph stored during := by
  obtain ⟨events, before, run, graph, bound, ⟨stored, mover, shown⟩, built, same, continued⟩ :=
    (system count).runs_of_exec (fun _ _ _ _ => True) (fresh count) earlier
      (fun before _ => Opens child later check before) evaluated
  obtain rfl : shown = .builtTask child := same
  obtain ⟨during, after, rest, quiet, few, checked⟩ :=
    (system count).runs_of_exec (fun _ _ _ _ => True) stored later
      (fun _ during => (∀ shown ∈ during, shown.2 ≠ .builtTask child ∧ shown.2 ≠ .faulted) ∧
        (observed child during).length < 2 ^ 32 ∧ check graph stored during) continued
  exact ⟨graph, stored, during,
    { built := ⟨events, before, .dispatch .main, mover, run, bound, built⟩
      run := ⟨after, rest⟩
      unbuilt := fun shown member => (quiet shown member).1
      defined := fun shown member => (quiet shown member).2
      few := few }, checked⟩

end Evaluation

/-- The choices of the dispatcher's own threads. -/
def own (choices : List Runtime.Choice) : List (Choice count) := choices.map .dispatch

/-! ## The windows between two stores -/

/-- In a window at most one decrement observes one, and ReleaseSuccessors enqueues the child
at most once on top of what was pending. With the right number of parents, and no Shutdown,
the last of one decrement from each parent is the one that observes one. -/
theorem child_released_once (window : Window graph child stored during) :
    (observed child during).count 1 ≤ 1 ∧
      tally (enqueues child) during ≤ stored.offers child + 1 ∧
      (CountsParents graph child → NoShutdown during → DecrementedOnce graph child during →
        FiresLast child during) := by
  obtain ⟨⟨events, before, choice, mover, -, bound, built⟩, ⟨after, run⟩, unbuilt, defined, few⟩ :=
    window
  obtain ⟨outside, index, inside, id, value⟩ := (step_sound built).built bound
  obtain ⟨decrements, -⟩ := decrements_of_runs run outside unbuilt defined
  have once := (decrements.mono fun value allowed => allowed.1).count_one_le few
  refine ⟨once, ?_, fun counts none released => ?_⟩
  · have enqueued : tally (enqueues child) during + _ ≤ _ := enqueues_of_runs run
    omega
  · have start : stored.dispatch.counter child = (observed child during).length := by
      rw [value, counts.2 index inside id, released.length]
    refine (decrements.mono fun value allowed => (allowed.2 none).elim).fires_last ?_ ?_ start.symm
    · rw [start, released.length]
      exact counts.1
    · rw [start]
      exact Nat.le_of_lt few

/-- A tick of the chain with two workers: task 0 releases task 1 once. -/
theorem chain_child_released_once : ∃ graph, ∃ stored : Callers 0, ∃ during,
    Window graph 1 stored during ∧ observed 1 during = [1] ∧
      ((observed 1 during).count 1 ≤ 1 ∧ tally (enqueues 1) during ≤ stored.offers 1 + 1) ∧
      FiresLast 1 during := by
  obtain ⟨graph, stored, during, window, counts, none, released, fired⟩ := exists_window 1
    (own (List.replicate 7 .main ++ JobDispatch.work 0 7))
    (fun graph (_ : Callers 0) during => CountsParents graph 1 ∧ NoShutdown during ∧
      DecrementedOnce graph 1 during ∧ observed 1 during = [1])
    (own (.call (.initializeWith .linearGraph .full 2) :: List.replicate 5 .main ++
      JobDispatch.callThen .input 3))
    (by decide +kernel)
  obtain ⟨once, enqueued, last⟩ := child_released_once window
  exact ⟨graph, stored, during, window, fired, ⟨once, enqueued⟩, last counts none released⟩

/-! ## What the conditions are for -/

/-- Task 0 releases task 1, which counts its parents as it is told to; both belong to the
simulation phase. -/
def pairGraph (parentCount : Nat) : TaskGraph where
  nodes := fun index =>
    match index.val with
    | 0 => { id := 0, phaseId := .simulation, childCount := 1 }
    | 1 => { id := 1, phaseId := .simulation, dependencyOffset := 1, parentCount }
    | _ => {}
  nodeCount := 2
  childTaskIds := fun _ => 1
  phaseRanges := fun phase => if phase.val = 1 then { begin := 0, count := 2 } else {}
  taskIdToNodeIndex := fun index => if index.val < 2 then index.val else 0

/-- Initialize with one worker, and ExecutePhase up to the store for task 1. -/
def toPairStore (parentCount : Nat) : List (Choice count) :=
  own (.call (.initializeWith (pairGraph parentCount) .full 1) :: List.replicate 4 .main ++
    JobDispatch.callThen .input 3)

/-- A task that counts two parents and has one is not released: its parent observes two. -/
theorem miscounted_not_released : ∃ graph, ∃ stored : Callers 0, ∃ during,
    Window graph 1 stored during ∧ NoShutdown during ∧ DecrementedOnce graph 1 during ∧
      observed 1 during = [2] :=
  exists_window 1
    (own (List.replicate 4 .main ++ JobDispatch.callThen .simulation 8 ++ JobDispatch.work 0 6))
    (fun graph _ during =>
      NoShutdown during ∧ DecrementedOnce graph 1 during ∧ observed 1 during = [2])
    (toPairStore 2) (by decide +kernel)

/-- After a Shutdown and another Initialize the simulation phase finds the counters at zero,
and the parent observes that. -/
theorem cleared_not_released : ∃ graph, ∃ stored : Callers 0, ∃ during,
    Window graph 1 stored during ∧ CountsParents graph 1 ∧ DecrementedOnce graph 1 during ∧
      observed 1 during = [0] :=
  exists_window 1
    (own (List.replicate 4 .main ++ [.call .shutdown, .main] ++ JobDispatch.work 0 1 ++
      List.replicate 262 .main ++ .call (.initializeWith (pairGraph 1) .full 1) ::
      List.replicate 4 .main ++ JobDispatch.callThen .simulation 6 ++ JobDispatch.work 0 6))
    (fun graph _ during =>
      CountsParents graph 1 ∧ DecrementedOnce graph 1 during ∧ observed 1 during = [0])
    (toPairStore 1) (by decide +kernel)

/-- A worker that has released task 2 of the diamond enqueues it only in the next tick, in
which it is released again. -/
theorem pending_enqueued_twice : ∃ graph, ∃ stored : Callers 0, ∃ during,
    Window graph 2 stored during ∧ CountsParents graph 2 ∧ NoShutdown during ∧
      tally (enqueues 2) during = 2 :=
  exists_window 2
    (own (JobDispatch.work 0 1 ++ List.replicate 6 .main ++ JobDispatch.work 1 20))
    (fun graph _ during =>
      CountsParents graph 2 ∧ NoShutdown during ∧ tally (enqueues 2) during = 2)
    (own (.call (.initializeWith .diamondGraph .full 2) :: List.replicate 5 .main ++
      JobDispatch.callThen .input 15 ++ JobDispatch.work 0 7 ++ JobDispatch.work 1 8 ++ [.main] ++
      JobDispatch.work 0 2 ++ JobDispatch.callThen .input 4))
    (by decide +kernel)

/-- None of the conditions can go: the right number of parents, no Shutdown in between, and
for the Enqueues those that were pending at the store. -/
theorem release_exceptions :
    (¬ ∀ graph child (stored : Callers 0) during, Window graph child stored during →
      NoShutdown during → DecrementedOnce graph child during → FiresLast child during) ∧
    (¬ ∀ graph child (stored : Callers 0) during, Window graph child stored during →
      CountsParents graph child → DecrementedOnce graph child during → FiresLast child during) ∧
    ¬ ∀ graph child (stored : Callers 0) during, Window graph child stored during →
      CountsParents graph child → NoShutdown during → tally (enqueues child) during ≤ 1 := by
  refine ⟨fun claim => ?_, fun claim => ?_, fun claim => ?_⟩
  · obtain ⟨graph, stored, during, window, none, released, two⟩ := miscounted_not_released
    obtain ⟨earlier, fires, -⟩ := claim graph 1 stored during window none released
    rw [two] at fires
    exact absurd (congrArg List.getLast? fires) (by simp)
  · obtain ⟨graph, stored, during, window, counts, released, zero⟩ := cleared_not_released
    obtain ⟨earlier, fires, -⟩ := claim graph 1 stored during window counts released
    rw [zero] at fires
    exact absurd (congrArg List.getLast? fires) (by simp)
  · obtain ⟨graph, stored, during, window, counts, none, twice⟩ := pending_enqueued_twice
    have once := claim graph 2 stored during window counts none
    omega

end MmoServer.Runtime.Callers
