import MmoServer.Runtime.TaskGraph

/-!
# The task registry

A fixed table from task id to task function. `validate` is the scan Initialize
runs over the graph; it answers `none` where the scan itself would read a node
outside the node array, and it looks at nothing but the ids of the first
`nodeCount` nodes.
-/

namespace MmoServer.Runtime

open MmoServer.Std

/-- A non-null function pointer; nothing in the dispatcher looks inside it. -/
structure TaskFunction where
  entry : Nat
deriving DecidableEq

/-- The function of every task id, as far as one is registered. -/
structure TaskRegistry where
  registry : FixedArray (Option TaskFunction) taskGraphMaxNodesV1 := fun _ => none

namespace TaskRegistry

variable (tasks : TaskRegistry)

/-- TaskRegistry::Register: refuses ids outside the table. -/
def register (id : TaskId) (function : Option TaskFunction) : TaskRegistry × Bool :=
  if id ≥ taskGraphMaxNodesV1 then (tasks, false)
  else ({ registry := tasks.registry.set id function }, true)

/-- TaskRegistry::Resolve: null outside the table. -/
def resolve (id : TaskId) : Option TaskFunction :=
  if id ≥ taskGraphMaxNodesV1 then none else (tasks.registry.at? id).join

/-- TaskRegistry::IsRegistered. -/
def isRegistered (id : TaskId) : Bool := (tasks.resolve id).isSome

/-- The loop of TaskRegistry::Validate from one index on. -/
def validateFrom (graph : TaskGraph) : Nat → Nat → Option Bool
  | 0, _ => some true
  | remaining + 1, index =>
    match graph.node? index with
    | none => none
    | some node =>
      if tasks.isRegistered node.id then validateFrom graph remaining (index + 1) else some false

/-- TaskRegistry::Validate; `none` when it indexes past the node array. -/
def validate (graph : TaskGraph) : Option Bool := tasks.validateFrom graph graph.nodeCount 0

/-- The registry that holds a function for every id of its table. -/
def full : TaskRegistry where
  registry := fun _ => some ⟨0⟩

variable {tasks} {graph : TaskGraph}

theorem lt_of_isRegistered {id : TaskId} (registered : tasks.isRegistered id = true) :
    id < taskGraphMaxNodesV1 := by
  by_contra outside
  simp [isRegistered, resolve, Nat.not_lt.mp outside] at registered

/-- What `register` stores is what `resolve` finds, and no other slot moves. -/
theorem resolve_register {id other : TaskId} {function : Option TaskFunction}
    (inside : id < taskGraphMaxNodesV1) :
    (tasks.register id function).1.resolve other =
      if other = id then function else tasks.resolve other := by
  by_cases same : other = id
  · subst same
    simp [register, resolve, FixedArray.at?, Nat.not_le.mpr inside, inside]
  · by_cases outside : other ≥ taskGraphMaxNodesV1
    · simp [resolve, outside, same]
    · simp [register, resolve, FixedArray.at?, Nat.not_le.mpr inside, outside, same]

theorem validateFrom_eq_true {remaining index : Nat} :
    tasks.validateFrom graph remaining index = some true ↔
      ∀ position, index ≤ position → position < index + remaining →
        position < taskGraphMaxNodesV1 ∧ tasks.isRegistered (graph.node position).id = true := by
  induction remaining generalizing index with
  | zero =>
      simp only [validateFrom, Nat.add_zero, true_iff]
      intro position above below
      omega
  | succ remaining ih =>
      rw [validateFrom]
      constructor
      · intro accepted position above below
        cases found : graph.node? index with
        | none => simp [found] at accepted
        | some node =>
            obtain ⟨inside, same⟩ := FixedArray.at?_eq_some_iff.mp found
            simp only [found] at accepted
            split at accepted
            · next registered =>
              rcases Nat.eq_or_lt_of_le above with rfl | later
              · exact ⟨inside, by rw [TaskGraph.node, same]; exact registered⟩
              · exact ih.mp accepted position later (by omega)
            · cases accepted
      · intro safe
        obtain ⟨inside, registered⟩ := safe index (Nat.le_refl _) (by omega)
        have found : graph.node? index = some (graph.node index) :=
          FixedArray.at?_eq_some_peek inside
        simp only [found, registered, if_true]
        exact ih.mpr fun position above below => safe position (by omega) (by omega)

/-- Validation succeeds exactly on graphs whose node count fits the node array
and whose counted nodes all carry registered ids. -/
theorem validate_eq_true_iff :
    tasks.validate graph = some true ↔
      graph.nodeCount ≤ taskGraphMaxNodesV1 ∧
        ∀ index < graph.nodeCount, tasks.isRegistered (graph.node index).id = true := by
  rw [validate, validateFrom_eq_true]
  constructor
  · intro safe
    refine ⟨?_, fun index inside => (safe index (Nat.zero_le _) (by omega)).2⟩
    by_contra large
    have outside := (safe taskGraphMaxNodesV1 (Nat.zero_le _) (by omega)).1
    exact Nat.lt_irrefl _ outside
  · rintro ⟨small, registered⟩ position _ below
    exact ⟨by omega, registered position (by omega)⟩

theorem validateFrom_eq_none {remaining index : Nat} (start : index ≤ taskGraphMaxNodesV1) :
    tasks.validateFrom graph remaining index = none ↔
      taskGraphMaxNodesV1 < index + remaining ∧ ∀ position, index ≤ position →
        position < taskGraphMaxNodesV1 → tasks.isRegistered (graph.node position).id = true := by
  induction remaining generalizing index with
  | zero =>
      simp only [validateFrom, reduceCtorEq, false_iff]
      omega
  | succ remaining ih =>
      rw [validateFrom]
      by_cases inside : index < taskGraphMaxNodesV1
      · have found : graph.node? index = some (graph.node index) :=
          FixedArray.at?_eq_some_peek inside
        simp only [found]
        split
        · next registered =>
          rw [ih inside]
          constructor
          · rintro ⟨beyond, later⟩
            refine ⟨by omega, fun position above below => ?_⟩
            rcases Nat.eq_or_lt_of_le above with rfl | after
            · exact registered
            · exact later position after below
          · rintro ⟨beyond, later⟩
            exact ⟨by omega, fun position above below => later position (by omega) below⟩
        · next unregistered =>
          simp only [reduceCtorEq, false_iff]
          rintro ⟨_, every⟩
          exact unregistered (every index (Nat.le_refl _) inside)
      · have outside : graph.node? index = none := FixedArray.at?_eq_none (Nat.not_lt.mp inside)
        simp only [outside, true_iff]
        exact ⟨by omega, fun position above below => by omega⟩

/-- The scan leaves the node array exactly when the node count is beyond its end
and nothing stops it before. -/
theorem validate_eq_none_iff :
    tasks.validate graph = none ↔ taskGraphMaxNodesV1 < graph.nodeCount ∧
      ∀ index < taskGraphMaxNodesV1, tasks.isRegistered (graph.node index).id = true := by
  rw [validate, validateFrom_eq_none (Nat.zero_le _), Nat.zero_add]
  simp

theorem isRegistered_full {id : TaskId} (inside : id < taskGraphMaxNodesV1) :
    full.isRegistered id = true := by
  simp [isRegistered, resolve, full, FixedArray.at?, inside, Nat.not_le.mpr inside]

/-- The full registry validates every well-formed graph. -/
theorem validate_full (wellFormed : graph.WellFormed) : full.validate graph = some true :=
  validate_eq_true_iff.mpr ⟨wellFormed.nodeCount_le,
    fun index inside => isRegistered_full (wellFormed.id_lt index inside)⟩

end TaskRegistry
end MmoServer.Runtime
