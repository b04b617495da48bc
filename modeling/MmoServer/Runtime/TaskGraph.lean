import Mathlib.Algebra.BigOperators.Group.Finset.Basic
import Mathlib.Algebra.BigOperators.Group.Finset.Piecewise
import Mathlib.Algebra.Order.BigOperators.Group.Finset
import Mathlib.Data.Finset.Image
import Mathlib.Logic.Relation
import Mathlib.Order.WellFounded
import Mathlib.Order.RelClasses
import Mathlib.Data.Fintype.Defs
import MmoServer.Std.FixedArray

/-!
# Task graphs

The compact graph JobDispatch runs: nodes in one array, children of all nodes
in one CSR array of task ids, one contiguous node range for each phase, and an
index table from task id to node position. Fixed-width unsigned fields are
naturals here; the one sum the code takes modulo `2 ^ 32` is `childSlot`.

`WellFormed` is what a graph builder promises and what TaskRegistry does not
check. Every field is decidable on a concrete graph except acyclicity, for which
`acyclic_of_rank` takes a topological rank.
-/

namespace MmoServer.Runtime

open MmoServer.Std

/-- Task identifiers are unsigned integers that index fixed tables. -/
abbrev TaskId := Nat

/-- The id of no task. -/
abbrev invalidTaskId : TaskId := 0xFFFF
/-- The slots of the node array. -/
abbrev taskGraphMaxNodesV1 : Nat := 256
/-- The slots of the array of children. -/
abbrev taskGraphMaxDependenciesV1 : Nat := 1024
/-- The number of phases. -/
abbrev runtimePhaseCountV1 : Nat := 4

/-- The four runtime phases, in the order of their enumerators. -/
inductive RuntimePhaseId where
  | input
  | simulation
  | postSimulation
  | output
deriving DecidableEq

instance : Fintype RuntimePhaseId where
  elems := {.input, .simulation, .postSimulation, .output}
  complete := by rintro (_ | _ | _ | _) <;> decide

/-- The enumerator's value, used as an index into `phaseRanges`. -/
def RuntimePhaseId.index : RuntimePhaseId → Nat
  | .input => 0
  | .simulation => 1
  | .postSimulation => 2
  | .output => 3

theorem RuntimePhaseId.index_lt (phase : RuntimePhaseId) : phase.index < runtimePhaseCountV1 := by
  cases phase <;> decide

theorem RuntimePhaseId.index_injective : Function.Injective RuntimePhaseId.index := by
  intro left right same
  cases left <;> cases right <;> first | rfl | cases same

/-- A task: its phase, the slice of its children and the number of its parents. -/
structure TaskNode where
  id : TaskId := invalidTaskId
  phaseId : RuntimePhaseId := .input
  dependencyOffset : Nat := 0
  childCount : Nat := 0
  parentCount : Nat := 0
deriving DecidableEq

instance : Inhabited TaskNode := ⟨{}⟩

/-- The slice of the node array that belongs to a phase. -/
structure PhaseRange where
  begin : Nat := 0
  count : Nat := 0
deriving DecidableEq

instance : Inhabited PhaseRange := ⟨{}⟩

/-- The arrays of a compiled graph, as the dispatcher reads them. -/
structure TaskGraph where
  nodes : FixedArray TaskNode taskGraphMaxNodesV1 := fun _ => {}
  nodeCount : Nat := 0
  childTaskIds : FixedArray TaskId taskGraphMaxDependenciesV1 := fun _ => 0
  phaseRanges : FixedArray PhaseRange runtimePhaseCountV1 := fun _ => {}
  taskIdToNodeIndex : FixedArray TaskId taskGraphMaxNodesV1 := fun _ => 0

namespace TaskGraph

variable (graph : TaskGraph)

/-- `graph.nodes[index]`. -/
def node? (index : Nat) : Option TaskNode := graph.nodes.at? index

/-- JobDispatch::GetNode: two dependent array accesses. -/
def getNode (id : TaskId) : Option TaskNode :=
  (graph.taskIdToNodeIndex.at? id).bind graph.node?

/-- The CSR position of a node's child, computed in 32 bits. -/
def childSlot (node : TaskNode) (position : Nat) : Nat :=
  (node.dependencyOffset + position) % 2 ^ 32

/-- `graph.childTaskIds[node.dependencyOffset + position]`. -/
def child? (node : TaskNode) (position : Nat) : Option TaskId :=
  graph.childTaskIds.at? (childSlot node position)

/-- `graph.phaseRanges[phase]`; the four enumerators are always in range. -/
def phaseRange (phase : RuntimePhaseId) : PhaseRange :=
  graph.phaseRanges ⟨phase.index, phase.index_lt⟩

/-! ## The graph a well-formed value denotes -/

/-- The node at a position, read totally. -/
def node (index : Nat) : TaskNode := graph.nodes.peek index

/-- The node of a task, found through the index table. -/
def nodeOf (task : TaskId) : TaskNode := graph.node (graph.taskIdToNodeIndex.peek task)

/-- The identifiers of the graph's nodes. -/
def tasks : Finset TaskId := (Finset.range graph.nodeCount).image fun index => (graph.node index).id

/-- The children a node names, in CSR order. -/
def childrenAt (node : TaskNode) : List TaskId :=
  (List.range node.childCount).map fun position =>
    graph.childTaskIds.peek (node.dependencyOffset + position)

/-- The children of a task, in CSR order. -/
def children (task : TaskId) : List TaskId := graph.childrenAt (graph.nodeOf task)

/-- The phase a task belongs to. -/
def phaseOf (task : TaskId) : RuntimePhaseId := (graph.nodeOf task).phaseId

/-- The number of edges of the graph that end in a task. -/
def inDegree (task : TaskId) : Nat := ∑ parent ∈ graph.tasks, (graph.children parent).count task

/-- `parent` must finish before `child` starts. -/
def Edge (parent child : TaskId) : Prop := parent ∈ graph.tasks ∧ child ∈ graph.children parent

/-- No task depends on itself, directly or through others. -/
def Acyclic : Prop := ∀ task, ¬ Relation.TransGen graph.Edge task task

/-- The structural promises of a task graph. -/
structure WellFormed : Prop where
  nodeCount_le : graph.nodeCount ≤ taskGraphMaxNodesV1
  id_lt : ∀ index < graph.nodeCount, (graph.node index).id < taskGraphMaxNodesV1
  index_of_id : ∀ index < graph.nodeCount,
    graph.taskIdToNodeIndex.peek (graph.node index).id = index
  slice_le : ∀ index < graph.nodeCount,
    (graph.node index).dependencyOffset + (graph.node index).childCount ≤ taskGraphMaxDependenciesV1
  child_mem : ∀ index < graph.nodeCount,
    ∀ child ∈ graph.childrenAt (graph.node index), child ∈ graph.tasks
  child_nodup : ∀ index < graph.nodeCount, (graph.childrenAt (graph.node index)).Nodup
  parentCount_eq : ∀ index < graph.nodeCount,
    (graph.node index).parentCount = graph.inDegree (graph.node index).id
  acyclic : graph.Acyclic
  edge_forward : ∀ index < graph.nodeCount, ∀ child ∈ graph.childrenAt (graph.node index),
    (graph.node index).phaseId.index ≤ (graph.phaseOf child).index
  range_le : ∀ phase, (graph.phaseRange phase).count = 0 ∨
    (graph.phaseRange phase).begin + (graph.phaseRange phase).count ≤ graph.nodeCount
  range_exact : ∀ phase, ∀ index < graph.nodeCount,
    ((graph.phaseRange phase).begin ≤ index ∧
      index < (graph.phaseRange phase).begin + (graph.phaseRange phase).count) ↔
    (graph.node index).phaseId = phase

variable {graph}

/-- A task has as many children as its node says. -/
theorem length_children (task : TaskId) :
    (graph.children task).length = (graph.nodeOf task).childCount := by
  simp [children, childrenAt]

/-- A rank that grows along every edge excludes cycles. -/
theorem acyclic_of_rank (rank : TaskId → Nat)
    (grows : ∀ parent ∈ graph.tasks, ∀ child ∈ graph.children parent, rank parent < rank child) :
    graph.Acyclic := by
  have path : ∀ {first last}, Relation.TransGen graph.Edge first last → rank first < rank last := by
    intro first last steps
    induction steps with
    | single edge => exact grows _ edge.1 _ edge.2
    | tail _ edge ih => exact Nat.lt_trans ih (grows _ edge.1 _ edge.2)
  intro task cycle
  exact Nat.lt_irrefl _ (path cycle)

/-- The tasks are the ids of the nodes. -/
theorem mem_tasks_iff {task : TaskId} :
    task ∈ graph.tasks ↔ ∃ index < graph.nodeCount, (graph.node index).id = task := by
  simp [tasks]

namespace WellFormed

variable (wellFormed : graph.WellFormed) {task parent child : TaskId}

include wellFormed

/-- The index table leads from an id back to its node. -/
theorem nodeOf_id {index : Nat} (inside : index < graph.nodeCount) :
    graph.nodeOf (graph.node index).id = graph.node index := by
  rw [nodeOf, wellFormed.index_of_id index inside]

/-- The position of a task of the graph. -/
theorem exists_index (member : task ∈ graph.tasks) :
    ∃ index < graph.nodeCount, graph.nodeOf task = graph.node index ∧
      (graph.node index).id = task := by
  obtain ⟨index, inside, rfl⟩ := mem_tasks_iff.mp member
  exact ⟨index, inside, wellFormed.nodeOf_id inside, rfl⟩

/-- A node below the node count is in the array. -/
theorem node?_eq {index : Nat} (inside : index < graph.nodeCount) :
    graph.node? index = some (graph.node index) :=
  FixedArray.at?_eq_some_peek (Nat.lt_of_lt_of_le inside wellFormed.nodeCount_le)

/-- An id is below the size of the tables. -/
theorem task_lt (member : task ∈ graph.tasks) : task < taskGraphMaxNodesV1 := by
  obtain ⟨index, inside, rfl⟩ := mem_tasks_iff.mp member
  exact wellFormed.id_lt index inside

/-- GetNode never leaves its tables for a task of the graph. -/
theorem getNode_eq (member : task ∈ graph.tasks) :
    graph.getNode task = some (graph.nodeOf task) := by
  obtain ⟨index, inside, rfl⟩ := mem_tasks_iff.mp member
  rw [getNode, FixedArray.at?_eq_some_peek (wellFormed.id_lt index inside),
    wellFormed.index_of_id index inside, Option.bind_some, wellFormed.node?_eq inside,
    wellFormed.nodeOf_id inside]

/-- The children are tasks of the graph. -/
theorem child_mem_tasks (member : parent ∈ graph.tasks) (edge : child ∈ graph.children parent) :
    child ∈ graph.tasks := by
  obtain ⟨index, inside, same, _⟩ := wellFormed.exists_index member
  rw [children, same] at edge
  exact wellFormed.child_mem index inside child edge

/-- No child is named twice. -/
theorem children_nodup (member : parent ∈ graph.tasks) : (graph.children parent).Nodup := by
  obtain ⟨index, inside, same, _⟩ := wellFormed.exists_index member
  rw [children, same]
  exact wellFormed.child_nodup index inside

/-- No edge leads to an earlier phase. -/
theorem phaseOf_le (member : parent ∈ graph.tasks) (edge : child ∈ graph.children parent) :
    (graph.phaseOf parent).index ≤ (graph.phaseOf child).index := by
  obtain ⟨index, inside, same, _⟩ := wellFormed.exists_index member
  rw [children, same] at edge
  rw [phaseOf, same]
  exact wellFormed.edge_forward index inside child edge

/-- The parent count is the number of edges into the task. -/
theorem parentCount_eq_inDegree (member : task ∈ graph.tasks) :
    (graph.nodeOf task).parentCount = graph.inDegree task := by
  obtain ⟨index, inside, same, id⟩ := wellFormed.exists_index member
  rw [same, wellFormed.parentCount_eq index inside, id]

/-- The CSR access of a child position reads that child. -/
theorem child?_eq (member : parent ∈ graph.tasks) {position : Nat}
    (inside : position < (graph.nodeOf parent).childCount) :
    graph.child? (graph.nodeOf parent) position = (graph.children parent)[position]? := by
  obtain ⟨index, within, same, _⟩ := wellFormed.exists_index member
  have slice := wellFormed.slice_le index within
  rw [← same] at slice
  have bounded : (graph.nodeOf parent).dependencyOffset + position < taskGraphMaxDependenciesV1 := by
    omega
  have slot : childSlot (graph.nodeOf parent) position =
      (graph.nodeOf parent).dependencyOffset + position := by
    have limit : taskGraphMaxDependenciesV1 = 1024 := rfl
    unfold childSlot
    omega
  rw [child?, slot, FixedArray.at?_eq_some_peek bounded]
  simp [children, childrenAt, inside]

theorem card_tasks_le : graph.tasks.card ≤ taskGraphMaxNodesV1 :=
  Nat.le_trans (Nat.le_trans Finset.card_image_le (by simp)) wellFormed.nodeCount_le

/-- A task counts at most one edge from each parent. -/
theorem inDegree_eq_sum :
    graph.inDegree task =
      ∑ parent ∈ graph.tasks, if task ∈ graph.children parent then 1 else 0 := by
  refine Finset.sum_congr rfl fun parent member => ?_
  rw [List.Nodup.count (wellFormed.children_nodup member)]

theorem inDegree_le : graph.inDegree task ≤ taskGraphMaxNodesV1 := by
  rw [wellFormed.inDegree_eq_sum]
  refine Nat.le_trans (Finset.sum_le_card_nsmul _ _ 1 fun parent _ => ?_) ?_
  · split <;> omega
  · simpa using wellFormed.card_tasks_le

/-- Dependency order is well founded: a parent has fewer ancestors than its
children, because the parent itself is one of theirs and none of its own. -/
theorem edge_wellFounded : WellFounded graph.Edge := by
  classical
  let ancestors : TaskId → Finset TaskId := fun task =>
    graph.tasks.filter fun first => Relation.TransGen graph.Edge first task
  refine Subrelation.wf (r := fun left right => (ancestors left).card < (ancestors right).card)
    ?_ (measure fun task => (ancestors task).card).wf
  intro parent child edge
  apply Finset.card_lt_card
  refine Finset.ssubset_iff_of_subset ?_ |>.mpr ⟨parent, ?_, ?_⟩
  · intro first member
    simp only [ancestors, Finset.mem_filter] at member ⊢
    exact ⟨member.1, member.2.tail edge⟩
  · simpa [ancestors] using ⟨edge.1, Relation.TransGen.single edge⟩
  · simpa [ancestors] using fun _ => wellFormed.acyclic parent

/-- A position of a phase range is a node of that phase. -/
theorem node_of_range {phase : RuntimePhaseId} {position : Nat}
    (inside : position < (graph.phaseRange phase).count) :
    (graph.phaseRange phase).begin + position < graph.nodeCount ∧
      (graph.node ((graph.phaseRange phase).begin + position)).phaseId = phase := by
  have within : (graph.phaseRange phase).begin + position < graph.nodeCount := by
    rcases wellFormed.range_le phase with empty | fits <;> omega
  exact ⟨within, (wellFormed.range_exact phase _ within).mp ⟨by omega, by omega⟩⟩

/-- Every task has exactly one position, inside the range of its phase. -/
theorem range_of_task (member : task ∈ graph.tasks) :
    ∃ position < (graph.phaseRange (graph.phaseOf task)).count,
      (graph.node ((graph.phaseRange (graph.phaseOf task)).begin + position)).id = task := by
  obtain ⟨index, inside, same, id⟩ := wellFormed.exists_index member
  have phase : (graph.node index).phaseId = graph.phaseOf task := by rw [phaseOf, same]
  obtain ⟨above, below⟩ := (wellFormed.range_exact _ index inside).mpr phase
  refine ⟨index - (graph.phaseRange (graph.phaseOf task)).begin, by omega, ?_⟩
  rw [Nat.add_sub_cancel' above]
  exact id

end WellFormed

/-! ## Two small graphs -/

/-- Three tasks of the input phase in a chain, listed in dependency order. -/
def linearGraph : TaskGraph where
  nodes := fun index =>
    match index.val with
    | 0 => { id := 0, childCount := 1 }
    | 1 => { id := 1, dependencyOffset := 1, childCount := 1, parentCount := 1 }
    | 2 => { id := 2, parentCount := 1 }
    | _ => {}
  nodeCount := 3
  childTaskIds := fun index => if index.val = 0 then 1 else if index.val = 1 then 2 else 0
  phaseRanges := fun index => if index.val = 0 then { begin := 0, count := 3 } else {}
  taskIdToNodeIndex := fun index => if index.val < 3 then index.val else 0

/-- The chain is well formed. -/
theorem linearGraph_wellFormed : linearGraph.WellFormed where
  nodeCount_le := by decide
  id_lt := by decide
  index_of_id := by decide
  slice_le := by decide
  child_mem := by decide
  child_nodup := by decide
  parentCount_eq := by decide
  acyclic := acyclic_of_rank id (by decide)
  edge_forward := by decide
  range_le := by decide
  range_exact := by decide

/-- Task 0 releases tasks 1 and 2, which both release task 3; all of them belong
to the input phase. -/
def diamondGraph : TaskGraph where
  nodes := fun index =>
    match index.val with
    | 0 => { id := 0, childCount := 2 }
    | 1 => { id := 1, dependencyOffset := 2, childCount := 1, parentCount := 1 }
    | 2 => { id := 2, dependencyOffset := 3, childCount := 1, parentCount := 1 }
    | 3 => { id := 3, parentCount := 2 }
    | _ => {}
  nodeCount := 4
  childTaskIds := fun index => if index.val = 0 then 1 else if index.val = 1 then 2 else 3
  phaseRanges := fun index => if index.val = 0 then { begin := 0, count := 4 } else {}
  taskIdToNodeIndex := fun index => if index.val < 4 then index.val else 0

/-- The diamond is well formed. -/
theorem diamondGraph_wellFormed : diamondGraph.WellFormed where
  nodeCount_le := by decide
  id_lt := by decide
  index_of_id := by decide
  slice_le := by decide
  child_mem := by decide
  child_nodup := by decide
  parentCount_eq := by decide
  acyclic := acyclic_of_rank id (by decide)
  edge_forward := by decide
  range_le := by decide
  range_exact := by decide

/-- Task 0 releases the tasks 1 to `width`; all of them belong to the input phase. -/
def fanOutGraph (width : Nat) : TaskGraph where
  nodes := fun index =>
    if index.val = 0 then { id := 0, childCount := width }
    else if index.val ≤ width then { id := index.val, parentCount := 1 }
    else {}
  nodeCount := width + 1
  childTaskIds := fun index => index.val + 1
  phaseRanges := fun phase => if phase.val = 0 then { begin := 0, count := width + 1 } else {}
  taskIdToNodeIndex := fun id => id.val

section FanOut

variable {width : Nat} (fits : width < taskGraphMaxNodesV1)

include fits

/-- The first node has all others as children. -/
theorem fanOutGraph_node {index : Nat} (inside : index < width + 1) :
    (fanOutGraph width).node index = if index = 0 then { id := 0, childCount := width }
      else { id := index, parentCount := 1 } := by
  have slot : index < taskGraphMaxNodesV1 := by omega
  by_cases root : index = 0
  · simp [node, fanOutGraph, FixedArray.peek, root]
  · simp [node, fanOutGraph, FixedArray.peek, slot, root, Nat.lt_succ_iff.mp inside]

/-- Every node has its index as its id. -/
theorem fanOutGraph_id {index : Nat} (inside : index < width + 1) :
    ((fanOutGraph width).node index).id = index := by
  rw [fanOutGraph_node fits inside]
  split <;> simp_all

theorem fanOutGraph_nodeOf {task : Nat} (inside : task < width + 1) :
    (fanOutGraph width).nodeOf task = (fanOutGraph width).node task := by
  have slot : task < taskGraphMaxNodesV1 := by omega
  simp [nodeOf, fanOutGraph, FixedArray.peek, slot]

/-- The tasks are the numbers up to the width. -/
theorem fanOutGraph_tasks : (fanOutGraph width).tasks = Finset.range (width + 1) := by
  ext task
  rw [mem_tasks_iff, Finset.mem_range]
  constructor
  · rintro ⟨index, inside, rfl⟩
    rw [fanOutGraph_id fits inside]
    exact inside
  · intro inside
    exact ⟨task, inside, fanOutGraph_id fits inside⟩

/-- The children of the first node, of which the others have none. -/
theorem fanOutGraph_childrenAt {index : Nat} (inside : index < width + 1) :
    (fanOutGraph width).childrenAt ((fanOutGraph width).node index) =
      if index = 0 then (List.range width).map (· + 1) else [] := by
  rw [fanOutGraph_node fits inside]
  by_cases root : index = 0
  · rw [if_pos root, if_pos root, childrenAt]
    apply List.map_congr_left
    intro position member
    have below : position < width := List.mem_range.mp member
    have slot : position < taskGraphMaxDependenciesV1 := by
      have nodes : taskGraphMaxNodesV1 = 256 := rfl
      have dependencies : taskGraphMaxDependenciesV1 = 1024 := rfl
      omega
    simp [fanOutGraph, FixedArray.peek, slot]
  · simp [root, childrenAt]

/-- Every node but the first has one parent. -/
theorem fanOutGraph_inDegree {index : Nat} (inside : index < width + 1) :
    (fanOutGraph width).inDegree index = if index = 0 then 0 else 1 := by
  have each : ∀ parent ∈ Finset.range (width + 1),
      ((fanOutGraph width).children parent).count index =
        if parent = 0 then (if index = 0 then 0 else 1) else 0 := by
    intro parent member
    have within := Finset.mem_range.mp member
    rw [children, fanOutGraph_nodeOf fits within, fanOutGraph_childrenAt fits within]
    by_cases root : parent = 0
    · rw [if_pos root, if_pos root]
      have distinct : ((List.range width).map (· + 1)).Nodup :=
        List.nodup_range.map (Nat.succ_injective)
      rw [List.Nodup.count distinct]
      rcases index with _ | index
      · simp
      · simp [Nat.lt_of_succ_lt_succ inside]
    · rw [if_neg root, if_neg root, List.count_nil]
  rw [inDegree, fanOutGraph_tasks fits, Finset.sum_congr rfl each, Finset.sum_ite_eq']
  simp

/-- The fan-out is well formed as long as it fits the tables. -/
theorem fanOutGraph_wellFormed : (fanOutGraph width).WellFormed where
  nodeCount_le := fits
  id_lt := by
    intro index inside
    rw [fanOutGraph_id fits inside]
    exact Nat.lt_of_lt_of_le inside fits
  index_of_id := by
    intro index inside
    have slot : index < taskGraphMaxNodesV1 := Nat.lt_of_lt_of_le inside fits
    rw [fanOutGraph_id fits inside]
    simp [fanOutGraph, FixedArray.peek, slot]
  slice_le := by
    intro index inside
    have nodes : taskGraphMaxNodesV1 = 256 := rfl
    have dependencies : taskGraphMaxDependenciesV1 = 1024 := rfl
    rw [fanOutGraph_node fits inside]
    split
    all_goals
      simp only
      omega
  child_mem := by
    intro index inside child member
    rw [fanOutGraph_childrenAt fits inside] at member
    rw [fanOutGraph_tasks fits, Finset.mem_range]
    split at member
    · obtain ⟨position, below, rfl⟩ := List.mem_map.mp member
      exact Nat.succ_lt_succ (List.mem_range.mp below)
    · cases member
  child_nodup := by
    intro index inside
    rw [fanOutGraph_childrenAt fits inside]
    split
    · exact List.nodup_range.map Nat.succ_injective
    · exact List.nodup_nil
  parentCount_eq := by
    intro index inside
    rw [fanOutGraph_id fits inside, fanOutGraph_inDegree fits inside, fanOutGraph_node fits inside]
    split <;> rfl
  acyclic := by
    apply acyclic_of_rank id
    intro parent member child edge
    rw [fanOutGraph_tasks fits, Finset.mem_range] at member
    rw [children, fanOutGraph_nodeOf fits member, fanOutGraph_childrenAt fits member] at edge
    split at edge
    · next root =>
      obtain ⟨position, below, rfl⟩ := List.mem_map.mp edge
      simp [root]
    · cases edge
  edge_forward := by
    intro index inside child member
    rw [fanOutGraph_node fits inside]
    split <;> exact Nat.zero_le _
  range_le := by
    intro phase
    cases phase
    · exact .inr (by simp [phaseRange, fanOutGraph, RuntimePhaseId.index])
    all_goals exact .inl rfl
  range_exact := by
    intro phase index inside
    have input : ((fanOutGraph width).node index).phaseId = .input := by
      rw [fanOutGraph_node fits inside]
      split <;> rfl
    rw [input]
    cases phase
    · simp [phaseRange, fanOutGraph, RuntimePhaseId.index] at inside ⊢
      omega
    all_goals simp [phaseRange, fanOutGraph, RuntimePhaseId.index]

end FanOut

end TaskGraph
end MmoServer.Runtime
