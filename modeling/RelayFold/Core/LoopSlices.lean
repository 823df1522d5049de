import RelayFold.Library.EdgeLists
import RelayFold.Core.Workflow

/-! Verifier loop slices: the tasks on a path from a verifier's rerun start to
the verifier. `engine.rs` and `workflow_service.rs` compute them with the same
code. -/
namespace RelayFold

open EdgeList

def taskVerifier (task : TaskDef) : Option VerifierControlConfig :=
  task.control.bind (·.verifier)

def verifierRerunStartTaskId (verifier : VerifierControlConfig) (verifierTaskId : String) : String :=
  verifier.rerunFromTaskId.getD verifierTaskId

namespace WorkflowDef

def taskIds (definition : WorkflowDef) : List String := definition.tasks.map (·.id)

def findTask (definition : WorkflowDef) (taskId : String) : Option TaskDef :=
  definition.tasks.find? (·.id = taskId)

/-- The data bindings as edges from source to target. -/
def edges (definition : WorkflowDef) : List (String × String) :=
  definition.dataBindings.map fun binding => (binding.sourceTaskId, binding.targetTaskId)

end WorkflowDef

/-- `walk_graph`: enough steps for the start and for every binding. -/
def walkGraph (start : String) (adjacency : List (String × String)) : List String :=
  walk adjacency (adjacency.length + 2) [start] []

def reachableFrom (definition : WorkflowDef) (start : String) : List String :=
  walkGraph start definition.edges

def canReachTargetSet (definition : WorkflowDef) (target : String) : List String :=
  walkGraph target (reverse definition.edges)

/-- The slice of each verifier task, in the order of the definition. -/
def computeLoopSlices (definition : WorkflowDef) : List (String × List String) :=
  definition.tasks.filterMap fun verifierTask =>
    (taskVerifier verifierTask).map fun verifier =>
      let fromStart :=
        reachableFrom definition (verifierRerunStartTaskId verifier verifierTask.id)
      let toVerifier := canReachTargetSet definition verifierTask.id
      (verifierTask.id, definition.taskIds.filter fun taskId =>
        taskId ∈ fromStart ∧ taskId ∈ toVerifier)

variable {definition : WorkflowDef}

/-- The walk along the bindings finds exactly the tasks that can be reached
from its start. -/
theorem mem_reachableFrom {start taskId : String} :
    taskId ∈ reachableFrom definition start ↔ Reaches definition.edges start taskId :=
  mem_walk_iff start taskId

/-- The walk against them finds exactly the tasks that reach the target. -/
theorem mem_canReachTargetSet {target taskId : String} :
    taskId ∈ canReachTargetSet definition target ↔ Reaches definition.edges taskId target :=
  (mem_walk_iff target taskId).trans reaches_reverse

/-- A task is in the slice of a verifier when it lies between the rerun start
and the verifier. -/
theorem mem_computeLoopSlices {verifierId : String} {slice : List String} :
    (verifierId, slice) ∈ computeLoopSlices definition ↔
      ∃ task ∈ definition.tasks, ∃ verifier, taskVerifier task = some verifier ∧
        task.id = verifierId ∧ slice = definition.taskIds.filter fun taskId =>
          taskId ∈ reachableFrom definition (verifierRerunStartTaskId verifier task.id) ∧
            taskId ∈ canReachTargetSet definition task.id := by
  simp only [computeLoopSlices, List.mem_filterMap, Option.map_eq_some_iff, Prod.mk.injEq]
  constructor
  · rintro ⟨task, hTask, verifier, hVerifier, hId, hSlice⟩
    exact ⟨task, hTask, verifier, hVerifier, hId, hSlice.symm⟩
  · rintro ⟨task, hTask, verifier, hVerifier, hId, hSlice⟩
    exact ⟨task, hTask, verifier, hVerifier, hId, hSlice.symm⟩

end RelayFold
