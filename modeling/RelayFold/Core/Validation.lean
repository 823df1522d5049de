import RelayFold.Core.LoopSlices

/-! Validation and normalization of a workflow definition before it is stored
(`workflow_service.rs`). -/
namespace RelayFold

open EdgeList

def isIdentifierChar (c : Char) : Bool := c.isAlphanum || c = '-' || c = '_'

def validateIdentifier (kind id : String) : Except String Unit :=
  if id.isEmpty || !id.toList.all isIdentifierChar then
    .error s!"{kind} id {id.quote} must contain only ASCII alphanumeric characters, '-' or '_'"
  else .ok ()

def normalizeTaskReference (originalToNormalized : List (String × String)) (id field : String) :
    Except String String := do
  validateIdentifier field id
  match originalToNormalized.lookup id with
  | some normalized => return normalized
  | none => throw s!"{field} references unknown task id {id}"

def normalizeWorkspace : Option Workspace → Except String (Option Workspace)
  | none => .ok none
  | some workspace => do
      validateIdentifier "workspace group" workspace.groupName
      return some ⟨toAsciiLowercase workspace.groupName⟩

/-- Normalize the ids of the tasks one by one, refusing an id already taken. -/
def normalizeTasks : List String → List TaskDef → Except String (List TaskDef)
  | _, [] => .ok []
  | normalizedTaskIds, task :: tasks => do
      validateIdentifier "task" task.id
      let normalized := toAsciiLowercase task.id
      if normalized ∈ normalizedTaskIds then
        .error s!"duplicate task id after normalization: {normalized}"
      else do
        let workspace ← normalizeWorkspace task.workspace
        let rest ← normalizeTasks (normalized :: normalizedTaskIds) tasks
        return { task with id := normalized, workspace := workspace } :: rest

def normalizeBinding (originalToNormalized : List (String × String)) (binding : DataBinding) :
    Except String DataBinding := do
  let source ← normalizeTaskReference originalToNormalized binding.sourceTaskId
    "data binding source"
  let target ← normalizeTaskReference originalToNormalized binding.targetTaskId
    "data binding target"
  return { sourceTaskId := source, targetTaskId := target }

def normalizeRerunStart (originalToNormalized : List (String × String)) :
    Option String → Except String (Option String)
  | none => .ok none
  | some taskId =>
      (normalizeTaskReference originalToNormalized taskId "verifier rerun_from_task_id").map some

/-- Check the verifier control of a task, normalize its rerun start and give
the task the decision schema. -/
def normalizeControl (originalToNormalized : List (String × String)) (task : TaskDef) :
    Except String TaskDef :=
  match task.control with
  | some ⟨allowEarlyExit, some verifier⟩ =>
      if verifier.maxIterations = 0 then
        .error s!"task {task.id} verifier max_iterations must be positive"
      else do
        let rerunFromTaskId ← normalizeRerunStart originalToNormalized verifier.rerunFromTaskId
        return { task with
          control := some ⟨allowEarlyExit, some { verifier with rerunFromTaskId := rerunFromTaskId }⟩
          outputSchema := some verifierDecisionSchema }
  | _ => .ok task

def normalizeVerifier (originalToNormalized : List (String × String)) (task : TaskDef) :
    Except String TaskDef :=
  if (taskVerifier task).isSome ∧ task.outputSchema.isSome then
    .error s!"task {task.id} declares control.verifier and must not declare output_schema"
  else do
    let task ← normalizeControl originalToNormalized task
    let _ ← task.effectiveOutputSchema
    return task

/-- Kahn's algorithm visits every task unless the bindings have a cycle. Each
task and each binding queues a node at most once. -/
def hasDataBindingCycle (definition : WorkflowDef) : Bool :=
  let inDegree := blockedBy definition.edges []
  let queue := definition.taskIds.dedup.filter fun taskId => inDegree taskId = 0
  let visited := kahn definition.edges
    (definition.tasks.length + definition.dataBindings.length + 1) inDegree queue []
  visited.length ≠ definition.tasks.length

def isUpstreamAncestor (definition : WorkflowDef) (ancestor taskId : String) : Bool :=
  search (reverse definition.edges) ancestor (definition.dataBindings.length + 2) [taskId] []

def validateRerunStart (definition : WorkflowDef) (task : TaskDef) : Except String Unit :=
  match (taskVerifier task).bind (·.rerunFromTaskId) with
  | none => .ok ()
  | some rerunFromTaskId =>
      if rerunFromTaskId ≠ task.id ∧ !isUpstreamAncestor definition rerunFromTaskId task.id then
        .error s!"task {task.id} verifier rerun task {rerunFromTaskId} is not an upstream ancestor"
      else .ok ()

/-- Claim the tasks of one slice for its verifier. -/
def claimSlice (verifierId : String) : List (String × String) → List String →
    Except String (List (String × String))
  | owners, [] => .ok owners
  | owners, taskId :: slice =>
      match owners.lookup taskId with
      | some existing =>
          .error s!"verifier loop slices overlap on task {taskId}: {existing} and {verifierId}"
      | none => claimSlice verifierId ((taskId, verifierId) :: owners) slice

def validateNonOverlappingVerifierSlices (definition : WorkflowDef) : Except String Unit := do
  let _ ← (computeLoopSlices definition).foldlM (fun owners (verifierId, slice) =>
    claimSlice verifierId owners slice) []

def validateAndNormalizeWorkflowDef (definition : WorkflowDef) : Except String WorkflowDef := do
  validateIdentifier "workflow" definition.id
  let id := toAsciiLowercase definition.id
  let originalToNormalized := definition.tasks.map fun task => (task.id, toAsciiLowercase task.id)
  let tasks ← normalizeTasks [] definition.tasks
  let dataBindings ← definition.dataBindings.mapM (normalizeBinding originalToNormalized)
  let tasks ← tasks.mapM (normalizeVerifier originalToNormalized)
  let definition := { definition with id := id, tasks := tasks, dataBindings := dataBindings }
  if hasDataBindingCycle definition then .error "workflow data bindings contain a cycle"
  else do
    definition.tasks.forM (validateRerunStart definition)
    validateNonOverlappingVerifierSlices definition
    return definition

end RelayFold
