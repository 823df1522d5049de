import RelayFold.Core.StateManager
import RelayFold.Engine.TaskResults

/-! One engine pass, `run_workflow_instance`: the store operations and the
dispatches it does in turn. Other writers may act between any two of them. -/
namespace RelayFold

/-- What a pass reads besides the instance it runs. -/
structure EngineEnv where
  ext : Externals
  ns : Namespace
  definitions : String → Option WorkflowDef
  functionDefs : String → Option FunctionDef

/-- The attempt a pass has started and the inputs it resolved. -/
structure StartedTask where
  taskAttemptId : String
  task : TaskInstance
  taskDef : TaskDef
  inputs : ResolvedTaskInputs

/-- The next store operation of a pass, or the dispatch it waits for. In the
task loop `rest` lists the runnable attempts that follow. -/
inductive PassPoint where
  | commitRunning
  | commitInitialTasks
  | commitGenerations (events : List WorkflowInstanceEvent)
  | checkPaused (taskAttemptId : String) (rest : List String)
  | commitStart (taskAttemptId : String) (rest : List String)
  | commitInputFailure (started : StartedTask) (error : String)
  | resolveFunction (started : StartedTask) (rest : List String)
  | awaitAnswer (started : StartedTask) (call : DispatchCall) (rest : List String)
  | readCurrent (started : StartedTask) (answer : Answer) (result : ResultCommit)
      (rest : List String)
  | commitResult (started : StartedTask) (answer : Answer) (result : ResultCommit)
      (base : WorkflowInstance) (rest : List String)
  | commitPauseCompleted
  | commitCompleted

/-- The local variables of a pass that has loaded its instance and its
definition. -/
structure ActivePass where
  definition : WorkflowDef
  loopSlices : LoopSlices
  workflow : WorkflowInstance
  point : PassPoint

inductive PassState where
  | idle
  | loading (order : LoopSlices)
  | loadingDef (order : LoopSlices) (workflow : WorkflowInstance)
  | active (pass : ActivePass)
  | finished (result : PassResult)

namespace StorageError

/-- The text of the error. -/
def display : StorageError → String
  | workflowVersionConflict id expected actual =>
      s!"workflow instance {id} version conflict: expected {expected}, actual {actual}"
  | other message => message

end StorageError

namespace WorkflowStateManager

/-- `commit_events_for_instance` against a store that works: the stored
snapshot becomes the reduced one unless the base is stale. -/
def commitOn (stored base : WorkflowInstance) (events : List WorkflowInstanceEvent) :
    Except StorageError WorkflowInstance :=
  if events.isEmpty then .error (.other "event batch must not be empty")
  else
    match reduceWorkflowInstanceEvents (some base) events with
    | .error message => .error (.other message)
    | .ok reduced =>
        if stored.version = base.version then
          .ok { reduced with version := base.version + events.length }
        else .error (.workflowVersionConflict reduced.id base.version stored.version)

end WorkflowStateManager

open WorkflowStateManager

namespace WorkflowEngine

/-- What a pass holds of an attempt once it is started; both lookups are
unwrapped. -/
def startedTask (workflow : WorkflowInstance) (definition : WorkflowDef)
    (loopSlices : LoopSlices) (taskAttemptId : String) : Option StartedTask := do
  let task ← workflow.tasks.lookup taskAttemptId
  let taskDef ← definition.findTask task.taskDefId
  let inputs := (resolveInputs workflow definition task taskDef loopSlices).getD ⟨[], []⟩
  return { taskAttemptId := taskAttemptId, task := task, taskDef := taskDef, inputs := inputs }

/-- A pass iterates over the slices in the order of a hash map, whatever that
is. -/
def iterationOrder (order : LoopSlices) (definition : WorkflowDef) : LoopSlices :=
  if order.Perm (computeLoopSlices definition) then order else computeLoopSlices definition

/-- Whatever the order of the hash map, a pass goes through the slices of the
definition, each of them once. -/
theorem iterationOrder_perm (order : LoopSlices) (definition : WorkflowDef) :
    (iterationOrder order definition).Perm (computeLoopSlices definition) := by
  unfold iterationOrder
  split
  · assumption
  · exact List.Perm.refl _

end WorkflowEngine

open WorkflowEngine

namespace ActivePass

/-- The pass with a later snapshot, at a later point. -/
def goOn (pass : ActivePass) (workflow : WorkflowInstance) (point : PassPoint) : PassState :=
  .active { pass with workflow := workflow, point := point }

/-- The end of the main loop. -/
def leaveLoop (pass : ActivePass) (workflow : WorkflowInstance) : PassState :=
  if workflowAllCompleted workflow pass.definition then pass.goOn workflow .commitCompleted
  else .finished .ok

/-- The task loop: attempts that are no longer pending are passed over. -/
def nextTask (pass : ActivePass) (workflow : WorkflowInstance) (atEnd : PassState) :
    List String → PassState
  | [] => atEnd
  | taskAttemptId :: rest =>
      match workflow.tasks.lookup taskAttemptId with
      | none => .finished .panicked
      | some task =>
          if task.status ≠ .pending then nextTask pass workflow atEnd rest
          else pass.goOn workflow (.checkPaused taskAttemptId rest)

def startTasks (pass : ActivePass) (workflow : WorkflowInstance) (atEnd : PassState) :
    PassState :=
  match tasksToRun workflow pass.definition pass.loopSlices with
  | none => .finished .panicked
  | some tasksToRun => pass.nextTask workflow atEnd tasksToRun

/-- One iteration of the main loop, up to its first commit. Without generations
to materialize and without tasks to run nothing makes progress, and the loop
ends. -/
def enterLoop (pass : ActivePass) (workflow : WorkflowInstance) : PassState :=
  let events :=
    materializeEligibleInitialGenerationEvents workflow pass.definition pass.loopSlices
  if events.isEmpty then pass.startTasks workflow (pass.leaveLoop workflow)
  else pass.goOn workflow (.commitGenerations events)

def initializeTasks (pass : ActivePass) (workflow : WorkflowInstance) : PassState :=
  if workflow.tasks.isEmpty && !(initialTaskEvents workflow pass.definition).isEmpty then
    pass.goOn workflow .commitInitialTasks
  else pass.enterLoop workflow

/-- Resolve and check the inputs of the attempt that was just started. -/
def prepareDispatch (ext : Externals) (pass : ActivePass) (workflow : WorkflowInstance)
    (taskAttemptId : String) (rest : List String) : PassState :=
  match startedTask workflow pass.definition pass.loopSlices taskAttemptId with
  | none => .finished .panicked
  | some started =>
      match validateInputs ext started.taskDef started.inputs.values with
      | .error error => pass.goOn workflow (.commitInputFailure started error)
      | .ok () => pass.goOn workflow (.resolveFunction started rest)

/-- Turn an answer into the commit that records it. -/
def answered (ext : Externals) (pass : ActivePass) (started : StartedTask) (rest : List String)
    (answer : Answer) : PassState :=
  match resultCommit ext pass.workflow pass.definition pass.loopSlices started.taskAttemptId
      started.taskDef started.inputs answer with
  | .error message => .finished (.error message)
  | .ok result => pass.goOn pass.workflow (.readCurrent started answer result rest)

def dispatchCall (env : EngineEnv) (pass : ActivePass) (started : StartedTask)
    (taskDef : TaskDef) : DispatchCall where
  ns := env.ns
  workflowInstanceId := pass.workflow.id
  taskDef := taskDef
  inputs := started.inputs.values
  metadata := executionMetadata env.ext pass.workflow pass.definition started.task
  constraints := { pinnedHostId := pass.workflow.pinnedWorkerHost }

/-- A missing function definition is answered like a dispatch error. -/
def dispatch (env : EngineEnv) (pass : ActivePass) (started : StartedTask) (rest : List String) :
    PassState :=
  match resolveTaskFunctionRef env.functionDefs started.taskDef with
  | .error error => pass.answered env.ext started rest (.error error)
  | .ok resolved =>
      match started.taskDef.effectiveOutputSchema with
      | .error message => .finished (.error message)
      | .ok schema =>
          let call := pass.dispatchCall env started { resolved with outputSchema := schema }
          pass.goOn pass.workflow (.awaitAnswer started call rest)

/-- If a pause raced with the dispatch, the result goes on top of the paused
snapshot. -/
def resultBase (pass : ActivePass) (current : Option WorkflowInstance) : WorkflowInstance :=
  match current with
  | some current => if current.status = .paused then current else pass.workflow
  | none => pass.workflow

/-- After a result: stop, or stop at the pause boundary, or go on with the next
task. -/
def afterResult (pass : ActivePass) (result : ResultCommit) (rest : List String)
    (workflow : WorkflowInstance) : PassState :=
  match result.next with
  | .stop result => .finished result
  | .checkPause errorMessage =>
      if workflow.status = .paused then
        if workflowAllCompleted workflow pass.definition then
          pass.goOn workflow .commitPauseCompleted
        else .finished .ok
      else
        match errorMessage with
        | some message => .finished (.error message)
        | none => pass.nextTask workflow (pass.enterLoop workflow) rest

/-- A commit of the pass, and how it goes on. -/
def commit (stored base : WorkflowInstance) (events : List WorkflowInstanceEvent)
    (next : WorkflowInstance → PassState) : PassState × Option WorkflowInstance :=
  match commitOn stored base events with
  | .ok updated => (next updated, some updated)
  | .error error => (.finished (.error error.display), none)

/-- The next store operation: the state after it, and the snapshot it
committed. -/
def step (env : EngineEnv) (stored : WorkflowInstance) (pass : ActivePass) :
    PassState × Option WorkflowInstance :=
  match pass.point with
  | .commitRunning =>
      commit stored pass.workflow [.workflowStatusChanged .running] pass.initializeTasks
  | .commitInitialTasks =>
      commit stored pass.workflow (initialTaskEvents pass.workflow pass.definition) pass.enterLoop
  | .commitGenerations events =>
      commit stored pass.workflow events fun updated =>
        pass.startTasks updated (pass.enterLoop updated)
  | .checkPaused taskAttemptId rest =>
      if stored.status = .paused then (.finished .ok, none)
      else (pass.goOn pass.workflow (.commitStart taskAttemptId rest), none)
  | .commitStart taskAttemptId rest =>
      commit stored pass.workflow [.taskStatusChanged taskAttemptId .running] fun updated =>
        pass.prepareDispatch env.ext updated taskAttemptId rest
  | .commitInputFailure started error =>
      commit stored pass.workflow (failureEvents started.taskAttemptId started.inputs) fun _ =>
        .finished (.error error)
  | .resolveFunction started rest => (pass.dispatch env started rest, none)
  | .awaitAnswer started call rest =>
      (pass.goOn pass.workflow (.awaitAnswer started call rest), none)
  | .readCurrent started answer result rest =>
      (pass.goOn pass.workflow
        (.commitResult started answer result (pass.resultBase (some stored)) rest), none)
  | .commitResult _ _ result base rest =>
      commit stored base result.events (pass.afterResult result rest)
  | .commitPauseCompleted | .commitCompleted =>
      commit stored pass.workflow [.workflowStatusChanged .completed] fun _ => .finished .ok

end ActivePass

namespace PassState

/-- A snapshot that is not to be run ends the pass at once. -/
def loaded (order : LoopSlices) (found : Option WorkflowInstance) : PassState :=
  match found with
  | none => .finished (.error "Workflow instance not found")
  | some workflow =>
      match workflow.status with
      | .paused | .inputNeeded | .completed | .failed => .finished .ok
      | .pending | .running => .loadingDef order workflow

def loadedDef (order : LoopSlices) (workflow : WorkflowInstance) (found : Option WorkflowDef) :
    PassState :=
  match found with
  | none => .finished (.error "Workflow definition not found")
  | some definition => .active {
      definition := definition
      loopSlices := iterationOrder order definition
      workflow := workflow
      point := .commitRunning }

/-- The next store operation of a pass; a pass that waits for an answer does
none. -/
def step (env : EngineEnv) (stored : WorkflowInstance) :
    PassState → PassState × Option WorkflowInstance
  | idle => (idle, none)
  | loading order => (loaded order (some stored), none)
  | loadingDef order workflow =>
      (loadedDef order workflow (env.definitions workflow.workflowDefId), none)
  | active pass => pass.step env stored
  | finished result => (finished result, none)

/-- The dispatcher answers the call the pass waits for. -/
def answer (env : EngineEnv) (result : Answer) : PassState → Option PassState
  | active pass =>
      match pass.point with
      | .awaitAnswer started _ rest => some (pass.answered env.ext started rest result)
      | _ => none
  | _ => none

end PassState

end RelayFold
