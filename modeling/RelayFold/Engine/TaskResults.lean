import RelayFold.Engine.VerifierTransition

/-! Dispatching one attempt and the batch of events that records its result
(`engine.rs`). -/
namespace RelayFold

/-- The JSON libraries the engine calls. -/
structure Externals where
  /-- `jsonschema::validator_for` and the `is_valid` of the validator it builds. -/
  validatorFor : Json → Except String (Json → Bool)
  toStringPretty : Json → String

/-- How one engine pass ends. A panic ends the task that runs the pass. -/
inductive PassResult where
  | ok
  | error (message : String)
  | panicked
deriving DecidableEq

/-- What the pass does once the result of an attempt is committed. -/
inductive AfterCommit where
  | stop (result : PassResult)
  | checkPause (errorMessage : Option String)

structure ResultCommit where
  events : List WorkflowInstanceEvent
  next : AfterCommit

/-- The answer to a dispatch. An error of the dispatcher is an answer as
well. -/
abbrev Answer := Except String ExecutionResult

/-- The arguments of `dispatch_task`. -/
structure DispatchCall where
  ns : Namespace
  workflowInstanceId : String
  taskDef : TaskDef
  inputs : List Json
  metadata : ExecutionMetadata
  constraints : TaskDispatchConstraints

namespace WorkflowEngine

variable (ext : Externals)

def formatHumanInputForExecution (input : Json) : String :=
  input.asStr.getD (ext.toStringPretty input)

def loopExecutionContext (workflow : WorkflowInstance) (definition : WorkflowDef)
    (task : TaskInstance) : Option LoopExecutionContext := do
  let (verifierId, _) ← sliceOf (computeLoopSlices definition) task.taskDefId
  let verifierTask ← definition.findTask verifierId
  let verifier ← taskVerifier verifierTask
  let feedbackHistory := ((workflow.verifierStates.lookup verifierId).map fun state =>
    state.feedbackHistory.map fun entry =>
      LoopFeedbackEntry.mk entry.generationIndex entry.feedback).getD []
  let previousOutput :=
    if task.generationIndex = 0 then none
    else (workflow.tasks.lookup
      (makeTaskAttemptId task.taskDefId (task.generationIndex - 1))).bind (·.outputData)
  return {
    generation := task.generationIndex
    maxIterations := verifier.maxIterations
    feedbackHistory := feedbackHistory
    previousOutput := previousOutput }

def executionMetadata (workflow : WorkflowInstance) (definition : WorkflowDef)
    (task : TaskInstance) : ExecutionMetadata where
  generationIndex := task.generationIndex
  loopContext := loopExecutionContext workflow definition task
  humanInputProvided := task.humanInput.map (formatHumanInputForExecution ext)

def validateInputsFrom (taskId : String) (inputs : List Json) :
    Nat → List JsonSchema → Except String Unit
  | _, [] => .ok ()
  | index, schema :: schemas =>
      match inputs[index]? with
      | none => .error s!"Task {taskId} missing input at index {index}"
      | some input =>
          match ext.validatorFor schema with
          | .error error => .error s!"Task {taskId} input schema {index} is invalid: {error}"
          | .ok isValid =>
              if isValid input then validateInputsFrom taskId inputs (index + 1) schemas
              else .error s!"Task {taskId} input {index} failed schema validation"

def validateInputs (task : TaskDef) (inputs : List Json) : Except String Unit :=
  validateInputsFrom ext task.id inputs 0 task.inputSchemas

/-- A function reference is replaced by the stored function; other kinds
stay. -/
def resolveTaskFunctionRef (functionDefs : String → Option FunctionDef) (task : TaskDef) :
    Except String TaskDef :=
  match task.kind with
  | .function (.ref reference) =>
      match functionDefs reference with
      | none => .error s!"Function definition not found: {reference}"
      | some definition =>
          .ok { task with kind := .function (.inline definition.dependencies definition.code) }
  | _ => .ok task

def schemaOk (schema : Option JsonSchema) (output : Json) : Bool :=
  match schema with
  | none => true
  | some schema =>
      match ext.validatorFor schema with
      | .ok isValid => isValid output
      | .error _ => false

/-- Every result records the inputs the attempt was dispatched with. -/
def inputEvents (taskAttemptId : String) (inputs : ResolvedTaskInputs) :
    List WorkflowInstanceEvent :=
  [.taskInputDataSet taskAttemptId inputs.values,
    .taskInputMappingSet taskAttemptId inputs.mapping]

def failTaskEvents (taskAttemptId : String) : List WorkflowInstanceEvent :=
  [.taskStatusChanged taskAttemptId .failed,
    .taskSatisfactionChanged taskAttemptId .unsatisfied,
    .workflowStatusChanged .failed]

/-- The events of a failed input check, a failure answer or an invalid
output. -/
def failureEvents (taskAttemptId : String) (inputs : ResolvedTaskInputs) :
    List WorkflowInstanceEvent :=
  inputEvents taskAttemptId inputs ++ failTaskEvents taskAttemptId

def dispatchErrorEvents (taskAttemptId : String) (inputs : ResolvedTaskInputs) :
    List WorkflowInstanceEvent :=
  inputEvents taskAttemptId inputs ++
    [.taskStatusChanged taskAttemptId .failed, .workflowStatusChanged .failed]

def inputNeededEvents (taskAttemptId : String) (inputs : ResolvedTaskInputs)
    (inputRequest : String) : List WorkflowInstanceEvent :=
  inputEvents taskAttemptId inputs ++
    [.taskStatusChanged taskAttemptId (.inputNeeded inputRequest),
      .workflowStatusChanged .inputNeeded]

/-- A valid output completes the attempt; outside every slice it is satisfied
at once. -/
def completionEvents (loopSlices : LoopSlices) (taskAttemptId : String) (taskDef : TaskDef)
    (inputs : ResolvedTaskInputs) (schema : Option JsonSchema) (output : Json) :
    List WorkflowInstanceEvent :=
  inputEvents taskAttemptId inputs ++ [.taskStatusChanged taskAttemptId .completed] ++
    (if isTaskInLoopSlice loopSlices taskDef.id then []
      else [.taskSatisfactionChanged taskAttemptId .satisfied]) ++
    (if schema.isSome then [.taskOutputRecorded taskAttemptId (some output)] else [])

/-- An early exit skips everything that is still pending. -/
def earlyExitEvents (workflow : WorkflowInstance) (taskAttemptId : String) :
    List WorkflowInstanceEvent :=
  .taskEarlyExitSet taskAttemptId true ::
    ((workflow.tasks.toList.filter fun entry => entry.2.status = .pending).flatMap fun entry =>
      [.taskStatusChanged entry.1 .skipped, .taskSatisfactionChanged entry.1 .unsatisfied])

def exitReason (taskDef : TaskDef) (output : Json) : Except String (Option String) :=
  if taskDef.allowsEarlyExit then workflowExitReason output else .ok none

def invalidVerifierEvents (taskAttemptId : String) (output : Json) (error : String) :
    List WorkflowInstanceEvent :=
  [.taskStatusChanged taskAttemptId .failed,
    .taskSatisfactionChanged taskAttemptId .unsatisfied,
    .taskVerifierMetadataSet taskAttemptId
      (some { status := .invalid, decision := none, feedback := none,
              verifierOutput := some output, exitReason := some error }),
    .workflowStatusChanged .failed]

/-- The commit of a valid output, after the exit reason has been read. -/
def completedResult (workflow : WorkflowInstance) (definition : WorkflowDef)
    (loopSlices : LoopSlices) (taskAttemptId : String) (taskDef : TaskDef) (output : Json)
    (events : List WorkflowInstanceEvent) : Except String ResultCommit :=
  match taskVerifier taskDef with
  | none => .ok { events := events, next := .checkPause none }
  | some _ =>
      match verifierResultFromOutput output with
      | .error error =>
          .ok { events := events ++ invalidVerifierEvents taskAttemptId output error
                next := .stop (.error error) }
      | .ok result => do
          -- The decision is taken on the snapshot this result leads to.
          let resultInstance ← reduceWorkflowInstanceEvents (some workflow) events
          let transition ← verifierResultTransition resultInstance definition loopSlices
            taskAttemptId output result
          return { events := events ++ transition.events
                   next := .checkPause transition.errorMessage }

def successResult (workflow : WorkflowInstance) (definition : WorkflowDef)
    (loopSlices : LoopSlices) (taskAttemptId : String) (taskDef : TaskDef)
    (inputs : ResolvedTaskInputs) (output : Json) : Except String ResultCommit := do
  let schema ← taskDef.effectiveOutputSchema
  if schemaOk ext schema output then
    let events := completionEvents loopSlices taskAttemptId taskDef inputs schema output
    match exitReason taskDef output with
    | .error error =>
        return { events := events ++ failTaskEvents taskAttemptId, next := .stop (.error error) }
    | .ok none =>
        completedResult workflow definition loopSlices taskAttemptId taskDef output events
    | .ok (some _) =>
        completedResult workflow definition loopSlices taskAttemptId taskDef output
          (events ++ earlyExitEvents workflow taskAttemptId)
  else
    return { events := failureEvents taskAttemptId inputs
             next := .stop (.error "Task output failed schema validation") }

/-- The commit that answers a dispatch, computed on the snapshot of the pass.
An error is returned by the pass without a commit. -/
def resultCommit (workflow : WorkflowInstance) (definition : WorkflowDef)
    (loopSlices : LoopSlices) (taskAttemptId : String) (taskDef : TaskDef)
    (inputs : ResolvedTaskInputs) (answer : Answer) :
    Except String ResultCommit :=
  match answer with
  | .ok (.success output) =>
      successResult ext workflow definition loopSlices taskAttemptId taskDef inputs output
  | .ok (.inputNeeded inputRequest) =>
      .ok { events := inputNeededEvents taskAttemptId inputs inputRequest, next := .stop .ok }
  | .ok (.failure reason) =>
      .ok { events := failureEvents taskAttemptId inputs
            next := .stop (.error s!"Task execution failed: {reason}") }
  | .error _ =>
      .ok { events := dispatchErrorEvents taskAttemptId inputs
            next := .stop (.error "Task execution failed") }

end WorkflowEngine

end RelayFold
