import RelayFold.Core.Workflow

/-! Workflow instance events and the reducer that applies them
(`workflow/events.rs`). -/
namespace RelayFold

inductive WorkflowInstanceEvent where
  | workflowCreated (workflow : WorkflowInstance)
  | workflowStatusChanged (status : WorkflowStatus)
  | taskEarlyExitSet (taskAttemptId : String) (earlyExit : Bool)
  | startupRecoveryApplied (taskAttemptIds : List String)
  | taskMaterialized (taskAttemptId : String) (task : TaskInstance)
  | taskStatusChanged (taskAttemptId : String) (status : TaskStatus)
  | taskInputDataSet (taskAttemptId : String) (inputData : List Json)
  | taskInputMappingSet (taskAttemptId : String) (inputMapping : List TaskInputMapping)
  | taskOutputRecorded (taskAttemptId : String) (outputData : Option Json)
  | taskSatisfactionChanged (taskAttemptId : String) (satisfactionStatus : TaskSatisfactionStatus)
  | taskVerifierMetadataSet (taskAttemptId : String)
      (verifierMetadata : Option VerifierAttemptMetadata)
  | verifierStateUpserted (verifierTaskId : String) (state : VerifierGenerationState)
  | verifierFeedbackRecorded (verifierTaskId : String) (feedback : VerifierFeedbackEntry)
  | verifierStateStatusChanged (verifierTaskId : String) (status : VerifierStateStatus)
      (selectedGeneration : Option Nat) (exitReason : Option String)
  | humanInputSubmitted (taskAttemptId continuationTaskAttemptId : String) (submittedInput : Json)
  | taskRetryRequested (taskAttemptId : String)
  | taskForceRetryRequested (taskAttemptId : String) (previousHostId : Option WorkerHostId)
      (targetHostId : WorkerHostId) (localContextMayBeLost : Bool)

structure WorkflowEventRecord where
  createdTime : Nat
  event : WorkflowInstanceEvent

/-- Change a stored attempt through `task_mut`. -/
def taskMut (workflow : WorkflowInstance) (taskAttemptId : String)
    (change : TaskInstance → TaskInstance) : Except String WorkflowInstance :=
  match workflow.tasks.lookup taskAttemptId with
  | some _ => .ok { workflow with tasks := workflow.tasks.modify taskAttemptId change }
  | none => .error s!"task attempt {taskAttemptId} not found"

/-- Change a stored verifier state through `verifier_state_mut`. -/
def verifierStateMut (workflow : WorkflowInstance) (verifierTaskId : String)
    (change : VerifierGenerationState → VerifierGenerationState) :
    Except String WorkflowInstance :=
  match workflow.verifierStates.lookup verifierTaskId with
  | some _ =>
      .ok { workflow with verifierStates := workflow.verifierStates.modify verifierTaskId change }
  | none => .error s!"verifier state {verifierTaskId} not found"

/-- What startup recovery does to one attempt. -/
def TaskInstance.recovered (task : TaskInstance) : TaskInstance :=
  if task.status = .running then { task with status := .pending } else task

/-- What a retry does to the failed attempt. Its recorded inputs and its human
input stay. -/
def TaskInstance.resetForRetry (task : TaskInstance) : TaskInstance :=
  { task with
    status := .pending
    satisfactionStatus := .pending
    outputData := none
    earlyExit := false
    verifierMetadata := none }

def resetFailedTaskForRetry (workflow : WorkflowInstance) (taskAttemptId : String) :
    Except String WorkflowInstance :=
  if workflow.status ≠ .failed then .error "workflow instance is not failed"
  else
    match workflow.tasks.lookup taskAttemptId with
    | none => .error s!"task attempt {taskAttemptId} not found"
    | some task =>
        if task.status ≠ .failed then .error s!"task attempt {taskAttemptId} is not failed"
        else .ok { workflow with
          tasks := workflow.tasks.modify taskAttemptId TaskInstance.resetForRetry
          status := .pending }

/-- The continuation attempt of a human-input submission. -/
def continuationTask (taskDefId : String) (generationIndex : Nat) (submittedInput : Json) :
    TaskInstance :=
  { TaskInstance.fresh taskDefId generationIndex with humanInput := some submittedInput }

open WorkflowInstanceEvent in
def applyWorkflowInstanceEvent (workflow : WorkflowInstance) :
    WorkflowInstanceEvent → Except String WorkflowInstance
  | workflowCreated _ =>
      .error "workflow_created can only initialize an empty workflow snapshot"
  | workflowStatusChanged status => .ok { workflow with status := status }
  | taskEarlyExitSet id earlyExit => taskMut workflow id ({ · with earlyExit := earlyExit })
  | startupRecoveryApplied ids =>
      let workflow :=
        if workflow.status = .running then { workflow with status := .pending } else workflow
      ids.foldlM (fun workflow id => taskMut workflow id TaskInstance.recovered) workflow
  | taskMaterialized id task =>
      match workflow.tasks.lookup id with
      | some _ => .error s!"task attempt {id} already exists"
      | none => .ok { workflow with tasks := workflow.tasks.insert id task }
  | taskStatusChanged id status => taskMut workflow id ({ · with status := status })
  | taskInputDataSet id inputData => taskMut workflow id ({ · with inputData := inputData })
  | taskInputMappingSet id inputMapping =>
      taskMut workflow id ({ · with inputMapping := inputMapping })
  | taskOutputRecorded id outputData => taskMut workflow id ({ · with outputData := outputData })
  | taskSatisfactionChanged id satisfactionStatus =>
      taskMut workflow id ({ · with satisfactionStatus := satisfactionStatus })
  | taskVerifierMetadataSet id verifierMetadata =>
      taskMut workflow id ({ · with verifierMetadata := verifierMetadata })
  | verifierStateUpserted id state =>
      .ok { workflow with verifierStates := workflow.verifierStates.insert id state }
  | verifierFeedbackRecorded id feedback =>
      verifierStateMut workflow id fun state =>
        { state with feedbackHistory := state.feedbackHistory ++ [feedback] }
  | verifierStateStatusChanged id status selectedGeneration exitReason =>
      verifierStateMut workflow id ({ · with
        status := status, selectedGeneration := selectedGeneration, exitReason := exitReason })
  | humanInputSubmitted id continuationId submittedInput =>
      match workflow.tasks.lookup id with
      | none => .error s!"task attempt {id} not found"
      | some task =>
          if !task.status.isInputNeeded then .error s!"task attempt {id} is not waiting for input"
          else
            let generation := continuationGeneration task.generationIndex
            let expectedId := makeTaskAttemptId task.taskDefId generation
            if continuationId ≠ expectedId then
              .error s!"human input continuation for {id} must be {expectedId}"
            else
              match workflow.tasks.lookup continuationId with
              | some _ => .error s!"task attempt {continuationId} already exists"
              | none => .ok { workflow with
                  tasks := workflow.tasks.insert continuationId
                    (continuationTask task.taskDefId generation submittedInput)
                  status := .pending }
  | taskRetryRequested id => resetFailedTaskForRetry workflow id
  | taskForceRetryRequested id previousHostId targetHostId localContextMayBeLost =>
      if workflow.pinnedWorkerHost ≠ previousHostId then
        .error "force retry previous host does not match workflow pin"
      else if localContextMayBeLost ≠ decide (previousHostId ≠ some targetHostId) then
        .error "force retry local context loss flag does not match host change"
      else do
        let workflow ← resetFailedTaskForRetry workflow id
        return { workflow with pinnedWorkerHost := some targetHostId }

/-- The attempts a batch may have altered, in the order the events name
them. -/
def changedTaskAttemptIds (records : List WorkflowEventRecord) : List String :=
  records.flatMap fun record =>
    match record.event with
    | .workflowCreated workflow => workflow.tasks.sortedKeys
    | .workflowStatusChanged _ | .verifierStateUpserted _ _ | .verifierFeedbackRecorded _ _
    | .verifierStateStatusChanged _ _ _ _ => []
    | .startupRecoveryApplied ids => ids
    | .taskMaterialized id _ | .taskEarlyExitSet id _ | .taskStatusChanged id _
    | .taskInputDataSet id _ | .taskInputMappingSet id _ | .taskOutputRecorded id _
    | .taskSatisfactionChanged id _ | .taskVerifierMetadataSet id _
    | .taskRetryRequested id | .taskForceRetryRequested id _ _ _ => [id]
    | .humanInputSubmitted _ continuationId _ => [continuationId]

def reduceWorkflowInstanceEvents (current : Option WorkflowInstance)
    (events : List WorkflowInstanceEvent) : Except String WorkflowInstance :=
  match current, events with
  | some workflow, events => events.foldlM applyWorkflowInstanceEvent workflow
  | none, .workflowCreated workflow :: rest => rest.foldlM applyWorkflowInstanceEvent workflow
  | none, _ :: _ => .error "first event for a missing workflow snapshot must create it"
  | none, [] => .error "event batch must not be empty"

end RelayFold
