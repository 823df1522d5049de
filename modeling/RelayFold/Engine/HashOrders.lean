import RelayFold.Library.IterationOrders
import RelayFold.Core.Validation
import RelayFold.Engine.Pass

/-! An engine pass over hash maps: `engine.rs` with every loop over a map in
the order in which that loop finds the entries. The functions that loop over no
map are those of the pass over canonical maps. -/
namespace RelayFold

open WorkflowEngine

/-- The orders in which one operation of a pass goes through its hash maps, and
lists its sets. -/
structure HashOrder where
  tasks : IterationOrder (String × TaskInstance)
  verifierStates : IterationOrder (String × VerifierGenerationState)
  loopSlices : IterationOrder (String × List String)
  reached : IterationOrder String

namespace HashOrder

def sorted : HashOrder := ⟨.sorted _, .sorted _, .sorted _, .sorted _⟩

def reversed : HashOrder := ⟨.reversed _, .reversed _, .reversed _, .reversed _⟩

variable (order : HashOrder)

/-! Which attempts exist and what they consume. -/

/-- The hash map of the slices, computed with two hash sets for each
verifier. -/
def computeLoopSlices (definition : WorkflowDef) : LoopSlices :=
  order.loopSlices.order <| definition.tasks.filterMap fun verifierTask =>
    (taskVerifier verifierTask).map fun verifier =>
      let fromStart := order.reached.order <|
        reachableFrom definition (verifierRerunStartTaskId verifier verifierTask.id)
      let toVerifier := order.reached.order <| canReachTargetSet definition verifierTask.id
      (verifierTask.id, definition.taskIds.filter fun taskId =>
        taskId ∈ fromStart ∧ taskId ∈ toVerifier)

/-- The check of `workflow_service.rs` that no task is in two slices. The error
names the overlap that is found first. -/
def validateNonOverlappingVerifierSlices (definition : WorkflowDef) : Except String Unit := do
  let _ ← (order.computeLoopSlices definition).foldlM (fun owners (verifierId, slice) =>
    claimSlice verifierId owners slice) []

def sliceInterruptedByExit (workflow : WorkflowInstance) (slice : List String) : Bool :=
  order.tasks.anyValue (fun task =>
    task.taskDefId ∈ slice && (task.status = .skipped || task.earlyExit)) workflow.tasks

def latestMaterializedAttemptId (workflow : WorkflowInstance) (sourceTaskDefId : String) :
    Option String :=
  order.tasks.maxKeyBy (fun task => task.taskDefId = sourceTaskDefId) (·.generationIndex)
    workflow.tasks

def latestSatisfiedAttemptId (workflow : WorkflowInstance) (sourceTaskDefId : String) :
    Option String :=
  order.tasks.maxKeyBy (fun task => task.taskDefId = sourceTaskDefId &&
    task.status = .completed && task.satisfactionStatus = .satisfied) (·.generationIndex)
    workflow.tasks

def resolveSourceAttemptId (workflow : WorkflowInstance) (loopSlices : LoopSlices)
    (targetTaskDefId : Option String) (sourceTaskDefId : String) : Option String :=
  match targetTaskDefId.bind (sliceOf loopSlices) with
  | some (_, slice) =>
      if sourceTaskDefId ∈ slice then order.latestMaterializedAttemptId workflow sourceTaskDefId
      else order.latestSatisfiedAttemptId workflow sourceTaskDefId
  | none => order.latestSatisfiedAttemptId workflow sourceTaskDefId

def resolveBinding (workflow : WorkflowInstance) (loopSlices : LoopSlices)
    (targetTaskDefId : String) (binding : DataBinding) : Option (Json × TaskInputMapping) := do
  let sourceAttemptId ←
    order.resolveSourceAttemptId workflow loopSlices (some targetTaskDefId) binding.sourceTaskId
  let source ← workflow.tasks.lookup sourceAttemptId
  if source.status = .completed then
    some (source.outputData.getD .null, ⟨binding.sourceTaskId, source.generationIndex⟩)
  else none

def resolveInputs (workflow : WorkflowInstance) (definition : WorkflowDef) (task : TaskInstance)
    (taskDef : TaskDef) (loopSlices : LoopSlices) : Option ResolvedTaskInputs :=
  let inbound := inboundBindings definition taskDef.id
  if inbound.isEmpty && !task.inputData.isEmpty then some ⟨task.inputData, task.inputMapping⟩
  else (inbound.mapM (order.resolveBinding workflow loopSlices task.taskDefId)).map fun resolved =>
    ⟨resolved.map Prod.fst, resolved.map Prod.snd⟩

def logicalTaskReadyOutsideSlice (workflow : WorkflowInstance) (definition : WorkflowDef)
    (taskDef : TaskDef) (slice : List String) (loopSlices : LoopSlices) : Bool :=
  (inboundBindings definition taskDef.id).all fun binding =>
    binding.sourceTaskId ∈ slice ||
      ((order.resolveSourceAttemptId workflow loopSlices none binding.sourceTaskId).bind
        workflow.tasks.lookup).any (·.status = .completed)

def materializeGenerationEvents (workflow : WorkflowInstance) (slice : List String)
    (generationIndex : Nat) (plannedTaskAttempts : List String) :
    List WorkflowInstanceEvent × List String :=
  if order.sliceInterruptedByExit workflow slice then ([], plannedTaskAttempts)
  else materializeSlice workflow generationIndex slice plannedTaskAttempts

def eligibleStart (workflow : WorkflowInstance) (definition : WorkflowDef)
    (loopSlices : LoopSlices) (verifierTaskId : String) (slice : List String) : Option String := do
  if order.sliceInterruptedByExit workflow slice ||
      (workflow.verifierStates.lookup verifierTaskId).isSome then none
  else
    let verifierTask ← definition.findTask verifierTaskId
    let verifier ← taskVerifier verifierTask
    let start := verifierRerunStartTaskId verifier verifierTaskId
    let startTask ← definition.findTask start
    if order.logicalTaskReadyOutsideSlice workflow definition startTask slice loopSlices then
      some start
    else none

def materializeEligible (workflow : WorkflowInstance) (definition : WorkflowDef)
    (loopSlices : LoopSlices) :
    LoopSlices → List String → List String → List WorkflowInstanceEvent
  | [], _, _ => []
  | (verifierTaskId, slice) :: rest, plannedStates, plannedAttempts =>
      if verifierTaskId ∈ plannedStates then
        materializeEligible workflow definition loopSlices rest plannedStates plannedAttempts
      else
        match order.eligibleStart workflow definition loopSlices verifierTaskId slice with
        | none =>
            materializeEligible workflow definition loopSlices rest plannedStates plannedAttempts
        | some start =>
            let (events, plannedAttempts) :=
              order.materializeGenerationEvents workflow slice 1 plannedAttempts
            .verifierStateUpserted verifierTaskId (initialVerifierState verifierTaskId start) ::
              (events ++ materializeEligible workflow definition loopSlices rest
                (verifierTaskId :: plannedStates) plannedAttempts)

def materializeEligibleInitialGenerationEvents (workflow : WorkflowInstance)
    (definition : WorkflowDef) (loopSlices : LoopSlices) : List WorkflowInstanceEvent :=
  order.materializeEligible workflow definition loopSlices loopSlices [] []

def canRun (workflow : WorkflowInstance) (definition : WorkflowDef) (loopSlices : LoopSlices)
    (task : TaskInstance) : Bool :=
  (definition.findTask task.taskDefId).any fun taskDef =>
    (order.resolveInputs workflow definition task taskDef loopSlices).isSome

/-- The ids of the attempts are collected as they are found, and sorted. -/
def tasksToRun (workflow : WorkflowInstance) (definition : WorkflowDef) (loopSlices : LoopSlices) :
    Option (List String) :=
  if order.tasks.anyValue (fun task =>
      task.status = .pending && (definition.findTask task.taskDefId).isNone) workflow.tasks then none
  else some (order.tasks.sortedKeys (fun task =>
    task.status = .pending && order.canRun workflow definition loopSlices task) workflow.tasks)

def workflowAllCompleted (workflow : WorkflowInstance) (definition : WorkflowDef) : Bool :=
  let loopSlices := order.computeLoopSlices definition
  (definition.tasks.all fun taskDef =>
    ((order.latestMaterializedAttemptId workflow taskDef.id).bind
      workflow.tasks.lookup).any fun task =>
        task.status = .completed || task.status = .skipped) &&
  order.verifierStates.allEntries (fun (id, state) =>
    state.status = .accepted || state.status = .exhaustedAccepted ||
      (state.status = .running &&
        (loopSlices.lookup id).any (order.sliceInterruptedByExit workflow)))
    workflow.verifierStates

def startedTask (workflow : WorkflowInstance) (definition : WorkflowDef)
    (loopSlices : LoopSlices) (taskAttemptId : String) : Option StartedTask := do
  let task ← workflow.tasks.lookup taskAttemptId
  let taskDef ← definition.findTask task.taskDefId
  let inputs := (order.resolveInputs workflow definition task taskDef loopSlices).getD ⟨[], []⟩
  return { taskAttemptId := taskAttemptId, task := task, taskDef := taskDef, inputs := inputs }

/-! What an attempt is dispatched with, and the commit of its result. -/

/-- The slices are computed anew for every dispatch. -/
def loopExecutionContext (workflow : WorkflowInstance) (definition : WorkflowDef)
    (task : TaskInstance) : Option LoopExecutionContext := do
  let (verifierId, _) ← sliceOf (order.computeLoopSlices definition) task.taskDefId
  let verifierTask ← definition.findTask verifierId
  let verifier ← taskVerifier verifierTask
  let feedbackHistory := ((workflow.verifierStates.lookup verifierId).map fun state =>
    state.feedbackHistory.map fun entry =>
      LoopFeedbackEntry.mk entry.generationIndex entry.feedback).getD []
  let previousOutput :=
    if task.generationIndex = 0 then none
    else (workflow.tasks.lookup
      (makeTaskAttemptId task.taskDefId (task.generationIndex - 1))).bind (·.outputData)
  return {
    generation := task.generationIndex
    maxIterations := verifier.maxIterations
    feedbackHistory := feedbackHistory
    previousOutput := previousOutput }

def executionMetadata (ext : Externals) (workflow : WorkflowInstance) (definition : WorkflowDef)
    (task : TaskInstance) : ExecutionMetadata where
  generationIndex := task.generationIndex
  loopContext := order.loopExecutionContext workflow definition task
  humanInputProvided := task.humanInput.map (formatHumanInputForExecution ext)

/-- The pending attempts that an exit skips are sorted before their events are
made. -/
def earlyExitEvents (workflow : WorkflowInstance) (taskAttemptId : String) :
    List WorkflowInstanceEvent :=
  .taskEarlyExitSet taskAttemptId true ::
    (order.tasks.sortedKeys (·.status = .pending) workflow.tasks).flatMap fun id =>
      [.taskStatusChanged id .skipped, .taskSatisfactionChanged id .unsatisfied]

def rerunEvents (workflow : WorkflowInstance) (slice : List String)
    (verifierTaskId verifierAttemptId : String) (generation : Nat)
    (state : VerifierGenerationState) (entry : VerifierFeedbackEntry)
    (metadata : VerifierAttemptMetadata) : List WorkflowInstanceEvent :=
  [.verifierStateUpserted verifierTaskId { state with
      feedbackHistory := state.feedbackHistory ++ [entry]
      latestGeneration := generation + 1
      status := .running
      selectedGeneration := none
      exitReason := none },
    .taskVerifierMetadataSet verifierAttemptId (some metadata)] ++
  sliceSatisfactionEvents workflow slice generation .unsatisfied ++
  (order.materializeGenerationEvents workflow slice (generation + 1) []).1

def continueTransition (workflow : WorkflowInstance) (verifierTask : TaskDef)
    (verifier : VerifierControlConfig) (slice : List String) (verifierAttemptId : String)
    (generation : Nat) (state : VerifierGenerationState) (taskOutput : Json) (feedback : String)
    (output : Json) : VerifierTransition :=
  let verifierTaskId := verifierTask.id
  let entry : VerifierFeedbackEntry :=
    { generationIndex := generation, feedback := feedback, verifierOutput := output }
  let metadata (status : VerifierAttemptStatus) (exitReason : Option String) :
      VerifierAttemptMetadata :=
    { status := status, decision := some .continue, feedback := some feedback,
      verifierOutput := some output, exitReason := exitReason }
  let recorded : List WorkflowInstanceEvent := [.verifierFeedbackRecorded verifierTaskId entry]
  if order.sliceInterruptedByExit workflow slice then
    { events := recorded ++
        [.taskVerifierMetadataSet verifierAttemptId
          (some (metadata .rejected (some "slice_interrupted_by_early_exit")))] ++
        sliceSatisfactionEvents workflow slice generation .unsatisfied
      errorMessage := none }
  else if generation < verifier.maxIterations.toNat then
    { events := recorded ++ order.rerunEvents workflow slice verifierTaskId verifierAttemptId
        generation state entry (metadata .rejected none)
      errorMessage := none }
  else if verifier.onExhaustedContinue then
    if taskOutput.isNull && verifierTask.outputSchema.isNone then
      { events := recorded ++
          [.verifierStateStatusChanged verifierTaskId .failed state.selectedGeneration
            (some "max_iterations_exhausted")] ++
          failVerifierEvents verifierAttemptId
            (metadata .exhaustedFailed (some "no schema-valid latest generation output"))
        errorMessage :=
          some "Verifier exhausted with continue policy but no schema-valid output" }
    else
      { events := recorded ++ acceptEvents workflow slice verifierTaskId verifierAttemptId
          generation .exhaustedAccepted
          (metadata .exhaustedAccepted (some "max_iterations_exhausted"))
        errorMessage := none }
  else
    { events := recorded ++
        [.verifierStateStatusChanged verifierTaskId .exhaustedFailed state.selectedGeneration
          (some "max_iterations_exhausted")] ++
        failVerifierEvents verifierAttemptId
          (metadata .exhaustedFailed (some "max_iterations_exhausted")) ++
        sliceSatisfactionEvents workflow slice generation .unsatisfied
      errorMessage := some "Verifier exhausted iteration budget" }

def decisionTransition (workflow : WorkflowInstance) (verifierTask : TaskDef)
    (verifier : VerifierControlConfig) (slice : List String) (verifierAttemptId : String)
    (generation : Nat) (state : VerifierGenerationState) (taskOutput : Json)
    (result : VerifierExecutionResult) : VerifierTransition :=
  match result.decision with
  | .complete =>
      { events := acceptEvents workflow slice verifierTask.id verifierAttemptId generation .accepted
          { status := .accepted, decision := some .complete, feedback := result.feedback,
            verifierOutput := some result.output, exitReason := some "complete" }
        errorMessage := none }
  | .continue =>
      let feedback := result.feedback.getD ""
      if isBlank feedback then
        { events := failVerifierEvents verifierAttemptId
            { status := .invalid, decision := some .continue, feedback := result.feedback,
              verifierOutput := some result.output,
              exitReason := some "continue decision requires non-empty feedback" }
          errorMessage := some "Verifier continue decision requires non-empty feedback" }
      else
        order.continueTransition workflow verifierTask verifier slice verifierAttemptId generation
          state taskOutput feedback result.output

def verifierResultTransition (workflow : WorkflowInstance) (definition : WorkflowDef)
    (loopSlices : LoopSlices) (verifierAttemptId : String) (taskOutput : Json)
    (result : VerifierExecutionResult) : Except String VerifierTransition :=
  match workflow.tasks.lookup verifierAttemptId with
  | none => .error s!"verifier task attempt {verifierAttemptId} not found"
  | some attempt =>
      match definition.findTask attempt.taskDefId with
      | none => .error "verifier task definition missing"
      | some verifierTask =>
          match taskVerifier verifierTask with
          | none => .error s!"task {attempt.taskDefId} has no verifier config"
          | some verifier =>
              let slice := (loopSlices.lookup attempt.taskDefId).getD [attempt.taskDefId]
              match workflow.verifierStates.lookup attempt.taskDefId with
              | none => .error s!"verifier state {attempt.taskDefId} missing"
              | some state =>
                  .ok (order.decisionTransition workflow verifierTask verifier slice
                    verifierAttemptId attempt.generationIndex state taskOutput result)

def completedResult (workflow : WorkflowInstance) (definition : WorkflowDef)
    (loopSlices : LoopSlices) (taskAttemptId : String) (taskDef : TaskDef) (output : Json)
    (events : List WorkflowInstanceEvent) : Except String ResultCommit :=
  match taskVerifier taskDef with
  | none => .ok { events := events, next := .checkPause none }
  | some _ =>
      match verifierResultFromOutput output with
      | .error error =>
          .ok { events := events ++ invalidVerifierEvents taskAttemptId output error
                next := .stop (.error error) }
      | .ok result => do
          let resultInstance ← reduceWorkflowInstanceEvents (some workflow) events
          let transition ← order.verifierResultTransition resultInstance definition loopSlices
            taskAttemptId output result
          return { events := events ++ transition.events
                   next := .checkPause transition.errorMessage }

def successResult (ext : Externals) (workflow : WorkflowInstance) (definition : WorkflowDef)
    (loopSlices : LoopSlices) (taskAttemptId : String) (taskDef : TaskDef)
    (inputs : ResolvedTaskInputs) (output : Json) : Except String ResultCommit := do
  let schema ← taskDef.effectiveOutputSchema
  if schemaOk ext schema output then
    let events := completionEvents loopSlices taskAttemptId taskDef inputs schema output
    match exitReason taskDef output with
    | .error error =>
        return { events := events ++ failTaskEvents taskAttemptId, next := .stop (.error error) }
    | .ok none =>
        order.completedResult workflow definition loopSlices taskAttemptId taskDef output events
    | .ok (some _) =>
        order.completedResult workflow definition loopSlices taskAttemptId taskDef output
          (events ++ order.earlyExitEvents workflow taskAttemptId)
  else
    return { events := failureEvents taskAttemptId inputs
             next := .stop (.error "Task output failed schema validation") }

/-- Only a success goes through a map; the other answers name their attempt. -/
def resultCommit (ext : Externals) (workflow : WorkflowInstance) (definition : WorkflowDef)
    (loopSlices : LoopSlices) (taskAttemptId : String) (taskDef : TaskDef)
    (inputs : ResolvedTaskInputs) (answer : Answer) : Except String ResultCommit :=
  match answer with
  | .ok (.success output) =>
      order.successResult ext workflow definition loopSlices taskAttemptId taskDef inputs output
  | _ =>
      WorkflowEngine.resultCommit ext workflow definition loopSlices taskAttemptId taskDef inputs
        answer

/-! The operations of the pass. -/

def leaveLoop (pass : ActivePass) (workflow : WorkflowInstance) : PassState :=
  if order.workflowAllCompleted workflow pass.definition then pass.goOn workflow .commitCompleted
  else .finished .ok

def startTasks (pass : ActivePass) (workflow : WorkflowInstance) (atEnd : PassState) :
    PassState :=
  match order.tasksToRun workflow pass.definition pass.loopSlices with
  | none => .finished .panicked
  | some tasksToRun => pass.nextTask workflow atEnd tasksToRun

def enterLoop (pass : ActivePass) (workflow : WorkflowInstance) : PassState :=
  let events :=
    order.materializeEligibleInitialGenerationEvents workflow pass.definition pass.loopSlices
  if events.isEmpty then order.startTasks pass workflow (order.leaveLoop pass workflow)
  else pass.goOn workflow (.commitGenerations events)

def initializeTasks (pass : ActivePass) (workflow : WorkflowInstance) : PassState :=
  if workflow.tasks.isEmpty && !(initialTaskEvents workflow pass.definition).isEmpty then
    pass.goOn workflow .commitInitialTasks
  else order.enterLoop pass workflow

def prepareDispatch (ext : Externals) (pass : ActivePass) (workflow : WorkflowInstance)
    (taskAttemptId : String) (rest : List String) : PassState :=
  match order.startedTask workflow pass.definition pass.loopSlices taskAttemptId with
  | none => .finished .panicked
  | some started =>
      match validateInputs ext started.taskDef started.inputs.values with
      | .error error => pass.goOn workflow (.commitInputFailure started error)
      | .ok () => pass.goOn workflow (.resolveFunction started rest)

def answered (ext : Externals) (pass : ActivePass) (started : StartedTask) (rest : List String)
    (answer : Answer) : PassState :=
  match order.resultCommit ext pass.workflow pass.definition pass.loopSlices started.taskAttemptId
      started.taskDef started.inputs answer with
  | .error message => .finished (.error message)
  | .ok result => pass.goOn pass.workflow (.readCurrent started answer result rest)

def dispatchCall (env : EngineEnv) (pass : ActivePass) (started : StartedTask)
    (taskDef : TaskDef) : DispatchCall where
  ns := env.ns
  workflowInstanceId := pass.workflow.id
  taskDef := taskDef
  inputs := started.inputs.values
  metadata := order.executionMetadata env.ext pass.workflow pass.definition started.task
  constraints := { pinnedHostId := pass.workflow.pinnedWorkerHost }

def dispatch (env : EngineEnv) (pass : ActivePass) (started : StartedTask) (rest : List String) :
    PassState :=
  match resolveTaskFunctionRef env.functionDefs started.taskDef with
  | .error error => order.answered env.ext pass started rest (.error error)
  | .ok resolved =>
      match started.taskDef.effectiveOutputSchema with
      | .error message => .finished (.error message)
      | .ok schema =>
          let call := order.dispatchCall env pass started { resolved with outputSchema := schema }
          pass.goOn pass.workflow (.awaitAnswer started call rest)

def afterResult (pass : ActivePass) (result : ResultCommit) (rest : List String)
    (workflow : WorkflowInstance) : PassState :=
  match result.next with
  | .stop result => .finished result
  | .checkPause errorMessage =>
      if workflow.status = .paused then
        if order.workflowAllCompleted workflow pass.definition then
          pass.goOn workflow .commitPauseCompleted
        else .finished .ok
      else
        match errorMessage with
        | some message => .finished (.error message)
        | none => pass.nextTask workflow (order.enterLoop pass workflow) rest

/-- The next store operation. The points that go through no map are those of
the pass over canonical maps. -/
def stepActive (env : EngineEnv) (stored : WorkflowInstance) (pass : ActivePass) :
    PassState × Option WorkflowInstance :=
  match pass.point with
  | .commitRunning =>
      ActivePass.commit stored pass.workflow [.workflowStatusChanged .running]
        (order.initializeTasks pass)
  | .commitInitialTasks =>
      ActivePass.commit stored pass.workflow (initialTaskEvents pass.workflow pass.definition)
        (order.enterLoop pass)
  | .commitGenerations events =>
      ActivePass.commit stored pass.workflow events fun updated =>
        order.startTasks pass updated (order.enterLoop pass updated)
  | .commitStart taskAttemptId rest =>
      ActivePass.commit stored pass.workflow [.taskStatusChanged taskAttemptId .running]
        fun updated => order.prepareDispatch env.ext pass updated taskAttemptId rest
  | .resolveFunction started rest => (order.dispatch env pass started rest, none)
  | .commitResult _ _ result base rest =>
      ActivePass.commit stored base result.events (order.afterResult pass result rest)
  | _ => pass.step env stored

/-- The slices are computed once for the whole pass. -/
def loadedDef (workflow : WorkflowInstance) (found : Option WorkflowDef) : PassState :=
  match found with
  | none => .finished (.error "Workflow definition not found")
  | some definition => .active {
      definition := definition
      loopSlices := order.computeLoopSlices definition
      workflow := workflow
      point := .commitRunning }

def step (env : EngineEnv) (stored : WorkflowInstance) :
    PassState → PassState × Option WorkflowInstance
  | .loadingDef _ workflow =>
      (order.loadedDef workflow (env.definitions workflow.workflowDefId), none)
  | .active pass => order.stepActive env stored pass
  | state => state.step env stored

def answer (env : EngineEnv) (result : Answer) : PassState → Option PassState
  | .active pass =>
      match pass.point with
      | .awaitAnswer started _ rest => some (order.answered env.ext pass started rest result)
      | _ => none
  | _ => none

end HashOrder

end RelayFold
