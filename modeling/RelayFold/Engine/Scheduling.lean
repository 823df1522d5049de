import RelayFold.Core.LoopSlices
import RelayFold.Core.Events

/-! Which attempts exist, which are ready and what they consume
(`engine.rs`). -/
namespace RelayFold

/-- The slices in the order in which a pass iterates over their hash map. -/
abbrev LoopSlices := List (String × List String)

structure ResolvedTaskInputs where
  values : List Json
  mapping : List TaskInputMapping

namespace WorkflowEngine

def sliceInterruptedByExit (workflow : WorkflowInstance) (slice : List String) : Bool :=
  workflow.tasks.anyValue fun task =>
    task.taskDefId ∈ slice && (task.status = .skipped || task.earlyExit)

def latestMaterializedAttemptId (workflow : WorkflowInstance) (sourceTaskDefId : String) :
    Option String :=
  workflow.tasks.maxKeyBy (fun task => task.taskDefId = sourceTaskDefId) (·.generationIndex)

def latestSatisfiedAttemptId (workflow : WorkflowInstance) (sourceTaskDefId : String) :
    Option String :=
  workflow.tasks.maxKeyBy (fun task => task.taskDefId = sourceTaskDefId &&
    task.status = .completed && task.satisfactionStatus = .satisfied) (·.generationIndex)

/-- The slice that contains a task. -/
def sliceOf (loopSlices : LoopSlices) (taskDefId : String) : Option (String × List String) :=
  loopSlices.find? fun entry => taskDefId ∈ entry.2

def isTaskInLoopSlice (loopSlices : LoopSlices) (taskDefId : String) : Bool :=
  loopSlices.any fun entry => taskDefId ∈ entry.2

/-- Inside a slice a target consumes the latest attempt of its source; from
outside it consumes the latest completed and satisfied one. -/
def resolveSourceAttemptId (workflow : WorkflowInstance) (loopSlices : LoopSlices)
    (targetTaskDefId : Option String) (sourceTaskDefId : String) : Option String :=
  match targetTaskDefId.bind (sliceOf loopSlices) with
  | some (_, slice) =>
      if sourceTaskDefId ∈ slice then latestMaterializedAttemptId workflow sourceTaskDefId
      else latestSatisfiedAttemptId workflow sourceTaskDefId
  | none => latestSatisfiedAttemptId workflow sourceTaskDefId

def inboundBindings (definition : WorkflowDef) (taskDefId : String) : List DataBinding :=
  definition.dataBindings.filter (·.targetTaskId = taskDefId)

/-- What one binding contributes, once its source attempt has completed. -/
def resolveBinding (workflow : WorkflowInstance) (loopSlices : LoopSlices)
    (targetTaskDefId : String) (binding : DataBinding) : Option (Json × TaskInputMapping) := do
  let sourceAttemptId ←
    resolveSourceAttemptId workflow loopSlices (some targetTaskDefId) binding.sourceTaskId
  let source ← workflow.tasks.lookup sourceAttemptId
  if source.status = .completed then
    some (source.outputData.getD .null, ⟨binding.sourceTaskId, source.generationIndex⟩)
  else none

def resolveInputs (workflow : WorkflowInstance) (definition : WorkflowDef) (task : TaskInstance)
    (taskDef : TaskDef) (loopSlices : LoopSlices) : Option ResolvedTaskInputs :=
  let inbound := inboundBindings definition taskDef.id
  if inbound.isEmpty && !task.inputData.isEmpty then some ⟨task.inputData, task.inputMapping⟩
  else (inbound.mapM (resolveBinding workflow loopSlices task.taskDefId)).map fun resolved =>
    ⟨resolved.map Prod.fst, resolved.map Prod.snd⟩

def logicalTaskReadyOutsideSlice (workflow : WorkflowInstance) (definition : WorkflowDef)
    (taskDef : TaskDef) (slice : List String) (loopSlices : LoopSlices) : Bool :=
  (inboundBindings definition taskDef.id).all fun binding =>
    binding.sourceTaskId ∈ slice ||
      ((resolveSourceAttemptId workflow loopSlices none binding.sourceTaskId).bind
        workflow.tasks.lookup).any (·.status = .completed)

/-- Materialize the tasks of a slice at one generation, skipping attempts that
exist or are planned already; the second list is what is planned afterwards. -/
def materializeSlice (workflow : WorkflowInstance) (generationIndex : Nat) :
    List String → List String → List WorkflowInstanceEvent × List String
  | [], planned => ([], planned)
  | taskDefId :: slice, planned =>
      let taskAttemptId := makeTaskAttemptId taskDefId generationIndex
      if (workflow.tasks.lookup taskAttemptId).isSome || taskAttemptId ∈ planned then
        materializeSlice workflow generationIndex slice planned
      else
        let (events, planned) :=
          materializeSlice workflow generationIndex slice (taskAttemptId :: planned)
        (.taskMaterialized taskAttemptId (.fresh taskDefId generationIndex) :: events, planned)

def materializeGenerationEvents (workflow : WorkflowInstance) (slice : List String)
    (generationIndex : Nat) (plannedTaskAttempts : List String) :
    List WorkflowInstanceEvent × List String :=
  if sliceInterruptedByExit workflow slice then ([], plannedTaskAttempts)
  else materializeSlice workflow generationIndex slice plannedTaskAttempts

/-- The state a verifier starts with. -/
def initialVerifierState (verifierTaskId rerunStartTaskId : String) :
    VerifierGenerationState where
  verifierTaskId := verifierTaskId
  rerunStartTaskId := rerunStartTaskId
  latestGeneration := 1
  selectedGeneration := none
  feedbackHistory := []
  status := .running
  exitReason := none

/-- The rerun start of a slice whose first generation may begin now. -/
def eligibleStart (workflow : WorkflowInstance) (definition : WorkflowDef)
    (loopSlices : LoopSlices) (verifierTaskId : String) (slice : List String) : Option String := do
  if sliceInterruptedByExit workflow slice ||
      (workflow.verifierStates.lookup verifierTaskId).isSome then none
  else
    let verifierTask ← definition.findTask verifierTaskId
    let verifier ← taskVerifier verifierTask
    let start := verifierRerunStartTaskId verifier verifierTaskId
    let startTask ← definition.findTask start
    if logicalTaskReadyOutsideSlice workflow definition startTask slice loopSlices then some start
    else none

def materializeEligible (workflow : WorkflowInstance) (definition : WorkflowDef)
    (loopSlices : LoopSlices) :
    LoopSlices → List String → List String → List WorkflowInstanceEvent
  | [], _, _ => []
  | (verifierTaskId, slice) :: rest, plannedStates, plannedAttempts =>
      if verifierTaskId ∈ plannedStates then
        materializeEligible workflow definition loopSlices rest plannedStates plannedAttempts
      else
        match eligibleStart workflow definition loopSlices verifierTaskId slice with
        | none =>
            materializeEligible workflow definition loopSlices rest plannedStates plannedAttempts
        | some start =>
            let (events, plannedAttempts) :=
              materializeGenerationEvents workflow slice 1 plannedAttempts
            .verifierStateUpserted verifierTaskId (initialVerifierState verifierTaskId start) ::
              (events ++ materializeEligible workflow definition loopSlices rest
                (verifierTaskId :: plannedStates) plannedAttempts)

def materializeEligibleInitialGenerationEvents (workflow : WorkflowInstance)
    (definition : WorkflowDef) (loopSlices : LoopSlices) : List WorkflowInstanceEvent :=
  materializeEligible workflow definition loopSlices loopSlices [] []

def initialTaskInputData (workflow : WorkflowInstance) (definition : WorkflowDef)
    (taskDef : TaskDef) : List Json :=
  match workflow.triggerInput with
  | none => []
  | some input =>
      if taskDef.inputSchemas.isEmpty then []
      else if definition.dataBindings.any (·.targetTaskId = taskDef.id) then []
      else [input]

/-- The first attempt of a task. -/
def initialTask (workflow : WorkflowInstance) (definition : WorkflowDef) (taskDef : TaskDef) :
    TaskInstance :=
  { TaskInstance.fresh taskDef.id 1 with
    inputData := initialTaskInputData workflow definition taskDef }

def initialTaskEvents (workflow : WorkflowInstance) (definition : WorkflowDef) :
    List WorkflowInstanceEvent :=
  definition.tasks.map fun taskDef =>
    .taskMaterialized (makeTaskAttemptId taskDef.id 1) (initialTask workflow definition taskDef)

/-- A pending attempt whose inputs all resolve. -/
def canRun (workflow : WorkflowInstance) (definition : WorkflowDef) (loopSlices : LoopSlices)
    (task : TaskInstance) : Bool :=
  (definition.findTask task.taskDefId).any fun taskDef =>
    (resolveInputs workflow definition task taskDef loopSlices).isSome

/-- The pending attempts that can run, in the order of their ids. A pending
attempt whose task is not in the definition panics: the lookup is unwrapped. -/
def tasksToRun (workflow : WorkflowInstance) (definition : WorkflowDef) (loopSlices : LoopSlices) :
    Option (List String) :=
  let pending := workflow.tasks.toList.filter fun entry => entry.2.status = .pending
  if pending.any fun entry => (definition.findTask entry.2.taskDefId).isNone then none
  else some ((pending.filter fun entry =>
    canRun workflow definition loopSlices entry.2).map Prod.fst)

def workflowAllCompleted (workflow : WorkflowInstance) (definition : WorkflowDef) : Bool :=
  let loopSlices := computeLoopSlices definition
  (definition.tasks.all fun taskDef =>
    ((latestMaterializedAttemptId workflow taskDef.id).bind workflow.tasks.lookup).any fun task =>
      task.status = .completed || task.status = .skipped) &&
  workflow.verifierStates.toList.all fun (id, state) =>
    state.status = .accepted || state.status = .exhaustedAccepted ||
      (state.status = .running &&
        (loopSlices.lookup id).any (sliceInterruptedByExit workflow))

end WorkflowEngine

end RelayFold
