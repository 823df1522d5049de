import RelayFold.Engine.Scheduling

/-! What a verifier's decision does to its slice (`engine.rs`). -/
namespace RelayFold

structure VerifierTransition where
  events : List WorkflowInstanceEvent
  errorMessage : Option String

namespace WorkflowEngine

/-- A verifier output must be an object with a known decision, and feedback to
go on. -/
def verifierResultFromOutput (output : Json) : Except String VerifierExecutionResult :=
  match output with
  | .object fields => do
      let decision ← match (fields.lookup "decision").bind Json.asStr with
        | some "continue" => pure VerifierDecision.continue
        | some "complete" => pure VerifierDecision.complete
        | _ => throw "Verifier task decision must be \"continue\" or \"complete\""
      let feedback := (fields.lookup "feedback").bind Json.asStr
      if decision = .continue ∧ feedback.all isBlank then
        throw "Verifier continue decision requires non-empty feedback"
      return { decision := decision, feedback := feedback, output := output }
  | _ => throw "Verifier task output must be an object"

/-- Mark the attempts of one generation of a slice, where they exist. -/
def sliceSatisfactionEvents (workflow : WorkflowInstance) (slice : List String) (generation : Nat)
    (satisfaction : TaskSatisfactionStatus) : List WorkflowInstanceEvent :=
  slice.filterMap fun taskDefId =>
    let taskAttemptId := makeTaskAttemptId taskDefId generation
    if (workflow.tasks.lookup taskAttemptId).isSome then
      some (.taskSatisfactionChanged taskAttemptId satisfaction)
    else none

/-- The events that fail the workflow together with the verifier attempt. -/
def failVerifierEvents (verifierAttemptId : String) (metadata : VerifierAttemptMetadata) :
    List WorkflowInstanceEvent :=
  [.workflowStatusChanged .failed,
    .taskStatusChanged verifierAttemptId .failed,
    .taskSatisfactionChanged verifierAttemptId .unsatisfied,
    .taskVerifierMetadataSet verifierAttemptId (some metadata)]

/-- Accept the slice at the generation of the verifier attempt. -/
def acceptEvents (workflow : WorkflowInstance) (slice : List String)
    (verifierTaskId verifierAttemptId : String) (generation : Nat) (status : VerifierStateStatus)
    (metadata : VerifierAttemptMetadata) : List WorkflowInstanceEvent :=
  [.verifierStateStatusChanged verifierTaskId status (some generation) metadata.exitReason,
    .taskVerifierMetadataSet verifierAttemptId (some metadata)] ++
  sliceSatisfactionEvents workflow slice generation .satisfied

/-- Reject the generation and materialize the next one. -/
def rerunEvents (workflow : WorkflowInstance) (slice : List String)
    (verifierTaskId verifierAttemptId : String) (generation : Nat)
    (state : VerifierGenerationState) (entry : VerifierFeedbackEntry)
    (metadata : VerifierAttemptMetadata) : List WorkflowInstanceEvent :=
  [.verifierStateUpserted verifierTaskId { state with
      feedbackHistory := state.feedbackHistory ++ [entry]
      latestGeneration := generation + 1
      status := .running
      selectedGeneration := none
      exitReason := none },
    .taskVerifierMetadataSet verifierAttemptId (some metadata)] ++
  sliceSatisfactionEvents workflow slice generation .unsatisfied ++
  (materializeGenerationEvents workflow slice (generation + 1) []).1

/-- The events of a rejecting decision, once its feedback is known not to be
blank. -/
def continueTransition (workflow : WorkflowInstance) (verifierTask : TaskDef)
    (verifier : VerifierControlConfig) (slice : List String) (verifierAttemptId : String)
    (generation : Nat) (state : VerifierGenerationState) (taskOutput : Json) (feedback : String)
    (output : Json) : VerifierTransition :=
  let verifierTaskId := verifierTask.id
  let entry : VerifierFeedbackEntry :=
    { generationIndex := generation, feedback := feedback, verifierOutput := output }
  let metadata (status : VerifierAttemptStatus) (exitReason : Option String) :
      VerifierAttemptMetadata :=
    { status := status, decision := some .continue, feedback := some feedback,
      verifierOutput := some output, exitReason := exitReason }
  let recorded : List WorkflowInstanceEvent := [.verifierFeedbackRecorded verifierTaskId entry]
  if sliceInterruptedByExit workflow slice then
    { events := recorded ++
        [.taskVerifierMetadataSet verifierAttemptId
          (some (metadata .rejected (some "slice_interrupted_by_early_exit")))] ++
        sliceSatisfactionEvents workflow slice generation .unsatisfied
      errorMessage := none }
  else if generation < verifier.maxIterations.toNat then
    { events := recorded ++ rerunEvents workflow slice verifierTaskId verifierAttemptId generation
        state entry (metadata .rejected none)
      errorMessage := none }
  else if verifier.onExhaustedContinue then
    if taskOutput.isNull && verifierTask.outputSchema.isNone then
      { events := recorded ++
          [.verifierStateStatusChanged verifierTaskId .failed state.selectedGeneration
            (some "max_iterations_exhausted")] ++
          failVerifierEvents verifierAttemptId
            (metadata .exhaustedFailed (some "no schema-valid latest generation output"))
        errorMessage :=
          some "Verifier exhausted with continue policy but no schema-valid output" }
    else
      { events := recorded ++ acceptEvents workflow slice verifierTaskId verifierAttemptId
          generation .exhaustedAccepted
          (metadata .exhaustedAccepted (some "max_iterations_exhausted"))
        errorMessage := none }
  else
    { events := recorded ++
        [.verifierStateStatusChanged verifierTaskId .exhaustedFailed state.selectedGeneration
          (some "max_iterations_exhausted")] ++
        failVerifierEvents verifierAttemptId
          (metadata .exhaustedFailed (some "max_iterations_exhausted")) ++
        sliceSatisfactionEvents workflow slice generation .unsatisfied
      errorMessage := some "Verifier exhausted iteration budget" }

def decisionTransition (workflow : WorkflowInstance) (verifierTask : TaskDef)
    (verifier : VerifierControlConfig) (slice : List String) (verifierAttemptId : String)
    (generation : Nat) (state : VerifierGenerationState) (taskOutput : Json)
    (result : VerifierExecutionResult) : VerifierTransition :=
  match result.decision with
  | .complete =>
      { events := acceptEvents workflow slice verifierTask.id verifierAttemptId generation .accepted
          { status := .accepted, decision := some .complete, feedback := result.feedback,
            verifierOutput := some result.output, exitReason := some "complete" }
        errorMessage := none }
  | .continue =>
      let feedback := result.feedback.getD ""
      if isBlank feedback then
        { events := failVerifierEvents verifierAttemptId
            { status := .invalid, decision := some .continue, feedback := result.feedback,
              verifierOutput := some result.output,
              exitReason := some "continue decision requires non-empty feedback" }
          errorMessage := some "Verifier continue decision requires non-empty feedback" }
      else
        continueTransition workflow verifierTask verifier slice verifierAttemptId generation state
          taskOutput feedback result.output

def verifierResultTransition (workflow : WorkflowInstance) (definition : WorkflowDef)
    (loopSlices : LoopSlices) (verifierAttemptId : String) (taskOutput : Json)
    (result : VerifierExecutionResult) : Except String VerifierTransition :=
  match workflow.tasks.lookup verifierAttemptId with
  | none => .error s!"verifier task attempt {verifierAttemptId} not found"
  | some attempt =>
      match definition.findTask attempt.taskDefId with
      | none => .error "verifier task definition missing"
      | some verifierTask =>
          match taskVerifier verifierTask with
          | none => .error s!"task {attempt.taskDefId} has no verifier config"
          | some verifier =>
              let slice := (loopSlices.lookup attempt.taskDefId).getD [attempt.taskDefId]
              match workflow.verifierStates.lookup attempt.taskDefId with
              | none => .error s!"verifier state {attempt.taskDefId} missing"
              | some state =>
                  .ok (decisionTransition workflow verifierTask verifier slice verifierAttemptId
                    attempt.generationIndex state taskOutput result)

end WorkflowEngine

end RelayFold
