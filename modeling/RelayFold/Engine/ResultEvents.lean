import RelayFold.Core.WorkEvents
import RelayFold.Engine.TaskResults

/-! Which events a task result consists of, and how a pass goes on after
them. -/
namespace RelayFold

open FallibleFold

/-- The statuses a result gives its attempt. -/
def TaskStatus.isAnswered : TaskStatus → Bool
  | completed | failed | inputNeeded _ => true
  | _ => false

/-- The events that may record a result of the attempt `id`, decided on
`workflow`. Other attempts are skipped, if they are pending, marked
satisfied or unsatisfied, or new; the status of the workflow is kept or
becomes `final`. -/
inductive ResultEvent (workflow : WorkflowInstance) (id : String) (final : WorkflowStatus) :
    WorkflowInstanceEvent → Prop
  | input (inputData : List Json) : ResultEvent workflow id final (.taskInputDataSet id inputData)
  | mapping (inputMapping : List TaskInputMapping) :
      ResultEvent workflow id final (.taskInputMappingSet id inputMapping)
  | answered {status : TaskStatus} (hAnswered : status.isAnswered = true) :
      ResultEvent workflow id final (.taskStatusChanged id status)
  | output (outputData : Option Json) : ResultEvent workflow id final (.taskOutputRecorded id outputData)
  | earlyExit : ResultEvent workflow id final (.taskEarlyExitSet id true)
  | metadata (verifierMetadata : Option VerifierAttemptMetadata) :
      ResultEvent workflow id final (.taskVerifierMetadataSet id verifierMetadata)
  | satisfaction (other : String) (status : TaskSatisfactionStatus) :
      ResultEvent workflow id final (.taskSatisfactionChanged other status)
  | skipped {other : String} {task : TaskInstance} (hTask : workflow.tasks.lookup other = some task)
      (hPending : task.status = .pending) :
      ResultEvent workflow id final (.taskStatusChanged other .skipped)
  | materialized (taskDefId : String) (generation : Nat) :
      ResultEvent workflow id final (.taskMaterialized (makeTaskAttemptId taskDefId generation)
        (.fresh taskDefId generation))
  | verifierUpserted (verifierId : String) (state : VerifierGenerationState) :
      ResultEvent workflow id final (.verifierStateUpserted verifierId state)
  | feedback (verifierId : String) (entry : VerifierFeedbackEntry) :
      ResultEvent workflow id final (.verifierFeedbackRecorded verifierId entry)
  | verifierStatus (verifierId : String) (status : VerifierStateStatus) (selected : Option Nat)
      (exitReason : Option String) :
      ResultEvent workflow id final (.verifierStateStatusChanged verifierId status selected exitReason)
  | workflowStatus : ResultEvent workflow id final (.workflowStatusChanged final)

/-- The event changes the status of an attempt or of the workflow. -/
def WorkflowInstanceEvent.isStatusChange : WorkflowInstanceEvent → Bool
  | workflowStatusChanged _ | taskStatusChanged .. => true
  | _ => false

/-- The event records the inputs of an attempt. -/
def WorkflowInstanceEvent.isInput : WorkflowInstanceEvent → Bool
  | taskInputDataSet .. | taskInputMappingSet .. => true
  | _ => false

/-- Whatever records a result is an event that a pass may commit. -/
theorem ResultEvent.isPassEvent {workflow : WorkflowInstance} {id : String}
    {final : WorkflowStatus} {event : WorkflowInstanceEvent} (h : ResultEvent workflow id final event) :
    event.isPassEvent = true := by
  cases h <;> rfl

theorem ResultEvent.isStart {workflow : WorkflowInstance} {id : String}
    {final : WorkflowStatus} {event : WorkflowInstanceEvent} (h : ResultEvent workflow id final event) :
    event.isStart = false := by
  cases h with
  | answered hAnswered =>
      refine decide_eq_false fun hRunning => ?_
      rw [hRunning] at hAnswered
      cases hAnswered
  | _ => rfl

/-- The events a verifier's decision adds to the result of its attempt `id`. -/
inductive DecisionEvent (id : String) : WorkflowInstanceEvent → Prop
  | metadata (verifierMetadata : Option VerifierAttemptMetadata) :
      DecisionEvent id (.taskVerifierMetadataSet id verifierMetadata)
  | satisfaction (other : String) (status : TaskSatisfactionStatus) :
      DecisionEvent id (.taskSatisfactionChanged other status)
  | materialized (taskDefId : String) (generation : Nat) :
      DecisionEvent id (.taskMaterialized (makeTaskAttemptId taskDefId generation)
        (.fresh taskDefId generation))
  | verifierUpserted (verifierId : String) (state : VerifierGenerationState) :
      DecisionEvent id (.verifierStateUpserted verifierId state)
  | feedback (verifierId : String) (entry : VerifierFeedbackEntry) :
      DecisionEvent id (.verifierFeedbackRecorded verifierId entry)
  | verifierStatus (verifierId : String) (status : VerifierStateStatus) (selected : Option Nat)
      (exitReason : Option String) :
      DecisionEvent id (.verifierStateStatusChanged verifierId status selected exitReason)
  | failed : DecisionEvent id (.taskStatusChanged id .failed)
  | workflowFailed : DecisionEvent id (.workflowStatusChanged .failed)

/-- What a verdict adds counts among the events of a result that may fail the
instance. -/
theorem DecisionEvent.result {workflow : WorkflowInstance} {id : String}
    {event : WorkflowInstanceEvent} (h : DecisionEvent id event) :
    ResultEvent workflow id .failed event := by
  cases h with
  | metadata _ => exact .metadata _
  | satisfaction _ _ => exact .satisfaction ..
  | materialized _ _ => exact .materialized ..
  | verifierUpserted _ _ => exact .verifierUpserted ..
  | feedback _ _ => exact .feedback ..
  | verifierStatus _ _ _ _ => exact .verifierStatus ..
  | failed => exact .answered rfl
  | workflowFailed => exact .workflowStatus

/-- Every event of the batch may record a result. -/
structure ResultEvents (workflow : WorkflowInstance) (id : String) (final : WorkflowStatus)
    (events : List WorkflowInstanceEvent) : Prop where
  all : ∀ event ∈ events, ResultEvent workflow id final event

namespace ResultEvents

variable {workflow : WorkflowInstance} {id : String} {final : WorkflowStatus}
  {event : WorkflowInstanceEvent}  {events rest : List WorkflowInstanceEvent}

theorem nil : ResultEvents workflow id final [] := ⟨fun _ h => nomatch h⟩

theorem cons (hFirst : ResultEvent workflow id final event) (hRest : ResultEvents workflow id final events) :
    ResultEvents workflow id final (event :: events) :=
  ⟨List.forall_mem_cons.mpr ⟨hFirst, hRest.all⟩⟩

theorem append (hFirst : ResultEvents workflow id final events) (hRest : ResultEvents workflow id final rest) :
    ResultEvents workflow id final (events ++ rest) :=
  ⟨List.forall_mem_append.mpr ⟨hFirst.all, hRest.all⟩⟩

/-- A batch of result events without a status change is work alone. -/
theorem work (h : ResultEvents workflow id final events)
    (hStatus : ∀ status, .workflowStatusChanged status ∉ events) :
    ∀ event ∈ events, event.isWork = true := by
  intro event hMem
  cases h.all event hMem with
  | workflowStatus => exact absurd hMem (hStatus _)
  | _ => rfl

/-- A batch that sets the status of the workflow leaves it there. -/
theorem status_eq (h : ResultEvents workflow id final events)
    (hMem : .workflowStatusChanged final ∈ events) (current : WorkflowStatus) :
    events.foldl (fun current event => event.statusEffect current) current = final := by
  obtain ⟨before, rest, rfl⟩ := List.append_of_mem hMem
  rw [List.foldl_append, List.foldl_cons]
  refine List.foldlRecOn rest (motive := (· = final)) _ rfl ?_
  intro current hCurrent event hIn
  have hAll := h.all event (List.mem_append_right before (List.mem_cons_of_mem _ hIn))
  cases hAll with
  | workflowStatus => rfl
  | _ => exact hCurrent

/-- Result events keep the status of the workflow or set it to `final`. -/
theorem status_kept {events : List WorkflowInstanceEvent}
    (h : ResultEvents workflow id final events) (current : WorkflowStatus) :
    events.foldl (fun current event => event.statusEffect current) current = current ∨
      events.foldl (fun current event => event.statusEffect current) current = final := by
  refine List.foldlRecOn events (motive := fun status => status = current ∨ status = final) _
    (.inl rfl) ?_
  intro status hStatus event hEvent
  cases h.all event hEvent with
  | workflowStatus => exact .inr rfl
  | _ => exact hStatus

end ResultEvents

/-- Every event of the batch may follow from a decision. -/
structure DecisionEvents (id : String) (events : List WorkflowInstanceEvent) : Prop where
  all : ∀ event ∈ events, DecisionEvent id event

namespace DecisionEvents

variable {id : String} {event : WorkflowInstanceEvent} {events rest : List WorkflowInstanceEvent}

theorem nil : DecisionEvents id [] := ⟨fun _ h => nomatch h⟩

theorem cons (hFirst : DecisionEvent id event) (hRest : DecisionEvents id events) :
    DecisionEvents id (event :: events) :=
  ⟨List.forall_mem_cons.mpr ⟨hFirst, hRest.all⟩⟩

theorem append (hFirst : DecisionEvents id events) (hRest : DecisionEvents id rest) :
    DecisionEvents id (events ++ rest) :=
  ⟨List.forall_mem_append.mpr ⟨hFirst.all, hRest.all⟩⟩

theorem result (h : DecisionEvents id events) {workflow : WorkflowInstance} :
    ResultEvents workflow id .failed events :=
  ⟨fun event hEvent => (h.all event hEvent).result⟩

end DecisionEvents

namespace WorkflowEngine

open ResultEvents

variable {workflow : WorkflowInstance} {id : String} {final : WorkflowStatus}

/-- The inputs of an attempt are recorded together with its result. -/
theorem inputEvents_result (inputs : ResolvedTaskInputs) :
    ResultEvents workflow id final (inputEvents id inputs) :=
  cons (.input _) (cons (.mapping _) nil)

theorem failTaskEvents_result : ResultEvents workflow id .failed (failTaskEvents id) :=
  cons (.answered rfl) (cons (.satisfaction ..) (cons .workflowStatus nil))

/-- A failure records the inputs, fails the attempt and fails the instance. -/
theorem failureEvents_result (inputs : ResolvedTaskInputs) :
    ResultEvents workflow id .failed (failureEvents id inputs) :=
  append (inputEvents_result inputs) failTaskEvents_result

/-- A completion leaves the status of the instance open; whoever appends to it
decides. -/
theorem completionEvents_result (loopSlices : LoopSlices) (taskDef : TaskDef)
    (inputs : ResolvedTaskInputs) (schema : Option JsonSchema) (output : Json) :
    ResultEvents workflow id final (completionEvents loopSlices id taskDef inputs schema output) := by
  unfold completionEvents
  refine append (append (append (inputEvents_result inputs) (cons (.answered rfl) nil)) ?_) ?_
  · split
    · exact nil
    · exact cons (.satisfaction ..) nil
  · split
    · exact cons (.output _) nil
    · exact nil

/-- What an early exit skips is pending in the snapshot that the pass has
read. -/
theorem earlyExitEvents_result : ResultEvents workflow id final (earlyExitEvents workflow id) := by
  refine cons .earlyExit ?_
  constructor
  simp only [List.mem_flatMap, List.mem_filter, FiniteMap.mem_toList, decide_eq_true_eq]
  rintro event ⟨entry, ⟨hTask, hPending⟩, hEvent⟩
  simp only [List.mem_cons, List.not_mem_nil, or_false] at hEvent
  rcases hEvent with rfl | rfl
  · exact .skipped hTask hPending
  · exact .satisfaction ..

/-! ### Decisions -/

theorem sliceSatisfactionEvents_decision (snapshot : WorkflowInstance) (slice : List String)
    (generation : Nat) (satisfaction : TaskSatisfactionStatus) :
    DecisionEvents id (sliceSatisfactionEvents snapshot slice generation satisfaction) := by
  constructor
  simp only [sliceSatisfactionEvents, List.mem_filterMap]
  rintro event ⟨taskDefId, _, hEvent⟩
  split at hEvent <;> cases hEvent
  exact .satisfaction ..

/-- A generation is made of fresh attempts under the ids that belong to it. -/
theorem materializeSlice_decision (snapshot : WorkflowInstance) (generation : Nat)
    (slice planned : List String) :
    DecisionEvents id (materializeSlice snapshot generation slice planned).1 := by
  induction slice generalizing planned with
  | nil => exact .nil
  | cons taskDefId slice ih =>
      unfold materializeSlice
      dsimp only
      split
      · exact ih planned
      · exact .cons (.materialized ..) (ih _)

theorem materializeGenerationEvents_decision (snapshot : WorkflowInstance) (slice : List String)
    (generation : Nat) (planned : List String) :
    DecisionEvents id (materializeGenerationEvents snapshot slice generation planned).1 := by
  unfold materializeGenerationEvents
  split
  · exact .nil
  · exact materializeSlice_decision ..

/-- The first generations are of the same kind, with the states of their
verifiers. -/
theorem materializeEligible_decision (snapshot : WorkflowInstance) (definition : WorkflowDef)
    (loopSlices rest : LoopSlices) (plannedStates plannedAttempts : List String) :
    DecisionEvents id
      (materializeEligible snapshot definition loopSlices rest plannedStates plannedAttempts) := by
  induction rest generalizing plannedStates plannedAttempts with
  | nil => exact .nil
  | cons entry rest ih =>
      obtain ⟨verifierId, slice⟩ := entry
      unfold materializeEligible
      split
      · exact ih _ _
      · split
        · exact ih _ _
        · exact .cons (.verifierUpserted ..)
            (.append (materializeGenerationEvents_decision ..) (ih _ _))

/-- A failed verification fails the attempt of the verifier and the
instance. -/
theorem failVerifierEvents_decision (metadata : VerifierAttemptMetadata) :
    DecisionEvents id (failVerifierEvents id metadata) :=
  .cons .workflowFailed (.cons .failed (.cons (.satisfaction ..) (.cons (.metadata _) .nil)))

/-- An acceptance sets marks and the verifier's state and metadata; it creates
nothing. -/
theorem acceptEvents_decision (snapshot : WorkflowInstance) (slice : List String)
    (verifierTaskId : String) (generation : Nat) (status : VerifierStateStatus)
    (metadata : VerifierAttemptMetadata) :
    DecisionEvents id
      (acceptEvents snapshot slice verifierTaskId id generation status metadata) :=
  .append (.cons (.verifierStatus ..) (.cons (.metadata _) .nil))
    (sliceSatisfactionEvents_decision ..)

/-- A rerun rejects its generation and creates the next one. -/
theorem rerunEvents_decision (snapshot : WorkflowInstance) (slice : List String)
    (verifierTaskId : String) (generation : Nat) (state : VerifierGenerationState)
    (entry : VerifierFeedbackEntry) (metadata : VerifierAttemptMetadata) :
    DecisionEvents id
      (rerunEvents snapshot slice verifierTaskId id generation state entry metadata) :=
  .append (.append (.cons (.verifierUpserted ..) (.cons (.metadata _) .nil))
    (sliceSatisfactionEvents_decision ..)) (materializeGenerationEvents_decision ..)

/-- A continue decision leads to a rerun, to an exhausted loop or to an
interrupted one, and all three stay within the events of a decision. -/
theorem continueTransition_decision (snapshot : WorkflowInstance) (verifierTask : TaskDef)
    (verifier : VerifierControlConfig) (slice : List String) (generation : Nat)
    (state : VerifierGenerationState) (taskOutput : Json) (feedback : String) (output : Json) :
    DecisionEvents id (continueTransition snapshot verifierTask verifier slice id generation state
      taskOutput feedback output).events := by
  unfold continueTransition
  dsimp only
  split
  · exact .append (.append (.cons (.feedback ..) .nil) (.cons (.metadata _) .nil))
      (sliceSatisfactionEvents_decision ..)
  · split
    · exact .append (.cons (.feedback ..) .nil) (rerunEvents_decision ..)
    · split
      · split
        · exact .append (.append (.cons (.feedback ..) .nil) (.cons (.verifierStatus ..) .nil))
            (failVerifierEvents_decision _)
        · exact .append (.cons (.feedback ..) .nil) (acceptEvents_decision ..)
      · exact .append (.append (.append (.cons (.feedback ..) .nil)
          (.cons (.verifierStatus ..) .nil)) (failVerifierEvents_decision _))
          (sliceSatisfactionEvents_decision ..)

/-- So does every verdict, whatever it decides. -/
theorem decisionTransition_decision (snapshot : WorkflowInstance) (verifierTask : TaskDef)
    (verifier : VerifierControlConfig) (slice : List String) (generation : Nat)
    (state : VerifierGenerationState) (taskOutput : Json) (result : VerifierExecutionResult) :
    DecisionEvents id (decisionTransition snapshot verifierTask verifier slice id generation state
      taskOutput result).events := by
  unfold decisionTransition
  split
  · exact acceptEvents_decision ..
  · dsimp only
    split
    · exact failVerifierEvents_decision _
    · exact continueTransition_decision ..

/-- The events of a verdict as part of the result of its attempt. -/
theorem decisionTransition_result (snapshot : WorkflowInstance) (verifierTask : TaskDef)
    (verifier : VerifierControlConfig) (slice : List String) (generation : Nat)
    (state : VerifierGenerationState) (taskOutput : Json) (result : VerifierExecutionResult) :
    ResultEvents workflow id .failed (decisionTransition snapshot verifierTask verifier slice id generation
      state taskOutput result).events :=
  (decisionTransition_decision ..).result

/-- A verdict is applied only to an attempt of a verifier whose state exists;
then it is the transition for that state and slice. -/
theorem verifierResultTransition_ok {snapshot : WorkflowInstance} {definition : WorkflowDef}
    {loopSlices : LoopSlices} {taskOutput : Json} {result : VerifierExecutionResult}
    {transition : VerifierTransition}
    (h : verifierResultTransition snapshot definition loopSlices id taskOutput result =
      .ok transition) :
    ∃ attempt verifierTask verifier state, snapshot.tasks.lookup id = some attempt ∧
      definition.findTask attempt.taskDefId = some verifierTask ∧
      taskVerifier verifierTask = some verifier ∧
      snapshot.verifierStates.lookup attempt.taskDefId = some state ∧
      transition = decisionTransition snapshot verifierTask verifier
        ((loopSlices.lookup attempt.taskDefId).getD [attempt.taskDefId]) id
        attempt.generationIndex state taskOutput result := by
  unfold verifierResultTransition at h
  cases hAttempt : snapshot.tasks.lookup id with
  | none =>
      rw [hAttempt] at h
      cases h
  | some attempt =>
      rw [hAttempt] at h
      dsimp only at h
      cases hTask : definition.findTask attempt.taskDefId with
      | none =>
          rw [hTask] at h
          cases h
      | some verifierTask =>
          rw [hTask] at h
          dsimp only at h
          cases hVerifier : taskVerifier verifierTask with
          | none =>
              rw [hVerifier] at h
              cases h
          | some verifier =>
              rw [hVerifier] at h
              dsimp only at h
              cases hState : snapshot.verifierStates.lookup attempt.taskDefId with
              | none =>
                  rw [hState] at h
                  cases h
              | some state =>
                  rw [hState] at h
                  cases h
                  exact ⟨attempt, verifierTask, verifier, state, rfl, hTask, hVerifier, hState,
                    rfl⟩

/-- The ways a pass records a valid output. -/
inductive Completed (workflow : WorkflowInstance) (definition : WorkflowDef)
    (loopSlices : LoopSlices) (id : String) (taskDef : TaskDef) (output : Json)
    (events : List WorkflowInstanceEvent) : ResultCommit → Prop
  | plain (hPlain : taskVerifier taskDef = none) :
      Completed workflow definition loopSlices id taskDef output events ⟨events, .checkPause none⟩
  | invalid {verifier : VerifierControlConfig} {error : String}
      (hVerifier : taskVerifier taskDef = some verifier)
      (hDecision : verifierResultFromOutput output = .error error) :
      Completed workflow definition loopSlices id taskDef output events
        ⟨events ++ invalidVerifierEvents id output error, .stop (.error error)⟩
  | decided {verifier : VerifierControlConfig} {result : VerifierExecutionResult}
      {resultInstance : WorkflowInstance} {transition : VerifierTransition}
      (hVerifier : taskVerifier taskDef = some verifier)
      (hDecision : verifierResultFromOutput output = .ok result)
      (hReduce : reduceWorkflowInstanceEvents (some workflow) events = .ok resultInstance)
      (hTransition : verifierResultTransition resultInstance definition loopSlices id output
        result = .ok transition) :
      Completed workflow definition loopSlices id taskDef output events
        ⟨events ++ transition.events, .checkPause transition.errorMessage⟩

/-- A valid output is recorded in one of three ways: plainly, as an invalid
verdict or with a decision. -/
theorem completedResult_ok {definition : WorkflowDef} {loopSlices : LoopSlices}
    {taskDef : TaskDef} {output : Json} {events : List WorkflowInstanceEvent}
    {result : ResultCommit}
    (h : completedResult workflow definition loopSlices id taskDef output events = .ok result) :
    Completed workflow definition loopSlices id taskDef output events result := by
  unfold completedResult at h
  cases hVerifier : taskVerifier taskDef with
  | none =>
      rw [hVerifier] at h
      cases h
      exact .plain hVerifier
  | some verifier =>
      rw [hVerifier] at h
      dsimp only at h
      cases hDecision : verifierResultFromOutput output with
      | error error =>
          rw [hDecision] at h
          cases h
          exact .invalid hVerifier hDecision
      | ok decided =>
          rw [hDecision] at h
          obtain ⟨resultInstance, hReduce, h⟩ := bind_ok.mp h
          obtain ⟨transition, hTransition, h⟩ := bind_ok.mp h
          cases h
          exact .decided hVerifier hDecision hReduce hTransition

/-- The ways a pass records an answer. -/
inductive Recorded (ext : Externals) (workflow : WorkflowInstance) (definition : WorkflowDef)
    (loopSlices : LoopSlices) (id : String) (taskDef : TaskDef) (inputs : ResolvedTaskInputs) :
    Answer → ResultCommit → Prop
  | inputNeeded (inputRequest : String) :
      Recorded ext workflow definition loopSlices id taskDef inputs
        (.ok (.inputNeeded inputRequest))
        ⟨inputNeededEvents id inputs inputRequest, .stop .ok⟩
  | failure (reason : String) :
      Recorded ext workflow definition loopSlices id taskDef inputs (.ok (.failure reason))
        ⟨failureEvents id inputs, .stop (.error s!"Task execution failed: {reason}")⟩
  | dispatchError (error : String) :
      Recorded ext workflow definition loopSlices id taskDef inputs (.error error)
        ⟨dispatchErrorEvents id inputs, .stop (.error "Task execution failed")⟩
  | badOutput {output : Json} {schema : Option JsonSchema}
      (hSchema : taskDef.effectiveOutputSchema = .ok schema)
      (hBad : schemaOk ext schema output = false) :
      Recorded ext workflow definition loopSlices id taskDef inputs (.ok (.success output))
        ⟨failureEvents id inputs, .stop (.error "Task output failed schema validation")⟩
  | badExit {output : Json} {schema : Option JsonSchema} {error : String}
      (hSchema : taskDef.effectiveOutputSchema = .ok schema)
      (hOk : schemaOk ext schema output = true) (hExit : exitReason taskDef output = .error error) :
      Recorded ext workflow definition loopSlices id taskDef inputs (.ok (.success output))
        ⟨completionEvents loopSlices id taskDef inputs schema output ++ failTaskEvents id,
          .stop (.error error)⟩
  | completed {output : Json} {schema : Option JsonSchema} {exit : Option String}
      {result : ResultCommit} (hSchema : taskDef.effectiveOutputSchema = .ok schema)
      (hOk : schemaOk ext schema output = true) (hExit : exitReason taskDef output = .ok exit)
      (hResult : Completed workflow definition loopSlices id taskDef output
        (completionEvents loopSlices id taskDef inputs schema output ++
          (if exit.isSome then earlyExitEvents workflow id else [])) result) :
      Recorded ext workflow definition loopSlices id taskDef inputs (.ok (.success output)) result

/-- Every answer that the pass can record is recorded in one of the ways
listed. Later proofs are by cases on these and not on the code. -/
theorem resultCommit_ok {ext : Externals} {definition : WorkflowDef} {loopSlices : LoopSlices}
    {taskDef : TaskDef} {inputs : ResolvedTaskInputs} {answer : Answer} {result : ResultCommit}
    (h : resultCommit ext workflow definition loopSlices id taskDef inputs answer = .ok result) :
    Recorded ext workflow definition loopSlices id taskDef inputs answer result := by
  unfold resultCommit at h
  split at h
  · rename_i output
    obtain ⟨schema, hSchema, h⟩ := bind_ok.mp h
    dsimp only at h
    split at h
    · rename_i hOk
      cases hExit : exitReason taskDef output with
      | error error =>
          rw [hExit] at h
          cases h
          exact .badExit hSchema hOk hExit
      | ok exit =>
          rw [hExit] at h
          cases exit with
          | none =>
              refine .completed hSchema hOk hExit (completedResult_ok ?_)
              simpa using h
          | some reason => exact .completed hSchema hOk hExit (completedResult_ok h)
    · rename_i hBad
      cases h
      exact .badOutput hSchema (Bool.not_eq_true _ ▸ hBad)
  · cases h
    exact .inputNeeded _
  · cases h
    exact .failure _
  · cases h
    exact .dispatchError _

/-! ### What every result has in common -/

/-- What a verifier adds to the events of its completion stays within the
events of a result. -/
theorem Completed.result {definition : WorkflowDef} {loopSlices : LoopSlices} {taskDef : TaskDef}
    {output : Json} {events : List WorkflowInstanceEvent} {result : ResultCommit}
    (h : Completed workflow definition loopSlices id taskDef output events result)
    (hEvents : ResultEvents workflow id .failed events) :
    ResultEvents workflow id .failed result.events := by
  cases h with
  | plain _ => exact hEvents
  | invalid _ _ =>
      exact append hEvents (cons (.answered rfl) (cons (.satisfaction ..) (cons (.metadata _)
        (cons .workflowStatus nil))))
  | decided _ _ _ hTransition =>
      obtain ⟨_, _, _, _, _, _, _, _, rfl⟩ := verifierResultTransition_ok hTransition
      exact append hEvents (decisionTransition_result ..)

/-- The status a workflow takes when the answer ends the pass. -/
def answerStatus : Answer → WorkflowStatus
  | .ok (.inputNeeded _) => .inputNeeded
  | _ => .failed

/-- However an answer is recorded, its events are those of a result of that
attempt. -/
theorem Recorded.result {ext : Externals} {definition : WorkflowDef} {loopSlices : LoopSlices}
    {taskDef : TaskDef} {inputs : ResolvedTaskInputs} {answer : Answer} {result : ResultCommit}
    (h : Recorded ext workflow definition loopSlices id taskDef inputs answer result) :
    ResultEvents workflow id (answerStatus answer) result.events := by
  cases h with
  | inputNeeded _ =>
      exact append (inputEvents_result inputs)
        (cons (.answered rfl) (cons .workflowStatus nil))
  | failure _ => exact failureEvents_result inputs
  | dispatchError _ =>
      exact append (inputEvents_result inputs)
        (cons (.answered rfl) (cons .workflowStatus nil))
  | badOutput _ _ => exact failureEvents_result inputs
  | badExit _ _ _ => exact append (completionEvents_result ..) failTaskEvents_result
  | completed _ _ _ hResult =>
      refine hResult.result (append (completionEvents_result ..) ?_)
      split
      · exact earlyExitEvents_result
      · exact nil

theorem answerStatus_ne_pending (answer : Answer) : answerStatus answer ≠ .pending := by
  unfold answerStatus
  split <;> exact nofun

theorem completed_mem_completionEvents (loopSlices : LoopSlices) (taskDef : TaskDef)
    (inputs : ResolvedTaskInputs) (schema : Option JsonSchema) (output : Json) :
    .taskStatusChanged id .completed ∈
      completionEvents loopSlices id taskDef inputs schema output := by
  simp [completionEvents]

/-- The verdict is appended to the events of the completion; none of them is
dropped. -/
theorem Completed.events_subset {definition : WorkflowDef} {loopSlices : LoopSlices}
    {taskDef : TaskDef} {output : Json} {events : List WorkflowInstanceEvent}
    {result : ResultCommit}
    (h : Completed workflow definition loopSlices id taskDef output events result) :
    events ⊆ result.events := by
  cases h with
  | plain _ => exact List.Subset.refl _
  | invalid _ _ => exact List.subset_append_left ..
  | decided _ _ _ _ => exact List.subset_append_left ..

/-- Every result answers its attempt. -/
theorem Recorded.answers {ext : Externals} {definition : WorkflowDef} {loopSlices : LoopSlices}
    {taskDef : TaskDef} {inputs : ResolvedTaskInputs} {answer : Answer} {result : ResultCommit}
    (h : Recorded ext workflow definition loopSlices id taskDef inputs answer result) :
    ∃ status : TaskStatus, status.isAnswered = true ∧
      .taskStatusChanged id status ∈ result.events := by
  cases h with
  | inputNeeded inputRequest => exact ⟨.inputNeeded inputRequest, rfl, by simp [inputNeededEvents]⟩
  | failure _ => exact ⟨.failed, rfl, by simp [failureEvents, failTaskEvents]⟩
  | dispatchError _ => exact ⟨.failed, rfl, by simp [dispatchErrorEvents]⟩
  | badOutput _ _ => exact ⟨.failed, rfl, by simp [failureEvents, failTaskEvents]⟩
  | badExit _ _ _ => exact ⟨.failed, rfl, by simp [failTaskEvents]⟩
  | completed _ _ _ hResult =>
      exact ⟨.completed, rfl, hResult.events_subset
        (List.mem_append_left _ (completed_mem_completionEvents ..))⟩

/-- Every result records its inputs first and does not touch them again. -/
theorem Recorded.inputs {ext : Externals} {definition : WorkflowDef} {loopSlices : LoopSlices}
    {taskDef : TaskDef} {inputs : ResolvedTaskInputs} {answer : Answer} {result : ResultCommit}
    (h : Recorded ext workflow definition loopSlices id taskDef inputs answer result) :
    ∃ rest, result.events = inputEvents id inputs ++ rest ∧ ∀ event ∈ rest, event.isInput = false := by
  have hCompletion (schema : Option JsonSchema) (output : Json) :
      ∃ rest, completionEvents loopSlices id taskDef inputs schema output =
        inputEvents id inputs ++ rest ∧ ∀ event ∈ rest, event.isInput = false := by
    refine ⟨_, by simp only [completionEvents, List.append_assoc]; rfl, ?_⟩
    split <;> split <;> simp [WorkflowInstanceEvent.isInput]
  have hExtend {events : List WorkflowInstanceEvent} (more : List WorkflowInstanceEvent)
      (hEvents : ∃ rest, events = inputEvents id inputs ++ rest ∧
        ∀ event ∈ rest, event.isInput = false) (hMore : ∀ event ∈ more, event.isInput = false) :
      ∃ rest, events ++ more = inputEvents id inputs ++ rest ∧
        ∀ event ∈ rest, event.isInput = false := by
    obtain ⟨rest, rfl, hRest⟩ := hEvents
    exact ⟨rest ++ more, List.append_assoc .., List.forall_mem_append.mpr ⟨hRest, hMore⟩⟩
  cases h with
  | inputNeeded _ | failure _ | dispatchError _ | badOutput _ _ =>
      refine ⟨_, rfl, ?_⟩
      simp [failTaskEvents, WorkflowInstanceEvent.isInput]
  | badExit _ _ _ =>
      exact hExtend _ (hCompletion ..) (by simp [failTaskEvents, WorkflowInstanceEvent.isInput])
  | @completed output schema exit _ _ _ _ hResult =>
      have hEvents := hExtend (if exit.isSome then earlyExitEvents workflow id else [])
        (hCompletion schema output) (by
          split
          · simp only [earlyExitEvents, List.forall_mem_cons, List.mem_flatMap]
            refine ⟨rfl, ?_⟩
            rintro event ⟨entry, _, hEvent⟩
            simp only [List.mem_cons, List.not_mem_nil, or_false] at hEvent
            rcases hEvent with rfl | rfl <;> rfl
          · exact fun _ h => nomatch h)
      cases hResult with
      | plain _ => exact hEvents
      | invalid _ _ =>
          exact hExtend _ hEvents (by simp [invalidVerifierEvents, WorkflowInstanceEvent.isInput])
      | decided _ _ _ hTransition =>
          obtain ⟨_, _, _, _, _, _, _, _, rfl⟩ := verifierResultTransition_ok hTransition
          refine hExtend _ hEvents fun event hEvent => ?_
          cases (decisionTransition_decision _ _ _ _ _ _ _ _).all event hEvent <;> rfl

/-- A completion, with or without an early exit, does not touch the status of
the instance. -/
theorem completionEvents_work (loopSlices : LoopSlices) (taskDef : TaskDef)
    (inputs : ResolvedTaskInputs) (schema : Option JsonSchema) (output : Json)
    (exit : Option String) :
    ∀ event ∈ completionEvents loopSlices id taskDef inputs schema output ++
      (if exit.isSome then earlyExitEvents workflow id else []), event.isWork = true := by
  have hResult : ResultEvents workflow id .failed
      (completionEvents loopSlices id taskDef inputs schema output ++
        (if exit.isSome then earlyExitEvents workflow id else [])) := by
    refine append (completionEvents_result ..) ?_
    split
    · exact earlyExitEvents_result
    · exact nil
  refine hResult.work fun status => ?_
  simp only [completionEvents, inputEvents, earlyExitEvents]
  split <;> split <;> split <;> simp

theorem sliceSatisfactionEvents_noStatus (snapshot : WorkflowInstance) (slice : List String)
    (generation : Nat) (satisfaction : TaskSatisfactionStatus) :
    ∀ event ∈ sliceSatisfactionEvents snapshot slice generation satisfaction,
      event.isStatusChange = false := by
  simp only [sliceSatisfactionEvents, List.mem_filterMap]
  rintro event ⟨taskDefId, _, h⟩
  split at h <;> cases h
  rfl

theorem materializeSlice_noStatus (snapshot : WorkflowInstance) (generation : Nat)
    (slice planned : List String) :
    ∀ event ∈ (materializeSlice snapshot generation slice planned).1,
      event.isStatusChange = false := by
  induction slice generalizing planned with
  | nil => exact fun _ h => nomatch h
  | cons taskDefId slice ih =>
      unfold materializeSlice
      dsimp only
      split
      · exact ih planned
      · exact List.forall_mem_cons.mpr ⟨rfl, ih _⟩

/-- A new generation changes no status, neither of an attempt that exists nor
of the instance. -/
theorem materializeGenerationEvents_noStatus (snapshot : WorkflowInstance) (slice : List String)
    (generation : Nat) (planned : List String) :
    ∀ event ∈ (materializeGenerationEvents snapshot slice generation planned).1,
      event.isStatusChange = false := by
  unfold materializeGenerationEvents
  split
  · exact fun _ h => nomatch h
  · exact materializeSlice_noStatus snapshot generation slice planned

theorem materializeEligible_noStatus (snapshot : WorkflowInstance) (definition : WorkflowDef)
    (loopSlices rest : LoopSlices) (plannedStates plannedAttempts : List String) :
    ∀ event ∈ materializeEligible snapshot definition loopSlices rest plannedStates plannedAttempts,
      event.isStatusChange = false := by
  induction rest generalizing plannedStates plannedAttempts with
  | nil => exact fun _ h => nomatch h
  | cons entry rest ih =>
      obtain ⟨verifierId, slice⟩ := entry
      unfold materializeEligible
      split
      · exact ih _ _
      · split
        · exact ih _ _
        · exact List.forall_mem_cons.mpr ⟨rfl, List.forall_mem_append.mpr
            ⟨materializeGenerationEvents_noStatus _ _ _ _, ih _ _⟩⟩

/-- A decision without an error message changes no status. -/
theorem decisionTransition_noStatus {snapshot : WorkflowInstance} {verifierTask : TaskDef}
    {verifier : VerifierControlConfig} {slice : List String} {generation : Nat}
    {state : VerifierGenerationState} {taskOutput : Json} {result : VerifierExecutionResult}
    (h : (decisionTransition snapshot verifierTask verifier slice id generation state taskOutput
      result).errorMessage = none) :
    ∀ event ∈ (decisionTransition snapshot verifierTask verifier slice id generation state
      taskOutput result).events, event.isStatusChange = false := by
  have hMarks := sliceSatisfactionEvents_noStatus
  have hRerun := materializeGenerationEvents_noStatus
  revert h
  unfold decisionTransition
  split
  · simp only [acceptEvents, List.forall_mem_append, List.forall_mem_cons]
    exact fun _ => ⟨⟨rfl, rfl, fun _ h => nomatch h⟩, hMarks _ _ _ _⟩
  · dsimp only
    split
    · exact fun h => nomatch h
    · unfold continueTransition
      dsimp only
      split
      · simp only [List.forall_mem_append, List.forall_mem_cons]
        exact fun _ => ⟨⟨⟨rfl, fun _ h => nomatch h⟩, rfl, fun _ h => nomatch h⟩, hMarks _ _ _ _⟩
      · split
        · simp only [rerunEvents, List.forall_mem_append, List.forall_mem_cons]
          exact fun _ => ⟨⟨rfl, fun _ h => nomatch h⟩,
            ⟨⟨rfl, rfl, fun _ h => nomatch h⟩, hMarks _ _ _ _⟩, hRerun _ _ _ _⟩
        · split
          · split
            · exact fun h => nomatch h
            · simp only [acceptEvents, List.forall_mem_append, List.forall_mem_cons]
              exact fun _ => ⟨⟨rfl, fun _ h => nomatch h⟩,
                ⟨rfl, rfl, fun _ h => nomatch h⟩, hMarks _ _ _ _⟩
          · exact fun h => nomatch h

/-- A verdict that ends the pass with an error fails the instance in the same
batch. -/
theorem decisionTransition_failed {snapshot : WorkflowInstance} {verifierTask : TaskDef}
    {verifier : VerifierControlConfig} {slice : List String} {generation : Nat}
    {state : VerifierGenerationState} {taskOutput : Json} {result : VerifierExecutionResult}
    (h : (decisionTransition snapshot verifierTask verifier slice id generation state taskOutput
      result).errorMessage ≠ none) :
    .workflowStatusChanged .failed ∈ (decisionTransition snapshot verifierTask verifier slice id
      generation state taskOutput result).events := by
  revert h
  unfold decisionTransition
  split
  · exact fun h => absurd rfl h
  · dsimp only
    split
    · exact fun _ => List.mem_cons_self
    · unfold continueTransition
      dsimp only
      split
      · exact fun h => absurd rfl h
      · split
        · exact fun h => absurd rfl h
        · split
          · split
            · simp [failVerifierEvents]
            · exact fun h => absurd rfl h
          · simp [failVerifierEvents]

/-- The only statuses that a completion sets are completed and, for an early
exit, skipped. -/
theorem completionEvents_statuses {loopSlices : LoopSlices} {taskDef : TaskDef}
    {inputs : ResolvedTaskInputs} {schema : Option JsonSchema} {output : Json}
    {exit : Option String} {key : String} {status : TaskStatus}
    (h : .taskStatusChanged key status ∈
      completionEvents loopSlices id taskDef inputs schema output ++
        (if exit.isSome then earlyExitEvents workflow id else [])) :
    status = .completed ∨ status = .skipped := by
  revert h
  simp only [completionEvents, inputEvents, earlyExitEvents]
  split <;> split <;> split <;> simp <;> tauto

/-- A result after which the pass goes on is work alone, and it fails
nothing. -/
theorem Recorded.goesOn {ext : Externals} {definition : WorkflowDef} {loopSlices : LoopSlices}
    {taskDef : TaskDef} {inputs : ResolvedTaskInputs} {answer : Answer} {result : ResultCommit}
    (h : Recorded ext workflow definition loopSlices id taskDef inputs answer result)
    (hNext : result.next = .checkPause none) :
    (∀ event ∈ result.events, event.isWork = true) ∧
      ∀ key status, .taskStatusChanged key status ∈ result.events →
        status = .completed ∨ status = .skipped := by
  cases h with
  | completed hSchema hOk hExit hResult =>
      cases hResult with
      | plain _ => exact ⟨completionEvents_work _ _ _ _ _ _, fun _ _ => completionEvents_statuses⟩
      | invalid _ _ => cases hNext
      | decided _ _ _ hTransition =>
          obtain ⟨_, _, _, _, _, _, _, _, rfl⟩ := verifierResultTransition_ok hTransition
          injection hNext with hMessage
          have hNo := decisionTransition_noStatus hMessage
          have hResult := @decisionTransition_result workflow id
          refine ⟨List.forall_mem_append.mpr ⟨completionEvents_work _ _ _ _ _ _,
            (hResult _ _ _ _ _ _ _ _).work fun _ hMem => by cases hNo _ hMem⟩,
            fun key status hMem => ?_⟩
          rcases List.mem_append.mp hMem with hMem | hMem
          · exact completionEvents_statuses hMem
          · cases hNo _ hMem
  | _ => cases hNext

/-- Every other result fails the workflow or asks for input. -/
theorem Recorded.ends {ext : Externals} {definition : WorkflowDef} {loopSlices : LoopSlices}
    {taskDef : TaskDef} {inputs : ResolvedTaskInputs} {answer : Answer} {result : ResultCommit}
    (h : Recorded ext workflow definition loopSlices id taskDef inputs answer result)
    (hNext : result.next ≠ .checkPause none) :
    .workflowStatusChanged (answerStatus answer) ∈ result.events := by
  cases h with
  | inputNeeded inputRequest => simp [inputNeededEvents, answerStatus]
  | failure _ => simp [failureEvents, failTaskEvents, answerStatus]
  | dispatchError _ => simp [dispatchErrorEvents, answerStatus]
  | badOutput _ _ => simp [failureEvents, failTaskEvents, answerStatus]
  | badExit _ _ _ => simp [failTaskEvents, answerStatus]
  | completed _ _ _ hResult =>
      cases hResult with
      | plain _ => exact absurd rfl hNext
      | invalid _ _ => simp [invalidVerifierEvents, answerStatus]
      | decided _ _ _ hTransition =>
          obtain ⟨_, _, _, _, _, _, _, _, rfl⟩ := verifierResultTransition_ok hTransition
          refine List.mem_append_right _ (decisionTransition_failed fun hMessage => ?_)
          exact hNext (by rw [hMessage])

/-! ### Results do not depend on the version and the status -/

/-- Which attempts a generation lacks does not depend on the version or the
status of the snapshot. -/
theorem materializeSlice_marked (version : Nat) (status : WorkflowStatus) (generation : Nat)
    (slice planned : List String) :
    materializeSlice (workflow.marked version status) generation slice planned =
      materializeSlice workflow generation slice planned := by
  induction slice generalizing planned with
  | nil => rfl
  | cons taskDefId slice ih => simp only [materializeSlice, WorkflowInstance.marked_tasks, ih]

theorem sliceInterruptedByExit_marked (version : Nat) (status : WorkflowStatus)
    (slice : List String) :
    sliceInterruptedByExit (workflow.marked version status) slice =
      sliceInterruptedByExit workflow slice := rfl

theorem sliceSatisfactionEvents_marked (version : Nat) (status : WorkflowStatus)
    (slice : List String) (generation : Nat) (satisfaction : TaskSatisfactionStatus) :
    sliceSatisfactionEvents (workflow.marked version status) slice generation satisfaction =
      sliceSatisfactionEvents workflow slice generation satisfaction := rfl

/-- A generation is materialized alike on the running snapshot and on the one
that has been paused in between: neither the version nor the status of the
workflow is read. -/
theorem materializeGenerationEvents_marked (version : Nat) (status : WorkflowStatus)
    (slice : List String) (generation : Nat) (planned : List String) :
    materializeGenerationEvents (workflow.marked version status) slice generation planned =
      materializeGenerationEvents workflow slice generation planned := by
  simp only [materializeGenerationEvents, sliceInterruptedByExit_marked, materializeSlice_marked]

/-- A verdict has the same events on a snapshot that has been paused in
between. -/
theorem decisionTransition_marked (version : Nat) (status : WorkflowStatus)
    (verifierTask : TaskDef) (verifier : VerifierControlConfig) (slice : List String)
    (generation : Nat) (state : VerifierGenerationState) (taskOutput : Json)
    (result : VerifierExecutionResult) :
    decisionTransition (workflow.marked version status) verifierTask verifier slice id generation
        state taskOutput result =
      decisionTransition workflow verifierTask verifier slice id generation state taskOutput
        result := by
  simp only [decisionTransition, continueTransition, acceptEvents, rerunEvents,
    sliceSatisfactionEvents_marked, sliceInterruptedByExit_marked,
    materializeGenerationEvents_marked]

theorem verifierResultTransition_marked (version : Nat) (status : WorkflowStatus)
    (definition : WorkflowDef) (loopSlices : LoopSlices) (taskOutput : Json)
    (result : VerifierExecutionResult) :
    verifierResultTransition (workflow.marked version status) definition loopSlices id taskOutput
      result = verifierResultTransition workflow definition loopSlices id taskOutput result := by
  simp only [verifierResultTransition, WorkflowInstance.marked_tasks,
    WorkflowInstance.marked_verifierStates, decisionTransition_marked]

/-- A valid output gives the same result events on a snapshot that has been
paused in between. The base of the commit may therefore be the latest
snapshot. -/
theorem completedResult_marked (definition : WorkflowDef) (loopSlices : LoopSlices)
    (taskDef : TaskDef) (output : Json) {events : List WorkflowInstanceEvent}
    (hWork : ∀ event ∈ events, event.isWork = true) (version : Nat) (status : WorkflowStatus) :
    completedResult (workflow.marked version status) definition loopSlices id taskDef output
      events = completedResult workflow definition loopSlices id taskDef output events := by
  unfold completedResult
  rw [reduceWorkflowInstanceEvents_marked hWork]
  cases reduceWorkflowInstanceEvents (some workflow) events with
  | error message => rfl
  | ok resultInstance =>
      simp only [Except.map, bind, Except.bind, verifierResultTransition_marked]

/-- A result does not depend on the version and the status of the snapshot. -/
theorem resultCommit_marked (ext : Externals) (definition : WorkflowDef)
    (loopSlices : LoopSlices) (taskDef : TaskDef) (inputs : ResolvedTaskInputs) (answer : Answer)
    (version : Nat) (status : WorkflowStatus) :
    resultCommit ext (workflow.marked version status) definition loopSlices id taskDef inputs
      answer = resultCommit ext workflow definition loopSlices id taskDef inputs answer := by
  unfold resultCommit successResult
  split
  · rename_i output
    cases taskDef.effectiveOutputSchema with
    | error message => rfl
    | ok schema =>
        change (if schemaOk ext schema output then _ else _) = (if schemaOk ext schema output then _ else _)
        cases exitReason taskDef output with
        | error message => rfl
        | ok exit =>
            cases exit with
            | none =>
                dsimp only
                rw [completedResult_marked]
                have hWork : ∀ event ∈ completionEvents loopSlices id taskDef inputs schema output ++
                    (if (none : Option String).isSome then earlyExitEvents workflow id else []),
                    event.isWork = true :=
                  completionEvents_work loopSlices taskDef inputs schema output none
                simpa using hWork
            | some reason =>
                have hWork : ∀ event ∈ completionEvents loopSlices id taskDef inputs schema output ++
                    earlyExitEvents workflow id, event.isWork = true :=
                  completionEvents_work loopSlices taskDef inputs schema output (some reason)
                dsimp only
                rw [show earlyExitEvents (workflow.marked version status) id =
                  earlyExitEvents workflow id from rfl, completedResult_marked _ _ _ _ hWork]
  · rfl
  · rfl
  · rfl

end WorkflowEngine

end RelayFold
