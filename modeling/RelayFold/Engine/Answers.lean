import RelayFold.Engine.Materialization
import RelayFold.Engine.ResultEvents

/-! Every answer to a dispatched attempt gives a batch that the reducer
accepts. -/
namespace RelayFold

open FallibleFold

/-- A batch may be reduced in two parts: if the second is accepted on the
result of the first, the whole is. -/
theorem reduce_append {workflow middle next : WorkflowInstance}
    {first rest : List WorkflowInstanceEvent}
    (hFirst : reduceWorkflowInstanceEvents (some workflow) first = .ok middle)
    (hRest : rest.foldlM applyWorkflowInstanceEvent middle = .ok next) :
    reduceWorkflowInstanceEvents (some workflow) (first ++ rest) = .ok next :=
  foldlM_append_ok.mpr ⟨middle, hFirst, hRest⟩

namespace WorkflowEngine

/-- What recording an answer relies on: the attempt and its task, a task whose
output contract is well formed and, for a verifier, its state. -/
structure Answerable (workflow : WorkflowInstance) (definition : WorkflowDef) (id : String)
    (taskDef : TaskDef) : Prop where
  task : ∃ task, workflow.tasks.lookup id = some task ∧
    definition.findTask task.taskDefId = some taskDef ∧ task.taskDefId = taskDef.id
  schema : ∃ schema, taskDef.effectiveOutputSchema = .ok schema
  verifierState : (taskVerifier taskDef).isSome = true →
    (workflow.verifierStates.lookup taskDef.id).isSome = true

variable {workflow : WorkflowInstance} {definition : WorkflowDef} {loopSlices : LoopSlices}
  {id : String} {taskDef : TaskDef}

/-! ### The events of a result name attempts that exist -/

/-- The event that records the inputs of an attempt speaks of that attempt
alone. -/
theorem inputEvents_targets (h : (workflow.tasks.lookup id).isSome = true)
    (inputs : ResolvedTaskInputs) : ∀ event ∈ inputEvents id inputs, event.Targets workflow := by
  simp only [inputEvents, List.forall_mem_cons]
  exact ⟨h, h, List.forall_mem_nil _⟩

theorem failTaskEvents_targets (h : (workflow.tasks.lookup id).isSome = true) :
    ∀ event ∈ failTaskEvents id, event.Targets workflow := by
  simp only [failTaskEvents, List.forall_mem_cons]
  exact ⟨h, h, trivial, List.forall_mem_nil _⟩

/-- The events that complete an attempt name attempts the workflow has. Outside
every slice its satisfaction is one of them. -/
theorem completionEvents_targets (h : (workflow.tasks.lookup id).isSome = true)
    (inputs : ResolvedTaskInputs) (schema : Option JsonSchema) (output : Json) :
    ∀ event ∈ completionEvents loopSlices id taskDef inputs schema output,
      event.Targets workflow := by
  unfold completionEvents
  simp only [List.forall_mem_append]
  refine ⟨⟨⟨inputEvents_targets h inputs, List.forall_mem_singleton.mpr h⟩, ?_⟩, ?_⟩
  · split
    · exact List.forall_mem_nil _
    · exact List.forall_mem_singleton.mpr h
  · split
    · exact List.forall_mem_singleton.mpr h
    · exact List.forall_mem_nil _

/-- An early exit speaks of its own attempt and of those that are still
pending, and all of these exist. -/
theorem earlyExitEvents_targets (h : (workflow.tasks.lookup id).isSome = true) :
    ∀ event ∈ earlyExitEvents workflow id, event.Targets workflow := by
  simp only [earlyExitEvents, List.forall_mem_cons, List.mem_flatMap, List.mem_filter,
    FiniteMap.mem_toList]
  refine ⟨h, ?_⟩
  rintro event ⟨entry, ⟨hTask, _⟩, hEvent⟩
  have hEntry : (workflow.tasks.lookup entry.1).isSome = true := by rw [hTask]; rfl
  simp only [List.mem_cons, List.not_mem_nil, or_false] at hEvent
  rcases hEvent with rfl | rfl
  · exact hEntry
  · exact hEntry

/-- An answer that is no verdict is recorded on the verifier's attempt. -/
theorem invalidVerifierEvents_targets (h : (workflow.tasks.lookup id).isSome = true)
    (output : Json) (error : String) :
    ∀ event ∈ invalidVerifierEvents id output error, event.Targets workflow := by
  simp only [invalidVerifierEvents, List.forall_mem_cons]
  exact ⟨h, h, h, trivial, List.forall_mem_nil _⟩

/-- The satisfaction of a generation is set on the attempts of the slice that
exist; the others are passed over. -/
theorem sliceSatisfactionEvents_targets (slice : List String) (generation : Nat)
    (satisfaction : TaskSatisfactionStatus) :
    ∀ event ∈ sliceSatisfactionEvents workflow slice generation satisfaction,
      event.Targets workflow := by
  simp only [sliceSatisfactionEvents, List.mem_filterMap]
  rintro event ⟨taskDefId, _, hEvent⟩
  split at hEvent
  · rename_i hPresent
    cases hEvent
    exact hPresent
  · cases hEvent

section Decision

variable (hTask : (workflow.tasks.lookup id).isSome = true) {verifierTask : TaskDef}
  (hState : (workflow.verifierStates.lookup verifierTask.id).isSome = true)
include hTask

/-- A failed verification is recorded on the verifier's attempt; the instance
fails along with it. -/
theorem failVerifierEvents_targets (metadata : VerifierAttemptMetadata) :
    ∀ event ∈ failVerifierEvents id metadata, event.Targets workflow := by
  simp only [failVerifierEvents, List.forall_mem_cons]
  exact ⟨trivial, hTask, hTask, hTask, List.forall_mem_nil _⟩

include hState

/-- An acceptance marks the attempts of its generation and closes the state of
the verifier. -/
theorem acceptEvents_targets (slice : List String) (generation : Nat)
    (status : VerifierStateStatus) (metadata : VerifierAttemptMetadata) :
    ∀ event ∈ acceptEvents workflow slice verifierTask.id id generation status metadata,
      event.Targets workflow := by
  simp only [acceptEvents, List.forall_mem_append, List.forall_mem_cons]
  exact ⟨⟨hState, hTask, List.forall_mem_nil _⟩, sliceSatisfactionEvents_targets _ _ _⟩

/-- Rejecting a generation and creating the attempts of the next. -/
theorem foldlM_of_rerun (slice : List String) (generation : Nat) (state : VerifierGenerationState)
    (entry : VerifierFeedbackEntry) (metadata : VerifierAttemptMetadata)
    (hRuns : sliceInterruptedByExit workflow slice = false) :
    ∃ next, (.verifierFeedbackRecorded verifierTask.id entry ::
      rerunEvents workflow slice verifierTask.id id generation state entry metadata).foldlM
        applyWorkflowInstanceEvent workflow = .ok next := by
  unfold rerunEvents
  rw [materializeGenerationEvents_eq hRuns, ← List.cons_append]
  have hTargets : ∀ event ∈ .verifierFeedbackRecorded verifierTask.id entry ::
      ([.verifierStateUpserted verifierTask.id { state with
          feedbackHistory := state.feedbackHistory ++ [entry]
          latestGeneration := generation + 1
          status := .running
          selectedGeneration := none
          exitReason := none },
        .taskVerifierMetadataSet id (some metadata)] ++
        sliceSatisfactionEvents workflow slice generation .unsatisfied),
      event.Targets workflow := by
    simp only [List.cons_append, List.nil_append, List.forall_mem_cons]
    exact ⟨hState, trivial, hTask, sliceSatisfactionEvents_targets _ _ _⟩
  obtain ⟨middle, hMarks, hSame⟩ := foldlM_of_targets hTargets
  obtain ⟨next, hNext⟩ := foldlM_of_missing (generation + 1) slice [] hSame
  exact ⟨next, foldlM_append_ok.mpr ⟨middle, hMarks, hNext⟩⟩

/-- A continue decision can always be applied, whether it creates the next
generation, exhausts the iterations or finds the slice interrupted. -/
theorem foldlM_of_continue (verifier : VerifierControlConfig) (slice : List String)
    (generation : Nat) (state : VerifierGenerationState) (taskOutput : Json) (feedback : String)
    (output : Json) :
    ∃ next, (continueTransition workflow verifierTask verifier slice id generation state taskOutput
      feedback output).events.foldlM applyWorkflowInstanceEvent workflow = .ok next := by
  have hAll {events : List WorkflowInstanceEvent} (h : ∀ event ∈ events, event.Targets workflow) :
      ∃ next, events.foldlM applyWorkflowInstanceEvent workflow = .ok next := by
    obtain ⟨next, hNext, _⟩ := foldlM_of_targets h
    exact ⟨next, hNext⟩
  unfold continueTransition
  dsimp only
  split
  · refine hAll ?_
    simp only [List.forall_mem_append, List.forall_mem_singleton]
    exact ⟨⟨hState, hTask⟩, sliceSatisfactionEvents_targets _ _ _⟩
  · rename_i hRuns
    split
    · exact foldlM_of_rerun hTask hState slice generation state _ _ (by simpa using hRuns)
    · split
      · split
        · refine hAll ?_
          simp only [List.forall_mem_append, List.forall_mem_singleton]
          exact ⟨⟨hState, hState⟩, failVerifierEvents_targets hTask _⟩
        · refine hAll ?_
          simp only [List.forall_mem_append, List.forall_mem_singleton]
          exact ⟨hState, acceptEvents_targets hTask hState _ _ _ _⟩
      · refine hAll ?_
        simp only [List.forall_mem_append, List.forall_mem_singleton]
        exact ⟨⟨⟨hState, hState⟩, failVerifierEvents_targets hTask _⟩,
          sliceSatisfactionEvents_targets _ _ _⟩

/-- Whatever the verifier decides, its events are accepted on the snapshot of
the pass. -/
theorem foldlM_of_decision (verifier : VerifierControlConfig) (slice : List String)
    (generation : Nat) (state : VerifierGenerationState) (taskOutput : Json)
    (result : VerifierExecutionResult) :
    ∃ next, (decisionTransition workflow verifierTask verifier slice id generation state taskOutput
      result).events.foldlM applyWorkflowInstanceEvent workflow = .ok next := by
  unfold decisionTransition
  split
  · obtain ⟨next, hNext, _⟩ := foldlM_of_targets
      (acceptEvents_targets hTask hState slice generation .accepted _)
    exact ⟨next, hNext⟩
  · dsimp only
    split
    · obtain ⟨next, hNext, _⟩ := foldlM_of_targets (failVerifierEvents_targets hTask _)
      exact ⟨next, hNext⟩
    · exact foldlM_of_continue hTask hState ..

end Decision

/-! ### Recording an answer -/

/-- The answer gives a batch that can be applied. -/
def Recordable (workflow : WorkflowInstance) (commit : Except String ResultCommit) : Prop :=
  ∃ result, commit = .ok result ∧
    ∃ next, reduceWorkflowInstanceEvents (some workflow) result.events = .ok next

/-- A result can be recorded if its events refer to what the snapshot holds. -/
theorem Recordable.of_targets {result : ResultCommit}
    (h : ∀ event ∈ result.events, event.Targets workflow) :
    Recordable workflow (.ok result) := by
  obtain ⟨next, hNext, _⟩ := foldlM_of_targets h
  exact ⟨result, rfl, next, hNext⟩

/-- A completed task can be recorded along with further events, such as those
of the verdict or of an early exit. -/
theorem Answerable.completedResult (h : Answerable workflow definition id taskDef) (output : Json)
    {events : List WorkflowInstanceEvent} (hEvents : ∀ event ∈ events, event.Targets workflow) :
    Recordable workflow
      (completedResult workflow definition loopSlices id taskDef output events) := by
  obtain ⟨task, hTask, hFound, hId⟩ := h.task
  have hPresent : (workflow.tasks.lookup id).isSome = true := by rw [hTask]; rfl
  unfold WorkflowEngine.completedResult
  cases hVerifier : taskVerifier taskDef with
  | none => exact .of_targets hEvents
  | some verifier =>
      dsimp only
      cases hDecision : verifierResultFromOutput output with
      | error error =>
          refine .of_targets ?_
          exact List.forall_mem_append.mpr ⟨hEvents, invalidVerifierEvents_targets hPresent _ _⟩
      | ok decided =>
          obtain ⟨middle, hReduce, hSame⟩ := foldlM_of_targets hEvents
          have hNames := hSame.tasks id
          rw [hTask] at hNames
          obtain ⟨task', hTask', hDef⟩ := Option.map_eq_some_iff.mp hNames
          obtain ⟨state, hState⟩ := Option.isSome_iff_exists.mp
            (hSame.verifierStates _ (h.verifierState (by rw [hVerifier]; rfl)))
          have hId' : task'.taskDefId = taskDef.id := hDef.trans hId
          have hTransition : verifierResultTransition middle definition loopSlices id output
              decided = .ok (decisionTransition middle taskDef verifier
                ((loopSlices.lookup taskDef.id).getD [taskDef.id]) id task'.generationIndex state
                output decided) := by
            rw [hId] at hFound
            unfold verifierResultTransition
            rw [hTask']
            dsimp only
            rw [hId', hFound]
            dsimp only
            rw [hVerifier]
            dsimp only
            rw [hState]
          have hStateKept : (middle.verifierStates.lookup taskDef.id).isSome = true := by
            rw [hState]
            rfl
          obtain ⟨next, hNext⟩ := foldlM_of_decision ((hSame.isSome id).trans hPresent) hStateKept
            verifier ((loopSlices.lookup taskDef.id).getD [taskDef.id]) task'.generationIndex state
            output decided
          generalize decisionTransition middle taskDef verifier _ id _ state output decided =
            transition at hTransition hNext
          refine ⟨⟨events ++ transition.events, .checkPause transition.errorMessage⟩, ?_, next,
            reduce_append hReduce hNext⟩
          exact bind_ok.mpr ⟨middle, hReduce, bind_ok.mpr ⟨transition, hTransition, rfl⟩⟩

/-- Every answer to an answerable attempt can be recorded. -/
theorem Answerable.recordable (h : Answerable workflow definition id taskDef) (ext : Externals)
    (inputs : ResolvedTaskInputs) (answer : Answer) :
    Recordable workflow
      (resultCommit ext workflow definition loopSlices id taskDef inputs answer) := by
  obtain ⟨task, hTask, _⟩ := h.task
  have hPresent : (workflow.tasks.lookup id).isSome = true := by rw [hTask]; rfl
  have hFailure : ∀ event ∈ failureEvents id inputs, event.Targets workflow :=
    List.forall_mem_append.mpr ⟨inputEvents_targets hPresent _, failTaskEvents_targets hPresent⟩
  unfold resultCommit
  split
  · rename_i output
    obtain ⟨schema, hSchema⟩ := h.schema
    have hCompletion : ∀ event ∈ completionEvents loopSlices id taskDef inputs schema output,
        event.Targets workflow := completionEvents_targets hPresent inputs schema output
    unfold successResult
    simp only [hSchema, bind, Except.bind]
    split
    · split
      · exact .of_targets (List.forall_mem_append.mpr
          ⟨hCompletion, failTaskEvents_targets hPresent⟩)
      · exact h.completedResult output hCompletion
      · exact h.completedResult output (List.forall_mem_append.mpr
          ⟨hCompletion, earlyExitEvents_targets hPresent⟩)
    · exact .of_targets hFailure
  · refine .of_targets (List.forall_mem_append.mpr ⟨inputEvents_targets hPresent _, ?_⟩)
    exact List.forall_mem_cons.mpr ⟨hPresent, List.forall_mem_singleton.mpr trivial⟩
  · exact .of_targets hFailure
  · refine .of_targets (List.forall_mem_append.mpr ⟨inputEvents_targets hPresent _, ?_⟩)
    exact List.forall_mem_cons.mpr ⟨hPresent, List.forall_mem_singleton.mpr trivial⟩

end WorkflowEngine

end RelayFold
