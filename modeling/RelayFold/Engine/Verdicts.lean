import RelayFold.Engine.ResultEffects

/-! The verdict of a verifier attempt: what its decision does to the attempts
of the slice and to the verifier state. -/
namespace RelayFold.WorkflowEngine

/-- The snapshot after a verdict of the attempt `id`: what becomes of that
attempt, which marks the others get, what is created under free keys, and the
state of the verifier. -/
structure VerdictEffect (middle next : WorkflowInstance) (id verifierId : String)
    (own : TaskInstance → TaskInstance) (mark : String → Option TaskSatisfactionStatus)
    (created : String → Option TaskInstance → Prop) (state : VerifierGenerationState) : Prop where
  own : next.tasks.lookup id = (middle.tasks.lookup id).map own
  kept : ∀ key task, key ≠ id → middle.tasks.lookup key = some task →
    next.tasks.lookup key = some (task.marked (mark key))
  new : ∀ key, middle.tasks.lookup key = none → created key (next.tasks.lookup key)
  state : next.verifierStates.lookup verifierId = some state
  states : ∀ other, other ≠ verifierId →
    next.verifierStates.lookup other = middle.verifierStates.lookup other

/-- Nothing is created. -/
def NothingNew (_ : String) (found : Option TaskInstance) : Prop := found = none

/-- The verifier attempt with the record of its verdict and its mark. -/
def judged (metadata : VerifierAttemptMetadata) (mark : Option TaskSatisfactionStatus)
    (task : TaskInstance) : TaskInstance :=
  { task with verifierMetadata := some metadata }.marked mark

/-- What the metadata of a rejecting attempt records. -/
def rejection (status : VerifierAttemptStatus) (feedback : String) (output : Json)
    (exitReason : Option String) : VerifierAttemptMetadata :=
  { status := status, decision := some .continue, feedback := some feedback,
    verifierOutput := some output, exitReason := exitReason }

/-- The verifier state with one more entry of feedback. -/
def withFeedback (state : VerifierGenerationState) (generation : Nat) (feedback : String)
    (output : Json) : VerifierGenerationState :=
  { state with feedbackHistory := state.feedbackHistory ++
      [{ generationIndex := generation, feedback := feedback, verifierOutput := output }] }

section Verdict

variable (middle next : WorkflowInstance) (verifierTask : TaskDef)
  (verifier : VerifierControlConfig) (slice : List String) (id : String) (generation : Nat)
  (state : VerifierGenerationState) (taskOutput : Json) (result : VerifierExecutionResult)

/-- The verdicts, each with what it does to the snapshot. -/
inductive Verdict (errorMessage : Option String) : Prop
  | complete (hDecision : result.decision = .complete) (hMessage : errorMessage = none)
      (hEffect : VerdictEffect middle next id verifierTask.id
        (judged { status := .accepted, decision := some .complete, feedback := result.feedback,
                  verifierOutput := some result.output, exitReason := some "complete" }
          (sliceMark slice generation .satisfied id))
        (sliceMark slice generation .satisfied) NothingNew
        { state with
          status := .accepted, selectedGeneration := some generation,
          exitReason := some "complete" })
  | interrupted (hDecision : result.decision = .continue) (hMessage : errorMessage = none)
      (hInterrupted : sliceInterruptedByExit middle slice = true)
      (hEffect : VerdictEffect middle next id verifierTask.id
        (judged (rejection .rejected (result.feedback.getD "") result.output
          (some "slice_interrupted_by_early_exit")) (sliceMark slice generation .unsatisfied id))
        (sliceMark slice generation .unsatisfied) NothingNew
        (withFeedback state generation (result.feedback.getD "") result.output))
  | rerun (hDecision : result.decision = .continue) (hMessage : errorMessage = none)
      (hRuns : sliceInterruptedByExit middle slice = false)
      (hBelow : generation < verifier.maxIterations.toNat)
      (hEffect : VerdictEffect middle next id verifierTask.id
        (judged (rejection .rejected (result.feedback.getD "") result.output none)
          (sliceMark slice generation .unsatisfied id))
        (sliceMark slice generation .unsatisfied) (FreshAt slice (generation + 1))
        { withFeedback state generation (result.feedback.getD "") result.output with
          latestGeneration := generation + 1, status := .running, selectedGeneration := none,
          exitReason := none })
  | exhausted (hDecision : result.decision = .continue) (hMessage : errorMessage = none)
      (hRuns : sliceInterruptedByExit middle slice = false)
      (hLimit : verifier.maxIterations.toNat ≤ generation)
      (hContinue : verifier.onExhaustedContinue = true)
      (hEffect : VerdictEffect middle next id verifierTask.id
        (judged (rejection .exhaustedAccepted (result.feedback.getD "") result.output
          (some "max_iterations_exhausted")) (sliceMark slice generation .satisfied id))
        (sliceMark slice generation .satisfied) NothingNew
        { withFeedback state generation (result.feedback.getD "") result.output with
          status := .exhaustedAccepted, selectedGeneration := some generation,
          exitReason := some "max_iterations_exhausted" })
  | failed {metadata : VerifierAttemptMetadata} {mark : String → Option TaskSatisfactionStatus}
      {after : VerifierGenerationState} (hMessage : errorMessage ≠ none)
      (hMark : ∀ key, mark key = none ∨ mark key = some .unsatisfied)
      (hGeneration : after.latestGeneration = state.latestGeneration)
      (hStatus : after.status = state.status ∧
          after.selectedGeneration = state.selectedGeneration ∨
        after.status = .failed ∨ after.status = .exhaustedFailed)
      (hDecision : result.decision = .continue ∧ metadata.decision = some .continue)
      (hHistory : isBlank (result.feedback.getD "") = true ∨
        (sliceInterruptedByExit middle slice = false ∧
          verifier.maxIterations.toNat ≤ generation ∧ verifier.onExhaustedContinue = false) ∧
        (after.status = .failed ∨ after.status = .exhaustedFailed) ∧ after.feedbackHistory =
          (withFeedback state generation (result.feedback.getD "") result.output).feedbackHistory)
      (hEffect : VerdictEffect middle next id verifierTask.id
        (fun task => { task with status := .failed, satisfactionStatus := .unsatisfied,
                                 verifierMetadata := some metadata })
        mark NothingNew after)

end Verdict

variable {middle next : WorkflowInstance} {verifierTask : TaskDef}
  {verifier : VerifierControlConfig} {slice : List String} {id : String} {generation : Nat}
  {state : VerifierGenerationState} {taskOutput : Json} {result : VerifierExecutionResult}

/-- Marks and new attempts do not touch the states of verifiers. -/
theorem foldl_verifierEffect_tasks {verifierId : String} (marks : List String)
    (satisfaction : TaskSatisfactionStatus) (entries : List (String × TaskInstance))
    (current : Option VerifierGenerationState) :
    (marks.map (WorkflowInstanceEvent.taskSatisfactionChanged · satisfaction) ++
      entries.map fun entry => WorkflowInstanceEvent.taskMaterialized entry.1 entry.2).foldl
        (fun current event => event.verifierEffect verifierId current) current = current := by
  refine foldl_verifierEffect_self (fun event hEvent current => ?_) _
  simp only [List.mem_append, List.mem_map] at hEvent
  rcases hEvent with ⟨_, _, rfl⟩ | ⟨_, _, rfl⟩ <;> rfl

/-- Events that concern the verifier attempt and its state alone. -/
structure OwnEvents (id verifierId : String) (events : List WorkflowInstanceEvent)
    (own : TaskInstance → TaskInstance) (state after : VerifierGenerationState) : Prop where
  isLocal : ∀ event ∈ events, event.isLocal = true
  own : ∀ task, events.foldl (fun current event => event.taskEffect id current) (some task) =
    some (own task)
  others : ∀ key, key ≠ id → ∀ current,
    events.foldl (fun current event => event.taskEffect key current) current = current
  state : events.foldl (fun current event => event.verifierEffect verifierId current)
    (some state) = some after
  states : ∀ other, other ≠ verifierId → ∀ current,
    events.foldl (fun current event => event.verifierEffect other current) current = current

namespace OwnEvents

variable {verifierId : String} {after last : VerifierGenerationState}

/-- Two batches about the same verifier compose, with the changes that they
make to its attempt and its state. -/
theorem append {events rest : List WorkflowInstanceEvent} {own own' : TaskInstance → TaskInstance}
    (h : OwnEvents id verifierId events own state after)
    (h' : OwnEvents id verifierId rest own' after last) :
    OwnEvents id verifierId (events ++ rest) (fun task => own' (own task)) state last := by
  refine ⟨List.forall_mem_append.mpr ⟨h.isLocal, h'.isLocal⟩, fun task => ?_,
    fun key hKey current => ?_, ?_, fun other hOther current => ?_⟩
  · rw [List.foldl_append, h.own, h'.own]
  · rw [List.foldl_append, h.others key hKey, h'.others key hKey]
  · rw [List.foldl_append, h.state, h'.state]
  · rw [List.foldl_append, h.states other hOther, h'.states other hOther]

/-- Feedback goes to the end of the history that the state keeps. -/
theorem recordFeedback (entry : VerifierFeedbackEntry) :
    OwnEvents id verifierId [.verifierFeedbackRecorded verifierId entry] (fun task => task) state
      { state with feedbackHistory := state.feedbackHistory ++ [entry] } :=
  ⟨by simp [WorkflowInstanceEvent.isLocal], fun _ => rfl, fun _ _ _ => rfl,
    by simp [WorkflowInstanceEvent.verifierEffect],
    fun other hOther _ => by simp [WorkflowInstanceEvent.verifierEffect, hOther]⟩

/-- A change of the state's status also sets the selected generation and the
exit reason. -/
theorem setStatus (status : VerifierStateStatus) (selected : Option Nat)
    (exitReason : Option String) :
    OwnEvents id verifierId [.verifierStateStatusChanged verifierId status selected exitReason]
      (fun task => task) state
      { state with
        status := status, selectedGeneration := selected, exitReason := exitReason } :=
  ⟨by simp [WorkflowInstanceEvent.isLocal], fun _ => rfl, fun _ _ _ => rfl,
    by simp [WorkflowInstanceEvent.verifierEffect],
    fun other hOther _ => by simp [WorkflowInstanceEvent.verifierEffect, hOther]⟩

theorem upsert (state after : VerifierGenerationState) :
    OwnEvents id verifierId [.verifierStateUpserted verifierId after] (fun task => task) state
      after :=
  ⟨by simp [WorkflowInstanceEvent.isLocal], fun _ => rfl, fun _ _ _ => rfl,
    by simp [WorkflowInstanceEvent.verifierEffect],
    fun other hOther _ => by simp [WorkflowInstanceEvent.verifierEffect, hOther]⟩

/-- The metadata of a verdict is kept with the attempt of the verifier. -/
theorem setMetadata (metadata : VerifierAttemptMetadata) :
    OwnEvents id verifierId [.taskVerifierMetadataSet id (some metadata)]
      (fun task => { task with verifierMetadata := some metadata }) state state :=
  ⟨by simp [WorkflowInstanceEvent.isLocal], by simp [WorkflowInstanceEvent.taskEffect],
    fun key hKey _ => by simp [WorkflowInstanceEvent.taskEffect, hKey], rfl, fun _ _ _ => rfl⟩

/-- A failed verification changes the attempt of the verifier but not its
state. -/
theorem failVerifier (metadata : VerifierAttemptMetadata) :
    OwnEvents id verifierId (failVerifierEvents id metadata)
      (fun task => { task with status := .failed, satisfactionStatus := .unsatisfied,
                               verifierMetadata := some metadata }) state state :=
  ⟨by simp [failVerifierEvents, WorkflowInstanceEvent.isLocal],
    by simp [failVerifierEvents, WorkflowInstanceEvent.taskEffect],
    fun key hKey _ => by simp [failVerifierEvents, WorkflowInstanceEvent.taskEffect, hKey], rfl,
    fun _ _ _ => rfl⟩

end OwnEvents

/-- A verdict is made of own events, of marks, and of attempts for the next
generation. -/
theorem verdictEffect_of_events {verifierId : String} {events : List WorkflowInstanceEvent}
    {own : TaskInstance → TaskInstance} {after : VerifierGenerationState}
    {satisfaction : TaskSatisfactionStatus} {rerun : List String}
    (hEvents : OwnEvents id verifierId events own state after)
    (hTask : (middle.tasks.lookup id).isSome = true)
    (hState : middle.verifierStates.lookup verifierId = some state)
    (hReduce : (events ++ sliceSatisfactionEvents middle slice generation satisfaction ++
      ((missingTasks middle (generation + 1) rerun []).map (freshEntry (generation + 1))).map
        fun entry => WorkflowInstanceEvent.taskMaterialized entry.1 entry.2).foldlM applyWorkflowInstanceEvent middle =
      .ok next) :
    VerdictEffect middle next id verifierId
      (fun task => (own task).marked (sliceMark slice generation satisfaction id))
      (sliceMark slice generation satisfaction) (FreshAt rerun (generation + 1)) after := by
  have hEffect := foldlM_effected hReduce
  have hMissing {key : String} {task : TaskInstance}
      (hFound : middle.tasks.lookup key = some task) :
      key ∉ (missingTasks middle (generation + 1) rerun []).map
        (makeTaskAttemptId · (generation + 1)) := by
    intro hMem
    obtain ⟨taskDefId, hMissing, rfl⟩ := List.mem_map.mp hMem
    rw [(mem_missingTasks.mp hMissing).2.1] at hFound
    cases hFound
  have hLookup := hEffect.task fun event hEvent => by
    simp only [List.mem_append, sliceSatisfactionEvents_eq, List.mem_map] at hEvent
    rcases hEvent with (hEvent | ⟨_, _, rfl⟩) | ⟨_, _, rfl⟩
    · exact hEvents.isLocal event hEvent
    · rfl
    · rfl
  simp only [List.foldl_append] at hLookup
  obtain ⟨task, hFound⟩ := Option.isSome_iff_exists.mp hTask
  refine ⟨?_, fun key other hKey hOther => ?_, fun key hNone => ?_, ?_, fun other hOther => ?_⟩
  · rw [hLookup, hFound, hEvents.own, foldl_sliceSatisfactionEvents fun _ => hTask]
    rcases foldl_fresh id (generation + 1)
      (missingTasks middle (generation + 1) rerun []) (some ((own task).marked (sliceMark slice generation satisfaction id))) with
      ⟨hSame, _⟩ | ⟨taskDefId, hMem, hKey, _⟩
    · exact hSame
    · exact absurd (hKey ▸ List.mem_map_of_mem hMem) (hMissing hFound)
  · have hPresent : (middle.tasks.lookup key).isSome = true := by rw [hOther]; rfl
    rw [hLookup, hOther, hEvents.others key hKey, foldl_sliceSatisfactionEvents fun _ => hPresent]
    rcases foldl_fresh key (generation + 1)
      (missingTasks middle (generation + 1) rerun []) (some (other.marked (sliceMark slice generation satisfaction key))) with
      ⟨hSame, _⟩ | ⟨taskDefId, hMem, hKey, _⟩
    · exact hSame
    · exact absurd (hKey ▸ List.mem_map_of_mem hMem) (hMissing hOther)
  · have hKey : key ≠ id := by
      rintro rfl
      rw [hNone] at hTask
      cases hTask
    rw [hLookup, hNone, hEvents.others key hKey, foldl_sliceSatisfactionEvents (by simp)]
    rcases foldl_fresh key (generation + 1) (missingTasks middle (generation + 1) rerun []) none with
      ⟨hSame, hNotMem⟩ | ⟨taskDefId, hMem, rfl, hFresh⟩
    · refine .inr ⟨fun hMem => hNotMem ?_, hSame⟩
      obtain ⟨taskDefId, hTaskDef, rfl⟩ := List.mem_map.mp hMem
      exact List.mem_map_of_mem (mem_missingTasks.mpr ⟨hTaskDef, hNone, List.not_mem_nil⟩)
    · exact .inl ⟨taskDefId, (mem_missingTasks.mp hMem).1, rfl, hFresh⟩
  · rw [hEffect.verifierState, List.append_assoc, List.foldl_append, hState, hEvents.state,
      sliceSatisfactionEvents_eq, foldl_verifierEffect_tasks]
  · rw [hEffect.verifierState, List.append_assoc, List.foldl_append, hEvents.states other hOther,
      sliceSatisfactionEvents_eq, foldl_verifierEffect_tasks]

/-- With no task to create, a verdict creates nothing. -/
theorem VerdictEffect.nothingNew {verifierId : String} {own : TaskInstance → TaskInstance}
    {mark : String → Option TaskSatisfactionStatus} {after : VerifierGenerationState}
    (h : VerdictEffect middle next id verifierId own mark (FreshAt [] generation) after) :
    VerdictEffect middle next id verifierId own mark NothingNew after := by
  refine ⟨h.own, h.kept, fun key hNone => ?_, h.state, h.states⟩
  rcases h.new key hNone with ⟨_, hMem, _⟩ | ⟨_, hFound⟩
  · cases hMem
  · exact hFound

/-- A verdict that creates nothing. -/
theorem verdictEffect_of_marks {verifierId : String} {events : List WorkflowInstanceEvent}
    {own : TaskInstance → TaskInstance} {after : VerifierGenerationState}
    {satisfaction : TaskSatisfactionStatus}
    (hEvents : OwnEvents id verifierId events own state after)
    (hTask : (middle.tasks.lookup id).isSome = true)
    (hState : middle.verifierStates.lookup verifierId = some state)
    (hReduce : (events ++ sliceSatisfactionEvents middle slice generation satisfaction).foldlM
      applyWorkflowInstanceEvent middle = .ok next) :
    VerdictEffect middle next id verifierId
      (fun task => (own task).marked (sliceMark slice generation satisfaction id))
      (sliceMark slice generation satisfaction) NothingNew after := by
  refine (@verdictEffect_of_events middle next slice id generation state verifierId events own after
    satisfaction [] hEvents hTask hState ?_).nothingNew
  simpa [missingTasks] using hReduce

/-- A verdict that marks nothing and creates nothing. -/
theorem verdictEffect_of_own {verifierId : String} {events : List WorkflowInstanceEvent}
    {own : TaskInstance → TaskInstance} {after : VerifierGenerationState}
    (hEvents : OwnEvents id verifierId events own state after)
    (hTask : (middle.tasks.lookup id).isSome = true)
    (hState : middle.verifierStates.lookup verifierId = some state)
    (hReduce : events.foldlM applyWorkflowInstanceEvent middle = .ok next) :
    VerdictEffect middle next id verifierId own (fun _ => none) NothingNew after := by
  refine (@verdictEffect_of_events middle next [] id 0 state verifierId events own after
    .unsatisfied [] hEvents hTask hState ?_).nothingNew
  simpa [missingTasks, sliceSatisfactionEvents] using hReduce

/-- Marking an attempt unsatisfied a second time does nothing. -/
theorem marked_of_unsatisfied {key : String} {task : TaskInstance}
    (h : task.satisfactionStatus = .unsatisfied) :
    task.marked (sliceMark slice generation .unsatisfied key) = task := by
  unfold sliceMark TaskInstance.marked
  split
  · rw [Option.getD_some, ← h]
  · rfl

section Decision

variable (hTask : (middle.tasks.lookup id).isSome = true)
  (hState : middle.verifierStates.lookup verifierTask.id = some state)
include hTask hState

/-- What a continue decision leaves, by the three ways that it can take: an
interrupted slice, an exhausted budget, a rerun. -/
theorem continueTransition_effect {feedback : String} {output : Json}
    (hNotNull : taskOutput.isNull = false) (hDecision : result.decision = .continue)
    (hFeedback : result.feedback.getD "" = feedback) (hOutput : result.output = output)
    (hReduce : (continueTransition middle verifierTask verifier slice id generation state taskOutput
      feedback output).events.foldlM applyWorkflowInstanceEvent middle = .ok next) :
    Verdict middle next verifierTask verifier slice id generation state result
      (continueTransition middle verifierTask verifier slice id generation state taskOutput
        feedback output).errorMessage := by
  subst hFeedback hOutput
  unfold continueTransition at hReduce ⊢
  dsimp only at hReduce ⊢
  by_cases hInterrupted : sliceInterruptedByExit middle slice = true
  · rw [if_pos hInterrupted] at hReduce ⊢
    exact .interrupted hDecision rfl hInterrupted
      (verdictEffect_of_marks ((OwnEvents.recordFeedback _).append (.setMetadata _)) hTask hState
        hReduce)
  have hRuns : sliceInterruptedByExit middle slice = false := by simpa using hInterrupted
  rw [if_neg hInterrupted] at hReduce ⊢
  by_cases hBelow : generation < verifier.maxIterations.toNat
  · rw [if_pos hBelow] at hReduce ⊢
    rw [rerunEvents, materializeGenerationEvents_eq hRuns, ← List.append_assoc,
      ← List.append_assoc] at hReduce
    exact .rerun hDecision rfl hRuns hBelow (verdictEffect_of_events
      ((OwnEvents.recordFeedback _).append ((OwnEvents.upsert _ _).append (.setMetadata _)))
      hTask hState hReduce)
  rw [if_neg hBelow] at hReduce ⊢
  by_cases hContinue : verifier.onExhaustedContinue = true
  · rw [if_pos hContinue] at hReduce ⊢
    rw [if_neg (by simp [hNotNull])] at hReduce ⊢
    rw [acceptEvents, ← List.append_assoc] at hReduce
    exact .exhausted hDecision rfl hRuns (Nat.not_lt.mp hBelow) hContinue
      (verdictEffect_of_marks ((OwnEvents.recordFeedback _).append
        ((OwnEvents.setStatus _ _ _).append (.setMetadata _))) hTask hState hReduce)
  · rw [if_neg hContinue] at hReduce ⊢
    have hEffect := verdictEffect_of_marks (((OwnEvents.recordFeedback _).append
      (.setStatus _ _ _)).append (.failVerifier _)) hTask hState hReduce
    simp only [marked_of_unsatisfied] at hEffect
    refine .failed (fun h => ?_) (fun key => ?_) ?_ ?_ ⟨hDecision, rfl⟩ ?_ hEffect
    · cases h
    · unfold sliceMark
      split
      · exact .inr rfl
      · exact .inl rfl
    · rfl
    · exact .inr (.inr rfl)
    · exact .inr ⟨⟨hRuns, Nat.not_lt.mp hBelow, by simpa using hContinue⟩, .inr rfl, rfl⟩

/-- A committed decision is one of the verdicts. -/
theorem decisionTransition_effect (hNotNull : taskOutput.isNull = false)
    (hReduce : (decisionTransition middle verifierTask verifier slice id generation state taskOutput
      result).events.foldlM applyWorkflowInstanceEvent middle = .ok next) :
    Verdict middle next verifierTask verifier slice id generation state result
      (decisionTransition middle verifierTask verifier slice id generation state taskOutput
        result).errorMessage := by
  unfold decisionTransition at hReduce ⊢
  cases hDecision : result.decision with
  | complete =>
      simp only [hDecision, acceptEvents] at hReduce ⊢
      exact .complete hDecision rfl (verdictEffect_of_marks
        ((OwnEvents.setStatus _ _ _).append (.setMetadata _)) hTask hState hReduce)
  | «continue» =>
      simp only [hDecision] at hReduce ⊢
      by_cases hBlank : isBlank (result.feedback.getD "") = true
      · rw [if_pos hBlank] at hReduce ⊢
        exact .failed (fun h => by cases h) (fun _ => .inl rfl) rfl (.inl ⟨rfl, rfl⟩)
          ⟨hDecision, rfl⟩ (.inl hBlank) (verdictEffect_of_own (.failVerifier _) hTask hState hReduce)
      · rw [if_neg hBlank] at hReduce ⊢
        exact continueTransition_effect hTask hState hNotNull hDecision rfl rfl hReduce

end Decision

end RelayFold.WorkflowEngine
