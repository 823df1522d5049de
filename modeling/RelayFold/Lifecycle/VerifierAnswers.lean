import RelayFold.Lifecycle.AttemptOrder

/-! What an answer of a verifier does to its attempts and to its state. -/
namespace RelayFold

open WorkflowEngine FallibleFold

/-- The history with the feedback of one more generation. -/
def GainsFeedback (state after : VerifierGenerationState) (generation : Nat) : Prop :=
  ∃ entry, entry.generationIndex = generation ∧
    after.feedbackHistory = state.feedbackHistory ++ [entry]

/-- A decision of the attempt `task`: what is recorded with the attempt, and
the state after it. The last argument tells whether the next generation is
materialized. -/
inductive Decided (verifier : VerifierControlConfig) (task own : TaskInstance)
    (state after : VerifierGenerationState) : Prop → Prop
  | complete {metadata : VerifierAttemptMetadata} (hOwn : own.status = .completed)
      (hMetadata : own.verifierMetadata = some metadata) (hRecorded : metadata.status = .accepted)
      (hDecision : metadata.decision = some .complete) (hStatus : after.status = .accepted)
      (hSelected : after.selectedGeneration = some task.generationIndex)
      (hHistory : after.feedbackHistory = state.feedbackHistory) :
      Decided verifier task own state after False
  | interrupted {metadata : VerifierAttemptMetadata} (hOwn : own.status = .completed)
      (hMetadata : own.verifierMetadata = some metadata) (hRecorded : metadata.status = .rejected)
      (hDecision : metadata.decision = some .continue) (hStatus : after.status = state.status)
      (hHistory : GainsFeedback state after task.generationIndex) :
      Decided verifier task own state after False
  | rerun {metadata : VerifierAttemptMetadata} (hOwn : own.status = .completed)
      (hMetadata : own.verifierMetadata = some metadata) (hRecorded : metadata.status = .rejected)
      (hDecision : metadata.decision = some .continue)
      (hBelow : task.generationIndex < verifier.maxIterations.toNat)
      (hStatus : after.status = .running)
      (hHistory : GainsFeedback state after task.generationIndex) :
      Decided verifier task own state after True
  | exhausted {metadata : VerifierAttemptMetadata} (hOwn : own.status = .completed)
      (hMetadata : own.verifierMetadata = some metadata)
      (hRecorded : metadata.status = .exhaustedAccepted)
      (hDecision : metadata.decision = some .continue) (hStatus : after.status = .exhaustedAccepted)
      (hSelected : after.selectedGeneration = some task.generationIndex)
      (hHistory : GainsFeedback state after task.generationIndex) :
      Decided verifier task own state after False
  | failed {metadata : VerifierAttemptMetadata} (hOwn : own.status = .failed)
      (hMetadata : own.verifierMetadata = some metadata)
      (hDecision : metadata.decision = some .continue)
      (hStatus : after.status = .failed ∨ after.status = .exhaustedFailed)
      (hHistory : GainsFeedback state after task.generationIndex) :
      Decided verifier task own state after False

/-- The answer of a verifier attempt. -/
inductive VerifierAnswer (definition : WorkflowDef) (before after : WorkflowInstance)
    (verifierId id : String) (task : TaskInstance) : Prop
  | stopped {own : TaskInstance}
      (hAttempts : AnsweredAttempts before after verifierId id task own False)
      (hStatus : own.status = .failed ∨ own.status.isInputNeeded = true)
      (hMetadata : own.verifierMetadata = task.verifierMetadata ∨
        own.verifierMetadata.bind (·.decision) = none)
      (hState : after.verifierStates.lookup verifierId = before.verifierStates.lookup verifierId)
  | decided {own : TaskInstance} {taskDef : TaskDef} {verifier : VerifierControlConfig}
      {state state' : VerifierGenerationState} {rerun : Prop}
      (hAttempts : AnsweredAttempts before after verifierId id task own rerun)
      (hFound : definition.findTask verifierId = some taskDef)
      (hVerifier : taskVerifier taskDef = some verifier)
      (hBefore : before.verifierStates.lookup verifierId = some state)
      (hAfter : after.verifierStates.lookup verifierId = some state')
      (hDecided : Decided verifier task own state state' rerun)

namespace WorkflowEngine

variable {before middle after : WorkflowInstance} {taskId id : String} {task completed own : TaskInstance}
  {exit : Bool} {definition : WorkflowDef}

theorem CompletionEffect.answered (h : CompletionEffect before after id own exit)
    (hTask : IsAttempt before taskId id task)
    (hNames : own.taskDefId = task.taskDefId ∧ own.generationIndex = task.generationIndex) :
    AnsweredAttempts before after taskId id task own False := by
  refine ⟨⟨h.own, hNames.1.trans hTask.taskDefId⟩, hNames.2, fun key a hKey ha => ?_,
    fun key b hKey hb => .inl ?_, False.elim⟩
  · exact ⟨_, by rw [h.kept key hKey, ha.found]; rfl, .afterExit exit none⟩
  · have hFound := hb.found
    rw [h.kept key hKey] at hFound
    obtain ⟨a, ha, rfl⟩ := Option.map_eq_some_iff.mp hFound
    exact ⟨a, ha, .afterExit exit none⟩

/-- The attempts after a verdict on top of a completion. -/
theorem VerdictEffect.answered {verifierId : String} {change : TaskInstance → TaskInstance}
    {mark : String → Option TaskSatisfactionStatus} {created : String → Option TaskInstance → Prop}
    {state : VerifierGenerationState} {rerun : Prop}
    (h : VerdictEffect middle after id verifierId change mark created state)
    (hCompletion : CompletionEffect before middle id completed exit)
    (hTask : IsAttempt before taskId id task)
    (hNames : (change completed).taskDefId = task.taskDefId ∧
      (change completed).generationIndex = task.generationIndex)
    (hCreated : ∀ key b, created key (some b) → b.taskDefId = taskId →
      rerun ∧ b = .fresh taskId (task.generationIndex + 1))
    (hAdded : rerun → ∀ found, created (makeTaskAttemptId taskId (task.generationIndex + 1)) found →
      found = some (.fresh taskId (task.generationIndex + 1)))
    (hKeyed : ∀ key a, before.tasks.lookup key = some a →
      key = makeTaskAttemptId a.taskDefId a.generationIndex) :
    AnsweredAttempts before after taskId id task (change completed) rerun := by
  refine ⟨⟨?_, hNames.1.trans hTask.taskDefId⟩, hNames.2, fun key a hKey ha => ?_,
    fun key b hKey hb => ?_, fun hRerun => ?_⟩
  · rw [h.own, hCompletion.own]
    rfl
  · have hMiddle : middle.tasks.lookup key = some (a.afterExit exit) := by
      rw [hCompletion.kept key hKey, ha.found]
      rfl
    exact ⟨_, h.kept key _ hKey hMiddle, .afterExit exit (mark key)⟩
  · cases hOld : before.tasks.lookup key with
    | some a =>
        have hMiddle : middle.tasks.lookup key = some (a.afterExit exit) := by
          rw [hCompletion.kept key hKey, hOld]
          rfl
        have hFound := h.kept key _ hKey hMiddle
        rw [hb.found] at hFound
        cases hFound
        exact .inl ⟨a, rfl, .afterExit exit (mark key)⟩
    | none =>
        have hMiddle : middle.tasks.lookup key = none := by
          rw [hCompletion.kept key hKey, hOld]
          rfl
        have hNew := h.new key hMiddle
        rw [hb.found] at hNew
        exact .inr (hCreated key b hNew hb.taskDefId)
  · cases hOld : before.tasks.lookup (makeTaskAttemptId taskId (task.generationIndex + 1)) with
    | some a =>
        have hNamed := hKeyed _ a hOld
        exact .inl ⟨a, hOld, (makeTaskAttemptId_inj.mp hNamed).1.symm⟩
    | none =>
        have hKey : makeTaskAttemptId taskId (task.generationIndex + 1) ≠ id := by
          rintro rfl
          rw [hTask.found] at hOld
          cases hOld
        have hMiddle : middle.tasks.lookup (makeTaskAttemptId taskId (task.generationIndex + 1)) =
            none := by
          rw [hCompletion.kept _ hKey, hOld]
          rfl
        exact .inr ⟨hAdded hRerun _ (h.new _ hMiddle), rfl⟩

/-- A result of a verifier is an answer of its attempt. -/
theorem Outcome.verifierAnswer (hDef : WellFormedDef definition) {ext : Externals}
    {slice : List String}
    {loopSlices : LoopSlices} {taskDef : TaskDef} {inputs : ResolvedTaskInputs}
    {answer : Answer} {result : ResultCommit}
    (h : Outcome ext before after loopSlices id task taskDef inputs answer result)
    (hSlice : (taskId, slice) ∈ computeLoopSlices definition)
    (hSlices : loopSlices.Perm (computeLoopSlices definition))
    (hTask : IsAttempt before taskId id task) (hFound : definition.findTask taskId = some taskDef)
    (hKeyed : ∀ key a, before.tasks.lookup key = some a →
      key = makeTaskAttemptId a.taskDefId a.generationIndex) :
    VerifierAnswer definition before after taskId id task := by
  obtain ⟨_, hId⟩ := findTask_some hFound
  have hNothing (key : String) (b : TaskInstance) (hNew : NothingNew key (some b)) :
      b.taskDefId = taskId → False ∧ b = .fresh taskId (task.generationIndex + 1) := by
    cases hNew
  cases h with
  | stopped hEffect hStatus hAnswered _ _ hMetadata =>
      exact .stopped (hEffect.answered hTask ⟨hAnswered.taskDefId, hAnswered.generationIndex⟩)
        hStatus hMetadata (hEffect.verifierStates _)
  | plain hPlain =>
      obtain ⟨found, verifier, hSame, hVerifier, _⟩ := hDef.slice_verifier hSlice
      rw [hFound] at hSame
      cases hSame
      rw [hVerifier] at hPlain
      cases hPlain
  | judged hVerifier _ hDecided hState _ hCompletion hVerdict =>
      rw [hId] at hState hVerdict
      have hLookup := lookup_slice hDef hSlices hSlice
      rw [hLookup] at hVerdict
      cases hVerdict with
      | complete hDecision _ hEffect =>
          have hAfter := hEffect.state
          rw [hId] at hAfter
          exact .decided (hEffect.answered hCompletion hTask ⟨rfl, rfl⟩ hNothing False.elim hKeyed)
            hFound hVerifier hState hAfter (.complete rfl rfl rfl rfl rfl rfl rfl)
      | interrupted hDecision _ _ hEffect =>
          have hAfter := hEffect.state
          rw [hId] at hAfter
          exact .decided (hEffect.answered hCompletion hTask ⟨rfl, rfl⟩ hNothing False.elim hKeyed)
            hFound hVerifier hState hAfter (.interrupted rfl rfl rfl rfl rfl ⟨_, rfl, rfl⟩)
      | exhausted hDecision _ _ _ _ hEffect =>
          have hAfter := hEffect.state
          rw [hId] at hAfter
          exact .decided (hEffect.answered hCompletion hTask ⟨rfl, rfl⟩ hNothing False.elim hKeyed)
            hFound hVerifier hState hAfter (.exhausted rfl rfl rfl rfl rfl rfl ⟨_, rfl, rfl⟩)
      | failed _ _ _ _ hDecision hHistory hEffect =>
          have hAfter := hEffect.state
          rw [hId] at hAfter
          rcases hHistory with hBlank | ⟨_, hStatus, hHistory⟩
          · rw [verifierResultFromOutput_feedback hDecided hDecision.1] at hBlank
            cases hBlank
          · exact .decided (hEffect.answered hCompletion hTask ⟨rfl, rfl⟩ hNothing False.elim hKeyed)
              hFound hVerifier hState hAfter (.failed rfl rfl hDecision.2 hStatus ⟨_, rfl, hHistory⟩)
      | rerun hDecision _ _ hBelow hEffect =>
          have hAfter := hEffect.state
          rw [hId] at hAfter
          have hAttempts : AnsweredAttempts before after taskId id task _ True :=
            hEffect.answered hCompletion hTask ⟨rfl, rfl⟩ (fun key b hCreated hOf => ?_)
              (fun _ found hCreated => ?_) hKeyed
          · exact .decided hAttempts hFound hVerifier hState hAfter
              (.rerun rfl rfl rfl rfl hBelow rfl ⟨_, rfl, rfl⟩)
          · rcases hCreated with ⟨taskDefId, _, _, hFresh⟩ | ⟨_, hNone⟩
            · cases hFresh
              exact ⟨trivial, by rw [← hOf]; rfl⟩
            · cases hNone
          · rcases hCreated with ⟨taskDefId, _, hKey, hFresh⟩ | ⟨hNotMem, _⟩
            · obtain ⟨rfl, _⟩ := makeTaskAttemptId_inj.mp hKey
              exact hFresh
            · exact absurd (List.mem_map_of_mem (hDef.verifier_mem hSlice)) hNotMem

end WorkflowEngine

section Turns

variable {definition : WorkflowDef} {before after : WorkflowInstance} {verifierId id : String}
  {task : TaskInstance} {writer : Writer}

theorem continuationGeneration_of_lt {generation : Nat} (h : generation + 1 < 2 ^ 32) :
    continuationGeneration generation = generation + 1 := Nat.mod_eq_of_lt h

/-- The latest attempt that waits for input and has no successor is continued
by the next generation. -/
theorem ContinuedAttempts.of_lookup {submittedInput : Json}
    (hNext : continuationGeneration task.generationIndex = task.generationIndex + 1)
    (hNew : before.tasks.lookup (makeTaskAttemptId verifierId
      (continuationGeneration task.generationIndex)) = none)
    (hTasks : ∀ key, after.tasks.lookup key = if key = makeTaskAttemptId verifierId
        (continuationGeneration task.generationIndex)
      then some (continuationTask verifierId (continuationGeneration task.generationIndex)
        submittedInput)
      else before.tasks.lookup key) :
    ContinuedAttempts before after verifierId task submittedInput := by
  rw [hNext] at hNew hTasks
  refine ⟨⟨by rw [hTasks, if_pos rfl], rfl⟩, fun key a ha => ?_, fun key b hb => ?_⟩
  · rw [hTasks, if_neg, ha]
    rintro rfl
    rw [hNew] at ha
    cases ha
  · rw [hTasks] at hb
    split at hb
    · cases hb
      exact .inr rfl
    · exact .inl hb

theorem Decided.own_status {verifier : VerifierControlConfig} {own : TaskInstance}
    {state state' : VerifierGenerationState} {rerun : Prop}
    (h : Decided verifier task own state state' rerun) :
    own.status = .completed ∨ ¬rerun ∧ own.status = .failed := by
  cases h with
  | complete hOwn | interrupted hOwn | exhausted hOwn | rerun hOwn => exact .inl hOwn
  | failed hOwn => exact .inr ⟨not_false, hOwn⟩

/-- An attempt that waits for input and has no successor is the latest. -/
theorem SingleFile.latest_of_new (h : SingleFile before verifierId) (hKeyed : Keyed before)
    (hTask : IsAttempt before verifierId id task) (hWaiting : task.status.isInputNeeded = true)
    (hNew : before.tasks.lookup (makeTaskAttemptId verifierId (task.generationIndex + 1)) = none) :
    IsLatest before verifierId task.generationIndex := by
  rcases h.waiting id task hTask hWaiting with hLatest | ⟨key, next, hFound, hSucc⟩
  · exact hLatest
  · have hName := hKeyed key next hFound.found
    rw [hFound.taskDefId, hSucc] at hName
    rw [← hName, hFound.found] at hNew
    cases hNew

/-- An attempt of the last generation waits for input: a continuation starts
again at zero. -/
def WaitsAtLimit (workflow : WorkflowInstance) (taskId : String) : Prop :=
  ∃ id task, IsAttempt workflow taskId id task ∧ task.status.isInputNeeded = true ∧
    2 ^ 32 ≤ task.generationIndex + 1

/-- Every commit keeps the attempts of a verifier in single file, unless it may
continue the last generation. -/
theorem SingleFile.seenBy (hDef : WellFormedDef definition) {slice : List String}
    (hSlice : (verifierId, slice) ∈ computeLoopSlices definition)
    (h : SingleFile before verifierId) (hKeyed : Keyed before)
    (hSeen : SeenBy definition before after verifierId writer) :
    SingleFile after verifierId ∨ WaitsAtLimit before verifierId := by
  cases hSeen with
  | unanswered hAttempts _ => exact .inl (h.of_unanswered hAttempts)
  | initialized _ hAttempts _ =>
      refine .inl ⟨fun id task hTask _ key b hb => ?_, fun id task hTask hWaiting => ?_⟩
      · rw [(hAttempts id task hTask).1, (hAttempts key b hb).1]
      · rw [(hAttempts id task hTask).2.1] at hWaiting
        cases hWaiting
  | started hTasks _ _ _ _ => exact .inl (h.of_unanswered (.of_same hTasks))
  | retried _ hTask hFailed hTasks _ => exact .inl (h.of_retried hTask hFailed hTasks)
  | @continued id task submittedInput _ hTask hWaiting hNew hTasks _ =>
      by_cases hLimit : task.generationIndex + 1 < 2 ^ 32
      · have hNext := continuationGeneration_of_lt hLimit
        have hLatest := h.latest_of_new hKeyed hTask hWaiting (hNext ▸ hNew)
        exact .inl (h.of_continued hKeyed (.of_lookup hNext hNew hTasks) hTask hLatest hWaiting)
      · exact .inr ⟨id, task, hTask, hWaiting, Nat.not_lt.mp hLimit⟩
  | answered hTask hRunning hFound hSlices hOutcome =>
      left
      cases hOutcome.verifierAnswer hDef hSlice hSlices hTask hFound hKeyed with
      | stopped hAttempts _ _ _ =>
          exact h.of_answered hKeyed hAttempts hTask hRunning fun _ => not_false
      | decided hAttempts _ _ _ _ hDecided =>
          refine h.of_answered hKeyed hAttempts hTask hRunning fun hOpen => ?_
          rcases hDecided.own_status with hOwn | ⟨hNo, _⟩
          · rw [hOwn] at hOpen
            simp [TaskStatus.isOpen, TaskStatus.isInputNeeded] at hOpen
          · exact hNo

/-- Every state is of a verifier. -/
def OfVerifiers (definition : WorkflowDef) (workflow : WorkflowInstance) : Prop :=
  ∀ verifierId state, workflow.verifierStates.lookup verifierId = some state →
    ∃ slice, (verifierId, slice) ∈ computeLoopSlices definition

theorem WriteEffect.ofVerifiers {l : Lifecycle} {reduced : WorkflowInstance}
    (h : WriteEffect definition l reduced writer) (hOld : OfVerifiers definition l.stored) :
    OfVerifiers definition reduced := by
  have hSame (hStates : SameStates l.stored reduced) : OfVerifiers definition reduced :=
    fun verifierId state hFound => hOld verifierId state ((hStates verifierId).symm.trans hFound)
  intro verifierId state hFound
  cases h with
  | status _ _ hStates | initialTasks _ _ _ hStates | start _ _ _ _ hStates
  | humanInput _ _ _ _ hStates | retry _ _ _ hStates | recover _ hStates =>
      exact hSame hStates verifierId state hFound
  | initialGenerations _ hSlices hAfter =>
      cases hBefore : l.stored.verifierStates.lookup verifierId with
      | some before => exact hOld verifierId before hBefore
      | none =>
          obtain ⟨slice, _, hMem, _⟩ := hAfter.started _ _ hBefore hFound
          exact ⟨slice, hSlices.mem_iff.mp hMem⟩
  | @result ext loopSlices started answer result _ hTask hDef _ _ hOutcome =>
      obtain ⟨exit, hFrame⟩ := hOutcome.frame hTask
      by_cases hOther : verifierId ≠ started.taskDef.id ∨ taskVerifier started.taskDef = none
      · rw [hFrame.states verifierId hOther] at hFound
        exact hOld verifierId state hFound
      · rw [not_or, not_not] at hOther
        rw [hOther.1]
        exact verifier_slice hDef (Option.isSome_iff_ne_none.mpr hOther.2)

end Turns

end RelayFold
