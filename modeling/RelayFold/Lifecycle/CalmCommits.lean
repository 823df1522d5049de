import RelayFold.Lifecycle.AnsweredRuns

/-! Commits in workflows where nobody exits early and nobody asks for input:
those that record no answer, and what an answer does. -/
namespace RelayFold

open WorkflowEngine WorkflowStateManager FallibleFold

/-- The attempt has no human input and asks for none, and it neither exits nor
is skipped. -/
structure CalmTask (task : TaskInstance) : Prop where
  input : task.humanInput = none
  asks : task.status.isInputNeeded = false
  exits : task.earlyExit = false
  skipped : task.status ≠ .skipped

def Calm (workflow : WorkflowInstance) : Prop :=
  ∀ id task, workflow.tasks.lookup id = some task → CalmTask task

/-- No task may exit early. -/
def ExitFree (definition : WorkflowDef) : Prop :=
  ∀ taskDef ∈ definition.tasks, taskDef.allowsEarlyExit = false

/-- In a calm instance no slice is interrupted, since nobody has exited
early. -/
theorem Calm.interrupted {workflow : WorkflowInstance} (h : Calm workflow) (slice : List String) :
    sliceInterruptedByExit workflow slice = false := by
  rw [Bool.eq_false_iff]
  intro hExit
  obtain ⟨id, task, hTask, hBoth⟩ := (FiniteMap.anyValue_iff ..).mp hExit
  simp [(h id task hTask).exits, (h id task hTask).skipped] at hBoth

theorem Calm.withoutInput {workflow : WorkflowInstance} (h : Calm workflow) (slice : List String) :
    WithoutInput workflow slice :=
  fun id task hTask _ => (h id task hTask).input

/-- What becomes of an attempt when no answer is recorded. -/
inductive UnrecordedTask (a : TaskInstance) : TaskInstance → Prop
  | same : UnrecordedTask a a
  | started (hPending : a.status = .pending) : UnrecordedTask a { a with status := .running }
  | retried (hFailed : a.status = .failed) : UnrecordedTask a a.resetForRetry
  | recovered (hRunning : a.status = .running) : UnrecordedTask a { a with status := .pending }

/-- A commit that records no answer. -/
structure Unrecorded (definition : WorkflowDef) (before after : WorkflowInstance) : Prop where
  trigger : after.triggerInput = before.triggerInput
  kept : ∀ key a, before.tasks.lookup key = some a →
    ∃ b, after.tasks.lookup key = some b ∧ UnrecordedTask a b
  new : ∀ key b, before.tasks.lookup key = none → after.tasks.lookup key = some b →
    ∃ taskDef ∈ definition.tasks, key = makeTaskAttemptId taskDef.id 1 ∧
      b = initialTask before definition taskDef
  states : ∀ verifierId state, after.verifierStates.lookup verifierId = some state →
    before.verifierStates.lookup verifierId = some state ∨
      before.verifierStates.lookup verifierId = none ∧ ∃ taskDef verifier,
        definition.findTask verifierId = some taskDef ∧ taskVerifier taskDef = some verifier ∧
        state = initialVerifierState verifierId (verifierRerunStartTaskId verifier verifierId)

/-- What a verifier attempt records with a decision, when no early exit
interrupts its slice and the budget is not exceeded. -/
def verdictMetadata (verifier : VerifierControlConfig) (generation : Nat)
    (decided : VerifierExecutionResult) : VerifierAttemptMetadata :=
  match decided.decision with
  | .complete =>
      { status := .accepted, decision := some .complete, feedback := decided.feedback,
        verifierOutput := some decided.output, exitReason := some "complete" }
  | .continue =>
      if generation < verifier.maxIterations.toNat then
        rejection .rejected (decided.feedback.getD "") decided.output none
      else rejection .exhaustedAccepted (decided.feedback.getD "") decided.output
        (some "max_iterations_exhausted")

/-- The state of the verifier after such a decision. -/
def verdictState (verifier : VerifierControlConfig) (generation : Nat)
    (decided : VerifierExecutionResult) (state : VerifierGenerationState) :
    VerifierGenerationState :=
  match decided.decision with
  | .complete =>
      { state with
        status := .accepted, selectedGeneration := some generation, exitReason := some "complete" }
  | .continue =>
      let recorded := withFeedback state generation (decided.feedback.getD "") decided.output
      if generation < verifier.maxIterations.toNat then
        { recorded with
          latestGeneration := generation + 1, status := .running, selectedGeneration := none,
          exitReason := none }
      else
        { recorded with
          status := .exhaustedAccepted, selectedGeneration := some generation,
          exitReason := some "max_iterations_exhausted" }

section Functions

variable {verifier : VerifierControlConfig} {generation : Nat} {decided : VerifierExecutionResult}
  {state : VerifierGenerationState}

theorem verdictMetadata_complete (h : decided.decision = .complete) :
    verdictMetadata verifier generation decided =
      { status := .accepted, decision := some .complete, feedback := decided.feedback,
        verifierOutput := some decided.output, exitReason := some "complete" } := by
  unfold verdictMetadata
  rw [h]

/-- What a continue decision records there while iterations are left. -/
theorem verdictMetadata_rerun (h : decided.decision = .continue)
    (hBelow : generation < verifier.maxIterations.toNat) :
    verdictMetadata verifier generation decided =
      rejection .rejected (decided.feedback.getD "") decided.output none := by
  unfold verdictMetadata
  rw [h]
  exact if_pos hBelow

/-- What it records when there are none left and the configuration accepts the
last generation. -/
theorem verdictMetadata_exhausted (h : decided.decision = .continue)
    (hLimit : verifier.maxIterations.toNat ≤ generation) :
    verdictMetadata verifier generation decided =
      rejection .exhaustedAccepted (decided.feedback.getD "") decided.output
        (some "max_iterations_exhausted") := by
  unfold verdictMetadata
  rw [h]
  exact if_neg (Nat.not_lt.mpr hLimit)

/-- After an acceptance the state has the accepted generation selected. -/
theorem verdictState_complete (h : decided.decision = .complete) :
    verdictState verifier generation decided state =
      { state with
        status := .accepted, selectedGeneration := some generation,
        exitReason := some "complete" } := by
  unfold verdictState
  rw [h]

/-- After a rerun the state has the feedback in its history and the next
generation as the latest. -/
theorem verdictState_rerun (h : decided.decision = .continue)
    (hBelow : generation < verifier.maxIterations.toNat) :
    verdictState verifier generation decided state =
      { withFeedback state generation (decided.feedback.getD "") decided.output with
        latestGeneration := generation + 1, status := .running, selectedGeneration := none,
        exitReason := none } := by
  unfold verdictState
  rw [h]
  exact if_pos hBelow

/-- After the last iteration the state is exhausted, with the feedback recorded
and the last generation selected. -/
theorem verdictState_exhausted (h : decided.decision = .continue)
    (hLimit : verifier.maxIterations.toNat ≤ generation) :
    verdictState verifier generation decided state =
      { withFeedback state generation (decided.feedback.getD "") decided.output with
        status := .exhaustedAccepted, selectedGeneration := some generation,
        exitReason := some "max_iterations_exhausted" } := by
  unfold verdictState
  rw [h]
  exact if_neg (Nat.not_lt.mpr hLimit)

end Functions

/-- What a decision does to the attempts, by what it records. -/
inductive CalmVerdict (before after : WorkflowInstance) (slice : List String) (id : String)
    (generation : Nat) (completed : TaskInstance) (metadata : VerifierAttemptMetadata) : Prop
  | accepted (hStatus : metadata.status ≠ .rejected)
      (hEffect : DecisionEffect before after id
        (judged metadata (sliceMark slice generation .satisfied id) completed) false
        (sliceMark slice generation .satisfied) NothingNew)
  | rejected (hStatus : metadata.status = .rejected)
      (hEffect : DecisionEffect before after id
        (judged metadata (sliceMark slice generation .unsatisfied id) completed) false
        (sliceMark slice generation .unsatisfied) (FreshAt slice (generation + 1)))

/-- The verifier has failed with its verdict. -/
def VerifierGenerationState.IsLost (state : VerifierGenerationState) : Prop :=
  state.status = .failed ∨ state.status = .exhaustedFailed

/-- The outcomes of an answer where nobody exits and nobody asks. -/
inductive CalmOutcome (ext : Externals) (before after : WorkflowInstance) (loopSlices : LoopSlices)
    (id : String) (task : TaskInstance) (taskDef : TaskDef) (inputs : ResolvedTaskInputs)
    (answer : Answer) : Prop
  | failed {own : TaskInstance} {mark : String → Option TaskSatisfactionStatus}
      (hEffect : DecisionEffect before after id own false mark NothingNew)
      (hMark : ∀ key, mark key = none ∨ mark key = some .unsatisfied)
      (hStatus : own.status = .failed) (hAnswered : Answered task own inputs)
      (hExit : own.earlyExit = task.earlyExit)
      (hStates : ∀ verifierId state, after.verifierStates.lookup verifierId = some state →
        before.verifierStates.lookup verifierId = some state ∨ state.IsLost)
  | plain {schema : Option JsonSchema} {output : Json} (hPlain : taskVerifier taskDef = none)
      (hEffect : DecisionEffect before after id
        (completedTask loopSlices taskDef inputs schema output false task) false (fun _ => none)
        NothingNew)
      (hStates : SameStates before after) (hAnswer : ValidAnswer ext taskDef schema answer output)
  | judged {schema : Option JsonSchema} {output : Json} {verifier : VerifierControlConfig}
      {decided : VerifierExecutionResult} {state : VerifierGenerationState}
      (hVerifier : taskVerifier taskDef = some verifier)
      (hDecided : verifierResultFromOutput output = .ok decided)
      (hVerdict : CalmVerdict before after ((loopSlices.lookup taskDef.id).getD [taskDef.id]) id
        task.generationIndex (completedTask loopSlices taskDef inputs schema output false task)
        (verdictMetadata verifier task.generationIndex decided))
      (hBefore : before.verifierStates.lookup taskDef.id = some state)
      (hAfter : after.verifierStates.lookup taskDef.id =
        some (verdictState verifier task.generationIndex decided state))
      (hOthers : ∀ other, other ≠ taskDef.id →
        after.verifierStates.lookup other = before.verifierStates.lookup other)
      (hAnswer : ValidAnswer ext taskDef schema answer output)

/-- A commit in a calm workflow: nothing is answered, or an attempt is. -/
inductive CalmCommit (answers : Answers) (ext : Externals) (definition : WorkflowDef)
    (before after : WorkflowInstance) : Prop
  | unrecorded (h : Unrecorded definition before after)
  | answered {loopSlices : LoopSlices} {id : String} {task : TaskInstance} {taskDef : TaskDef}
      {inputs : ResolvedTaskInputs} {answer : Answer}
      (hTrigger : after.triggerInput = before.triggerInput)
      (hSlices : loopSlices.Perm (computeLoopSlices definition))
      (hTask : before.tasks.lookup id = some task)
      (hFound : definition.findTask task.taskDefId = some taskDef)
      (hRunning : task.status = .running)
      (hInputs : inputs =
        (resolveInputs before definition task taskDef loopSlices).getD ⟨[], []⟩)
      (hGives : answers.Gives task.taskDefId task.generationIndex inputs.values
        (loopExecutionContext before definition task) answer)
      (hOutcome : CalmOutcome ext before after loopSlices id task taskDef inputs answer)

section Outcome

variable {ext : Externals} {definition : WorkflowDef} {before after : WorkflowInstance}
  {loopSlices : LoopSlices} {id : String} {task : TaskInstance} {taskDef : TaskDef}
  {inputs : ResolvedTaskInputs} {answer : Answer} {result : ResultCommit}

/-- The completion of an attempt without an early exit leaves the instance
calm. -/
theorem Calm.completed (h : Calm before) {middle : WorkflowInstance} {own : TaskInstance}
    (hOwn : CalmTask own) (hEffect : CompletionEffect before middle id own false) : Calm middle := by
  intro key b hb
  by_cases hKey : key = id
  · rw [hKey, hEffect.own] at hb
    cases hb
    exact hOwn
  · rw [hEffect.kept key hKey] at hb
    obtain ⟨a, ha, rfl⟩ := Option.map_eq_some_iff.mp hb
    rw [TaskInstance.afterExit_false]
    exact h key a ha

theorem CalmTask.completedTask (h : CalmTask task) {schema : Option JsonSchema} {output : Json} :
    CalmTask (completedTask loopSlices taskDef inputs schema output false task) :=
  ⟨h.input, rfl, h.exits, fun hSkipped => by cases hSkipped⟩

/-- A verdict in a calm workflow. -/
theorem WorkflowEngine.Verdict.calmOutcome {middle : WorkflowInstance} {schema : Option JsonSchema}
    {output : Json} {verifier : VerifierControlConfig} {decided : VerifierExecutionResult}
    {state : VerifierGenerationState} {message : Option String}
    (h : Verdict middle after taskDef verifier
      ((loopSlices.lookup taskDef.id).getD [taskDef.id]) id task.generationIndex state decided message)
    (hCalm : Calm before) (hTask : before.tasks.lookup id = some task)
    (hVerifier : taskVerifier taskDef = some verifier)
    (hDecided : verifierResultFromOutput output = .ok decided)
    (hState : before.verifierStates.lookup taskDef.id = some state)
    (hCompletion : CompletionEffect before middle id
      (completedTask loopSlices taskDef inputs schema output false task) false)
    (hAnswer : ValidAnswer ext taskDef schema answer output) :
    CalmOutcome ext before after loopSlices id task taskDef inputs answer := by
  have hOthers {own : TaskInstance → TaskInstance} {mark : String → Option TaskSatisfactionStatus}
      {created : String → Option TaskInstance → Prop} {state' : VerifierGenerationState}
      (hEffect : VerdictEffect middle after id taskDef.id own mark created state') (other : String)
      (hOther : other ≠ taskDef.id) :
      after.verifierStates.lookup other = before.verifierStates.lookup other :=
    (hEffect.states other hOther).trans (hCompletion.verifierStates other)
  cases h with
  | complete hDecision _ hEffect =>
      refine .judged hVerifier hDecided ?_ hState (verdictState_complete hDecision ▸ hEffect.state)
        (hOthers hEffect) hAnswer
      rw [verdictMetadata_complete hDecision]
      refine .accepted ?_ (hEffect.decision hCompletion hTask)
      intro hFalse
      cases hFalse
  | interrupted _ _ hInterrupted _ =>
      rw [(hCalm.completed (hCalm id task hTask).completedTask hCompletion).interrupted] at hInterrupted
      cases hInterrupted
  | rerun hDecision _ _ hBelow hEffect =>
      refine .judged hVerifier hDecided ?_ hState
        (verdictState_rerun hDecision hBelow ▸ hEffect.state) (hOthers hEffect) hAnswer
      rw [verdictMetadata_rerun hDecision hBelow]
      exact .rejected rfl (hEffect.decision hCompletion hTask)
  | exhausted hDecision _ _ hLimit _ hEffect =>
      refine .judged hVerifier hDecided ?_ hState
        (verdictState_exhausted hDecision hLimit ▸ hEffect.state) (hOthers hEffect) hAnswer
      rw [verdictMetadata_exhausted hDecision hLimit]
      refine .accepted ?_ (hEffect.decision hCompletion hTask)
      intro hFalse
      cases hFalse
  | failed _ hMark _ _ hDecision hHistory hEffect =>
      refine .failed (hEffect.decision hCompletion hTask) hMark rfl
        ⟨rfl, rfl, rfl, rfl, rfl, fun _ => .inl rfl⟩ rfl fun verifierId found hFound => ?_
      by_cases hOther : verifierId = taskDef.id
      · rw [hOther, hEffect.state] at hFound
        cases hFound
        rcases hHistory with hBlank | ⟨_, hStatus, _⟩
        · rw [verifierResultFromOutput_feedback hDecided hDecision.1] at hBlank
          cases hBlank
        · exact .inr hStatus
      · exact .inl (hOthers hEffect verifierId hOther ▸ hFound)

/-- An attempt that ends without a valid output fails. -/
theorem CalmOutcome.of_completion {own : TaskInstance}
    (hEffect : CompletionEffect before after id own false)
    (hTask : before.tasks.lookup id = some task) (hStatus : own.status = .failed)
    (hAnswered : Answered task own inputs) (hExit : own.earlyExit = task.earlyExit) :
    CalmOutcome ext before after loopSlices id task taskDef inputs answer :=
  .failed (hEffect.decision hTask) (fun _ => .inl rfl) hStatus hAnswered hExit
    fun verifierId _ hState => .inl (hEffect.verifierStates verifierId ▸ hState)

/-- A result of a task that may not exit, and that does not ask. -/
theorem WorkflowEngine.Recorded.calmOutcome (hExits : taskDef.allowsEarlyExit = false)
    (hAsks : ∀ inputRequest, answer ≠ .ok (.inputNeeded inputRequest))
    (h : Recorded ext before definition loopSlices id taskDef inputs answer result)
    (hCalm : Calm before) (hTask : before.tasks.lookup id = some task)
    (hRunning : task.status = .running) (hFound : definition.findTask task.taskDefId = some taskDef)
    (hReduce : reduceWorkflowInstanceEvents (some before) result.events = .ok after) :
    CalmOutcome ext before after loopSlices id task taskDef inputs answer := by
  have hStart := CompletionEffect.refl hTask
  have hNoExit {output : Json} {exit : Option String} (hExit : exitReason taskDef output = .ok exit) :
      exit = none := by
    unfold exitReason at hExit
    rw [hExits, if_neg Bool.false_ne_true] at hExit
    cases hExit
    rfl
  cases h with
  | inputNeeded inputRequest => exact absurd rfl (hAsks inputRequest)
  | failure _ | badOutput _ _ =>
      exact .of_completion (hStart.andThen (inputEvents_own.append failTaskEvents_own) hReduce) hTask
        rfl ⟨rfl, rfl, rfl, rfl, rfl, fun _ => .inl rfl⟩ rfl
  | dispatchError _ =>
      exact .of_completion (hStart.andThen (inputEvents_own.append (statusEvents_own _ _)) hReduce)
        hTask rfl ⟨rfl, rfl, rfl, rfl, rfl, fun _ => .inl rfl⟩ rfl
  | badExit _ _ hExit =>
      unfold exitReason at hExit
      rw [hExits, if_neg Bool.false_ne_true] at hExit
      cases hExit
  | completed hSchema hOk hExit hResult =>
      obtain rfl := hNoExit hExit
      cases hResult with
      | plain hPlain =>
          have hEffect := completion_effect hTask hRunning hReduce
          exact .plain hPlain (hEffect.decision hTask) hEffect.verifierStates ⟨rfl, hSchema, hOk⟩
      | invalid _ _ =>
          obtain ⟨middle, hFirst, hRest⟩ := foldlM_append_ok.mp hReduce
          exact .of_completion ((completion_effect hTask hRunning hFirst).andThen
            (invalidVerifierEvents_own _ _) hRest) hTask rfl
            ⟨rfl, rfl, rfl, rfl, rfl, fun _ => .inl rfl⟩ rfl
      | decided hVerifier hDecision hMiddle hTransition =>
          obtain ⟨state, hState, hCompletion, hVerdict⟩ := decided_verdict hTask hRunning hFound
            (findTask_some hFound).2.symm hVerifier hDecision hMiddle hTransition hReduce
          exact hVerdict.calmOutcome hCalm hTask hVerifier hDecision hState hCompletion
            ⟨rfl, hSchema, hOk⟩

end Outcome

section Unrecorded

variable {definition : WorkflowDef} {before after : WorkflowInstance}

/-- A commit that changes some attempts, each as it may when no answer is
recorded. -/
theorem Unrecorded.of_tasks (hTrigger : after.triggerInput = before.triggerInput)
    (hStates : SameStates before after)
    (hKept : ∀ key a, before.tasks.lookup key = some a →
      ∃ b, after.tasks.lookup key = some b ∧ UnrecordedTask a b)
    (hNone : ∀ key, before.tasks.lookup key = none → after.tasks.lookup key = none) :
    Unrecorded definition before after := by
  refine ⟨hTrigger, hKept, fun key b hKey hb => ?_, fun verifierId state h => ?_⟩
  · rw [hNone key hKey] at hb
    cases hb
  · exact .inl (hStates verifierId ▸ h)

/-- A write that changes neither attempts nor states records nothing. -/
theorem Unrecorded.of_same (hTrigger : after.triggerInput = before.triggerInput)
    (hStates : SameStates before after) (hTasks : after.tasks = before.tasks) :
    Unrecorded definition before after :=
  .of_tasks hTrigger hStates (fun _ a ha => ⟨a, hTasks ▸ ha, .same⟩)
    fun _ hNone => hTasks ▸ hNone

/-- A commit that changes one attempt. -/
theorem Unrecorded.of_one (hTrigger : after.triggerInput = before.triggerInput)
    (hStates : SameStates before after) {id : String} {task own : TaskInstance}
    (hTask : before.tasks.lookup id = some task) (hOwn : UnrecordedTask task own)
    (hTasks : ∀ key, after.tasks.lookup key =
      if key = id then some own else before.tasks.lookup key) :
    Unrecorded definition before after := by
  refine .of_tasks hTrigger hStates (fun key a ha => ?_) fun key hNone => ?_
  · rw [hTasks]
    split
    · rename_i hKey
      rw [hKey, hTask] at ha
      cases ha
      exact ⟨own, rfl, hOwn⟩
    · exact ⟨a, ha, .same⟩
  · rw [hTasks]
    split
    · rename_i hKey
      rw [hKey, hTask] at hNone
      cases hNone
    · exact hNone

/-- A recovery records nothing either: it takes a running attempt back to
pending, and that is all. -/
theorem TaskInstance.recovered_unrecorded (task : TaskInstance) :
    UnrecordedTask task task.recovered := by
  unfold TaskInstance.recovered
  split
  · rename_i hRunning
    exact .recovered hRunning
  · exact .same

/-- Whoever commits beside the passes records no answer where nobody waits for
input. -/
theorem WriteEffect.unrecorded {l : Lifecycle} {writer : Writer}
    (h : WriteEffect definition l after writer) (hWriter : writer ≠ .pass) (hCalm : Calm l.stored)
    (hTrigger : after.triggerInput = l.stored.triggerInput) :
    Unrecorded definition l.stored after := by
  cases h with
  | status _ hTasks hStates => exact .of_same hTrigger hStates hTasks
  | initialTasks | initialGenerations | start | result => exact absurd rfl hWriter
  | humanInput hTask hWaiting _ _ _ =>
      rw [(hCalm _ _ hTask).asks] at hWaiting
      cases hWaiting
  | retry hTask hFailed hTasks hStates =>
      exact .of_one hTrigger hStates hTask (.retried hFailed) hTasks
  | recover hTasks hStates =>
      refine .of_tasks hTrigger hStates (fun key a ha => ?_) fun key hNone => ?_
      · rw [hTasks, ha]
        split
        · exact ⟨_, rfl, a.recovered_unrecorded⟩
        · exact ⟨a, rfl, .same⟩
      · rw [hTasks, hNone]
        split <;> rfl

/-- The start of an eligible slice is the rerun start of its verifier. -/
theorem eligibleStart_some {loopSlices : LoopSlices} {verifierId start : String}
    {slice : List String}
    (h : eligibleStart before definition loopSlices verifierId slice = some start) :
    ∃ taskDef verifier, definition.findTask verifierId = some taskDef ∧
      taskVerifier taskDef = some verifier ∧ start = verifierRerunStartTaskId verifier verifierId := by
  unfold eligibleStart at h
  split at h
  · cases h
  · obtain ⟨taskDef, hFound, h⟩ := Option.bind_eq_some_iff.mp h
    obtain ⟨verifier, hVerifier, h⟩ := Option.bind_eq_some_iff.mp h
    obtain ⟨_, _, h⟩ := Option.bind_eq_some_iff.mp h
    split at h
    · cases h
      exact ⟨taskDef, verifier, hFound, hVerifier, rfl⟩
    · cases h

/-- Materializing the first generations records no result. -/
theorem GenerationsAfter.unrecorded {loopSlices : LoopSlices}
    (h : GenerationsAfter definition loopSlices before after)
    (hTrigger : after.triggerInput = before.triggerInput) : Unrecorded definition before after := by
  refine ⟨hTrigger, fun key a ha => ⟨a, by rw [h.tasks, ha], .same⟩, fun key b hNone hb => ?_,
    fun verifierId state hState => ?_⟩
  · rw [h.tasks, hNone] at hb
    cases hb
  · cases hOld : before.verifierStates.lookup verifierId with
    | some old =>
        rw [h.kept _ _ hOld] at hState
        exact .inl hState
    | none =>
        obtain ⟨slice, start, _, hStart, rfl⟩ := h.started _ _ hOld hState
        obtain ⟨taskDef, verifier, hFound, hVerifier, rfl⟩ := eligibleStart_some hStart
        exact .inr ⟨rfl, taskDef, verifier, hFound, hVerifier, rfl⟩

end Unrecorded

section Step

variable {env : EngineEnv} {answers : Answers} {definition : WorkflowDef} {s s' : System}
  {l : Lifecycle}

/-- The snapshots after a step of a calm workflow. -/
inductive CalmCommits (answers : Answers) (env : EngineEnv) (definition : WorkflowDef) (s : System)
    (action : Action) (s' : System) : Prop
  | same (hStored : s'.stored = s.stored)
  | committed {events : List WorkflowInstanceEvent} {reduced : WorkflowInstance}
      {plan rest : List String}
      (hReduce : reduceWorkflowInstanceEvents (some s.stored) events = .ok reduced)
      (hStored : s'.stored = reduced.withVersion (s.stored.version + events.length))
      (hWrite : Write env.ext definition ⟨s.stored, plan⟩ action.writer events rest)
      (hCalm : CalmCommit answers env.ext definition s.stored reduced)

/-- A recorded answer, in terms of what the function of the answers gives. -/
theorem WorkflowEngine.Recorded.calmCommit {workflow reduced : WorkflowInstance}
    {loopSlices : LoopSlices} {started : StartedTask} {answer : Answer} {result : ResultCommit}
    (h : Recorded env.ext workflow definition loopSlices started.taskAttemptId started.taskDef
      started.inputs answer result) (hExits : ExitFree definition)
    (hSlices : loopSlices.Perm (computeLoopSlices definition))
    (hStarted : startedTask workflow definition loopSlices started.taskAttemptId = some started)
    (hRunning : started.task.status = .running)
    (hGives : answers.GivesTask definition workflow started answer) (hCalm : Calm workflow)
    (hReduce : reduceWorkflowInstanceEvents (some workflow) result.events = .ok reduced) :
    CalmCommit answers env.ext definition workflow reduced := by
  obtain ⟨_, hTask, hFound, hInputs⟩ := startedTask_eq hStarted
  refine .answered (reduceWorkflowInstanceEvents_identity hReduce).triggerInput hSlices hTask hFound
    hRunning hInputs hGives ?_
  refine h.calmOutcome (hExits _ (findTask_some hFound).1) ?_ hCalm hTask hRunning hFound hReduce
  rintro inputRequest rfl
  exact hGives

/-- The commit of a pass in a calm workflow. -/
theorem ActiveInv.calmCommit {plan : List String} {pass : ActivePass}
    (hRefines : Refines env definition s l) (hInv : ActiveInv env.ext definition plan s pass)
    (hCalm : Calm s.stored) (hExits : ExitFree definition)
    (hFollows : pass.Follows answers definition) {state : PassState} {updated : WorkflowInstance}
    (hStep : pass.step env s.stored = (state, some updated)) :
    ∃ events reduced rest, reduceWorkflowInstanceEvents (some s.stored) events = .ok reduced ∧
      updated = reduced.withVersion (s.stored.version + events.length) ∧
      Write env.ext definition ⟨s.stored, plan⟩ .pass events rest ∧
      CalmCommit answers env.ext definition s.stored reduced := by
  have hPoint := hInv.point
  have hCommitted {events : List WorkflowInstanceEvent} {next : WorkflowInstance → PassState}
      (hBatch : pass.batch = some (pass.workflow, events))
      (hCommit : ActivePass.commit s.stored pass.workflow events next = (state, some updated))
      (hAfter : pass.workflow = s.stored → ∀ reduced,
        reduceWorkflowInstanceEvents (some s.stored) events = .ok reduced →
        reduced.triggerInput = s.stored.triggerInput →
        CalmCommit answers env.ext definition s.stored reduced) :
      ∃ events reduced rest, reduceWorkflowInstanceEvents (some s.stored) events = .ok reduced ∧
        updated = reduced.withVersion (s.stored.version + events.length) ∧
        Write env.ext definition ⟨s.stored, plan⟩ .pass events rest ∧
        CalmCommit answers env.ext definition s.stored reduced := by
    obtain ⟨hBase, reduced, hReduce, hUpdated⟩ := hRefines.history.commit_some hInv.held hCommit
    exact ⟨events, reduced, _, hReduce, hUpdated, hInv.allowed hBatch hBase,
      hAfter hBase reduced hReduce (reduceWorkflowInstanceEvents_identity hReduce).triggerInput⟩
  unfold ActivePass.step at hStep
  unfold PointInv at hPoint
  unfold ActivePass.Follows at hFollows
  unfold ActivePass.batch at hCommitted
  cases hCase : pass.point with
  | commitRunning | commitPauseCompleted | commitCompleted =>
      simp only [hCase] at hStep hCommitted
      refine hCommitted rfl hStep fun _ reduced hReduce _ => ?_
      cases reduce_single hReduce
      exact .unrecorded (.of_same rfl (fun _ => rfl) rfl)
  | commitInitialTasks =>
      simp only [hCase, hInv.loaded] at hStep hPoint hCommitted
      obtain ⟨_, _, hEmpty⟩ := hPoint
      refine hCommitted rfl hStep fun hBase reduced hReduce hTrigger => ?_
      rw [hBase] at hEmpty hReduce
      have hNone := (FiniteMap.isEmpty_iff _).mp hEmpty
      have hStates : SameStates s.stored reduced := sameStates_of_events hReduce
        (by simp [initialTaskEvents, WorkflowInstanceEvent.verifierEffect])
      refine .unrecorded ⟨hTrigger, fun key a ha => ?_, fun key b _ hb => ?_,
        fun verifierId state hState => .inl (hStates verifierId ▸ hState)⟩
      · rw [hNone] at ha
        cases ha
      · exact initialTaskEvents_lookup hReduce (hNone key) hb
  | commitGenerations events =>
      simp only [hCase] at hStep hPoint hCommitted
      obtain ⟨_, _, hTasks, rfl⟩ := hPoint
      refine hCommitted rfl hStep fun hBase reduced hReduce hTrigger => ?_
      rw [hBase] at hTasks hReduce
      exact .unrecorded ((initialGenerations_after hTasks hInv.slices hReduce).unrecorded hTrigger)
  | commitStart id rest =>
      simp only [hCase] at hStep hPoint hCommitted
      obtain ⟨_, _, _, _, task, hTask, hPending⟩ := hPoint
      refine hCommitted rfl hStep fun hBase reduced hReduce hTrigger => ?_
      rw [hBase] at hTask
      refine .unrecorded (.of_one hTrigger
        (sameStates_of_events hReduce (List.forall_mem_singleton.mpr fun _ _ => rfl)) hTask
        (.started hPending) fun key => ?_)
      rw [taskMut_lookup (reduce_single hReduce) key]
      split
      · rename_i hKey
        rw [hKey, hTask]
        rfl
      · rfl
  | commitInputFailure started error =>
      simp only [hCase] at hStep hPoint hCommitted
      obtain ⟨_, _, hStarted, _⟩ := hPoint
      refine hCommitted rfl hStep fun hBase reduced hReduce _ => ?_
      -- A failed input check is recorded like an answer that says so.
      rw [hBase] at hStarted
      have hRecorded : Recorded env.ext s.stored definition pass.loopSlices started.taskAttemptId
          started.taskDef started.inputs (.ok (.failure "")) _ := .failure ""
      exact hRecorded.calmCommit hExits hInv.slices hStarted.resolved hStarted.running trivial
        hCalm hReduce
  | checkPaused id rest =>
      simp only [hCase] at hStep
      split at hStep <;> cases hStep
  | resolveFunction _ _ | awaitAnswer _ _ _ | readCurrent _ _ _ _ =>
      simp only [hCase] at hStep
      cases hStep
  | commitResult started answer result base rest =>
      obtain ⟨_, reduced, hRecords, hUpdated⟩ := hRefines.history.records hInv hCase
        (by unfold ActivePass.step; exact hStep)
      simp only [hCase] at hFollows hPoint
      have hSame := hPoint.2.1.same
      refine ⟨_, reduced, plan, hRecords.reduce, hUpdated, .result hRecords.status hRecords.slices
        hRecords.holds.resolved hRecords.holds.running hRecords.recorded, ?_⟩
      refine hRecords.recorded.calmCommit hExits hRecords.slices hRecords.holds.resolved
        hRecords.holds.running ?_ hCalm hRecords.reduce
      rw [hSame]
      exact hFollows

/-- What a step commits in a calm workflow. -/
theorem Refines.calmCommits (h : Refines env definition s l) (hCalm : Calm s.stored)
    (hExits : ExitFree definition) (hFollows : s.pass.Follows answers definition) {action : Action}
    (hStep : s.step env action = some s') : CalmCommits answers env definition s action s' := by
  have hBeside (hWriter : action.writer ≠ .pass) : CalmCommits answers env definition s action s' := by
    cases h.commits hStep with
    | same hStored => exact .same hStored
    | committed hReduce hStored hCommit =>
        obtain ⟨_, _, hWrite⟩ := hCommit.write
        exact .committed hReduce hStored hWrite (.unrecorded ((hWrite.effect hReduce).unrecorded hWriter
          hCalm (reduceWorkflowInstanceEvents_identity hReduce).triggerInput))
  cases action with
  | startPass order =>
      simp only [System.step] at hStep
      split at hStep
      · cases hStep
      · cases hStep
        exact .same rfl
  | crash =>
      cases hStep
      exact .same rfl
  | answer result =>
      obtain ⟨pass, _, rfl⟩ := Option.map_eq_some_iff.mp hStep
      exact .same rfl
  | request request seen => exact hBeside (Action.request_writer request seen).2
  | recover listed seen current => exact hBeside (by simp [Action.writer])
  | passStep =>
      have hInv := h.pass
      rw [System.step_passStep] at hStep
      cases hStep
      rcases hNext : s.pass.step env s.stored with ⟨state, _ | updated⟩
      · exact .same rfl
      · cases hPass : s.pass with
        | active pass =>
            rw [hPass] at hNext hInv hFollows
            obtain ⟨events, reduced, rest, hReduce, hUpdated, hWrite, hCommit⟩ :=
              hInv.calmCommit h hCalm hExits hFollows.2 hNext
            exact .committed hReduce hUpdated hWrite hCommit
        | _ =>
            rw [hPass] at hNext
            cases hNext

end Step

end RelayFold
