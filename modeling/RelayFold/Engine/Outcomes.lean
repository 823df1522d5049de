import RelayFold.Engine.Verdicts

/-! The outcomes of recording an answer: the attempt ends without a valid
output, it completes, or it is a verifier that completes and gives a
verdict. -/
namespace RelayFold.WorkflowEngine

open FallibleFold

/-- What every answer leaves of its attempt. -/
structure Answered (task own : TaskInstance) (inputs : ResolvedTaskInputs) : Prop where
  taskDefId : own.taskDefId = task.taskDefId
  generationIndex : own.generationIndex = task.generationIndex
  humanInput : own.humanInput = task.humanInput
  inputData : own.inputData = inputs.values
  inputMapping : own.inputMapping = inputs.mapping
  exits : own.earlyExit = true → own.status = .failed ∨ task.earlyExit = true

/-- The answer is an output that fits the schema of the task. -/
structure ValidAnswer (ext : Externals) (taskDef : TaskDef) (schema : Option JsonSchema)
    (answer : Answer) (output : Json) : Prop where
  answer : answer = .ok (.success output)
  hasSchema : taskDef.effectiveOutputSchema = .ok schema
  fits : schemaOk ext schema output = true

section Outcome

variable (ext : Externals) (workflow reduced : WorkflowInstance) (definition : WorkflowDef) (loopSlices : LoopSlices)
  (id : String) (task : TaskInstance) (taskDef : TaskDef) (inputs : ResolvedTaskInputs)

inductive Outcome (answer : Answer) (result : ResultCommit) : Prop
  | stopped {own : TaskInstance} {exit : Bool}
      (hEffect : CompletionEffect workflow reduced id own exit)
      (hStatus : own.status = .failed ∨ own.status.isInputNeeded = true)
      (hAnswered : Answered task own inputs)
      (hSatisfaction : own.satisfactionStatus = .unsatisfied ∨
        own.satisfactionStatus = task.satisfactionStatus)
      (hNext : ∃ passResult, result.next = .stop passResult)
      (hMetadata : own.verifierMetadata = task.verifierMetadata ∨
        own.verifierMetadata.bind (·.decision) = none)
  | plain {schema : Option JsonSchema} {exit : Option String} {output : Json}
      (hPlain : taskVerifier taskDef = none) (hExit : exitReason taskDef output = .ok exit)
      (hNext : result.next = .checkPause none)
      (hEffect : CompletionEffect workflow reduced id
        (completedTask loopSlices taskDef inputs schema output exit.isSome task) exit.isSome)
      (hAnswer : ValidAnswer ext taskDef schema answer output)
  | judged {schema : Option JsonSchema} {exit : Option String} {output : Json}
      {verifier : VerifierControlConfig} {decided : VerifierExecutionResult}
      {middle : WorkflowInstance} {state : VerifierGenerationState} {message : Option String}
      (hVerifier : taskVerifier taskDef = some verifier)
      (hExit : exitReason taskDef output = .ok exit)
      (hDecided : verifierResultFromOutput output = .ok decided)
      (hState : workflow.verifierStates.lookup taskDef.id = some state)
      (hNext : result.next = .checkPause message)
      (hCompletion : CompletionEffect workflow middle id
        (completedTask loopSlices taskDef inputs schema output exit.isSome task) exit.isSome)
      (hVerdict : Verdict middle reduced taskDef verifier
        ((loopSlices.lookup taskDef.id).getD [taskDef.id]) id task.generationIndex state decided
        message)
      (hAnswer : ValidAnswer ext taskDef schema answer output)

end Outcome

variable {workflow middle reduced : WorkflowInstance} {definition : WorkflowDef}
  {loopSlices : LoopSlices} {id : String} {task : TaskInstance} {taskDef : TaskDef}
  {inputs : ResolvedTaskInputs}

/-- Events that change the attempt `id` alone. -/
structure TaskEvents (id : String) (events : List WorkflowInstanceEvent)
    (change : TaskInstance → TaskInstance) : Prop where
  isLocal : ∀ event ∈ events, event.isLocal = true
  own : ∀ task, events.foldl (fun current event => event.taskEffect id current) (some task) =
    some (change task)
  others : ∀ key, key ≠ id → ∀ current,
    events.foldl (fun current event => event.taskEffect key current) current = current
  states : ∀ verifierId current,
    events.foldl (fun current event => event.verifierEffect verifierId current) current = current

/-- Events about one attempt compose, and so do the changes that they make to
it. -/
theorem TaskEvents.append {events rest : List WorkflowInstanceEvent}
    {change change' : TaskInstance → TaskInstance} (h : TaskEvents id events change)
    (h' : TaskEvents id rest change') :
    TaskEvents id (events ++ rest) fun task => change' (change task) := by
  refine ⟨List.forall_mem_append.mpr ⟨h.isLocal, h'.isLocal⟩, fun task => ?_,
    fun key hKey current => ?_, fun verifierId current => ?_⟩
  · rw [List.foldl_append, h.own, h'.own]
  · rw [List.foldl_append, h.others key hKey, h'.others key hKey]
  · rw [List.foldl_append, h.states, h'.states]

/-- Recording the inputs sets two fields of the attempt, the data and the
generations it was read from. -/
theorem inputEvents_own : TaskEvents id (inputEvents id inputs) fun task =>
    { task with inputData := inputs.values, inputMapping := inputs.mapping } :=
  ⟨by simp [inputEvents, WorkflowInstanceEvent.isLocal],
    by simp [inputEvents, WorkflowInstanceEvent.taskEffect],
    fun key hKey _ => by simp [inputEvents, WorkflowInstanceEvent.taskEffect, hKey],
    fun _ _ => rfl⟩

/-- Of a failed attempt only the status and the satisfaction change; it keeps
its inputs. -/
theorem failTaskEvents_own : TaskEvents id (failTaskEvents id) fun task =>
    { task with status := .failed, satisfactionStatus := .unsatisfied } :=
  ⟨by simp [failTaskEvents, WorkflowInstanceEvent.isLocal],
    by simp [failTaskEvents, WorkflowInstanceEvent.taskEffect],
    fun key hKey _ => by simp [failTaskEvents, WorkflowInstanceEvent.taskEffect, hKey],
    fun _ _ => rfl⟩

theorem statusEvents_own (status : TaskStatus) (final : WorkflowStatus) :
    TaskEvents id [.taskStatusChanged id status, .workflowStatusChanged final] fun task =>
      { task with status := status } :=
  ⟨by simp [WorkflowInstanceEvent.isLocal], by simp [WorkflowInstanceEvent.taskEffect],
    fun key hKey _ => by simp [WorkflowInstanceEvent.taskEffect, hKey], fun _ _ => rfl⟩

/-- An invalid verdict keeps the answer as output, and the reason in the
attempt's metadata. -/
theorem invalidVerifierEvents_own (output : Json) (error : String) :
    TaskEvents id (invalidVerifierEvents id output error) fun task =>
      { task with status := .failed, satisfactionStatus := .unsatisfied,
                  verifierMetadata := some { status := .invalid, decision := none, feedback := none,
                                             verifierOutput := some output,
                                             exitReason := some error } } :=
  ⟨by simp [invalidVerifierEvents, WorkflowInstanceEvent.isLocal],
    by simp [invalidVerifierEvents, WorkflowInstanceEvent.taskEffect],
    fun key hKey _ => by simp [invalidVerifierEvents, WorkflowInstanceEvent.taskEffect, hKey],
    fun _ _ => rfl⟩

/-- More events of the attempt `id` alone, on top of what is recorded of it. -/
theorem CompletionEffect.andThen {own : TaskInstance} {exit : Bool}
    (h : CompletionEffect workflow middle id own exit) {events : List WorkflowInstanceEvent}
    {change : TaskInstance → TaskInstance} (hEvents : TaskEvents id events change)
    (hReduce : events.foldlM applyWorkflowInstanceEvent middle = .ok reduced) :
    CompletionEffect workflow reduced id (change own) exit := by
  have hEffect := foldlM_effected hReduce
  have hLookup := hEffect.task hEvents.isLocal
  refine ⟨?_, fun key hKey => ?_, fun other => ?_⟩
  · rw [hLookup, h.own, hEvents.own]
  · rw [hLookup, hEvents.others key hKey, h.kept key hKey]
  · rw [hEffect.verifierState, hEvents.states, h.verifierStates]

/-- Before any event the attempt is as it was, and no other attempt has
changed. -/
theorem CompletionEffect.refl (hTask : workflow.tasks.lookup id = some task) :
    CompletionEffect workflow workflow id task false :=
  ⟨hTask, fun key _ => by cases workflow.tasks.lookup key <;> simp, fun _ => rfl⟩

/-- A decision to go on comes with feedback. -/
theorem verifierResultFromOutput_feedback {output : Json} {result : VerifierExecutionResult}
    (h : verifierResultFromOutput output = .ok result) (hDecision : result.decision = .continue) :
    isBlank (result.feedback.getD "") = false := by
  unfold verifierResultFromOutput at h
  split at h
  · rename_i fields
    dsimp only at h
    split at h
    · obtain ⟨decision, hContinue, h⟩ := bind_ok.mp h
      cases hContinue
      split at h
      · cases h
      · rename_i hFeedback
        cases h
        cases hText : (List.lookup "feedback" fields).bind Json.asStr with
        | none => simp [hText] at hFeedback
        | some feedback => simpa [hText] using hFeedback
    · obtain ⟨decision, hComplete, h⟩ := bind_ok.mp h
      cases hComplete
      rw [if_neg (by simp)] at h
      cases h
      cases hDecision
    · cases h
  · cases h

theorem verifierResultFromOutput_isNull {output : Json} {decided : VerifierExecutionResult}
    (h : verifierResultFromOutput output = .ok decided) : output.isNull = false := by
  cases output with
  | null => cases h
  | _ => rfl

/-- A valid output of a verifier with a decision completes its attempt and
gives the verdict. -/
theorem decided_verdict {schema : Option JsonSchema} {output : Json} {exit : Option String}
    {verifier : VerifierControlConfig} {decided : VerifierExecutionResult}
    {transition : VerifierTransition}
    (hTask : workflow.tasks.lookup id = some task) (hRunning : task.status = .running)
    (hDef : definition.findTask task.taskDefId = some taskDef) (hId : task.taskDefId = taskDef.id)
    (hVerifier : taskVerifier taskDef = some verifier)
    (hDecided : verifierResultFromOutput output = .ok decided)
    (hMiddle : reduceWorkflowInstanceEvents (some workflow)
      (completionEvents loopSlices id taskDef inputs schema output ++
        (if exit.isSome then earlyExitEvents workflow id else [])) = .ok middle)
    (hTransition : verifierResultTransition middle definition loopSlices id output decided =
      .ok transition)
    (hReduce : reduceWorkflowInstanceEvents (some workflow)
      (completionEvents loopSlices id taskDef inputs schema output ++
        (if exit.isSome then earlyExitEvents workflow id else []) ++ transition.events) =
      .ok reduced) :
    ∃ state, workflow.verifierStates.lookup taskDef.id = some state ∧
      CompletionEffect workflow middle id
        (completedTask loopSlices taskDef inputs schema output exit.isSome task) exit.isSome ∧
      Verdict middle reduced taskDef verifier ((loopSlices.lookup taskDef.id).getD [taskDef.id]) id
        task.generationIndex state decided transition.errorMessage := by
  obtain ⟨middle', hFirst, hRest⟩ := foldlM_append_ok.mp hReduce
  obtain rfl : middle' = middle := Except.ok.inj (hFirst.symm.trans hMiddle)
  have hCompletion := completion_effect hTask hRunning hFirst
  obtain ⟨attempt, verifierTask, verifier', state, hAttempt, hFound, hVerifier', hState, rfl⟩ :=
    verifierResultTransition_ok hTransition
  rw [hCompletion.own] at hAttempt
  cases hAttempt
  have hSame : verifierTask = taskDef := Option.some.inj (hFound.symm.trans hDef)
  subst hSame
  rw [hVerifier] at hVerifier'
  cases hVerifier'
  have hState' : workflow.verifierStates.lookup verifierTask.id = some state := by
    rw [← hId, ← hCompletion.verifierStates]
    exact hState
  have hVerdict := decisionTransition_effect (by rw [hCompletion.own]; rfl)
    ((hCompletion.verifierStates _).trans hState') (verifierResultFromOutput_isNull hDecided) hRest
  have hSlice : (completedTask loopSlices verifierTask inputs schema output exit.isSome
      task).taskDefId = verifierTask.id := hId
  rw [hSlice] at hVerdict
  have hMessage : (decisionTransition middle' verifierTask verifier
      ((loopSlices.lookup task.taskDefId).getD [task.taskDefId]) id task.generationIndex state output
      decided).errorMessage = (decisionTransition middle' verifierTask verifier
      ((loopSlices.lookup verifierTask.id).getD [verifierTask.id]) id task.generationIndex state
      output decided).errorMessage := by
    rw [hId]
  exact ⟨state, hState', hCompletion, hMessage ▸ hVerdict⟩

/-- A result that is recorded has one of the outcomes. -/
theorem Recorded.outcome {ext : Externals} {answer : Answer} {result : ResultCommit}
    (h : Recorded ext workflow definition loopSlices id taskDef inputs answer result)
    (hTask : workflow.tasks.lookup id = some task) (hRunning : task.status = .running)
    (hDef : definition.findTask task.taskDefId = some taskDef) (hId : task.taskDefId = taskDef.id)
    (hReduce : reduceWorkflowInstanceEvents (some workflow) result.events = .ok reduced) :
    Outcome ext workflow reduced loopSlices id task taskDef inputs answer result := by
  have hStart := CompletionEffect.refl hTask
  cases h with
  | inputNeeded inputRequest =>
      exact .stopped (hStart.andThen (inputEvents_own.append (statusEvents_own _ _)) hReduce)
        (.inr rfl) ⟨rfl, rfl, rfl, rfl, rfl, .inr⟩ (.inr rfl) ⟨_, rfl⟩ (.inl rfl)
  | failure _ | badOutput _ _ =>
      exact .stopped (hStart.andThen (inputEvents_own.append failTaskEvents_own) hReduce)
        (.inl rfl) ⟨rfl, rfl, rfl, rfl, rfl, fun _ => .inl rfl⟩ (.inl rfl) ⟨_, rfl⟩ (.inl rfl)
  | dispatchError _ =>
      exact .stopped (hStart.andThen (inputEvents_own.append (statusEvents_own _ _)) hReduce)
        (.inl rfl) ⟨rfl, rfl, rfl, rfl, rfl, fun _ => .inl rfl⟩ (.inr rfl) ⟨_, rfl⟩ (.inl rfl)
  | @badExit output schema error hSchema hOk hExit =>
      obtain ⟨middle, hFirst, hRest⟩ := foldlM_append_ok.mp hReduce
      have hCompletion := @completion_effect workflow middle id loopSlices taskDef inputs schema
        output none task hTask hRunning (by simpa [reduceWorkflowInstanceEvents] using hFirst)
      exact .stopped (hCompletion.andThen failTaskEvents_own hRest)
        (.inl rfl) ⟨rfl, rfl, rfl, rfl, rfl, fun _ => .inl rfl⟩ (.inl rfl) ⟨_, rfl⟩ (.inl rfl)
  | @completed output schema exit _ hSchema hOk hExit hResult =>
      cases hResult with
      | plain hPlain =>
          exact .plain hPlain hExit rfl (completion_effect hTask hRunning hReduce)
            ⟨rfl, hSchema, hOk⟩
      | invalid _ _ =>
          obtain ⟨middle, hFirst, hRest⟩ := foldlM_append_ok.mp hReduce
          exact .stopped
            ((completion_effect hTask hRunning hFirst).andThen (invalidVerifierEvents_own _ _) hRest)
            (.inl rfl) ⟨rfl, rfl, rfl, rfl, rfl, fun _ => .inl rfl⟩ (.inl rfl) ⟨_, rfl⟩ (.inr rfl)
      | @decided verifier decision middle transition hVerifier hDecision hMiddle hTransition =>
          obtain ⟨state, hState, hCompletion, hVerdict⟩ := decided_verdict hTask hRunning hDef hId
            hVerifier hDecision hMiddle hTransition hReduce
          exact .judged hVerifier hExit hDecision hState rfl hCompletion hVerdict
            ⟨rfl, hSchema, hOk⟩

/-- What an outcome leaves of the attempts other than the answered one, and of
the states. -/
structure OutcomeFrame (workflow reduced : WorkflowInstance) (id : String) (taskDef : TaskDef)
    (slice : List String) (exit : Bool) : Prop where
  own : ∀ task, workflow.tasks.lookup id = some task → ∃ own, reduced.tasks.lookup id = some own ∧
    own.taskDefId = task.taskDefId ∧ own.generationIndex = task.generationIndex
  kept : ∀ key task, key ≠ id → workflow.tasks.lookup key = some task →
    ∃ mark, reduced.tasks.lookup key = some ((task.afterExit exit).marked mark)
  new : ∀ key found, workflow.tasks.lookup key = none → reduced.tasks.lookup key = some found →
    (taskVerifier taskDef).isSome = true ∧
      (workflow.verifierStates.lookup taskDef.id).isSome = true ∧
      ∃ taskDefId ∈ slice, ∃ generation,
      key = makeTaskAttemptId taskDefId generation ∧ found = .fresh taskDefId generation
  states : ∀ other, other ≠ taskDef.id ∨ taskVerifier taskDef = none →
    reduced.verifierStates.lookup other = workflow.verifierStates.lookup other

/-- A completion changes one attempt; with an early exit it may skip others,
but it creates none. -/
theorem CompletionEffect.frame {own : TaskInstance} {exit : Bool}
    (h : CompletionEffect workflow reduced id own exit)
    (hTask : workflow.tasks.lookup id = some task)
    (hNames : own.taskDefId = task.taskDefId ∧ own.generationIndex = task.generationIndex)
    (slice : List String) : OutcomeFrame workflow reduced id taskDef slice exit := by
  refine ⟨fun other hOther => ?_, fun key other hKey hOther => ?_, fun key found hNone hFound => ?_,
    fun other _ => h.verifierStates other⟩
  · rw [hTask] at hOther
    cases hOther
    exact ⟨own, h.own, hNames⟩
  · exact ⟨none, by rw [h.kept key hKey, hOther]; rfl⟩
  · have hKey : key ≠ id := by
      rintro rfl
      rw [hTask] at hNone
      cases hNone
    rw [h.kept key hKey, hNone] at hFound
    cases hFound

/-- A verdict touches its own slice only: it marks the attempts of its
generation, and what it creates are attempts of the next one. -/
theorem VerdictEffect.frame {slice : List String} (generation : Nat) {exit : Bool}
    {completed : TaskInstance} {own : TaskInstance → TaskInstance}
    {mark : String → Option TaskSatisfactionStatus} {created : String → Option TaskInstance → Prop}
    {after : VerifierGenerationState}
    (h : VerdictEffect middle reduced id taskDef.id own mark created after)
    (hOwn : ∀ task, (own task).taskDefId = task.taskDefId ∧
      (own task).generationIndex = task.generationIndex)
    (hCreated : ∀ key found, created key found → FreshAt slice generation key found ∨ found = none)
    (hCompletion : CompletionEffect workflow middle id completed exit)
    (hTask : workflow.tasks.lookup id = some task)
    (hNames : completed.taskDefId = task.taskDefId ∧
      completed.generationIndex = task.generationIndex)
    (hVerifier : (taskVerifier taskDef).isSome = true)
    (hState : (workflow.verifierStates.lookup taskDef.id).isSome = true) :
    OutcomeFrame workflow reduced id taskDef slice exit := by
  refine ⟨fun other hOther => ?_, fun key other hKey hOther => ?_, fun key found hNone hFound => ?_,
    fun other hOther => ?_⟩
  · rw [hTask] at hOther
    cases hOther
    refine ⟨own completed, by rw [h.own, hCompletion.own]; rfl, ?_⟩
    exact ⟨(hOwn completed).1.trans hNames.1, (hOwn completed).2.trans hNames.2⟩
  · exact ⟨mark key, h.kept key _ hKey (by rw [hCompletion.kept key hKey, hOther]; rfl)⟩
  · have hKey : key ≠ id := by
      rintro rfl
      rw [hTask] at hNone
      cases hNone
    have hMiddle : middle.tasks.lookup key = none := by
      rw [hCompletion.kept key hKey, hNone]
      rfl
    refine ⟨hVerifier, hState, ?_⟩
    have hNew := hCreated key _ (h.new key hMiddle)
    rw [hFound] at hNew
    rcases hNew with (⟨taskDefId, hMem, hKey, hFresh⟩ | ⟨_, hNothing⟩) | hNothing
    · exact ⟨taskDefId, hMem, generation, hKey, Option.some.inj hFresh⟩
    · cases hNothing
    · cases hNothing
  · rcases hOther with hOther | hPlain
    · rw [h.states other hOther, hCompletion.verifierStates]
    · rw [hPlain] at hVerifier
      cases hVerifier

/-- Every result that is recorded stays within its slice, unless it exits
early: then the skipped attempts may lie anywhere. -/
theorem Outcome.frame {answer : Answer} {result : ResultCommit}
    (h : Outcome ext workflow reduced loopSlices id task taskDef inputs answer result)
    (hTask : workflow.tasks.lookup id = some task) :
    ∃ exit, OutcomeFrame workflow reduced id taskDef
      ((loopSlices.lookup taskDef.id).getD [taskDef.id]) exit := by
  cases h with
  | stopped hEffect _ hAnswered _ _ _ =>
      exact ⟨_, hEffect.frame hTask ⟨hAnswered.taskDefId, hAnswered.generationIndex⟩ _⟩
  | plain _ _ _ hEffect _ => exact ⟨_, hEffect.frame hTask ⟨rfl, rfl⟩ _⟩
  | @judged _ exit _ _ _ _ _ _ hVerifier _ _ hState _ hCompletion hVerdict _ =>
      have hSome : (taskVerifier taskDef).isSome = true := by rw [hVerifier]; rfl
      have hStateSome : (workflow.verifierStates.lookup taskDef.id).isSome = true := by
        rw [hState]
        rfl
      refine ⟨exit.isSome, ?_⟩
      cases hVerdict with
      | rerun _ _ _ _ hEffect =>
          exact hEffect.frame _ (fun _ => ⟨rfl, rfl⟩) (fun _ _ h => .inl h) hCompletion hTask
            ⟨rfl, rfl⟩ hSome hStateSome
      | complete _ _ hEffect | interrupted _ _ _ hEffect | exhausted _ _ _ _ _ hEffect
      | failed _ _ _ _ _ _ hEffect =>
          exact hEffect.frame 0 (fun _ => ⟨rfl, rfl⟩) (fun _ _ h => .inr h)
            hCompletion hTask ⟨rfl, rfl⟩ hSome hStateSome

/-- What an answer creates is the next generation of the slice of a verifier
below its limit. -/
theorem Outcome.materialized {ext : Externals} {answer : Answer} {result : ResultCommit}
    (h : Outcome ext workflow reduced loopSlices id task taskDef inputs answer result)
    (hTask : workflow.tasks.lookup id = some task) {key : String} {found : TaskInstance}
    (hNone : workflow.tasks.lookup key = none) (hFound : reduced.tasks.lookup key = some found) :
    ∃ verifier, taskVerifier taskDef = some verifier ∧
      task.generationIndex < verifier.maxIterations.toNat ∧
      ∃ taskDefId ∈ (loopSlices.lookup taskDef.id).getD [taskDef.id],
        key = makeTaskAttemptId taskDefId (task.generationIndex + 1) ∧
        found = .fresh taskDefId (task.generationIndex + 1) := by
  have hKey : key ≠ id := by
    rintro rfl
    rw [hTask] at hNone
    cases hNone
  cases h with
  | stopped hEffect _ _ _ _ _ =>
      rw [hEffect.kept key hKey, hNone] at hFound
      cases hFound
  | plain _ _ _ hEffect _ =>
      rw [hEffect.kept key hKey, hNone] at hFound
      cases hFound
  | @judged _ _ _ verifier _ _ _ _ hVerifier _ _ _ _ hCompletion hVerdict _ =>
      have hMiddle := hCompletion.kept key hKey
      rw [hNone] at hMiddle
      cases hVerdict with
      | rerun _ _ _ hBelow hEffect =>
          rcases hEffect.new key hMiddle with ⟨taskDefId, hMem, hName, hFresh⟩ | ⟨_, hNothing⟩
          · rw [hFound] at hFresh
            exact ⟨verifier, hVerifier, hBelow, taskDefId, hMem, hName, Option.some.inj hFresh⟩
          · rw [hFound] at hNothing
            cases hNothing
      | complete _ _ hEffect | interrupted _ _ _ hEffect | exhausted _ _ _ _ _ hEffect
      | failed _ _ _ _ _ _ hEffect =>
          have hNothing := hEffect.new key hMiddle
          rw [hFound] at hNothing
          cases hNothing

end RelayFold.WorkflowEngine
