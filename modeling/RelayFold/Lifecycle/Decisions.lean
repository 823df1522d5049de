import RelayFold.Lifecycle.EarlyExit

/-! What the decision of a verifier leaves of its slice: an acceptance
satisfies one generation, a rejection materializes the next one. -/
namespace RelayFold

open WorkflowEngine WorkflowService FallibleFold

/-- The next step of the pass commits a decision that the verifier attempt
`started` has answered with. The output fits its schema, and `exit` is the
reason that it gives for an early exit. -/
structure System.Deciding (env : EngineEnv) (definition : WorkflowDef) (s : System)
    (started : StartedTask) (slice : List String) (verifier : VerifierControlConfig)
    (exit : Option String) (decided : VerifierExecutionResult) : Prop where
  isSlice : (started.task.taskDefId, slice) ∈ computeLoopSlices definition
  isVerifier : taskVerifier started.taskDef = some verifier
  answered : ∃ output schema, s.completing .passStep = some (started, output) ∧
    started.taskDef.effectiveOutputSchema = .ok schema ∧ schemaOk env.ext schema output = true ∧
    exitReason started.taskDef output = .ok exit ∧ verifierResultFromOutput output = .ok decided

/-- The attempts after a decision of the attempt `id`. -/
structure DecisionEffect (before after : WorkflowInstance) (id : String) (own : TaskInstance)
    (exit : Bool) (mark : String → Option TaskSatisfactionStatus)
    (created : String → Option TaskInstance → Prop) : Prop where
  own : after.tasks.lookup id = some own
  kept : ∀ key a, key ≠ id → before.tasks.lookup key = some a →
    after.tasks.lookup key = some ((a.afterExit exit).marked (mark key))
  new : ∀ key, before.tasks.lookup key = none → created key (after.tasks.lookup key)

section Effect

variable {before middle after : WorkflowInstance} {id : String} {task own completed : TaskInstance}
  {exit : Bool} {mark : String → Option TaskSatisfactionStatus}
  {created : String → Option TaskInstance → Prop} {slice : List String} {taskId : String}

/-- The verdict on top of its completion: both changes are made by the one
commit of the result. -/
theorem WorkflowEngine.VerdictEffect.decision {verifierId : String}
    {change : TaskInstance → TaskInstance} {state : VerifierGenerationState}
    (h : VerdictEffect middle after id verifierId change mark created state)
    (hCompletion : CompletionEffect before middle id completed exit)
    (hTask : before.tasks.lookup id = some task) :
    DecisionEffect before after id (change completed) exit mark created := by
  refine ⟨?_, fun key a hKey ha => ?_, fun key hNone => ?_⟩
  · rw [h.own, hCompletion.own]
    rfl
  · exact h.kept key _ hKey (by rw [hCompletion.kept key hKey, ha]; rfl)
  · have hKey : key ≠ id := by
      rintro rfl
      rw [hTask] at hNone
      cases hNone
    exact h.new key (by rw [hCompletion.kept key hKey, hNone]; rfl)

/-- A valid output alone, as a decision that marks nothing. -/
theorem WorkflowEngine.CompletionEffect.decision
    (h : CompletionEffect before after id own exit) (hTask : before.tasks.lookup id = some task) :
    DecisionEffect before after id own exit (fun _ => none) NothingNew := by
  refine ⟨h.own, fun key a hKey ha => ?_, fun key hNone => ?_⟩
  · rw [h.kept key hKey, ha]
    rfl
  · have hKey : key ≠ id := by
      rintro rfl
      rw [hTask] at hNone
      cases hNone
    rw [NothingNew, h.kept key hKey, hNone]
    rfl

/-- The version that the commit gives its snapshot plays no part in the
effect. -/
theorem DecisionEffect.withVersion (h : DecisionEffect before after id own exit mark created)
    (version : Nat) : DecisionEffect before (after.withVersion version) id own exit mark created :=
  ⟨h.own, h.kept, h.new⟩

/-- The attempts of before are still there. -/
theorem DecisionEffect.attempt_kept (h : DecisionEffect before after id own exit mark created)
    (hTask : before.tasks.lookup id = some task)
    (hNames : own.taskDefId = task.taskDefId ∧ own.generationIndex = task.generationIndex)
    {key : String} {a : TaskInstance} (ha : IsAttempt before taskId key a) :
    ∃ b, IsAttempt after taskId key b ∧ b.generationIndex = a.generationIndex := by
  by_cases hKey : key = id
  · subst hKey
    have hSame : a = task := Option.some.inj (ha.found.symm.trans hTask)
    subst hSame
    exact ⟨own, ⟨h.own, hNames.1.trans ha.taskDefId⟩, hNames.2⟩
  · have hTurns : Turns a ((a.afterExit exit).marked (mark key)) := .afterExit exit (mark key)
    exact ⟨_, ⟨h.kept key a hKey ha.found, hTurns.names.1.trans ha.taskDefId⟩, hTurns.names.2⟩

/-- An attempt is one of before, or the decision has created it. -/
theorem DecisionEffect.attempt_origin (h : DecisionEffect before after id own exit mark created)
    (hTask : before.tasks.lookup id = some task)
    (hNames : own.taskDefId = task.taskDefId ∧ own.generationIndex = task.generationIndex)
    {key : String} {b : TaskInstance} (hb : IsAttempt after taskId key b) :
    (∃ a, IsAttempt before taskId key a ∧ b.generationIndex = a.generationIndex) ∨
      before.tasks.lookup key = none ∧ created key (some b) := by
  cases ha : before.tasks.lookup key with
  | none =>
      have hNew := h.new key ha
      rw [hb.found] at hNew
      exact .inr ⟨rfl, hNew⟩
  | some a =>
      left
      by_cases hKey : key = id
      · subst hKey
        rw [hTask] at ha
        cases ha
        have hSame : b = own := Option.some.inj (hb.found.symm.trans h.own)
        subst hSame
        exact ⟨task, ⟨hTask, hNames.1.symm.trans hb.taskDefId⟩, hNames.2⟩
      · have hTurns : Turns a ((a.afterExit exit).marked (mark key)) := .afterExit exit (mark key)
        have hFound := hb.found
        rw [h.kept key a hKey ha] at hFound
        cases hFound
        exact ⟨a, ⟨ha, hTurns.names.1.symm.trans hb.taskDefId⟩, hTurns.names.2⟩

/-- A decision that creates nothing leaves the latest generation of every task
as it was. -/
theorem DecisionEffect.isLatest (h : DecisionEffect before after id own exit mark NothingNew)
    (hTask : before.tasks.lookup id = some task)
    (hNames : own.taskDefId = task.taskDefId ∧ own.generationIndex = task.generationIndex)
    {generation : Nat} : IsLatest after taskId generation ↔ IsLatest before taskId generation := by
  constructor
  · intro hLatest key a ha
    obtain ⟨b, hb, hGeneration⟩ := h.attempt_kept hTask hNames ha
    rw [← hGeneration]
    exact hLatest key b hb
  · intro hLatest key b hb
    rcases h.attempt_origin hTask hNames hb with ⟨a, ha, hGeneration⟩ | ⟨_, hNone⟩
    · rw [hGeneration]
      exact hLatest key a ha
    · cases hNone

/-- A valid output without an exit leaves the slice as interrupted as it
was. -/
theorem WorkflowEngine.CompletionEffect.runs {loopSlices : LoopSlices} {taskDef : TaskDef}
    {inputs : ResolvedTaskInputs} {schema : Option JsonSchema} {output : Json}
    (h : CompletionEffect before middle id
      (completedTask loopSlices taskDef inputs schema output false task) false)
    (hTask : before.tasks.lookup id = some task)
    (hRuns : sliceInterruptedByExit before slice = false) :
    sliceInterruptedByExit middle slice = false := by
  rw [← Bool.not_eq_true] at hRuns ⊢
  intro hInterrupted
  apply hRuns
  obtain ⟨key, b, hb, hMem, hExits⟩ := sliceInterruptedByExit_iff.mp hInterrupted
  apply sliceInterruptedByExit_iff.mpr
  by_cases hKey : key = id
  · rw [hKey, h.own] at hb
    cases hb
    refine ⟨id, task, hTask, hMem, .inr ?_⟩
    rcases hExits with hSkipped | hExits
    · cases hSkipped
    · simpa [completedTask] using hExits
  · rw [h.kept key hKey] at hb
    obtain ⟨a, ha, rfl⟩ := Option.map_eq_some_iff.mp hb
    rw [TaskInstance.afterExit_false] at hMem hExits
    exact ⟨key, a, ha, hMem, hExits⟩

/-- Whoever exits interrupts its own slice. -/
theorem WorkflowEngine.CompletionEffect.exit_none {loopSlices : LoopSlices} {taskDef : TaskDef}
    {inputs : ResolvedTaskInputs} {schema : Option JsonSchema} {output : Json} {exit : Option String}
    (h : CompletionEffect before middle id
      (completedTask loopSlices taskDef inputs schema output exit.isSome task) exit.isSome)
    (hMem : task.taskDefId ∈ slice) (hRuns : sliceInterruptedByExit middle slice = false) :
    exit = none := by
  cases exit with
  | none => rfl
  | some reason =>
      have hInterrupted : sliceInterruptedByExit middle slice = true :=
        sliceInterruptedByExit_iff.mpr ⟨id, _, h.own, hMem, .inr rfl⟩
      rw [hRuns] at hInterrupted
      cases hInterrupted

end Effect

/-- A step completes an attempt when a pass commits its output; this is the one
place. -/
theorem System.completing_some {s : System} {action : Action} {started : StartedTask}
    {output : Json} (h : s.completing action = some (started, output)) :
    action = .passStep ∧ ∃ pass result base rest, s.pass = .active pass ∧
      pass.point = .commitResult started (.ok (.success output)) result base rest := by
  unfold System.completing at h
  split at h
  · split at h
    · rename_i pass hPass
      split at h
      · rename_i hPoint
        cases h
        exact ⟨rfl, pass, _, _, _, hPass, hPoint⟩
      · cases h
    · cases h
  · cases h

section Step

variable {env : EngineEnv} {definition : WorkflowDef} {s s' : System} {l : Lifecycle}
  {started : StartedTask} {slice : List String} {verifier : VerifierControlConfig}
  {exit : Option String} {decided : VerifierExecutionResult}

/-- The verifier accepts: it answers complete, or it goes on at its limit and
may do so, in a slice that no exit interrupts. -/
def Accepts (s : System) (started : StartedTask) (slice : List String)
    (verifier : VerifierControlConfig) (exit : Option String) (decided : VerifierExecutionResult) :
    Prop :=
  decided.decision = .complete ∨ decided.decision = .continue ∧
    verifier.maxIterations.toNat ≤ started.task.generationIndex ∧
    verifier.onExhaustedContinue = true ∧ exit = none ∧
    sliceInterruptedByExit s.stored slice = false

/-- What the commit of a decision does. -/
structure System.Decision (s s' : System) (started : StartedTask) (slice : List String)
    (verifier : VerifierControlConfig) (exit : Option String) (decided : VerifierExecutionResult)
    (middle reduced : WorkflowInstance) (completed : TaskInstance) : Prop where
  stored : ∃ version, s'.stored = reduced.withVersion version
  found : s.stored.tasks.lookup started.taskAttemptId = some started.task
  running : started.task.status = .running
  isCompleted : ∃ loopSlices schema output, completed = completedTask loopSlices started.taskDef
    started.inputs schema output exit.isSome started.task
  completion : CompletionEffect s.stored middle started.taskAttemptId completed exit.isSome
  verdict : ∃ state message, Verdict middle reduced started.taskDef verifier slice
    started.taskAttemptId started.task.generationIndex state decided message

/-- A continue decision comes with feedback that is not blank, because the
answer is checked for it. -/
theorem System.Deciding.feedback
    (h : s.Deciding env definition started slice verifier exit decided)
    (hDecision : decided.decision = .continue) : isBlank (decided.feedback.getD "") = false := by
  obtain ⟨_, _, _, _, _, _, hDecided⟩ := h.answered
  exact verifierResultFromOutput_feedback hDecided hDecision

/-- When the pass commits the result of a verifier, the commit consists of the
completion of the attempt and the effect of the verdict. -/
theorem Refines.decision (hDef : WellFormedDef definition) (h : Refines env definition s l)
    (hDeciding : s.Deciding env definition started slice verifier exit decided)
    (hStep : s.step env .passStep = some s') (hCommitted : s'.stored ≠ s.stored) :
    ∃ middle reduced completed,
      s.Decision s' started slice verifier exit decided middle reduced completed := by
  obtain ⟨output, schema, hCompleting, hSchema, hOk, hExit, hDecided⟩ := hDeciding.answered
  obtain ⟨_, pass, result, base, rest, hPass, hPoint⟩ := System.completing_some hCompleting
  rcases h.records hPass hPoint hStep with hSame | ⟨reduced, hRecords, hStored⟩
  · exact absurd hSame hCommitted
  obtain ⟨_, hTask, hFound, _⟩ := startedTask_eq hRecords.holds.resolved
  have hId := (findTask_some hFound).2
  have hSlice : (pass.loopSlices.lookup started.taskDef.id).getD [started.taskDef.id] = slice := by
    rw [hId, lookup_slice hDef hRecords.slices hDeciding.isSlice]
    rfl
  have hReduce := hRecords.reduce
  cases hRecords.recorded with
  | badOutput hSchema' hBad =>
      rw [hSchema] at hSchema'
      cases hSchema'
      rw [hOk] at hBad
      cases hBad
  | badExit _ _ hExit' =>
      rw [hExit] at hExit'
      cases hExit'
  | completed hSchema' _ hExit' hResult =>
      rw [hExit] at hExit'
      cases hExit'
      cases hResult with
      | plain hPlain =>
          rw [hDeciding.isVerifier] at hPlain
          cases hPlain
      | invalid _ hDecided' =>
          rw [hDecided] at hDecided'
          cases hDecided'
      | @decided verifier' decided' middle transition hVerifier hDecided' hMiddle hTransition =>
          rw [hDeciding.isVerifier] at hVerifier
          cases hVerifier
          rw [hDecided] at hDecided'
          cases hDecided'
          obtain ⟨state, _, hCompletion, hVerdict⟩ := decided_verdict hTask
            hRecords.holds.running hFound hId.symm hDeciding.isVerifier hDecided hMiddle
            hTransition hReduce
          rw [hSlice] at hVerdict
          exact ⟨middle, reduced, _, ⟨_, hStored⟩, hTask, hRecords.holds.running,
            ⟨_, _, _, rfl⟩, hCompletion, _, _, hVerdict⟩

/-- A verifier that goes on below its limit, in a slice that no exit
interrupts, materializes the next generation. -/
theorem Refines.reruns (hDef : WellFormedDef definition) (h : Refines env definition s l)
    (hDeciding : s.Deciding env definition started slice verifier none decided)
    (hDecision : decided.decision = .continue)
    (hBelow : started.task.generationIndex < verifier.maxIterations.toNat)
    (hRuns : sliceInterruptedByExit s.stored slice = false)
    (hStep : s.step env .passStep = some s') (hCommitted : s'.stored ≠ s.stored) :
    ∃ own, DecisionEffect s.stored s'.stored started.taskAttemptId own false
        (sliceMark slice started.task.generationIndex .unsatisfied)
        (FreshAt slice (started.task.generationIndex + 1)) ∧
      s.stored.tasks.lookup started.taskAttemptId = some started.task ∧
      own.taskDefId = started.task.taskDefId ∧
      own.generationIndex = started.task.generationIndex := by
  obtain ⟨middle, reduced, completed, hAfter⟩ := h.decision hDef hDeciding hStep hCommitted
  obtain ⟨version, hStored⟩ := hAfter.stored
  obtain ⟨loopSlices, schema, output, rfl⟩ := hAfter.isCompleted
  obtain ⟨state, message, hVerdict⟩ := hAfter.verdict
  have hNoExit := hAfter.completion.runs hAfter.found hRuns
  rw [hStored]
  cases hVerdict with
  | complete hComplete _ _ =>
      rw [hDecision] at hComplete
      cases hComplete
  | interrupted _ _ hInterrupted _ =>
      rw [hNoExit] at hInterrupted
      cases hInterrupted
  | rerun _ _ _ _ hEffect =>
      exact ⟨_, (hEffect.decision hAfter.completion hAfter.found).withVersion version, hAfter.found,
        rfl, rfl⟩
  | exhausted _ _ _ hLimit _ _ => omega
  | failed _ _ _ _ _ hHistory _ =>
      rcases hHistory with hBlank | ⟨⟨_, hLimit, _⟩, _⟩
      · rw [hDeciding.feedback hDecision] at hBlank
        cases hBlank
      · omega

/-- A verifier that accepts completes its attempt and satisfies its generation
of the slice. -/
theorem Refines.accepts (hDef : WellFormedDef definition) (h : Refines env definition s l)
    (hDeciding : s.Deciding env definition started slice verifier exit decided)
    (hAccepts : Accepts s started slice verifier exit decided)
    (hStep : s.step env .passStep = some s') (hCommitted : s'.stored ≠ s.stored) :
    ∃ own, DecisionEffect s.stored s'.stored started.taskAttemptId own exit.isSome
        (sliceMark slice started.task.generationIndex .satisfied) NothingNew ∧
      s.stored.tasks.lookup started.taskAttemptId = some started.task ∧
      own.taskDefId = started.task.taskDefId ∧
      own.generationIndex = started.task.generationIndex ∧ own.status = .completed ∧
      own.satisfactionStatus = .satisfied := by
  obtain ⟨middle, reduced, completed, hAfter⟩ := h.decision hDef hDeciding hStep hCommitted
  obtain ⟨version, hStored⟩ := hAfter.stored
  obtain ⟨loopSlices, schema, output, rfl⟩ := hAfter.isCompleted
  obtain ⟨state, message, hVerdict⟩ := hAfter.verdict
  have hMark : sliceMark slice started.task.generationIndex .satisfied started.taskAttemptId =
      some .satisfied := by
    have hKey := h.sound.key _ _ hAfter.found
    rw [sliceMark, hKey, if_pos]
    exact List.mem_map_of_mem (hDef.verifier_mem hDeciding.isSlice)
  rw [hStored]
  have hNotInterrupted (hContinue : decided.decision = .continue) :
      sliceInterruptedByExit middle slice = false ∧
        verifier.maxIterations.toNat ≤ started.task.generationIndex ∧
        verifier.onExhaustedContinue = true := by
    rcases hAccepts with hComplete | ⟨_, hLimit, hPolicy, rfl, hRuns⟩
    · rw [hContinue] at hComplete
      cases hComplete
    · exact ⟨hAfter.completion.runs hAfter.found hRuns, hLimit, hPolicy⟩
  cases hVerdict with
  | complete _ _ hEffect | exhausted _ _ _ _ _ hEffect =>
      exact ⟨_, (hEffect.decision hAfter.completion hAfter.found).withVersion version,
        hAfter.found, rfl, rfl, rfl, by rw [hMark]; rfl⟩
  | interrupted hContinue _ hInterrupted _ =>
      rw [(hNotInterrupted hContinue).1] at hInterrupted
      cases hInterrupted
  | rerun hContinue _ _ hBelow _ =>
      have hLimit := (hNotInterrupted hContinue).2.1
      omega
  | failed _ _ _ _ hContinue hHistory _ =>
      rcases hHistory with hBlank | ⟨⟨_, _, hPolicy⟩, _⟩
      · rw [hDeciding.feedback hContinue.1] at hBlank
        cases hBlank
      · rw [(hNotInterrupted hContinue.1).2.2] at hPolicy
        cases hPolicy

end Step

/-! ### Acceptance -/

/-- The latest attempt of the task is completed and satisfied. -/
def IsReleased (workflow : WorkflowInstance) (taskId : String) : Prop :=
  ∃ id task, IsAttempt workflow taskId id task ∧ IsLatest workflow taskId task.generationIndex ∧
    task.status = .completed ∧ task.satisfactionStatus = .satisfied

/-- The latest attempt of the task is the accepting attempt `own` or completed,
and it is of the accepted generation or satisfied before. -/
def IsReleasable (workflow : WorkflowInstance) (own : String) (generation : Nat) (taskId : String) :
    Prop :=
  ∃ id task, IsAttempt workflow taskId id task ∧ IsLatest workflow taskId task.generationIndex ∧
    (task.status = .completed ∨ id = own) ∧
    (task.generationIndex = generation ∨ task.satisfactionStatus = .satisfied)

/-- Only completed attempts are satisfied. -/
def SatisfiedCompleted (workflow : WorkflowInstance) : Prop :=
  ∀ id task, workflow.tasks.lookup id = some task → task.satisfactionStatus = .satisfied →
    task.status = .completed

section Accept

variable {before after : WorkflowInstance} {id taskId : String} {task own : TaskInstance}
  {exit : Bool} {slice : List String} {generation : Nat}

/-- An early exit completes nothing that was not completed. -/
theorem TaskInstance.afterExit_completed {a : TaskInstance} :
    (a.afterExit exit).status = .completed ↔ a.status = .completed := by
  unfold TaskInstance.afterExit
  split
  · rename_i h
    rw [h.2]
    simp
  · rfl

/-- Nor does it satisfy anything; it can only take the satisfaction of a
pending attempt away. -/
theorem TaskInstance.afterExit_satisfied {a : TaskInstance}
    (h : (a.afterExit exit).satisfactionStatus = .satisfied) : a.satisfactionStatus = .satisfied := by
  unfold TaskInstance.afterExit at h
  split at h
  · cases h
  · exact h

theorem TaskInstance.afterExit_of_completed {a : TaskInstance} (h : a.status = .completed) :
    a.afterExit exit = a :=
  TaskInstance.afterExit_of_ne_pending (by rw [h]; nofun)

/-- The mark of an acceptance, on an attempt of a task of the slice. -/
theorem Keyed.sliceMark (hKeyed : Keyed before) {key : String} {a : TaskInstance}
    (ha : IsAttempt before taskId key a) (hMem : taskId ∈ slice)
    (satisfaction : TaskSatisfactionStatus) :
    sliceMark slice generation satisfaction key =
      if a.generationIndex = generation then some satisfaction else none := by
  have hKey := hKeyed key a ha.found
  unfold WorkflowEngine.sliceMark
  refine if_congr ?_ rfl rfl
  rw [hKey, ha.taskDefId]
  constructor
  · intro hMarked
    obtain ⟨_, _, hSame⟩ := List.mem_map.mp hMarked
    exact (makeTaskAttemptId_inj.mp hSame).2.symm
  · rintro rfl
    exact List.mem_map_of_mem hMem

/-- An acceptance releases a task of its slice just when the task was
releasable. -/
theorem DecisionEffect.isReleased_iff
    (h : DecisionEffect before after id own exit (sliceMark slice task.generationIndex .satisfied)
      NothingNew)
    (hTask : before.tasks.lookup id = some task) (hKeyed : Keyed before)
    (hNames : own.taskDefId = task.taskDefId ∧ own.generationIndex = task.generationIndex)
    (hOwn : own.status = .completed ∧ own.satisfactionStatus = .satisfied) (hMem : taskId ∈ slice) :
    IsReleased after taskId ↔ IsReleasable before id task.generationIndex taskId := by
  constructor
  · rintro ⟨key, b, hb, hLatest, hStatus, hSatisfied⟩
    rcases h.attempt_origin hTask hNames hb with ⟨a, ha, hGeneration⟩ | ⟨_, hNone⟩
    · rw [h.isLatest hTask hNames, hGeneration] at hLatest
      refine ⟨key, a, ha, hLatest, ?_⟩
      by_cases hKey : key = id
      · have hFound := ha.found
        rw [hKey, hTask] at hFound
        cases hFound
        exact ⟨.inr hKey, .inl rfl⟩
      · have hFound := hb.found
        rw [h.kept key a hKey ha.found] at hFound
        cases hFound
        have hCompleted : a.status = .completed := TaskInstance.afterExit_completed.mp hStatus
        refine ⟨.inl hCompleted, ?_⟩
        rw [hKeyed.sliceMark ha hMem] at hSatisfied
        split at hSatisfied
        · rename_i hSame
          exact .inl hSame
        · exact .inr (TaskInstance.afterExit_satisfied hSatisfied)
    · cases hNone
  · rintro ⟨key, a, ha, hLatest, hStatus, hMarked⟩
    obtain ⟨b, hb, hGeneration⟩ := h.attempt_kept hTask hNames ha
    refine ⟨key, b, hb, (h.isLatest hTask hNames).mpr (by rwa [hGeneration]), ?_⟩
    by_cases hKey : key = id
    · have hFound := hb.found
      rw [hKey, h.own] at hFound
      cases hFound
      exact hOwn
    · have hCompleted : a.status = .completed := by
        rcases hStatus with hStatus | hSame
        · exact hStatus
        · exact absurd hSame hKey
      have hFound := hb.found
      rw [h.kept key a hKey ha.found, TaskInstance.afterExit_of_completed hCompleted,
        hKeyed.sliceMark ha hMem] at hFound
      cases hFound
      refine ⟨hCompleted, ?_⟩
      rcases hMarked with hSame | hSatisfied
      · rw [if_pos hSame]
        rfl
      · unfold TaskInstance.marked
        split <;> first | rfl | exact hSatisfied

/-- No attempt but a completed one, or the accepting one, is to be
satisfied. -/
def MarksCompleted (workflow : WorkflowInstance) (own : String) (slice : List String)
    (generation : Nat) : Prop :=
  ∀ taskId ∈ slice, ∀ task,
    workflow.tasks.lookup (makeTaskAttemptId taskId generation) = some task →
    task.status = .completed ∨ makeTaskAttemptId taskId generation = own

/-- A decision keeps the satisfied attempts completed, if it marks completed
ones only. -/
theorem SatisfiedCompleted.of_decision {mark : String → Option TaskSatisfactionStatus}
    {created : String → Option TaskInstance → Prop} (hOld : SatisfiedCompleted before)
    (h : DecisionEffect before after id own exit mark created)
    (hOwn : own.satisfactionStatus = .satisfied → own.status = .completed)
    (hMark : ∀ key a, key ≠ id → before.tasks.lookup key = some a →
      mark key = some .satisfied → a.status = .completed)
    (hNew : ∀ key b, created key (some b) → b.satisfactionStatus ≠ .satisfied) :
    SatisfiedCompleted after := by
  intro key b hb hSatisfied
  by_cases hKey : key = id
  · rw [hKey, h.own] at hb
    cases hb
    exact hOwn hSatisfied
  · cases ha : before.tasks.lookup key with
    | none =>
        have hCreated := h.new key ha
        rw [hb] at hCreated
        exact absurd hSatisfied (hNew key b hCreated)
    | some a =>
        rw [h.kept key a hKey ha] at hb
        cases hb
        apply TaskInstance.afterExit_completed.mpr
        cases hMarked : mark key with
        | none =>
            rw [hMarked] at hSatisfied
            exact hOld key a ha (TaskInstance.afterExit_satisfied hSatisfied)
        | some found =>
            rw [hMarked] at hSatisfied
            have hFound : found = .satisfied := hSatisfied
            exact hMark key a hKey ha (by rw [hMarked, hFound])

/-- An acceptance satisfies completed attempts only just when it is to mark no
others. -/
theorem DecisionEffect.satisfiedCompleted_iff
    (h : DecisionEffect before after id own exit (sliceMark slice generation .satisfied) NothingNew)
    (hOwn : own.status = .completed) (hOld : SatisfiedCompleted before) :
    SatisfiedCompleted after ↔ MarksCompleted before id slice generation := by
  constructor
  · intro hAfter taskId hMem a ha
    by_cases hKey : makeTaskAttemptId taskId generation = id
    · exact .inr hKey
    · have hb := h.kept _ a hKey ha
      left
      apply TaskInstance.afterExit_completed.mp
      have hCompleted := hAfter _ _ hb
      rw [WorkflowEngine.sliceMark, if_pos (List.mem_map_of_mem hMem)] at hCompleted
      exact hCompleted rfl
  · intro hMarks
    refine hOld.of_decision h (fun _ => hOwn) (fun key a hKey ha hMarked => ?_)
      fun key b hNone => by cases hNone
    obtain ⟨_, taskId, hMem, rfl⟩ := sliceMark_some hMarked
    rcases hMarks taskId hMem a ha with hCompleted | hSame
    · exact hCompleted
    · exact absurd hSame hKey

/-- A released task gives what consumes it from outside its slice an input. -/
theorem IsReleased.resolves {workflow : WorkflowInstance} {definition : WorkflowDef}
    {loopSlices : LoopSlices} {verifierId target : String} {binding : DataBinding}
    (h : IsReleased workflow binding.sourceTaskId) (hDef : WellFormedDef definition)
    (hSlices : loopSlices.Perm (computeLoopSlices definition))
    (hSlice : (verifierId, slice) ∈ computeLoopSlices definition)
    (hSource : binding.sourceTaskId ∈ slice) (hTarget : target ∉ slice) :
    (resolveBinding workflow loopSlices target binding).isSome = true := by
  obtain ⟨key, a, ha, _, hStatus, hSatisfied⟩ := h
  have hOutside : resolveSourceAttemptId workflow loopSlices (some target) binding.sourceTaskId =
      latestSatisfiedAttemptId workflow binding.sourceTaskId := by
    refine resolveSourceAttemptId_outside fun entry hEntry hMem => hTarget ?_
    obtain ⟨hIn, hTargetMem⟩ := sliceOf_mem hEntry
    have hSame := hDef.slices_disjoint _ (hSlices.mem_iff.mp hIn) _ hSlice _ hMem hSource
    rw [hSame] at hTargetMem
    exact hTargetMem
  cases hLatest : latestSatisfiedAttemptId workflow binding.sourceTaskId with
  | none =>
      have hNone := FiniteMap.maxKeyBy_none.mp hLatest key a ha.found
      simp [ha.taskDefId, hStatus, hSatisfied] at hNone
  | some found =>
      obtain ⟨task, hTask, _, hCompleted, _⟩ := latestSatisfiedAttemptId_some hLatest
      obtain ⟨entry, hEntry⟩ : ∃ entry, resolveBinding workflow loopSlices target binding =
          some entry := ⟨_, resolveBinding_some.mpr
        ⟨found, task, hOutside.trans hLatest, hTask, hCompleted, rfl⟩⟩
      rw [hEntry]
      rfl

end Accept

/-- A verifier that accepts finds every attempt that it satisfies completed. -/
def AcceptsCompleted (env : EngineEnv) (definition : WorkflowDef) (s : System) (action : Action) :
    Prop :=
  ∀ started slice verifier exit decided, action = .passStep →
    s.Deciding env definition started slice verifier exit decided →
    Accepts s started slice verifier exit decided →
    MarksCompleted s.stored started.taskAttemptId slice started.task.generationIndex

section Run

variable {env : EngineEnv} {definition : WorkflowDef} {start s : System} {reduced : WorkflowInstance}
  {action : Action} {actions : List Action} {events : List WorkflowInstanceEvent}

/-- A quiet commit does too. -/
theorem SatisfiedCompleted.of_quiet {before after : WorkflowInstance} {writer : Writer}
    (h : SatisfiedCompleted before) (hQuiet : Quiet before after)
    (hAfter : AttemptsAfter writer before after) : SatisfiedCompleted after := by
  intro id b hb hSatisfied
  obtain ⟨a, ha, hOld⟩ := hQuiet.satisfied id b hb hSatisfied
  have hCompleted := h id a ha hOld
  obtain ⟨b', hb', hMoves⟩ := hAfter.kept id a ha
  rw [hb] at hb'
  cases hb'
  rw [hMoves.settled (by rw [hCompleted]; rfl)]
  exact hCompleted

/-- Every commit under the condition keeps the satisfied attempts completed. -/
theorem SatisfiedCompleted.commit (hDef : WellFormedDef definition)
    (h : SatisfiedCompleted s.stored) (hMeets : AcceptsCompleted env definition s action)
    (hCommit : Commit env definition s reduced action events)
    (hReduce : reduceWorkflowInstanceEvents (some s.stored) events = .ok reduced) :
    SatisfiedCompleted reduced := by
  have hAfter := hCommit.attemptsAfter hReduce
  cases hCommit with
  | quiet _ hQuiet _ => exact h.of_quiet hQuiet hAfter
  | @result pass started answer result rest hPass hPoint hStatus hSlices hStarted hResult =>
      obtain ⟨_, hTask, hFound, _⟩ := startedTask_eq hStarted.resolved
      have hId := (findTask_some hFound).2
      have hNoMark (key : String) (a : TaskInstance) (_ : key ≠ started.taskAttemptId)
          (_ : s.stored.tasks.lookup key = some a) (hNone : none = some TaskSatisfactionStatus.satisfied) :
          a.status = .completed := by
        cases hNone
      have hNothing (key : String) (b : TaskInstance) (hNone : NothingNew key (some b)) :
          b.satisfactionStatus ≠ .satisfied := by
        cases hNone
      cases hResult.outcome hTask hStarted.running hFound hId.symm hReduce with
      | stopped hEffect _ _ hSatisfaction _ _ =>
          refine h.of_decision (hEffect.decision hTask) (fun hSatisfied => ?_) hNoMark hNothing
          rcases hSatisfaction with hSame | hSame
          · rw [hSame] at hSatisfied
            cases hSatisfied
          · have hRunning := h _ _ hTask (hSame.symm.trans hSatisfied)
            rw [hStarted.running] at hRunning
            cases hRunning
      | plain _ _ _ hEffect _ =>
          exact h.of_decision (hEffect.decision hTask) (fun _ => rfl) hNoMark hNothing
      | @judged schema exit output verifier decided middle state message hVerifier hExit hDecided
          hState hNext hCompletion hVerdict hAnswer =>
          obtain ⟨slice, hSlice⟩ := verifier_slice hFound (by rw [hVerifier]; rfl)
          rw [lookup_slice hDef hSlices hSlice, Option.getD_some] at hVerdict
          obtain rfl := hAnswer.answer
          have hDeciding : s.Deciding env definition started slice verifier exit decided :=
            ⟨hId ▸ hSlice, hVerifier, output, schema, by simp [System.completing, hPass, hPoint],
              hAnswer.hasSchema, hAnswer.fits, hExit, hDecided⟩
          have hAccepted (hAccepts : Accepts s started slice verifier exit decided) :=
            hMeets started slice verifier exit decided rfl hDeciding hAccepts
          have hUnsatisfied (key : String) (a : TaskInstance) (_ : key ≠ started.taskAttemptId)
              (_ : s.stored.tasks.lookup key = some a)
              (hMark : sliceMark slice started.task.generationIndex .unsatisfied key =
                some .satisfied) : a.status = .completed := by
            cases (sliceMark_some hMark).1
          cases hVerdict with
          | complete hDecision _ hEffect =>
              exact ((hEffect.decision hCompletion hTask).satisfiedCompleted_iff rfl h).mpr
                (hAccepted (.inl hDecision))
          | interrupted _ _ _ hEffect =>
              exact h.of_decision (hEffect.decision hCompletion hTask) (fun _ => rfl) hUnsatisfied
                hNothing
          | rerun _ _ _ _ hEffect =>
              refine h.of_decision (hEffect.decision hCompletion hTask) (fun _ => rfl) hUnsatisfied
                fun key b hNew => ?_
              rcases hNew with ⟨_, _, _, hFresh⟩ | ⟨_, hNone⟩
              · cases hFresh
                intro hFalse
                cases hFalse
              · cases hNone
          | exhausted hDecision _ hRuns hLimit hPolicy hEffect =>
              refine ((hEffect.decision hCompletion hTask).satisfiedCompleted_iff rfl h).mpr
                (hAccepted (.inr ⟨hDecision, hLimit, hPolicy, hCompletion.exit_none ?_ hRuns, ?_⟩))
              · exact hId ▸ hDef.verifier_mem hSlice
              · rw [← Bool.not_eq_true] at hRuns ⊢
                exact fun hInterrupted =>
                  hRuns (hCompletion.interrupted hTask hStarted.running hInterrupted)
          | failed _ hMark _ _ _ _ hEffect =>
              refine h.of_decision (hEffect.decision hCompletion hTask) (fun hSatisfied => ?_)
                (fun key a _ _ hSatisfied => ?_) hNothing
              · cases hSatisfied
              · rcases hMark key with hNone | hSome
                · rw [hNone] at hSatisfied
                  cases hSatisfied
                · rw [hSome] at hSatisfied
                  cases hSatisfied

theorem System.StepsMeeting.satisfiedCompleted (hDef : WellFormedDef definition)
    (run : System.StepsMeeting env (AcceptsCompleted env definition) start actions s)
    (hTracked : Tracked env definition start) (hStart : SatisfiedCompleted start.stored) :
    SatisfiedCompleted s.stored := by
  refine (run.keeps hDef hTracked hStart (fun s action events reduced _ h hMeets hCommit hReduce =>
    ?_) fun _ _ h => h).2
  exact h.commit hDef hMeets hCommit hReduce

end Run

/-- An acceptance releases its slice just when every task of the slice is
releasable, and in runs in which verifiers accept completed attempts only, only
such attempts are satisfied. What consumes a released task from outside its
slice has its input. -/
theorem System.Steps.acceptance_releases {env : EngineEnv} {submitted definition : WorkflowDef}
    {id workflowDefId : String} {pinnedWorkerHost : WorkerHostId} {input : Option Json}
    (hAccepted : validateAndNormalizeWorkflowDef submitted = .ok definition)
    (hDefinition : env.definitions workflowDefId = some definition) :
    (∀ actions s s' started slice verifier exit decided,
      System.Steps env (System.created id workflowDefId pinnedWorkerHost input) actions s →
      s.Deciding env definition started slice verifier exit decided →
      Accepts s started slice verifier exit decided →
      s.step env .passStep = some s' → s'.stored ≠ s.stored →
      ((∀ taskId ∈ slice, IsReleased s'.stored taskId) ↔ ∀ taskId ∈ slice,
        IsReleasable s.stored started.taskAttemptId started.task.generationIndex taskId) ∧
      (SatisfiedCompleted s.stored → (SatisfiedCompleted s'.stored ↔
        MarksCompleted s.stored started.taskAttemptId slice started.task.generationIndex))) ∧
    (∀ actions s, System.StepsMeeting env (AcceptsCompleted env definition)
      (System.created id workflowDefId pinnedWorkerHost input) actions s →
      SatisfiedCompleted s.stored) ∧
    ∀ workflow loopSlices verifierId slice binding,
      loopSlices.Perm (computeLoopSlices definition) →
      (verifierId, slice) ∈ computeLoopSlices definition → binding.sourceTaskId ∈ slice →
      binding.targetTaskId ∉ slice → IsReleased workflow binding.sourceTaskId →
      (resolveBinding workflow loopSlices binding.targetTaskId binding).isSome = true := by
  have hDef := validateAndNormalizeWorkflowDef_ok hAccepted
  have hTracked : Tracked env definition (System.created id workflowDefId pinnedWorkerHost input) :=
    .created pinnedWorkerHost input hDefinition
  refine ⟨fun actions s s' started slice verifier exit decided run hDeciding hAccepts hStep
      hCommitted => ?_, fun actions s run => ?_,
    fun workflow loopSlices verifierId slice binding hSlices hSlice hSource hTarget hReleased =>
      hReleased.resolves hDef hSlices hSlice hSource hTarget⟩
  · obtain ⟨l, _, _, hRefines⟩ := run.refines hDefinition
    obtain ⟨own, hEffect, hTask, hDefId, hGeneration, hStatus, hSatisfied⟩ :=
      hRefines.accepts hDef hDeciding hAccepts hStep hCommitted
    exact ⟨forall₂_congr fun taskId hMem => hEffect.isReleased_iff hTask hRefines.sound.key
      ⟨hDefId, hGeneration⟩ ⟨hStatus, hSatisfied⟩ hMem,
      fun hOld => hEffect.satisfiedCompleted_iff hStatus hOld⟩
  · have hNone : SatisfiedCompleted
        (System.created id workflowDefId pinnedWorkerHost input).stored := by
      intro key task hTask
      cases hTask
    exact run.satisfiedCompleted hDef hTracked hNone

/-! ### Reruns -/

/-- The task has a new attempt, which is pending and the latest of the task. -/
def HasNewAttempt (before after : WorkflowInstance) (taskId : String) : Prop :=
  ∃ id task, IsAttempt after taskId id task ∧ before.tasks.lookup id = none ∧
    task.status = .pending ∧ IsLatest after taskId task.generationIndex

section Rerun

variable {before after : WorkflowInstance} {id taskId : String} {task own : TaskInstance}
  {exit : Bool} {mark : String → Option TaskSatisfactionStatus} {slice : List String}
  {generation : Nat}

/-- A rerun gives a task of the slice a new latest attempt just when the task
has no attempt beyond the generation that was rejected. -/
theorem DecisionEffect.hasNewAttempt_iff
    (h : DecisionEffect before after id own exit mark (FreshAt slice (generation + 1)))
    (hTask : before.tasks.lookup id = some task)
    (hNames : own.taskDefId = task.taskDefId ∧ own.generationIndex = task.generationIndex)
    (hKeyed : Keyed before) (hMem : taskId ∈ slice) :
    HasNewAttempt before after taskId ↔ IsLatest before taskId generation := by
  constructor
  · rintro ⟨key, b, hb, hNone, _, hLatest⟩ other a ha
    have hNew := h.new key hNone
    rw [hb.found] at hNew
    rcases hNew with ⟨taskDefId, _, hKey, hFresh⟩ | ⟨_, hNothing⟩
    · cases hFresh
      have hSame : taskDefId = taskId := hb.taskDefId
      subst hSame
      obtain ⟨b', hb', hGeneration⟩ := h.attempt_kept hTask hNames ha
      have hLe : b'.generationIndex ≤ generation + 1 := hLatest other b' hb'
      have hNot : a.generationIndex ≠ generation + 1 := by
        intro hNext
        rw [hKey, ← hNext, ← ha.taskDefId, ← hKeyed other a ha.found, ha.found] at hNone
        cases hNone
      omega
    · cases hNothing
  · intro hLatest
    have hNone : before.tasks.lookup (makeTaskAttemptId taskId (generation + 1)) = none := by
      cases ha : before.tasks.lookup (makeTaskAttemptId taskId (generation + 1)) with
      | none => rfl
      | some a =>
          obtain ⟨hDefId, hGeneration⟩ := makeTaskAttemptId_inj.mp (hKeyed _ a ha)
          have hLe := hLatest _ a ⟨ha, hDefId.symm⟩
          omega
    have hFresh : after.tasks.lookup (makeTaskAttemptId taskId (generation + 1)) =
        some (.fresh taskId (generation + 1)) := by
      rcases h.new _ hNone with ⟨taskDefId, _, hKey, hFresh⟩ | ⟨hNot, _⟩
      · rw [(makeTaskAttemptId_inj.mp hKey).1]
        rw [(makeTaskAttemptId_inj.mp hKey).1] at hFresh
        exact hFresh
      · exact absurd (List.mem_map_of_mem hMem) hNot
    refine ⟨_, _, ⟨hFresh, rfl⟩, hNone, rfl, fun key b hb => ?_⟩
    rcases h.attempt_origin hTask hNames hb with
      ⟨a, ha, hGeneration⟩ | ⟨_, ⟨_, _, _, hFresh⟩ | ⟨_, hNothing⟩⟩
    · rw [hGeneration]
      exact Nat.le_succ_of_le (hLatest key a ha)
    · cases hFresh
      exact Nat.le_refl _
    · cases hNothing

end Rerun

/-- A rerun gives every task of its slice a new latest attempt just when no
task of the slice has an attempt beyond the rejected generation. -/
theorem System.Steps.rerun_fresh {env : EngineEnv} {submitted definition : WorkflowDef}
    {id workflowDefId : String} {pinnedWorkerHost : WorkerHostId} {input : Option Json}
    {actions : List Action} {s s' : System} {started : StartedTask} {slice : List String}
    {verifier : VerifierControlConfig} {decided : VerifierExecutionResult}
    (hAccepted : validateAndNormalizeWorkflowDef submitted = .ok definition)
    (hDefinition : env.definitions workflowDefId = some definition)
    (run : System.Steps env (System.created id workflowDefId pinnedWorkerHost input) actions s)
    (hDeciding : s.Deciding env definition started slice verifier none decided)
    (hDecision : decided.decision = .continue)
    (hBelow : started.task.generationIndex < verifier.maxIterations.toNat)
    (hRuns : sliceInterruptedByExit s.stored slice = false)
    (hStep : s.step env .passStep = some s') (hCommitted : s'.stored ≠ s.stored) :
    (∀ taskId ∈ slice, HasNewAttempt s.stored s'.stored taskId) ↔
      ∀ taskId ∈ slice, IsLatest s.stored taskId started.task.generationIndex := by
  have hDef := validateAndNormalizeWorkflowDef_ok hAccepted
  obtain ⟨l, _, _, hRefines⟩ := run.refines hDefinition
  obtain ⟨own, hEffect, hTask, hNames⟩ :=
    hRefines.reruns hDef hDeciding hDecision hBelow hRuns hStep hCommitted
  exact forall₂_congr fun taskId hMem =>
    hEffect.hasNewAttempt_iff hTask hNames hRefines.sound.key hMem

/-! The chain, up to the answer of its first review. -/

/-- The decision that the next step of the pass commits. -/
def System.decision (env : EngineEnv) (definition : WorkflowDef) (s : System) :
    Option (StartedTask × List String × VerifierControlConfig × Option String ×
      VerifierExecutionResult) := do
  let (started, output) ← s.completing .passStep
  let slice ← (computeLoopSlices definition).lookup started.task.taskDefId
  let verifier ← taskVerifier started.taskDef
  let schema ← started.taskDef.effectiveOutputSchema.toOption
  let exit ← (exitReason started.taskDef output).toOption
  let decided ← (verifierResultFromOutput output).toOption
  if schemaOk env.ext schema output then some (started, slice, verifier, exit, decided) else none

/-- A result that is there is the one the computation has succeeded with. -/
theorem toOption_some {ε α : Type} {result : Except ε α} {a : α} (h : result.toOption = some a) :
    result = .ok a := by
  cases result with
  | error _ => cases h
  | ok _ =>
      cases h
      rfl

/-- The check of the sample finds a decision. -/
theorem System.Deciding.of_decision {env : EngineEnv} {definition : WorkflowDef} {s : System}
    {started : StartedTask} {slice : List String} {verifier : VerifierControlConfig}
    {exit : Option String} {decided : VerifierExecutionResult}
    (h : s.decision env definition = some (started, slice, verifier, exit, decided)) :
    s.Deciding env definition started slice verifier exit decided := by
  unfold System.decision at h
  obtain ⟨⟨found, output⟩, hCompleting, h⟩ := Option.bind_eq_some_iff.mp h
  obtain ⟨_, hSlice, h⟩ := Option.bind_eq_some_iff.mp h
  obtain ⟨_, hVerifier, h⟩ := Option.bind_eq_some_iff.mp h
  obtain ⟨schema, hSchema, h⟩ := Option.bind_eq_some_iff.mp h
  obtain ⟨_, hExit, h⟩ := Option.bind_eq_some_iff.mp h
  obtain ⟨_, hDecided, h⟩ := Option.bind_eq_some_iff.mp h
  split at h
  · rename_i hFits
    cases h
    obtain ⟨_, _, hList, _⟩ := List.lookup_eq_some_iff.mp hSlice
    refine ⟨?_, hVerifier, output, schema, hCompleting, toOption_some hSchema, hFits,
      toOption_some hExit, toOption_some hDecided⟩
    rw [hList]
    exact List.mem_append_right _ List.mem_cons_self
  · cases h

/-- The answer of the first review, with every attempt of the first
generation. -/
def firstReview (answer : Action) : List Action :=
  startDraft ++ [succeeds] ++ passSteps 5 ++ [succeeds] ++ passSteps 5 ++ [answer, .passStep]

/-- The answer of the first review, after the first edit was continued. -/
def continuedReview (answer : Action) : List Action :=
  startDraft ++ [succeeds] ++ passSteps 5 ++ [asks] ++ passSteps 2 ++
    [.request (.submitHumanInput "edit" .null) 0, .startPass []] ++ passSteps 6 ++ [succeeds] ++
    passSteps 5 ++ [answer, .passStep]

def completes : Action := .answer (.ok (.success (.object [("decision", .string "complete")])))

/-- The decision that is committed next is of the first review of the
chain, its commit is accepted, and the snapshots before and after it pass
the check. -/
def commitsReview (decision : VerifierDecision) (check : WorkflowInstance → WorkflowInstance → Bool)
    (s : System) : Bool :=
  (s.decision chainEnv chainDefinition).any fun (started, slice, verifier, exit, decided) =>
    decided.decision = decision && exit.isNone && verifier.maxIterations = 3 &&
    started.taskAttemptId = "a-review[1]" && started.task.generationIndex = 1 &&
    slice = ["draft", "edit", "a-review"] && !sliceInterruptedByExit s.stored slice &&
    (s.step chainEnv .passStep).any fun s' =>
      s'.stored.version ≠ s.stored.version && check s.stored s'.stored

/-- What the check finds. -/
structure CommitsReview (decision : VerifierDecision)
    (check : WorkflowInstance → WorkflowInstance → Bool) (s s' : System) (started : StartedTask)
    (slice : List String) (verifier : VerifierControlConfig) (decided : VerifierExecutionResult) :
    Prop where
  deciding : s.Deciding chainEnv chainDefinition started slice verifier none decided
  decision : decided.decision = decision
  below : started.task.generationIndex < verifier.maxIterations.toNat
  attempt : started.taskAttemptId = "a-review[1]" ∧ started.task.generationIndex = 1
  isSlice : slice = ["draft", "edit", "a-review"]
  runs : sliceInterruptedByExit s.stored slice = false
  step : s.step chainEnv .passStep = some s'
  committed : s'.stored ≠ s.stored
  checked : check s.stored s'.stored = true

/-- It names the slice, the verifier and the verdict that are committed
next. -/
theorem commitsReview_some {decision : VerifierDecision}
    {check : WorkflowInstance → WorkflowInstance → Bool} {s : System}
    (h : commitsReview decision check s = true) : ∃ s' started slice verifier decided,
      CommitsReview decision check s s' started slice verifier decided := by
  obtain ⟨⟨started, slice, verifier, exit, decided⟩, hDecision, hChecks⟩ :=
    (Option.any_eq_true _ _).mp h
  simp only [Bool.and_eq_true, decide_eq_true_eq, Bool.not_eq_true', Option.isNone_iff_eq_none] at hChecks
  obtain ⟨⟨⟨⟨⟨⟨⟨hDecided, rfl⟩, hLimit⟩, hAttempt⟩, hGeneration⟩, hSlice⟩, hRuns⟩, hAfter⟩ := hChecks
  obtain ⟨s', hStep, hAfter⟩ := (Option.any_eq_true _ _).mp hAfter
  rw [Bool.and_eq_true, decide_eq_true_eq] at hAfter
  refine ⟨s', started, slice, verifier, decided, .of_decision hDecision, hDecided, ?_,
    ⟨hAttempt, hGeneration⟩, hSlice, hRuns, hStep, fun hSame => hAfter.1 (by rw [hSame]), hAfter.2⟩
  rw [hGeneration, hLimit]
  decide

/-- There is no later generation than the first, and its attempts are
completed, but for that of the review. -/
def firstCompleted (before : WorkflowInstance) : Bool :=
  (before.tasks.toList.all fun entry => entry.2.generationIndex ≤ 1) &&
  ["draft", "edit", "a-review"].all fun taskId =>
    (before.tasks.lookup (makeTaskAttemptId taskId 1)).any fun task => task.taskDefId = taskId &&
      task.generationIndex = 1 &&
      (task.status = .completed || makeTaskAttemptId taskId 1 = "a-review[1]")

/-- A bound on the generations of all attempts, evaluated on the sample, makes
that generation the latest. -/
theorem isLatest_of_check {workflow : WorkflowInstance} {generation : Nat}
    (h : (workflow.tasks.toList.all fun entry => entry.2.generationIndex ≤ generation) = true)
    (taskId : String) : IsLatest workflow taskId generation := by
  intro id task hTask
  have hEntry := List.all_eq_true.mp h (id, task) ((FiniteMap.mem_toList _ _).mpr hTask.found)
  exact of_decide_eq_true hEntry

/-- In the sample every task of the slice has one completed attempt, which the
acceptance can release. -/
theorem isReleasable_of_firstCompleted {workflow : WorkflowInstance}
    (h : firstCompleted workflow = true) :
    ∀ taskId ∈ ["draft", "edit", "a-review"], IsReleasable workflow "a-review[1]" 1 taskId := by
  intro taskId hMem
  rw [firstCompleted, Bool.and_eq_true] at h
  obtain ⟨task, hTask, hChecks⟩ := (Option.any_eq_true _ _).mp (List.all_eq_true.mp h.2 taskId hMem)
  simp only [Bool.and_eq_true, Bool.or_eq_true, decide_eq_true_eq] at hChecks
  obtain ⟨⟨hDefId, hGeneration⟩, hStatus⟩ := hChecks
  exact ⟨_, task, ⟨hTask, hDefId⟩, hGeneration ▸ isLatest_of_check h.1 taskId, hStatus,
    .inl hGeneration⟩

/-- A review of the first generation that accepts can be reached. -/
theorem firstReview_completes : (((firstReview completes).foldlM (System.step chainEnv)
    chainStart).filter (commitsReview .complete fun before _ => firstCompleted before)).isSome := by
  decide +kernel

/-- The first review releases the chain. -/
theorem System.Steps.acceptance_releases_first : ∃ s s', System.Steps chainEnv chainStart
    (firstReview completes) s ∧ s.step chainEnv .passStep = some s' ∧
      ∀ taskId ∈ ["draft", "edit", "a-review"], IsReleased s'.stored taskId := by
  have hAccepted : validateAndNormalizeWorkflowDef chainSubmitted = .ok chainDefinition :=
    eq_ok_get chainSubmitted_accepted
  have hDefinition : chainEnv.definitions "chain" = some chainDefinition := rfl
  obtain ⟨hFound, hChecked⟩ :=
    Option.filter_eq_some_iff.mp (Option.some_get firstReview_completes).symm
  obtain ⟨s', started, slice, verifier, decided, h⟩ := commitsReview_some hChecked
  have run : System.Steps chainEnv chainStart (firstReview completes) _ := Run.of_foldlM hFound
  have hReleased := ((System.Steps.acceptance_releases hAccepted hDefinition).1 _ _ _ _ _ _ _ _ run
    h.deciding (.inl h.decision) h.step h.committed).1
  rw [h.isSlice, h.attempt.1, h.attempt.2] at hReleased
  exact ⟨_, s', run, h.step, hReleased.mpr (isReleasable_of_firstCompleted h.checked)⟩

/-- No edit is released, and an attempt is satisfied without being
completed. -/
def editUnreleased (after : WorkflowInstance) : Bool :=
  (after.tasks.toList.all fun entry => entry.2.taskDefId ≠ "edit" ||
    entry.2.status ≠ .completed || entry.2.satisfactionStatus ≠ .satisfied) &&
  after.tasks.toList.any fun entry =>
    entry.2.satisfactionStatus = .satisfied && entry.2.status ≠ .completed

/-- A review that accepts after the edit was continued by a person can be
reached as well. -/
theorem continuedReview_completes : (((continuedReview completes).foldlM (System.step chainEnv)
    chainStart).filter (commitsReview .complete fun _ after => editUnreleased after)).isSome := by
  decide +kernel

/-- After an edit was continued, the first review satisfies the edit that
asked, and not the latest one. -/
theorem continued_edit_unreleased : ∃ s s' started slice verifier decided,
    System.Steps chainEnv chainStart (continuedReview completes) s ∧
      s.Deciding chainEnv chainDefinition started slice verifier none decided ∧
      Accepts s started slice verifier none decided ∧ s.step chainEnv .passStep = some s' ∧
      s'.stored ≠ s.stored ∧ "edit" ∈ slice ∧ ¬IsReleased s'.stored "edit" ∧
      ¬SatisfiedCompleted s'.stored := by
  obtain ⟨hFound, hChecked⟩ :=
    Option.filter_eq_some_iff.mp (Option.some_get continuedReview_completes).symm
  obtain ⟨s', started, slice, verifier, decided, h⟩ := commitsReview_some hChecked
  have hAfter := h.checked
  rw [editUnreleased, Bool.and_eq_true] at hAfter
  refine ⟨_, s', started, slice, verifier, decided, Run.of_foldlM hFound, h.deciding,
    .inl h.decision, h.step, h.committed, by rw [h.isSlice]; decide, ?_, fun hCompleted => ?_⟩
  · rintro ⟨id, task, hTask, _, hStatus, hSatisfied⟩
    have hEntry := List.all_eq_true.mp hAfter.1 (id, task)
      ((FiniteMap.mem_toList _ _).mpr hTask.found)
    simp [hTask.taskDefId, hStatus, hSatisfied] at hEntry
  · obtain ⟨⟨id, task⟩, hEntry, hSatisfied⟩ := List.any_eq_true.mp hAfter.2
    have hTask := (FiniteMap.mem_toList _ _).mp hEntry
    rw [Bool.and_eq_true, decide_eq_true_eq, decide_eq_true_eq] at hSatisfied
    exact hSatisfied.2 (hCompleted id task hTask hSatisfied.1)

theorem firstReview_continues : (((firstReview (.answer reviewAnswer)).foldlM (System.step chainEnv)
    chainStart).filter (commitsReview .continue fun before _ => before.tasks.toList.all fun entry =>
      entry.2.generationIndex ≤ 1)).isSome := by
  decide +kernel

/-- The first review sends the whole chain back. -/
theorem System.Steps.rerun_fresh_first : ∃ s s', System.Steps chainEnv chainStart
    (firstReview (.answer reviewAnswer)) s ∧ s.step chainEnv .passStep = some s' ∧
      ∀ taskId ∈ ["draft", "edit", "a-review"], HasNewAttempt s.stored s'.stored taskId := by
  have hAccepted : validateAndNormalizeWorkflowDef chainSubmitted = .ok chainDefinition :=
    eq_ok_get chainSubmitted_accepted
  have hDefinition : chainEnv.definitions "chain" = some chainDefinition := rfl
  obtain ⟨hFound, hChecked⟩ :=
    Option.filter_eq_some_iff.mp (Option.some_get firstReview_continues).symm
  obtain ⟨s', started, slice, verifier, decided, h⟩ := commitsReview_some hChecked
  have run : System.Steps chainEnv chainStart (firstReview (.answer reviewAnswer)) _ :=
    Run.of_foldlM hFound
  have hFresh := System.Steps.rerun_fresh hAccepted hDefinition run h.deciding h.decision h.below
    h.runs h.step h.committed
  rw [h.isSlice, h.attempt.2] at hFresh
  exact ⟨_, s', run, h.step, hFresh.mpr fun taskId _ => isLatest_of_check h.checked taskId⟩

/-- Sent back after the continuation, the edit gets no attempt of its own. -/
theorem continuedReview_continues : (((continuedReview (.answer reviewAnswer)).foldlM
    (System.step chainEnv) chainStart).filter (commitsReview .continue fun before after =>
      after.tasks.toList.all fun entry => entry.2.taskDefId ≠ "edit" ||
        (before.tasks.lookup entry.1).isSome)).isSome := by
  decide +kernel

/-- After an edit was continued, the first review sends the chain back, and no
edit is new. -/
theorem continued_edit_not_rerun : ∃ s s' started slice verifier decided,
    System.Steps chainEnv chainStart (continuedReview (.answer reviewAnswer)) s ∧
      s.Deciding chainEnv chainDefinition started slice verifier none decided ∧
      decided.decision = .continue ∧
      started.task.generationIndex < verifier.maxIterations.toNat ∧
      sliceInterruptedByExit s.stored slice = false ∧ s.step chainEnv .passStep = some s' ∧
      s'.stored ≠ s.stored ∧ "edit" ∈ slice ∧ ¬HasNewAttempt s.stored s'.stored "edit" := by
  obtain ⟨hFound, hChecked⟩ :=
    Option.filter_eq_some_iff.mp (Option.some_get continuedReview_continues).symm
  obtain ⟨s', started, slice, verifier, decided, h⟩ := commitsReview_some hChecked
  refine ⟨_, s', started, slice, verifier, decided, Run.of_foldlM hFound, h.deciding, h.decision,
    h.below, h.runs, h.step, h.committed, by rw [h.isSlice]; decide, ?_⟩
  rintro ⟨id, task, hTask, hNone, _⟩
  have hEntry := List.all_eq_true.mp h.checked (id, task)
    ((FiniteMap.mem_toList _ _).mpr hTask.found)
  rw [hNone] at hEntry
  simp [hTask.taskDefId] at hEntry

end RelayFold
