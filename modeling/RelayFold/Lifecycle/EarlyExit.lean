import RelayFold.Lifecycle.HumanInput

/-! What an early exit skips is never taken up again. -/
namespace RelayFold

open WorkflowEngine WorkflowStateManager WorkflowService FallibleFold

/-- The attempt has not been answered. -/
def TaskStatus.isUnfinished : TaskStatus → Bool
  | pending | running | skipped => true
  | _ => false

/-- Attempts that were not answered have no output. -/
def OutputsFinished (workflow : WorkflowInstance) : Prop :=
  ∀ id task, workflow.tasks.lookup id = some task → task.status.isUnfinished = true →
    task.outputData = none

/-- No skipped attempt is satisfied. -/
def SkippedUnsatisfied (workflow : WorkflowInstance) : Prop :=
  ∀ id task, workflow.tasks.lookup id = some task → task.status = .skipped →
    task.satisfactionStatus ≠ .satisfied

section Tasks

variable {a : TaskInstance} {exit : Bool} {mark : Option TaskSatisfactionStatus}

/-- What is unfinished after an early exit was so before. -/
theorem TaskInstance.afterExit_unfinished
    (h : (a.afterExit exit).status.isUnfinished = true) : a.status.isUnfinished = true := by
  unfold TaskInstance.afterExit at h
  split at h
  · rename_i hExit
    rw [hExit.2]
    rfl
  · exact h

theorem TaskInstance.afterExit_outputData : (a.afterExit exit).outputData = a.outputData := by
  unfold TaskInstance.afterExit
  split <;> rfl

/-- An attempt that is skipped after an answer was skipped before, or the
answer has skipped it. -/
theorem TaskInstance.afterExit_skipped (h : (a.afterExit exit).status = .skipped) :
    a.afterExit exit = a ∧ a.status = .skipped ∨
      exit = true ∧ a.status = .pending ∧ (a.afterExit exit).satisfactionStatus = .unsatisfied := by
  unfold TaskInstance.afterExit at h ⊢
  split at h
  · rename_i hExit
    rw [if_pos hExit]
    exact .inr ⟨hExit.1, hExit.2, rfl⟩
  · rename_i hExit
    rw [if_neg hExit]
    exact .inl ⟨rfl, h⟩

end Tasks

section Result

variable {ext : Externals} {workflow reduced : WorkflowInstance} {loopSlices : LoopSlices}
  {id : String} {task : TaskInstance} {taskDef : TaskDef} {inputs : ResolvedTaskInputs} {answer : Answer}
  {result : ResultCommit}

/-- An answer finishes its attempt. -/
theorem WorkflowEngine.Outcome.own_finished
    (h : Outcome ext workflow reduced loopSlices id task taskDef inputs answer result) :
    ∃ own, reduced.tasks.lookup id = some own ∧ own.status.isUnfinished = false := by
  cases h with
  | @stopped own _ hEffect hStatus _ _ _ _ =>
      refine ⟨own, hEffect.own, ?_⟩
      cases hOwn : own.status with
      | failed | inputNeeded _ | completed => rfl
      | pending | running | skipped =>
          rw [hOwn] at hStatus
          rcases hStatus with hStatus | hStatus <;> cases hStatus
  | plain _ _ _ hEffect _ => exact ⟨_, hEffect.own, rfl⟩
  | judged _ _ _ _ _ hCompletion hVerdict _ =>
      cases hVerdict with
      | complete _ _ hEffect | interrupted _ _ _ hEffect | rerun _ _ _ _ hEffect
      | exhausted _ _ _ _ _ hEffect | failed _ _ _ _ _ _ hEffect =>
          exact ⟨_, by rw [hEffect.own, hCompletion.own]; rfl, rfl⟩

/-- Outputs belong to finished attempts after a result as before: the attempt
gets its output with its completion. -/
theorem WorkflowEngine.Outcome.outputsFinished
    (h : Outcome ext workflow reduced loopSlices id task taskDef inputs answer result)
    (hTask : workflow.tasks.lookup id = some task) (hOld : OutputsFinished workflow) :
    OutputsFinished reduced := by
  intro key b hb hUnfinished
  obtain ⟨exit, hFrame⟩ := h.frame hTask
  by_cases hKey : key = id
  · obtain ⟨own, hOwn, hFinished⟩ := h.own_finished
    rw [hKey, hOwn] at hb
    cases hb
    rw [hFinished] at hUnfinished
    cases hUnfinished
  · cases ha : workflow.tasks.lookup key with
    | none =>
        obtain ⟨_, _, _, _, _, _, rfl⟩ := hFrame.new key b ha hb
        rfl
    | some a =>
        obtain ⟨mark, hAfter⟩ := hFrame.kept key a hKey ha
        rw [hb] at hAfter
        cases hAfter
        rw [TaskInstance.marked, TaskInstance.afterExit_outputData]
        exact hOld key a ha (TaskInstance.afterExit_unfinished hUnfinished)

end Result

/-- Every commit keeps the attempts without an answer without an output. -/
theorem WriteEffect.outputsFinished {definition : WorkflowDef} {l : Lifecycle}
    {reduced : WorkflowInstance} {writer : Writer} (h : WriteEffect definition l reduced writer)
    (hOld : OutputsFinished l.stored) : OutputsFinished reduced := by
  intro key b hb hUnfinished
  cases h with
  | status _ hTasks _ =>
      rw [hTasks] at hb
      exact hOld key b hb hUnfinished
  | initialTasks _ hTasks _ _ =>
      obtain ⟨_, _, _, rfl⟩ := hTasks key b hb
      rfl
  | initialGenerations _ _ hAfter =>
      rw [hAfter.tasks] at hb
      exact hOld key b hb hUnfinished
  | @start id task _ hTask hPending hTasks _ =>
      rw [hTasks] at hb
      split at hb
      · cases hb
        exact hOld id task hTask (by rw [hPending]; rfl)
      · exact hOld key b hb hUnfinished
  | result _ hTask _ _ _ hOutcome =>
      exact hOutcome.outputsFinished hTask hOld key b hb hUnfinished
  | humanInput _ _ _ hTasks _ =>
      rw [hTasks] at hb
      split at hb
      · cases hb
        rfl
      · exact hOld key b hb hUnfinished
  | retry _ _ hTasks _ =>
      rw [hTasks] at hb
      split at hb
      · cases hb
        rfl
      · exact hOld key b hb hUnfinished
  | recover hTasks _ =>
      rw [hTasks] at hb
      split at hb
      · obtain ⟨a, ha, rfl⟩ := Option.map_eq_some_iff.mp hb
        unfold TaskInstance.recovered at hUnfinished ⊢
        split at hUnfinished
        · rename_i hRunning
          rw [if_pos hRunning]
          exact hOld key a ha (by rw [hRunning]; rfl)
        · rename_i hRunning
          rw [if_neg hRunning]
          exact hOld key a ha hUnfinished
      · exact hOld key b hb hUnfinished

/-- The attempt for which the step commits the answer `Success`, with its
output. -/
def System.completing (s : System) : Action → Option (StartedTask × Json)
  | .passStep =>
      match s.pass with
      | .active pass =>
          match pass.point with
          | .commitResult started (.ok (.success output)) _ _ _ => some (started, output)
          | _ => none
      | _ => none
  | _ => none

/-- A verifier that answers complete, with a valid output, finds no attempt of
its generation in its slice skipped, nor pending if its own output exits. -/
def AcceptsUnskipped (env : EngineEnv) (definition : WorkflowDef) (s : System) (action : Action) :
    Prop :=
  ∀ started output schema exit, s.completing action = some (started, output) →
    ValidAnswer env.ext started.taskDef schema (.ok (.success output)) output →
    exitReason started.taskDef output = .ok exit →
    (verifierResultFromOutput output).toOption.map (·.decision) = some .complete →
    ∀ slice, (started.task.taskDefId, slice) ∈ computeLoopSlices definition →
    ∀ taskId ∈ slice, ∀ task,
      s.stored.tasks.lookup (makeTaskAttemptId taskId started.task.generationIndex) = some task →
      task.status ≠ .skipped ∧ (exit.isSome → task.status ≠ .pending)

section Commit

variable {env : EngineEnv} {definition : WorkflowDef} {s : System} {reduced : WorkflowInstance}
  {action : Action} {events : List WorkflowInstanceEvent}

/-- A slice is interrupted exactly when one of its tasks has a skipped attempt
or one that has exited. -/
theorem sliceInterruptedByExit_iff {workflow : WorkflowInstance} {slice : List String} :
    sliceInterruptedByExit workflow slice = true ↔ ∃ id task, workflow.tasks.lookup id = some task ∧
      task.taskDefId ∈ slice ∧ (task.status = .skipped ∨ task.earlyExit = true) := by
  rw [sliceInterruptedByExit, FiniteMap.anyValue_iff]
  simp

/-- A mark reaches no attempt but those of its generation in its slice. -/
theorem sliceMark_some {slice : List String} {generation : Nat} {key : String}
    {satisfaction found : TaskSatisfactionStatus}
    (h : sliceMark slice generation satisfaction key = some found) :
    found = satisfaction ∧ ∃ taskId ∈ slice, key = makeTaskAttemptId taskId generation := by
  unfold sliceMark at h
  split at h
  · rename_i hMem
    obtain ⟨taskId, hTaskId, hKey⟩ := List.mem_map.mp hMem
    exact ⟨(Option.some.inj h).symm, taskId, hTaskId, hKey.symm⟩
  · cases h

/-- The marks of a slice leave an attempt alone or set the satisfaction that
the verdict gives. -/
theorem sliceMark_cases {slice : List String} {generation : Nat}
    {satisfaction : TaskSatisfactionStatus} (key : String) :
    sliceMark slice generation satisfaction key = none ∨
      sliceMark slice generation satisfaction key = some satisfaction := by
  unfold sliceMark
  split
  · exact .inr rfl
  · exact .inl rfl

/-- A quiet commit satisfies nothing that was skipped. -/
theorem SkippedUnsatisfied.of_quiet {before after : WorkflowInstance}
    (h : SkippedUnsatisfied before) (hQuiet : Quiet before after) : SkippedUnsatisfied after := by
  intro id b hb hSkipped hSatisfied
  obtain ⟨a, ha, hOldSkipped⟩ := hQuiet.skipped id b hb hSkipped
  obtain ⟨a', ha', hOldSatisfied⟩ := hQuiet.satisfied id b hb hSatisfied
  rw [ha] at ha'
  cases ha'
  exact h id a ha hOldSkipped hOldSatisfied

/-- What an exit skips is unsatisfied, and what was skipped before is left as
it was. -/
theorem SkippedUnsatisfied.afterExit {workflow : WorkflowInstance} {key : String}
    {a : TaskInstance} {exit : Bool} (h : SkippedUnsatisfied workflow)
    (ha : workflow.tasks.lookup key = some a) (hSkipped : (a.afterExit exit).status = .skipped) :
    (a.afterExit exit).satisfactionStatus ≠ .satisfied := by
  rcases TaskInstance.afterExit_skipped hSkipped with ⟨hSame, hOld⟩ | ⟨_, _, hUnsatisfied⟩
  · rw [hSame]
    exact h key a ha hOld
  · rw [hUnsatisfied]
    nofun

theorem sliceMark_unsatisfied {slice : List String} {generation : Nat} {key : String} :
    sliceMark slice generation .unsatisfied key ≠ some .satisfied := by
  intro hMarked
  cases (sliceMark_some hMarked).1

/-- A verdict satisfies no skipped attempt if it marks none satisfied and
creates none that is skipped. -/
theorem SkippedUnsatisfied.of_verdict {before middle after : WorkflowInstance}
    {id verifierId : String} {completed : TaskInstance} {exit : Bool}
    {own : TaskInstance → TaskInstance} {mark : String → Option TaskSatisfactionStatus}
    {created : String → Option TaskInstance → Prop} {state : VerifierGenerationState}
    (h : SkippedUnsatisfied before) (hMiddle : CompletionEffect before middle id completed exit)
    (hEffect : VerdictEffect middle after id verifierId own mark created state)
    (hOwn : ∀ b, after.tasks.lookup id = some b → b.status ≠ .skipped)
    (hNew : ∀ key b, created key (some b) → b.status ≠ .skipped)
    (hMark : ∀ key a, key ≠ id → middle.tasks.lookup key = some a → a.status = .skipped →
      mark key ≠ some .satisfied) : SkippedUnsatisfied after := by
  intro key b hb hSkipped hSatisfied
  by_cases hKey : key = id
  · rw [hKey] at hb
    exact hOwn b hb hSkipped
  · cases ha : middle.tasks.lookup key with
    | none =>
        have hCreated := hEffect.new key ha
        rw [hb] at hCreated
        exact hNew key b hCreated hSkipped
    | some a =>
        have hAfter := hEffect.kept key a hKey ha
        rw [hb] at hAfter
        cases hAfter
        rw [hMiddle.kept key hKey] at ha
        obtain ⟨old, hOld, rfl⟩ := Option.map_eq_some_iff.mp ha
        cases hFound : mark key with
        | none =>
            rw [hFound] at hSatisfied
            exact h.afterExit hOld hSkipped hSatisfied
        | some found =>
            rw [hFound] at hSatisfied
            refine hMark key (old.afterExit exit) hKey ?_ hSkipped ?_
            · rw [hMiddle.kept key hKey, hOld]
              rfl
            · rw [hFound]
              exact congrArg some hSatisfied

/-- An answer satisfies no skipped attempt unless it accepts one. -/
theorem SkippedUnsatisfied.of_outcome {ext : Externals} {workflow : WorkflowInstance} {loopSlices : LoopSlices}
    {id : String} {task : TaskInstance} {taskDef : TaskDef} {inputs : ResolvedTaskInputs}
    {answer : Answer} {result : ResultCommit} (h : SkippedUnsatisfied workflow)
    (hOutcome : Outcome ext workflow reduced loopSlices id task taskDef inputs answer result)
    (hKeyed : Keyed workflow)
    (hAccepts : ∀ schema exit output decided, (taskVerifier taskDef).isSome = true →
      ValidAnswer ext taskDef schema answer output → exitReason taskDef output = .ok exit →
      verifierResultFromOutput output = .ok decided → decided.decision = .complete →
      ∀ taskId ∈ (loopSlices.lookup taskDef.id).getD [taskDef.id], ∀ other,
        workflow.tasks.lookup (makeTaskAttemptId taskId task.generationIndex) = some other →
        (other.afterExit exit.isSome).status ≠ .skipped) : SkippedUnsatisfied reduced := by
  have hOwn (own : TaskInstance) (hLookup : reduced.tasks.lookup id = some own) :
      own.status ≠ .skipped := by
    intro hSkipped
    obtain ⟨other, hOther, hFinished⟩ := hOutcome.own_finished
    rw [hLookup] at hOther
    cases hOther
    rw [hSkipped] at hFinished
    cases hFinished
  have hCompletion {own : TaskInstance} {exit : Bool}
      (hEffect : CompletionEffect workflow reduced id own exit) : SkippedUnsatisfied reduced := by
    intro key b hb hSkipped
    by_cases hKey : key = id
    · rw [hKey] at hb
      exact absurd hSkipped (hOwn b hb)
    · rw [hEffect.kept key hKey] at hb
      obtain ⟨a, ha, rfl⟩ := Option.map_eq_some_iff.mp hb
      exact h.afterExit ha hSkipped
  cases hOutcome with
  | stopped hEffect _ _ _ _ _ => exact hCompletion hEffect
  | plain _ _ _ hEffect _ => exact hCompletion hEffect
  | @judged schema exit output verifier decided middle state message hVerifier hExitReason hDecided
      hState hNext hMiddle hVerdict hAnswer =>
      cases hVerdict with
      | complete hDecision _ hEffect =>
          refine h.of_verdict hMiddle hEffect hOwn (fun _ _ hNew => by cases hNew) fun key a hKey ha hSkipped hMark => ?_
          obtain ⟨_, taskId, hMem, rfl⟩ := sliceMark_some hMark
          rw [hMiddle.kept _ hKey] at ha
          obtain ⟨before, hBefore, rfl⟩ := Option.map_eq_some_iff.mp ha
          exact hAccepts schema exit output decided (by rw [hVerifier]; rfl) hAnswer hExitReason
            hDecided hDecision taskId hMem before hBefore hSkipped
      | interrupted _ _ _ hEffect =>
          exact h.of_verdict hMiddle hEffect hOwn (fun _ _ hNew => by cases hNew) fun _ _ _ _ _ => sliceMark_unsatisfied
      | rerun _ _ _ _ hEffect =>
          refine h.of_verdict hMiddle hEffect hOwn (fun key b hNew => ?_) fun _ _ _ _ _ => sliceMark_unsatisfied
          rcases hNew with ⟨_, _, _, hFresh⟩ | ⟨_, hNone⟩
          · cases hFresh
            nofun
          · cases hNone
      | exhausted _ _ hRuns _ _ hEffect =>
          refine h.of_verdict hMiddle hEffect hOwn (fun _ _ hNew => by cases hNew) fun key a hKey ha hSkipped hMark => ?_
          obtain ⟨_, taskId, hMem, rfl⟩ := sliceMark_some hMark
          have hTaskId : a.taskDefId = taskId := by
            rw [hMiddle.kept _ hKey] at ha
            obtain ⟨before, hBefore, rfl⟩ := Option.map_eq_some_iff.mp ha
            rw [TaskInstance.afterExit_taskDefId]
            exact (makeTaskAttemptId_inj.mp (hKeyed _ before hBefore)).1.symm
          rw [sliceInterruptedByExit_iff.mpr ⟨_, a, ha, by rwa [hTaskId], .inl hSkipped⟩] at hRuns
          cases hRuns
      | failed _ hMark _ _ _ _ hEffect =>
          refine h.of_verdict hMiddle hEffect hOwn (fun _ _ hNew => by cases hNew) fun key _ _ _ _ hSatisfied => ?_
          rcases hMark key with hNone | hSome
          · rw [hNone] at hSatisfied
            cases hSatisfied
          · rw [hSome] at hSatisfied
            cases hSatisfied

/-- A commit that accepts no skipped attempt satisfies none. -/
theorem SkippedUnsatisfied.commit (hDef : WellFormedDef definition)
    (h : SkippedUnsatisfied s.stored) (hSound : Sound definition s.stored)
    (hMeets : AcceptsUnskipped env definition s action)
    (hCommit : Commit env definition s reduced action events)
    (hReduce : reduceWorkflowInstanceEvents (some s.stored) events = .ok reduced) :
    SkippedUnsatisfied reduced := by
  cases hCommit with
  | quiet _ hQuiet _ => exact h.of_quiet hQuiet
  | @result pass started answer result rest hPass hPoint hStatus hSlices hStarted hResult =>
      obtain ⟨_, hTask, hFound, _⟩ := startedTask_eq hStarted.resolved
      have hId := (findTask_some hFound).2
      refine h.of_outcome (hResult.outcome hTask hStarted.running hFound hId.symm hReduce) hSound.key
        fun schema exit output decided hVerifier hAnswer hExit hDecided hDecision taskId hMem other
          hOther hSkipped => ?_
      obtain rfl := hAnswer.answer
      have hCompleting : s.completing .passStep = some (started, output) := by
        simp [System.completing, hPass, hPoint]
      obtain ⟨slice, hSlice⟩ := verifier_slice hFound hVerifier
      rw [lookup_slice hDef hSlices hSlice] at hMem
      obtain ⟨hNotSkipped, hNotPending⟩ := hMeets started output schema exit hCompleting hAnswer
        hExit (by simp [hDecided, Except.toOption, hDecision]) slice (hId ▸ hSlice) taskId hMem other
        hOther
      rcases TaskInstance.afterExit_skipped hSkipped with ⟨_, hOld⟩ | ⟨hExits, hPending, _⟩
      · exact hNotSkipped hOld
      · exact hNotPending hExits hPending

end Commit

/-! ### Interrupted slices -/

section Interrupted

variable {definition : WorkflowDef} {workflow middle reduced : WorkflowInstance} {id : String}
  {task : TaskInstance} {slice : List String}

/-- An answer keeps a slice interrupted. -/
theorem WorkflowEngine.CompletionEffect.interrupted {loopSlices : LoopSlices} {taskDef : TaskDef}
    {inputs : ResolvedTaskInputs} {schema : Option JsonSchema} {output : Json} {exit : Bool}
    (h : CompletionEffect workflow middle id
      (completedTask loopSlices taskDef inputs schema output exit task) exit)
    (hTask : workflow.tasks.lookup id = some task) (hRunning : task.status = .running)
    (hInterrupted : sliceInterruptedByExit workflow slice = true) :
    sliceInterruptedByExit middle slice = true := by
  obtain ⟨key, a, ha, hMem, hExits⟩ := sliceInterruptedByExit_iff.mp hInterrupted
  apply sliceInterruptedByExit_iff.mpr
  by_cases hKey : key = id
  · rw [hKey, hTask] at ha
    cases ha
    refine ⟨id, _, h.own, hMem, .inr ?_⟩
    rcases hExits with hSkipped | hExits
    · rw [hRunning] at hSkipped
      cases hSkipped
    · simp [completedTask, hExits]
  · refine ⟨key, a.afterExit exit, by rw [h.kept key hKey, ha]; rfl, ?_, ?_⟩
    · rwa [TaskInstance.afterExit_taskDefId]
    · unfold TaskInstance.afterExit
      split
      · exact .inl rfl
      · exact hExits

/-- A rerun leaves a slice interrupted only if it was. -/
theorem WorkflowEngine.VerdictEffect.interrupted {verifierId : String} {metadata : VerifierAttemptMetadata}
    {mark : String → Option TaskSatisfactionStatus} {generation : Nat} {slice' : List String}
    {state : VerifierGenerationState} (h : VerdictEffect middle reduced id verifierId
      (judged metadata (mark id)) mark (FreshAt slice' generation) state)
    (hInterrupted : sliceInterruptedByExit reduced slice = true) :
    sliceInterruptedByExit middle slice = true := by
  obtain ⟨key, b, hb, hMem, hExits⟩ := sliceInterruptedByExit_iff.mp hInterrupted
  apply sliceInterruptedByExit_iff.mpr
  by_cases hKey : key = id
  · rw [hKey, h.own] at hb
    obtain ⟨a, ha, rfl⟩ := Option.map_eq_some_iff.mp hb
    exact ⟨id, a, ha, hMem, hExits⟩
  · cases ha : middle.tasks.lookup key with
    | none =>
        have hNew := h.new key ha
        rw [hb] at hNew
        rcases hNew with ⟨_, _, _, hFresh⟩ | ⟨_, hNone⟩
        · cases hFresh
          rcases hExits with hSkipped | hExits
          · cases hSkipped
          · cases hExits
        · cases hNone
    | some a =>
        rw [h.kept key a hKey ha] at hb
        cases hb
        exact ⟨key, a, ha, hMem, hExits⟩

/-- A pass creates no attempt of a slice that is interrupted, before the commit
or by it. -/
theorem WriteEffect.interrupted {l : Lifecycle} (hDef : WellFormedDef definition)
    (h : WriteEffect definition l reduced .pass) {verifierId : String}
    (hSlice : (verifierId, slice) ∈ computeLoopSlices definition)
    (hInterrupted : sliceInterruptedByExit l.stored slice = true ∨
      sliceInterruptedByExit reduced slice = true) {key : String} {b : TaskInstance}
    (hb : reduced.tasks.lookup key = some b) (hMem : b.taskDefId ∈ slice) :
    (l.stored.tasks.lookup key).isSome = true := by
  cases hOld : l.stored.tasks.lookup key with
  | some _ => rfl
  | none =>
      exfalso
      cases h with
      | status _ hTasks _ =>
          rw [hTasks, hOld] at hb
          cases hb
      | initialTasks hEmpty hTasks _ _ =>
          rcases hInterrupted with hInterrupted | hInterrupted
          · obtain ⟨id, a, ha, _⟩ := sliceInterruptedByExit_iff.mp hInterrupted
            rw [hEmpty] at ha
            cases ha
          · obtain ⟨id, a, ha, _, hExits⟩ := sliceInterruptedByExit_iff.mp hInterrupted
            obtain ⟨_, _, _, rfl⟩ := hTasks id a ha
            rcases hExits with hExits | hExits <;> cases hExits
      | initialGenerations _ _ hAfter =>
          rw [hAfter.tasks, hOld] at hb
          cases hb
      | start _ hTask _ hTasks _ =>
          rw [hTasks] at hb
          split at hb
          · rename_i hKey
            rw [hKey, hTask] at hOld
            cases hOld
          · rw [hOld] at hb
            cases hb
      | @result ext loopSlices started answer result hSlices hTask hFound hRunning _ hOutcome =>
          have hNoNew {own : TaskInstance} {exit : Bool} {next : WorkflowInstance}
              (hEffect : CompletionEffect l.stored next started.taskAttemptId own exit) :
              next.tasks.lookup key = none := by
            have hKey : key ≠ started.taskAttemptId := by
              rintro rfl
              rw [hTask] at hOld
              cases hOld
            rw [hEffect.kept key hKey, hOld]
            rfl
          cases hOutcome with
          | stopped hEffect _ _ _ _ _ =>
              rw [hNoNew hEffect] at hb
              cases hb
          | plain _ _ _ hEffect _ =>
              rw [hNoNew hEffect] at hb
              cases hb
          | judged hVerifier _ _ _ _ hCompletion hVerdict _ =>
              have hMiddle := hNoNew hCompletion
              cases hVerdict with
              | complete _ _ hEffect | interrupted _ _ _ hEffect | exhausted _ _ _ _ _ hEffect
              | failed _ _ _ _ _ _ hEffect =>
                  have hNothing := hEffect.new key hMiddle
                  rw [hb] at hNothing
                  cases hNothing
              | rerun _ _ hRuns _ hEffect =>
                  obtain ⟨own, hOwn⟩ := verifier_slice hFound (by rw [hVerifier]; rfl)
                  rw [lookup_slice hDef hSlices hOwn, Option.getD_some] at hEffect hRuns
                  have hNew := hEffect.new key hMiddle
                  rw [hb] at hNew
                  rcases hNew with ⟨taskId, hTaskId, _, hFresh⟩ | ⟨_, hNone⟩
                  · cases hFresh
                    have hSame := hDef.slices_disjoint _ hSlice _ hOwn taskId hMem hTaskId
                    cases hSame
                    rcases hInterrupted with hInterrupted | hInterrupted
                    · rw [hCompletion.interrupted hTask hRunning hInterrupted] at hRuns
                      cases hRuns
                    · rw [hEffect.interrupted hInterrupted] at hRuns
                      cases hRuns
                  · cases hNone

end Interrupted

/-! ### Who exits -/

/-- The batch that the next operation of a pass offers to commit. -/
def ActivePass.offered (pass : ActivePass) : List WorkflowInstanceEvent :=
  (pass.batch.map Prod.snd).getD []

/-- The batch that a step offers to commit. -/
def System.offered (env : EngineEnv) (s : System) : Action → List WorkflowInstanceEvent
  | .passStep =>
      match s.pass with
      | .active pass => pass.offered
      | _ => []
  | .request request seen =>
      match s.snapshots[seen]?.map (request.batch env.definitions) with
      | some (.ok (some events)) => events
      | _ => []
  | .recover listed seen _ =>
      match s.snapshots[listed]?, s.snapshots[seen]? with
      | some listed, some seen => (startupRecovery listed seen).getD []
      | _, _ => []
  | _ => []

section Offered

variable {env : EngineEnv} {definition : WorkflowDef} {s s' : System}

/-- What a step of the pass stores is the batch that it offers, on some
base. -/
theorem ActivePass.step_offered {pass : ActivePass} {stored updated : WorkflowInstance}
    {state : PassState} (h : pass.step env stored = (state, some updated)) :
    ∃ base, commitOn stored base pass.offered = .ok updated := by
  have hCommit {base : WorkflowInstance} {events : List WorkflowInstanceEvent}
      {next : WorkflowInstance → PassState}
      (h : ActivePass.commit stored base events next = (state, some updated)) :
      commitOn stored base events = .ok updated := by
    unfold ActivePass.commit at h
    split at h
    · rename_i committed hOn
      cases h
      exact hOn
    · cases h
  unfold ActivePass.step at h
  unfold ActivePass.offered ActivePass.batch
  cases hPoint : pass.point with
  | checkPaused _ _ =>
      simp only [hPoint] at h
      split at h <;> cases h
  | resolveFunction _ _ | awaitAnswer _ _ _ | readCurrent _ _ _ _ =>
      simp only [hPoint] at h
      cases h
  | _ =>
      simp only [hPoint] at h
      exact ⟨_, hCommit h⟩

/-- A step leaves the stored snapshot as it is, or it commits the batch that it
offers. -/
theorem System.step_offered {action : Action} (h : s.step env action = some s') :
    s'.stored = s.stored ∨ ∃ base, commitOn s.stored base (s.offered env action) = .ok s'.stored := by
  have hCommit (base : WorkflowInstance) (events : List WorkflowInstanceEvent) :
      (s.commit base events).stored = s.stored ∨
        commitOn s.stored base events = .ok (s.commit base events).stored := by
    unfold System.commit
    split
    · rename_i hOn
      exact .inr hOn
    · exact .inl rfl
  cases action with
  | startPass order =>
      simp only [System.step] at h
      split at h <;> cases h
      exact .inl rfl
  | crash =>
      cases h
      exact .inl rfl
  | answer result =>
      obtain ⟨pass, _, rfl⟩ := Option.map_eq_some_iff.mp h
      exact .inl rfl
  | passStep =>
      rw [System.step_passStep] at h
      cases h
      rcases hNext : s.pass.step env s.stored with ⟨state, _ | updated⟩
      · exact .inl rfl
      · cases hPass : s.pass with
        | active pass =>
            rw [hPass] at hNext
            simp only [System.offered, hPass]
            exact .inr (ActivePass.step_offered hNext)
        | _ =>
            rw [hPass] at hNext
            cases hNext
  | request request seen =>
      simp only [System.step] at h
      obtain ⟨base, hBase, h⟩ := Option.bind_eq_some_iff.mp h
      split at h
      · rename_i events hBatch
        cases h
        simp only [System.offered, hBase, Option.map_some, hBatch]
        exact (hCommit base events).imp_right fun hOn => ⟨base, hOn⟩
      · cases h
        exact .inl rfl
  | recover listed seen current =>
      simp only [System.step] at h
      obtain ⟨listedWorkflow, hListed, h⟩ := Option.bind_eq_some_iff.mp h
      obtain ⟨seenWorkflow, hSeen, h⟩ := Option.bind_eq_some_iff.mp h
      obtain ⟨base, _, h⟩ := Option.bind_eq_some_iff.mp h
      split at h
      · cases h
      · split at h
        · rename_i events hRecovery
          cases h
          simp only [System.offered, hListed, hSeen, hRecovery, Option.getD_some]
          exact (hCommit base events).imp_right fun hOn => ⟨base, hOn⟩
        · cases h
          exact .inl rfl

/-- The answer that the step commits is a valid output of a task that may exit,
with a reason. -/
def PermitsExit (env : EngineEnv) (definition : WorkflowDef) (s : System) (action : Action)
    (taskAttemptId : String) : Prop :=
  ∃ started output schema reason, s.completing action = some (started, output) ∧
    started.taskAttemptId = taskAttemptId ∧
    definition.findTask started.task.taskDefId = some started.taskDef ∧
    started.taskDef.allowsEarlyExit = true ∧
    started.taskDef.effectiveOutputSchema = .ok schema ∧ schemaOk env.ext schema output = true ∧
    output.get "_workflow_exit_reason" = some (.string reason) ∧ isBlank reason = false

/-- An exit reason is a text in its own field, and it is not blank. -/
theorem workflowExitReason_ok {output : Json} {reason : String}
    (h : workflowExitReason output = .ok (some reason)) :
    output.get "_workflow_exit_reason" = some (.string reason) ∧ isBlank reason = false := by
  unfold workflowExitReason at h
  split at h
  · cases h
  · cases h
  · rename_i found hGet
    split at h
    · cases h
    · rename_i hBlank
      cases h
      exact ⟨hGet, by simpa using hBlank⟩
  · cases h

/-- Only a task that allows early exits can give one. -/
theorem exitReason_ok {taskDef : TaskDef} {output : Json} {reason : String}
    (h : exitReason taskDef output = .ok (some reason)) : taskDef.allowsEarlyExit = true ∧
      output.get "_workflow_exit_reason" = some (.string reason) ∧ isBlank reason = false := by
  unfold exitReason at h
  split at h
  · rename_i hAllows
    exact ⟨hAllows, workflowExitReason_ok h⟩
  · cases h

/-- A result that exits is a valid output with a reason. -/
theorem WorkflowEngine.Recorded.exits {ext : Externals} {workflow : WorkflowInstance}
    {loopSlices : LoopSlices} {id : String} {taskDef : TaskDef} {inputs : ResolvedTaskInputs}
    {answer : Answer} {result : ResultCommit}
    (h : Recorded ext workflow definition loopSlices id taskDef inputs answer result) {key : String}
    (hMem : .taskEarlyExitSet key true ∈ result.events) : key = id ∧
      ∃ output schema reason, answer = .ok (.success output) ∧
        taskDef.effectiveOutputSchema = .ok schema ∧ schemaOk ext schema output = true ∧
        exitReason taskDef output = .ok (some reason) := by
  have hNoExit {schema : Option JsonSchema} {output : Json} : .taskEarlyExitSet key true ∉
      completionEvents loopSlices id taskDef inputs schema output := by
    simp only [completionEvents, inputEvents]
    split <;> split <;> simp
  cases h with
  | inputNeeded _ | dispatchError _ =>
      simp [inputNeededEvents, dispatchErrorEvents, inputEvents] at hMem
  | failure _ | badOutput _ _ => simp [failureEvents, inputEvents, failTaskEvents] at hMem
  | badExit _ _ _ =>
      rcases List.mem_append.mp hMem with hMem | hMem
      · exact absurd hMem hNoExit
      · simp [failTaskEvents] at hMem
  | @completed output schema exit _ hSchema hOk hExit hResult =>
      have hCompletion (hIn : .taskEarlyExitSet key true ∈ completionEvents loopSlices id taskDef
          inputs schema output ++ (if exit.isSome then earlyExitEvents workflow id else [])) :
          key = id ∧ ∃ output' schema reason, Except.ok (ε := String) (ExecutionResult.success output) =
            .ok (.success output') ∧ taskDef.effectiveOutputSchema = .ok schema ∧
            schemaOk ext schema output' = true ∧ exitReason taskDef output' = .ok (some reason) := by
        rcases List.mem_append.mp hIn with hIn | hIn
        · exact absurd hIn hNoExit
        · cases exit with
          | none => simp at hIn
          | some reason =>
              simp [earlyExitEvents] at hIn
              exact ⟨hIn, output, schema, reason, rfl, hSchema, hOk, hExit⟩
      cases hResult with
      | plain _ => exact hCompletion hMem
      | invalid _ _ =>
          rcases List.mem_append.mp hMem with hMem | hMem
          · exact hCompletion hMem
          · simp [invalidVerifierEvents] at hMem
      | decided _ _ _ hTransition =>
          obtain ⟨_, _, _, _, _, _, _, _, rfl⟩ := verifierResultTransition_ok hTransition
          rcases List.mem_append.mp hMem with hMem | hMem
          · exact hCompletion hMem
          · cases (decisionTransition_decision _ _ _ _ _ _ _ _).all _ hMem

/-- An early exit is committed only for an attempt that may exit and has given
its reason in a valid output. -/
theorem Refines.permitsExit {l : Lifecycle} (h : Refines env definition s l) {action : Action}
    {taskAttemptId : String} (hMem : .taskEarlyExitSet taskAttemptId true ∈ s.offered env action) :
    PermitsExit env definition s action taskAttemptId := by
  cases action with
  | startPass _ | answer _ | crash => cases hMem
  | request request seen =>
      exfalso
      simp only [System.offered] at hMem
      split at hMem
      · rename_i events hBatch
        obtain ⟨base, _, hBatch⟩ := Option.map_eq_some_iff.mp hBatch
        cases request with
        | pauseWorkflow =>
            simp only [Request.batch] at hBatch
            split at hBatch <;> cases hBatch <;> simp at hMem
        | resumeWorkflow =>
            simp only [Request.batch] at hBatch
            split at hBatch <;> cases hBatch
            simp at hMem
        | submitHumanInput _ _ =>
            obtain ⟨_, _, hBatch⟩ := bind_ok.mp hBatch
            cases hBatch
            simp at hMem
        | retryTask _ | forceRetryTask _ _ =>
            obtain ⟨_, _, hBatch⟩ := bind_ok.mp hBatch
            cases hBatch
            simp at hMem
        | failPinnedToLostHosts _ =>
            simp only [Request.batch] at hBatch
            split at hBatch
            · cases hBatch
            · split at hBatch <;> cases hBatch
              simp at hMem
      · cases hMem
  | recover listed seen current =>
      exfalso
      simp only [System.offered] at hMem
      split at hMem
      · unfold startupRecovery at hMem
        dsimp only at hMem
        split at hMem <;> simp at hMem
      · cases hMem
  | passStep =>
      have hInv := h.pass
      cases hPass : s.pass with
      | active pass =>
          rw [hPass] at hInv
          have hPoint := hInv.point
          simp only [System.offered, hPass] at hMem
          unfold ActivePass.offered ActivePass.batch at hMem
          unfold PointInv at hPoint
          cases hCase : pass.point with
          | commitResult started answer result base rest =>
              simp only [hCase] at hMem hPoint
              obtain ⟨_, hWorking, hStarted, _, hResult, _⟩ := hPoint
              obtain ⟨hId, output, schema, reason, rfl, hSchema, hOk, hExit⟩ :=
                (resultCommit_ok hResult).exits hMem
              obtain ⟨_, _, hFound, _⟩ := startedTask_eq hStarted.resolved
              exact ⟨started, output, schema, reason, by simp [System.completing, hPass, hCase],
                hId.symm, hFound, (exitReason_ok hExit).1, hSchema, hOk, (exitReason_ok hExit).2⟩
          | commitGenerations events =>
              simp only [hCase] at hMem hPoint
              obtain ⟨_, _, _, rfl⟩ := hPoint
              cases (@materializeEligible_decision taskAttemptId _ _ _ _ _ _).all _ hMem
          | commitInitialTasks =>
              simp only [hCase] at hMem
              simp [initialTaskEvents] at hMem
          | commitInputFailure _ _ =>
              simp only [hCase] at hMem
              simp [failureEvents, inputEvents, failTaskEvents] at hMem
          | _ =>
              simp only [hCase] at hMem
              simp at hMem
      | _ =>
          simp only [System.offered, hPass] at hMem
          cases hMem

end Offered

/-! ### The run -/

/-- The attempt stays skipped: it has no output, it is not satisfied, and no
dispatcher works on it. -/
structure StaysSkipped (s : System) (id : String) : Prop where
  attempt : ∃ task, s.stored.tasks.lookup id = some task ∧ task.status = .skipped ∧
    task.outputData = none ∧ task.satisfactionStatus ≠ .satisfied
  undispatched : ∀ pass started call rest, s.pass = .active pass →
    pass.point = .awaitAnswer started call rest → started.taskAttemptId ≠ id

/-- What every commit that accepts no skipped attempt keeps. -/
structure ExitInv (workflow : WorkflowInstance) : Prop where
  outputs : OutputsFinished workflow
  skipped : SkippedUnsatisfied workflow

section Run

variable {env : EngineEnv} {definition : WorkflowDef} {start s : System} {actions : List Action}

/-- In a run under the condition the skipped attempts stay unsatisfied and only
finished ones have outputs. -/
theorem System.StepsMeeting.exitInv (hDef : WellFormedDef definition)
    (run : System.StepsMeeting env (AcceptsUnskipped env definition) start actions s)
    (hTracked : Tracked env definition start) (hStart : ExitInv start.stored) :
    Tracked env definition s ∧ ExitInv s.stored := by
  refine run.keeps hDef hTracked hStart (fun s action events reduced hState h hMeets hCommit hReduce =>
    ?_) fun workflow version h => ⟨h.outputs, h.skipped⟩
  obtain ⟨l, hRefines, _⟩ := hState
  obtain ⟨plan, hEffect⟩ := hCommit.effect hReduce
  exact ⟨hEffect.outputsFinished h.outputs,
    h.skipped.commit hDef hRefines.sound hMeets hCommit hReduce⟩

/-- The attempt is skipped. -/
def HasSkipped (id : String) (workflow : WorkflowInstance) : Prop :=
  ∃ task, workflow.tasks.lookup id = some task ∧ task.status = .skipped

/-- Whoever is skipped at the start of a run is skipped at its end. -/
theorem System.StepsMeeting.hasSkipped {Meets : System → Action → Prop}
    (hDef : WellFormedDef definition) (run : System.StepsMeeting env Meets start actions s)
    (hTracked : Tracked env definition start) {id : String} (hStart : HasSkipped id start.stored) :
    HasSkipped id s.stored := by
  refine (run.keeps hDef hTracked hStart ?_ fun _ _ h => h).2
  rintro s action events reduced _ ⟨task, hTask, hSkipped⟩ _ hCommit hReduce
  obtain ⟨after, hAfter, hMoves⟩ := (hCommit.attemptsAfter hReduce).kept id task hTask
  refine ⟨after, hAfter, ?_⟩
  rw [hMoves.settled (by rw [hSkipped]; rfl)]
  exact hSkipped

/-- No pass waits for the answer of a skipped attempt. -/
theorem Refines.undispatched {l : Lifecycle} (h : Refines env definition s l) {id : String}
    {task : TaskInstance} (hTask : s.stored.tasks.lookup id = some task)
    (hSkipped : task.status = .skipped) {pass : ActivePass} {started : StartedTask}
    {call : DispatchCall} {rest : List String} (hPass : s.pass = .active pass)
    (hPoint : pass.point = .awaitAnswer started call rest) : started.taskAttemptId ≠ id := by
  rintro rfl
  have hInv := h.pass
  rw [hPass] at hInv
  have hAwait := hInv.point
  unfold PointInv at hAwait
  simp only [hPoint] at hAwait
  obtain ⟨_, hWorking, hStarted, _⟩ := hAwait
  obtain ⟨_, hLookup, _⟩ := startedTask_eq hStarted.resolved
  rw [hWorking.same] at hTask
  have hSame : task = started.task := Option.some.inj (hTask.symm.trans hLookup)
  rw [hSame, hStarted.running] at hSkipped
  cases hSkipped

/-- A new instance has no attempts that could be skipped or have outputs. -/
theorem ExitInv.created (id workflowDefId : String) (pinnedWorkerHost : WorkerHostId)
    (input : Option Json) :
    ExitInv (System.created id workflowDefId pinnedWorkerHost input).stored :=
  ⟨fun key task hTask => (by cases hTask), fun key task hTask => (by cases hTask)⟩

end Run

/-- In runs in which no verifier accepts a skipped attempt, the attempts that
are skipped stay so. In every run, a pass creates no attempt of an interrupted
slice, and whoever exits is permitted to. -/
theorem System.Steps.early_exit_safe {env : EngineEnv} {submitted definition : WorkflowDef}
    {id workflowDefId : String} {pinnedWorkerHost : WorkerHostId} {input : Option Json}
    (hAccepted : validateAndNormalizeWorkflowDef submitted = .ok definition)
    (hDefinition : env.definitions workflowDefId = some definition) :
    (∀ actions s later s₂,
      System.StepsMeeting env (AcceptsUnskipped env definition)
        (System.created id workflowDefId pinnedWorkerHost input) actions s →
      System.StepsMeeting env (AcceptsUnskipped env definition) s later s₂ →
      ∀ taskAttemptId, HasSkipped taskAttemptId s.stored → StaysSkipped s₂ taskAttemptId) ∧
    ∀ actions s,
      System.Steps env (System.created id workflowDefId pinnedWorkerHost input) actions s →
      (∀ s', s.step env .passStep = some s' →
        ∀ verifierId slice, (verifierId, slice) ∈ computeLoopSlices definition →
        sliceInterruptedByExit s.stored slice = true ∨
          sliceInterruptedByExit s'.stored slice = true →
        ∀ key task, s'.stored.tasks.lookup key = some task → task.taskDefId ∈ slice →
          (s.stored.tasks.lookup key).isSome = true) ∧
      ∀ action taskAttemptId, .taskEarlyExitSet taskAttemptId true ∈ s.offered env action →
        PermitsExit env definition s action taskAttemptId := by
  have hDef := validateAndNormalizeWorkflowDef_ok hAccepted
  have hTracked : Tracked env definition (System.created id workflowDefId pinnedWorkerHost input) :=
    .created pinnedWorkerHost input hDefinition
  refine ⟨fun actions s later s₂ run run₂ taskAttemptId hSkipped => ?_, fun actions s run =>
    ⟨fun s' hStep verifierId slice hSlice hInterrupted key task hTask hMem => ?_,
      fun action taskAttemptId hMem => ?_⟩⟩
  · obtain ⟨hMiddle, hInv⟩ := run.exitInv hDef hTracked (.created ..)
    obtain ⟨⟨l, hRefines, _⟩, hInv₂⟩ := run₂.exitInv hDef hMiddle hInv
    obtain ⟨task, hTask, hStatus⟩ := run₂.hasSkipped hDef hMiddle hSkipped
    exact ⟨⟨task, hTask, hStatus, hInv₂.outputs _ task hTask (by rw [hStatus]; rfl),
      hInv₂.skipped _ task hTask hStatus⟩,
      fun pass started call rest hPass hPoint => hRefines.undispatched hTask hStatus hPass hPoint⟩
  · obtain ⟨l, _, _, hRefines⟩ := run.refines hDefinition
    cases hRefines.commits hStep with
    | same hStored =>
        rw [hStored] at hTask
        rw [hTask]
        rfl
    | committed hReduce hStored hCommit =>
        rw [hStored] at hTask hInterrupted
        obtain ⟨_, hEffect⟩ := hCommit.effect hReduce
        exact hEffect.interrupted hDef hSlice hInterrupted hTask hMem
  · obtain ⟨l, _, _, hRefines⟩ := run.refines hDefinition
    exact hRefines.permitsExit hMem

/-! The chain, with a draft and a review that may exit. -/

def exitingSubmitted : WorkflowDef :=
  { chainSubmitted with tasks := chainSubmitted.tasks.map fun task =>
      if task.id = "edit" then task
      else { task with control := some ⟨true, task.control.bind (·.verifier)⟩ } }

/-- Validation accepts the definition whose draft may exit early. -/
theorem exitingSubmitted_accepted :
    (validateAndNormalizeWorkflowDef exitingSubmitted).toOption.isSome := by
  decide +kernel

def exitingDefinition : WorkflowDef :=
  (validateAndNormalizeWorkflowDef exitingSubmitted).toOption.get exitingSubmitted_accepted

def exitingEnv : EngineEnv :=
  { sampleEnv with definitions := fun id => if id = "chain" then some exitingDefinition else none }

def exitAnswer (decision : List (String × Json)) : Action :=
  .answer (.ok (.success (.object (("_workflow_exit_reason", .string "done") :: decision))))

/-- The draft exits, and the others are skipped. -/
def draftExits : List Action := startDraft ++ [exitAnswer []] ++ passSteps 3

/-- The first edit is continued and rejected; the second review, which runs
before the second draft, accepts and exits. -/
def reviewExits : List Action :=
  startDraft ++ [succeeds] ++ passSteps 5 ++ [asks] ++ passSteps 2 ++
    [.request (.submitHumanInput "edit" .null) 0, .startPass []] ++ passSteps 6 ++ [succeeds] ++
    passSteps 5 ++ [.answer reviewAnswer] ++ passSteps 5 ++
    [exitAnswer [("decision", .string "complete")]] ++ passSteps 2

def acceptsNone (s : System) (action : Action) : Bool :=
  (s.completing action).all fun found =>
    (verifierResultFromOutput found.2).toOption.map (·.decision) ≠ some .complete

theorem acceptsUnskipped_of_acceptsNone {env : EngineEnv} {definition : WorkflowDef} {s : System}
    {action : Action} (h : acceptsNone s action = true) :
    AcceptsUnskipped env definition s action := by
  intro started output schema exit hCompleting _ _ hComplete
  rw [acceptsNone, hCompleting] at h
  exact absurd hComplete (of_decide_eq_true h)

def isSkipped (id : String) (s : System) : Bool :=
  (s.stored.tasks.lookup id).any fun task => task.status = .skipped

theorem hasSkipped_of_isSkipped {id : String} {s : System} (h : isSkipped id s = true) :
    HasSkipped id s.stored := by
  obtain ⟨task, hTask, hSkipped⟩ := (Option.any_eq_true _ _).mp h
  exact ⟨task, hTask, of_decide_eq_true hSkipped⟩

/-- The sample run in which the draft exits and the edit is skipped goes
through. -/
theorem draftExits_runs : ((draftExits.foldlM (fun s action =>
    if acceptsNone s action then System.step exitingEnv s action else none) chainStart).filter
      (isSkipped "edit[1]")).isSome := by
  decide +kernel

/-- The edit that the exit of the draft skips stays skipped. -/
theorem System.Steps.early_exit_safe_edit : ∃ s, System.StepsMeeting exitingEnv
    (AcceptsUnskipped exitingEnv exitingDefinition) chainStart draftExits s ∧ StaysSkipped s "edit[1]" := by
  have hAccepted : validateAndNormalizeWorkflowDef exitingSubmitted = .ok exitingDefinition :=
    eq_ok_get exitingSubmitted_accepted
  have hDefinition : exitingEnv.definitions "chain" = some exitingDefinition := rfl
  obtain ⟨hFound, hSkipped⟩ := Option.filter_eq_some_iff.mp (Option.some_get draftExits_runs).symm
  have run : System.StepsMeeting exitingEnv (AcceptsUnskipped exitingEnv exitingDefinition)
      chainStart draftExits _ :=
    (Run.of_guarded hFound).mono fun s action s' hStep =>
      ⟨hStep.1, acceptsUnskipped_of_acceptsNone hStep.2⟩
  exact ⟨_, run, (System.Steps.early_exit_safe hAccepted hDefinition).1 _ _ [] _ run (.nil _) _
    (hasSkipped_of_isSkipped hSkipped)⟩

def skippedSatisfied (id : String) (s : System) : Bool :=
  (s.stored.tasks.lookup id).any fun task =>
    task.status = .skipped && task.satisfactionStatus = .satisfied

/-- The run in which the review exits early while a later generation of its
slice is pending: the second draft is skipped and satisfied. -/
theorem reviewExits_runs : ((reviewExits.foldlM (System.step exitingEnv) chainStart).filter
    (skippedSatisfied "draft[2]")).isSome := by
  decide +kernel

/-- The review skips the second draft and satisfies it in one batch. -/
theorem skipped_draft_satisfied : ∃ s, System.Steps exitingEnv chainStart reviewExits s ∧
    HasSkipped "draft[2]" s.stored ∧ ¬StaysSkipped s "draft[2]" := by
  obtain ⟨hFound, hChecked⟩ := Option.filter_eq_some_iff.mp (Option.some_get reviewExits_runs).symm
  obtain ⟨task, hTask, hBoth⟩ := (Option.any_eq_true _ _).mp hChecked
  rw [Bool.and_eq_true, decide_eq_true_eq, decide_eq_true_eq] at hBoth
  refine ⟨_, Run.of_foldlM hFound, ⟨task, hTask, hBoth.1⟩, fun h => ?_⟩
  obtain ⟨other, hOther, _, _, hUnsatisfied⟩ := h.attempt
  rw [hTask] at hOther
  cases hOther
  exact hUnsatisfied hBoth.2

end RelayFold
