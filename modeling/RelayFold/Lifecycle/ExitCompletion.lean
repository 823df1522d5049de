import RelayFold.Lifecycle.VerifierProgress

/-! A pass that commits an early exit completes the workflow, unless a verifier
has failed. -/
namespace RelayFold

open WorkflowEngine WorkflowStateManager WorkflowService FallibleFold

/-- What an early exit leaves of the attempts and of the verifier states. -/
structure ExitEffect (workflow reduced : WorkflowInstance) (started : StartedTask) (output : Json) :
    Prop where
  decision : ∃ own mark, DecisionEffect workflow reduced started.taskAttemptId own true mark
    NothingNew ∧ own.status = .completed
  decides : taskVerifier started.taskDef ≠ none →
    ∃ decided, verifierResultFromOutput output = .ok decided
  others : ∀ verifierId, verifierId ≠ started.task.taskDefId ∨ taskVerifier started.taskDef = none →
    reduced.verifierStates.lookup verifierId = workflow.verifierStates.lookup verifierId
  own : ∀ decided, taskVerifier started.taskDef ≠ none →
    verifierResultFromOutput output = .ok decided → ∃ state after,
      workflow.verifierStates.lookup started.task.taskDefId = some state ∧
      reduced.verifierStates.lookup started.task.taskDefId = some after ∧
      after.status = if decided.decision = .complete then .accepted else state.status

/-- The output of a verifier that exits holds no decision, and its attempt
fails. -/
structure ExitFails (reduced : WorkflowInstance) (started : StartedTask) (output : Json)
    (result : ResultCommit) : Prop where
  isVerifier : taskVerifier started.taskDef ≠ none
  undecided : ∀ decided, verifierResultFromOutput output ≠ .ok decided
  stops : ∃ error, result.next = .stop (.error error)
  failed : ∃ own, reduced.tasks.lookup started.taskAttemptId = some own ∧ own.status = .failed

section Effect

variable {env : EngineEnv} {definition : WorkflowDef} {workflow middle reduced : WorkflowInstance}
  {loopSlices : LoopSlices} {started : StartedTask} {answer : Answer} {result : ResultCommit}
  {id : String}

/-- A verdict under an early exit accepts the slice, or leaves it
interrupted. -/
theorem ExitEffect.of_verdict {verifier : VerifierControlConfig} {slice : List String}
    {decided : VerifierExecutionResult} {state : VerifierGenerationState} {message : Option String}
    {schema : Option JsonSchema} {reason : String} {output : Json}
    (hTask : workflow.tasks.lookup started.taskAttemptId = some started.task)
    (hId : started.taskDef.id = started.task.taskDefId) (hMem : started.task.taskDefId ∈ slice)
    (hVerifier : taskVerifier started.taskDef = some verifier)
    (hDecided : verifierResultFromOutput output = .ok decided)
    (hState : workflow.verifierStates.lookup started.taskDef.id = some state)
    (hCompletion : CompletionEffect workflow middle started.taskAttemptId
      (completedTask loopSlices started.taskDef started.inputs schema output
        (some reason).isSome started.task) (some reason).isSome)
    (hVerdict : Verdict middle reduced started.taskDef verifier slice started.taskAttemptId
      started.task.generationIndex state decided message) :
    ExitEffect workflow reduced started output ∧ message = none := by
  have hInterrupted (hRuns : sliceInterruptedByExit middle slice = false) : False := by
    cases hCompletion.exit_none hMem hRuns
  have hEffect {own : TaskInstance → TaskInstance}
      {mark : String → Option TaskSatisfactionStatus} {after : VerifierGenerationState}
      (h : VerdictEffect middle reduced started.taskAttemptId started.taskDef.id own mark NothingNew
        after)
      (hOwn : ∀ task : TaskInstance, (own task).status = task.status)
      (hStatus : after.status = if decided.decision = .complete then .accepted else state.status) :
      ExitEffect workflow reduced started output := by
    refine ⟨⟨_, _, h.decision hCompletion hTask, by rw [hOwn]; rfl⟩, fun _ => ⟨decided, hDecided⟩,
      fun verifierId hOther => ?_, fun found _ hFound => ?_⟩
    · have hNot : verifierId ≠ started.taskDef.id := by
        rcases hOther with hOther | hPlain
        · rwa [hId]
        · rw [hVerifier] at hPlain
          cases hPlain
      rw [h.states verifierId hNot, hCompletion.verifierStates]
    · rw [hDecided] at hFound
      cases hFound
      rw [← hId]
      exact ⟨state, after, hState, h.state, hStatus⟩
  cases hVerdict with
  | complete hDecision hMessage h =>
      exact ⟨hEffect h (fun _ => rfl) (by rw [if_pos hDecision]), hMessage⟩
  | interrupted hDecision hMessage _ h =>
      exact ⟨hEffect h (fun _ => rfl) (by rw [if_neg (by rw [hDecision]; nofun)]; rfl), hMessage⟩
  | rerun _ _ hRuns _ _ | exhausted _ _ hRuns _ _ _ => exact (hInterrupted hRuns).elim
  | failed _ _ _ _ hDecision hHistory _ =>
      rcases hHistory with hBlank | ⟨⟨hRuns, _⟩, _⟩
      · rw [verifierResultFromOutput_feedback hDecided hDecision.1] at hBlank
        cases hBlank
      · exact (hInterrupted hRuns).elim

/-- The result of an attempt that exits. -/
theorem Records.exits (hDef : WellFormedDef definition)
    (h : Records env definition workflow reduced loopSlices started answer result)
    (hMem : .taskEarlyExitSet id true ∈ result.events) : ∃ output,
      answer = .ok (.success output) ∧
      (ExitEffect workflow reduced started output ∧ result.next = .checkPause none ∨
        ExitFails reduced started output result) := by
  obtain ⟨_, output, schema, reason, rfl, hSchema, hOk, hExit⟩ := h.recorded.exits hMem
  obtain ⟨_, hTask, hFound, _⟩ := startedTask_eq h.holds.resolved
  have hId := (findTask_some hFound).2
  have hRunning := h.holds.running
  have hReduce := h.reduce
  refine ⟨output, rfl, ?_⟩
  cases h.recorded with
  | badOutput hSchema' hBad =>
      rw [hSchema] at hSchema'
      cases hSchema'
      rw [hOk] at hBad
      cases hBad
  | badExit _ _ hExit' =>
      rw [hExit] at hExit'
      cases hExit'
  | completed hSchema' _ hExit' hResult =>
      rw [hExit] at hExit'
      cases hExit'
      cases hResult with
      | plain hPlain =>
          have hCompletion := completion_effect hTask hRunning hReduce
          refine .inl ⟨⟨⟨_, _, hCompletion.decision hTask, rfl⟩, fun hSome => absurd hPlain hSome,
            fun verifierId _ => hCompletion.verifierStates verifierId,
            fun _ hSome _ => absurd hPlain hSome⟩, rfl⟩
      | invalid hVerifier hUndecided =>
          obtain ⟨middle, hFirst, hRest⟩ := foldlM_append_ok.mp hReduce
          have hEffect := (completion_effect hTask hRunning hFirst).andThen
            (invalidVerifierEvents_own _ _) hRest
          refine .inr ⟨by rw [hVerifier]; nofun, fun decided hDecided => ?_, ⟨_, rfl⟩,
            ⟨_, hEffect.own, rfl⟩⟩
          rw [hUndecided] at hDecided
          cases hDecided
      | decided hVerifier hDecided hMiddle hTransition =>
          obtain ⟨state, hState, hCompletion, hVerdict⟩ := decided_verdict hTask hRunning hFound
            hId.symm hVerifier hDecided hMiddle hTransition hReduce
          obtain ⟨slice, hSlice⟩ := verifier_slice hFound (by rw [hVerifier]; rfl)
          rw [lookup_slice hDef h.slices hSlice, Option.getD_some] at hVerdict
          obtain ⟨hEffect, hMessage⟩ := ExitEffect.of_verdict hTask hId
            (hId ▸ hDef.verifier_mem hSlice) hVerifier hDecided hState hCompletion hVerdict
          exact .inl ⟨hEffect, congrArg AfterCommit.checkPause hMessage⟩

end Effect

/-! ### The rest of the pass -/

/-- No attempt is pending. -/
def NonePending (workflow : WorkflowInstance) : Prop :=
  ∀ id task, workflow.tasks.lookup id = some task → task.status ≠ .pending

section Loop

variable {workflow : WorkflowInstance} {pass : ActivePass} {atEnd : PassState}

/-- With no attempt pending, the search for the next one ends at once. -/
theorem NonePending.nextTask (h : NonePending workflow) {rest : List String}
    (hRest : ∀ id ∈ rest, (workflow.tasks.lookup id).isSome = true) :
    pass.nextTask workflow atEnd rest = atEnd := by
  induction rest with
  | nil => rfl
  | cons id rest ih =>
      obtain ⟨task, hTask⟩ := Option.isSome_iff_exists.mp (hRest id List.mem_cons_self)
      unfold ActivePass.nextTask
      rw [hTask]
      dsimp only
      rw [if_pos (h id task hTask)]
      exact ih fun other hOther => hRest other (List.mem_cons_of_mem _ hOther)

theorem NonePending.startTasks (h : NonePending workflow) :
    pass.startTasks workflow atEnd = atEnd := by
  have hNone : workflow.tasks.toList.filter (fun entry => entry.2.status = .pending) = [] := by
    rw [List.filter_eq_nil_iff]
    intro entry hEntry
    simpa using h entry.1 entry.2 ((FiniteMap.mem_toList ..).mp hEntry)
  unfold ActivePass.startTasks tasksToRun
  rw [hNone]
  rfl

/-- No slice that is eligible, no first generation: the loop over the slices
has nothing to create. -/
theorem materializeEligible_nil {definition : WorkflowDef} {loopSlices rest : LoopSlices}
    {plannedStates plannedAttempts : List String}
    (h : ∀ entry ∈ rest, eligibleStart workflow definition loopSlices entry.1 entry.2 = none) :
    materializeEligible workflow definition loopSlices rest plannedStates plannedAttempts = [] := by
  induction rest with
  | nil => rfl
  | cons entry rest ih =>
      obtain ⟨verifierId, slice⟩ := entry
      have hRest := ih fun other hOther => h other (List.mem_cons_of_mem _ hOther)
      unfold materializeEligible
      split
      · exact hRest
      · rw [h (verifierId, slice) List.mem_cons_self]
        exact hRest

/-- Without pending attempts and without slices to start, the loop ends. -/
theorem NonePending.enterLoop (h : NonePending workflow)
    (hStarts : ∀ entry ∈ pass.loopSlices,
      eligibleStart workflow pass.definition pass.loopSlices entry.1 entry.2 = none) :
    pass.enterLoop workflow = pass.leaveLoop workflow := by
  unfold ActivePass.enterLoop materializeEligibleInitialGenerationEvents
  rw [materializeEligible_nil hStarts]
  exact h.startTasks

end Loop

/-! ### The snapshot after the exit -/

section Snapshot

variable {definition : WorkflowDef} {workflow reduced : WorkflowInstance} {started : StartedTask}
  {output : Json}

/-- An early exit leaves no attempt pending: it has skipped them all. -/
theorem ExitEffect.nonePending (h : ExitEffect workflow reduced started output) :
    NonePending reduced := by
  obtain ⟨own, mark, hEffect, hOwn⟩ := h.decision
  intro key b hb hPending
  by_cases hKey : key = started.taskAttemptId
  · rw [hKey, hEffect.own] at hb
    cases hb
    rw [hOwn] at hPending
    cases hPending
  · cases ha : workflow.tasks.lookup key with
    | none =>
        have hNone := hEffect.new key ha
        rw [hb] at hNone
        cases hNone
    | some a =>
        rw [hEffect.kept key a hKey ha] at hb
        cases hb
        have hStatus : (a.afterExit true).status = .pending := hPending
        unfold TaskInstance.afterExit at hStatus
        split at hStatus
        · cases hStatus
        · rename_i hNot
          exact hNot ⟨rfl, hStatus⟩

/-- It fails none either. -/
theorem ExitEffect.noneFailed (h : ExitEffect workflow reduced started output)
    (hOld : NoneFailed workflow) : NoneFailed reduced := by
  obtain ⟨own, mark, hEffect, hOwn⟩ := h.decision
  intro key b hb hFailed
  by_cases hKey : key = started.taskAttemptId
  · rw [hKey, hEffect.own] at hb
    cases hb
    rw [hOwn] at hFailed
    cases hFailed
  · cases ha : workflow.tasks.lookup key with
    | none =>
        have hNone := hEffect.new key ha
        rw [hb] at hNone
        cases hNone
    | some a =>
        rw [hEffect.kept key a hKey ha] at hb
        cases hb
        have hStatus : (a.afterExit true).status = .failed := hFailed
        unfold TaskInstance.afterExit at hStatus
        split at hStatus
        · cases hStatus
        · exact hOld key a ha hStatus

/-- The slices that have not started are skipped. -/
theorem ExitEffect.starts_none (h : ExitEffect workflow reduced started output)
    (hDef : WellFormedDef definition) (hTask : workflow.tasks.lookup started.taskAttemptId =
      some started.task) (hRunning : started.task.status = .running) (hKeyed : Keyed workflow)
    (hInitialized : TasksInitialized definition workflow)
    (hUnstarted : ∀ verifierId slice, (verifierId, slice) ∈ computeLoopSlices definition →
      workflow.verifierStates.lookup verifierId = none → Unstarted workflow slice)
    {loopSlices : LoopSlices} {entry : String × List String}
    (hEntry : entry ∈ computeLoopSlices definition) :
    eligibleStart reduced definition loopSlices entry.1 entry.2 = none := by
  obtain ⟨verifierId, slice⟩ := entry
  have hBlocked : (sliceInterruptedByExit reduced slice ||
      (reduced.verifierStates.lookup verifierId).isSome) = true := by
    cases hAfter : reduced.verifierStates.lookup verifierId with
    | some _ => simp
    | none =>
        have hBefore : workflow.verifierStates.lookup verifierId = none := by
          by_cases hOther : verifierId ≠ started.task.taskDefId ∨ taskVerifier started.taskDef = none
          · rw [← h.others verifierId hOther, hAfter]
          · rw [not_or, not_not] at hOther
            obtain ⟨decided, hDecided⟩ := h.decides hOther.2
            obtain ⟨_, after, _, hSome, _⟩ := h.own decided hOther.2 hDecided
            rw [← hOther.1, hAfter] at hSome
            cases hSome
        obtain ⟨verifierTask, _, hFound, _⟩ := hDef.slice_verifier hEntry
        obtain ⟨a, ha⟩ := Option.isSome_iff_exists.mp
          (hInitialized.isSome (findTask_mem_taskIds hFound))
        have hDefId := (makeTaskAttemptId_inj.mp (hKeyed _ a ha)).1
        have hMem : a.taskDefId ∈ slice := hDefId ▸ hDef.verifier_mem hEntry
        have hStatus := (hUnstarted verifierId slice hEntry hBefore).status ha hMem
        have hKey : makeTaskAttemptId verifierId 1 ≠ started.taskAttemptId := by
          intro hSame
          rw [hSame, hTask] at ha
          cases ha
          rw [hRunning] at hStatus
          rcases hStatus with hStatus | hStatus <;> cases hStatus
        obtain ⟨own, mark, hEffect, _⟩ := h.decision
        have hSkipped : (a.afterExit true).status = .skipped := by
          rcases hStatus with hPending | hSkipped
          · rw [TaskInstance.afterExit, if_pos ⟨rfl, hPending⟩]
          · rw [TaskInstance.afterExit_of_ne_pending (by rw [hSkipped]; decide)]
            exact hSkipped
        have hInterrupted : sliceInterruptedByExit reduced slice = true :=
          sliceInterruptedByExit_iff.mpr ⟨_, _, hEffect.kept _ a hKey ha,
            (a.afterExit_taskDefId true).symm ▸ hMem, .inl hSkipped⟩
        rw [hInterrupted]
        rfl
  unfold eligibleStart
  rw [if_pos hBlocked]

/-- The test of the source, spelled out: the latest attempt of every task is
completed or skipped, and every verifier state is accepted or belongs to a
slice that has been interrupted. -/
theorem workflowAllCompleted_iff : workflowAllCompleted workflow definition = true ↔
    (∀ taskDef ∈ definition.tasks, ∃ id task,
      latestMaterializedAttemptId workflow taskDef.id = some id ∧
      workflow.tasks.lookup id = some task ∧ (task.status = .completed ∨ task.status = .skipped)) ∧
    ∀ verifierId state, workflow.verifierStates.lookup verifierId = some state →
      state.status = .accepted ∨ state.status = .exhaustedAccepted ∨ state.status = .running ∧
        ∃ slice, (computeLoopSlices definition).lookup verifierId = some slice ∧
          sliceInterruptedByExit workflow slice = true := by
  unfold workflowAllCompleted
  rw [Bool.and_eq_true, List.all_eq_true, List.all_eq_true]
  refine and_congr (forall₂_congr fun taskDef _ => ?_) ?_
  · rw [Option.any_eq_true]
    simp only [Option.bind_eq_some_iff, Bool.or_eq_true, decide_eq_true_eq]
    constructor
    · rintro ⟨task, ⟨id, hId, hTask⟩, hStatus⟩
      exact ⟨id, task, hId, hTask, hStatus⟩
    · rintro ⟨id, task, hId, hTask, hStatus⟩
      exact ⟨task, ⟨id, hId, hTask⟩, hStatus⟩
  · simp only [Prod.forall, FiniteMap.mem_toList, Bool.or_eq_true, Bool.and_eq_true,
      decide_eq_true_eq, Option.any_eq_true, or_assoc]

/-- When nothing is left to do, the workflow has completed unless a verifier
has failed. -/
theorem ProgressInv.allCompleted_iff (h : ProgressInv definition workflow)
    (hDef : WellFormedDef definition) (hKeyed : Keyed workflow)
    (hInitialized : TasksInitialized definition workflow) (hPending : NonePending workflow)
    (hFailed : NoneFailed workflow)
    (hRunning : ∀ id task, workflow.tasks.lookup id = some task → task.status ≠ .running)
    (hAnswered : NoneUnanswered workflow) : workflowAllCompleted workflow definition = true ↔
      ∀ verifierId state, workflow.verifierStates.lookup verifierId = some state →
        state.status ≠ .failed ∧ state.status ≠ .exhaustedFailed := by
  have hNotOpen {id : String} {task : TaskInstance} (hTask : workflow.tasks.lookup id = some task) :
      task.status.isOpen = false := by
    cases hStatus : task.status with
    | pending => exact absurd hStatus (hPending id task hTask)
    | running => exact absurd hStatus (hRunning id task hTask)
    | failed => exact absurd hStatus (hFailed id task hTask)
    | _ => rfl
  rw [workflowAllCompleted_iff]
  constructor
  · rintro ⟨_, hStates⟩ verifierId state hState
    rcases hStates verifierId state hState with hStatus | hStatus | ⟨hStatus, _⟩ <;>
      rw [hStatus] <;> exact ⟨by nofun, by nofun⟩
  · intro hStates
    refine ⟨fun taskDef hMem => ?_, fun verifierId state hState => ?_⟩
    · obtain ⟨first, hFirst⟩ := Option.isSome_iff_exists.mp (hInitialized taskDef hMem)
      have hDefId := (makeTaskAttemptId_inj.mp (hKeyed _ first hFirst)).1
      cases hLatest : latestMaterializedAttemptId workflow taskDef.id with
      | none =>
          have hNone := FiniteMap.maxKeyBy_none.mp hLatest _ first hFirst
          simp [← hDefId] at hNone
      | some id =>
          obtain ⟨task, hTask, hTaskDef, hMax⟩ := latestMaterializedAttemptId_some hLatest
          refine ⟨id, task, rfl, hTask, ?_⟩
          have hOpen := hNotOpen hTask
          cases hStatus : task.status with
          | completed => exact .inl rfl
          | skipped => exact .inr rfl
          | pending | running | failed =>
              rw [hStatus] at hOpen
              cases hOpen
          | inputNeeded _ =>
              exfalso
              cases hNext : workflow.tasks.lookup
                  (makeTaskAttemptId task.taskDefId (task.generationIndex + 1)) with
              | none => exact hAnswered id task ⟨hTask, by rw [hStatus]; rfl, hNext⟩
              | some next =>
                  obtain ⟨hNextDef, hGeneration⟩ := makeTaskAttemptId_inj.mp (hKeyed _ next hNext)
                  have hLe := hMax _ next hNext (hNextDef.symm.trans hTaskDef)
                  omega
    · obtain ⟨hNotFailed, hNotExhausted⟩ := hStates verifierId state hState
      cases hStatus : state.status with
      | accepted => exact .inl rfl
      | exhaustedAccepted => exact .inr (.inl rfl)
      | failed => exact absurd hStatus hNotFailed
      | exhaustedFailed => exact absurd hStatus hNotExhausted
      | running =>
          obtain ⟨slice, hSlice⟩ := h.ofVerifiers verifierId state hState
          refine .inr (.inr ⟨rfl, slice, lookup_slice hDef (.refl _) hSlice, ?_⟩)
          rcases h.running verifierId slice hSlice state hState hStatus with hHalted | hMay
          · exact hHalted.interrupted
          · exfalso
            obtain ⟨id, task, hTask, hOpen | hWaits⟩ := hMay
            · rw [hNotOpen hTask.found] at hOpen
              cases hOpen
            · exact hAnswered id task hWaits

end Snapshot

/-- Left alone, the pass goes on until it ends. -/
def System.EndsAlone (env : EngineEnv) (s s' : System) : Prop :=
  ∃ count, System.Steps env s (passSteps count) s' ∧ ∃ result, s'.pass = .finished result

section Ends

variable {env : EngineEnv} {s s' : System}

/-- A pass that has ended takes no further step that changes anything. -/
theorem System.step_finished {result : PassResult} (h : s.pass = .finished result) :
    s.step env .passStep = some s := by
  simp only [System.step, h, PassState.step]
  rw [← h]
  rfl

/-- Left alone, it stays where it is. -/
theorem System.Steps.of_finished {result : PassResult} (h : s.pass = .finished result) {count : Nat}
    (run : System.Steps env s (passSteps count) s') : s' = s := by
  have hAll : ∀ action ∈ passSteps count, action = .passStep := fun action hMem =>
    List.eq_of_mem_replicate hMem
  refine (run.labelled hAll).invariant (P := fun t => t = s) rfl ?_
  rintro t action t' rfl ⟨hStep, rfl⟩
  rw [System.step_finished h] at hStep
  exact (Option.some.inj hStep).symm

theorem System.EndsAlone.of_finished {result : PassResult} (h : s.pass = .finished result) :
    s.EndsAlone env s' ↔ s' = s := by
  constructor
  · rintro ⟨count, run, _⟩
    exact run.of_finished h
  · rintro rfl
    exact ⟨0, .nil _, result, h⟩

/-- A step takes a pass that has not ended towards its end. -/
theorem System.EndsAlone.of_step {next : System} (hStep : s.step env .passStep = some next)
    (hGoes : ∀ result, s.pass ≠ .finished result) :
    s.EndsAlone env s' ↔ next.EndsAlone env s' := by
  constructor
  · rintro ⟨count, run, result, hEnd⟩
    cases count with
    | zero =>
        rw [Run.of_nil run] at hEnd
        exact absurd hEnd (hGoes result)
    | succ count =>
        obtain ⟨middle, hFirst, hRest⟩ := run.of_cons
        rw [hStep] at hFirst
        cases hFirst
        exact ⟨count, hRest, result, hEnd⟩
  · rintro ⟨count, run, hEnd⟩
    have hAll : System.Steps env s ([.passStep] ++ passSteps count) s' := (Run.single hStep).trans run
    exact ⟨count + 1, hAll, hEnd⟩

/-- A pass that is to complete the workflow completes it, if nobody else has
written. -/
theorem System.EndsAlone.of_completing {pass : ActivePass} (hPass : s.pass = .active pass)
    (hPoint : pass.point = .commitCompleted ∨ pass.point = .commitPauseCompleted)
    (hHeld : pass.workflow = s.stored) :
    (∃ s', s.EndsAlone env s') ∧ ∀ s', s.EndsAlone env s' → s'.stored.status = .completed := by
  let completed : WorkflowInstance := { s.stored with status := .completed }
  have hReduce : reduceWorkflowInstanceEvents (some s.stored) [.workflowStatusChanged .completed] =
      .ok completed := rfl
  have hCommit := commitOn_stored (List.cons_ne_nil _ _) hReduce
  let next : System := (s.saved (completed.withVersion (s.stored.version + 1))).setPass (.finished .ok)
  have hStep : s.step env .passStep = some next := by
    rcases hPoint with hPoint | hPoint <;>
      simp only [System.step, hPass, PassState.step, ActivePass.step, hPoint, ActivePass.commit,
        hHeld, hCommit] <;> rfl
  have hGoes (result : PassResult) : s.pass ≠ .finished result := by
    rw [hPass]
    intro hFalse
    cases hFalse
  have hEnds {last : System} : s.EndsAlone env last ↔ last = next :=
    (System.EndsAlone.of_step hStep hGoes).trans (System.EndsAlone.of_finished rfl)
  exact ⟨⟨next, hEnds.mpr rfl⟩, fun last hLast => by rw [hEnds.mp hLast]; rfl⟩

/-- A pass that is at its end completes the workflow if everything is
completed. -/
theorem System.EndsAlone.of_leaving {definition : WorkflowDef} {pass : ActivePass}
    {point : PassPoint} (hPoint : point = .commitCompleted ∨ point = .commitPauseCompleted)
    (hPass : s.pass = if workflowAllCompleted s.stored definition then pass.goOn s.stored point
      else .finished .ok) (hStatus : s.stored.status ≠ .completed) :
    (∃ s', s.EndsAlone env s') ∧ ∀ s', s.EndsAlone env s' →
      (s'.stored.status = .completed ↔ workflowAllCompleted s.stored definition = true) := by
  cases hAll : workflowAllCompleted s.stored definition with
  | true =>
      rw [hAll, if_pos rfl] at hPass
      have hCompleting : (∃ s', s.EndsAlone env s') ∧
          ∀ s', s.EndsAlone env s' → s'.stored.status = .completed :=
        System.EndsAlone.of_completing hPass hPoint rfl
      obtain ⟨hEnds, hCompleted⟩ := hCompleting
      exact ⟨hEnds, fun s' hEnd => iff_of_true (hCompleted s' hEnd) rfl⟩
  | false =>
      rw [hAll, if_neg (by decide)] at hPass
      have hEnds {last : System} : s.EndsAlone env last ↔ last = s :=
        System.EndsAlone.of_finished hPass
      refine ⟨⟨s, hEnds.mpr rfl⟩, fun s' hEnd => ?_⟩
      rw [hEnds.mp hEnd]
      exact iff_of_false hStatus (by decide)

end Ends

/-! ### The step that commits the exit -/

/-- The attempt that completes with the step is none of a verifier without a
decision, and no verifier has failed, but the one that completes and decides
that its slice is complete. -/
def ExitCompletes (s : System) : Prop :=
  ∀ started output, s.completing .passStep = some (started, output) →
    (taskVerifier started.taskDef ≠ none →
      ∃ decided, verifierResultFromOutput output = .ok decided) ∧
    ∀ verifierId state, s.stored.verifierStates.lookup verifierId = some state →
      state.status = .failed ∨ state.status = .exhaustedFailed →
      verifierId = started.task.taskDefId ∧
        ∃ decided, verifierResultFromOutput output = .ok decided ∧ decided.decision = .complete

section Exit

variable {env : EngineEnv} {definition : WorkflowDef} {s s' : System}

/-- Which verifiers have failed after an exit. -/
theorem ExitEffect.noneFailed_iff {workflow reduced : WorkflowInstance} {started : StartedTask}
    {output : Json} (h : ExitEffect workflow reduced started output)
    (hPlain : taskVerifier started.taskDef = none →
      workflow.verifierStates.lookup started.task.taskDefId = none) :
    (∀ verifierId state, reduced.verifierStates.lookup verifierId = some state →
      state.status ≠ .failed ∧ state.status ≠ .exhaustedFailed) ↔
    ∀ verifierId state, workflow.verifierStates.lookup verifierId = some state →
      state.status = .failed ∨ state.status = .exhaustedFailed →
      verifierId = started.task.taskDefId ∧
        ∃ decided, verifierResultFromOutput output = .ok decided ∧ decided.decision = .complete := by
  by_cases hVerifier : taskVerifier started.taskDef = none
  · have hSame (verifierId : String) : reduced.verifierStates.lookup verifierId =
        workflow.verifierStates.lookup verifierId := h.others verifierId (.inr hVerifier)
    constructor
    · intro hNone verifierId state hState hFailed
      obtain ⟨hNot, hNotExhausted⟩ := hNone verifierId state (by rw [hSame, hState])
      rcases hFailed with hFailed | hFailed
      · exact absurd hFailed hNot
      · exact absurd hFailed hNotExhausted
    · intro hOwn verifierId state hState
      rw [hSame] at hState
      have hAbsent (hFailed : state.status = .failed ∨ state.status = .exhaustedFailed) : False := by
        obtain ⟨rfl, _⟩ := hOwn verifierId state hState hFailed
        rw [hPlain hVerifier] at hState
        cases hState
      exact ⟨fun hFailed => hAbsent (.inl hFailed), fun hFailed => hAbsent (.inr hFailed)⟩
  · obtain ⟨decided, hDecided⟩ := h.decides hVerifier
    obtain ⟨state, after, hState, hAfter, hStatus⟩ := h.own decided hVerifier hDecided
    constructor
    · intro hNone verifierId found hFound hFailed
      by_cases hOwn : verifierId = started.task.taskDefId
      · subst hOwn
        rw [hState] at hFound
        cases hFound
        by_cases hComplete : decided.decision = .complete
        · exact ⟨rfl, decided, hDecided, hComplete⟩
        · rw [if_neg hComplete] at hStatus
          obtain ⟨hNot, hNotExhausted⟩ := hNone _ after hAfter
          rw [hStatus] at hNot hNotExhausted
          rcases hFailed with hFailed | hFailed
          · exact absurd hFailed hNot
          · exact absurd hFailed hNotExhausted
      · obtain ⟨hNot, hNotExhausted⟩ :=
          hNone verifierId found (by rw [h.others verifierId (.inl hOwn), hFound])
        rcases hFailed with hFailed | hFailed
        · exact absurd hFailed hNot
        · exact absurd hFailed hNotExhausted
    · intro hOwn verifierId found hFound
      have hAbsent (hFailed : found.status = .failed ∨ found.status = .exhaustedFailed) : False := by
        by_cases hSame : verifierId = started.task.taskDefId
        · subst hSame
          rw [hAfter] at hFound
          cases hFound
          by_cases hComplete : decided.decision = .complete
          · rw [hStatus, if_pos hComplete] at hFailed
            rcases hFailed with hFailed | hFailed <;> cases hFailed
          · rw [hStatus, if_neg hComplete] at hFailed
            obtain ⟨_, other, hOther, hDecision⟩ := hOwn _ state hState hFailed
            rw [hDecided] at hOther
            cases hOther
            exact hComplete hDecision
        · rw [h.others verifierId (.inl hSame)] at hFound
          exact hSame (hOwn verifierId found hFound hFailed).1
      exact ⟨fun hFailed => hAbsent (.inl hFailed), fun hFailed => hAbsent (.inr hFailed)⟩

/-- The pass after the commit of a result. -/
theorem System.step_commitResult {pass : ActivePass} {started : StartedTask} {answer : Answer}
    {result : ResultCommit} {base : WorkflowInstance} {rest : List String}
    (hPass : s.pass = .active pass)
    (hPoint : pass.point = .commitResult started answer result base rest)
    (hStep : s.step env .passStep = some s') (hCommitted : s'.stored ≠ s.stored) :
    s'.pass = pass.afterResult result rest s'.stored := by
  simp only [System.step, hPass, PassState.step, ActivePass.step, hPoint, ActivePass.commit] at hStep
  cases hCommit : commitOn s.stored base result.events with
  | error error =>
      rw [hCommit] at hStep
      cases hStep
      exact absurd rfl hCommitted
  | ok updated =>
      rw [hCommit] at hStep
      cases hStep
      rfl

/-- After an exit that leaves nothing to do, the pass is at its end. -/
theorem NonePending.afterResult {workflow : WorkflowInstance} {pass : ActivePass}
    {result : ResultCommit} {rest : List String} (h : NonePending workflow)
    (hNext : result.next = .checkPause none)
    (hRest : ∀ id ∈ rest, (workflow.tasks.lookup id).isSome = true)
    (hStarts : ∀ entry ∈ pass.loopSlices,
      eligibleStart workflow pass.definition pass.loopSlices entry.1 entry.2 = none) :
    ∃ point, (point = .commitCompleted ∨ point = .commitPauseCompleted) ∧
      pass.afterResult result rest workflow =
        if workflowAllCompleted workflow pass.definition then pass.goOn workflow point
        else .finished .ok := by
  unfold ActivePass.afterResult
  rw [hNext]
  dsimp only
  split
  · exact ⟨.commitPauseCompleted, .inr rfl, rfl⟩
  · refine ⟨.commitCompleted, .inl rfl, ?_⟩
    rw [h.nextTask hRest, h.enterLoop hStarts]
    rfl

/-- The version of the snapshot plays no part in the effect of an exit. -/
theorem ExitEffect.withVersion {workflow reduced : WorkflowInstance} {started : StartedTask}
    {output : Json} (h : ExitEffect workflow reduced started output) (version : Nat) :
    ExitEffect workflow (reduced.withVersion version) started output := by
  obtain ⟨own, mark, hEffect, hOwn⟩ := h.decision
  exact ⟨⟨own, mark, hEffect.withVersion version, hOwn⟩, h.decides, h.others, h.own⟩

/-- No attempt is gone after an exit. -/
theorem ExitEffect.isSome {workflow reduced : WorkflowInstance} {started : StartedTask}
    {output : Json} (h : ExitEffect workflow reduced started output) {key : String}
    {task : TaskInstance} (hTask : workflow.tasks.lookup key = some task) :
    (reduced.tasks.lookup key).isSome = true := by
  obtain ⟨own, mark, hEffect, _⟩ := h.decision
  by_cases hKey : key = started.taskAttemptId
  · rw [hKey, hEffect.own]
    rfl
  · rw [hEffect.kept key task hKey hTask]
    rfl

/-- An instance that has an attempt at all has had its first attempts
created. -/
theorem Sound.tasksInitialized {workflow : WorkflowInstance} (h : Sound definition workflow)
    {id : String} {task : TaskInstance} (hTask : workflow.tasks.lookup id = some task) :
    TasksInitialized definition workflow := by
  apply h.initialized
  cases hEmpty : workflow.tasks.isEmpty with
  | false => rfl
  | true =>
      rw [(FiniteMap.isEmpty_iff _).mp hEmpty] at hTask
      cases hTask

/-- The pass is at its end after an exit that leaves nothing to do. -/
theorem ExitEffect.ends {l : Lifecycle} {pass : ActivePass} {started : StartedTask} {output : Json}
    {result : ResultCommit} {base : WorkflowInstance} {rest : List String}
    (h : ExitEffect s.stored s'.stored started output) (hDef : WellFormedDef definition)
    (hRefines : Refines env definition s l) (hStarts : SliceStarts definition l)
    (hPass : s.pass = .active pass)
    (hPoint : pass.point = .commitResult started (.ok (.success output)) result base rest)
    (hNext : result.next = .checkPause none) (hTask : s.stored.tasks.lookup started.taskAttemptId =
      some started.task) (hAfter : s'.pass = pass.afterResult result rest s'.stored) :
    ∃ point, (point = .commitCompleted ∨ point = .commitPauseCompleted) ∧
      s'.pass = if workflowAllCompleted s'.stored definition then pass.goOn s'.stored point
        else .finished .ok := by
  have hInv := hRefines.pass
  rw [hPass] at hInv
  have hAt := hInv.point
  unfold PointInv at hAt
  simp only [hPoint] at hAt
  obtain ⟨_, _, hStarted, hPlan, _⟩ := hAt
  have hUnstarted := hStarts.unstarted
  have hPlanned := hStarts.planned
  rw [hRefines.stored] at hUnstarted hPlanned
  obtain ⟨point, hEnd, hLeaves⟩ := @NonePending.afterResult _ pass _ rest h.nonePending hNext
    (fun id hMem => by
      obtain ⟨task, hFound, _⟩ := hPlanned id (hPlan id hMem)
      exact h.isSome hFound)
    (fun entry hMem => by
      rw [hInv.loaded]
      exact h.starts_none hDef hTask hStarted.running hRefines.sound.key
        (hRefines.sound.tasksInitialized hTask) hUnstarted (hInv.slices.mem_iff.mp hMem))
  exact ⟨point, hEnd, by rw [hAfter, hLeaves, hInv.loaded]⟩

/-- The pass has ended after a verifier has exited without a decision. -/
theorem ExitFails.ends {workflow : WorkflowInstance} {pass : ActivePass} {started : StartedTask}
    {output : Json} {result : ResultCommit} {rest : List String} {last : System}
    (h : ExitFails workflow started output result)
    (hAfter : s'.pass = pass.afterResult result rest s'.stored) :
    s'.EndsAlone env last ↔ last = s' := by
  obtain ⟨error, hNext⟩ := h.stops
  have hFinished : s'.pass = .finished (.error error) := by
    rw [hAfter]
    unfold ActivePass.afterResult
    rw [hNext]
  exact System.EndsAlone.of_finished hFinished

/-- A task that is no verifier has no verifier state. -/
theorem OfVerifiers.plain {workflow : WorkflowInstance} {taskId : String} {taskDef : TaskDef}
    (h : OfVerifiers definition workflow) (hDef : WellFormedDef definition)
    (hFound : definition.findTask taskId = some taskDef) (hPlain : taskVerifier taskDef = none) :
    workflow.verifierStates.lookup taskId = none := by
  cases hState : workflow.verifierStates.lookup taskId with
  | none => rfl
  | some state =>
      obtain ⟨slice, hSlice⟩ := h taskId state hState
      obtain ⟨other, verifier, hOther, hVerifier, _⟩ := hDef.slice_verifier hSlice
      rw [hFound] at hOther
      cases hOther
      rw [hVerifier] at hPlain
      cases hPlain

/-- A pass that commits an early exit after which nothing runs or waits for
input ends, and it has completed the workflow exactly if no verifier has
failed. -/
theorem System.Steps.early_exit_completes {submitted : WorkflowDef} {id workflowDefId : String}
    {pinnedWorkerHost : WorkerHostId} {input : Option Json} {actions : List Action}
    {taskAttemptId : String}
    (hAccepted : validateAndNormalizeWorkflowDef submitted = .ok definition)
    (hDefinition : env.definitions workflowDefId = some definition)
    (run : System.Steps env (System.created id workflowDefId pinnedWorkerHost input) actions s)
    (hStep : s.step env .passStep = some s') (hCommitted : s'.stored ≠ s.stored)
    (hExit : .taskEarlyExitSet taskAttemptId true ∈ s.offered env .passStep)
    (hRunning : ∀ id task, s'.stored.tasks.lookup id = some task → task.status ≠ .running)
    (hAnswered : NoneUnanswered s'.stored) :
    (∃ last, s'.EndsAlone env last) ∧ ∀ last, s'.EndsAlone env last →
      (last.stored.status = .completed ↔ ExitCompletes s) := by
  have hDef := validateAndNormalizeWorkflowDef_ok hAccepted
  obtain ⟨⟨l, hRefines, hStarts⟩, hProgress⟩ :=
    run.progressInv hDef (.created pinnedWorkerHost input hDefinition) (.created ..)
  have hTracked : Tracked env definition s' := .step hDef ⟨l, hRefines, hStarts⟩ hStep
  obtain ⟨_, hProgress'⟩ := System.Steps.progressInv hDef (Run.single hStep)
    ⟨l, hRefines, hStarts⟩ hProgress
  obtain ⟨l', hRefines', _⟩ := hTracked
  obtain ⟨started, output, _, _, hCompleting, _⟩ := hRefines.permitsExit hExit
  obtain ⟨_, pass, result, base, rest, hPass, hPoint⟩ := System.completing_some hCompleting
  have hMem : .taskEarlyExitSet taskAttemptId true ∈ result.events := by
    simp only [System.offered, hPass, ActivePass.offered, ActivePass.batch, hPoint] at hExit
    exact hExit
  have hAfter := System.step_commitResult hPass hPoint hStep hCommitted
  obtain hSame | ⟨reduced, hRecords, hStored⟩ := hRefines.records hPass hPoint hStep
  · exact absurd hSame hCommitted
  obtain ⟨_, hTask, hFound, _⟩ := startedTask_eq hRecords.holds.resolved
  obtain ⟨_, hOutput, hCase⟩ := hRecords.exits hDef hMem
  cases hOutput
  have hStatus : s.stored.status ≠ .failed ∧ s.stored.status ≠ .completed := by
    rcases hRecords.status with hStatus | hStatus <;> rw [hStatus] <;> exact ⟨by decide, by decide⟩
  rcases hCase with ⟨hEffect, hNext⟩ | hFails
  · have hSame : s'.stored.status = s.stored.status := by
      rw [hStored]
      show reduced.status = s.stored.status
      rw [(reduceWorkflowInstanceEvents_effected hRecords.reduce).status,
        foldl_statusEffect_of_work (hRecords.recorded.goesOn hNext).1]
    have hLater : ExitEffect s.stored s'.stored started output := by
      rw [hStored]
      exact hEffect.withVersion _
    obtain ⟨own, _, hOwn, _⟩ := hLater.decision
    obtain ⟨point, hEnd, hLeaves⟩ := hLater.ends hDef hRefines hStarts hPass hPoint hNext hTask hAfter
    have hLeaving : (∃ last, s'.EndsAlone env last) ∧ ∀ last, s'.EndsAlone env last →
        (last.stored.status = .completed ↔ workflowAllCompleted s'.stored definition = true) :=
      System.EndsAlone.of_leaving hEnd hLeaves (hSame ▸ hStatus.2)
    obtain ⟨hEnds, hCompleted⟩ := hLeaving
    have hAll := hProgress'.allCompleted_iff hDef hRefines'.sound.key
      (hRefines'.sound.tasksInitialized hOwn.own) hLater.nonePending
      (hLater.noneFailed (hRefines.sound.failedOnce.noneFailed hStatus.1)) hRunning hAnswered
    refine ⟨hEnds, fun last hLast => (hCompleted last hLast).trans (hAll.trans ?_)⟩
    rw [hLater.noneFailed_iff ?_]
    · constructor
      · intro hStates other found hOther
        rw [hCompleting] at hOther
        cases hOther
        exact ⟨hLater.decides, hStates⟩
      · intro hCompletes
        exact (hCompletes started output hCompleting).2
    · exact hProgress.ofVerifiers.plain hDef hFound
  · obtain ⟨own, hOwn, hFailed⟩ := hFails.failed
    have hOwnStored : s'.stored.tasks.lookup started.taskAttemptId = some own := by
      rw [hStored]
      exact hOwn
    have hEnds (last : System) : s'.EndsAlone env last ↔ last = s' := hFails.ends hAfter
    refine ⟨⟨s', (hEnds s').mpr rfl⟩, fun last hLast => ?_⟩
    rw [(hEnds last).mp hLast, hRefines'.sound.failedOnce.status _ own hOwnStored hFailed]
    refine iff_of_false (by decide) fun hCompletes => ?_
    obtain ⟨decided, hDecided⟩ := (hCompletes started output hCompleting).1 hFails.isVerifier
    exact hFails.undecided decided hDecided

end Exit

/-! The review of the brief has failed and is retried, and the announcement
exits before it. -/

def announcedSubmitted : WorkflowDef where
  id := "chain"
  exampleInput := none
  description := "announce, brief, review"
  tasks := [{ sampleTask "announce" none with control := some ⟨true, none⟩ },
    sampleTask "brief" none, sampleTask "review" (some
      { maxIterations := 1, onExhaustedContinue := false, rerunFromTaskId := none })]
  dataBindings := [⟨"announce", "brief"⟩]

/-- Validation accepts the definition with the announcement that may exit
early. -/
theorem announcedSubmitted_accepted :
    (validateAndNormalizeWorkflowDef announcedSubmitted).toOption.isSome := by
  decide +kernel

def announcedDefinition : WorkflowDef :=
  (validateAndNormalizeWorkflowDef announcedSubmitted).toOption.get announcedSubmitted_accepted

def announcedEnv : EngineEnv :=
  { sampleEnv with definitions := fun id => if id = "chain" then some announcedDefinition else none }

/-- The announcement is about to commit its exit. -/
def announcementExits : List Action :=
  startDraft ++ [succeeds] ++ passSteps 5 ++ [.answer reviewAnswer] ++ passSteps 2 ++
    [.request (.retryTask "review") 0, .startPass []] ++ passSteps 6 ++ [exitAnswer []] ++
    [.passStep]

/-- The draft is about to commit its exit. -/
def draftIsExiting : List Action := startDraft ++ [exitAnswer [], .passStep]

/-- The step of the pass exits with the attempt, and nothing runs or waits
after it. -/
def exitsLast (env : EngineEnv) (id : String) (s : System) : Bool :=
  (s.step env .passStep).any fun s' =>
    (s.offered env .passStep).any (fun event => match event with
      | .taskEarlyExitSet exitId true => exitId = id
      | _ => false) &&
    s'.stored.version ≠ s.stored.version && s'.stored.tasks.toList.all fun entry =>
      entry.2.status ≠ .running && !entry.2.status.isInputNeeded

/-- The check of the sample: the next step commits an early exit with nothing
else running or waiting. -/
theorem exitsLast_step {env : EngineEnv} {id : String} {s : System} (h : exitsLast env id s = true) :
    ∃ s', s.step env .passStep = some s' ∧ s'.stored ≠ s.stored ∧
      .taskEarlyExitSet id true ∈ s.offered env .passStep ∧
      (∀ key task, s'.stored.tasks.lookup key = some task → task.status ≠ .running) ∧
      NoneUnanswered s'.stored := by
  obtain ⟨s', hStep, hBoth⟩ := (Option.any_eq_true _ _).mp h
  rw [Bool.and_eq_true, Bool.and_eq_true, List.all_eq_true] at hBoth
  obtain ⟨⟨hExit, hVersion⟩, hAll⟩ := hBoth
  have hTasks (key : String) (task : TaskInstance)
      (hTask : s'.stored.tasks.lookup key = some task) :
      task.status ≠ .running ∧ task.status.isInputNeeded = false := by
    have hEntry := hAll (key, task) ((FiniteMap.mem_toList ..).mpr hTask)
    simpa using hEntry
  refine ⟨s', hStep, fun hSame => ?_, ?_, fun key task hTask => (hTasks key task hTask).1,
    fun key task hUnanswered => ?_⟩
  · exact of_decide_eq_true hVersion (by rw [hSame])
  · obtain ⟨event, hMem, hEvent⟩ := List.any_eq_true.mp hExit
    split at hEvent
    · rw [decide_eq_true_eq] at hEvent
      rwa [hEvent] at hMem
    · cases hEvent
  · have hWaiting := hUnanswered.waiting
    rw [(hTasks key task hUnanswered.found).2] at hWaiting
    cases hWaiting

/-- A task that is no verifier completes, and no verifier has failed. -/
def completesUnfailed (s : System) : Bool :=
  (s.completing .passStep).all fun found =>
    (taskVerifier found.1.taskDef).isNone &&
    s.stored.verifierStates.toList.all fun entry =>
      entry.2.status ≠ .failed && entry.2.status ≠ .exhaustedFailed

/-- Evaluated on the sample, the run to the end completes the instance without
a failed verifier. -/
theorem exitCompletes_of_completesUnfailed {s : System} (h : completesUnfailed s = true) :
    ExitCompletes s := by
  intro started output hCompleting
  rw [completesUnfailed, hCompleting] at h
  have hBoth : (taskVerifier started.taskDef).isNone = true ∧ _ := Bool.and_eq_true_iff.mp h
  obtain ⟨hPlain, hStates⟩ := hBoth
  refine ⟨fun hVerifier => absurd (Option.isNone_iff_eq_none.mp hPlain) hVerifier,
    fun verifierId state hState hFailed => ?_⟩
  have hEntry := List.all_eq_true.mp hStates (verifierId, state) ((FiniteMap.mem_toList ..).mpr hState)
  rcases hFailed with hFailed | hFailed <;> simp [hFailed] at hEntry

theorem draftIsExiting_runs : ((draftIsExiting.foldlM (System.step exitingEnv) chainStart).filter
    fun s => exitsLast exitingEnv "draft[1]" s && completesUnfailed s).isSome := by
  decide +kernel

/-- The exit of the draft completes the instance once its pass has gone on to
its end. -/
theorem System.Steps.early_exit_completes_draft : ∃ s s' last,
    System.Steps exitingEnv chainStart draftIsExiting s ∧ s.step exitingEnv .passStep = some s' ∧
      s'.EndsAlone exitingEnv last ∧ last.stored.status = .completed := by
  obtain ⟨hRun, hChecked⟩ :=
    Option.filter_eq_some_iff.mp (Option.some_get draftIsExiting_runs).symm
  rw [Bool.and_eq_true] at hChecked
  obtain ⟨s', hStep, hCommitted, hExit, hRunning, hAnswered⟩ := exitsLast_step hChecked.1
  have hAccepted : validateAndNormalizeWorkflowDef exitingSubmitted = .ok exitingDefinition :=
    eq_ok_get exitingSubmitted_accepted
  have run := Run.of_foldlM hRun
  have hDefinition : exitingEnv.definitions "chain" = some exitingDefinition := rfl
  obtain ⟨⟨last, hLast⟩, hEnds⟩ := System.Steps.early_exit_completes hAccepted hDefinition run hStep
    hCommitted hExit hRunning hAnswered
  exact ⟨_, s', last, run, hStep, hLast,
    (hEnds last hLast).mpr (exitCompletes_of_completesUnfailed hChecked.2)⟩

def PassState.isFinished : PassState → Bool
  | finished _ => true
  | _ => false

theorem PassState.isFinished_iff {state : PassState} :
    state.isFinished = true ↔ ∃ result, state = .finished result := by
  cases state <;> simp [PassState.isFinished]

/-- The pass ends with the step and leaves the workflow running. -/
def endsRunning (env : EngineEnv) (s : System) : Bool :=
  (s.step env .passStep).any fun s' =>
    s'.pass.isFinished && s'.stored.status = .running

/-- The other run goes through, too: a review is exhausted, retried and skipped
by the exit, and the instance is left running. -/
theorem announcementExits_runs : ((announcementExits.foldlM (System.step announcedEnv)
    chainStart).filter fun s => exitsLast announcedEnv "announce[1]" s &&
      endsRunning announcedEnv s).isSome := by
  decide +kernel

/-- The review that had failed is skipped, and the workflow never completes. -/
theorem exit_leaves_workflow_running : ∃ s s',
    System.Steps announcedEnv chainStart announcementExits s ∧
    s.step announcedEnv .passStep = some s' ∧ s'.stored ≠ s.stored ∧
    .taskEarlyExitSet "announce[1]" true ∈ s.offered announcedEnv .passStep ∧
    (∀ key task, s'.stored.tasks.lookup key = some task → task.status ≠ .running) ∧
    NoneUnanswered s'.stored ∧ s'.EndsAlone announcedEnv s' ∧
    ∀ last, s'.EndsAlone announcedEnv last → last.stored.status = .running := by
  obtain ⟨hRun, hChecked⟩ :=
    Option.filter_eq_some_iff.mp (Option.some_get announcementExits_runs).symm
  rw [Bool.and_eq_true] at hChecked
  obtain ⟨s', hStep, hCommitted, hExit, hRunning, hAnswered⟩ := exitsLast_step hChecked.1
  obtain ⟨next, hNext, hEnd⟩ := (Option.any_eq_true _ _).mp hChecked.2
  rw [hStep] at hNext
  cases hNext
  rw [Bool.and_eq_true, decide_eq_true_eq] at hEnd
  obtain ⟨result, hFinished⟩ := PassState.isFinished_iff.mp hEnd.1
  have hEnds (last : System) : s'.EndsAlone announcedEnv last ↔ last = s' :=
    System.EndsAlone.of_finished hFinished
  exact ⟨_, s', Run.of_foldlM hRun, hStep, hCommitted, hExit, hRunning, hAnswered,
    (hEnds s').mpr rfl, fun last hLast => by rw [(hEnds last).mp hLast, hEnd.2]⟩

end RelayFold
