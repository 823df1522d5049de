import RelayFold.Lifecycle.PassDispatches
import RelayFold.Lifecycle.VerifierAgreement
import RelayFold.Lifecycle.VerifierProgress

/-! The iteration budget of a verifier: no attempt of its slice is
materialized beyond its limit, and it runs its slice again less often than
the limit says. -/
namespace RelayFold

open WorkflowEngine WorkflowStateManager WorkflowService FallibleFold

/-- The event starts or restarts a verifier. -/
def WorkflowInstanceEvent.upsertsVerifierState : WorkflowInstanceEvent → Bool
  | verifierStateUpserted .. => true
  | _ => false

/-- The generation that the verifier rejects with a committed result, if it
runs again. -/
def System.reruns (verifierId : String) (s : System) (action : Action) (s' : System) : Option Nat :=
  match action, s.pass with
  | .passStep, .active pass =>
      match pass.point with
      | .commitResult started _ result _ _ =>
          if started.task.taskDefId = verifierId ∧
              result.events.any WorkflowInstanceEvent.upsertsVerifierState = true ∧
              s'.stored.version ≠ s.stored.version then
            some started.task.generationIndex
          else none
      | _ => none
  | _, _ => none

def System.recordRerun (verifierId : String) (s : System) (action : Action) (s' : System)
    (log : List Nat) : List Nat :=
  (s.reruns verifierId action s').toList ++ log

namespace WorkflowEngine

variable {workflow : WorkflowInstance} {verifierTask : TaskDef} {verifier : VerifierControlConfig}
  {slice : List String} {id : String} {generation : Nat} {state : VerifierGenerationState}
  {output : Json} {result : VerifierExecutionResult}

/-- Setting marks is no rerun: only the upsert of the verifier's state is. -/
theorem not_upserts_of_satisfaction {satisfaction : TaskSatisfactionStatus} :
    (sliceSatisfactionEvents workflow slice generation satisfaction).any
      WorkflowInstanceEvent.upsertsVerifierState = false := by
  rw [sliceSatisfactionEvents_eq, List.any_map]
  simp [WorkflowInstanceEvent.upsertsVerifierState]

/-- Only a rejection below the limit starts the verifier again. -/
theorem decisionTransition_upserts : (decisionTransition workflow verifierTask verifier slice id
      generation state output result).events.any WorkflowInstanceEvent.upsertsVerifierState = true ↔
    result.decision = .continue ∧ isBlank (result.feedback.getD "") = false ∧
      sliceInterruptedByExit workflow slice = false ∧ generation < verifier.maxIterations.toNat := by
  unfold decisionTransition
  cases hDecision : result.decision with
  | complete =>
      simp only [acceptEvents, List.any_append, not_upserts_of_satisfaction]
      exact ⟨fun h => (by cases h), fun h => by cases h.1⟩
  | «continue» =>
      dsimp only
      split
      · rename_i hBlank
        exact ⟨fun h => (by cases h), fun h => by rw [h.2.1] at hBlank; cases hBlank⟩
      · rename_i hFeedback
        unfold continueTransition
        dsimp only
        split
        · rename_i hInterrupted
          simp only [List.any_append, not_upserts_of_satisfaction]
          exact ⟨fun h => (by cases h), fun h => by rw [h.2.2.1] at hInterrupted; cases hInterrupted⟩
        · rename_i hRuns
          split
          · rename_i hBelow
            refine ⟨fun _ => ⟨rfl, by simpa using hFeedback, by simpa using hRuns, hBelow⟩, fun _ => ?_⟩
            simp [rerunEvents, WorkflowInstanceEvent.upsertsVerifierState]
          · rename_i hLimit
            refine ⟨fun h => ?_, fun h => absurd h.2.2.2 hLimit⟩
            split at h
            · split at h
              · cases h
              · simp only [acceptEvents, List.any_append, not_upserts_of_satisfaction] at h
                cases h
            · simp only [List.any_append, not_upserts_of_satisfaction] at h
              cases h

/-- Nor is a completion, with or without an early exit. -/
theorem not_upserts_of_completion {loopSlices : LoopSlices} {taskDef : TaskDef}
    {inputs : ResolvedTaskInputs} {schema : Option JsonSchema} {exit : Option String} :
    (completionEvents loopSlices id taskDef inputs schema output ++
      (if exit.isSome then earlyExitEvents workflow id else [])).any
        WorkflowInstanceEvent.upsertsVerifierState = false := by
  rw [List.any_eq_false]
  intro event hEvent
  simp only [completionEvents, inputEvents, earlyExitEvents, List.mem_append] at hEvent
  rcases hEvent with (((hEvent | hEvent) | hEvent) | hEvent) | hEvent
  · rcases List.mem_pair.mp hEvent with rfl | rfl <;> exact Bool.false_ne_true
  · cases List.mem_singleton.mp hEvent
    exact Bool.false_ne_true
  · split at hEvent
    · cases hEvent
    · cases List.mem_singleton.mp hEvent
      exact Bool.false_ne_true
  · split at hEvent
    · cases List.mem_singleton.mp hEvent
      exact Bool.false_ne_true
    · cases hEvent
  · split at hEvent
    · rcases List.mem_cons.mp hEvent with rfl | hEvent
      · exact Bool.false_ne_true
      · obtain ⟨entry, _, hEvent⟩ := List.mem_flatMap.mp hEvent
        rcases List.mem_pair.mp hEvent with rfl | rfl <;> exact Bool.false_ne_true
    · cases hEvent

/-- A result that starts the verifier again rejects below the limit, and
completes the attempt. -/
theorem Recorded.reruns {ext : Externals} {definition : WorkflowDef} {loopSlices : LoopSlices}
    {taskDef : TaskDef} {inputs : ResolvedTaskInputs} {answer : Answer} {committed : ResultCommit}
    {task : TaskInstance} {reduced : WorkflowInstance}
    (h : Recorded ext workflow definition loopSlices id taskDef inputs answer committed)
    (hTask : workflow.tasks.lookup id = some task) (hRunning : task.status = .running)
    (hDef : definition.findTask task.taskDefId = some taskDef) (hId : task.taskDefId = taskDef.id)
    (hReduce : reduceWorkflowInstanceEvents (some workflow) committed.events = .ok reduced)
    (hUpserts : committed.events.any WorkflowInstanceEvent.upsertsVerifierState = true) :
    ∃ verifier own, taskVerifier taskDef = some verifier ∧
      task.generationIndex < verifier.maxIterations.toNat ∧
      reduced.tasks.lookup id = some own ∧ own.status = .completed := by
  cases h with
  | inputNeeded _ | failure _ | dispatchError _ | badOutput _ _ => cases hUpserts
  | @badExit output schema error _ _ _ =>
      have hNone := @not_upserts_of_completion workflow id output loopSlices taskDef inputs schema none
      simp only [Option.isSome_none, Bool.false_eq_true, if_false, List.append_nil] at hNone
      rw [List.any_append, hNone] at hUpserts
      cases hUpserts
  | @completed output schema exit result _ _ _ hResult =>
      cases hResult with
      | plain _ =>
          rw [not_upserts_of_completion] at hUpserts
          cases hUpserts
      | invalid _ _ =>
          rw [List.any_append, not_upserts_of_completion] at hUpserts
          cases hUpserts
      | @decided verifier decided middle transition hVerifier hDecided hMiddle hTransition =>
          rw [List.any_append, not_upserts_of_completion, Bool.false_or] at hUpserts
          obtain ⟨state, hState, hCompletion, hVerdict⟩ := decided_verdict hTask hRunning hDef hId
            hVerifier hDecided hMiddle hTransition hReduce
          obtain ⟨attempt, verifierTask, verifier', state', hAttempt, hFound, hVerifier', hState',
            rfl⟩ := verifierResultTransition_ok hTransition
          rw [hCompletion.own] at hAttempt
          cases hAttempt
          have hSame : verifierTask = taskDef := Option.some.inj (hFound.symm.trans hDef)
          subst hSame
          rw [hVerifier] at hVerifier'
          cases hVerifier'
          obtain ⟨hContinue, hFeedback, hRuns, hBelow⟩ := decisionTransition_upserts.mp hUpserts
          have hSlice : (completedTask loopSlices verifierTask inputs schema output exit.isSome
              task).taskDefId = verifierTask.id := hId
          rw [hSlice] at hRuns
          cases hVerdict with
          | complete hComplete _ _ =>
              rw [hContinue] at hComplete
              cases hComplete
          | interrupted _ _ hInterrupted _ =>
              rw [hRuns] at hInterrupted
              cases hInterrupted
          | rerun _ _ _ _ hEffect =>
              have hOwn := hEffect.own
              rw [hCompletion.own] at hOwn
              exact ⟨verifier, _, hVerifier, hBelow, hOwn, rfl⟩
          | exhausted _ _ _ hLimit _ _ => exact absurd hBelow (Nat.not_lt.mpr hLimit)
          | failed _ _ _ _ _ hHistory _ =>
              rcases hHistory with hBlank | ⟨⟨_, hLimit, _⟩, _⟩
              · rw [hFeedback] at hBlank
                cases hBlank
              · exact absurd hBelow (Nat.not_lt.mpr hLimit)

end WorkflowEngine

/-- An accepted continuation of a verifier attempt leaves its generation a
successor. -/
def ContinuesBelowLimit (env : EngineEnv) (definition : WorkflowDef) (s : System) : Action → Prop
  | .request (.submitHumanInput taskId _) seen =>
      s.snapshots[seen]? = some s.stored → ∀ id next task,
        loadWaitingTask env.definitions s.stored taskId = .ok (id, next) →
        s.stored.tasks.lookup id = some task →
        ((computeLoopSlices definition).lookup task.taskDefId).isSome = true →
        task.generationIndex + 1 < 2 ^ 32
  | _ => True

/-- The attempts of a verifier are numbered from one. -/
def NumberedFromOne (workflow : WorkflowInstance) (verifierId : String) : Prop :=
  ∀ id task, IsAttempt workflow verifierId id task → 1 ≤ task.generationIndex

/-- The rejected generations are distinct, below the limit, and their attempts
have completed. -/
structure RerunsInv (verifierId : String) (limit : Nat) (workflow : WorkflowInstance)
    (log : List Nat) : Prop where
  nodup : log.Nodup
  bounded : ∀ generation ∈ log, 1 ≤ generation ∧ generation < limit
  completed : ∀ generation ∈ log, ∃ task,
    workflow.tasks.lookup (makeTaskAttemptId verifierId generation) = some task ∧
      task.status = .completed

section Budget

variable {env : EngineEnv} {definition : WorkflowDef} {s s' : System} {l : Lifecycle}
  {verifierId : String} {limit : Nat} {log : List Nat} {action : Action} {writer : Writer}
  {before after reduced : WorkflowInstance}

/-- Reruns of one slice have different generations below the limit, so there
are fewer of them than iterations. -/
theorem RerunsInv.length_le (h : RerunsInv verifierId limit before log) :
    log.length ≤ limit - 1 := by
  have hSubset : log ⊆ (List.range (limit - 1)).map (· + 1) := by
    intro generation hMem
    obtain ⟨hPos, hLimit⟩ := h.bounded generation hMem
    exact List.mem_map.mpr ⟨generation - 1, List.mem_range.mpr (by omega), by omega⟩
  have hLength := (h.nodup.subperm hSubset).length_le
  rwa [List.length_map, List.length_range] at hLength

/-- The generations that were sent back stay completed, whatever is written
later. -/
theorem RerunsInv.of_attemptsAfter (h : RerunsInv verifierId limit before log)
    (hAfter : AttemptsAfter writer before after) : RerunsInv verifierId limit after log := by
  refine ⟨h.nodup, h.bounded, fun generation hMem => ?_⟩
  obtain ⟨a, ha, hCompleted⟩ := h.completed generation hMem
  obtain ⟨b, hb, hMoves⟩ := hAfter.kept _ a ha
  rw [hMoves.settled (by rw [hCompleted]; rfl)] at hb
  exact ⟨_, hb, hCompleted⟩

/-- One more rerun is one more generation in the log, which was not there
before. -/
theorem RerunsInv.cons (h : RerunsInv verifierId limit after log) {generation : Nat}
    {task : TaskInstance} (hNew : generation ∉ log) (hPos : 1 ≤ generation)
    (hBelow : generation < limit)
    (hTask : after.tasks.lookup (makeTaskAttemptId verifierId generation) = some task)
    (hCompleted : task.status = .completed) :
    RerunsInv verifierId limit after (generation :: log) := by
  refine ⟨List.nodup_cons.mpr ⟨hNew, h.nodup⟩, fun other hMem => ?_, fun other hMem => ?_⟩
  · rcases List.mem_cons.mp hMem with rfl | hMem
    · exact ⟨hPos, hBelow⟩
    · exact h.bounded other hMem
  · rcases List.mem_cons.mp hMem with rfl | hMem
    · exact ⟨task, hTask, hCompleted⟩
    · exact h.completed other hMem

/-- Where a new attempt comes from. -/
inductive Origin (definition : WorkflowDef) (writer : Writer) (task : TaskInstance) : Prop
  | first (hGeneration : task.generationIndex = 1)
  | verdict {attempt : TaskInstance} {verifierTask : TaskDef} {verifier : VerifierControlConfig}
      {slice : List String} (hFound : definition.findTask attempt.taskDefId = some verifierTask)
      (hVerifier : taskVerifier verifierTask = some verifier)
      (hSlice : (attempt.taskDefId, slice) ∈ computeLoopSlices definition)
      (hMem : task.taskDefId ∈ slice)
      (hGeneration : task.generationIndex = attempt.generationIndex + 1)
      (hBelow : attempt.generationIndex < verifier.maxIterations.toNat)
  | continuation (hWriter : writer = .humanInput)

/-- What a write creates has one of three origins: the first generation, a
rerun or a continuation. -/
theorem WriteEffect.origin (hDef : WellFormedDef definition)
    (h : WriteEffect definition l reduced writer) {key : String} {task : TaskInstance}
    (hNew : l.stored.tasks.lookup key = none) (hTask : reduced.tasks.lookup key = some task) :
    Origin definition writer task := by
  cases h with
  | status _ hTasks _ =>
      rw [hTasks, hNew] at hTask
      cases hTask
  | initialTasks _ hTasks _ _ =>
      obtain ⟨_, _, _, rfl⟩ := hTasks key task hTask
      exact .first rfl
  | initialGenerations _ _ hAfter =>
      rw [hAfter.tasks, hNew] at hTask
      cases hTask
  | start _ hOld _ hTasks _ | retry hOld _ hTasks _ =>
      rw [hTasks] at hTask
      split at hTask
      · rename_i hKey
        rw [← hKey, hNew] at hOld
        cases hOld
      · rw [hNew] at hTask
        cases hTask
  | result hSlices hStarted hFound _ _ hOutcome _ =>
      obtain ⟨verifier, hVerifier, hBelow, taskDefId, hMem, _, rfl⟩ :=
        hOutcome.materialized hStarted hNew hTask
      have hSlice := hDef.verdict_slice hSlices hFound (by rw [hVerifier]; rfl)
      rw [(findTask_some hFound).2] at hSlice hMem
      exact .verdict hFound hVerifier hSlice hMem rfl hBelow
  | humanInput => exact .continuation rfl
  | recover hTasks _ =>
      rw [hTasks] at hTask
      split at hTask
      · rw [hNew] at hTask
        cases hTask
      · rw [hNew] at hTask
        cases hTask

/-- An attempt that a pass materializes is within the limit of the verifier of
its slice. -/
theorem Refines.materializes_within (hDef : WellFormedDef definition)
    (h : Refines env definition s l) (hStep : s.step env .passStep = some s') {id : String}
    {task : TaskInstance} (hNew : s.stored.tasks.lookup id = none)
    (hTask : s'.stored.tasks.lookup id = some task) {slice : List String}
    (hSlice : (verifierId, slice) ∈ computeLoopSlices definition) (hMem : task.taskDefId ∈ slice)
    {verifierTask : TaskDef} {verifier : VerifierControlConfig}
    (hFound : definition.findTask verifierId = some verifierTask)
    (hVerifier : taskVerifier verifierTask = some verifier) :
    task.generationIndex ≤ verifier.maxIterations.toNat := by
  cases h.commits hStep with
  | same hStored =>
      rw [hStored, hNew] at hTask
      cases hTask
  | committed hReduce hStored hCommit =>
      rw [hStored] at hTask
      obtain ⟨plan, hEffect⟩ := hCommit.effect hReduce
      cases hEffect.origin hDef hNew hTask with
      | first hGeneration =>
          rw [hGeneration]
          exact hDef.maxIterations_pos verifierTask (findTask_some hFound).1 verifier hVerifier
      | verdict hFound' hVerifier' hSlice' hMem' hGeneration hBelow =>
          have hSame := hDef.slices_disjoint _ hSlice _ hSlice' _ hMem hMem'
          rw [← (Prod.mk.inj hSame).1, hFound] at hFound'
          cases hFound'
          rw [hVerifier] at hVerifier'
          cases hVerifier'
          rw [hGeneration]
          exact hBelow
      | continuation hWriter => cases hWriter

/-- The attempts of a verifier are numbered from one without a gap, as long as
nobody continues one beyond the limit. -/
theorem NumberedFromOne.commit (h : NumberedFromOne s.stored verifierId)
    (hDef : WellFormedDef definition) {slice : List String}
    (hSlice : (verifierId, slice) ∈ computeLoopSlices definition)
    (hMeets : ContinuesBelowLimit env definition s action) {events : List WorkflowInstanceEvent}
    (hCommit : Commit env definition s reduced action events)
    (hReduce : reduceWorkflowInstanceEvents (some s.stored) events = .ok reduced) :
    NumberedFromOne reduced verifierId := by
  intro id task hTask
  have hAfter := hCommit.attemptsAfter hReduce
  obtain ⟨plan, hEffect⟩ := hCommit.effect hReduce
  cases hBefore : s.stored.tasks.lookup id with
  | some old =>
      obtain ⟨b, hb, hMoves⟩ := hAfter.kept id old hBefore
      rw [hTask.found] at hb
      cases hb
      rw [hMoves.generationIndex]
      exact h id old ⟨hBefore, hMoves.taskDefId.symm.trans hTask.taskDefId⟩
  | none =>
      cases hEffect.origin hDef hBefore hTask.found with
      | first hGeneration => exact Nat.le_of_eq hGeneration.symm
      | verdict _ _ _ _ hGeneration _ =>
          rw [hGeneration]
          exact Nat.succ_pos _
      | continuation hWriter =>
          obtain ⟨taskId, _, seen, waitingId, found, rfl, hSeen, hSubmission⟩ :=
            hCommit.submission hReduce hWriter
          have hFound := hTask.found
          rw [hSubmission.tasks] at hFound
          split at hFound
          · cases hFound
            have hLt : found.generationIndex + 1 < 2 ^ 32 := by
              apply hMeets hSeen _ _ _ hSubmission.loaded hSubmission.found
              rw [show found.taskDefId = verifierId from hTask.taskDefId]
              exact List.lookup_isSome_iff.mpr ⟨_, hSlice, beq_self_eq_true _⟩
            change 1 ≤ continuationGeneration found.generationIndex
            rw [continuationGeneration_of_lt hLt]
            exact Nat.succ_pos _
          · rw [hBefore] at hFound
            cases hFound

/-- A rerun is the commit of a verifier's result with an upsert of its
state. -/
theorem System.reruns_some {generation : Nat} (h : s.reruns verifierId action s' = some generation) :
    action = .passStep ∧ ∃ pass started answer result base rest, s.pass = .active pass ∧
      pass.point = .commitResult started answer result base rest ∧
      started.task.taskDefId = verifierId ∧
      result.events.any WorkflowInstanceEvent.upsertsVerifierState = true ∧
      s'.stored.version ≠ s.stored.version ∧ started.task.generationIndex = generation := by
  unfold System.reruns at h
  split at h
  · rename_i pass hPass
    split at h
    · rename_i started answer result base rest hPoint
      split at h
      · rename_i hReruns
        cases h
        exact ⟨rfl, pass, started, answer, result, base, rest, hPass, hPoint, hReruns.1,
          hReruns.2.1, hReruns.2.2, rfl⟩
      · cases h
    · cases h
  · cases h

/-- Every step keeps account of the generations that the verifier has
rejected. -/
theorem RerunsInv.step (hRefines : Refines env definition s l)
    {verifierTask : TaskDef} {verifier : VerifierControlConfig}
    (hFound : definition.findTask verifierId = some verifierTask)
    (hVerifier : taskVerifier verifierTask = some verifier)
    (h : RerunsInv verifierId verifier.maxIterations.toNat s.stored log)
    (hNumbered : NumberedFromOne s.stored verifierId)
    (hStep : s.step env action = some s') :
    RerunsInv verifierId verifier.maxIterations.toNat s'.stored
      (s.recordRerun verifierId action s' log) := by
  have hKept : RerunsInv verifierId verifier.maxIterations.toNat s'.stored log := by
    cases hRefines.commits hStep with
    | same hStored =>
        rw [hStored]
        exact h
    | committed hReduce hStored hCommit =>
        obtain ⟨hNodup, hBounded, hCompleted⟩ := h.of_attemptsAfter (hCommit.attemptsAfter hReduce)
        rw [hStored]
        exact ⟨hNodup, hBounded, hCompleted⟩
  unfold System.recordRerun
  cases hReruns : s.reruns verifierId action s' with
  | none => exact hKept
  | some generation =>
      obtain ⟨rfl, pass, started, answer, result, base, rest, hPass, hPoint, hId, hUpserts,
        hCommitted, rfl⟩ := System.reruns_some hReruns
      rcases hRefines.records hPass hPoint hStep with hSame | ⟨reduced, hRecords, hStored⟩
      · rw [hSame] at hCommitted
        exact absurd rfl hCommitted
      obtain ⟨_, hTask, hDefFound, _⟩ := startedTask_eq hRecords.holds.resolved
      have hRunning := hRecords.holds.running
      obtain ⟨verifier', own, hVerifier', hBelow, hOwn, hCompleted⟩ := hRecords.recorded.reruns hTask
        hRunning hDefFound (findTask_some hDefFound).2.symm hRecords.reduce hUpserts
      rw [hId, hFound] at hDefFound
      cases hDefFound
      rw [hVerifier] at hVerifier'
      cases hVerifier'
      have hKey := hRefines.sound.key _ _ hTask
      rw [hId] at hKey
      refine hKept.cons (fun hMem => ?_) (hNumbered _ _ ⟨hTask, hId⟩) hBelow ?_ hCompleted
      · obtain ⟨done, hDone, hStatus⟩ := h.completed _ hMem
        rw [← hKey, hTask] at hDone
        cases hDone
        rw [hRunning] at hStatus
        cases hStatus
      · rw [hStored, ← hKey]
        exact hOwn

/-- Runs whose steps meet the condition keep account of the rejected
generations. -/
theorem Tracked.reruns (hDef : WellFormedDef definition) {start : System}
    (hTracked : Tracked env definition start) {verifierTask : TaskDef}
    {verifier : VerifierControlConfig} {slice : List String}
    (hFound : definition.findTask verifierId = some verifierTask)
    (hVerifier : taskVerifier verifierTask = some verifier)
    (hSlice : (verifierId, slice) ∈ computeLoopSlices definition) {actions : List Action}
    (run : Run (Run.Traced (fun s action s' => System.step env s action = some s' ∧
        ContinuesBelowLimit env definition s action) (System.recordRerun verifierId))
      (start, []) actions (s, log))
    (hEmpty : ∀ id, start.stored.tasks.lookup id = none) :
    RerunsInv verifierId verifier.maxIterations.toNat s.stored log := by
  have hNone : NumberedFromOne start.stored verifierId := fun id task hTask => by
    have hFound := hTask.found
    rw [hEmpty] at hFound
    cases hFound
  have hInv := run.invariant (P := fun p => Tracked env definition p.1 ∧
    NumberedFromOne p.1.stored verifierId ∧
    RerunsInv verifierId verifier.maxIterations.toNat p.1.stored p.2)
    ⟨hTracked, hNone, List.nodup_nil, fun _ hMem => (by cases hMem), fun _ hMem => by cases hMem⟩ ?_
  · exact hInv.2.2
  · rintro ⟨s, log⟩ action ⟨s', log'⟩ ⟨hState, hNumbered, hReruns⟩ ⟨⟨hStep, hMeets⟩, hRecord⟩
    dsimp only at hStep hMeets hRecord hState hNumbered hReruns ⊢
    have ⟨l, hRefines, _⟩ := hState
    refine ⟨hState.step hDef hStep, ?_, hRecord ▸ hReruns.step hRefines hFound hVerifier hNumbered hStep⟩
    cases hRefines.commits hStep with
    | same hStored =>
        rw [hStored]
        exact hNumbered
    | committed hReduce hStored hCommit =>
        rw [hStored]
        exact fun id task hTask => hNumbered.commit hDef hSlice hMeets hCommit hReduce id task
          ⟨hTask.found, hTask.taskDefId⟩

end Budget

/-- Every pass ends, dispatches no attempt twice, and materializes none beyond
the limit of its verifier. In runs that continue no verifier attempt of the
last generation, a verifier runs its slice again less often than its limit
says. -/
theorem System.Steps.passes_within_budget {env : EngineEnv} {submitted definition : WorkflowDef}
    {id workflowDefId : String} {pinnedWorkerHost : WorkerHostId} {input : Option Json}
    (hAccepted : validateAndNormalizeWorkflowDef submitted = .ok definition)
    (hDefinition : env.definitions workflowDefId = some definition) :
    (∀ actions s,
      System.Steps env (System.created id workflowDefId pinnedWorkerHost input) actions s →
      (∃ bound, ∀ answers : List Answer, bound < answers.length →
        (answers.foldl (System.move env) s).pass.inFlight = false) ∧
      (∀ order s₁ later s₂ log, s.step env (.startPass order) = some s₁ →
        Run (Run.Traced (System.WithinPass env) System.recordDispatch) (s₁, []) later (s₂, log) →
        log.Nodup) ∧
      ∀ s' id task verifierId slice verifierTask verifier, s.step env .passStep = some s' →
        s.stored.tasks.lookup id = none → s'.stored.tasks.lookup id = some task →
        (verifierId, slice) ∈ computeLoopSlices definition → task.taskDefId ∈ slice →
        definition.findTask verifierId = some verifierTask →
        taskVerifier verifierTask = some verifier →
        task.generationIndex ≤ verifier.maxIterations.toNat) ∧
    ∀ verifierId verifierTask verifier actions s log,
      definition.findTask verifierId = some verifierTask →
      taskVerifier verifierTask = some verifier →
      Run (Run.Traced (fun s action s' => System.step env s action = some s' ∧
          ContinuesBelowLimit env definition s action) (System.recordRerun verifierId))
        (System.created id workflowDefId pinnedWorkerHost input, []) actions (s, log) →
      log.length ≤ verifier.maxIterations.toNat - 1 := by
  have hDef := validateAndNormalizeWorkflowDef_ok hAccepted
  refine ⟨fun actions s run => ?_, fun verifierId verifierTask verifier actions s log hFound
    hVerifier run => ?_⟩
  · obtain ⟨l, _, _, hRefines⟩ := run.refines hDefinition
    refine ⟨hRefines.ends hDef, fun order s₁ later s₂ log hStart hRun => ?_,
      fun s' id task verifierId slice verifierTask verifier hStep hNew hTask hSlice hMem hFound
        hVerifier => hRefines.materializes_within hDef hStep hNew hTask hSlice hMem hFound hVerifier⟩
    obtain ⟨⟨l', _, _, _, hRefines'⟩, _⟩ := hRefines.step hStart
    have hLoading : s₁.pass = .loading order := by
      simp only [System.step] at hStart
      split at hStart
      · cases hStart
      · cases hStart
        rfl
    exact hRefines'.dispatched_once hLoading hRun
  · obtain ⟨slice, hSlice⟩ := verifier_slice hFound (by rw [hVerifier]; rfl)
    rw [(findTask_some hFound).2] at hSlice
    exact ((Tracked.created pinnedWorkerHost input hDefinition).reruns hDef hFound hVerifier hSlice
      run fun _ => rfl).length_le

theorem continuesBelowLimit_of_isRequest {env : EngineEnv} {definition : WorkflowDef} {s : System}
    {action : Action} (h : action.isRequest = false) :
    ContinuesBelowLimit env definition s action := by
  cases action with
  | request => cases h
  | _ => trivial

/-- The first review of the chain sends the draft back. -/
def chainSentBack : List Action := firstReview (.answer reviewAnswer) ++ passSteps 1

/-- In the sample the review sends the first generation back, and the log says
so. -/
theorem chainSentBack_runs : ((chainSentBack.foldlM (fun p action =>
    (System.step chainEnv p.1 action).map fun s' =>
      (s', System.recordRerun "a-review" p.1 action s' p.2)) (chainStart, [])).any fun p =>
        p.2 = [1]) = true := by
  decide +kernel

theorem chain_verifier : ((chainDefinition.findTask "a-review").bind taskVerifier).any fun verifier =>
    verifier.maxIterations = 3 := by
  decide +kernel

/-- The chain has been sent back once, of the two times that its review may do
so, and its pass ends. -/
theorem System.Steps.passes_within_budget_chain : ∃ s log,
    Run (Run.Traced (fun s action s' => System.step chainEnv s action = some s' ∧
        ContinuesBelowLimit chainEnv chainDefinition s action) (System.recordRerun "a-review"))
      (chainStart, []) chainSentBack (s, log) ∧ log = [1] ∧ log.length ≤ 3 - 1 ∧
    ∃ bound, ∀ answers : List Answer, bound < answers.length →
      (answers.foldl (System.move chainEnv) s).pass.inFlight = false := by
  have hAccepted : validateAndNormalizeWorkflowDef chainSubmitted = .ok chainDefinition :=
    eq_ok_get chainSubmitted_accepted
  have hDefinition : chainEnv.definitions "chain" = some chainDefinition := rfl
  obtain ⟨⟨s, log⟩, hFound, hLog⟩ := (Option.any_eq_true _ _).mp chainSentBack_runs
  obtain ⟨verifier, hVerifier, hLimit⟩ := (Option.any_eq_true _ _).mp chain_verifier
  obtain ⟨verifierTask, hTask, hVerifier⟩ := Option.bind_eq_some_iff.mp hVerifier
  have hRequests : ∀ action ∈ chainSentBack, action.isRequest = false := by decide +kernel
  have hTraced := Run.of_traced hFound
  have run : Run (Run.Traced (fun s action s' => System.step chainEnv s action = some s' ∧
      ContinuesBelowLimit chainEnv chainDefinition s action) (System.recordRerun "a-review"))
      (chainStart, []) chainSentBack (s, log) :=
    (hTraced.labelled hRequests).mono fun p action q hStep =>
      ⟨⟨hStep.1.1, continuesBelowLimit_of_isRequest hStep.2⟩, hStep.1.2⟩
  obtain ⟨hPasses, hReruns⟩ := @System.Steps.passes_within_budget chainEnv chainSubmitted
    chainDefinition "chain-1" "chain" ⟨"host"⟩ none hAccepted hDefinition
  have hLength := hReruns _ _ _ _ _ _ hTask hVerifier run
  rw [of_decide_eq_true hLimit] at hLength
  exact ⟨s, log, run, of_decide_eq_true hLog, hLength, (hPasses _ _ hTraced.untraced).1⟩

/-! A review that may not send anything back, and asks for input again and
again. -/

def limitSubmitted : WorkflowDef where
  id := "limit"
  exampleInput := none
  description := "review"
  tasks := [sampleTask "review" (some
    { maxIterations := 1, onExhaustedContinue := false, rerunFromTaskId := none })]
  dataBindings := []

theorem limitSubmitted_accepted :
    (validateAndNormalizeWorkflowDef limitSubmitted).toOption.isSome := by
  decide +kernel

def limitDefinition : WorkflowDef :=
  (validateAndNormalizeWorkflowDef limitSubmitted).toOption.get limitSubmitted_accepted

def limitEnv : EngineEnv :=
  { sampleEnv with definitions := fun id => if id = "limit" then some limitDefinition else none }

def limitStart : System := System.created "limit-1" "limit" ⟨"host"⟩ none

theorem limit_review : (limitDefinition.findTask "review").isSome = true := by
  decide +kernel

def limitReview : TaskDef := (limitDefinition.findTask "review").get limit_review

theorem limit_bindings : limitDefinition.dataBindings = [] := by
  decide +kernel

theorem limit_schemas : limitReview.inputSchemas = [] := by
  decide +kernel

theorem limit_agent : limitReview.kind.isAgent = true := by
  decide +kernel

/-- The attempts of the review, up to a generation, all wait for input. -/
def AllWait (generation : Nat) (workflow : WorkflowInstance) : Prop :=
  ∀ id task, workflow.tasks.lookup id = some task → task.status.isInputNeeded = true ∧
    task.taskDefId = "review" ∧ task.earlyExit = false ∧
    id = makeTaskAttemptId "review" task.generationIndex ∧
    1 ≤ task.generationIndex ∧ task.generationIndex ≤ generation

/-- The review waits for input at a generation. -/
structure ReviewWaits (generation : Nat) (s : System) : Prop where
  ended : s.pass.inFlight = false
  status : s.stored.status = .inputNeeded
  defId : s.stored.workflowDefId = "limit"
  started : (s.stored.verifierStates.lookup "review").isSome = true
  latest : (s.stored.tasks.lookup (makeTaskAttemptId "review" generation)).isSome = true
  allWait : AllWait generation s.stored

/-- One attempt of the review has this status, and the others are as before. -/
structure ReviewHas (before : WorkflowInstance) (generation : Nat) (input : Json)
    (status : TaskStatus) (workflow : WorkflowInstance) : Prop where
  defId : workflow.workflowDefId = "limit"
  started : (workflow.verifierStates.lookup "review").isSome = true
  review : workflow.tasks.lookup (makeTaskAttemptId "review" generation) =
    some { continuationTask "review" generation input with status := status }
  others : ∀ id, id ≠ makeTaskAttemptId "review" generation →
    workflow.tasks.lookup id = before.tasks.lookup id

/-- A pass over the review has come to a point. -/
structure ReviewAt (before : WorkflowInstance) (generation : Nat) (input : Json)
    (workflowStatus : WorkflowStatus) (status : TaskStatus) (point : PassPoint) (s : System) :
    Prop where
  pass : s.pass = .active ⟨limitDefinition, [("review", ["review"])], s.stored, point⟩
  workflowStatus : s.stored.status = workflowStatus
  has : ReviewHas before generation input status s.stored

theorem limit_order : iterationOrder [] limitDefinition = [("review", ["review"])] := by
  decide +kernel

theorem eligible_none {workflow : WorkflowInstance}
    (h : (workflow.verifierStates.lookup "review").isSome = true) :
    materializeEligibleInitialGenerationEvents workflow limitDefinition [("review", ["review"])] = [] := by
  unfold materializeEligibleInitialGenerationEvents materializeEligible
  rw [if_neg (List.not_mem_nil), eligibleStart_none_of_state h]
  rfl

theorem limit_find (generation : Nat) (input : Json) :
    limitDefinition.findTask (continuationTask "review" generation input).taskDefId =
      some limitReview := (Option.some_get limit_review).symm

section Cycle

variable {before workflow : WorkflowInstance} {last generation : Nat} {input : Json}
  {status : TaskStatus} {s : System}

/-- The review is the only attempt to run. -/
theorem ReviewHas.tasksToRun (h : ReviewHas before generation input .pending workflow)
    (hBefore : AllWait last before) :
    tasksToRun workflow limitDefinition [("review", ["review"])] =
      some [makeTaskAttemptId "review" generation] := by
  have hPendingOnly : (workflow.tasks.toList.filter fun entry => entry.2.status = .pending) =
      [(makeTaskAttemptId "review" generation, continuationTask "review" generation input)] := by
    refine FiniteMap.filter_toList_eq_singleton h.review rfl fun id task hTask hKey => ?_
    rw [h.others id hKey] at hTask
    have hWaiting := (hBefore id task hTask).1
    cases hStatus : task.status with
    | inputNeeded _ => simp
    | _ =>
        rw [hStatus] at hWaiting
        cases hWaiting
  have hRuns : canRun workflow limitDefinition [("review", ["review"])]
      (continuationTask "review" generation input) = true := by
    unfold canRun
    rw [limit_find]
    simp only [resolveInputs, inboundBindings, limit_bindings, List.filter_nil]
    split <;> rfl
  unfold WorkflowEngine.tasksToRun
  simp only [hPendingOnly, List.any_cons, limit_find, List.filter_cons, hRuns]
  rfl

/-- A pass that enters its loop goes on with the review. -/
theorem ReviewHas.initializeTasks {pass : ActivePass}
    (h : ReviewHas before generation input .pending workflow) (hBefore : AllWait last before)
    (hDefinition : pass.definition = limitDefinition)
    (hSlices : pass.loopSlices = [("review", ["review"])]) :
    pass.initializeTasks workflow =
      pass.goOn workflow (.checkPaused (makeTaskAttemptId "review" generation) []) := by
  have hPending : workflow.tasks.lookup (makeTaskAttemptId "review" generation) =
    some (continuationTask "review" generation input) := h.review
  unfold ActivePass.initializeTasks ActivePass.enterLoop ActivePass.startTasks
  simp only [FiniteMap.isEmpty_eq_false_of_lookup _ hPending, hDefinition, hSlices,
    eligible_none h.started, h.tasksToRun hBefore, ActivePass.nextTask, hPending]
  rfl

/-- An accepted commit of a pass on the stored snapshot. -/
theorem System.step_accepted (env : EngineEnv) {pass : ActivePass}
    {events : List WorkflowInstanceEvent} {next : WorkflowInstance → PassState}
    {reduced : WorkflowInstance} (hPass : s.pass = .active pass)
    (hStep : pass.step env s.stored = ActivePass.commit s.stored s.stored events next)
    (hEvents : events ≠ [])
    (hReduce : reduceWorkflowInstanceEvents (some s.stored) events = .ok reduced) :
    ∃ version, s.stored.version ≠ version ∧
      s.step env .passStep = some ((s.saved (reduced.withVersion version)).setPass
        (next (reduced.withVersion version))) := by
  have hLength := List.length_pos_of_ne_nil hEvents
  refine ⟨s.stored.version + events.length, by omega, ?_⟩
  rw [System.step_passStep, hPass, PassState.step, hStep, ActivePass.commit,
    commitOn_stored hEvents hReduce]
  rfl

/-- A pass loads the instance with the one pending attempt. -/
theorem ReviewHas.load (h : ReviewHas before generation input .pending s.stored)
    (hEnded : s.pass.inFlight = false) (hStatus : s.stored.status = .pending) : ∃ s',
      System.Steps limitEnv s [.startPass [], .passStep, .passStep] s' ∧
      ReviewAt before generation input .pending .pending .commitRunning s' := by
  have hLoaded : PassState.loaded [] (some s.stored) = .loadingDef [] s.stored := by
    simp only [PassState.loaded, hStatus]
  have hLoadedDef : PassState.loadedDef [] s.stored (limitEnv.definitions s.stored.workflowDefId) =
      .active ⟨limitDefinition, [("review", ["review"])], s.stored, .commitRunning⟩ := by
    rw [h.defId, ← limit_order]
    rfl
  have hStart : s.step limitEnv (.startPass []) = some (s.setPass (.loading [])) := by
    simp only [System.step, hEnded]
    rfl
  have hLoad : (s.setPass (.loading [])).step limitEnv .passStep =
      some (s.setPass (.loadingDef [] s.stored)) := by
    rw [System.step_passStep, ← hLoaded]
    rfl
  have hLoadDef : (s.setPass (.loadingDef [] s.stored)).step limitEnv .passStep =
      some (s.setPass (.active
        ⟨limitDefinition, [("review", ["review"])], s.stored, .commitRunning⟩)) := by
    rw [System.step_passStep, ← hLoadedDef]
    rfl
  exact ⟨_, (Run.single hStart).trans ((Run.single hLoad).trans (.single hLoadDef)),
    rfl, hStatus, h⟩

/-- It sets the instance running and finds that attempt to start. -/
theorem ReviewAt.begin (h : ReviewAt before generation input .pending .pending .commitRunning s)
    (hBefore : AllWait last before) :
    ∃ s', s.step limitEnv .passStep = some s' ∧ ReviewAt before generation input .running .pending
      (.checkPaused (makeTaskAttemptId "review" generation) []) s' := by
  have hReduce : reduceWorkflowInstanceEvents (some s.stored) [.workflowStatusChanged .running] =
      .ok { s.stored with status := .running } := rfl
  obtain ⟨version, _, hStep⟩ := System.step_accepted limitEnv h.pass rfl (List.cons_ne_nil _ _) hReduce
  have hHas : ReviewHas before generation input .pending
      ({ s.stored with status := .running }.withVersion version) :=
    ⟨h.has.defId, h.has.started, h.has.review, h.has.others⟩
  exact ⟨_, hStep, hHas.initializeTasks hBefore rfl rfl, rfl, hHas⟩

theorem ReviewAt.check {id : String} {rest : List String}
    (h : ReviewAt before generation input .running status (.checkPaused id rest) s) :
    ∃ s', s.step limitEnv .passStep = some s' ∧
      ReviewAt before generation input .running status (.commitStart id rest) s' := by
  refine ⟨s.setPass (.active
    ⟨limitDefinition, [("review", ["review"])], s.stored, .commitStart id rest⟩), ?_, rfl,
    h.workflowStatus, h.has⟩
  rw [System.step_passStep, h.pass]
  simp only [PassState.step, ActivePass.step, h.workflowStatus]
  rfl

/-- The snapshot with another status of one attempt. -/
def withTaskStatus (workflow : WorkflowInstance) (id : String) (status : TaskStatus) :
    WorkflowInstance :=
  { workflow with tasks := workflow.tasks.modify id ({ · with status := status }) }

/-- It starts the attempt. -/
theorem ReviewAt.start (h : ReviewAt before generation input .running .pending
      (.commitStart (makeTaskAttemptId "review" generation) []) s) :
    ∃ s' started, s.step limitEnv .passStep = some s' ∧
      ReviewAt before generation input .running .running (.resolveFunction started []) s' ∧
      started.taskAttemptId = makeTaskAttemptId "review" generation ∧
      started.taskDef = limitReview ∧
      started.task = { continuationTask "review" generation input with status := .running } := by
  have hReduce : reduceWorkflowInstanceEvents (some s.stored)
      [.taskStatusChanged (makeTaskAttemptId "review" generation) .running] =
      .ok (withTaskStatus s.stored (makeTaskAttemptId "review" generation) .running) := by
    simp only [reduceWorkflowInstanceEvents, List.foldlM_cons, applyWorkflowInstanceEvent, taskMut,
      h.has.review]
    rfl
  obtain ⟨version, _, hStep⟩ := System.step_accepted limitEnv h.pass rfl (List.cons_ne_nil _ _) hReduce
  let updated := (withTaskStatus s.stored (makeTaskAttemptId "review" generation) .running).withVersion
    version
  have hHas : ReviewHas before generation input .running updated := by
    refine ⟨h.has.defId, h.has.started, (FiniteMap.lookup_modify ..).trans ?_, fun id hId =>
      (FiniteMap.lookup_modify ..).trans ?_⟩
    · rw [if_pos rfl, h.has.review]
      rfl
    · rw [if_neg hId]
      exact h.has.others id hId
  have hSome : (startedTask updated limitDefinition [("review", ["review"])]
      (makeTaskAttemptId "review" generation)).isSome = true := by
    unfold startedTask
    rw [hHas.review]
    simp [limit_find]
  obtain ⟨started, hStarted⟩ := Option.isSome_iff_exists.mp hSome
  obtain ⟨hId, hTask, hFound, _⟩ := startedTask_eq hStarted
  rw [hHas.review] at hTask
  have hOwn := Option.some.inj hTask
  rw [← hOwn] at hFound
  have hDef : limitReview = started.taskDef :=
    Option.some.inj ((limit_find generation input).symm.trans hFound)
  refine ⟨_, started, hStep, ⟨?_, h.workflowStatus, hHas⟩, hId, hDef.symm, hOwn.symm⟩
  change ActivePass.prepareDispatch limitEnv.ext _ updated _ [] = _
  simp only [ActivePass.prepareDispatch, hStarted, validateInputs, ← hDef, limit_schemas]
  rfl

theorem limit_resolved : ∃ resolved schema,
    resolveTaskFunctionRef limitEnv.functionDefs limitReview = .ok resolved ∧
      limitReview.effectiveOutputSchema = .ok schema := by
  have hResolved : (resolveTaskFunctionRef limitEnv.functionDefs limitReview).toOption.isSome = true := by
    decide +kernel
  have hSchema : limitReview.effectiveOutputSchema.toOption.isSome = true := by
    decide +kernel
  obtain ⟨resolved, hResolved⟩ := Option.isSome_iff_exists.mp hResolved
  obtain ⟨schema, hSchema⟩ := Option.isSome_iff_exists.mp hSchema
  exact ⟨resolved, schema, toOption_some hResolved, toOption_some hSchema⟩

/-- The pass dispatches the attempt of the review, since its function is known
and its schema compiles. -/
theorem ReviewAt.resolve {started : StartedTask} (hDef : started.taskDef = limitReview)
    (h : ReviewAt before generation input .running status (.resolveFunction started []) s) :
    ∃ s' call, s.step limitEnv .passStep = some s' ∧
      ReviewAt before generation input .running status (.awaitAnswer started call []) s' := by
  obtain ⟨resolved, schema, hResolved, hSchema⟩ := limit_resolved
  have hDispatch (pass : ActivePass) : ∃ call, pass.dispatch limitEnv started [] =
      pass.goOn pass.workflow (.awaitAnswer started call []) := by
    unfold ActivePass.dispatch
    rw [hDef, hResolved]
    dsimp only
    rw [hSchema]
    exact ⟨_, rfl⟩
  obtain ⟨call, hNext⟩ := hDispatch
    ⟨limitDefinition, [("review", ["review"])], s.stored, .resolveFunction started []⟩
  have hStep := System.step_passStep limitEnv s
  rw [h.pass] at hStep
  simp only [PassState.step, ActivePass.step, hNext] at hStep
  exact ⟨_, call, hStep, rfl, h.workflowStatus, h.has⟩

/-- The pass over the pending review comes to the dispatch of it. -/
structure ReviewAsked (before : WorkflowInstance) (generation : Nat) (input : Json)
    (started : StartedTask) (call : DispatchCall) (s : System) : Prop where
  point : ReviewAt before generation input .running .running (.awaitAnswer started call []) s
  attemptId : started.taskAttemptId = makeTaskAttemptId "review" generation
  taskDef : started.taskDef = limitReview
  task : started.task = { continuationTask "review" generation input with status := .running }

/-- Together these steps lead from the pending attempt to its call, whatever
the generation. -/
theorem ReviewHas.asked (h : ReviewHas before generation input .pending s.stored)
    (hBefore : AllWait last before) (hEnded : s.pass.inFlight = false)
    (hStatus : s.stored.status = .pending) : ∃ actions s' started call,
      System.Steps limitEnv s actions s' ∧ ReviewAsked before generation input started call s' := by
  obtain ⟨s₁, hLoad, h₁⟩ := h.load hEnded hStatus
  obtain ⟨s₂, hBegin, h₂⟩ := h₁.begin hBefore
  obtain ⟨s₃, hCheck, h₃⟩ := h₂.check
  obtain ⟨s₄, started, hStart, h₄, hId, hDef, hTask⟩ := h₃.start
  obtain ⟨s₅, call, hResolve, h₅⟩ := h₄.resolve hDef
  exact ⟨_, s₅, started, call, (((hLoad.snoc hBegin).snoc hCheck).snoc hStart).snoc hResolve,
    h₅, hId, hDef, hTask⟩

/-- Every answer for the review is committed. -/
theorem ReviewAsked.answered {started : StartedTask} {call : DispatchCall}
    (h : ReviewAsked before generation input started call s) (answer : Answer) :
    ∃ result reduced s₁ s₂ version,
      resultCommit limitEnv.ext s.stored limitDefinition [("review", ["review"])]
        (makeTaskAttemptId "review" generation) limitReview started.inputs answer = .ok result ∧
      reduceWorkflowInstanceEvents (some s.stored) result.events = .ok reduced ∧
      System.Steps limitEnv s [.answer answer, .passStep] s₁ ∧ s₁.stored = s.stored ∧
      s₁.pass = .active ⟨limitDefinition, [("review", ["review"])], s.stored,
        .commitResult started answer result s.stored []⟩ ∧
      s₁.step limitEnv .passStep = some s₂ ∧ s.stored.version ≠ version ∧
      s₂.stored = reduced.withVersion version ∧
      s₂.pass = ActivePass.afterResult ⟨limitDefinition, [("review", ["review"])], s.stored,
        .commitResult started answer result s.stored []⟩ result [] (reduced.withVersion version) := by
  obtain ⟨_, schema, _, hSchema⟩ := limit_resolved
  have hAnswerable : Answerable s.stored limitDefinition (makeTaskAttemptId "review" generation)
      limitReview :=
    ⟨⟨_, h.point.has.review, limit_find generation input, (findTask_some (limit_find generation input)).2.symm⟩,
      ⟨schema, hSchema⟩, fun _ => by
        rw [(findTask_some (limit_find generation input)).2]
        exact h.point.has.started⟩
  obtain ⟨result, hResult, reduced, hReduce⟩ : Recordable s.stored (resultCommit limitEnv.ext s.stored
      limitDefinition [("review", ["review"])] (makeTaskAttemptId "review" generation) limitReview
      started.inputs answer) := hAnswerable.recordable limitEnv.ext started.inputs answer
  obtain ⟨_, _, hMem⟩ := (resultCommit_ok hResult).answers
  let pass : ActivePass := ⟨limitDefinition, [("review", ["review"])], s.stored,
    .awaitAnswer started call []⟩
  have hPass : s.pass = .active pass := h.point.pass
  have hAnswer : s.step limitEnv (.answer answer) =
      some (s.setPass (pass.goOn s.stored (.readCurrent started answer result []))) := by
    simp only [System.step, hPass, PassState.answer, pass, ActivePass.answered, h.attemptId,
      h.taskDef, hResult]
    rfl
  have hRead : (s.setPass (pass.goOn s.stored (.readCurrent started answer result []))).step limitEnv
      .passStep = some (s.setPass (pass.goOn s.stored
        (.commitResult started answer result s.stored []))) := by
    rw [System.step_passStep]
    simp only [System.setPass, ActivePass.goOn, PassState.step, ActivePass.step,
      ActivePass.resultBase, pass, h.point.workflowStatus]
    rfl
  obtain ⟨version, hVersion, hStep⟩ := @System.step_accepted
    (s.setPass (pass.goOn s.stored (.commitResult started answer result s.stored []))) limitEnv _ _
    _ _ rfl rfl (List.ne_nil_of_mem hMem) hReduce
  exact ⟨result, reduced, _, _, version, hResult, hReduce,
    (Run.single hAnswer).trans (.single hRead), rfl, rfl, hStep, hVersion, rfl, rfl⟩

/-- A submission continues the attempt that waits. -/
theorem ReviewWaits.submit (h : ReviewWaits last s)
    (hNext : s.stored.tasks.lookup (makeTaskAttemptId "review" (continuationGeneration last)) = none) :
    ∃ s', s.step limitEnv (.request (.submitHumanInput (makeTaskAttemptId "review" last) .null) 0) =
        some s' ∧ s'.pass.inFlight = false ∧ s'.stored.status = .pending ∧
      ReviewHas s.stored (continuationGeneration last) .null .pending s'.stored := by
  obtain ⟨task, hTask⟩ := Option.isSome_iff_exists.mp h.latest
  obtain ⟨hWaiting, hDefId, _, hKey, _⟩ := h.allWait _ task hTask
  have hLast : task.generationIndex = last := (makeTaskAttemptId_inj.mp hKey).2.symm
  have hResolve : resolveTaskAttemptId s.stored (makeTaskAttemptId "review" last) none =
      .ok (makeTaskAttemptId "review" last) := by
    unfold resolveTaskAttemptId
    simp [hTask]
  have hDefinition : limitEnv.definitions s.stored.workflowDefId = some limitDefinition := by
    rw [h.defId]
    rfl
  have hFind : limitDefinition.findTask task.taskDefId = some limitReview := by
    rw [hDefId]
    exact limit_find last .null
  have hLoad : loadWaitingTask limitEnv.definitions s.stored (makeTaskAttemptId "review" last) =
      .ok (makeTaskAttemptId "review" last,
        makeTaskAttemptId "review" (continuationGeneration last)) := by
    unfold loadWaitingTask
    simp only [h.status, ne_eq, not_true_eq_false, if_false, hResolve, bind, Except.bind, hTask,
      hWaiting, hDefinition, hFind, limit_agent, Bool.not_true, Bool.false_eq_true]
    rw [hDefId, hLast, hNext]
    rfl
  have hApply : applyWorkflowInstanceEvent s.stored (.humanInputSubmitted
      (makeTaskAttemptId "review" last) (makeTaskAttemptId "review" (continuationGeneration last))
      .null) = .ok { s.stored with
        tasks := s.stored.tasks.insert (makeTaskAttemptId "review" (continuationGeneration last))
          (continuationTask "review" (continuationGeneration last) .null)
        status := .pending } := by
    simp only [applyWorkflowInstanceEvent, hTask, hWaiting, hDefId, hLast, hNext, Bool.not_true,
      Bool.false_eq_true, if_false, ne_eq, not_true_eq_false]
  refine ⟨_, System.step_request (by simp only [Request.batch, hLoad]; rfl), ?_⟩
  rw [System.commit, commitOn_stored (List.cons_ne_nil _ _)
    (by simp only [reduceWorkflowInstanceEvents, List.foldlM_cons, hApply]; rfl)]
  refine ⟨h.ended, rfl, h.defId, h.started, ?_, fun id hId => ?_⟩
  · exact (FiniteMap.lookup_insert_eq ..).trans (if_pos rfl)
  · exact (FiniteMap.lookup_insert_eq ..).trans (if_neg hId)

/-- The review asks for input once more. -/
theorem ReviewAsked.asks {started : StartedTask} {call : DispatchCall}
    (h : ReviewAsked before (last + 1) input started call s) (hBefore : AllWait last before) :
    ∃ actions s', System.Steps limitEnv s actions s' ∧ ReviewWaits (last + 1) s' := by
  obtain ⟨result, reduced, s₁, s₂, version, hResult, hReduce, hRun, _, _, hStep, _, hStored, hPass⟩ :=
    h.answered (.ok (.inputNeeded "which one?"))
  cases hResult
  have hEffect := reduceWorkflowInstanceEvents_effected hReduce
  have hTasks := hEffect.task (by simp [inputNeededEvents, inputEvents, WorkflowInstanceEvent.isLocal])
  refine ⟨_, s₂, hRun.snoc hStep, ?_, ?_, ?_, ?_, ?_, ?_⟩
  · rw [hPass]
    rfl
  · rw [hStored]
    exact hEffect.status
  · rw [hStored]
    exact (reduceWorkflowInstanceEvents_identity hReduce).workflowDefId.trans h.point.has.defId
  · rw [hStored]
    change (reduced.verifierStates.lookup "review").isSome = true
    rw [hEffect.verifierState]
    exact h.point.has.started
  · rw [hStored]
    change (reduced.tasks.lookup (makeTaskAttemptId "review" (last + 1))).isSome = true
    rw [hTasks, h.point.has.review]
    simp [inputNeededEvents, inputEvents, WorkflowInstanceEvent.taskEffect]
  · rw [hStored]
    intro id task hTask
    change reduced.tasks.lookup id = some task at hTask
    rw [hTasks] at hTask
    by_cases hId : id = makeTaskAttemptId "review" (last + 1)
    · subst hId
      rw [h.point.has.review] at hTask
      simp [inputNeededEvents, inputEvents, WorkflowInstanceEvent.taskEffect] at hTask
      subst hTask
      exact ⟨rfl, rfl, rfl, rfl, Nat.succ_pos _, Nat.le_refl _⟩
    · simp [inputNeededEvents, inputEvents, WorkflowInstanceEvent.taskEffect, hId] at hTask
      rw [h.point.has.others id hId] at hTask
      obtain ⟨hWaiting, hDefId, hExit, hKey, hPos, hLe⟩ := hBefore id task hTask
      exact ⟨hWaiting, hDefId, hExit, hKey, hPos, Nat.le_succ_of_le hLe⟩

/-- Beyond the attempts that wait the next generation is free. -/
theorem AllWait.free (h : AllWait last workflow) (hGeneration : generation = 0 ∨ last < generation) :
    workflow.tasks.lookup (makeTaskAttemptId "review" generation) = none := by
  cases hTask : workflow.tasks.lookup (makeTaskAttemptId "review" generation) with
  | none => rfl
  | some task =>
      obtain ⟨_, _, _, hKey, hPos, hLe⟩ := h _ task hTask
      have hSame := (makeTaskAttemptId_inj.mp hKey).2
      omega

/-- The review is continued, and its next attempt is asked for. -/
theorem ReviewWaits.asked (h : ReviewWaits last s)
    (hNext : continuationGeneration last = 0 ∨ last < continuationGeneration last) :
    ∃ actions s' started call, System.Steps limitEnv s actions s' ∧
      ReviewAsked s.stored (continuationGeneration last) .null started call s' := by
  obtain ⟨s₁, hSubmit, hEnded, hStatus, hHas⟩ := h.submit (h.allWait.free hNext)
  obtain ⟨actions, s₂, started, call, hRun, hAsked⟩ := hHas.asked h.allWait hEnded hStatus
  exact ⟨_, s₂, started, call, (Run.single hSubmit).trans hRun, hAsked⟩

/-- The review may go on asking, up to the last generation. -/
theorem ReviewWaits.next (h : ReviewWaits last s) (hLast : last + 1 < 2 ^ 32) :
    ∃ actions s', System.Steps limitEnv s actions s' ∧ ReviewWaits (last + 1) s' := by
  have hNext := continuationGeneration_of_lt hLast
  obtain ⟨first, s₁, started, call, hRun, hAsked⟩ := h.asked (by omega)
  rw [hNext] at hAsked
  obtain ⟨rest, s₂, hRest, hWaits⟩ := hAsked.asks h.allWait
  exact ⟨_, s₂, hRun.trans hRest, hWaits⟩

theorem limit_verifier : (taskVerifier limitReview).any fun verifier =>
    verifier.maxIterations = 1 := by
  decide +kernel

/-- The answer of the sample is a continue decision with feedback. -/
theorem reviewAnswer_decided : verifierResultFromOutput
    (.object [("decision", .string "continue"), ("feedback", .string "shorter")]) =
      .ok { decision := .continue, feedback := some "shorter",
            output := .object [("decision", .string "continue"), ("feedback", .string "shorter")] } := by
  rfl

/-- The review may not exit early, so its output has no exit reason. -/
theorem limit_exitReason (output : Json) : exitReason limitReview output = .ok none := by
  have hExits : limitReview.allowsEarlyExit = false := by
    decide +kernel
  rw [exitReason, hExits]
  rfl

/-- The attempt of generation zero is below the limit: it sends the review
back. -/
theorem ReviewAsked.reruns {started : StartedTask} {call : DispatchCall}
    (h : ReviewAsked before 0 input started call s) (hBefore : AllWait last before) :
    ∃ actions s₁ s₂, System.Steps limitEnv s actions s₁ ∧ s₁.step limitEnv .passStep = some s₂ ∧
      s₁.reruns "review" .passStep s₂ = some 0 := by
  obtain ⟨verifier, hVerifier, hLimit⟩ := (Option.any_eq_true _ _).mp limit_verifier
  obtain ⟨result, reduced, s₁, s₂, version, hResult, hReduce, hRun, hSame, hPass, hStep, hVersion,
    hStored, _⟩ := h.answered reviewAnswer
  refine ⟨_, s₁, s₂, hRun, hStep, ?_⟩
  have hBelow : 0 < verifier.maxIterations.toNat := by
    rw [of_decide_eq_true hLimit]
    decide
  have hTask : started.task.taskDefId = "review" ∧ started.task.generationIndex = 0 := by
    rw [h.task]
    exact ⟨rfl, rfl⟩
  have hUpserts : result.events.any WorkflowInstanceEvent.upsertsVerifierState = true := by
    cases resultCommit_ok hResult with
    | badOutput _ hBad =>
        unfold schemaOk at hBad
        split at hBad <;> cases hBad
    | badExit _ _ hExit =>
        rw [limit_exitReason] at hExit
        cases hExit
    | @completed output schema exit result _ _ hExit hResult =>
        rw [limit_exitReason] at hExit
        cases hExit
        cases hResult with
        | plain hPlain =>
            rw [hVerifier] at hPlain
            cases hPlain
        | invalid _ hInvalid =>
            rw [reviewAnswer_decided] at hInvalid
            cases hInvalid
        | @decided verifier' decided middle transition hVerifier' hDecided hMiddle hTransition =>
            rw [hVerifier] at hVerifier'
            cases hVerifier'
            rw [reviewAnswer_decided] at hDecided
            cases hDecided
            have hCompletion := completion_effect h.point.has.review rfl hMiddle
            obtain ⟨attempt, verifierTask, verifier', state, hAttempt, hFound, hVerifier', _, rfl⟩ :=
              verifierResultTransition_ok hTransition
            rw [hCompletion.own] at hAttempt
            cases hAttempt
            have hSame : verifierTask = limitReview :=
              Option.some.inj (hFound.symm.trans (limit_find 0 input))
            subst hSame
            rw [hVerifier] at hVerifier'
            cases hVerifier'
            have hRuns : sliceInterruptedByExit s.stored ["review"] = false := by
              rw [← Bool.not_eq_true]
              intro hInterrupted
              obtain ⟨id, task, hTask, _, hHalts⟩ := sliceInterruptedByExit_iff.mp hInterrupted
              by_cases hId : id = makeTaskAttemptId "review" 0
              · rw [hId, h.point.has.review] at hTask
                cases hTask
                rcases hHalts with hHalts | hHalts <;> cases hHalts
              · rw [h.point.has.others id hId] at hTask
                obtain ⟨hWaiting, _, hExit, _⟩ := hBefore id task hTask
                rcases hHalts with hHalts | hHalts
                · rw [hHalts] at hWaiting
                  cases hWaiting
                · rw [hExit] at hHalts
                  cases hHalts
            have hMiddleRuns := hCompletion.runs h.point.has.review hRuns
            rw [List.any_append, Bool.or_eq_true]
            exact .inr (decisionTransition_upserts.mpr ⟨rfl, rfl, hMiddleRuns, hBelow⟩)
  unfold System.reruns
  simp only [hPass]
  rw [if_pos ⟨hTask.1, hUpserts, by rw [hStored, hSame]; exact hVersion.symm⟩, hTask.2]

end Cycle

/-- The first review asks for input. -/
def reviewAsks : List Action := startDraft ++ [asks] ++ passSteps 2

def waitsFirst (s : System) : Bool :=
  !s.pass.inFlight && decide (s.stored.status = .inputNeeded) &&
    decide (s.stored.workflowDefId = "limit") && (s.stored.verifierStates.lookup "review").isSome &&
    (s.stored.tasks.lookup (makeTaskAttemptId "review" 1)).isSome &&
    s.stored.tasks.toList.all fun entry => entry.2.status.isInputNeeded &&
      entry.2.taskDefId = "review" && !entry.2.earlyExit &&
      entry.1 = makeTaskAttemptId "review" entry.2.generationIndex &&
      1 ≤ entry.2.generationIndex && entry.2.generationIndex ≤ 1

theorem reviewAsks_runs :
    ((reviewAsks.foldlM (System.step limitEnv) limitStart).filter waitsFirst).isSome := by
  decide +kernel

/-- Every generation of the review can be reached. -/
theorem reviewWaits_at (generation : Nat) (hPos : 1 ≤ generation) (hLast : generation < 2 ^ 32) :
    ∃ actions s, System.Steps limitEnv limitStart actions s ∧ ReviewWaits generation s := by
  induction generation, hPos using Nat.le_induction with
  | base =>
      obtain ⟨hFound, hWaits⟩ := Option.filter_eq_some_iff.mp (Option.some_get reviewAsks_runs).symm
      simp only [waitsFirst, Bool.and_eq_true, decide_eq_true_eq, Bool.not_eq_true'] at hWaits
      obtain ⟨⟨⟨⟨⟨hEnded, hStatus⟩, hDefId⟩, hStarted⟩, hLatest⟩, hAll⟩ := hWaits
      refine ⟨_, _, Run.of_foldlM hFound, hEnded, hStatus, hDefId, hStarted, hLatest,
        fun id task hTask => ?_⟩
      have hEntry := List.all_eq_true.mp hAll (id, task) ((FiniteMap.mem_toList _ _).mpr hTask)
      simp only [Bool.and_eq_true, decide_eq_true_eq, Bool.not_eq_true'] at hEntry
      obtain ⟨⟨⟨⟨⟨hWaiting, hDefId⟩, hExit⟩, hKey⟩, hPos⟩, hLe⟩ := hEntry
      exact ⟨hWaiting, hDefId, hExit, hKey, hPos, hLe⟩
  | succ generation _ ih =>
      obtain ⟨first, s, hRun, hWaits⟩ := ih (by omega)
      obtain ⟨rest, s', hRest, hNext⟩ := hWaits.next hLast
      exact ⟨_, s', hRun.trans hRest, hNext⟩

/-- The continuation of the last generation starts again at zero, and rejects
once more than the limit says. -/
theorem last_review_reruns : ∃ verifierTask verifier actions s log,
    limitDefinition.findTask "review" = some verifierTask ∧
      taskVerifier verifierTask = some verifier ∧
      Run (Run.Traced (fun s action s' => System.step limitEnv s action = some s')
        (System.recordRerun "review")) (limitStart, []) actions (s, log) ∧
      verifier.maxIterations.toNat - 1 < log.length := by
  obtain ⟨verifier, hVerifier, hLimit⟩ := (Option.any_eq_true _ _).mp limit_verifier
  obtain ⟨first, s, hRun, hWaits⟩ := reviewWaits_at (2 ^ 32 - 1) (by omega) (by omega)
  have hZero : continuationGeneration (2 ^ 32 - 1) = 0 := rfl
  obtain ⟨second, s', started, call, hAgain, hAsked⟩ := hWaits.asked (.inl hZero)
  rw [hZero] at hAsked
  obtain ⟨third, s₁, s₂, hLast, hStep, hReruns⟩ := hAsked.reruns hWaits.allWait
  obtain ⟨log, hTraced⟩ := ((hRun.trans hAgain).trans hLast).traced []
  refine ⟨limitReview, verifier, _, s₂, System.recordRerun "review" s₁ .passStep s₂ log,
    limit_find 0 .null, hVerifier, hTraced.snoc ⟨hStep, rfl⟩, ?_⟩
  rw [of_decide_eq_true hLimit, System.recordRerun, hReruns]
  exact Nat.succ_pos _

end RelayFold
