import RelayFold.Lifecycle.AttemptOrder
import RelayFold.Lifecycle.RootInputs

/-! Who waits for human input: one attempt at most, and it is answered once. -/
namespace RelayFold

open WorkflowEngine WorkflowStateManager WorkflowService FallibleFold

/-- The attempt has asked for input, and its task has no attempt of the next
generation. -/
structure IsUnanswered (workflow : WorkflowInstance) (id : String) (task : TaskInstance) : Prop where
  found : workflow.tasks.lookup id = some task
  waiting : task.status.isInputNeeded = true
  free : workflow.tasks.lookup (makeTaskAttemptId task.taskDefId (task.generationIndex + 1)) = none

def NoneUnanswered (workflow : WorkflowInstance) : Prop :=
  ∀ id task, ¬IsUnanswered workflow id task

/-- Who waits for input, by the status of the workflow. -/
structure InputInv (definition : WorkflowDef) (workflow : WorkflowInstance) : Prop where
  small : ∀ id task, workflow.tasks.lookup id = some task → task.status.isInputNeeded = true →
    task.generationIndex + 1 < 2 ^ 32
  agent : ∀ id task, workflow.tasks.lookup id = some task → task.status.isInputNeeded = true →
    ∃ taskDef, definition.findTask task.taskDefId = some taskDef ∧ taskDef.kind.isAgent = true
  free : workflow.status ≠ .inputNeeded → workflow.status ≠ .failed → NoneUnanswered workflow
  failed : SomeFailed workflow → NoneUnanswered workflow
  waiting : workflow.status = .inputNeeded → ∃ id task, IsUnanswered workflow id task
  unique : ∀ id task id' task', IsUnanswered workflow id task → IsUnanswered workflow id' task' →
    id' = id
  latest : ∀ id task, IsUnanswered workflow id task →
    IsLatest workflow task.taskDefId task.generationIndex

/-! ### What a commit asks for -/

/-- Only an answer that asks for input leaves its attempt waiting. -/
theorem WorkflowEngine.Recorded.asks {ext : Externals} {workflow : WorkflowInstance}
    {definition : WorkflowDef} {loopSlices : LoopSlices} {id : String} {taskDef : TaskDef}
    {inputs : ResolvedTaskInputs} {answer : Answer} {result : ResultCommit}
    (h : Recorded ext workflow definition loopSlices id taskDef inputs answer result) {key : String}
    {status : TaskStatus} (hMem : .taskStatusChanged key status ∈ result.events)
    (hWaiting : status.isInputNeeded = true) :
    ∃ inputRequest, answer = .ok (.inputNeeded inputRequest) := by
  have hCompletion {schema : Option JsonSchema} {output : Json} {exit : Option String}
      (hIn : .taskStatusChanged key status ∈ completionEvents loopSlices id taskDef inputs schema
        output ++ (if exit.isSome then earlyExitEvents workflow id else [])) : False := by
    rcases completionEvents_statuses hIn with rfl | rfl
    · cases hWaiting
    · cases hWaiting
  cases h with
  | inputNeeded inputRequest => exact ⟨inputRequest, rfl⟩
  | failure _ | badOutput _ _ =>
      simp [failureEvents, inputEvents, failTaskEvents] at hMem
      rw [hMem.2] at hWaiting
      cases hWaiting
  | dispatchError _ =>
      simp [dispatchErrorEvents, inputEvents] at hMem
      rw [hMem.2] at hWaiting
      cases hWaiting
  | badExit _ _ _ =>
      rcases List.mem_append.mp hMem with hMem | hMem
      · exact (@hCompletion _ _ none (List.mem_append_left _ hMem)).elim
      · simp [failTaskEvents] at hMem
        rw [hMem.2] at hWaiting
        cases hWaiting
  | completed _ _ _ hResult =>
      cases hResult with
      | plain _ => exact (hCompletion hMem).elim
      | invalid _ _ =>
          rcases List.mem_append.mp hMem with hMem | hMem
          · exact (hCompletion hMem).elim
          · simp [invalidVerifierEvents] at hMem
            rw [hMem.2] at hWaiting
            cases hWaiting
      | decided _ _ _ hTransition =>
          obtain ⟨_, _, _, _, _, _, _, _, rfl⟩ := verifierResultTransition_ok hTransition
          rcases List.mem_append.mp hMem with hMem | hMem
          · exact (hCompletion hMem).elim
          · cases (decisionTransition_decision _ _ _ _ _ _ _ _).all _ hMem
            cases hWaiting

/-- Whoever waits after a commit has waited before. -/
def AsksNone (before after : WorkflowInstance) : Prop :=
  ∀ id b, after.tasks.lookup id = some b → b.status.isInputNeeded = true →
    ∃ a, before.tasks.lookup id = some a ∧ a.status.isInputNeeded = true

/-- An answer that is no request for input leaves no new attempt waiting. -/
theorem WorkflowEngine.Recorded.asksNone {ext : Externals} {workflow reduced : WorkflowInstance}
    {definition : WorkflowDef} {loopSlices : LoopSlices} {id : String} {task : TaskInstance}
    {taskDef : TaskDef} {inputs : ResolvedTaskInputs} {answer : Answer} {result : ResultCommit}
    (h : Recorded ext workflow definition loopSlices id taskDef inputs answer result)
    (hTask : workflow.tasks.lookup id = some task) (hRunning : task.status = .running)
    (hReduce : reduceWorkflowInstanceEvents (some workflow) result.events = .ok reduced)
    (hAnswer : ∀ inputRequest, answer ≠ .ok (.inputNeeded inputRequest)) :
    AsksNone workflow reduced := by
  have hAfter := h.result.after hReduce (by rw [hTask]; rfl) h.answers
  intro key b hb hWaiting
  cases ha : workflow.tasks.lookup key with
  | none =>
      obtain ⟨_, _, _, _, hPending⟩ := hAfter.fresh key b ha hb
      rw [hPending] at hWaiting
      cases hWaiting
  | some a =>
      refine ⟨a, rfl, ?_⟩
      by_cases hKey : key = id
      · subst hKey
        rw [hTask] at ha
        cases ha
        obtain ⟨own, hOwn, _, _, _, _, hMem⟩ := hAfter.answered task hTask hRunning
        rw [hb] at hOwn
        cases hOwn
        obtain ⟨inputRequest, hAsked⟩ := h.asks hMem hWaiting
        exact absurd hAsked (hAnswer inputRequest)
      · obtain ⟨other, hOther, _, hStatus⟩ := hAfter.other key a hKey ha
        rw [hb] at hOther
        cases hOther
        rcases hStatus with hSame | ⟨_, hSkipped⟩
        · rwa [← hSame]
        · rw [hSkipped] at hWaiting
          cases hWaiting

section Unanswered

variable {writer : Writer} {before after : WorkflowInstance}

/-- Without a new request the attempts that wait after a commit are attempts
that waited. -/
theorem AsksNone.unanswered (h : AsksNone before after) (hAfter : AttemptsAfter writer before after)
    {id : String} {b : TaskInstance} (hb : IsUnanswered after id b) :
    ∃ a, IsUnanswered before id a ∧ b.taskDefId = a.taskDefId ∧
      b.generationIndex = a.generationIndex := by
  obtain ⟨a, ha, hWaiting⟩ := h id b hb.found hb.waiting
  obtain ⟨c, hc, hMoves⟩ := hAfter.kept id a ha
  rw [hb.found] at hc
  cases hc
  refine ⟨a, ⟨ha, hWaiting, ?_⟩, hMoves.taskDefId, hMoves.generationIndex⟩
  rw [← hMoves.taskDefId, ← hMoves.generationIndex]
  cases hNext : before.tasks.lookup (makeTaskAttemptId b.taskDefId (b.generationIndex + 1)) with
  | none => rfl
  | some next =>
      obtain ⟨next', hFound, _⟩ := hAfter.kept _ next hNext
      rw [hb.free] at hFound
      cases hFound

/-- If nobody waits without a successor and nobody new asks, it stays so. -/
theorem AsksNone.noneUnanswered (h : AsksNone before after)
    (hAfter : AttemptsAfter writer before after) (hNone : NoneUnanswered before) :
    NoneUnanswered after := by
  intro id b hb
  obtain ⟨a, ha, _⟩ := h.unanswered hAfter hb
  exact hNone id a ha

variable {definition : WorkflowDef}

/-- The attempts that wait are those of agents, and their generations are small
enough to be continued. -/
theorem InputInv.small_of (h : InputInv definition before) (hAsks : AsksNone before after)
    (hAfter : AttemptsAfter writer before after) (id : String) (b : TaskInstance)
    (hb : after.tasks.lookup id = some b) (hWaiting : b.status.isInputNeeded = true) :
    b.generationIndex + 1 < 2 ^ 32 ∧ ∃ taskDef, definition.findTask b.taskDefId = some taskDef ∧
      taskDef.kind.isAgent = true := by
  obtain ⟨a, ha, hOld⟩ := hAsks id b hb hWaiting
  obtain ⟨c, hc, hMoves⟩ := hAfter.kept id a ha
  rw [hb] at hc
  cases hc
  rw [hMoves.taskDefId, hMoves.generationIndex]
  exact ⟨h.small id a ha hOld, h.agent id a ha hOld⟩

/-- A commit that asks for no input, after which nobody waits. -/
theorem InputInv.of_noneUnanswered (h : InputInv definition before)
    (hAsks : AsksNone before after) (hAfter : AttemptsAfter writer before after)
    (hNone : NoneUnanswered after) (hStatus : after.status ≠ .inputNeeded) :
    InputInv definition after where
  small id b hb hWaiting := (h.small_of hAsks hAfter id b hb hWaiting).1
  agent id b hb hWaiting := (h.small_of hAsks hAfter id b hb hWaiting).2
  free _ _ := hNone
  failed _ := hNone
  waiting hInput := absurd hInput hStatus
  unique id task _ _ hTask _ := absurd hTask (hNone id task)
  latest id task hTask := absurd hTask (hNone id task)

end Unanswered

section Write

variable {ext : Externals} {definition : WorkflowDef} {l : Lifecycle} {writer : Writer}
  {events : List WorkflowInstanceEvent} {plan : List String} {before after reduced : WorkflowInstance}

/-- A commit that neither creates an attempt nor takes one off its wait. -/
theorem InputInv.of_kept (h : InputInv definition before) (hAsks : AsksNone before after)
    (hAfter : AttemptsAfter writer before after)
    (hOld : ∀ key, before.tasks.lookup key = none → after.tasks.lookup key = none)
    (hKept : ∀ id a, IsUnanswered before id a → ∃ b, IsUnanswered after id b)
    (hFailed : SomeFailed after → SomeFailed before)
    (hWaiting : after.status = .inputNeeded → before.status = .inputNeeded)
    (hFree : after.status ≠ .inputNeeded → after.status ≠ .failed →
      before.status ≠ .inputNeeded ∧ before.status ≠ .failed) : InputInv definition after where
  small id b hb hWaits := (h.small_of hAsks hAfter id b hb hWaits).1
  agent id b hb hWaits := (h.small_of hAsks hAfter id b hb hWaits).2
  free hInput hNotFailed :=
    have ⟨hInput', hNotFailed'⟩ := hFree hInput hNotFailed
    hAsks.noneUnanswered hAfter (h.free hInput' hNotFailed')
  failed hSome := hAsks.noneUnanswered hAfter (h.failed (hFailed hSome))
  waiting hInput := by
    obtain ⟨id, a, ha⟩ := h.waiting (hWaiting hInput)
    exact ⟨id, hKept id a ha⟩
  unique id b id' b' hb hb' := by
    obtain ⟨a, ha, _⟩ := hAsks.unanswered hAfter hb
    obtain ⟨a', ha', _⟩ := hAsks.unanswered hAfter hb'
    exact h.unique id a id' a' ha ha'
  latest id b hb := by
    obtain ⟨a, ha, hTask, hGeneration⟩ := hAsks.unanswered hAfter hb
    rw [hTask, hGeneration]
    intro key c hc
    cases hOrigin : before.tasks.lookup key with
    | none =>
        have hNone := hc.found
        rw [hOld key hOrigin] at hNone
        cases hNone
    | some c' =>
        obtain ⟨d, hd, hMoves⟩ := hAfter.kept key c' hOrigin
        rw [hc.found] at hd
        cases hd
        rw [hMoves.generationIndex]
        exact h.latest id a ha key c' ⟨hOrigin, hMoves.taskDefId.symm.trans hc.taskDefId⟩

/-- In an instance that is pending, running or paused nobody waits without a
successor. -/
theorem InputInv.noneUnanswered (h : InputInv definition before)
    (hStatus : before.status = .pending ∨ before.status = .running ∨ before.status = .paused) :
    NoneUnanswered before := by
  apply h.free
  · rcases hStatus with hStatus | hStatus | hStatus <;> rw [hStatus] <;> nofun
  · rcases hStatus with hStatus | hStatus | hStatus <;> rw [hStatus] <;> nofun

/-- The waiting attempt of an accepted continuation is the one that is
unanswered. -/
theorem InputInv.unanswered (h : InputInv definition before) {id : String} {task : TaskInstance}
    (hTask : before.tasks.lookup id = some task) (hWaiting : task.status.isInputNeeded = true)
    (hNew : before.tasks.lookup (makeTaskAttemptId task.taskDefId
      (continuationGeneration task.generationIndex)) = none) : IsUnanswered before id task := by
  have hNext : continuationGeneration task.generationIndex = task.generationIndex + 1 :=
    Nat.mod_eq_of_lt (h.small id task hTask hWaiting)
  rw [hNext] at hNew
  exact ⟨hTask, hWaiting, hNew⟩

/-- A result that asks for no input leaves a workflow that runs or is paused in
another status than waiting. -/
theorem WorkflowEngine.Recorded.status_ne_inputNeeded {workflow : WorkflowInstance}
    {loopSlices : LoopSlices} {id : String} {task : TaskInstance} {taskDef : TaskDef}
    {inputs : ResolvedTaskInputs} {answer : Answer} {result : ResultCommit}
    (h : Recorded ext workflow definition loopSlices id taskDef inputs answer result)
    (hTask : workflow.tasks.lookup id = some task) (hRunning : task.status = .running)
    (hStatus : workflow.status = .running ∨ workflow.status = .paused)
    (hReduce : reduceWorkflowInstanceEvents (some workflow) result.events = .ok reduced)
    (hAsks : AsksNone workflow reduced) : reduced.status ≠ .inputNeeded := by
  have hEffect := reduceWorkflowInstanceEvents_effected hReduce
  intro hInput
  by_cases hNext : result.next = .checkPause none
  · rw [hEffect.status, foldl_statusEffect_of_work (h.goesOn hNext).1] at hInput
    rcases hStatus with hStatus | hStatus <;> rw [hStatus] at hInput <;> cases hInput
  · rw [hEffect.status, h.result.status_eq (h.ends hNext)] at hInput
    obtain ⟨own, hOwn, _, _, _, _, hMem⟩ :=
      (h.result.after hReduce (by rw [hTask]; rfl) h.answers).answered _ hTask hRunning
    cases h with
    | inputNeeded inputRequest =>
        simp [inputNeededEvents, inputEvents] at hMem
        obtain ⟨a, ha, hWaits⟩ := hAsks _ own hOwn (by rw [hMem]; rfl)
        rw [hTask] at ha
        cases ha
        rw [hRunning] at hWaits
        cases hWaits
    | _ => cases hInput

/-- Passes, pauses and resumptions write workflows in which nobody waits, and
if they ask for no input they leave them so. -/
theorem Write.leaves_idle (hWrite : Write ext definition l writer events plan)
    (hReduce : reduceWorkflowInstanceEvents (some l.stored) events = .ok reduced)
    (hAsks : AsksNone l.stored reduced)
    (hWriter : writer = .pass ∨ writer = .pause ∨ writer = .resume) :
    (l.stored.status = .pending ∨ l.stored.status = .running ∨ l.stored.status = .paused) ∧
      reduced.status ≠ .inputNeeded := by
  have hEffect := (reduceWorkflowInstanceEvents_effected hReduce).status
  cases hWrite with
  | begin hStatus | pause hStatus =>
      rw [hEffect]
      exact ⟨hStatus.imp_right .inl, by simp [WorkflowInstanceEvent.statusEffect]⟩
  | complete hStatus _ =>
      rw [hEffect]
      exact ⟨.inr hStatus, by simp [WorkflowInstanceEvent.statusEffect]⟩
  | resume hStatus =>
      rw [hEffect]
      exact ⟨.inr (.inr hStatus), by simp [WorkflowInstanceEvent.statusEffect]⟩
  | initialTasks hStatus _ =>
      rw [hEffect, foldl_statusEffect_of_work (by simp [initialTaskEvents,
        WorkflowInstanceEvent.isWork]), hStatus]
      exact ⟨.inr (.inl rfl), by simp⟩
  | initialGenerations hStatus hTasks hSlices =>
      rw [(initialGenerations_after hTasks hSlices hReduce).status, hStatus]
      exact ⟨.inr (.inl rfl), by simp⟩
  | start hStatus _ _ _ =>
      refine ⟨.inr (.inl hStatus), ?_⟩
      rw [hEffect]
      show l.stored.status ≠ _
      simp [hStatus]
  | inputFailure hStatus _ _ _ _ =>
      rw [hEffect, (@failureEvents_result l.stored _ _).status_eq
        (by simp [failureEvents, failTaskEvents])]
      exact ⟨.inr (.inl hStatus), by simp⟩
  | result hStatus _ hStarted hRunning hResult =>
      obtain ⟨_, hTask, _⟩ := startedTask_eq hStarted
      exact ⟨.inr hStatus,
        hResult.status_ne_inputNeeded hTask hRunning hStatus hReduce hAsks⟩
  | hostLost _ | humanInput _ _ _ _ _ | retry | forceRetry | recover _ =>
      rcases hWriter with hWriter | hWriter | hWriter <;> cases hWriter

/-- A submission answers the one attempt that waits: afterwards nobody does. -/
theorem InputInv.of_submitted {id : String} {task : TaskInstance} {submittedInput : Json}
    (h : InputInv definition before) (hAsks : AsksNone before after)
    (hAfter : AttemptsAfter writer before after) (hTask : before.tasks.lookup id = some task)
    (hWaiting : task.status.isInputNeeded = true)
    (hReduce : reduceWorkflowInstanceEvents (some before) [.humanInputSubmitted id
      (makeTaskAttemptId task.taskDefId (continuationGeneration task.generationIndex))
      submittedInput] = .ok after) : InputInv definition after := by
  obtain ⟨found, hSame, _, _, hNew, hReduced⟩ := humanInputSubmitted_ok (reduce_single hReduce)
  obtain rfl : found = task := Option.some.inj (hSame.symm.trans hTask)
  have hUnanswered := h.unanswered hTask hWaiting hNew
  have hNext : continuationGeneration found.generationIndex = found.generationIndex + 1 :=
    Nat.mod_eq_of_lt (h.small _ _ hTask hWaiting)
  refine h.of_noneUnanswered hAsks hAfter (fun id b hb => ?_) ?_
  · obtain ⟨a, ha, hTaskDef, hGeneration⟩ := hAsks.unanswered hAfter hb
    obtain rfl := h.unique _ _ _ _ hUnanswered ha
    have hSame := ha.found
    rw [hTask] at hSame
    cases hSame
    have hFree := hb.free
    rw [hTaskDef, hGeneration, hReduced, ← hNext, FiniteMap.lookup_insert_eq, if_pos rfl] at hFree
    cases hFree
  · rw [hReduced]
    nofun

/-- Recovery resets attempts that were running: whoever waits keeps waiting, in
the same status of the workflow. -/
theorem InputInv.of_recovered {ids : List String} (h : InputInv definition before)
    (hAsks : AsksNone before after) (hAfter : AttemptsAfter .recovery before after)
    (hReduce : reduceWorkflowInstanceEvents (some before) [.startupRecoveryApplied ids] =
      .ok after) : InputInv definition after := by
  have hTasks := (applyWorkflowInstanceEvent_effected (reduce_single hReduce)).task rfl
  have hOld (key : String) (hNone : before.tasks.lookup key = none) :
      after.tasks.lookup key = none := by
    rw [hTasks, hNone]
    simp [WorkflowInstanceEvent.taskEffect]
  have hKeeps {key : String} {a : TaskInstance} (ha : before.tasks.lookup key = some a)
      (hStatus : a.status ≠ .running) : after.tasks.lookup key = some a := by
    rw [hTasks, ha]
    simp [WorkflowInstanceEvent.taskEffect, TaskInstance.recovered, hStatus]
  have hStatus : after.status = if before.status = .running then .pending else before.status :=
    (reduceWorkflowInstanceEvents_effected hReduce).status
  have hFailed (hSome : SomeFailed after) : SomeFailed before := by
    obtain ⟨id, b, hb, hFailed⟩ := hSome
    cases ha : before.tasks.lookup id with
    | none =>
        rw [hOld id ha] at hb
        cases hb
    | some a =>
        refine ⟨id, a, ha, ?_⟩
        obtain ⟨c, hc, hMoves⟩ := hAfter.kept id a ha
        rw [hb] at hc
        cases hc
        have hMove := hMoves.status
        rw [hFailed] at hMove
        generalize a.status = status at hMove ⊢
        cases hMove
        rfl
  refine h.of_kept hAsks hAfter hOld (fun id a ha => ⟨a, ?_, ha.waiting, hOld _ ha.free⟩) hFailed
    (fun hInput => ?_) fun hNotInput hNotFailed => ?_
  · apply hKeeps ha.found
    intro hRunning
    have hWaits := ha.waiting
    rw [hRunning] at hWaits
    cases hWaits
  · rw [hStatus] at hInput
    split at hInput
    · cases hInput
    · exact hInput
  · rw [hStatus] at hNotInput hNotFailed
    split at hNotInput
    · rename_i hRunning
      rw [hRunning]
      exact ⟨by decide, by decide⟩
    · rename_i hNotRunning
      rw [if_neg hNotRunning] at hNotFailed
      exact ⟨hNotInput, hNotFailed⟩

/-- A commit that asks for no input keeps the invariant. -/
theorem Write.inputInv (hWrite : Write ext definition l writer events plan)
    (hReduce : reduceWorkflowInstanceEvents (some l.stored) events = .ok reduced)
    (hAsks : AsksNone l.stored reduced) (h : InputInv definition l.stored) : InputInv definition reduced := by
  have hAfter := hWrite.attemptsAfter hReduce
  have hEffect := reduceWorkflowInstanceEvents_effected hReduce
  have hRetried (hFailed : SomeFailed l.stored) (hStatus : reduced.status = .pending) :
      InputInv definition reduced :=
    h.of_noneUnanswered hAsks hAfter (hAsks.noneUnanswered hAfter (h.failed hFailed))
      (by rw [hStatus]; decide)
  by_cases hWriter : writer = .pass ∨ writer = .pause ∨ writer = .resume
  · obtain ⟨hStatus, hNew⟩ := hWrite.leaves_idle hReduce hAsks hWriter
    exact h.of_noneUnanswered hAsks hAfter
      (hAsks.noneUnanswered hAfter (h.noneUnanswered hStatus)) hNew
  cases hWrite with
  | hostLost hStatus =>
      cases reduce_single hReduce
      refine h.of_kept hAsks hAfter (fun _ hNone => hNone) (fun id a ha => ⟨a, ha.1, ha.2, ha.3⟩)
        (fun hSome => hSome) (fun hInput => ?_) fun _ hNot => absurd rfl hNot
      cases hInput
  | humanInput _ hTask hWaiting _ _ => exact h.of_submitted hAsks hAfter hTask hWaiting hReduce
  | retry =>
      obtain ⟨_, ⟨task, hTask, hFailed⟩, _⟩ :=
        resetFailedTaskForRetry_ok (reduce_single hReduce)
      exact hRetried ⟨_, task, hTask, hFailed⟩ hEffect.status
  | forceRetry =>
      obtain ⟨_, hMiddle, _⟩ := taskForceRetryRequested_ok (reduce_single hReduce)
      obtain ⟨_, ⟨task, hTask, hFailed⟩, _⟩ := resetFailedTaskForRetry_ok hMiddle
      exact hRetried ⟨_, task, hTask, hFailed⟩ hEffect.status
  | recover ids => exact h.of_recovered hAsks hAfter hReduce
  | _ => exact absurd (by simp) hWriter

end Write

/-! ### The run -/

/-- The attempt for which the step commits a request for input. -/
def System.asking (s : System) : Action → Option StartedTask
  | .passStep =>
      match s.pass with
      | .active pass =>
          match pass.point with
          | .commitResult started (.ok (.inputNeeded _)) _ _ _ => some started
          | _ => none
      | _ => none
  | _ => none

/-- The dispatcher asks for input for an agent alone. -/
def OnlyAgentsAsk (s : System) (action : Action) : Prop :=
  ∀ started, s.asking action = some started → started.taskDef.kind.isAgent = true

/-- An attempt that asks for input is the latest of its task, and it has a
successor. -/
def AsksInOrder (s : System) (action : Action) : Prop :=
  ∀ started, s.asking action = some started →
    IsLatest s.stored started.task.taskDefId started.task.generationIndex ∧
      started.task.generationIndex + 1 < 2 ^ 32

section Run

variable {env : EngineEnv} {definition : WorkflowDef} {before after reduced : WorkflowInstance}

/-- An attempt that asks for input is the only one that waits. -/
theorem InputInv.of_asked (h : InputInv definition before) (hFailedOnce : FailedOnce before)
    (hStatus : before.status = .running ∨ before.status = .paused) {id : String}
    {task own : TaskInstance} (hTask : before.tasks.lookup id = some task)
    (hKeyed : Keyed before)
    (hOwn : after.tasks.lookup id = some own) (hWaiting : own.status.isInputNeeded = true)
    (hNames : own.taskDefId = task.taskDefId ∧ own.generationIndex = task.generationIndex)
    (hOthers : ∀ key, key ≠ id → after.tasks.lookup key = before.tasks.lookup key)
    (hAfter : after.status = .inputNeeded)
    (hLatest : IsLatest before task.taskDefId task.generationIndex)
    (hSmall : task.generationIndex + 1 < 2 ^ 32)
    (hAgent : ∃ taskDef, definition.findTask task.taskDefId = some taskDef ∧
      taskDef.kind.isAgent = true) : InputInv definition after := by
  have hNone := h.noneUnanswered (.inr hStatus)
  have hNoneFailed : NoneFailed before := by
    apply hFailedOnce.noneFailed
    rcases hStatus with hStatus | hStatus <;> rw [hStatus] <;> nofun
  have hNext : makeTaskAttemptId task.taskDefId (task.generationIndex + 1) ≠ id := by
    rw [hKeyed id task hTask]
    intro hSame
    have hGeneration := (makeTaskAttemptId_inj.mp hSame).2
    omega
  have hOnly (key : String) (b : TaskInstance) (hb : IsUnanswered after key b) : key = id := by
    by_contra hOther
    have hFound := hb.found
    rw [hOthers key hOther] at hFound
    refine hNone key b ⟨hFound, hb.waiting, ?_⟩
    by_cases hSuccessor : makeTaskAttemptId b.taskDefId (b.generationIndex + 1) = id
    · have hFree := hb.free
      rw [hSuccessor, hOwn] at hFree
      cases hFree
    · rw [← hOthers _ hSuccessor]
      exact hb.free
  have hIsOwn {key : String} {b : TaskInstance} (hb : IsUnanswered after key b) : b = own := by
    have hFound := hb.found
    rw [hOnly key b hb, hOwn] at hFound
    exact (Option.some.inj hFound).symm
  constructor
  · intro key b hb hWaits
    by_cases hOther : key = id
    · rw [hOther, hOwn] at hb
      cases hb
      rwa [hNames.2]
    · rw [hOthers key hOther] at hb
      exact h.small key b hb hWaits
  · intro key b hb hWaits
    by_cases hOther : key = id
    · rw [hOther, hOwn] at hb
      cases hb
      rwa [hNames.1]
    · rw [hOthers key hOther] at hb
      exact h.agent key b hb hWaits
  · exact fun hInput => absurd hAfter hInput
  · rintro ⟨key, b, hb, hFailed⟩
    by_cases hOther : key = id
    · rw [hOther, hOwn] at hb
      cases hb
      rw [hFailed] at hWaiting
      cases hWaiting
    · rw [hOthers key hOther] at hb
      exact absurd hFailed (hNoneFailed key b hb)
  · refine fun _ => ⟨id, own, hOwn, hWaiting, ?_⟩
    rw [hNames.1, hNames.2, hOthers _ hNext]
    cases hFound : before.tasks.lookup (makeTaskAttemptId task.taskDefId (task.generationIndex + 1)) with
    | none => rfl
    | some next =>
        obtain ⟨hTaskDef, hGeneration⟩ := makeTaskAttemptId_inj.mp (hKeyed _ next hFound)
        have hLe := hLatest _ next ⟨hFound, hTaskDef.symm⟩
        omega
  · intro key b key' b' hb hb'
    rw [hOnly key b hb, hOnly key' b' hb']
  · intro key b hb
    rw [hIsOwn hb, hNames.1, hNames.2]
    intro other c hc
    by_cases hOther : other = id
    · have hFound := hc.found
      rw [hOther, hOwn] at hFound
      cases hFound
      exact hNames.2.le
    · exact hLatest other c ⟨by rw [← hOthers other hOther]; exact hc.found, hc.taskDefId⟩

/-- Every commit under the two conditions on the answers keeps the
invariant. -/
theorem InputInv.commit {s : System} {action : Action} {events : List WorkflowInstanceEvent}
    (h : InputInv definition s.stored) (hSound : Sound definition s.stored)
    (hAgents : OnlyAgentsAsk s action) (hOrder : AsksInOrder s action)
    (hCommit : Commit env definition s reduced action events)
    (hReduce : reduceWorkflowInstanceEvents (some s.stored) events = .ok reduced) :
    InputInv definition reduced := by
  cases hCommit with
  | quiet hWrite hQuiet _ => exact hWrite.inputInv hReduce hQuiet.waiting h
  | @result pass started answer result rest hPass hPoint hStatus hSlices hStarted hResult =>
      obtain ⟨_, hTask, hDef, _⟩ := startedTask_eq hStarted.resolved
      by_cases hAnswer : ∃ inputRequest, answer = .ok (.inputNeeded inputRequest)
      · obtain ⟨inputRequest, rfl⟩ := hAnswer
        have hAsking : s.asking .passStep = some started := by simp [System.asking, hPass, hPoint]
        obtain ⟨hLatest, hSmall⟩ := hOrder started hAsking
        have hAgent := hAgents started hAsking
        have hEffect := reduceWorkflowInstanceEvents_effected hReduce
        cases hResult with
        | inputNeeded =>
            have hOwn := (CompletionEffect.refl hTask).andThen
              (inputEvents_own.append (statusEvents_own _ _)) hReduce
            refine h.of_asked hSound.failedOnce hStatus hTask hSound.key hOwn.own rfl ⟨rfl, rfl⟩
              (fun key hKey => ?_) ?_ hLatest hSmall ⟨_, hDef, hAgent⟩
            · rw [hOwn.kept key hKey]
              cases s.stored.tasks.lookup key with
              | none => rfl
              | some task => simp
            · rw [hEffect.status]
              rfl
      · have hNot (inputRequest : String) : answer ≠ .ok (.inputNeeded inputRequest) :=
          fun hSame => hAnswer ⟨inputRequest, hSame⟩
        have hWrite : Write env.ext definition ⟨s.stored, []⟩ .pass result.events _ :=
          .result hStatus hSlices hStarted.resolved hStarted.running hResult
        exact hWrite.inputInv hReduce (hResult.asksNone hTask hStarted.running hReduce hNot) h

/-- In a new instance nobody waits. -/
theorem InputInv.created (definition : WorkflowDef) (id workflowDefId : String)
    (pinnedWorkerHost : WorkerHostId) (input : Option Json) :
    InputInv definition (System.created id workflowDefId pinnedWorkerHost input).stored := by
  have hNone : NoneUnanswered (System.created id workflowDefId pinnedWorkerHost input).stored :=
    fun key task hTask => by cases hTask.found
  refine ⟨fun key task hTask => (by cases hTask), fun key task hTask => (by cases hTask),
    fun _ _ => hNone, fun _ => hNone, fun hInput => (by cases hInput),
    fun key task _ _ hTask => absurd hTask (hNone key task),
    fun key task hTask => absurd hTask (hNone key task)⟩

/-- The version of the snapshot plays no part in the invariant. -/
theorem InputInv.withVersion (h : InputInv definition before) (version : Nat) :
    InputInv definition (before.withVersion version) := by
  have hSame {id : String} {task : TaskInstance} (hTask : IsUnanswered (before.withVersion version) id
      task) : IsUnanswered before id task := ⟨hTask.found, hTask.waiting, hTask.free⟩
  refine ⟨h.small, h.agent, fun hInput hFailed id task hTask => ?_, fun hSome id task hTask => ?_,
    fun hInput => ?_, fun id task id' task' hTask hTask' => ?_, fun id task hTask key other hOther => ?_⟩
  · exact h.free hInput hFailed id task (hSame hTask)
  · exact h.failed hSome id task (hSame hTask)
  · obtain ⟨id, task, hTask⟩ := h.waiting hInput
    exact ⟨id, task, hTask.found, hTask.waiting, hTask.free⟩
  · exact h.unique id task id' task' (hSame hTask) (hSame hTask')
  · exact h.latest id task (hSame hTask) key other ⟨hOther.found, hOther.taskDefId⟩

/-- In runs whose attempts ask for input in order, the invariant holds. -/
theorem System.StepsMeeting.inputInv {start s : System} {actions : List Action}
    (hDef : WellFormedDef definition)
    (run : System.StepsMeeting env (fun s action => OnlyAgentsAsk s action ∧ AsksInOrder s action)
      start actions s) (hTracked : Tracked env definition start)
    (hStart : InputInv definition start.stored) :
    Tracked env definition s ∧ InputInv definition s.stored := by
  refine run.keeps hDef hTracked hStart (fun s action events reduced hState h hMeets hCommit hReduce =>
    ?_) fun workflow version h => h.withVersion version
  obtain ⟨l, hRefines, _⟩ := hState
  exact h.commit hRefines.sound hMeets.1 hMeets.2 hCommit hReduce

end Run

/-! ### Submissions -/

section Submit

variable {env : EngineEnv} {definition : WorkflowDef} {s s' : System} {id requested : String}
  {task : TaskInstance} {submittedInput : Json}

/-- The latest attempt of a task is the one that the service looks up for
it. -/
theorem latestMaterializedAttemptId_of_isLatest {workflow : WorkflowInstance}
    (hKeyed : Keyed workflow) (hTask : workflow.tasks.lookup id = some task)
    (hLatest : IsLatest workflow task.taskDefId task.generationIndex) :
    latestMaterializedAttemptId workflow task.taskDefId = some id := by
  refine FiniteMap.maxKeyBy_eq_some hTask (by simp) fun key other hOther hDef hKey => ?_
  have hSame : other.taskDefId = task.taskDefId := by simpa using hDef
  have hLe := hLatest key other ⟨hOther, hSame⟩
  apply lt_of_le_of_ne hLe
  intro hGeneration
  apply hKey
  rw [hKeyed key other hOther, hKeyed id task hTask, hSame, hGeneration]

/-- Only attempt ids have a bracket. -/
theorem Keyed.lookup_none {workflow : WorkflowInstance} (hKeyed : Keyed workflow)
    (h : '[' ∉ requested.toList) : workflow.tasks.lookup requested = none := by
  cases hFound : workflow.tasks.lookup requested with
  | none => rfl
  | some other =>
      rw [hKeyed requested other hFound, makeTaskAttemptId_toList] at h
      exact absurd (List.mem_append_right _ List.mem_cons_self) h

/-- A request means the latest attempt by its own id and by the id of its
task. -/
theorem resolveTaskAttemptId_of_isLatest {workflow : WorkflowInstance} (hKeyed : Keyed workflow)
    (hTask : workflow.tasks.lookup id = some task)
    (hLatest : IsLatest workflow task.taskDefId task.generationIndex)
    (hLogical : IsLogicalId task.taskDefId)
    (hRequested : requested = id ∨ toAsciiLowercase requested = toAsciiLowercase task.taskDefId) :
    resolveTaskAttemptId workflow requested none = .ok id := by
  unfold resolveTaskAttemptId
  rcases hRequested with rfl | hRequested
  · simp [hTask]
  · rw [hLogical.normalized] at hRequested
    have hBracket : '[' ∉ requested.toList := by
      rw [← bracket_mem_toAsciiLowercase, hRequested]
      exact hLogical.bracket
    have hNoId : ¬(toAsciiLowercase requested ≠ requested ∧
        (workflow.tasks.lookup (toAsciiLowercase requested)).isSome = true) := by
      rw [hRequested, hKeyed.lookup_none hLogical.bracket]
      simp
    simp only [hKeyed.lookup_none hBracket, Option.isSome_none, Bool.false_eq_true, if_false]
    rw [if_neg hNoId, hRequested, latestMaterializedAttemptId_of_isLatest hKeyed hTask hLatest]

/-- The one who waits may be answered. -/
theorem IsUnanswered.accepted (h : IsUnanswered s.stored id task) (hKeyed : Keyed s.stored)
    (hInv : InputInv definition s.stored)
    (hDefinition : env.definitions s.stored.workflowDefId = some definition)
    (hLogical : ∀ taskId ∈ definition.taskIds, IsLogicalId taskId)
    (hStatus : s.stored.status = .inputNeeded)
    (hRequested : requested = id ∨ toAsciiLowercase requested = toAsciiLowercase task.taskDefId)
    (submittedInput : Json) :
    ∃ s', s.step env (.request (.submitHumanInput requested submittedInput) 0) = some s' ∧
      s'.stored.status = .pending ∧
      s'.stored.tasks.lookup (makeTaskAttemptId task.taskDefId (task.generationIndex + 1)) =
        some (continuationTask task.taskDefId (task.generationIndex + 1) submittedInput) := by
  obtain ⟨taskDef, hTaskDef, hAgent⟩ := hInv.agent id task h.found h.waiting
  have hResolved := resolveTaskAttemptId_of_isLatest hKeyed h.found (hInv.latest id task h)
    (hLogical _ (findTask_mem_taskIds hTaskDef)) hRequested
  have hNext : continuationGeneration task.generationIndex = task.generationIndex + 1 :=
    Nat.mod_eq_of_lt (hInv.small id task h.found h.waiting)
  have hLoad : loadWaitingTask env.definitions s.stored requested =
      .ok (id, makeTaskAttemptId task.taskDefId (task.generationIndex + 1)) := by
    unfold loadWaitingTask
    simp only [hStatus, ne_eq, not_true_eq_false, if_false, hResolved, bind, Except.bind, h.found,
      h.waiting, hDefinition, hTaskDef, hAgent, Bool.not_true, Bool.false_eq_true]
    rw [hNext, h.free]
    rfl
  have hApply : applyWorkflowInstanceEvent s.stored (.humanInputSubmitted id
      (makeTaskAttemptId task.taskDefId (task.generationIndex + 1)) submittedInput) =
      .ok { s.stored with
        tasks := s.stored.tasks.insert (makeTaskAttemptId task.taskDefId (task.generationIndex + 1))
          (continuationTask task.taskDefId (task.generationIndex + 1) submittedInput)
        status := .pending } := by
    simp only [applyWorkflowInstanceEvent, h.found, h.waiting, hNext, h.free, Bool.not_true,
      Bool.false_eq_true, if_false, ne_eq, not_true_eq_false]
  refine ⟨_, System.step_request (by simp only [Request.batch, hLoad]; rfl), ?_⟩
  rw [System.commit, commitOn_stored (List.cons_ne_nil _ _)
    (by simp only [reduceWorkflowInstanceEvents, List.foldlM_cons, hApply]; rfl)]
  exact ⟨rfl, (FiniteMap.lookup_insert_eq ..).trans (if_pos rfl)⟩

/-- What becomes of a submission: it is refused, or it continues an attempt
that waits and has no continuation yet. -/
inductive Submitted (env : EngineEnv) (s : System) (requested : String) (submittedInput : Json)
    (base : WorkflowInstance) (s' : System) : Prop
  | refused {message : String}
      (hBatch : (Request.submitHumanInput requested submittedInput).batch env.definitions base =
        .error message) (hSame : s' = s)
  | conflicted {events : List WorkflowInstanceEvent} {error : StorageError}
      (hBatch : (Request.submitHumanInput requested submittedInput).batch env.definitions base =
        .ok (some events)) (hCommit : commitOn s.stored base events = .error error) (hSame : s' = s)
  | continued {id next : String} {task : TaskInstance} (hBase : base = s.stored)
      (hLoad : loadWaitingTask env.definitions s.stored requested = .ok (id, next))
      (hTask : s.stored.tasks.lookup id = some task) (hWaiting : task.status.isInputNeeded = true)
      (hNext : next = makeTaskAttemptId task.taskDefId (continuationGeneration task.generationIndex))
      (hNew : s.stored.tasks.lookup next = none)
      (hTasks : ∀ key, s'.stored.tasks.lookup key = if key = next then
          some (continuationTask task.taskDefId (continuationGeneration task.generationIndex)
            submittedInput)
        else s.stored.tasks.lookup key) :
      Submitted env s requested submittedInput base s'

/-- A submission that is accepted has been decided on a snapshot that was
stored once, and it is committed on that snapshot or refused. -/
theorem HistoryInv.submitted (h : HistoryInv env definition s) {seen : Nat}
    (hStep : s.step env (.request (.submitHumanInput requested submittedInput) seen) = some s') :
    ∃ base, s.snapshots[seen]? = some base ∧ Submitted env s requested submittedInput base s' := by
  simp only [System.step] at hStep
  obtain ⟨base, hBase, hStep⟩ := Option.bind_eq_some_iff.mp hStep
  refine ⟨base, hBase, ?_⟩
  cases hLoad : loadWaitingTask env.definitions base requested with
  | error message =>
      have hBatch : (Request.submitHumanInput requested submittedInput).batch env.definitions base =
          .error message := by
        simp only [Request.batch, hLoad]
        rfl
      rw [hBatch] at hStep
      cases hStep
      exact .refused hBatch rfl
  | ok found =>
      obtain ⟨id, next⟩ := found
      have hBatch : (Request.submitHumanInput requested submittedInput).batch env.definitions base =
          .ok (some [.humanInputSubmitted id next submittedInput]) := by
        simp only [Request.batch, hLoad]
        rfl
      rw [hBatch] at hStep
      cases hStep
      unfold System.commit
      cases hCommit : commitOn s.stored base [.humanInputSubmitted id next submittedInput] with
      | error error => exact .conflicted hBatch hCommit rfl
      | ok updated =>
          obtain ⟨_, hVersion, reduced, hReduce, rfl⟩ := commitOn_ok hCommit
          obtain rfl := h.eq_stored (List.mem_of_getElem? hBase) hVersion
          obtain ⟨task, hTask, hWaiting, hNext, hNew, rfl⟩ :=
            humanInputSubmitted_ok (reduce_single hReduce)
          exact .continued rfl hLoad hTask hWaiting hNext hNew fun key =>
            FiniteMap.lookup_insert_eq ..

end Submit

/-- The step continues the attempt: a submission for it is accepted. -/
def System.continues (env : EngineEnv) (id : String) (s : System) (action : Action) (s' : System) :
    Bool :=
  match action with
  | .request (.submitHumanInput requested _) seen =>
      (s.snapshots[seen]?.any fun base =>
        ((loadWaitingTask env.definitions base requested).toOption.map Prod.fst) = some id) &&
      s'.stored.version ≠ s.stored.version
  | _ => false

/-- How often the attempt has been continued. -/
def System.countContinued (env : EngineEnv) (id : String) (s : System) (action : Action)
    (s' : System) (count : Nat) : Nat :=
  if System.continues env id s action s' then count + 1 else count

/-- The attempt has its continuation. -/
def IsContinued (workflow : WorkflowInstance) (id : String) : Prop :=
  ∃ task, workflow.tasks.lookup id = some task ∧ (workflow.tasks.lookup (makeTaskAttemptId
    task.taskDefId (continuationGeneration task.generationIndex))).isSome = true

section Count

variable {env : EngineEnv} {definition : WorkflowDef} {s s' : System} {id : String}

/-- An attempt that has a successor keeps it. -/
theorem IsContinued.of_attemptsAfter {writer : Writer} {before after : WorkflowInstance}
    (h : IsContinued before id) (hAfter : AttemptsAfter writer before after) :
    IsContinued after id := by
  obtain ⟨task, hTask, hNext⟩ := h
  obtain ⟨next, hNext⟩ := Option.isSome_iff_exists.mp hNext
  obtain ⟨task', hTask', hMoves⟩ := hAfter.kept id task hTask
  obtain ⟨next', hNext', _⟩ := hAfter.kept _ next hNext
  refine ⟨task', hTask', ?_⟩
  rw [hMoves.taskDefId, hMoves.generationIndex, hNext']
  rfl

/-- A step that continues the attempt finds it without a continuation. -/
theorem HistoryInv.continues (h : HistoryInv env definition s) {action : Action}
    (hStep : s.step env action = some s') (hContinues : System.continues env id s action s' = true) :
    ¬IsContinued s.stored id ∧ IsContinued s'.stored id := by
  unfold System.continues at hContinues
  split at hContinues
  · rename_i requested submittedInput seen
    rw [Bool.and_eq_true, Option.any_eq_true] at hContinues
    obtain ⟨⟨read, hRead, hLoaded⟩, hVersion⟩ := hContinues
    obtain ⟨base, hBase, hSubmitted⟩ := h.submitted hStep
    rw [hRead] at hBase
    cases hBase
    cases hSubmitted with
    | refused _ hSame | conflicted _ _ hSame => simp [hSame] at hVersion
    | @continued found next task hStored hLoad hTask hWaiting hNext hNew hTasks =>
        rw [hStored, hLoad] at hLoaded
        have hId : found = id := by simpa [Except.toOption] using hLoaded
        rw [hId] at hTask
        have hOther : id ≠ next := by
          rintro rfl
          rw [hNew] at hTask
          cases hTask
        constructor
        · rintro ⟨other, hOther, hSome⟩
          rw [hTask] at hOther
          cases hOther
          rw [← hNext, hNew] at hSome
          cases hSome
        · refine ⟨task, by rw [hTasks, if_neg hOther, hTask], ?_⟩
          rw [← hNext, hTasks, if_pos rfl]
          rfl
  · cases hContinues

/-- No attempt is continued twice. -/
theorem System.Steps.continued_once {start : System × Nat} {last : System × Nat}
    {actions : List Action}
    (run : Run (Run.Traced (fun s action s' => System.step env s action = some s')
      (System.countContinued env id)) start actions last)
    (hStart : ∃ l, Refines env definition start.1 l) (hCount : start.2 = 0) : last.2 ≤ 1 := by
  have hInv := run.invariant (P := fun p => (∃ l, Refines env definition p.1 l) ∧ p.2 ≤ 1 ∧
    (p.2 = 1 → IsContinued p.1.stored id)) ⟨hStart, by omega, by omega⟩ ?_
  · exact hInv.2.1
  · rintro ⟨s, count⟩ action ⟨s', count'⟩ ⟨⟨l, hRefines⟩, hLe, hContinued⟩ ⟨hStep, hRecord⟩
    dsimp only at hStep hRecord hLe hContinued ⊢
    obtain ⟨⟨l', _, _, _, hRefines'⟩, hExtended⟩ := hRefines.step hStep
    refine ⟨⟨l', hRefines'⟩, ?_⟩
    rw [hRecord, System.countContinued]
    split
    · rename_i hContinues
      obtain ⟨hBefore, hAfter⟩ := hRefines.history.continues hStep hContinues
      have hZero : count ≠ 1 := fun hOne => hBefore (hContinued hOne)
      exact ⟨by omega, fun _ => hAfter⟩
    · exact ⟨hLe, fun hOne => (hContinued hOne).of_attemptsAfter hExtended.attemptsAfter⟩

end Count

/-- The workflow waits for one attempt, the latest of its task, and a
submission for it is accepted. -/
def WaitsForOne (env : EngineEnv) (s : System) : Prop :=
  ∃ id task, IsUnanswered s.stored id task ∧
    (∀ id' task', IsUnanswered s.stored id' task' → id' = id) ∧
    IsLatest s.stored task.taskDefId task.generationIndex ∧
    ∀ requested submittedInput,
      requested = id ∨ toAsciiLowercase requested = toAsciiLowercase task.taskDefId →
      ∃ s', s.step env (.request (.submitHumanInput requested submittedInput) 0) = some s' ∧
        s'.stored.status = .pending ∧
        s'.stored.tasks.lookup (makeTaskAttemptId task.taskDefId (task.generationIndex + 1)) =
          some (continuationTask task.taskDefId (task.generationIndex + 1) submittedInput)

/-- In runs in which only latest attempts ask for input, the workflow waits for
one attempt. In every run, no attempt is continued twice, and a submission that
continues none changes nothing. -/
theorem System.Steps.human_input_answered_once {env : EngineEnv}
    {submitted definition : WorkflowDef} {id workflowDefId : String}
    {pinnedWorkerHost : WorkerHostId} {input : Option Json}
    (hAccepted : validateAndNormalizeWorkflowDef submitted = .ok definition)
    (hDefinition : env.definitions workflowDefId = some definition) :
    (∀ actions s, System.StepsMeeting env (fun s action => OnlyAgentsAsk s action ∧
        AsksInOrder s action) (System.created id workflowDefId pinnedWorkerHost input) actions s →
      s.stored.status = .inputNeeded → WaitsForOne env s) ∧
    (∀ taskAttemptId actions s count,
      Run (Run.Traced (fun s action s' => System.step env s action = some s')
        (System.countContinued env taskAttemptId))
        (System.created id workflowDefId pinnedWorkerHost input, 0) actions (s, count) →
      count ≤ 1) ∧
    ∀ actions s,
      System.Steps env (System.created id workflowDefId pinnedWorkerHost input) actions s →
      ∀ requested submittedInput seen s',
        s.step env (.request (.submitHumanInput requested submittedInput) seen) = some s' →
        ∃ base, s.snapshots[seen]? = some base ∧
          Submitted env s requested submittedInput base s' := by
  have hDef := validateAndNormalizeWorkflowDef_ok hAccepted
  have hTracked : Tracked env definition (System.created id workflowDefId pinnedWorkerHost input) :=
    .created pinnedWorkerHost input hDefinition
  refine ⟨fun actions s run hStatus => ?_, fun taskAttemptId actions s count run => ?_,
    fun actions s run requested submittedInput seen s' hStep => ?_⟩
  · obtain ⟨⟨l, hRefines, _⟩, hInv⟩ := run.inputInv hDef hTracked (.created ..)
    obtain ⟨waitingId, task, hTask⟩ := hInv.waiting hStatus
    exact ⟨waitingId, task, hTask, fun id' task' hTask' => hInv.unique _ _ id' task' hTask hTask',
      hInv.latest _ _ hTask, fun requested submittedInput hRequested =>
        hTask.accepted hRefines.sound.key hInv (hRefines.history.defId _ List.mem_cons_self)
          (validateAndNormalizeWorkflowDef_logicalIds hAccepted) hStatus hRequested submittedInput⟩
  · obtain ⟨l, hRefines, _⟩ := hTracked
    exact System.Steps.continued_once run ⟨l, hRefines⟩ rfl
  · obtain ⟨l, _, _, hRefines⟩ := run.refines hDefinition
    exact hRefines.history.submitted hStep

/-! A chain whose review comes first in the order of the ids. -/

def chainSubmitted : WorkflowDef where
  id := "chain"
  exampleInput := none
  description := "draft, edit, a-review"
  tasks := [sampleTask "draft" none, sampleTask "edit" none,
    sampleTask "a-review" (some
      { maxIterations := 3, onExhaustedContinue := false, rerunFromTaskId := some "draft" })]
  dataBindings := [⟨"edit", "draft"⟩, ⟨"a-review", "edit"⟩]

theorem chainSubmitted_accepted :
    (validateAndNormalizeWorkflowDef chainSubmitted).toOption.isSome := by
  decide +kernel

def chainDefinition : WorkflowDef :=
  (validateAndNormalizeWorkflowDef chainSubmitted).toOption.get chainSubmitted_accepted

def chainEnv : EngineEnv :=
  { sampleEnv with definitions := fun id => if id = "chain" then some chainDefinition else none }

def chainStart : System := System.created "chain-1" "chain" ⟨"host"⟩ none

def passSteps (count : Nat) : List Action := List.replicate count .passStep

def succeeds : Action := .answer (.ok (.success (.object [])))

def asks : Action := .answer (.ok (.inputNeeded "which one?"))

/-- The first draft asks for input. -/
def draftAsks : List Action := startDraft ++ [asks] ++ passSteps 2

/-- The first edit is continued, the next two reviews send the draft back, and
then the second draft asks for input. -/
def secondDraftAsks : List Action :=
  startDraft ++ [succeeds] ++ passSteps 5 ++ [asks] ++ passSteps 2 ++
    [.request (.submitHumanInput "edit" .null) 0, .startPass []] ++ passSteps 6 ++ [succeeds] ++
    passSteps 5 ++ [.answer reviewAnswer] ++ passSteps 5 ++ [.answer reviewAnswer] ++ passSteps 5 ++
    [asks] ++ passSteps 2

def asksAgent (s : System) (action : Action) : Bool :=
  (s.asking action).all fun started => started.taskDef.kind.isAgent

def asksLatest (s : System) (action : Action) : Bool :=
  (s.asking action).all fun started =>
    (s.stored.tasks.toList.all fun entry => entry.2.taskDefId ≠ started.task.taskDefId ||
      entry.2.generationIndex ≤ started.task.generationIndex) &&
    started.task.generationIndex + 1 < 2 ^ 32

theorem onlyAgentsAsk_of_asksAgent {s : System} {action : Action} (h : asksAgent s action = true) :
    OnlyAgentsAsk s action := fun started hAsking => by
  rw [asksAgent, hAsking] at h
  exact h

/-- The check that whoever asks is the latest attempt of the task. -/
theorem asksInOrder_of_asksLatest {s : System} {action : Action} (h : asksLatest s action = true) :
    AsksInOrder s action := by
  intro started hAsking
  rw [asksLatest, hAsking, Option.all_some, Bool.and_eq_true, List.all_eq_true] at h
  refine ⟨fun id task hTask => ?_, of_decide_eq_true h.2⟩
  have hEntry := h.1 (id, task) ((FiniteMap.mem_toList _ _).mpr hTask.found)
  simpa [hTask.taskDefId] using hEntry

/-- The sample run in which the draft asks for input goes through. -/
theorem draftAsks_runs : ((draftAsks.foldlM (fun s action =>
    if asksAgent s action && asksLatest s action then System.step chainEnv s action else none)
      chainStart).filter fun s => s.stored.status = .inputNeeded).isSome := by
  decide +kernel

/-- The workflow waits for the first draft. -/
theorem System.Steps.human_input_answered_once_draft : ∃ s, System.StepsMeeting chainEnv
    (fun s action => OnlyAgentsAsk s action ∧ AsksInOrder s action) chainStart draftAsks s ∧
      s.stored.status = .inputNeeded ∧ WaitsForOne chainEnv s := by
  have hAccepted : validateAndNormalizeWorkflowDef chainSubmitted = .ok chainDefinition :=
    eq_ok_get chainSubmitted_accepted
  have hDefinition : chainEnv.definitions "chain" = some chainDefinition := rfl
  obtain ⟨hFound, hStatus⟩ :=
    Option.filter_eq_some_iff.mp (Option.some_get draftAsks_runs).symm
  have run : System.StepsMeeting chainEnv (fun s action => OnlyAgentsAsk s action ∧
      AsksInOrder s action) chainStart draftAsks _ :=
    (Run.of_guarded hFound).mono fun s action s' hStep => by
      rw [Bool.and_eq_true] at hStep
      exact ⟨hStep.1, onlyAgentsAsk_of_asksAgent hStep.2.1, asksInOrder_of_asksLatest hStep.2.2⟩
  have hInput := of_decide_eq_true hStatus
  exact ⟨_, run, hInput,
    (System.Steps.human_input_answered_once hAccepted hDefinition).1 _ _ run hInput⟩

def noneUnanswered (workflow : WorkflowInstance) : Bool :=
  workflow.tasks.toList.all fun entry => !entry.2.status.isInputNeeded ||
    (workflow.tasks.lookup (makeTaskAttemptId entry.2.taskDefId
      (entry.2.generationIndex + 1))).isSome

theorem noneUnanswered_of_check {workflow : WorkflowInstance} (h : noneUnanswered workflow = true) :
    NoneUnanswered workflow := by
  intro id task hTask
  have hEntry := List.all_eq_true.mp h (id, task) ((FiniteMap.mem_toList _ _).mpr hTask.found)
  simp [hTask.waiting, hTask.free] at hEntry

/-- In the other run the first attempt of the draft asks although it has a
successor, so the instance waits for nobody. -/
theorem secondDraftAsks_runs : ((secondDraftAsks.foldlM (fun s action =>
    if asksAgent s action then System.step chainEnv s action else none) chainStart).filter fun s =>
      s.stored.status = .inputNeeded && noneUnanswered s.stored).isSome := by
  decide +kernel

/-- The second draft asks for input while the third exists: the workflow waits
for nobody. -/
theorem waits_for_nobody : ∃ s, System.StepsMeeting chainEnv OnlyAgentsAsk chainStart
    secondDraftAsks s ∧ s.stored.status = .inputNeeded ∧ NoneUnanswered s.stored := by
  obtain ⟨hFound, hChecked⟩ :=
    Option.filter_eq_some_iff.mp (Option.some_get secondDraftAsks_runs).symm
  rw [Bool.and_eq_true] at hChecked
  exact ⟨_, (Run.of_guarded hFound).mono fun s action s' hStep =>
    ⟨hStep.1, onlyAgentsAsk_of_asksAgent hStep.2⟩, of_decide_eq_true hChecked.1,
    noneUnanswered_of_check hChecked.2⟩

end RelayFold
