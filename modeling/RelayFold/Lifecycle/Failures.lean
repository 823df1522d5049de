import RelayFold.Lifecycle.RootInputs

/-! Failed workflows: what fails them, what a retry changes, and which host
they are pinned to. -/
namespace RelayFold

open WorkflowEngine WorkflowStateManager WorkflowService FallibleFold

/-! ### Failed attempts -/

/-- A decision with an error message fails the verifier attempt and the
workflow. -/
theorem decisionTransition_fails {id : String} {snapshot : WorkflowInstance}
    {verifierTask : TaskDef} {verifier : VerifierControlConfig} {slice : List String}
    {generation : Nat} {state : VerifierGenerationState} {taskOutput : Json}
    {result : VerifierExecutionResult}
    (h : (decisionTransition snapshot verifierTask verifier slice id generation state taskOutput
      result).errorMessage ≠ none) :
    .taskStatusChanged id .failed ∈ (decisionTransition snapshot verifierTask verifier slice id
      generation state taskOutput result).events := by
  revert h
  unfold decisionTransition
  split
  · exact fun h => absurd rfl h
  · dsimp only
    split
    · exact fun _ => List.mem_cons_of_mem _ List.mem_cons_self
    · unfold continueTransition
      dsimp only
      split
      · exact fun h => absurd rfl h
      · split
        · exact fun h => absurd rfl h
        · split
          · split
            · simp [failVerifierEvents]
            · exact fun h => absurd rfl h
          · simp [failVerifierEvents]

/-- A result that fails the workflow fails its attempt, and nothing after that
revives it. -/
theorem WorkflowEngine.Recorded.fails {ext : Externals} {workflow : WorkflowInstance}
    {definition : WorkflowDef} {loopSlices : LoopSlices} {id : String} {taskDef : TaskDef}
    {inputs : ResolvedTaskInputs} {answer : Answer} {result : ResultCommit}
    (h : Recorded ext workflow definition loopSlices id taskDef inputs answer result)
    (hNext : result.next ≠ .checkPause none) (hFailed : answerStatus answer = .failed) :
    ∃ before rest, result.events = before ++ .taskStatusChanged id .failed :: rest ∧
      ∀ status, .taskStatusChanged id status ∈ rest → status = .failed := by
  cases h with
  | inputNeeded _ => cases hFailed
  | failure _ | badOutput _ _ =>
      exact ⟨inputEvents id inputs, _, rfl, by simp⟩
  | dispatchError _ => exact ⟨inputEvents id inputs, _, rfl, by simp⟩
  | badExit _ _ _ => exact ⟨_, _, rfl, by simp⟩
  | completed _ _ _ hResult =>
      cases hResult with
      | plain _ => exact absurd rfl hNext
      | invalid _ _ => exact ⟨_, _, rfl, by simp⟩
      | decided _ _ _ hTransition =>
          obtain ⟨_, verifierTask, verifier, state, _, _, _, _, rfl⟩ :=
            verifierResultTransition_ok hTransition
          have hMem := decisionTransition_fails fun hMessage => hNext (by rw [hMessage])
          obtain ⟨first, rest, hSplit⟩ := List.append_of_mem hMem
          refine ⟨_, rest, by rw [hSplit, ← List.append_assoc], fun status hStatus => ?_⟩
          have hIn := List.mem_append_right first (List.mem_cons_of_mem (.taskStatusChanged id .failed) hStatus)
          rw [← hSplit] at hIn
          cases (decisionTransition_decision _ _ _ _ _ _ _ _).all _ hIn
          rfl

/-- The workflow has a failed attempt. -/
def SomeFailed (workflow : WorkflowInstance) : Prop :=
  ∃ id task, workflow.tasks.lookup id = some task ∧ task.status = .failed

/-- Where the failure of a workflow comes from: an attempt, unless the host was
lost. -/
structure FailureOrigin (lost : Bool) (workflow : WorkflowInstance) : Prop where
  attempt : lost = false → workflow.status = .failed → SomeFailed workflow
  host : lost = true → workflow.status = .failed ∧ NoneFailed workflow

/-- While the instance has not failed, there is no failure to account for. -/
theorem FailureOrigin.of_status {lost : Bool} {before after : WorkflowInstance}
    (h : FailureOrigin lost before) (hBefore : before.status ≠ .failed)
    (hAfter : after.status ≠ .failed) : FailureOrigin lost after :=
  ⟨fun _ hStatus => absurd hStatus hAfter, fun hLost => absurd (h.host hLost).1 hBefore⟩

/-- A retry takes a failed attempt, which no host loss leaves, and the workflow
is no longer failed. -/
theorem FailureOrigin.of_retry {lost : Bool} {before after : WorkflowInstance} {id : String}
    {task : TaskInstance} (h : FailureOrigin lost before)
    (hTask : before.tasks.lookup id = some task) (hFailed : task.status = .failed)
    (hAfter : after.status = .pending) : FailureOrigin lost after := by
  refine ⟨fun _ hStatus => ?_, fun hLost => absurd hFailed ((h.host hLost).2 id task hTask)⟩
  rw [hAfter] at hStatus
  cases hStatus

/-- A recovery fails no attempt and revives none, nor does it change whether
the workflow has failed. -/
theorem FailureOrigin.of_recovery {lost : Bool} {before after : WorkflowInstance}
    {ids : List String} (h : FailureOrigin lost before)
    (hReduce : reduceWorkflowInstanceEvents (some before) [.startupRecoveryApplied ids] =
      .ok after) : FailureOrigin lost after := by
  have hStatus : after.status = .failed ↔ before.status = .failed := by
    rw [(reduceWorkflowInstanceEvents_effected hReduce).status]
    simp only [List.foldl_cons, List.foldl_nil, WorkflowInstanceEvent.statusEffect]
    split
    · rename_i hRunning
      simp [hRunning]
    · rfl
  have hTasks := (applyWorkflowInstanceEvent_effected (reduce_single hReduce)).task rfl
  refine ⟨fun hLost hFailed => ?_, fun hLost => ⟨hStatus.mpr (h.host hLost).1, ?_⟩⟩
  · obtain ⟨id, task, hTask, hTaskFailed⟩ := h.attempt hLost (hStatus.mp hFailed)
    refine ⟨id, task, ?_, hTaskFailed⟩
    rw [hTasks, hTask]
    simp [WorkflowInstanceEvent.taskEffect, TaskInstance.recovered, hTaskFailed]
  · intro id task hTask hFailed
    rw [hTasks] at hTask
    simp only [WorkflowInstanceEvent.taskEffect] at hTask
    split at hTask
    · obtain ⟨a, ha, rfl⟩ := Option.map_eq_some_iff.mp hTask
      refine (h.host hLost).2 id a ha ?_
      unfold TaskInstance.recovered at hFailed
      split at hFailed
      · cases hFailed
      · exact hFailed
    · exact (h.host hLost).2 id task hTask hFailed

/-- A result that fails the workflow has failed its own attempt. -/
theorem FailureOrigin.of_result {ext : Externals} {definition : WorkflowDef} {lost : Bool}
    {before after : WorkflowInstance} {loopSlices : LoopSlices} {started : StartedTask}
    {answer : Answer} {result : ResultCommit} (h : FailureOrigin lost before)
    (hOld : before.status ≠ .failed)
    (hStarted : startedTask before definition loopSlices started.taskAttemptId = some started)
    (hRunning : started.task.status = .running)
    (hResult : Recorded ext before definition loopSlices started.taskAttemptId started.taskDef
      started.inputs answer result)
    (hReduce : reduceWorkflowInstanceEvents (some before) result.events = .ok after) :
    FailureOrigin lost after := by
  have hEffect := reduceWorkflowInstanceEvents_effected hReduce
  obtain ⟨_, hTask, _⟩ := startedTask_eq hStarted
  by_cases hNext : result.next = .checkPause none
  · refine h.of_status hOld ?_
    rw [hEffect.status, foldl_statusEffect_of_work (hResult.goesOn hNext).1]
    exact hOld
  · by_cases hAnswer : answerStatus answer = .failed
    · obtain ⟨first, rest, hSplit, hRest⟩ := hResult.fails hNext hAnswer
      have hEvents := hResult.result
      rw [hSplit] at hReduce hEvents
      obtain ⟨b, hb, _, _, _, hFailed⟩ := hEvents.status_after hReduce hTask hRunning
        (· = .failed) rfl fun status _ hMem => hRest status hMem
      exact ⟨fun _ _ => ⟨_, b, hb, hFailed⟩, fun hLost => absurd (h.host hLost).1 hOld⟩
    · refine h.of_status hOld ?_
      rw [hEffect.status, hResult.result.status_eq (hResult.ends hNext)]
      exact hAnswer

/-- Every commit but that of a host loss keeps the origin of a failure. -/
theorem Write.failureOrigin {ext : Externals} {definition : WorkflowDef} {l : Lifecycle}
    {writer : Writer} {events : List WorkflowInstanceEvent} {plan : List String}
    {reduced : WorkflowInstance} {lost : Bool}
    (hWrite : Write ext definition l writer events plan)
    (hReduce : reduceWorkflowInstanceEvents (some l.stored) events = .ok reduced)
    (hWriter : writer ≠ .hostLost) (h : FailureOrigin lost l.stored) :
    FailureOrigin lost reduced := by
  have hEffect := reduceWorkflowInstanceEvents_effected hReduce
  cases hWrite with
  | begin hStatus | pause hStatus =>
      refine h.of_status (by rcases hStatus with h | h <;> simp [h]) ?_
      rw [hEffect.status]
      intro hFalse
      cases hFalse
  | complete hStatus _ =>
      refine h.of_status (by rcases hStatus with h | h <;> simp [h]) ?_
      rw [hEffect.status]
      intro hFalse
      cases hFalse
  | resume hStatus =>
      refine h.of_status (by simp [hStatus]) ?_
      rw [hEffect.status]
      intro hFalse
      cases hFalse
  | hostLost _ => exact absurd rfl hWriter
  | initialTasks hStatus _ =>
      refine h.of_status (by simp [hStatus]) ?_
      rw [hEffect.status, foldl_statusEffect_of_work (by simp [initialTaskEvents,
        WorkflowInstanceEvent.isWork]), hStatus]
      intro hFalse
      cases hFalse
  | initialGenerations hStatus hTasks hSlices =>
      refine h.of_status (by simp [hStatus]) ?_
      rw [(initialGenerations_after hTasks hSlices hReduce).status, hStatus]
      intro hFalse
      cases hFalse
  | start hStatus _ _ _ =>
      refine h.of_status (by simp [hStatus]) ?_
      rw [hEffect.status]
      change l.stored.status ≠ _
      rw [hStatus]
      intro hFalse
      cases hFalse
  | inputFailure hStatus _ hStarted hRunning _ =>
      obtain ⟨_, hTask, _⟩ := startedTask_eq hStarted
      have hEvents := @failureEvents_result l.stored
      obtain ⟨b, hb, _, _, _, hFailed⟩ := (hEvents _).status_after hReduce hTask hRunning
        (· = .failed) rfl (by simp)
      exact ⟨fun _ _ => ⟨_, b, hb, hFailed⟩, fun hLost =>
        absurd (h.host hLost).1 (by simp [hStatus])⟩
  | @result loopSlices started answer result hStatus _ hStarted hRunning hResult =>
      have hOld : l.stored.status ≠ .failed := by rcases hStatus with h | h <;> simp [h]
      exact h.of_result hOld hStarted hRunning hResult hReduce
  | humanInput hStatus _ _ _ _ =>
      refine h.of_status (by simp [hStatus]) ?_
      rw [hEffect.status]
      intro hFalse
      cases hFalse
  | retry =>
      obtain ⟨_, ⟨task, hTask, hFailed⟩, _⟩ := resetFailedTaskForRetry_ok (reduce_single hReduce)
      exact h.of_retry hTask hFailed hEffect.status
  | forceRetry =>
      obtain ⟨_, hMiddle, _⟩ := taskForceRetryRequested_ok (reduce_single hReduce)
      obtain ⟨_, ⟨task, hTask, hFailed⟩, _⟩ := resetFailedTaskForRetry_ok hMiddle
      exact h.of_retry hTask hFailed hEffect.status
  | recover ids => exact h.of_recovery hReduce

/-- A host loss fails a workflow without failing an attempt. -/
theorem Write.hostLost_failureOrigin {ext : Externals} {definition : WorkflowDef} {l : Lifecycle}
    {events : List WorkflowInstanceEvent} {plan : List String} {reduced : WorkflowInstance}
    (hWrite : Write ext definition l .hostLost events plan)
    (hReduce : reduceWorkflowInstanceEvents (some l.stored) events = .ok reduced)
    (hSound : Sound definition l.stored) : FailureOrigin true reduced := by
  cases hWrite with
  | hostLost hStatus =>
      cases reduce_single hReduce
      exact ⟨nofun, fun _ => ⟨rfl, hSound.failedOnce.noneFailed hStatus.2⟩⟩

/-! ### Retries -/

/-- What an accepted retry makes of the snapshot. -/
inductive Retried (before after : WorkflowInstance) : Request → Prop
  | retry {taskId id : String} {task : TaskInstance}
      (hTask : before.tasks.lookup id = some task) (hFailed : task.status = .failed)
      (hAfter : after = { before with
        version := before.version + 1
        status := .pending
        tasks := before.tasks.modify id TaskInstance.resetForRetry }) :
      Retried before after (.retryTask taskId)
  | forceRetry {taskId id : String} {target : WorkerHostId} {task : TaskInstance}
      (hTask : before.tasks.lookup id = some task) (hFailed : task.status = .failed)
      (hAfter : after = { before with
        version := before.version + 1
        status := .pending
        pinnedWorkerHost := some target
        tasks := before.tasks.modify id TaskInstance.resetForRetry }) :
      Retried before after (.forceRetryTask taskId target)

def Request.isRetry : Request → Bool
  | retryTask _ | forceRetryTask .. => true
  | _ => false

section System

variable {env : EngineEnv} {definition : WorkflowDef} {s s' : System} {l : Lifecycle}

/-- A commit on a snapshot that was read is refused, or it is on the stored
one. -/
theorem Refines.commit_eq (h : Refines env definition s l) {base : WorkflowInstance}
    (hHeld : base ∈ s.snapshots) (events : List WorkflowInstanceEvent) :
    s.commit base events = s ∨ base = s.stored ∧ ∃ reduced,
      reduceWorkflowInstanceEvents (some s.stored) events = .ok reduced ∧
      s.commit base events = s.saved (reduced.withVersion (s.stored.version + events.length)) := by
  unfold System.commit
  cases hCommit : commitOn s.stored base events with
  | error _ => exact .inl rfl
  | ok updated =>
      obtain ⟨_, hVersion, reduced, hReduce, rfl⟩ := commitOn_ok hCommit
      obtain rfl := h.history.eq_stored hHeld hVersion
      exact .inr ⟨rfl, reduced, hReduce, rfl⟩

/-- A retry that is refused leaves the store as it is; an accepted one resets
its attempt. -/
theorem Refines.retried (h : Refines env definition s l) {request : Request} {seen : Nat}
    (hRetry : request.isRetry = true) (hStep : s.step env (.request request seen) = some s') :
    s' = s ∨ Retried s.stored s'.stored request := by
  simp only [System.step] at hStep
  obtain ⟨base, hBase, hStep⟩ := Option.bind_eq_some_iff.mp hStep
  have hHeld := List.mem_of_getElem? hBase
  split at hStep
  · rename_i events hBatch
    cases hStep
    have hCommit := h.commit_eq hHeld events
    rcases hCommit with hRefused | ⟨_, reduced, hReduce, hSaved⟩
    · exact .inl hRefused
    · rw [hSaved]
      right
      cases request with
      | retryTask taskId =>
          obtain ⟨id, _, hBatch⟩ := bind_ok.mp hBatch
          cases hBatch
          obtain ⟨_, ⟨task, hTask, hFailed⟩, rfl⟩ :=
            resetFailedTaskForRetry_ok (reduce_single hReduce)
          exact .retry hTask hFailed rfl
      | forceRetryTask taskId target =>
          obtain ⟨id, _, hBatch⟩ := bind_ok.mp hBatch
          cases hBatch
          obtain ⟨middle, hMiddle, rfl⟩ := taskForceRetryRequested_ok (reduce_single hReduce)
          obtain ⟨_, ⟨task, hTask, hFailed⟩, rfl⟩ := resetFailedTaskForRetry_ok hMiddle
          exact .forceRetry hTask hFailed rfl
      | _ => cases hRetry
  · cases hStep
    exact .inl rfl

/-- Some retry request would be accepted and turn the workflow pending. -/
def Retryable (env : EngineEnv) (s : System) : Prop :=
  ∃ taskId, (∃ id, loadRetryableTask s.stored taskId = .ok id) ∧
    ∀ request, (request = .retryTask taskId ∨ ∃ target, request = .forceRetryTask taskId target) →
      ∃ s', s.step env (.request request 0) = some s' ∧ s'.stored.status = .pending

/-- In a failed instance a failed attempt can be retried under its own id. -/
theorem loadRetryableTask_self {workflow : WorkflowInstance} {id : String} {task : TaskInstance}
    (hStatus : workflow.status = .failed) (hTask : workflow.tasks.lookup id = some task)
    (hFailed : task.status = .failed) : loadRetryableTask workflow id = .ok id := by
  have hResolve : resolveTaskAttemptId workflow id none = .ok id := by
    unfold resolveTaskAttemptId
    simp [hTask]
  unfold loadRetryableTask
  simp only [hStatus, ne_eq, not_true_eq_false, if_false, hResolve, bind, Except.bind, hTask,
    hFailed]

/-- A request that is decided on the stored snapshot is committed. -/
theorem System.step_request {request : Request} {events : List WorkflowInstanceEvent}
    (h : request.batch env.definitions s.stored = .ok (some events)) :
    s.step env (.request request 0) = some (s.commit s.stored events) := by
  simp [System.step, System.snapshots, h]

/-- A batch that the reducer accepts can be committed on the stored snapshot;
no version is in the way. -/
theorem commitOn_stored {stored reduced : WorkflowInstance} {events : List WorkflowInstanceEvent}
    (hEvents : events ≠ [])
    (hReduce : reduceWorkflowInstanceEvents (some stored) events = .ok reduced) :
    commitOn stored stored events = .ok (reduced.withVersion (stored.version + events.length)) := by
  unfold commitOn
  rw [if_neg (by simpa using hEvents), hReduce]
  exact if_pos rfl

/-- With a failed attempt in a failed instance there is something to retry, and
the retry is accepted. -/
theorem SomeFailed.retryable (h : SomeFailed s.stored) (hStatus : s.stored.status = .failed) :
    Retryable env s := by
  obtain ⟨id, task, hTask, hFailed⟩ := h
  have hLoad := loadRetryableTask_self hStatus hTask hFailed
  have hReset : resetFailedTaskForRetry s.stored id = .ok { s.stored with
      tasks := s.stored.tasks.modify id TaskInstance.resetForRetry, status := .pending } := by
    simp [resetFailedTaskForRetry, hStatus, hTask, hFailed]
  refine ⟨id, ⟨id, hLoad⟩, ?_⟩
  rintro request (rfl | ⟨target, rfl⟩)
  · refine ⟨_, System.step_request (by simp only [Request.batch, hLoad]; rfl), ?_⟩
    rw [System.commit, commitOn_stored (List.cons_ne_nil _ _)
      (by simp only [reduceWorkflowInstanceEvents, List.foldlM_cons, applyWorkflowInstanceEvent,
        hReset]; rfl)]
    rfl
  · refine ⟨_, System.step_request (by simp only [Request.batch, hLoad]; rfl), ?_⟩
    rw [System.commit, commitOn_stored (List.cons_ne_nil _ _)
      (by simp only [reduceWorkflowInstanceEvents, List.foldlM_cons, applyWorkflowInstanceEvent,
        hReset, ne_eq, not_true_eq_false, if_false]; rfl)]
    rfl

/-- A host loss has been committed. -/
def hostLossCommitted (s : System) (action : Action) (s' : System) (lost : Bool) : Bool :=
  lost || match action with
    | .request (.failPinnedToLostHosts _) _ => s'.stored.version ≠ s.stored.version
    | _ => false

/-- A failure that no host loss has brought about comes with a failed
attempt. -/
theorem Extends.failureOrigin {ext : Externals} {writer : Writer} {lost : Bool}
    (h : Extends ext definition writer s s') (hWriter : writer ≠ .hostLost)
    (hOrigin : FailureOrigin lost s.stored) : FailureOrigin lost s'.stored := by
  cases h with
  | same hStored _ => rwa [hStored]
  | written hWrite hReduce hStored _ =>
      rw [hStored]
      have hReduced := hWrite.failureOrigin hReduce hWriter hOrigin
      exact ⟨hReduced.attempt, hReduced.host⟩

/-- A host loss that is committed changes the version; a refused one changes
nothing. -/
theorem Extends.hostLost {ext : Externals} (h : Extends ext definition .hostLost s s')
    (hSound : Sound definition s.stored) {lost : Bool} (hOrigin : FailureOrigin lost s.stored) :
    FailureOrigin (lost || decide (s'.stored.version ≠ s.stored.version)) s'.stored := by
  cases h with
  | same hStored _ => simpa [hStored] using hOrigin
  | written hWrite hReduce hStored _ =>
      have hReduced := hWrite.hostLost_failureOrigin hReduce hSound
      cases hWrite with
      | hostLost hStatus =>
          have hVersion : s'.stored.version ≠ s.stored.version := by
            rw [hStored]
            exact Nat.succ_ne_self _
          rw [decide_eq_true hVersion, Bool.or_true, hStored]
          exact ⟨hReduced.attempt, hReduced.host⟩

/-- Each step keeps the account of where the failure comes from. The history
variable notes the commits of lost hosts. -/
theorem Refines.failureOrigin (h : Refines env definition s l) {action : Action} {lost : Bool}
    (hOrigin : FailureOrigin lost s.stored) (hStep : s.step env action = some s') :
    FailureOrigin (hostLossCommitted s action s' lost) s'.stored := by
  have hExtends := (h.step hStep).extended
  cases action with
  | request request seen =>
      cases request with
      | failPinnedToLostHosts _ => exact hExtends.hostLost h.sound hOrigin
      | _ => simpa [hostLossCommitted] using hExtends.failureOrigin nofun hOrigin
  | _ => simpa [hostLossCommitted] using hExtends.failureOrigin nofun hOrigin

end System

variable {env : EngineEnv} {definition : WorkflowDef} {id workflowDefId : String}
  {pinnedWorkerHost : WorkerHostId} {input : Option Json} {actions : List Action} {s : System}

/-- A failed workflow can be retried exactly as long as no host loss has been
committed. -/
theorem System.Steps.failed_retryable {lost : Bool}
    (hDefinition : env.definitions workflowDefId = some definition)
    (run : Run (Run.Traced (fun s action s' => System.step env s action = some s')
      hostLossCommitted)
      (System.created id workflowDefId pinnedWorkerHost input, false) actions (s, lost)) :
    (s.stored.status = .failed → Retryable env s) ↔ lost = false := by
  have hInv := run.invariant (P := fun p : System × Bool =>
      (∃ l, Refines env definition p.1 l) ∧ FailureOrigin p.2 p.1.stored)
    ⟨⟨Lifecycle.created id workflowDefId pinnedWorkerHost input, rfl,
      .created _ _ _ _ hDefinition, .created .., trivial⟩, nofun, nofun⟩ (by
    rintro ⟨s, lost⟩ action ⟨s', lost'⟩ ⟨⟨l, hRefines⟩, hOrigin⟩ ⟨hStep, hLost⟩
    obtain ⟨l', _, _, _, hRefines'⟩ := (hRefines.step hStep).lifecycle
    refine ⟨⟨l', hRefines'⟩, ?_⟩
    rw [hLost]
    exact hRefines.failureOrigin hOrigin hStep)
  obtain ⟨_, hOrigin⟩ := hInv
  constructor
  · intro hRetryable
    cases hLost : lost with
    | false => rfl
    | true =>
        obtain ⟨hStatus, hNone⟩ := hOrigin.host hLost
        obtain ⟨taskId, ⟨id, hLoad⟩, _⟩ := hRetryable hStatus
        obtain ⟨_, task, hTask, hFailed⟩ := loadRetryableTask_ok hLoad
        exact absurd hFailed (hNone id task hTask)
  · intro hLost hStatus
    exact (hOrigin.attempt hLost hStatus).retryable hStatus

/-- The draft fails. -/
def draftFailed : List Action :=
  startDraft ++ [.answer (.ok (.failure "no model")), .passStep, .passStep]

def tracedHostLoss (p : System × Bool) (action : Action) : Option (System × Bool) :=
  (System.step sampleEnv p.1 action).map fun s' => (s', hostLossCommitted p.1 action s' p.2)

theorem draftFailed_runs :
    (draftFailed.foldlM tracedHostLoss (sampleStart, false)).isSome := by
  decide +kernel

/-- The draft can be retried at its end. -/
theorem System.Steps.failed_retryable_draft :
    Retryable sampleEnv
      ((draftFailed.foldlM tracedHostLoss (sampleStart, false)).get draftFailed_runs).1 :=
  (System.Steps.failed_retryable rfl
    (Run.of_traced (Option.some_get draftFailed_runs).symm)).mpr (by decide +kernel)
    (by decide +kernel)

/-- The host is lost before any attempt has failed. -/
theorem hostLost_not_retryable :
    ∃ s, System.Steps sampleEnv sampleStart [.request (.failPinnedToLostHosts [⟨"host"⟩]) 0] s ∧
      s.pass.inFlight = false ∧ s.stored.status = .failed ∧ ¬Retryable sampleEnv s := by
  refine ⟨_, .single rfl, rfl, rfl, ?_⟩
  rintro ⟨taskId, ⟨id, hLoad⟩, _⟩
  obtain ⟨_, task, hTask, _⟩ := loadRetryableTask_ok hLoad
  cases hTask

end RelayFold
