import RelayFold.Lifecycle.AttemptLifecycle
import RelayFold.Orchestrator.QueuedInstance

/-! Pause, resume and the queue: a pending instance is queued or active as long
as no pause takes it out of the queue after the resume that put it there. -/
namespace RelayFold

open WorkflowEngine WorkflowStateManager

/-- A pass never leaves an instance pending. -/
theorem Write.pass_ne_pending {ext : Externals} {definition : WorkflowDef} {l : Lifecycle}
    {events : List WorkflowInstanceEvent} {plan : List String} {reduced : WorkflowInstance}
    (hWrite : Write ext definition l .pass events plan)
    (hReduce : reduceWorkflowInstanceEvents (some l.stored) events = .ok reduced) :
    reduced.status ≠ .pending := by
  have hEffect := reduceWorkflowInstanceEvents_effected hReduce
  have hResult {id : String} {final : WorkflowStatus} (hEvents : ResultEvents l.stored id final events)
      (hOld : l.stored.status ≠ .pending) (hFinal : final ≠ .pending) :
      reduced.status ≠ .pending := by
    rw [hEffect.status]
    rcases hEvents.status_kept l.stored.status with h | h
    · rwa [h]
    · rwa [h]
  cases hWrite with
  | begin _ | complete _ _ =>
      cases reduce_single hReduce
      intro hFalse
      cases hFalse
  | initialTasks hStatus hEmpty =>
      rw [hEffect.status, foldl_statusEffect_of_work (by simp [initialTaskEvents,
        WorkflowInstanceEvent.isWork]), hStatus]
      intro hFalse
      cases hFalse
  | initialGenerations hStatus hTasks hSlices =>
      rw [(initialGenerations_after hTasks hSlices hReduce).status, hStatus]
      intro hFalse
      cases hFalse
  | start hStatus _ _ _ =>
      rw [hEffect.status]
      change l.stored.status ≠ _
      rw [hStatus]
      intro hFalse
      cases hFalse
  | inputFailure hStatus _ _ _ _ =>
      exact hResult (failureEvents_result _) (by simp [hStatus]) (by decide)
  | result hStatus _ _ _ hRecorded =>
      refine hResult hRecorded.result ?_ (answerStatus_ne_pending _)
      rcases hStatus with h | h <;> rw [h] <;> decide

namespace QueuedInstance

/-- A pass that is still to begin on the stored snapshot. -/
def Beginning (system : System) : Prop :=
  match system.pass with
  | .loading _ => True
  | .loadingDef _ workflow => workflow = system.stored
  | .active pass => pass.point = .commitRunning ∧ pass.workflow = system.stored
  | _ => False

/-- Somebody will see to a pending instance: the queue, a resume or a pass. -/
def Served (s : QueuedInstance) : Prop :=
  s.system.stored.status = .pending →
    s.item ∈ s.queue.pending ∨ .resumeWorkflowInstance ∈ s.unfinished ∨ Beginning s.system

/-- The pause takes nothing away: the instance is not pending, or not in the
queue, or a resume is about to queue it, or a pass is about to run it. -/
def RemovesSafely (s : QueuedInstance) : Prop :=
  s.system.stored.status = .pending → s.item ∈ s.queue.pending →
    .resumeWorkflowInstance ∈ s.unfinished ∨ Beginning s.system

structure Inv (env : EngineEnv) (definition : WorkflowDef) (s : QueuedInstance) : Prop where
  refines : ∃ l, Refines env definition s.system l
  active : s.system.pass ≠ .idle → s.item ∈ s.queue.activeIds
  served : s.Served

section Step

variable {env : EngineEnv} {definition : WorkflowDef} {s s' : QueuedInstance}

/-- A step that leaves the instance alone keeps it served, if it drops neither
its queue item nor an unfinished resume. -/
theorem Served.of_eq (h : s.Served) (hSystem : s'.system = s.system) (hItem : s'.item = s.item)
    (hPending : s.item ∈ s.queue.pending → s.item ∈ s'.queue.pending)
    (hUnfinished : s.unfinished ⊆ s'.unfinished) : s'.Served := by
  intro hStatus
  rw [hSystem] at hStatus ⊢
  rw [hItem]
  rcases h hStatus with hQueued | hResume | hBeginning
  · exact .inl (hPending hQueued)
  · exact .inr (.inl (hUnfinished hResume))
  · exact .inr (.inr hBeginning)

/-- The store commit of a request. -/
theorem Inv.commit (h : Inv env definition s) {request : QueueRequest} {seen : Nat}
    {snapshot : WorkflowInstance} (hSeen : s.system.snapshots[seen]? = some snapshot) :
    Inv env definition (s.commit env request snapshot) := by
  obtain ⟨l, hRefines⟩ := h.refines
  unfold QueuedInstance.commit
  cases hBatch : request.request.batch env.definitions snapshot with
  | error message => exact h
  | ok batch =>
      cases batch with
      | none =>
          exact ⟨h.refines, h.active, h.served.of_eq rfl rfl id (List.subset_cons_self _ _)⟩
      | some events =>
          dsimp only
          cases hCommit : commitOn s.system.stored snapshot events with
          | error error => exact h
          | ok updated =>
              have hStep : s.system.step env (.request request.request seen) =
                  some (s.system.saved updated) := by
                simp only [System.step, hSeen, hBatch, System.commit, hCommit, bind,
                  Option.bind]
              obtain ⟨l', _, _, _, hRefines'⟩ := (hRefines.step hStep).lifecycle
              refine ⟨⟨l', hRefines'⟩, h.active, fun hStatus => ?_⟩
              cases request with
              | resumeWorkflowInstance => exact .inr (.inl List.mem_cons_self)
              | pauseWorkflowInstance =>
                  obtain ⟨_, _, reduced, hReduce, rfl⟩ := commitOn_ok hCommit
                  simp only [QueueRequest.request, Request.batch] at hBatch
                  split at hBatch <;> cases hBatch <;>
                  · cases reduce_single hReduce
                    cases hStatus

/-- The queue operation of a request. Only a removal may strand the
instance. -/
theorem Inv.finish (h : Inv env definition s) {request : QueueRequest}
    (hFinish : s.finish request = some s')
    (hSafe : request = .pauseWorkflowInstance → s.RemovesSafely) : Inv env definition s' := by
  unfold QueuedInstance.finish at hFinish
  split at hFinish
  · cases request with
    | resumeWorkflowInstance =>
        obtain ⟨queue, hEnqueue, rfl⟩ := Option.map_eq_some_iff.mp hFinish
        refine ⟨h.refines, ?_, fun _ => .inl (MemoryWorkflowQueue.enqueue_mem hEnqueue)⟩
        rw [MemoryWorkflowQueue.enqueue_activeIds hEnqueue]
        exact h.active
    | pauseWorkflowInstance =>
        cases hFinish
        refine ⟨h.refines, ?_, fun hStatus => ?_⟩
        · rw [MemoryWorkflowQueue.remove_activeIds]
          exact h.active
        · have hKept : QueueRequest.resumeWorkflowInstance ∈ s.unfinished →
              QueueRequest.resumeWorkflowInstance ∈
                s.unfinished.erase .pauseWorkflowInstance :=
            (List.mem_erase_of_ne (by decide)).mpr
          rcases h.served hStatus with hQueued | hResume | hBeginning
          · rcases hSafe rfl hStatus hQueued with hResume | hBeginning
            · exact .inr (.inl (hKept hResume))
            · exact .inr (.inr hBeginning)
          · exact .inr (.inl (hKept hResume))
          · exact .inr (.inr hBeginning)
  · cases hFinish

/-- Dequeuing the instance starts a pass for it, which takes over from the
queue. -/
theorem Inv.dequeue (h : Inv env definition s) {order : LoopSlices}
    (hStep : s.step env (.dequeue order) = some s') : Inv env definition s' := by
  obtain ⟨⟨item, queue⟩, hDequeue, hStep⟩ := Option.bind_eq_some_iff.mp hStep
  obtain ⟨_, hIdle, hActive, hPending⟩ := MemoryWorkflowQueue.dequeue_some hDequeue
  dsimp only at hStep
  split at hStep
  · rename_i hItem
    cases hStep
    obtain ⟨l, hRefines⟩ := h.refines
    have hPass : s.system.pass = .idle := by
      by_contra hPass
      exact hIdle (hItem ▸ h.active hPass)
    have hStart : s.system.step env (.startPass order) =
        some (s.system.setPass (.loading order)) := by
      simp [System.step, hPass, PassState.inFlight]
    obtain ⟨l', _, _, _, hRefines'⟩ := (hRefines.step hStart).lifecycle
    refine ⟨⟨l', hRefines'⟩, fun _ => ?_, fun _ => .inr (.inr trivial)⟩
    rw [hActive, ← hItem]
    exact Finset.mem_insert_self _ _
  · rename_i hItem
    cases hStep
    refine ⟨h.refines, fun hPass => ?_, h.served.of_eq rfl rfl (fun hQueued => ?_) (fun _ h => h)⟩
    · rw [hActive]
      exact Finset.mem_insert_of_mem (h.active hPass)
    · exact (hPending _).mpr ⟨Ne.symm hItem, hQueued⟩

/-- What a pass that is about to begin does: it goes on, or it marks the
instance running. -/
theorem Beginning.advance {system : System} {l : Lifecycle} (h : Beginning system)
    (hRefines : Refines env definition system l) (hStatus : system.stored.status = .pending) :
    (system.advance (system.pass.step env system.stored)).stored.status = .pending →
      Beginning (system.advance (system.pass.step env system.stored)) := by
  unfold Beginning at h
  cases hPass : system.pass with
  | idle | finished _ =>
      rw [hPass] at h
      exact h.elim
  | loading order =>
      intro _
      simp only [PassState.step, PassState.loaded, hStatus, System.advance, Beginning,
        System.setPass]
  | loadingDef order workflow =>
      rw [hPass] at h
      intro _
      simp only [PassState.step, PassState.loadedDef, h,
        hRefines.history.defId _ List.mem_cons_self, System.advance, Beginning, System.setPass,
        and_self]
  | active pass =>
      rw [hPass] at h
      obtain ⟨hPoint, hWorkflow⟩ := h
      simp only [PassState.step, ActivePass.step, hPoint, hWorkflow, ActivePass.commit, commitOn,
        reduceWorkflowInstanceEvents, List.foldlM_cons, applyWorkflowInstanceEvent]
      intro hFalse
      cases hFalse

/-- A pass sees to its instance until it has set it running; from then on it is
not pending. -/
theorem Inv.passStep (h : Inv env definition s) (hStep : s.step env .passStep = some s') :
    Inv env definition s' := by
  obtain ⟨system, hSystem, hStep⟩ := Option.bind_eq_some_iff.mp hStep
  cases hStep
  obtain ⟨l, hRefines⟩ := h.refines
  have hStepsTo := hRefines.step hSystem
  obtain ⟨l', _, _, _, hRefines'⟩ := hStepsTo.lifecycle
  rw [System.step_passStep] at hSystem
  cases hSystem
  refine ⟨⟨l', hRefines'⟩, fun hPass => h.active fun hIdle => ?_, fun hStatus => ?_⟩
  · rw [hIdle] at hPass
    exact hPass rfl
  · have hOld : s.system.stored.status = .pending := by
      cases hStepsTo.extended with
      | same hStored _ => rwa [hStored] at hStatus
      | written hWrite hReduce hStored _ =>
          rw [hStored] at hStatus
          exact (hWrite.pass_ne_pending hReduce hStatus).elim
    rcases h.served hOld with hQueued | hResume | hBeginning
    · exact .inl hQueued
    · exact .inr (.inl hResume)
    · exact .inr (.inr (hBeginning.advance hRefines hOld hStatus))

/-- An answer is taken by a pass that has left its beginning behind. -/
theorem Inv.answer (h : Inv env definition s) {result : Answer}
    (hStep : s.step env (.answer result) = some s') : Inv env definition s' := by
  obtain ⟨system, hSystem, hStep⟩ := Option.bind_eq_some_iff.mp hStep
  cases hStep
  obtain ⟨l, hRefines⟩ := h.refines
  obtain ⟨l', _, _, _, hRefines'⟩ := (hRefines.step hSystem).lifecycle
  obtain ⟨pass, hAnswer, rfl⟩ := Option.map_eq_some_iff.mp hSystem
  cases hPass : s.system.pass with
  | active active =>
      refine ⟨⟨l', hRefines'⟩, fun _ => h.active (by rw [hPass]; exact nofun), fun hStatus => ?_⟩
      rcases h.served hStatus with hQueued | hResume | hBeginning
      · exact .inl hQueued
      · exact .inr (.inl hResume)
      · unfold Beginning at hBeginning
        rw [hPass] at hAnswer hBeginning
        simp only [PassState.answer, hBeginning.1, reduceCtorEq] at hAnswer
  | _ =>
      rw [hPass] at hAnswer
      cases hAnswer

/-- The end of the consumer's turn removes no item from the queue. -/
theorem Inv.complete (h : Inv env definition s) (hStep : s.step env .complete = some s') :
    Inv env definition s' := by
  obtain ⟨l, hRefines⟩ := h.refines
  have hCrash : s.system.step env .crash = some (s.system.setPass .idle) := rfl
  obtain ⟨l', _, _, _, hRefines'⟩ := (hRefines.step hCrash).lifecycle
  have hServed (hBeginning : ¬Beginning s.system) :
      Inv env definition { s with
        queue := s.queue.complete s.item, system := s.system.setPass .idle } := by
    refine ⟨⟨l', hRefines'⟩, fun hPass => absurd rfl hPass, fun hStatus => ?_⟩
    rcases h.served hStatus with hQueued | hResume | hPass
    · exact .inl hQueued
    · exact .inr (.inl hResume)
    · exact absurd hPass hBeginning
  simp only [QueuedInstance.step] at hStep
  split at hStep <;> cases hStep <;>
  · rename_i hFinished
    refine hServed fun hBeginning => ?_
    unfold Beginning at hBeginning
    rw [hFinished] at hBeginning
    exact hBeginning

/-- Every step keeps the invariant, if the pauses remove safely. -/
theorem Inv.step (h : Inv env definition s) {action : QueueAction}
    (hSafe : action = .finish .pauseWorkflowInstance → s.RemovesSafely)
    (hStep : s.step env action = some s') : Inv env definition s' := by
  cases action with
  | commit request seen =>
      obtain ⟨snapshot, hSeen, hStep⟩ := Option.bind_eq_some_iff.mp hStep
      cases hStep
      exact h.commit hSeen
  | finish request => exact h.finish hStep fun hPause => hSafe (by rw [hPause])
  | dequeue order => exact h.dequeue hStep
  | passStep => exact h.passStep hStep
  | answer result => exact h.answer hStep
  | complete => exact h.complete hStep
  | enqueueOther item =>
      simp only [QueuedInstance.step] at hStep
      split at hStep
      · cases hStep
      · obtain ⟨queue, hEnqueue, rfl⟩ := Option.map_eq_some_iff.mp hStep
        refine ⟨h.refines, ?_, h.served.of_eq rfl rfl
          (MemoryWorkflowQueue.enqueue_keeps hEnqueue) (fun _ h => h)⟩
        rw [MemoryWorkflowQueue.enqueue_activeIds hEnqueue]
        exact h.active
  | removeOther item =>
      simp only [QueuedInstance.step] at hStep
      split at hStep
      · cases hStep
      · rename_i hOther
        cases hStep
        refine ⟨h.refines, ?_, h.served.of_eq rfl rfl (fun hQueued => ?_) (fun _ h => h)⟩
        · rw [MemoryWorkflowQueue.remove_activeIds]
          exact h.active
        · exact (s.queue.remove_pending item).mpr ⟨Ne.symm hOther, hQueued⟩
  | completeOther item =>
      simp only [QueuedInstance.step] at hStep
      split at hStep
      · cases hStep
      · rename_i hOther
        cases hStep
        refine ⟨h.refines, fun hPass => ?_, h.served.of_eq rfl rfl id (fun _ h => h)⟩
        exact Finset.mem_erase.mpr ⟨Ne.symm hOther, h.active hPass⟩

/-- A removal that is not safe leaves a pending instance to nobody. -/
theorem Inv.finish_served_iff (h : Inv env definition s)
    (hFinish : s.finish .pauseWorkflowInstance = some s') : s'.Served ↔ s.RemovesSafely := by
  refine ⟨fun hServed hStatus _ => ?_, fun hSafe => (h.finish hFinish fun _ => hSafe).served⟩
  unfold QueuedInstance.finish at hFinish
  split at hFinish
  · cases hFinish
    rcases hServed hStatus with hQueued | hResume | hBeginning
    · exact absurd rfl ((s.queue.remove_pending s.item).mp hQueued).1
    · exact .inl ((List.mem_erase_of_ne (by decide)).mp hResume)
    · exact .inr hBeginning
  · cases hFinish

end Step

/-- Steps whose pauses remove safely. -/
abbrev SafeSteps (env : EngineEnv) : QueuedInstance → List QueueAction → QueuedInstance → Prop :=
  Run fun s action s' => s.step env action = some s' ∧
    (action = .finish .pauseWorkflowInstance → s.RemovesSafely)

/-- A new instance is pending, and in the queue. -/
theorem Inv.created {env : EngineEnv} {definition : WorkflowDef} {id workflowDefId : String}
    {pinnedWorkerHost : WorkerHostId} {input : Option Json} {queue : MemoryWorkflowQueue}
    (hDefinition : env.definitions workflowDefId = some definition)
    (hQueued : ⟨env.ns, id⟩ ∈ queue.pending) :
    Inv env definition
      (QueuedInstance.created env.ns id workflowDefId pinnedWorkerHost input queue) :=
  ⟨⟨Lifecycle.created id workflowDefId pinnedWorkerHost input, rfl,
    .created _ _ _ _ hDefinition, .created .., trivial⟩, fun hPass => absurd rfl hPass,
    fun _ => .inl hQueued⟩

/-- However pauses, resumes and the consumer interleave: when no request is
unfinished, a pending instance is queued or active, provided no pause took it
out of the queue unsafely. -/
theorem SafeSteps.pending_served {env : EngineEnv} {definition : WorkflowDef}
    {id workflowDefId : String} {pinnedWorkerHost : WorkerHostId} {input : Option Json}
    {queue : MemoryWorkflowQueue} {actions : List QueueAction} {s : QueuedInstance}
    (hDefinition : env.definitions workflowDefId = some definition)
    (hQueued : ⟨env.ns, id⟩ ∈ queue.pending)
    (run : SafeSteps env
      (QueuedInstance.created env.ns id workflowDefId pinnedWorkerHost input queue) actions s)
    (hReturned : s.unfinished = []) (hStatus : s.system.stored.status = .pending) :
    s.item ∈ s.queue.pending ∨ s.item ∈ s.queue.activeIds := by
  have hInv := run.invariant (P := Inv env definition) (.created hDefinition hQueued)
    fun s action s' hInv hStep => hInv.step hStep.2 hStep.1
  rcases hInv.served hStatus with hPending | hResume | hBeginning
  · exact .inl hPending
  · rw [hReturned] at hResume
    cases hResume
  · refine .inr (hInv.active fun hIdle => ?_)
    unfold Beginning at hBeginning
    rw [hIdle] at hBeginning
    exact hBeginning

/-! Two ways to pause and resume an instance that waits in the queue. -/

def sampleQueue : MemoryWorkflowQueue :=
  (MemoryWorkflowQueue.new 10).pushBack ⟨sampleEnv.ns, "article-1"⟩ (by decide)

def sampleQueued : QueuedInstance :=
  QueuedInstance.created sampleEnv.ns "article-1" "article" ⟨"host"⟩ none sampleQueue

/-- Each request finishes before the next one commits. -/
def pausedThenResumed : List QueueAction :=
  [.commit .pauseWorkflowInstance 0, .finish .pauseWorkflowInstance,
    .commit .resumeWorkflowInstance 0, .finish .resumeWorkflowInstance]

def removesUnlessPending (s : QueuedInstance) (action : QueueAction) : Bool :=
  match action with
  | .finish .pauseWorkflowInstance => s.system.stored.status ≠ .pending
  | _ => true

theorem pausedThenResumed_runs :
    (pausedThenResumed.foldlM (fun s action => if removesUnlessPending s action
      then QueuedInstance.step sampleEnv s action else none) sampleQueued).isSome := by
  decide +kernel

/-- In that run the instance is pending again at the end, and back in the
queue. -/
theorem SafeSteps.pending_served_resumed :
    let s := (pausedThenResumed.foldlM (fun s action => if removesUnlessPending s action
      then QueuedInstance.step sampleEnv s action else none) sampleQueued).get pausedThenResumed_runs
    s.item ∈ s.queue.pending ∨ s.item ∈ s.queue.activeIds := by
  refine SafeSteps.pending_served (by rfl) (by decide +kernel)
    ((Run.of_guarded (Option.some_get pausedThenResumed_runs).symm).mono ?_)
    (by decide +kernel) (by decide +kernel)
  rintro s action s' ⟨hStep, hGuard⟩
  refine ⟨hStep, ?_⟩
  rintro rfl hStatus
  exact absurd hStatus (by simpa [removesUnlessPending] using hGuard)

/-- The pause commits first and removes last. -/
def resumedWithinPause : List QueueAction :=
  [.commit .pauseWorkflowInstance 0, .commit .resumeWorkflowInstance 0,
    .finish .resumeWorkflowInstance, .finish .pauseWorkflowInstance]

/-- The instance is resumed while the pause still has its queue item to
remove. -/
theorem resumedWithinPause_runs :
    (resumedWithinPause.foldlM (QueuedInstance.step sampleEnv) sampleQueued).isSome := by
  decide +kernel

/-- All requests have returned, and the pending instance is neither queued nor
active. -/
theorem resumedWithinPause_strands :
    ∃ s, Steps sampleEnv sampleQueued resumedWithinPause s ∧ s.unfinished = [] ∧
      s.system.stored.status = .pending ∧ s.item ∉ s.queue.pending ∧ s.item ∉ s.queue.activeIds :=
  ⟨_, Run.of_foldlM (Option.some_get resumedWithinPause_runs).symm, by decide +kernel,
    by decide +kernel, by decide +kernel, by decide +kernel⟩

end QueuedInstance

end RelayFold
