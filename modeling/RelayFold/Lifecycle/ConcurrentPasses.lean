import RelayFold.Lifecycle.AttemptLifecycle

/-! Any number of passes over one instance at a time, everyone who pauses and
resumes it, and restarts with their recovery: the version check alone keeps a
paused instance from being started. -/
namespace RelayFold

open WorkflowEngine WorkflowStateManager WorkflowService WorkflowInstanceEvent FallibleFold

/-- One instance and the passes that run over it, started at any time. -/
structure ConcurrentPasses where
  stored : WorkflowInstance
  past : List WorkflowInstance
  passes : List PassState

inductive ConcurrentAction where
  | startPass (order : LoopSlices)
  | passStep (index : Nat)
  | answer (index : Nat) (result : Answer)
  | crash (index : Nat)
  | request (request : Request) (seen : Nat)
  | recover (listed seen current : Nat)

namespace ConcurrentPasses

def snapshots (s : ConcurrentPasses) : List WorkflowInstance := s.stored :: s.past

def setPass (s : ConcurrentPasses) (index : Nat) (pass : PassState) : ConcurrentPasses :=
  { s with passes := s.passes.set index pass }

def saved (s : ConcurrentPasses) (updated : WorkflowInstance) : ConcurrentPasses :=
  { s with stored := updated, past := s.stored :: s.past }

def commit (s : ConcurrentPasses) (base : WorkflowInstance) (events : List WorkflowInstanceEvent) :
    ConcurrentPasses :=
  match commitOn s.stored base events with
  | .ok updated => s.saved updated
  | .error _ => s

def step (env : EngineEnv) (s : ConcurrentPasses) : ConcurrentAction → Option ConcurrentPasses
  | .startPass order => some { s with passes := s.passes ++ [.loading order] }
  | .passStep index => do
      let pass ← s.passes[index]?
      match pass.step env s.stored with
      | (pass, none) => return s.setPass index pass
      | (pass, some updated) => return (s.saved updated).setPass index pass
  | .answer index result => do
      let pass ← s.passes[index]?
      let pass ← pass.answer env result
      return s.setPass index pass
  | .crash index => some (s.setPass index .idle)
  | .request request seen => do
      let snapshot ← s.snapshots[seen]?
      match request.batch env.definitions snapshot with
      | .ok (some events) => return s.commit snapshot events
      | _ => return s
  | .recover listed seen current => do
      let listed ← s.snapshots[listed]?
      let seen ← s.snapshots[seen]?
      let current ← s.snapshots[current]?
      -- Recovery runs before the queue is served.
      if s.passes.any PassState.inFlight then none
      else
        match startupRecovery listed seen with
        | some events => return s.commit current events
        | none => return s

abbrev Steps (env : EngineEnv) : ConcurrentPasses → List ConcurrentAction → ConcurrentPasses →
    Prop :=
  Run fun s action s' => step env s action = some s'

def created (id workflowDefId : String) (pinnedWorkerHost : WorkerHostId) (input : Option Json) :
    ConcurrentPasses where
  stored := (System.created id workflowDefId pinnedWorkerHost input).stored
  past := []
  passes := []

end ConcurrentPasses

/-- The orchestrator's own action: a pass of the engine, or the recovery at
startup. -/
def ConcurrentAction.isOwn : ConcurrentAction → Bool
  | request .. => false
  | _ => true

/-- What a pass knows of the status of its snapshots, whatever others
commit. -/
def HeldStatus (ext : Externals) (snapshots : List WorkflowInstance) (pass : ActivePass) : Prop :=
  match pass.point with
  | .commitRunning => pass.workflow.status = .pending ∨ pass.workflow.status = .running
  | .commitGenerations events =>
      pass.workflow.status = .running ∧
        ∀ event ∈ events, event.isWork = true
  | .readCurrent started answer result _ =>
      pass.workflow.status = .running ∧ Recorded ext pass.workflow pass.definition pass.loopSlices
        started.taskAttemptId started.taskDef started.inputs answer result
  | .commitResult started answer result base _ =>
      base ∈ snapshots ∧ (base.status = .running ∨ base.status = .paused) ∧
        Recorded ext pass.workflow pass.definition pass.loopSlices started.taskAttemptId
          started.taskDef started.inputs answer result
  | .commitPauseCompleted => pass.workflow.status = .paused
  | _ => pass.workflow.status = .running

def PassHeld (ext : Externals) (snapshots : List WorkflowInstance) : PassState → Prop
  | .loadingDef _ workflow =>
      workflow ∈ snapshots ∧ (workflow.status = .pending ∨ workflow.status = .running)
  | .active pass => pass.workflow ∈ snapshots ∧ HeldStatus ext snapshots pass
  | _ => True

/-- A pass that holds snapshots of the instance still does when more have been
stored. -/
theorem PassHeld.mono {ext : Externals} {snapshots more : List WorkflowInstance} {pass : PassState}
    (h : PassHeld ext snapshots pass) (hMore : snapshots ⊆ more) : PassHeld ext more pass := by
  cases pass with
  | loadingDef order workflow => exact ⟨hMore h.1, h.2⟩
  | active pass =>
      refine ⟨hMore h.1, ?_⟩
      have hStatus := h.2
      unfold HeldStatus at hStatus ⊢
      cases hCase : pass.point with
      | commitResult started answer result base rest =>
          simp only [hCase] at hStatus ⊢
          exact ⟨hMore hStatus.1, hStatus.2⟩
      | _ => simpa only [hCase] using hStatus
  | _ => trivial

section Continue

variable {ext : Externals} {snapshots : List WorkflowInstance} {pass : ActivePass}
  {workflow : WorkflowInstance} (hHeld : workflow ∈ snapshots) (hRunning : workflow.status = .running)
include hHeld hRunning

theorem leaveLoop_held : PassHeld ext snapshots (pass.leaveLoop workflow) := by
  unfold ActivePass.leaveLoop
  split
  · exact ⟨hHeld, hRunning⟩
  · trivial

/-- Looking for the next attempt to start brings in no new snapshot: the pass
goes on with the one it has. -/
theorem nextTask_held {atEnd : PassState} (hEnd : PassHeld ext snapshots atEnd)
    (ids : List String) : PassHeld ext snapshots (pass.nextTask workflow atEnd ids) := by
  induction ids with
  | nil => exact hEnd
  | cons id rest ih =>
      unfold ActivePass.nextTask
      split
      · trivial
      · split
        · exact ih
        · exact ⟨hHeld, hRunning⟩

theorem startTasks_held {atEnd : PassState} (hEnd : PassHeld ext snapshots atEnd) :
    PassHeld ext snapshots (pass.startTasks workflow atEnd) := by
  unfold ActivePass.startTasks
  split
  · trivial
  · exact nextTask_held hHeld hRunning hEnd _

theorem enterLoop_held : PassHeld ext snapshots (pass.enterLoop workflow) := by
  unfold ActivePass.enterLoop
  dsimp only
  split
  · exact startTasks_held hHeld hRunning (leaveLoop_held hHeld hRunning)
  · refine ⟨hHeld, hRunning, fun event hEvent => ?_⟩
    have hDecision : DecisionEvents "" _ := materializeEligible_decision workflow pass.definition
      pass.loopSlices pass.loopSlices [] []
    have hNoStatus := materializeEligible_noStatus workflow pass.definition pass.loopSlices
      pass.loopSlices [] [] event hEvent
    cases hDecision.all event hEvent <;> first | rfl | cases hNoStatus

theorem initializeTasks_held : PassHeld ext snapshots (pass.initializeTasks workflow) := by
  unfold ActivePass.initializeTasks
  split
  · exact ⟨hHeld, hRunning⟩
  · exact enterLoop_held hHeld hRunning

/-- An attempt is started on the snapshot that the pass has just stored. -/
theorem prepareDispatch_held (taskAttemptId : String) (rest : List String) :
    PassHeld ext snapshots (pass.prepareDispatch ext workflow taskAttemptId rest) := by
  unfold ActivePass.prepareDispatch
  split
  · trivial
  · split
    · exact ⟨hHeld, hRunning⟩
    · exact ⟨hHeld, hRunning⟩

end Continue

section Continue

variable {ext : Externals} {snapshots : List WorkflowInstance} {pass : ActivePass}
  (hHeld : pass.workflow ∈ snapshots) (hRunning : pass.workflow.status = .running)
include hHeld hRunning

/-- With the answer the pass keeps the snapshot on which the attempt was
started. -/
theorem answered_held (started : StartedTask) (rest : List String) (answer : Answer) :
    PassHeld ext snapshots (pass.answered ext started rest answer) := by
  unfold ActivePass.answered
  split
  · trivial
  · rename_i hResult
    exact ⟨hHeld, hRunning, resultCommit_ok hResult⟩

/-- While an attempt is under way its pass holds a running snapshot. -/
theorem dispatch_held {env : EngineEnv} (started : StartedTask) (rest : List String) :
    PassHeld env.ext snapshots (pass.dispatch env started rest) := by
  unfold ActivePass.dispatch
  split
  · exact answered_held hHeld hRunning started rest _
  · split
    · trivial
    · exact ⟨hHeld, hRunning⟩

end Continue

/-- How a commit of the pass moves the status of the instance. -/
def CommitMoves (before after : WorkflowStatus) : PassPoint → Prop
  | .commitResult _ answer result _ _ =>
      (before = .running ∨ before = .paused) ∧
        (result.next = .checkPause none ∧ after = before ∨
          .workflowStatusChanged (answerStatus answer) ∈ result.events ∧
            after = answerStatus answer)
  | .commitPauseCompleted => before = .paused ∧ after = .completed
  | _ => (before = .pending ∨ before = .running) ∧
      (after = .running ∨ after = .completed ∨ after = .failed)

/-- A commit of a pass: it starts nothing unless the replaced snapshot is
running. -/
inductive PassCommitted (point : PassPoint) (before after : WorkflowInstance) : Prop
  | intro {events : List WorkflowInstanceEvent} {reduced : WorkflowInstance}
      (hReduce : reduceWorkflowInstanceEvents (some before) events = .ok reduced)
      (hStored : after = reduced.withVersion (before.version + events.length))
      (hStart : ∀ event ∈ events, event.isStart = true → before.status = .running)
      (hMoves : CommitMoves before.status after.status point)

/-- What a step does to the store: nothing starts unless the replaced
snapshot is running, and the orchestrator itself never turns a paused
instance running. -/
inductive PauseRespected (isOwn : Bool) (before after : WorkflowInstance) : Prop
  | same (hStored : after = before)
  | committed {events : List WorkflowInstanceEvent} {reduced : WorkflowInstance}
      (hReduce : reduceWorkflowInstanceEvents (some before) events = .ok reduced)
      (hStored : after = reduced.withVersion (before.version + events.length))
      (hStart : ∀ event ∈ events, event.isStart = true → before.status = .running)
      (hPaused : isOwn = true → before.status = .paused → after.status ≠ .running)

theorem answerStatus_ne_running (answer : Answer) : answerStatus answer ≠ .running := by
  unfold answerStatus
  split <;> exact nofun

/-- A commit on a paused snapshot may record a result or the end of the
instance, but does not set it running. -/
theorem CommitMoves.paused {after : WorkflowStatus} {point : PassPoint}
    (h : CommitMoves .paused after point) : after ≠ .running := by
  unfold CommitMoves at h
  split at h
  · rename_i answer result base rest
    rcases h.2 with ⟨_, rfl⟩ | ⟨_, rfl⟩
    · exact nofun
    · exact answerStatus_ne_running answer
  · rw [h.2]
    exact nofun
  · exact h.1.elim nofun nofun

/-- What a pass commits respects a pause, whether or not the pass has noticed
it. -/
theorem PassCommitted.pauseRespected {point : PassPoint} {before after : WorkflowInstance}
    (h : PassCommitted point before after) : PauseRespected true before after := by
  cases h with
  | intro hReduce hStored hStart hMoves =>
      refine .committed hReduce hStored hStart fun _ hPaused => ?_
      rw [hPaused] at hMoves
      exact hMoves.paused

/-- Every attempt that runs ran before. -/
def StartsNone (before after : WorkflowInstance) : Prop :=
  ∀ id task, after.tasks.lookup id = some task → task.status = .running →
    ∃ old, before.tasks.lookup id = some old ∧ old.status = .running

/-- On a snapshot that is not running no attempt is started. -/
theorem PauseRespected.startsNone {isOwn : Bool} {before after : WorkflowInstance}
    (h : PauseRespected isOwn before after) (hNotRunning : before.status ≠ .running) :
    StartsNone before after := by
  intro id task hTask hRunning
  cases h with
  | same hStored => exact ⟨task, hStored ▸ hTask, hRunning⟩
  | committed hReduce hStored hStart _ =>
      subst hStored
      refine foldlM_running hReduce (fun event hEvent => ?_) hTask hRunning
      exact Bool.eq_false_iff.mpr fun hIsStart => hNotRunning (hStart event hEvent hIsStart)

namespace ConcurrentPasses

structure Inv (env : EngineEnv) (s : ConcurrentPasses) : Prop where
  older : ∀ workflow ∈ s.past, workflow.version < s.stored.version
  passes : ∀ pass ∈ s.passes, PassHeld env.ext s.snapshots pass

variable {env : EngineEnv} {s s' : ConcurrentPasses}

/-- Versions name snapshots: what has the version of the stored one is the
stored one. A stale pass is therefore refused. -/
theorem Inv.eq_stored (h : Inv env s) {workflow : WorkflowInstance}
    (hHeld : workflow ∈ s.snapshots) (hVersion : s.stored.version = workflow.version) :
    workflow = s.stored := by
  rcases List.mem_cons.mp hHeld with rfl | hPast
  · rfl
  · exact absurd hVersion (Nat.ne_of_gt (h.older workflow hPast))

/-- An operation of a pass: what it knows afterwards, and what it committed. -/
def Advances (env : EngineEnv) (s : ConcurrentPasses) (point : PassPoint) :
    PassState × Option WorkflowInstance → Prop
  | (pass, none) => PassHeld env.ext s.snapshots pass
  | (pass, some updated) =>
      PassHeld env.ext (updated :: s.snapshots) pass ∧ s.stored.version < updated.version ∧
        PassCommitted point s.stored updated

/-- The commit of a pass in general: it is refused for its version, or it is
made on the stored snapshot, with the events that the point allows. -/
theorem Inv.passCommit (h : Inv env s) {base : WorkflowInstance}
    {events : List WorkflowInstanceEvent} {next : WorkflowInstance → PassState} {point : PassPoint}
    (hHeld : base ∈ s.snapshots)
    (hStart : ∀ event ∈ events, event.isStart = true → base.status = .running)
    (hMoves : CommitMoves base.status
      (events.foldl (fun current event => event.statusEffect current) base.status) point)
    (hNext : ∀ updated : WorkflowInstance, updated.status =
      events.foldl (fun current event => event.statusEffect current) base.status →
      PassHeld env.ext (updated :: s.snapshots) (next updated)) :
    Advances env s point (ActivePass.commit s.stored base events next) := by
  unfold ActivePass.commit
  cases hCommit : commitOn s.stored base events with
  | error error => trivial
  | ok updated =>
      obtain ⟨hEvents, hVersion, reduced, hReduce, rfl⟩ := commitOn_ok hCommit
      obtain rfl := h.eq_stored hHeld hVersion
      have hStatus := (reduceWorkflowInstanceEvents_effected hReduce).status
      have hLength := List.length_pos_of_ne_nil hEvents
      refine ⟨hNext _ hStatus, ?_, .intro hReduce rfl hStart ?_⟩
      · change s.stored.version < s.stored.version + events.length
        omega
      · change CommitMoves _ reduced.status point
        rwa [hStatus]

/-- After its result has been recorded the pass knows whether it goes on: it
does only if neither the result nor a pause ends it. -/
theorem afterResult_held {snapshots : List WorkflowInstance} {base updated : WorkflowInstance}
    {pass : ActivePass} {started : StartedTask} {answer : Answer} {result : ResultCommit}
    (hNew : updated ∈ snapshots) (hBase : base.status = .running ∨ base.status = .paused)
    (hResult : Recorded env.ext pass.workflow pass.definition pass.loopSlices
      started.taskAttemptId started.taskDef started.inputs answer result)
    (hUpdated : updated.status =
      result.events.foldl (fun current event => event.statusEffect current) base.status)
    (rest : List String) : PassHeld env.ext snapshots (pass.afterResult result rest updated) := by
  unfold ActivePass.afterResult
  split
  · trivial
  · rename_i message hNext
    split
    · rename_i hPaused
      split
      · exact ⟨hNew, hPaused⟩
      · trivial
    · rename_i hNotPaused
      cases message with
      | some message => trivial
      | none =>
          rw [foldl_statusEffect_of_work (hResult.goesOn hNext).1] at hUpdated
          have hRunning : updated.status = .running := by
            rw [hUpdated] at hNotPaused ⊢
            exact hBase.resolve_right hNotPaused
          exact nextTask_held hNew hRunning (enterLoop_held hNew hRunning) rest

/-- Each point of the pass, one after another: it reads, it decides, or it
commits as it may. -/
theorem Inv.activeStep (h : Inv env s) {pass : ActivePass}
    (hPass : PassHeld env.ext s.snapshots (.active pass)) :
    Advances env s pass.point (pass.step env s.stored) := by
  obtain ⟨hHeld, hStatus⟩ := hPass
  have hNew {updated : WorkflowInstance} : updated ∈ updated :: s.snapshots := List.mem_cons_self
  have hWork {events : List WorkflowInstanceEvent}
      (hEvents : ∀ event ∈ events, event.isWork = true) :=
    foldl_statusEffect_of_work hEvents pass.workflow.status
  unfold ActivePass.step
  unfold HeldStatus at hStatus
  cases hCase : pass.point with
  | commitRunning =>
      simp only [hCase] at hStatus ⊢
      refine h.passCommit hHeld (by simp [isStart]) ⟨hStatus, .inl rfl⟩ fun updated hUpdated => ?_
      exact initializeTasks_held hNew hUpdated
  | commitInitialTasks =>
      simp only [hCase] at hStatus ⊢
      have hEvents : ∀ event ∈ initialTaskEvents pass.workflow pass.definition,
          event.isWork = true := by
        simp [initialTaskEvents, WorkflowInstanceEvent.isWork]
      rw [← hWork hEvents] at hStatus
      refine h.passCommit hHeld (fun _ _ _ => (hWork hEvents).symm.trans hStatus)
        ⟨.inr ((hWork hEvents).symm.trans hStatus), .inl hStatus⟩ fun updated hUpdated => ?_
      exact enterLoop_held hNew (hUpdated.trans hStatus)
  | commitGenerations events =>
      simp only [hCase] at hStatus ⊢
      obtain ⟨hRunning, hEvents⟩ := hStatus
      have hAfter := (hWork hEvents).trans hRunning
      refine h.passCommit hHeld (fun _ _ _ => hRunning) ⟨.inr hRunning, .inl hAfter⟩
        fun updated hUpdated => ?_
      exact startTasks_held hNew (hUpdated.trans hAfter) (enterLoop_held hNew (hUpdated.trans hAfter))
  | checkPaused id rest =>
      simp only [hCase] at hStatus ⊢
      split
      · trivial
      · exact ⟨hHeld, hStatus⟩
  | commitStart id rest =>
      simp only [hCase] at hStatus ⊢
      refine h.passCommit hHeld (fun _ _ _ => hStatus) ⟨.inr hStatus, .inl hStatus⟩
        fun updated hUpdated => ?_
      exact prepareDispatch_held hNew (hUpdated.trans hStatus) id rest
  | commitInputFailure started error =>
      simp only [hCase] at hStatus ⊢
      exact h.passCommit hHeld (fun _ _ _ => hStatus) ⟨.inr hStatus, .inr (.inr rfl)⟩
        fun updated hUpdated => trivial
  | resolveFunction started rest =>
      simp only [hCase] at hStatus ⊢
      exact dispatch_held hHeld hStatus started rest
  | awaitAnswer started call rest =>
      simp only [hCase] at hStatus ⊢
      exact ⟨hHeld, hStatus⟩
  | readCurrent started answer result rest =>
      simp only [hCase] at hStatus ⊢
      obtain ⟨hRunning, hResult⟩ := hStatus
      refine ⟨hHeld, ?_, ?_, hResult⟩
      · simp only [ActivePass.resultBase]
        split
        · exact List.mem_cons_self
        · exact hHeld
      · simp only [ActivePass.resultBase]
        split
        · rename_i hPaused
          exact .inr hPaused
        · exact .inl hRunning
  | commitResult started answer result base rest =>
      simp only [hCase] at hStatus ⊢
      obtain ⟨hBase, hBaseStatus, hResult⟩ := hStatus
      refine h.passCommit hBase (fun event hMem hEvent => ?_) ⟨hBaseStatus, ?_⟩
        fun updated hUpdated => ?_
      · rw [(hResult.result.all event hMem).isStart] at hEvent
        cases hEvent
      · by_cases hNext : result.next = .checkPause none
        · exact .inl ⟨hNext, foldl_statusEffect_of_work (hResult.goesOn hNext).1 _⟩
        · have hMem := hResult.ends hNext
          exact .inr ⟨hMem, hResult.result.status_eq hMem _⟩
      · exact afterResult_held hNew hBaseStatus hResult hUpdated rest
  | commitPauseCompleted =>
      simp only [hCase] at hStatus ⊢
      exact h.passCommit hHeld (by simp [isStart]) ⟨hStatus, rfl⟩ fun _ _ => trivial
  | commitCompleted =>
      simp only [hCase] at hStatus ⊢
      exact h.passCommit hHeld (by simp [isStart]) ⟨.inr hStatus, .inr (.inl rfl)⟩
        fun _ _ => trivial

theorem Inv.setPass (h : Inv env s) {index : Nat} {pass : PassState}
    (hPass : PassHeld env.ext s.snapshots pass) : Inv env (s.setPass index pass) := by
  refine ⟨h.older, fun other hOther => ?_⟩
  rcases List.mem_or_eq_of_mem_set hOther with hOld | rfl
  · exact h.passes other hOld
  · exact hPass

/-- A stored snapshot of a larger version is the latest. -/
theorem Inv.saved (h : Inv env s) {updated : WorkflowInstance}
    (hVersion : s.stored.version < updated.version) : Inv env (s.saved updated) := by
  refine ⟨fun workflow hPast => ?_, fun pass hPass => ?_⟩
  · rcases List.mem_cons.mp hPast with rfl | hPast
    · exact hVersion
    · exact (h.older workflow hPast).trans hVersion
  · exact (h.passes pass hPass).mono (List.subset_cons_self ..)

end ConcurrentPasses

/-- No request starts an attempt. -/
theorem Request.batch_isStart {definitions : String → Option WorkflowDef}
    {workflow : WorkflowInstance} {request : Request} {events : List WorkflowInstanceEvent}
    (h : request.batch definitions workflow = .ok (some events)) :
    ∀ event ∈ events, event.isStart = false := by
  cases request with
  | pauseWorkflow =>
      simp only [Request.batch] at h
      split at h <;> cases h <;> simp [isStart]
  | resumeWorkflow =>
      simp only [Request.batch] at h
      split at h <;> cases h
      simp [isStart]
  | submitHumanInput taskId submittedInput =>
      obtain ⟨_, _, hEvents⟩ := FallibleFold.bind_ok.mp h
      cases hEvents
      simp [isStart]
  | retryTask taskId =>
      obtain ⟨_, _, hEvents⟩ := FallibleFold.bind_ok.mp h
      cases hEvents
      simp [isStart]
  | forceRetryTask taskId targetHostId =>
      obtain ⟨_, _, hEvents⟩ := FallibleFold.bind_ok.mp h
      cases hEvents
      simp [isStart]
  | failPinnedToLostHosts lostHosts =>
      simp only [Request.batch] at h
      split at h
      · cases h
      · split at h <;> cases h
        simp [isStart]

namespace ConcurrentPasses

variable {env : EngineEnv} {s s' : ConcurrentPasses}

/-- A pass in any state, from loading to its end, holds snapshots of the
instance only and commits on the stored one. -/
theorem Inv.passStateStep (h : Inv env s) {pass : PassState}
    (hPass : PassHeld env.ext s.snapshots pass) :
    match pass.step env s.stored with
    | (next, none) => PassHeld env.ext s.snapshots next
    | (next, some updated) => PassHeld env.ext (updated :: s.snapshots) next ∧
        s.stored.version < updated.version ∧
        ∃ active, pass = .active active ∧ PassCommitted active.point s.stored updated := by
  cases pass with
  | active pass =>
      have hAdvances := h.activeStep hPass
      unfold Advances at hAdvances
      simp only [PassState.step]
      split at hAdvances
      · exact hAdvances
      · exact ⟨hAdvances.1, hAdvances.2.1, pass, rfl, hAdvances.2.2⟩
  | idle | finished _ => trivial
  | loading order =>
      simp only [PassState.step, PassState.loaded]
      split
      · trivial
      · trivial
      · trivial
      · trivial
      · rename_i hPending
        exact ⟨List.mem_cons_self, .inl hPending⟩
      · rename_i hRunning
        exact ⟨List.mem_cons_self, .inr hRunning⟩
  | loadingDef order workflow =>
      simp only [PassState.step, PassState.loadedDef]
      split
      · trivial
      · exact hPass

/-- A step of one of the passes. -/
theorem Inv.passStep (h : Inv env s) {index : Nat} (hStep : step env s (.passStep index) = some s') :
    Inv env s' ∧ (s'.stored = s.stored ∨
      ∃ pass, s.passes[index]? = some (.active pass) ∧ PassCommitted pass.point s.stored s'.stored) := by
  obtain ⟨pass, hPass, hRest⟩ := Option.bind_eq_some_iff.mp hStep
  have hAdvances := h.passStateStep (h.passes pass (List.mem_of_getElem? hPass))
  split at hAdvances <;> rename_i hNext <;> rw [hNext] at hRest <;> cases hRest
  · exact ⟨h.setPass hAdvances, .inl rfl⟩
  · obtain ⟨hHeld, hVersion, active, rfl, hCommitted⟩ := hAdvances
    exact ⟨(h.saved hVersion).setPass hHeld, .inr ⟨active, hPass, hCommitted⟩⟩

/-- A commit on a snapshot that was read earlier: it is refused, or it replaces
that snapshot. -/
theorem Inv.commit (h : Inv env s) {base : WorkflowInstance} {events : List WorkflowInstanceEvent}
    (hHeld : base ∈ s.snapshots) : Inv env (s.commit base events) ∧
      ((s.commit base events).stored = s.stored ∨ base = s.stored ∧ ∃ reduced,
        reduceWorkflowInstanceEvents (some s.stored) events = .ok reduced ∧
        (s.commit base events).stored = reduced.withVersion (s.stored.version + events.length)) := by
  unfold ConcurrentPasses.commit
  cases hCommit : commitOn s.stored base events with
  | error error => exact ⟨h, .inl rfl⟩
  | ok updated =>
      obtain ⟨hEvents, hVersion, reduced, hReduce, rfl⟩ := commitOn_ok hCommit
      obtain rfl := h.eq_stored hHeld hVersion
      have hLength := List.length_pos_of_ne_nil hEvents
      have hLater : s.stored.version < s.stored.version + events.length := by omega
      exact ⟨h.saved hLater, .inr ⟨rfl, reduced, hReduce, rfl⟩⟩

/-- A request: what it commits is decided on the stored snapshot. -/
theorem Inv.request (h : Inv env s) {request : Request} {seen : Nat}
    (hStep : step env s (.request request seen) = some s') :
    Inv env s' ∧ (s'.stored = s.stored ∨ ∃ events reduced,
      request.batch env.definitions s.stored = .ok (some events) ∧
      reduceWorkflowInstanceEvents (some s.stored) events = .ok reduced ∧
      s'.stored = reduced.withVersion (s.stored.version + events.length)) := by
  obtain ⟨snapshot, hSnapshot, hRest⟩ := Option.bind_eq_some_iff.mp hStep
  split at hRest
  · rename_i events hBatch
    cases hRest
    obtain ⟨hInv, hSame | ⟨rfl, reduced, hReduce, hStored⟩⟩ :=
      h.commit (List.mem_of_getElem? hSnapshot)
    · exact ⟨hInv, .inl hSame⟩
    · exact ⟨hInv, .inr ⟨events, reduced, hBatch, hReduce, hStored⟩⟩
  · cases hRest
    exact ⟨h, .inl rfl⟩

/-- The recovery puts running attempts back, whatever snapshots it has listed
and read. -/
theorem Inv.recover (h : Inv env s) {listed seen current : Nat}
    (hStep : step env s (.recover listed seen current) = some s') :
    Inv env s' ∧ (s'.stored = s.stored ∨ ∃ ids reduced,
      reduceWorkflowInstanceEvents (some s.stored) [.startupRecoveryApplied ids] = .ok reduced ∧
      s'.stored = reduced.withVersion (s.stored.version + 1)) := by
  obtain ⟨_, _, hStep⟩ := Option.bind_eq_some_iff.mp hStep
  obtain ⟨_, _, hStep⟩ := Option.bind_eq_some_iff.mp hStep
  obtain ⟨base, hBase, hRest⟩ := Option.bind_eq_some_iff.mp hStep
  split at hRest
  · cases hRest
  · split at hRest
    · rename_i events hRecovery
      cases hRest
      obtain ⟨hInv, hSame | ⟨_, reduced, hReduce, hStored⟩⟩ :=
        h.commit (List.mem_of_getElem? hBase)
      · exact ⟨hInv, .inl hSame⟩
      · unfold startupRecovery at hRecovery
        dsimp only at hRecovery
        split at hRecovery <;> cases hRecovery
        exact ⟨hInv, .inr ⟨_, reduced, hReduce, hStored⟩⟩
    · cases hRest
      exact ⟨h, .inl rfl⟩

/-- A recovery moves a running instance to the queue, and leaves every other
status. -/
theorem recovered_status {ids : List String} {before reduced : WorkflowInstance}
    (hReduce : reduceWorkflowInstanceEvents (some before) [.startupRecoveryApplied ids] = .ok reduced)
    (hNotRunning : before.status ≠ .running) : reduced.status = before.status := by
  rw [(reduceWorkflowInstanceEvents_effected hReduce).status]
  simp [WorkflowInstanceEvent.statusEffect, hNotRunning]

/-- Every action keeps the invariant and respects a pause. Passes are many
here, and each may hold a snapshot as old as it likes. -/
theorem Inv.step (h : Inv env s) {action : ConcurrentAction} (hStep : step env s action = some s') :
    Inv env s' ∧ PauseRespected action.isOwn s.stored s'.stored := by
  cases action with
  | startPass order =>
      cases hStep
      refine ⟨⟨h.older, fun pass hPass => ?_⟩, .same rfl⟩
      rcases List.mem_append.mp hPass with hOld | hNew
      · exact h.passes pass hOld
      · cases List.mem_singleton.mp hNew
        trivial
  | crash index =>
      cases hStep
      exact ⟨h.setPass trivial, .same rfl⟩
  | answer index result =>
      obtain ⟨pass, hPass, hAnswer⟩ := Option.bind_eq_some_iff.mp hStep
      obtain ⟨next, hNext, hDone⟩ := Option.bind_eq_some_iff.mp hAnswer
      cases hDone
      have hHeld := h.passes pass (List.mem_of_getElem? hPass)
      cases pass with
      | active active =>
          simp only [PassState.answer] at hNext
          split at hNext <;> cases hNext
          rename_i hPoint
          have hRunning : active.workflow.status = .running := by
            simpa only [HeldStatus, hPoint] using hHeld.2
          exact ⟨h.setPass (answered_held hHeld.1 hRunning _ _ _), .same rfl⟩
      | _ => cases hNext
  | passStep index =>
      obtain ⟨hInv, hStored | ⟨pass, _, hCommitted⟩⟩ := h.passStep hStep
      · exact ⟨hInv, .same hStored⟩
      · exact ⟨hInv, hCommitted.pauseRespected⟩
  | request request seen =>
      obtain ⟨hInv, hStored | ⟨events, reduced, hBatch, hReduce, hStored⟩⟩ := h.request hStep
      · exact ⟨hInv, .same hStored⟩
      · refine ⟨hInv, .committed hReduce hStored (fun event hMem hEvent => ?_) nofun⟩
        rw [Request.batch_isStart hBatch event hMem] at hEvent
        cases hEvent
  | recover listed seen current =>
      obtain ⟨hInv, hStored | ⟨ids, reduced, hReduce, hStored⟩⟩ := h.recover hStep
      · exact ⟨hInv, .same hStored⟩
      · refine ⟨hInv, .committed hReduce hStored (by simp [isStart]) fun _ hPaused => ?_⟩
        have hStatus := recovered_status hReduce (by simp [hPaused])
        rw [hStored]
        show reduced.status ≠ .running
        simp [hStatus, hPaused]

theorem Inv.created (env : EngineEnv) (id workflowDefId : String) (pinnedWorkerHost : WorkerHostId)
    (input : Option Json) :
    Inv env (ConcurrentPasses.created id workflowDefId pinnedWorkerHost input) :=
  ⟨(fun _ h => nomatch h), (fun _ h => nomatch h)⟩

/-- However passes, crashes and recoveries interleave with everyone who pauses
and resumes the instance: a batch that starts an attempt replaces a running
snapshot, an attempt that runs after a commit on a paused snapshot ran before
it, and no pass or recovery turns a paused instance running. -/
theorem Steps.no_start_while_paused {id workflowDefId : String} {pinnedWorkerHost : WorkerHostId}
    {input : Option Json} {actions : List ConcurrentAction} {action : ConcurrentAction}
    (run : Steps env (ConcurrentPasses.created id workflowDefId pinnedWorkerHost input) actions s)
    (hStep : ConcurrentPasses.step env s action = some s') :
    PauseRespected action.isOwn s.stored s'.stored ∧
      (s.stored.status = .paused → StartsNone s.stored s'.stored) :=
  have hRespected :=
    ((run.invariant (Inv.created ..) fun _ _ _ h hStep => (h.step hStep).1).step hStep).2
  ⟨hRespected, fun hPaused => hRespected.startsNone (by simp [hPaused])⟩

/-- Two passes; the instance is paused before either has found its first
attempt. -/
def pausedBetween : List ConcurrentAction :=
  [.startPass [], .startPass [], .passStep 0, .passStep 0, .passStep 0, .passStep 1, .passStep 1,
    .passStep 0, .passStep 0, .request .pauseWorkflow 0]

def sampleCreated : ConcurrentPasses :=
  ConcurrentPasses.created "article-1" "article" ⟨"host"⟩ none

/-- The sample run goes through: two passes begin, and the instance is paused
before either has an attempt. -/
theorem pausedBetween_runs :
    (pausedBetween.foldlM (ConcurrentPasses.step sampleEnv) sampleCreated).isSome := by
  decide +kernel

def paused : ConcurrentPasses :=
  (pausedBetween.foldlM (ConcurrentPasses.step sampleEnv) sampleCreated).get pausedBetween_runs

theorem paused_goes_on : (ConcurrentPasses.step sampleEnv paused (.passStep 0)).isSome := by
  decide +kernel

/-- The pass that goes on starts nothing. -/
theorem Steps.no_start_while_paused_seen :
    paused.stored.status = .paused ∧ StartsNone paused.stored
      ((ConcurrentPasses.step sampleEnv paused (.passStep 0)).get paused_goes_on).stored :=
  have hPaused := by decide +kernel
  ⟨hPaused, (Steps.no_start_while_paused
    (Run.of_foldlM (Option.some_get pausedBetween_runs).symm)
    (Option.some_get paused_goes_on).symm).2 hPaused⟩

end ConcurrentPasses

end RelayFold
