import RelayFold.Lifecycle.Soundness

/-! What a pass in flight knows: its snapshot holds the stored work, whatever
the other writers have committed meanwhile. -/
namespace RelayFold

open WorkflowEngine WorkflowStateManager FallibleFold

/-- A running pass holds a snapshot with the stored work. Other writers can
only have changed the status. -/
structure Working (stored workflow : WorkflowInstance) : Prop where
  same : SameWork workflow stored
  status : stored.status ≠ .inputNeeded
  noneFailed : NoneFailed workflow

/-- An attempt the pass has turned running, with the inputs it resolved. -/
structure Started (definition : WorkflowDef) (loopSlices : LoopSlices)
    (workflow : WorkflowInstance) (started : StartedTask) : Prop where
  resolved : startedTask workflow definition loopSlices started.taskAttemptId = some started
  running : started.task.status = .running

/-- An attempt of the plan that the pass is about to start. -/
structure Startable (plan : List String) (workflow : WorkflowInstance) (taskAttemptId : String)
    (rest : List String) : Prop where
  planned : taskAttemptId ∈ plan
  rest : ∀ id ∈ rest, id ∈ plan
  pending : ∃ task, workflow.tasks.lookup taskAttemptId = some task ∧ task.status = .pending

/-- What holds of the snapshot of a pass at each of its points. -/
def PointInv (ext : Externals) (definition : WorkflowDef) (plan : List String) (s : System)
    (pass : ActivePass) : Prop :=
  let workflow := pass.workflow
  match pass.point with
  | .commitRunning => workflow.status = .pending ∨ workflow.status = .running
  | .commitInitialTasks =>
      workflow.status = .running ∧ Working s.stored workflow ∧ workflow.tasks.isEmpty = true
  | .commitGenerations events =>
      workflow.status = .running ∧ Working s.stored workflow ∧
        TasksInitialized definition workflow ∧
        events = materializeEligibleInitialGenerationEvents workflow definition pass.loopSlices
  | .checkPaused taskAttemptId rest | .commitStart taskAttemptId rest =>
      workflow.status = .running ∧ Working s.stored workflow ∧
        Startable plan workflow taskAttemptId rest
  | .commitInputFailure started error =>
      workflow.status = .running ∧ Working s.stored workflow ∧
        Started definition pass.loopSlices workflow started ∧
        validateInputs ext started.taskDef started.inputs.values = .error error
  | .resolveFunction started rest =>
      workflow.status = .running ∧ Working s.stored workflow ∧
        Started definition pass.loopSlices workflow started ∧ ∀ id ∈ rest, id ∈ plan
  | .awaitAnswer started call rest =>
      workflow.status = .running ∧ Working s.stored workflow ∧
        Started definition pass.loopSlices workflow started ∧ (∀ id ∈ rest, id ∈ plan) ∧
        ∃ (env : EngineEnv) (taskDef : TaskDef), env.ext = ext ∧
          call = pass.dispatchCall env started taskDef
  | .readCurrent started answer result rest =>
      workflow.status = .running ∧ Working s.stored workflow ∧
        Started definition pass.loopSlices workflow started ∧ (∀ id ∈ rest, id ∈ plan) ∧
        resultCommit ext workflow definition pass.loopSlices started.taskAttemptId started.taskDef
          started.inputs answer = .ok result
  | .commitResult started answer result base rest =>
      workflow.status = .running ∧ Working s.stored workflow ∧
        Started definition pass.loopSlices workflow started ∧ (∀ id ∈ rest, id ∈ plan) ∧
        resultCommit ext workflow definition pass.loopSlices started.taskAttemptId started.taskDef
          started.inputs answer = .ok result ∧
        (base = workflow ∨ base ∈ s.snapshots ∧ base.status = .paused ∧ SameWork workflow base)
  | .commitPauseCompleted =>
      workflow.status = .paused ∧ workflowAllCompleted workflow definition = true
  | .commitCompleted =>
      workflow.status = .running ∧ workflowAllCompleted workflow definition = true

structure ActiveInv (ext : Externals) (definition : WorkflowDef) (plan : List String) (s : System)
    (pass : ActivePass) : Prop where
  loaded : pass.definition = definition
  slices : pass.loopSlices.Perm (computeLoopSlices definition)
  held : pass.workflow ∈ s.snapshots
  point : PointInv ext definition plan s pass

def PassInv (ext : Externals) (definition : WorkflowDef) (plan : List String) (s : System) :
    PassState → Prop
  | .idle | .loading _ | .finished _ => True
  | .loadingDef _ workflow =>
      workflow ∈ s.snapshots ∧ (workflow.status = .pending ∨ workflow.status = .running)
  | .active pass => ActiveInv ext definition plan s pass

/-- The stored snapshot is the newest, and all snapshots are of one
definition. -/
structure HistoryInv (env : EngineEnv) (definition : WorkflowDef) (s : System) : Prop where
  older : ∀ workflow ∈ s.past, workflow.version < s.stored.version
  defId : ∀ workflow ∈ s.snapshots, env.definitions workflow.workflowDefId = some definition

/-- A snapshot with the stored version is the stored one. -/
theorem HistoryInv.eq_stored {env : EngineEnv} {definition : WorkflowDef} {s : System}
    (h : HistoryInv env definition s) {workflow : WorkflowInstance}
    (hHeld : workflow ∈ s.snapshots) (hVersion : s.stored.version = workflow.version) :
    workflow = s.stored := by
  rcases List.mem_cons.mp hHeld with rfl | hPast
  · rfl
  · exact absurd hVersion (Nat.ne_of_gt (h.older workflow hPast))

namespace WorkflowStateManager

/-- A commit that is accepted has events, a base of the stored version, and a
reduced snapshot with the version moved on by the number of events. -/
theorem commitOn_ok {stored base updated : WorkflowInstance}
    {events : List WorkflowInstanceEvent} (h : commitOn stored base events = .ok updated) :
    events ≠ [] ∧ stored.version = base.version ∧
      ∃ reduced, reduceWorkflowInstanceEvents (some base) events = .ok reduced ∧
        updated = reduced.withVersion (base.version + events.length) := by
  unfold commitOn at h
  split at h
  · cases h
  · rename_i hNonempty
    cases hReduce : reduceWorkflowInstanceEvents (some base) events with
    | error message =>
        rw [hReduce] at h
        cases h
    | ok reduced =>
        rw [hReduce] at h
        dsimp only at h
        split at h
        · rename_i hVersion
          cases h
          exact ⟨by simpa using hNonempty, hVersion, reduced, rfl, rfl⟩
        · cases h

end WorkflowStateManager

theorem Sound.withVersion {definition : WorkflowDef} {workflow : WorkflowInstance}
    (h : Sound definition workflow) (version : Nat) :
    Sound definition (workflow.withVersion version) :=
  ⟨h.key, ⟨h.failedOnce.status, h.failedOnce.unique⟩, h.initialized⟩

/-- A commit on the stored snapshot extends the history. -/
theorem HistoryInv.saved {env : EngineEnv} {definition : WorkflowDef} {s : System}
    (h : HistoryInv env definition s) {events : List WorkflowInstanceEvent}
    {reduced : WorkflowInstance} (hEvents : events ≠ [])
    (hReduce : reduceWorkflowInstanceEvents (some s.stored) events = .ok reduced)
    (pass : PassState) :
    HistoryInv env definition
      ((s.saved (reduced.withVersion (s.stored.version + events.length))).setPass pass) := by
  have hLength := List.length_pos_of_ne_nil hEvents
  constructor
  · intro workflow hPast
    change workflow ∈ s.stored :: s.past at hPast
    change workflow.version < s.stored.version + events.length
    rcases List.mem_cons.mp hPast with rfl | hPast
    · omega
    · have := h.older workflow hPast
      omega
  · intro workflow hMem
    change workflow ∈ _ :: s.stored :: s.past at hMem
    rcases List.mem_cons.mp hMem with rfl | hMem
    · change env.definitions reduced.workflowDefId = _
      rw [(reduceWorkflowInstanceEvents_identity hReduce).workflowDefId]
      exact h.defId _ List.mem_cons_self
    · exact h.defId workflow hMem

/-- A commit of another writer keeps what a pass knows, if it keeps the
work. -/
theorem PassInv.of_saved {ext : Externals} {definition : WorkflowDef} {plan plan' : List String}
    {s : System} {updated : WorkflowInstance} {pass : PassState}
    (h : PassInv ext definition plan s pass)
    (hKeeps : ∀ workflow, Working s.stored workflow → Working updated workflow ∧ plan' = plan) :
    PassInv ext definition plan' (s.saved updated) pass := by
  have hMem {workflow : WorkflowInstance} (h : workflow ∈ s.snapshots) :
      workflow ∈ (s.saved updated).snapshots := List.mem_cons_of_mem _ h
  cases pass with
  | idle | loading _ | finished _ => trivial
  | loadingDef order workflow => exact ⟨hMem h.1, h.2⟩
  | active pass =>
      refine ⟨h.loaded, h.slices, hMem h.held, ?_⟩
      have hPoint := h.point
      unfold PointInv at hPoint ⊢
      cases hCase : pass.point with
      | commitRunning | commitPauseCompleted | commitCompleted =>
          simpa only [hCase] using hPoint
      | commitResult started answer result base rest =>
          simp only [hCase] at hPoint ⊢
          obtain ⟨h₁, h₂, h₃, h₄, h₅, h₆⟩ := hPoint
          obtain ⟨hWorking, rfl⟩ := hKeeps _ h₂
          refine ⟨h₁, hWorking, h₃, h₄, h₅, ?_⟩
          rcases h₆ with h₆ | ⟨h₆, h₇⟩
          · exact .inl h₆
          · exact .inr ⟨hMem h₆, h₇⟩
      | _ =>
          simp only [hCase] at hPoint ⊢
          obtain ⟨hWorking, rfl⟩ := hKeeps _ hPoint.2.1
          exact ⟨hPoint.1, hWorking, hPoint.2.2⟩

end RelayFold
