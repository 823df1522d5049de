import RelayFold.Library.Folds
import RelayFold.Library.VersionedLog
import RelayFold.Core.Events

/-! The reducer as a journal: events never read or write the version, so
replaying them is a function of the record without its version. -/
namespace RelayFold

open FallibleFold

def WorkflowInstance.withVersion (workflow : WorkflowInstance) (version : Nat) :
    WorkflowInstance := { workflow with version := version }

/-- The record without its version counter. -/
def WorkflowInstance.unversioned (workflow : WorkflowInstance) : WorkflowInstance :=
  workflow.withVersion 0

@[simp] theorem WorkflowInstance.withVersion_version (workflow : WorkflowInstance) :
    workflow.withVersion workflow.version = workflow := rfl

theorem taskMut_withVersion (workflow : WorkflowInstance) (v : Nat) (id : String)
    (change : TaskInstance → TaskInstance) :
    taskMut (workflow.withVersion v) id change =
      (taskMut workflow id change).map (·.withVersion v) := by
  simp only [taskMut, WorkflowInstance.withVersion]
  cases workflow.tasks.lookup id <;> rfl

theorem verifierStateMut_withVersion (workflow : WorkflowInstance) (v : Nat) (id : String)
    (change : VerifierGenerationState → VerifierGenerationState) :
    verifierStateMut (workflow.withVersion v) id change =
      (verifierStateMut workflow id change).map (·.withVersion v) := by
  simp only [verifierStateMut, WorkflowInstance.withVersion]
  cases workflow.verifierStates.lookup id <;> rfl

/-- The guards of a retry, on the status of the instance and of the attempt, do
not look at the version. -/
theorem resetFailedTaskForRetry_withVersion (workflow : WorkflowInstance) (v : Nat) (id : String) :
    resetFailedTaskForRetry (workflow.withVersion v) id =
      (resetFailedTaskForRetry workflow id).map (·.withVersion v) := by
  simp only [resetFailedTaskForRetry, WorkflowInstance.withVersion]
  by_cases hStatus : workflow.status = .failed
  · simp only [hStatus]
    cases workflow.tasks.lookup id with
    | none => rfl
    | some task =>
        by_cases hTask : task.status = .failed
        · simp only [hTask]; rfl
        · simp [hTask, Except.map]
  · simp [hStatus, Except.map]

/-- No event depends on the version of the instance. Replaying a log can
therefore count versions on its own, beside the reducer. -/
theorem applyWorkflowInstanceEvent_withVersion (v : Nat) (workflow : WorkflowInstance)
    (event : WorkflowInstanceEvent) :
    applyWorkflowInstanceEvent (workflow.withVersion v) event =
      (applyWorkflowInstanceEvent workflow event).map (·.withVersion v) := by
  cases event with
  | workflowCreated _ | workflowStatusChanged _ | verifierStateUpserted _ _ => rfl
  | taskEarlyExitSet _ _ | taskStatusChanged _ _ | taskInputDataSet _ _
  | taskInputMappingSet _ _ | taskOutputRecorded _ _ | taskSatisfactionChanged _ _
  | taskVerifierMetadataSet _ _ => exact taskMut_withVersion ..
  | verifierFeedbackRecorded _ _ | verifierStateStatusChanged _ _ _ _ =>
      exact verifierStateMut_withVersion ..
  | taskRetryRequested id => exact resetFailedTaskForRetry_withVersion ..
  | startupRecoveryApplied ids =>
      let recover (workflow : WorkflowInstance) (id : String) :=
        taskMut workflow id TaskInstance.recovered
      have hFold (workflow : WorkflowInstance) : ids.foldlM recover (workflow.withVersion v) =
          (ids.foldlM recover workflow).map (·.withVersion v) :=
        foldlM_map (f := (·.withVersion v)) (fun _ _ => taskMut_withVersion ..) workflow ids
      simp only [applyWorkflowInstanceEvent]
      by_cases hStatus : workflow.status = .running
      · rw [if_pos hStatus, if_pos (show (workflow.withVersion v).status = .running from hStatus)]
        exact hFold { workflow with status := .pending }
      · rw [if_neg hStatus, if_neg (show ¬(workflow.withVersion v).status = .running from hStatus)]
        exact hFold workflow
  | taskMaterialized id task =>
      simp only [applyWorkflowInstanceEvent, WorkflowInstance.withVersion]
      cases workflow.tasks.lookup id <;> rfl
  | humanInputSubmitted id continuationId input =>
      simp only [applyWorkflowInstanceEvent, WorkflowInstance.withVersion]
      cases workflow.tasks.lookup id with
      | none => rfl
      | some task =>
          dsimp only
          split
          · rfl
          · split
            · rfl
            · cases workflow.tasks.lookup continuationId <;> rfl
  | taskForceRetryRequested id previous target lost =>
      simp only [applyWorkflowInstanceEvent, resetFailedTaskForRetry_withVersion]
      change (if workflow.pinnedWorkerHost ≠ previous then _ else _) = _
      split
      · rfl
      · split
        · rfl
        · cases resetFailedTaskForRetry workflow id <;> rfl

/-- The events as a journal over unversioned records. -/
def eventJournal : Journal WorkflowInstance WorkflowInstanceEvent where
  create
    | .workflowCreated workflow => some workflow.unversioned
    | _ => none
  apply workflow event := (applyWorkflowInstanceEvent workflow event).toOption

/-- The reducer computes the journal's replay, up to the version. -/
theorem replay_eventJournal (current : Option WorkflowInstance)
    (events : List WorkflowInstanceEvent) :
    eventJournal.replay (current.map (·.unversioned)) events =
      (reduceWorkflowInstanceEvents current events).toOption.map (·.unversioned) := by
  have hFold (workflow : WorkflowInstance) (events : List WorkflowInstanceEvent) :
      events.foldlM eventJournal.apply workflow.unversioned =
        (events.foldlM applyWorkflowInstanceEvent workflow).toOption.map (·.unversioned) := by
    refine (foldlM_toOption workflow.unversioned events).trans ?_
    rw [WorkflowInstance.unversioned,
      foldlM_map (applyWorkflowInstanceEvent_withVersion 0) workflow events]
    cases events.foldlM applyWorkflowInstanceEvent workflow <;> rfl
  cases current with
  | some workflow => exact hFold workflow events
  | none =>
      cases events with
      | nil => rfl
      | cons event rest =>
          cases event with
          | workflowCreated workflow => exact hFold workflow rest
          | _ => rfl

/-- What no event changes: the identity of an instance and its trigger
input. -/
structure SameIdentity (a b : WorkflowInstance) : Prop where
  id : b.id = a.id
  workflowDefId : b.workflowDefId = a.workflowDefId
  triggerInput : b.triggerInput = a.triggerInput
  version : b.version = a.version

theorem SameIdentity.refl (a : WorkflowInstance) : SameIdentity a a := ⟨rfl, rfl, rfl, rfl⟩

theorem SameIdentity.trans {a b c : WorkflowInstance} (h : SameIdentity a b)
    (h' : SameIdentity b c) : SameIdentity a c :=
  ⟨h'.id.trans h.id, h'.workflowDefId.trans h.workflowDefId,
    h'.triggerInput.trans h.triggerInput, h'.version.trans h.version⟩

/-- A change of an attempt succeeds only where the attempt exists, and then it
touches nothing but the task map. -/
theorem taskMut_ok {workflow next : WorkflowInstance} {id : String}
    {change : TaskInstance → TaskInstance} (h : taskMut workflow id change = .ok next) :
    (workflow.tasks.lookup id).isSome ∧
      next = { workflow with tasks := workflow.tasks.modify id change } := by
  unfold taskMut at h
  cases hTask : workflow.tasks.lookup id with
  | none => rw [hTask] at h; cases h
  | some task => rw [hTask] at h; cases h; exact ⟨rfl, rfl⟩

/-- A change of a verifier state succeeds only where the state exists, and it
touches nothing else. -/
theorem verifierStateMut_ok {workflow next : WorkflowInstance} {id : String}
    {change : VerifierGenerationState → VerifierGenerationState}
    (h : verifierStateMut workflow id change = .ok next) :
    (workflow.verifierStates.lookup id).isSome ∧
      next = { workflow with verifierStates := workflow.verifierStates.modify id change } := by
  unfold verifierStateMut at h
  cases hState : workflow.verifierStates.lookup id with
  | none => rw [hState] at h; cases h
  | some state => rw [hState] at h; cases h; exact ⟨rfl, rfl⟩

/-- A retry is accepted on a failed instance with a failed attempt only. The
attempt is reset and the instance becomes pending. -/
theorem resetFailedTaskForRetry_ok {workflow next : WorkflowInstance} {id : String}
    (h : resetFailedTaskForRetry workflow id = .ok next) :
    workflow.status = .failed ∧
      (∃ task, workflow.tasks.lookup id = some task ∧ task.status = .failed) ∧
      next = { workflow with
        tasks := workflow.tasks.modify id TaskInstance.resetForRetry, status := .pending } := by
  unfold resetFailedTaskForRetry at h
  split at h
  · cases h
  · rename_i hStatus
    cases hTask : workflow.tasks.lookup id with
    | none => rw [hTask] at h; cases h
    | some task =>
        rw [hTask] at h
        dsimp only at h
        split at h
        · cases h
        · rename_i hFailed
          cases h
          exact ⟨not_not.mp hStatus, ⟨task, rfl, not_not.mp hFailed⟩, rfl⟩

/-- A forced retry is a retry which also moves the pin to the target host. -/
theorem taskForceRetryRequested_ok {workflow next : WorkflowInstance} {id : String}
    {previousHostId : Option WorkerHostId} {targetHostId : WorkerHostId} {lost : Bool}
    (h : applyWorkflowInstanceEvent workflow
      (.taskForceRetryRequested id previousHostId targetHostId lost) = .ok next) :
    ∃ middle, resetFailedTaskForRetry workflow id = .ok middle ∧
      next = { middle with pinnedWorkerHost := some targetHostId } := by
  simp only [applyWorkflowInstanceEvent] at h
  split at h
  · cases h
  · split at h
    · cases h
    · obtain ⟨middle, hMiddle, h⟩ := bind_ok.mp h
      cases h
      exact ⟨middle, hMiddle, rfl⟩

/-- No event renames the instance or changes the definition that it runs. -/
theorem applyWorkflowInstanceEvent_identity {workflow next : WorkflowInstance}
    {event : WorkflowInstanceEvent} (h : applyWorkflowInstanceEvent workflow event = .ok next) :
    SameIdentity workflow next := by
  have hTaskMut {workflow next : WorkflowInstance} {id change}
      (h : taskMut workflow id change = .ok next) : SameIdentity workflow next := by
    rw [(taskMut_ok h).2]
    exact ⟨rfl, rfl, rfl, rfl⟩
  have hReset {next : WorkflowInstance} {id} (h : resetFailedTaskForRetry workflow id = .ok next) :
      SameIdentity workflow next := by
    rw [(resetFailedTaskForRetry_ok h).2.2]
    exact ⟨rfl, rfl, rfl, rfl⟩
  cases event with
  | workflowCreated _ => cases h
  | workflowStatusChanged _ | verifierStateUpserted _ _ => cases h; exact ⟨rfl, rfl, rfl, rfl⟩
  | taskEarlyExitSet _ _ | taskStatusChanged _ _ | taskInputDataSet _ _
  | taskInputMappingSet _ _ | taskOutputRecorded _ _ | taskSatisfactionChanged _ _
  | taskVerifierMetadataSet _ _ => exact hTaskMut h
  | verifierFeedbackRecorded _ _ | verifierStateStatusChanged _ _ _ _ =>
      rw [(verifierStateMut_ok h).2]
      exact ⟨rfl, rfl, rfl, rfl⟩
  | taskRetryRequested id => exact hReset h
  | startupRecoveryApplied ids =>
      simp only [applyWorkflowInstanceEvent] at h
      have hFold := foldlM_rel SameIdentity.refl SameIdentity.trans hTaskMut h
      split at hFold
      · exact ⟨hFold.id, hFold.workflowDefId, hFold.triggerInput, hFold.version⟩
      · exact hFold
  | taskMaterialized id task =>
      simp only [applyWorkflowInstanceEvent] at h
      split at h <;> cases h
      exact ⟨rfl, rfl, rfl, rfl⟩
  | humanInputSubmitted id continuationId input =>
      simp only [applyWorkflowInstanceEvent] at h
      split at h
      · cases h
      · split at h
        · cases h
        · split at h
          · cases h
          · split at h <;> cases h
            exact ⟨rfl, rfl, rfl, rfl⟩
  | taskForceRetryRequested id previous target lost =>
      obtain ⟨middle, hMiddle, rfl⟩ := taskForceRetryRequested_ok h
      have hSame := hReset hMiddle
      exact ⟨hSame.id, hSame.workflowDefId, hSame.triggerInput, hSame.version⟩

theorem reduceWorkflowInstanceEvents_identity {workflow next : WorkflowInstance}
    {events : List WorkflowInstanceEvent}
    (h : reduceWorkflowInstanceEvents (some workflow) events = .ok next) :
    SameIdentity workflow next :=
  foldlM_rel SameIdentity.refl SameIdentity.trans applyWorkflowInstanceEvent_identity h

end RelayFold
