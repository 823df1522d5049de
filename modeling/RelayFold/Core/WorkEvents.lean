import RelayFold.Core.EventEffects

/-! Events about attempts and verifiers alone: they neither read nor write the
version and the status, so a batch of them acts alike on snapshots that differ
only there. -/
namespace RelayFold

open FallibleFold

/-- The snapshot with another version and status, and the same work. -/
def WorkflowInstance.marked (workflow : WorkflowInstance) (version : Nat)
    (status : WorkflowStatus) : WorkflowInstance :=
  { workflow with version := version, status := status }

@[simp] theorem WorkflowInstance.marked_tasks (workflow : WorkflowInstance) (version : Nat)
    (status : WorkflowStatus) : (workflow.marked version status).tasks = workflow.tasks := rfl

@[simp] theorem WorkflowInstance.marked_verifierStates (workflow : WorkflowInstance)
    (version : Nat) (status : WorkflowStatus) :
    (workflow.marked version status).verifierStates = workflow.verifierStates := rfl

/-- Two snapshots whose attempts and verifier states are the same. -/
def SameWork (a b : WorkflowInstance) : Prop := b = a.marked b.version b.status

theorem SameWork.refl (a : WorkflowInstance) : SameWork a a := rfl

theorem SameWork.trans {a b c : WorkflowInstance} (h : SameWork a b) (h' : SameWork b c) :
    SameWork a c := by
  rw [SameWork, h', h]
  rfl

/-- Instances with the same work hold the same attempts, whatever their
versions and statuses. -/
theorem SameWork.tasks {a b : WorkflowInstance} (h : SameWork a b) : b.tasks = a.tasks := by
  rw [h]
  rfl

/-- A new version and a new status leave the work alone. This is how a pass
compares its own snapshot with the stored one after a pause. -/
theorem sameWork_marked (workflow : WorkflowInstance) (version : Nat) (status : WorkflowStatus) :
    SameWork workflow (workflow.marked version status) := rfl

namespace WorkflowInstanceEvent

/-- Events that concern attempts and verifier states only. -/
def isWork : WorkflowInstanceEvent → Bool
  | taskEarlyExitSet .. | taskMaterialized .. | taskStatusChanged .. | taskInputDataSet ..
  | taskInputMappingSet .. | taskOutputRecorded .. | taskSatisfactionChanged ..
  | taskVerifierMetadataSet .. | verifierStateUpserted .. | verifierFeedbackRecorded ..
  | verifierStateStatusChanged .. => true
  | _ => false

/-- Work events and status changes: everything an engine pass commits. -/
def isPassEvent : WorkflowInstanceEvent → Bool
  | workflowStatusChanged _ => true
  | event => event.isWork

/-- Every event that a pass commits decides each attempt from that attempt
alone; it is only a human input that does not. -/
theorem isLocal_of_isPassEvent {event : WorkflowInstanceEvent} (h : event.isPassEvent = true) :
    event.isLocal = true := by
  cases event <;> first | cases h; done | rfl

end WorkflowInstanceEvent

/-- Work events do not touch the status of the instance. -/
theorem foldl_statusEffect_of_work {events : List WorkflowInstanceEvent}
    (h : ∀ event ∈ events, event.isWork = true) (status : WorkflowStatus) :
    events.foldl (fun current event => event.statusEffect current) status = status := by
  refine List.foldlRecOn events (motive := (· = status)) _ rfl ?_
  intro current hCurrent event hMem
  have hWork := h event hMem
  cases event <;> first | exact hCurrent | cases hWork

theorem taskMut_marked (workflow : WorkflowInstance) (version : Nat) (status : WorkflowStatus)
    (id : String) (change : TaskInstance → TaskInstance) :
    taskMut (workflow.marked version status) id change =
      (taskMut workflow id change).map (·.marked version status) := by
  simp only [taskMut, WorkflowInstance.marked]
  cases workflow.tasks.lookup id <;> rfl

theorem verifierStateMut_marked (workflow : WorkflowInstance) (version : Nat)
    (status : WorkflowStatus) (id : String)
    (change : VerifierGenerationState → VerifierGenerationState) :
    verifierStateMut (workflow.marked version status) id change =
      (verifierStateMut workflow id change).map (·.marked version status) := by
  simp only [verifierStateMut, WorkflowInstance.marked]
  cases workflow.verifierStates.lookup id <;> rfl

/-- A work event has the same result on a snapshot that only differs in version
and status, so a result can be recorded on the paused snapshot. -/
theorem applyWorkflowInstanceEvent_marked {event : WorkflowInstanceEvent}
    (h : event.isWork = true) (workflow : WorkflowInstance) (version : Nat)
    (status : WorkflowStatus) :
    applyWorkflowInstanceEvent (workflow.marked version status) event =
      (applyWorkflowInstanceEvent workflow event).map (·.marked version status) := by
  cases event with
  | verifierStateUpserted _ _ => rfl
  | taskEarlyExitSet _ _ | taskStatusChanged _ _ | taskInputDataSet _ _
  | taskInputMappingSet _ _ | taskOutputRecorded _ _ | taskSatisfactionChanged _ _
  | taskVerifierMetadataSet _ _ => exact taskMut_marked ..
  | verifierFeedbackRecorded _ _ | verifierStateStatusChanged _ _ _ _ =>
      exact verifierStateMut_marked ..
  | taskMaterialized id task =>
      simp only [applyWorkflowInstanceEvent, WorkflowInstance.marked]
      cases workflow.tasks.lookup id <;> rfl
  | _ => cases h

/-- A batch of work events does the same under another version and status. -/
theorem reduceWorkflowInstanceEvents_marked {events : List WorkflowInstanceEvent}
    (h : ∀ event ∈ events, event.isWork = true) (workflow : WorkflowInstance) (version : Nat)
    (status : WorkflowStatus) :
    reduceWorkflowInstanceEvents (some (workflow.marked version status)) events =
      (reduceWorkflowInstanceEvents (some workflow) events).map (·.marked version status) := by
  simp only [reduceWorkflowInstanceEvents]
  induction events generalizing workflow with
  | nil => rfl
  | cons event events ih =>
      simp only [List.foldlM_cons,
        applyWorkflowInstanceEvent_marked (h event List.mem_cons_self)]
      cases applyWorkflowInstanceEvent workflow event with
      | error message => rfl
      | ok next => exact ih (fun e he => h e (List.mem_cons_of_mem _ he)) next

end RelayFold
