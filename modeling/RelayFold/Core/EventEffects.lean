import RelayFold.Library.Folds
import RelayFold.Core.EventReplay

/-! What an event does to one attempt, one verifier state and the status. Each
is a function of that entry alone, so a batch acts on it as a fold. -/
namespace RelayFold

open FallibleFold

namespace WorkflowInstanceEvent

/-- Every event but a human input decides each attempt from that attempt
alone. -/
def isLocal : WorkflowInstanceEvent → Bool
  | humanInputSubmitted .. => false
  | _ => true

/-- The effect of a local event on the attempt stored under `id`. -/
def taskEffect (id : String) (event : WorkflowInstanceEvent) (current : Option TaskInstance) :
    Option TaskInstance :=
  let change (target : String) (f : TaskInstance → TaskInstance) :=
    if id = target then current.map f else current
  match event with
  | taskEarlyExitSet target earlyExit => change target ({ · with earlyExit := earlyExit })
  | startupRecoveryApplied ids => if id ∈ ids then current.map TaskInstance.recovered else current
  | taskMaterialized target task => if id = target then some task else current
  | taskStatusChanged target status => change target ({ · with status := status })
  | taskInputDataSet target inputData => change target ({ · with inputData := inputData })
  | taskInputMappingSet target inputMapping =>
      change target ({ · with inputMapping := inputMapping })
  | taskOutputRecorded target outputData => change target ({ · with outputData := outputData })
  | taskSatisfactionChanged target satisfactionStatus =>
      change target ({ · with satisfactionStatus := satisfactionStatus })
  | taskVerifierMetadataSet target verifierMetadata =>
      change target ({ · with verifierMetadata := verifierMetadata })
  | taskRetryRequested target => change target TaskInstance.resetForRetry
  | taskForceRetryRequested target _ _ _ => change target TaskInstance.resetForRetry
  | _ => current

/-- The event sets an attempt running. -/
def isStart : WorkflowInstanceEvent → Bool
  | taskStatusChanged _ status => status = .running
  | taskMaterialized _ task => task.status = .running
  | _ => false

def verifierEffect (id : String) (event : WorkflowInstanceEvent)
    (current : Option VerifierGenerationState) : Option VerifierGenerationState :=
  let change (target : String) (f : VerifierGenerationState → VerifierGenerationState) :=
    if id = target then current.map f else current
  match event with
  | verifierStateUpserted target state => if id = target then some state else current
  | verifierFeedbackRecorded target feedback =>
      change target fun state => { state with feedbackHistory := state.feedbackHistory ++ [feedback] }
  | verifierStateStatusChanged target status selectedGeneration exitReason =>
      change target ({ · with
        status := status, selectedGeneration := selectedGeneration, exitReason := exitReason })
  | _ => current

def statusEffect (event : WorkflowInstanceEvent) (current : WorkflowStatus) : WorkflowStatus :=
  match event with
  | workflowStatusChanged status => status
  | startupRecoveryApplied _ => if current = .running then .pending else current
  | humanInputSubmitted .. | taskRetryRequested _ | taskForceRetryRequested .. => .pending
  | _ => current

def pinEffect (event : WorkflowInstanceEvent) (current : Option WorkerHostId) :
    Option WorkerHostId :=
  match event with
  | taskForceRetryRequested _ _ target _ => some target
  | _ => current

end WorkflowInstanceEvent

open WorkflowInstanceEvent

/-- The entries of the record after an event, each by its own effect. -/
structure Effected (event : WorkflowInstanceEvent) (workflow next : WorkflowInstance) : Prop where
  verifierState : ∀ id, next.verifierStates.lookup id =
    event.verifierEffect id (workflow.verifierStates.lookup id)
  status : next.status = event.statusEffect workflow.status
  pin : next.pinnedWorkerHost = event.pinEffect workflow.pinnedWorkerHost
  task : event.isLocal = true → ∀ id, next.tasks.lookup id =
    event.taskEffect id (workflow.tasks.lookup id)

/-- The tasks after a change, looked up: the changed attempt under its own id,
every other one as it was. -/
theorem taskMut_lookup {workflow next : WorkflowInstance} {id : String}
    {change : TaskInstance → TaskInstance} (h : taskMut workflow id change = .ok next)
    (id' : String) :
    next.tasks.lookup id' =
      if id' = id then (workflow.tasks.lookup id').map change else workflow.tasks.lookup id' := by
  rw [(taskMut_ok h).2]
  exact FiniteMap.lookup_modify ..

/-- An attempt that recovery has reset once is not changed by a second
recovery. -/
theorem recovered_recovered (task : TaskInstance) : task.recovered.recovered = task.recovered := by
  unfold TaskInstance.recovered
  split <;> rfl

/-- The loop over the recovered ids resets the listed attempts and no other. A
repeated id does no harm, since recovery is idempotent. -/
theorem recoveryFold_lookup {workflow next : WorkflowInstance} {ids : List String}
    (h : ids.foldlM (fun workflow id => taskMut workflow id TaskInstance.recovered) workflow =
      .ok next) (id : String) :
    next.tasks.lookup id =
      if id ∈ ids then (workflow.tasks.lookup id).map TaskInstance.recovered
      else workflow.tasks.lookup id := by
  induction ids generalizing workflow with
  | nil =>
      cases h
      simp
  | cons first rest ih =>
      obtain ⟨middle, hFirst, hRest⟩ := foldlM_cons_ok.mp h
      rw [ih hRest, taskMut_lookup hFirst]
      by_cases hEq : id = first
      · subst hEq
        simp [Function.comp_def, recovered_recovered]
      · simp [hEq]

/-- The recovery loop changes attempts only: the verifier states, the status
and the pinned host stay. -/
theorem recoveryFold_frame {workflow next : WorkflowInstance} {ids : List String}
    (h : ids.foldlM (fun workflow id => taskMut workflow id TaskInstance.recovered) workflow =
      .ok next) :
    next.verifierStates = workflow.verifierStates ∧ next.status = workflow.status ∧
      next.pinnedWorkerHost = workflow.pinnedWorkerHost := by
  refine foldlM_rel (R := fun a b : WorkflowInstance => b.verifierStates = a.verifierStates ∧
    b.status = a.status ∧ b.pinnedWorkerHost = a.pinnedWorkerHost) (fun _ => ⟨rfl, rfl, rfl⟩)
    (fun h h' => ⟨h'.1.trans h.1, h'.2.1.trans h.2.1, h'.2.2.trans h.2.2⟩) ?_ h
  intro workflow id next hMut
  rw [(taskMut_ok hMut).2]
  exact ⟨rfl, rfl, rfl⟩

/-- What an accepted event leaves, told separately for each attempt, each
verifier state, the status and the pinned host. Later proofs use this instead
of unfolding the event. -/
theorem applyWorkflowInstanceEvent_effected {workflow next : WorkflowInstance}
    {event : WorkflowInstanceEvent} (h : applyWorkflowInstanceEvent workflow event = .ok next) :
    Effected event workflow next := by
  cases event with
  | workflowCreated _ => cases h
  | workflowStatusChanged _ =>
      cases h
      exact ⟨fun _ => rfl, rfl, rfl, fun _ _ => rfl⟩
  | verifierStateUpserted target state =>
      cases h
      exact ⟨fun id => FiniteMap.lookup_insert_eq .., rfl, rfl, fun _ _ => rfl⟩
  | taskEarlyExitSet _ _ | taskStatusChanged _ _ | taskInputDataSet _ _
  | taskInputMappingSet _ _ | taskOutputRecorded _ _ | taskSatisfactionChanged _ _
  | taskVerifierMetadataSet _ _ =>
      refine ⟨fun id => ?_, ?_, ?_, fun _ id => taskMut_lookup h id⟩ <;> rw [(taskMut_ok h).2] <;> rfl
  | verifierFeedbackRecorded _ _ | verifierStateStatusChanged _ _ _ _ =>
      rw [(verifierStateMut_ok h).2]
      exact ⟨fun id => FiniteMap.lookup_modify .., rfl, rfl, fun _ _ => rfl⟩
  | taskRetryRequested id =>
      obtain ⟨_, _, rfl⟩ := resetFailedTaskForRetry_ok h
      exact ⟨fun _ => rfl, rfl, rfl, fun _ id => FiniteMap.lookup_modify ..⟩
  | startupRecoveryApplied ids =>
      simp only [applyWorkflowInstanceEvent] at h
      obtain ⟨hVerifiers, hStatus, hPin⟩ := recoveryFold_frame h
      have hTasks := recoveryFold_lookup h
      by_cases hRunning : workflow.status = .running
      · simp only [hRunning, if_true] at hVerifiers hStatus hPin hTasks
        refine ⟨fun id => by rw [hVerifiers]; rfl, ?_, hPin, fun _ id => hTasks id⟩
        rw [hStatus, statusEffect, if_pos hRunning]
      · simp only [hRunning, if_false] at hVerifiers hStatus hPin hTasks
        refine ⟨fun id => by rw [hVerifiers]; rfl, ?_, hPin, fun _ id => hTasks id⟩
        rw [hStatus, statusEffect, if_neg hRunning]
  | taskMaterialized target task =>
      simp only [applyWorkflowInstanceEvent] at h
      split at h <;> cases h
      exact ⟨fun _ => rfl, rfl, rfl, fun _ id => FiniteMap.lookup_insert_eq ..⟩
  | humanInputSubmitted id continuationId input =>
      simp only [applyWorkflowInstanceEvent] at h
      split at h
      · cases h
      · split at h
        · cases h
        · split at h
          · cases h
          · split at h <;> cases h
            exact ⟨fun _ => rfl, rfl, rfl, fun hLocal => by cases hLocal⟩
  | taskForceRetryRequested id previous target lost =>
      obtain ⟨middle, hMiddle, rfl⟩ := taskForceRetryRequested_ok h
      obtain ⟨_, _, rfl⟩ := resetFailedTaskForRetry_ok hMiddle
      exact ⟨fun _ => rfl, rfl, rfl, fun _ id => FiniteMap.lookup_modify ..⟩

/-- A submission is accepted only for a waiting attempt whose continuation does
not exist yet. It completes the one and creates the other, in one event. -/
theorem humanInputSubmitted_ok {workflow next : WorkflowInstance} {id continuationId : String}
    {input : Json}
    (h : applyWorkflowInstanceEvent workflow (.humanInputSubmitted id continuationId input) =
      .ok next) :
    ∃ task, workflow.tasks.lookup id = some task ∧ task.status.isInputNeeded = true ∧
      continuationId =
        makeTaskAttemptId task.taskDefId (continuationGeneration task.generationIndex) ∧
      workflow.tasks.lookup continuationId = none ∧
      next = { workflow with
        tasks := workflow.tasks.insert continuationId
          (continuationTask task.taskDefId (continuationGeneration task.generationIndex) input)
        status := .pending } := by
  simp only [applyWorkflowInstanceEvent] at h
  split at h
  · cases h
  · rename_i task hTask
    split at h
    · cases h
    · rename_i hWaiting
      split at h
      · cases h
      · rename_i hId
        split at h <;> cases h
        rename_i hFree
        exact ⟨task, hTask, by simpa using hWaiting, not_not.mp hId, hFree, rfl⟩

/-- The entries of the record after a batch of events. -/
structure BatchEffected (events : List WorkflowInstanceEvent)
    (workflow next : WorkflowInstance) : Prop where
  verifierState : ∀ id, next.verifierStates.lookup id =
    events.foldl (fun current event => event.verifierEffect id current)
      (workflow.verifierStates.lookup id)
  status : next.status = events.foldl (fun current event => event.statusEffect current)
    workflow.status
  pin : next.pinnedWorkerHost = events.foldl (fun current event => event.pinEffect current)
    workflow.pinnedWorkerHost
  task : (∀ event ∈ events, event.isLocal = true) → ∀ id, next.tasks.lookup id =
    events.foldl (fun current event => event.taskEffect id current) (workflow.tasks.lookup id)

/-- The effects of a batch are those of its events, one after another. -/
theorem foldlM_effected {workflow next : WorkflowInstance} {events : List WorkflowInstanceEvent}
    (h : events.foldlM applyWorkflowInstanceEvent workflow = .ok next) :
    BatchEffected events workflow next := by
  induction events generalizing workflow with
  | nil =>
      cases h
      exact ⟨fun _ => rfl, rfl, rfl, fun _ _ => rfl⟩
  | cons event events ih =>
      obtain ⟨middle, hFirst, hRest⟩ := foldlM_cons_ok.mp h
      have first := applyWorkflowInstanceEvent_effected hFirst
      have rest := ih hRest
      refine ⟨fun id => ?_, ?_, ?_, fun hLocal id => ?_⟩
      · rw [rest.verifierState, first.verifierState, List.foldl_cons]
      · rw [rest.status, first.status, List.foldl_cons]
      · rw [rest.pin, first.pin, List.foldl_cons]
      · rw [rest.task (fun e he => hLocal e (List.mem_cons_of_mem _ he)),
          first.task (hLocal event List.mem_cons_self), List.foldl_cons]

/-- Only a start makes an attempt run that did not run before. -/
theorem taskEffect_running {event : WorkflowInstanceEvent} {id : String}
    {current : Option TaskInstance} {b : TaskInstance} (hStart : event.isStart = false)
    (hNext : event.taskEffect id current = some b) (hRunning : b.status = .running) :
    ∃ a, current = some a ∧ a.status = .running := by
  have hChange {target : String} {f : TaskInstance → TaskInstance}
      (h : (if id = target then current.map f else current) = some b)
      (hf : ∀ a, (f a).status = .running → a.status = .running) :
      ∃ a, current = some a ∧ a.status = .running := by
    split at h
    · obtain ⟨a, rfl, rfl⟩ := Option.map_eq_some_iff.mp h
      exact ⟨a, rfl, hf a hRunning⟩
    · exact ⟨b, h, hRunning⟩
  cases event with
  | taskStatusChanged target status =>
      refine hChange hNext fun a h => ?_
      rw [isStart, show status = _ from h] at hStart
      cases hStart
  | taskMaterialized target task =>
      simp only [taskEffect] at hNext
      split at hNext
      · cases hNext
        rw [isStart, hRunning] at hStart
        cases hStart
      · exact ⟨b, hNext, hRunning⟩
  | startupRecoveryApplied ids =>
      simp only [taskEffect] at hNext
      split at hNext
      · obtain ⟨a, rfl, rfl⟩ := Option.map_eq_some_iff.mp hNext
        refine ⟨a, rfl, ?_⟩
        unfold TaskInstance.recovered at hRunning
        split at hRunning
        · cases hRunning
        · exact hRunning
      · exact ⟨b, hNext, hRunning⟩
  | taskRetryRequested target => exact hChange hNext fun a h => nomatch h
  | taskForceRetryRequested target _ _ _ => exact hChange hNext fun a h => nomatch h
  | taskEarlyExitSet _ _ | taskInputDataSet _ _ | taskInputMappingSet _ _
  | taskOutputRecorded _ _ | taskSatisfactionChanged _ _ | taskVerifierMetadataSet _ _ =>
      exact hChange hNext fun _ h => h
  | _ => exact ⟨b, hNext, hRunning⟩

/-- Only a start makes an attempt run: after any other event, what runs has
been running before. -/
theorem applyWorkflowInstanceEvent_running {workflow next : WorkflowInstance}
    {event : WorkflowInstanceEvent} (h : applyWorkflowInstanceEvent workflow event = .ok next)
    (hStart : event.isStart = false) {id : String} {b : TaskInstance}
    (hNext : next.tasks.lookup id = some b) (hRunning : b.status = .running) :
    ∃ a, workflow.tasks.lookup id = some a ∧ a.status = .running := by
  cases hLocal : event.isLocal with
  | true =>
      rw [(applyWorkflowInstanceEvent_effected h).task hLocal] at hNext
      exact taskEffect_running hStart hNext hRunning
  | false =>
      cases event with
      | humanInputSubmitted target continuationId input =>
          obtain ⟨task, _, _, _, _, rfl⟩ := humanInputSubmitted_ok h
          rw [FiniteMap.lookup_insert_eq] at hNext
          split at hNext
          · cases hNext
            cases hRunning
          · exact ⟨b, hNext, hRunning⟩
      | _ => cases hLocal

/-- A batch without a start makes no attempt run. -/
theorem foldlM_running {workflow next : WorkflowInstance} {events : List WorkflowInstanceEvent}
    (h : events.foldlM applyWorkflowInstanceEvent workflow = .ok next)
    (hStart : ∀ event ∈ events, event.isStart = false) {id : String} {b : TaskInstance}
    (hNext : next.tasks.lookup id = some b) (hRunning : b.status = .running) :
    ∃ a, workflow.tasks.lookup id = some a ∧ a.status = .running := by
  induction events generalizing workflow with
  | nil =>
      cases h
      exact ⟨b, hNext, hRunning⟩
  | cons event events ih =>
      obtain ⟨middle, hFirst, hRest⟩ := foldlM_cons_ok.mp h
      obtain ⟨hEvent, hEvents⟩ := List.forall_mem_cons.mp hStart
      obtain ⟨a, ha, hMiddle⟩ := ih hRest hEvents
      exact applyWorkflowInstanceEvent_running hFirst hEvent ha hMiddle

theorem taskEffect_isSome {event : WorkflowInstanceEvent} {id : String}
    {current : Option TaskInstance} (h : current.isSome = true) :
    (event.taskEffect id current).isSome = true := by
  cases event <;> simp only [WorkflowInstanceEvent.taskEffect] <;> first
    | exact h
    | (split <;> simp [h])

/-- No event removes an attempt. -/
theorem applyWorkflowInstanceEvent_keeps {workflow next : WorkflowInstance}
    {event : WorkflowInstanceEvent} (h : applyWorkflowInstanceEvent workflow event = .ok next)
    {id : String} (hTask : (workflow.tasks.lookup id).isSome = true) :
    (next.tasks.lookup id).isSome = true := by
  cases hLocal : event.isLocal with
  | true =>
      rw [(applyWorkflowInstanceEvent_effected h).task hLocal]
      exact taskEffect_isSome hTask
  | false =>
      cases event with
      | humanInputSubmitted target continuationId input =>
          obtain ⟨task, _, _, _, _, rfl⟩ := humanInputSubmitted_ok h
          rw [FiniteMap.lookup_insert_eq]
          split
          · rfl
          · exact hTask
      | _ => cases hLocal

/-- Nor does a batch: an attempt that exists before it exists after it. -/
theorem foldlM_keeps {workflow next : WorkflowInstance} {events : List WorkflowInstanceEvent}
    (h : events.foldlM applyWorkflowInstanceEvent workflow = .ok next) {id : String}
    (hTask : (workflow.tasks.lookup id).isSome = true) :
    (next.tasks.lookup id).isSome = true := by
  induction events generalizing workflow with
  | nil =>
      cases h
      exact hTask
  | cons event events ih =>
      obtain ⟨middle, hFirst, hRest⟩ := foldlM_cons_ok.mp h
      exact ih hRest (applyWorkflowInstanceEvent_keeps hFirst hTask)

/-- An attempt that a batch materializes did not exist before. -/
theorem foldlM_materialized_new {workflow next : WorkflowInstance}
    {events : List WorkflowInstanceEvent}
    (h : events.foldlM applyWorkflowInstanceEvent workflow = .ok next) {id : String}
    {task : TaskInstance} (hEvent : .taskMaterialized id task ∈ events) :
    workflow.tasks.lookup id = none := by
  induction events generalizing workflow with
  | nil => cases hEvent
  | cons event events ih =>
      obtain ⟨middle, hFirst, hRest⟩ := foldlM_cons_ok.mp h
      cases hLookup : workflow.tasks.lookup id with
      | none => rfl
      | some old =>
          have hOld : (workflow.tasks.lookup id).isSome = true := by rw [hLookup]; rfl
          rcases List.mem_cons.mp hEvent with rfl | hEvent
          · simp [applyWorkflowInstanceEvent, hLookup] at hFirst
          · have hMiddle := applyWorkflowInstanceEvent_keeps hFirst hOld
            rw [ih hRest hEvent] at hMiddle
            cases hMiddle

/-- No event removes a verifier state. -/
theorem foldlM_keepsState {workflow next : WorkflowInstance} {events : List WorkflowInstanceEvent}
    (h : events.foldlM applyWorkflowInstanceEvent workflow = .ok next) {id : String}
    (hState : (workflow.verifierStates.lookup id).isSome = true) :
    (next.verifierStates.lookup id).isSome = true := by
  rw [(foldlM_effected h).verifierState]
  refine List.foldlRecOn events (motive := fun current : Option VerifierGenerationState =>
    current.isSome = true) _ hState ?_
  intro current hCurrent event _
  cases event <;> simp only [verifierEffect] <;> first
    | exact hCurrent
    | (split <;> simp [hCurrent])

/-- The effects of the batch of a commit, on an instance that exists
already. -/
theorem reduceWorkflowInstanceEvents_effected {workflow next : WorkflowInstance}
    {events : List WorkflowInstanceEvent}
    (h : reduceWorkflowInstanceEvents (some workflow) events = .ok next) :
    BatchEffected events workflow next :=
  foldlM_effected h

end RelayFold
