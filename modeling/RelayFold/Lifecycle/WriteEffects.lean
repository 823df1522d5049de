import RelayFold.Core.SliceFacts
import RelayFold.Engine.Outcomes
import RelayFold.Lifecycle.Soundness

/-! What each commit does to the attempts and to the verifier states, whoever
makes it. -/
namespace RelayFold

open WorkflowEngine FallibleFold

/-- No commit adds to the plan. -/
theorem Write.plan_subset {ext : Externals} {definition : WorkflowDef} {l : Lifecycle}
    {writer : Writer} {events : List WorkflowInstanceEvent} {plan : List String}
    (h : Write ext definition l writer events plan) : plan ⊆ l.plan := by
  cases h with
  | start _ _ _ _ | inputFailure _ _ _ _ _ | result _ _ _ _ _ | complete _ _ | pause _ | resume _
  | hostLost _ => exact List.Subset.refl _
  | _ => exact List.nil_subset _

/-- The same verifier states. -/
def SameStates (before after : WorkflowInstance) : Prop :=
  ∀ verifierId, after.verifierStates.lookup verifierId = before.verifierStates.lookup verifierId

theorem sameStates_of_events {workflow reduced : WorkflowInstance}
    {events : List WorkflowInstanceEvent}
    (hReduce : reduceWorkflowInstanceEvents (some workflow) events = .ok reduced)
    (h : ∀ event ∈ events, ∀ verifierId current,
      event.verifierEffect verifierId current = current) : SameStates workflow reduced := by
  intro verifierId
  rw [(reduceWorkflowInstanceEvents_effected hReduce).verifierState]
  exact foldl_verifierEffect_self (fun event hEvent => h event hEvent verifierId) _

/-- The attempts and verifier states after a commit, by the kind of the
commit. -/
inductive WriteEffect (definition : WorkflowDef) (l : Lifecycle) (reduced : WorkflowInstance) :
    Writer → Prop
  | status (writer : Writer) (hTasks : reduced.tasks = l.stored.tasks)
      (hStates : SameStates l.stored reduced) :
      WriteEffect definition l reduced writer
  | initialTasks (hEmpty : ∀ key, l.stored.tasks.lookup key = none)
      (hTasks : ∀ key task, reduced.tasks.lookup key = some task → ∃ taskDef ∈ definition.tasks,
        key = makeTaskAttemptId taskDef.id 1 ∧ task = initialTask l.stored definition taskDef)
      (hInitialized : TasksInitialized definition reduced)
      (hStates : SameStates l.stored reduced) :
      WriteEffect definition l reduced .pass
  | initialGenerations {loopSlices : LoopSlices} (hInitialized : TasksInitialized definition l.stored)
      (hSlices : loopSlices.Perm (computeLoopSlices definition))
      (hAfter : GenerationsAfter definition loopSlices l.stored reduced) :
      WriteEffect definition l reduced .pass
  | start {id : String} {task : TaskInstance} (hPlan : id ∈ l.plan)
      (hTask : l.stored.tasks.lookup id = some task) (hPending : task.status = .pending)
      (hTasks : ∀ key, reduced.tasks.lookup key = if key = id
        then some { task with status := .running } else l.stored.tasks.lookup key)
      (hStates : SameStates l.stored reduced) :
      WriteEffect definition l reduced .pass
  | result {ext : Externals} {loopSlices : LoopSlices} {started : StartedTask} {answer : Answer}
      {result : ResultCommit}
      (hSlices : loopSlices.Perm (computeLoopSlices definition))
      (hTask : l.stored.tasks.lookup started.taskAttemptId = some started.task)
      (hDef : definition.findTask started.task.taskDefId = some started.taskDef)
      (hRunning : started.task.status = .running)
      (hInputs : started.inputs = (resolveInputs l.stored definition started.task started.taskDef
        loopSlices).getD ⟨[], []⟩)
      (hOutcome : Outcome ext l.stored reduced loopSlices started.taskAttemptId started.task
        started.taskDef started.inputs answer result)
      (hStatus : l.stored.status = .running ∨ l.stored.status = .paused) :
      WriteEffect definition l reduced .pass
  | humanInput {id : String} {submittedInput : Json} {task : TaskInstance}
      (hTask : l.stored.tasks.lookup id = some task) (hWaiting : task.status.isInputNeeded = true)
      (hNew : l.stored.tasks.lookup (makeTaskAttemptId task.taskDefId
        (continuationGeneration task.generationIndex)) = none)
      (hTasks : ∀ key, reduced.tasks.lookup key =
        if key = makeTaskAttemptId task.taskDefId (continuationGeneration task.generationIndex) then
          some (continuationTask task.taskDefId (continuationGeneration task.generationIndex)
            submittedInput)
        else l.stored.tasks.lookup key)
      (hStates : SameStates l.stored reduced) :
      WriteEffect definition l reduced .humanInput
  | retry {id : String} {task : TaskInstance} (hTask : l.stored.tasks.lookup id = some task)
      (hFailed : task.status = .failed)
      (hTasks : ∀ key, reduced.tasks.lookup key =
        if key = id then some task.resetForRetry else l.stored.tasks.lookup key)
      (hStates : SameStates l.stored reduced) :
      WriteEffect definition l reduced .retry
  | recover {ids : List String}
      (hTasks : ∀ key, reduced.tasks.lookup key = if key ∈ ids
        then (l.stored.tasks.lookup key).map TaskInstance.recovered else l.stored.tasks.lookup key)
      (hStates : SameStates l.stored reduced) :
      WriteEffect definition l reduced .recovery

/-- Every commit has its effect. -/
theorem Write.effect {ext : Externals} {definition : WorkflowDef} {l : Lifecycle}
    {writer : Writer} {events : List WorkflowInstanceEvent} {plan : List String}
    {reduced : WorkflowInstance} (hWrite : Write ext definition l writer events plan)
    (hReduce : reduceWorkflowInstanceEvents (some l.stored) events = .ok reduced) :
    WriteEffect definition l reduced writer := by
  have hSingle {event : WorkflowInstanceEvent} (h : events = [event])
      (hEffect : ∀ verifierId current, event.verifierEffect verifierId current = current) :
      SameStates l.stored reduced := by
    refine sameStates_of_events hReduce ?_
    rw [h]
    exact List.forall_mem_singleton.mpr hEffect
  have hReset {id : String} {next : WorkflowInstance} {pinned : Option WorkerHostId}
      (hNext : reduced = { next with pinnedWorkerHost := pinned })
      (hStates : SameStates l.stored reduced)
      (h : l.stored.status = .failed ∧
        (∃ task, l.stored.tasks.lookup id = some task ∧ task.status = .failed) ∧
        next = { l.stored with
          tasks := l.stored.tasks.modify id TaskInstance.resetForRetry, status := .pending }) :
      WriteEffect definition l reduced .retry := by
    obtain ⟨_, ⟨task, hTask, hFailed⟩, rfl⟩ := h
    refine .retry hTask hFailed (fun key => ?_) hStates
    rw [hNext]
    change (l.stored.tasks.modify id TaskInstance.resetForRetry).lookup key = _
    rw [FiniteMap.lookup_modify]
    split
    · rename_i hKey
      rw [hKey, hTask]
      rfl
    · rfl
  cases hWrite with
  | begin _ | complete _ _ | pause _ | resume _ | hostLost _ =>
      cases reduce_single hReduce
      exact .status _ rfl fun _ => rfl
  | initialTasks _ hEmpty =>
      have hNone := (FiniteMap.isEmpty_iff _).mp hEmpty
      refine .initialTasks hNone (fun key task hTask => initialTaskEvents_lookup hReduce (hNone key)
        hTask) (initialTaskEvents_initialized (reduceWorkflowInstanceEvents_effected hReduce))
        (sameStates_of_events hReduce ?_)
      simp [initialTaskEvents, WorkflowInstanceEvent.verifierEffect]
  | initialGenerations _ hTasks hSlices =>
      exact .initialGenerations hTasks hSlices (initialGenerations_after hTasks hSlices hReduce)
  | @start id task _ hPlan hTask hPending =>
      refine .start hPlan hTask hPending (fun key => ?_) (hSingle rfl fun _ _ => rfl)
      rw [taskMut_lookup (reduce_single hReduce) key]
      split
      · rename_i hKey
        rw [hKey, hTask]
        rfl
      · rfl
  | @inputFailure loopSlices started _ hStatus hSlices hStarted hRunning _ =>
      -- A failed input check is recorded like an answer that says so.
      have hRecorded : Recorded ext l.stored definition loopSlices started.taskAttemptId
          started.taskDef started.inputs (.ok (.failure "")) _ := .failure ""
      obtain ⟨_, hTask, hDef, hInputs⟩ := startedTask_eq hStarted
      exact .result hSlices hTask hDef hRunning hInputs
        (hRecorded.outcome hTask hRunning hDef (findTask_some hDef).2.symm hReduce) (.inl hStatus)
  | result hStatus hSlices hStarted hRunning hResult =>
      obtain ⟨_, hTask, hDef, hInputs⟩ := startedTask_eq hStarted
      exact .result hSlices hTask hDef hRunning hInputs
        (hResult.outcome hTask hRunning hDef (findTask_some hDef).2.symm hReduce) hStatus
  | humanInput _ hTask hWaiting _ _ =>
      obtain ⟨task, hSame, _, _, hNew, rfl⟩ := humanInputSubmitted_ok (reduce_single hReduce)
      rw [hTask] at hSame
      cases hSame
      exact .humanInput hTask hWaiting hNew (fun key => FiniteMap.lookup_insert_eq ..)
        (hSingle rfl fun _ _ => rfl)
  | retry =>
      exact hReset rfl (hSingle rfl fun _ _ => rfl)
        (resetFailedTaskForRetry_ok (reduce_single hReduce))
  | forceRetry =>
      obtain ⟨middle, hMiddle, hNext⟩ := taskForceRetryRequested_ok (reduce_single hReduce)
      exact hReset hNext (hSingle rfl fun _ _ => rfl) (resetFailedTaskForRetry_ok hMiddle)
  | recover ids =>
      exact .recover ((applyWorkflowInstanceEvent_effected (reduce_single hReduce)).task rfl)
        (hSingle rfl fun _ _ => rfl)

end RelayFold
