import RelayFold.Lifecycle.Attempts

/-! The invariants of every instance, whatever its definition: attempt ids name
their attempts, and a failed attempt is the only one and fails its workflow. -/
namespace RelayFold

open WorkflowEngine FallibleFold

/-- The failed attempts are at most one, and only in a failed workflow. -/
structure FailedOnce (workflow : WorkflowInstance) : Prop where
  status : ∀ id task, workflow.tasks.lookup id = some task → task.status = .failed →
    workflow.status = .failed
  unique : ∀ id id' task task', workflow.tasks.lookup id = some task →
    workflow.tasks.lookup id' = some task' → task.status = .failed → task'.status = .failed →
    id = id'

def NoneFailed (workflow : WorkflowInstance) : Prop :=
  ∀ id task, workflow.tasks.lookup id = some task → task.status ≠ .failed

theorem NoneFailed.failedOnce {workflow : WorkflowInstance} (h : NoneFailed workflow) :
    FailedOnce workflow :=
  ⟨fun id task hTask hFailed => absurd hFailed (h id task hTask),
    fun id _ task _ hTask _ hFailed _ => absurd hFailed (h id task hTask)⟩

theorem FailedOnce.noneFailed {workflow : WorkflowInstance} (h : FailedOnce workflow)
    (hStatus : workflow.status ≠ .failed) : NoneFailed workflow :=
  fun id task hTask hFailed => hStatus (h.status id task hTask hFailed)

theorem NoneFailed.of_tasks_eq {before after : WorkflowInstance} (h : NoneFailed before)
    (hTasks : after.tasks = before.tasks) : NoneFailed after := by
  intro id task hTask
  rw [hTasks] at hTask
  exact h id task hTask

/-- The failed attempts after a batch that answers `id`. -/
theorem ResultAfter.failed {events : List WorkflowInstanceEvent} {before after : WorkflowInstance}
    {id : String} {task : TaskInstance} (h : ResultAfter events before after id)
    (hTask : before.tasks.lookup id = some task) (hRunning : task.status = .running)
    (hNone : NoneFailed before) {key : String} {b : TaskInstance}
    (hb : after.tasks.lookup key = some b) (hFailed : b.status = .failed) :
    key = id ∧ .taskStatusChanged id .failed ∈ events := by
  by_cases hKey : key = id
  · subst hKey
    obtain ⟨c, hc, _, _, _, _, hEvent⟩ := h.answered task hTask hRunning
    rw [hc] at hb
    cases hb
    rw [hFailed] at hEvent
    exact ⟨rfl, hEvent⟩
  · exfalso
    cases ha : before.tasks.lookup key with
    | none =>
        obtain ⟨_, _, _, _, hPending⟩ := h.fresh key b ha hb
        rw [hFailed] at hPending
        cases hPending
    | some a =>
        obtain ⟨c, hc, _, hStatus⟩ := h.other key a hKey ha
        rw [hc] at hb
        cases hb
        rw [hFailed] at hStatus
        rcases hStatus with hSame | ⟨_, hSkipped⟩
        · exact hNone key a ha hSame.symm
        · cases hSkipped

theorem ResultAfter.failedOnce {events : List WorkflowInstanceEvent}
    {before after : WorkflowInstance} {id : String} {task : TaskInstance}
    (h : ResultAfter events before after id) (hTask : before.tasks.lookup id = some task)
    (hRunning : task.status = .running) (hNone : NoneFailed before)
    (hStatus : .taskStatusChanged id .failed ∈ events → after.status = .failed) :
    FailedOnce after := by
  constructor
  · intro key b hb hFailed
    exact hStatus (h.failed hTask hRunning hNone hb hFailed).2
  · intro key key' b b' hb hb' hFailed hFailed'
    rw [(h.failed hTask hRunning hNone hb hFailed).1,
      (h.failed hTask hRunning hNone hb' hFailed').1]

/-- A result that fails its attempt fails the workflow. -/
theorem WorkflowEngine.Recorded.failed {ext : Externals} {workflow reduced : WorkflowInstance}
    {definition : WorkflowDef} {loopSlices : LoopSlices} {id : String} {taskDef : TaskDef}
    {inputs : ResolvedTaskInputs} {answer : Answer} {result : ResultCommit}
    (h : Recorded ext workflow definition loopSlices id taskDef inputs answer result)
    (hReduce : reduceWorkflowInstanceEvents (some workflow) result.events = .ok reduced)
    (hFailed : .taskStatusChanged id .failed ∈ result.events) : reduced.status = .failed := by
  by_cases hNext : result.next = .checkPause none
  · rcases (h.goesOn hNext).2 _ _ hFailed with hBad | hBad <;> cases hBad
  · rw [(reduceWorkflowInstanceEvents_effected hReduce).status,
      h.result.status_eq (h.ends hNext)]
    cases h with
    | inputNeeded _ => simp [inputNeededEvents, inputEvents] at hFailed
    | _ => rfl

/-- Every commit keeps the failed attempts to at most one. -/
theorem Write.failedOnce {ext : Externals} {definition : WorkflowDef} {l : Lifecycle}
    {writer : Writer} {events : List WorkflowInstanceEvent} {plan : List String}
    {reduced : WorkflowInstance} (hWrite : Write ext definition l writer events plan)
    (hReduce : reduceWorkflowInstanceEvents (some l.stored) events = .ok reduced)
    (h : FailedOnce l.stored) : FailedOnce reduced := by
  have hStatusOnly (hOld : l.stored.status ≠ .failed) {status : WorkflowStatus}
      (hOk : applyWorkflowInstanceEvent l.stored (.workflowStatusChanged status) = .ok reduced) :
      FailedOnce reduced := by
    cases hOk
    exact NoneFailed.failedOnce fun id task hTask => h.noneFailed hOld id task hTask
  have hReset {id : String} {pinned : Option WorkerHostId} {next : WorkflowInstance}
      (hOk : l.stored.status = .failed ∧
        (∃ task, l.stored.tasks.lookup id = some task ∧ task.status = .failed) ∧
        next = { l.stored with
          tasks := l.stored.tasks.modify id TaskInstance.resetForRetry, status := .pending }) :
      FailedOnce { next with pinnedWorkerHost := pinned } := by
    obtain ⟨_, ⟨task, hTask, hFailed⟩, rfl⟩ := hOk
    refine NoneFailed.failedOnce fun key b hb hStatus => ?_
    rw [FiniteMap.lookup_modify] at hb
    split at hb
    · obtain ⟨a, _, rfl⟩ := Option.map_eq_some_iff.mp hb
      cases hStatus
    · rename_i hKey
      exact hKey (h.unique key id b task hb hTask hStatus hFailed)
  cases hWrite with
  | begin hStatus | pause hStatus =>
      exact hStatusOnly (by rcases hStatus with h | h <;> simp [h]) (reduce_single hReduce)
  | complete hStatus _ =>
      exact hStatusOnly (by rcases hStatus with h | h <;> simp [h]) (reduce_single hReduce)
  | resume hStatus => exact hStatusOnly (by simp [hStatus]) (reduce_single hReduce)
  | hostLost hStatus => exact hStatusOnly hStatus.2 (reduce_single hReduce)
  | initialTasks hStatus hEmpty =>
      refine NoneFailed.failedOnce fun key b hb hFailed => ?_
      obtain ⟨_, _, _, rfl⟩ := initialTaskEvents_lookup hReduce ((FiniteMap.isEmpty_iff _).mp hEmpty key) hb
      cases hFailed
  | initialGenerations hStatus hTasks hSlices =>
      exact ((h.noneFailed (by simp [hStatus])).of_tasks_eq
        (initialGenerations_after hTasks hSlices hReduce).tasks).failedOnce
  | start hStatus _ hTask _ =>
      refine NoneFailed.failedOnce fun key b hb hFailed => ?_
      rw [taskMut_lookup (reduce_single hReduce)] at hb
      split at hb
      · obtain ⟨a, _, rfl⟩ := Option.map_eq_some_iff.mp hb
        cases hFailed
      · exact h.noneFailed (by simp [hStatus]) key b hb hFailed
  | inputFailure hStatus hSlices hStarted hRunning hInvalid =>
      obtain ⟨_, hTask, _⟩ := startedTask_eq hStarted
      have hAfter := (failureEvents_result _).after hReduce (by rw [hTask]; rfl)
        ⟨.failed, rfl, by simp [failureEvents, failTaskEvents]⟩
      refine hAfter.failedOnce hTask hRunning (h.noneFailed (by simp [hStatus])) fun _ => ?_
      rw [(reduceWorkflowInstanceEvents_effected hReduce).status]
      have hEvents := @failureEvents_result l.stored
      exact (hEvents _).status_eq (by simp [failureEvents, failTaskEvents]) _
  | result hStatus hSlices hStarted hRunning hResult =>
      obtain ⟨_, hTask, _⟩ := startedTask_eq hStarted
      have hAfter := hResult.result.after hReduce (by rw [hTask]; rfl) hResult.answers
      refine hAfter.failedOnce hTask hRunning
        (h.noneFailed (by rcases hStatus with h | h <;> simp [h])) fun hFailed => ?_
      exact hResult.failed hReduce hFailed
  | humanInput hStatus hTask hWaiting hDef hAgent =>
      obtain ⟨task, _, _, hId, hNew, rfl⟩ := humanInputSubmitted_ok (reduce_single hReduce)
      refine NoneFailed.failedOnce fun key b hb hFailed => ?_
      rw [FiniteMap.lookup_insert_eq] at hb
      split at hb
      · cases hb
        cases hFailed
      · exact h.noneFailed (by simp [hStatus]) key b hb hFailed
  | retry => exact hReset (resetFailedTaskForRetry_ok (reduce_single hReduce))
  | forceRetry =>
      obtain ⟨middle, hMiddle, rfl⟩ := taskForceRetryRequested_ok (reduce_single hReduce)
      exact hReset (resetFailedTaskForRetry_ok hMiddle)
  | recover ids =>
      have hEffect := applyWorkflowInstanceEvent_effected (reduce_single hReduce)
      have hOld : ∀ key b, reduced.tasks.lookup key = some b → b.status = .failed →
          ∃ a, l.stored.tasks.lookup key = some a ∧ a.status = .failed := by
        intro key b hb hFailed
        rw [hEffect.task rfl] at hb
        simp only [WorkflowInstanceEvent.taskEffect] at hb
        split at hb
        · obtain ⟨a, ha, rfl⟩ := Option.map_eq_some_iff.mp hb
          refine ⟨a, ha, ?_⟩
          unfold TaskInstance.recovered at hFailed
          split at hFailed
          · cases hFailed
          · exact hFailed
        · exact ⟨b, hb, hFailed⟩
      constructor
      · intro key b hb hFailed
        obtain ⟨a, ha, hFailed⟩ := hOld key b hb hFailed
        rw [hEffect.status, WorkflowInstanceEvent.statusEffect, h.status key a ha hFailed]
        rfl
      · intro key key' b b' hb hb' hFailed hFailed'
        obtain ⟨a, ha, hFailed⟩ := hOld key b hb hFailed
        obtain ⟨a', ha', hFailed'⟩ := hOld key' b' hb' hFailed'
        exact h.unique key key' a a' ha ha' hFailed hFailed'

/-- The invariants of every instance of a definition. -/
structure Sound (definition : WorkflowDef) (workflow : WorkflowInstance) : Prop where
  key : ∀ id task, workflow.tasks.lookup id = some task →
    id = makeTaskAttemptId task.taskDefId task.generationIndex
  failedOnce : FailedOnce workflow
  initialized : workflow.tasks.isEmpty = false → TasksInitialized definition workflow

theorem AttemptsAfter.key {writer : Writer} {before after : WorkflowInstance}
    (h : AttemptsAfter writer before after)
    (hKey : ∀ id task, before.tasks.lookup id = some task →
      id = makeTaskAttemptId task.taskDefId task.generationIndex) :
    ∀ id task, after.tasks.lookup id = some task →
      id = makeTaskAttemptId task.taskDefId task.generationIndex := by
  intro id b hb
  cases ha : before.tasks.lookup id with
  | none => exact (h.fresh id b ha hb).2
  | some a =>
      obtain ⟨c, hc, hMoves⟩ := h.kept id a ha
      rw [hc] at hb
      cases hb
      rw [hMoves.taskDefId, hMoves.generationIndex]
      exact hKey id a ha

theorem TasksInitialized.of_attemptsAfter {definition : WorkflowDef} {writer : Writer}
    {before after : WorkflowInstance} (h : TasksInitialized definition before)
    (hAfter : AttemptsAfter writer before after) : TasksInitialized definition after := by
  intro taskDef hMem
  obtain ⟨a, ha⟩ := Option.isSome_iff_exists.mp (h taskDef hMem)
  obtain ⟨b, hb, _⟩ := hAfter.kept _ a ha
  rw [hb]
  rfl

theorem initialTaskEvents_initialized {definition : WorkflowDef}
    {workflow reduced : WorkflowInstance}
    (hEffect : BatchEffected (initialTaskEvents workflow definition) workflow reduced) :
    TasksInitialized definition reduced := by
  intro taskDef hMem
  rw [hEffect.task (by simp [initialTaskEvents, WorkflowInstanceEvent.isLocal])]
  have hEvent : .taskMaterialized (makeTaskAttemptId taskDef.id 1)
      (initialTask workflow definition taskDef) ∈ initialTaskEvents workflow definition :=
    List.mem_map_of_mem hMem
  obtain ⟨first, rest, hSplit⟩ := List.append_of_mem hEvent
  rw [hSplit, List.foldl_append, List.foldl_cons]
  refine List.foldlRecOn rest (motive := fun current : Option TaskInstance =>
    current.isSome = true) _ (by simp [WorkflowInstanceEvent.taskEffect]) ?_
  exact fun current hCurrent event _ => taskEffect_isSome hCurrent

theorem Sound.created (definition : WorkflowDef) (id workflowDefId : String)
    (pinnedWorkerHost : WorkerHostId) (input : Option Json) :
    Sound definition (Lifecycle.created id workflowDefId pinnedWorkerHost input).stored := by
  have hNone : ∀ id, (∅ : FiniteMap String TaskInstance).lookup id = none := fun _ => rfl
  refine ⟨fun id task hTask => ?_, NoneFailed.failedOnce fun id task hTask => ?_, fun hEmpty => ?_⟩
  · cases (hNone id).symm.trans hTask
  · cases (hNone id).symm.trans hTask
  · rw [show (Lifecycle.created id workflowDefId pinnedWorkerHost input).stored.tasks.isEmpty =
      true from (FiniteMap.isEmpty_iff _).mpr hNone] at hEmpty
    cases hEmpty

/-- Every commit keeps them. -/
theorem Write.sound {ext : Externals} {definition : WorkflowDef} {l : Lifecycle}
    {writer : Writer} {events : List WorkflowInstanceEvent} {plan : List String}
    {reduced : WorkflowInstance} (hWrite : Write ext definition l writer events plan)
    (hReduce : reduceWorkflowInstanceEvents (some l.stored) events = .ok reduced)
    (h : Sound definition l.stored) : Sound definition reduced := by
  have hAfter := hWrite.attemptsAfter hReduce
  refine ⟨hAfter.key h.key, hWrite.failedOnce hReduce h.failedOnce, fun hEmpty => ?_⟩
  cases hOld : l.stored.tasks.isEmpty with
  | false => exact (h.initialized hOld).of_attemptsAfter hAfter
  | true =>
      have hNone := (FiniteMap.isEmpty_iff _).mp hOld
      cases hWrite with
      | initialTasks _ _ => exact initialTaskEvents_initialized (reduceWorkflowInstanceEvents_effected hReduce)
      | initialGenerations _ hTasks _ => exact TasksInitialized.of_attemptsAfter hTasks hAfter
      | begin _ | pause _ | complete _ _ | resume _ | hostLost _ =>
          cases reduce_single hReduce
          rw [hOld] at hEmpty
          cases hEmpty
      | start _ _ hTask _ | humanInput _ hTask _ _ _ =>
          rw [hNone] at hTask
          cases hTask
      | inputFailure _ _ hStarted _ _ | result _ _ hStarted _ _ =>
          have hTask := (startedTask_eq hStarted).2.1
          rw [hNone] at hTask
          cases hTask
      | retry =>
          obtain ⟨_, ⟨_, hTask, _⟩, _⟩ := resetFailedTaskForRetry_ok (reduce_single hReduce)
          rw [hNone] at hTask
          cases hTask
      | forceRetry =>
          obtain ⟨_, hMiddle, _⟩ := taskForceRetryRequested_ok (reduce_single hReduce)
          obtain ⟨_, ⟨_, hTask, _⟩, _⟩ := resetFailedTaskForRetry_ok hMiddle
          rw [hNone] at hTask
          cases hTask
      | recover ids =>
          rw [(FiniteMap.isEmpty_iff _).mpr fun key => by
            rw [(applyWorkflowInstanceEvent_effected (reduce_single hReduce)).task rfl, hNone]
            simp [WorkflowInstanceEvent.taskEffect]] at hEmpty
          cases hEmpty

/-- Every reachable snapshot is sound. -/
theorem Lifecycle.Steps.sound {ext : Externals} {definition : WorkflowDef} {l l' : Lifecycle}
    {writers : List Writer} (run : Lifecycle.Steps ext definition l writers l')
    (hStart : Sound definition l.stored) : Sound definition l'.stored := by
  refine Run.invariant (P := fun l : Lifecycle => Sound definition l.stored) run hStart ?_
  intro l writer l' hSound hStep
  cases hStep with
  | write hWrite hReduce =>
      have h := hWrite.sound hReduce hSound
      exact ⟨h.key, ⟨h.failedOnce.status, h.failedOnce.unique⟩, h.initialized⟩
  | schedule _ _ _ _ => exact hSound

/-- What every commit on a sound snapshot keeps, a whole run keeps. -/
theorem Lifecycle.Steps.keeps {ext : Externals} {definition : WorkflowDef} {l l' : Lifecycle}
    {writers : List Writer} {Inv : WorkflowInstance → Prop}
    (run : Lifecycle.Steps ext definition l writers l') (hSound : Sound definition l.stored)
    (hStart : Inv l.stored)
    (hWrite : ∀ l writer events plan reduced, Sound definition l.stored → Inv l.stored →
      Write ext definition l writer events plan →
      reduceWorkflowInstanceEvents (some l.stored) events = .ok reduced → Inv reduced)
    (hVersion : ∀ workflow version, Inv workflow → Inv (workflow.withVersion version)) :
    Inv l'.stored := by
  refine (Run.invariant (P := fun l : Lifecycle => Sound definition l.stored ∧ Inv l.stored) run
    ⟨hSound, hStart⟩ ?_).2
  rintro l writer l' ⟨hSound, hInv⟩ hStep
  refine ⟨Lifecycle.Steps.sound (.single hStep) hSound, ?_⟩
  cases hStep with
  | write hAllowed hReduce => exact hVersion _ _ (hWrite _ _ _ _ _ hSound hInv hAllowed hReduce)
  | schedule _ _ _ _ => exact hInv

end RelayFold
