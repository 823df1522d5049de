import RelayFold.Engine.InputSources
import RelayFold.Lifecycle.WriteEffects

/-! No task of a slice is started before its verifier has a state. -/
namespace RelayFold

open WorkflowEngine FallibleFold

/-- Nothing of the slice has been started: its attempts all wait, or an early
exit has skipped them all. -/
def Unstarted (workflow : WorkflowInstance) (slice : List String) : Prop :=
  (∀ id task, workflow.tasks.lookup id = some task → task.taskDefId ∈ slice →
    task.status = .pending ∧ task.earlyExit = false) ∨
  ∀ id task, workflow.tasks.lookup id = some task → task.taskDefId ∈ slice →
    task.status = .skipped

/-- Slices without a verifier state are untouched, and what is planned is not
of them. -/
structure SliceStarts (definition : WorkflowDef) (l : Lifecycle) : Prop where
  unstarted : ∀ verifierId slice, (verifierId, slice) ∈ computeLoopSlices definition →
    l.stored.verifierStates.lookup verifierId = none → Unstarted l.stored slice
  planned : ∀ id ∈ l.plan, ∃ task, l.stored.tasks.lookup id = some task ∧
    ∀ verifierId slice, (verifierId, slice) ∈ computeLoopSlices definition →
      task.taskDefId ∈ slice → (l.stored.verifierStates.lookup verifierId).isSome = true

variable {definition : WorkflowDef} {workflow reduced : WorkflowInstance} {slice : List String}

theorem Unstarted.status (h : Unstarted workflow slice) {id : String} {task : TaskInstance}
    (hTask : workflow.tasks.lookup id = some task) (hMem : task.taskDefId ∈ slice) :
    task.status = .pending ∨ task.status = .skipped := by
  rcases h with h | h
  · exact .inl (h id task hTask hMem).1
  · exact .inr (h id task hTask hMem)

theorem Unstarted.of_same (h : Unstarted workflow slice)
    (hSame : ∀ id task, reduced.tasks.lookup id = some task → task.taskDefId ∈ slice →
      workflow.tasks.lookup id = some task) : Unstarted reduced slice := by
  rcases h with h | h
  · exact .inl fun id task hTask hMem => h id task (hSame id task hTask hMem) hMem
  · exact .inr fun id task hTask hMem => h id task (hSame id task hTask hMem) hMem

/-- A result of a task outside the slice skips all of it, or nothing. -/
theorem Unstarted.of_frame (h : Unstarted workflow slice) {id : String} {taskDef : TaskDef}
    {other : List String} {exit : Bool}
    (hFrame : OutcomeFrame workflow reduced id taskDef other exit) {task : TaskInstance}
    (hTask : workflow.tasks.lookup id = some task) (hOutside : task.taskDefId ∉ slice)
    (hOther : (taskVerifier taskDef).isSome = true →
      (workflow.verifierStates.lookup taskDef.id).isSome = true →
      ∀ taskDefId ∈ other, taskDefId ∉ slice) :
    Unstarted reduced slice := by
  have hOld (key : String) (found : TaskInstance) (hFound : reduced.tasks.lookup key = some found)
      (hMem : found.taskDefId ∈ slice) : ∃ old mark, workflow.tasks.lookup key = some old ∧
        found = (old.afterExit exit).marked mark := by
    have hKey : key ≠ id := by
      rintro rfl
      obtain ⟨own, hOwn, hDef, _⟩ := hFrame.own task hTask
      rw [hOwn] at hFound
      cases hFound
      exact hOutside (hDef ▸ hMem)
    cases hBefore : workflow.tasks.lookup key with
    | none =>
        obtain ⟨hVerifier, hState, taskDefId, hTaskDef, _, _, rfl⟩ :=
          hFrame.new key found hBefore hFound
        exact absurd hMem (hOther hVerifier hState taskDefId hTaskDef)
    | some old =>
        obtain ⟨mark, hAfter⟩ := hFrame.kept key old hKey hBefore
        rw [hAfter] at hFound
        exact ⟨old, mark, rfl, (Option.some.inj hFound).symm⟩
  have hMemOld {old found : TaskInstance} {mark : Option TaskSatisfactionStatus}
      (hEq : found = (old.afterExit exit).marked mark) (hMem : found.taskDefId ∈ slice) :
      old.taskDefId ∈ slice := by
    rw [hEq] at hMem
    simpa [TaskInstance.marked] using hMem
  rcases h with h | h
  · cases hExit : exit with
    | false =>
        refine .inl fun key found hFound hMem => ?_
        obtain ⟨old, mark, hBefore, rfl⟩ := hOld key found hFound hMem
        rw [hExit, TaskInstance.afterExit_false]
        exact h key old hBefore (hMemOld rfl hMem)
    | true =>
        refine .inr fun key found hFound hMem => ?_
        obtain ⟨old, mark, hBefore, rfl⟩ := hOld key found hFound hMem
        rw [hExit, TaskInstance.afterExit,
          if_pos ⟨rfl, (h key old hBefore (hMemOld rfl hMem)).1⟩]
        rfl
  · refine .inr fun key found hFound hMem => ?_
    obtain ⟨old, mark, hBefore, rfl⟩ := hOld key found hFound hMem
    have hSkipped := h key old hBefore (hMemOld rfl hMem)
    rw [TaskInstance.afterExit_of_ne_pending (by rw [hSkipped]; decide)]
    exact hSkipped

theorem verifier_slice {taskId : String} {taskDef : TaskDef}
    (hTask : definition.findTask taskId = some taskDef)
    (hVerifier : (taskVerifier taskDef).isSome = true) :
    ∃ slice, (taskDef.id, slice) ∈ computeLoopSlices definition := by
  obtain ⟨verifier, hVerifier⟩ := Option.isSome_iff_exists.mp hVerifier
  exact ⟨_, mem_computeLoopSlices.mpr
    ⟨taskDef, (findTask_some hTask).1, verifier, hVerifier, rfl, rfl⟩⟩

section Step

variable (hDef : WellFormedDef definition) {l : Lifecycle} {writer : Writer}
include hDef

/-- The slice of a verdict, among those of the definition. -/
theorem WellFormedDef.verdict_slice {loopSlices : LoopSlices} {taskId : String} {taskDef : TaskDef}
    (hSlices : loopSlices.Perm (computeLoopSlices definition))
    (hTask : definition.findTask taskId = some taskDef)
    (hVerifier : (taskVerifier taskDef).isSome = true) :
    (taskDef.id, (loopSlices.lookup taskDef.id).getD [taskDef.id]) ∈
      computeLoopSlices definition := by
  obtain ⟨slice, hSlice⟩ := verifier_slice hTask hVerifier
  rw [lookup_slice hDef hSlices hSlice]
  exact hSlice

theorem WriteEffect.unstarted (hEffect : WriteEffect definition l reduced writer)
    (hStates : ∀ verifierId, (l.stored.verifierStates.lookup verifierId).isSome = true →
      (reduced.verifierStates.lookup verifierId).isSome = true) (h : SliceStarts definition l)
    {verifierId : String} (hSlice : (verifierId, slice) ∈ computeLoopSlices definition)
    (hNone : reduced.verifierStates.lookup verifierId = none) : Unstarted reduced slice := by
  have hBefore : l.stored.verifierStates.lookup verifierId = none := by
    cases hState : l.stored.verifierStates.lookup verifierId with
    | none => rfl
    | some state =>
        have hKept := hStates verifierId (by rw [hState]; rfl)
        rw [hNone] at hKept
        cases hKept
  have hOld := h.unstarted verifierId slice hSlice hBefore
  cases hEffect with
  | status _ hTasks _ =>
      exact hOld.of_same fun id task hTask _ => by rwa [hTasks] at hTask
  | initialTasks hEmpty hTasks _ _ =>
      refine .inl fun id task hTask _ => ?_
      obtain ⟨taskDef, _, _, rfl⟩ := hTasks id task hTask
      exact ⟨rfl, rfl⟩
  | initialGenerations _ _ hAfter =>
      exact hOld.of_same fun id task hTask _ => by rwa [hAfter.tasks] at hTask
  | @start started task hPlan hTask _ hTasks _ =>
      refine hOld.of_same fun key found hFound hMem => ?_
      rw [hTasks] at hFound
      split at hFound
      · cases hFound
        obtain ⟨planned, hPlanned, hStarted⟩ := h.planned started hPlan
        rw [hTask] at hPlanned
        cases hPlanned
        have hSome := hStarted verifierId slice hSlice hMem
        rw [hBefore] at hSome
        cases hSome
      · exact hFound
  | result hSlices hTask hFound hRunning _ hOutcome =>
      obtain ⟨exit, hFrame⟩ := hOutcome.frame hTask
      refine hOld.of_frame hFrame hTask (fun hMem => ?_) fun hVerifier hState taskDefId hIn hMem => ?_
      · rcases hOld.status hTask hMem with hStatus | hStatus
        · rw [hRunning] at hStatus
          cases hStatus
        · rw [hRunning] at hStatus
          cases hStatus
      · have hVerdict := hDef.verdict_slice hSlices hFound hVerifier
        have hSame := hDef.slices_disjoint _ hVerdict _ hSlice taskDefId hIn hMem
        rw [(Prod.mk.inj hSame).1, hBefore] at hState
        cases hState
  | @humanInput id _ task hTask hWaiting _ hTasks _ =>
      refine hOld.of_same fun key found hFound hMem => ?_
      rw [hTasks] at hFound
      split at hFound
      · cases hFound
        rcases hOld.status hTask hMem with hStatus | hStatus
        · rw [hStatus] at hWaiting
          cases hWaiting
        · rw [hStatus] at hWaiting
          cases hWaiting
      · exact hFound
  | @retry id task hTask hFailed hTasks _ =>
      refine hOld.of_same fun key found hFound hMem => ?_
      rw [hTasks] at hFound
      split at hFound
      · cases hFound
        rcases hOld.status hTask hMem with hStatus | hStatus
        · rw [hStatus] at hFailed
          cases hFailed
        · rw [hStatus] at hFailed
          cases hFailed
      · exact hFound
  | recover hTasks _ =>
      refine hOld.of_same fun key found hFound hMem => ?_
      rw [hTasks] at hFound
      split at hFound
      · obtain ⟨task, hTask, rfl⟩ := Option.map_eq_some_iff.mp hFound
        have hStatus : task.status ≠ .running := by
          intro hRunning
          have hMem : task.taskDefId ∈ slice := by
            simpa [TaskInstance.recovered, hRunning] using hMem
          rcases hOld.status hTask hMem with h | h
          · rw [hRunning] at h
            cases h
          · rw [hRunning] at h
            cases h
        rw [TaskInstance.recovered, if_neg hStatus]
        exact hTask
      · exact hFound

/-- A slice that waits, and whose generation is not to be started, has no
attempt that can run. -/
theorem not_canRun_of_unstarted {loopSlices : LoopSlices} {verifierId id : String}
    {task : TaskInstance} (hSlices : loopSlices.Perm (computeLoopSlices definition))
    (hSlice : (verifierId, slice) ∈ computeLoopSlices definition)
    (hNone : workflow.verifierStates.lookup verifierId = none)
    (hUnstarted : Unstarted workflow slice)
    (hStart : eligibleStart workflow definition loopSlices verifierId slice = none)
    (hTask : workflow.tasks.lookup id = some task) (hPending : task.status = .pending)
    (hMem : task.taskDefId ∈ slice) : canRun workflow definition loopSlices task = false := by
  have hPendingAll : ∀ id task, workflow.tasks.lookup id = some task → task.taskDefId ∈ slice →
      task.status = .pending ∧ task.earlyExit = false := by
    rcases hUnstarted with h | h
    · exact h
    · have hSkipped := h id task hTask hMem
      rw [hPending] at hSkipped
      cases hSkipped
  have hRuns : sliceInterruptedByExit workflow slice = false := by
    rw [← Bool.not_eq_true, sliceInterruptedByExit, FiniteMap.anyValue_iff]
    rintro ⟨key, found, hFound, hInterrupted⟩
    simp only [Bool.and_eq_true, decide_eq_true_eq, Bool.or_eq_true] at hInterrupted
    obtain ⟨hIn, hSkipped | hExit⟩ := hInterrupted
    · rw [(hPendingAll key found hFound hIn).1] at hSkipped
      cases hSkipped
    · rw [(hPendingAll key found hFound hIn).2] at hExit
      cases hExit
  obtain ⟨verifierTask, verifier, hVerifierTask, hVerifier, _⟩ := hDef.slice_verifier hSlice
  have hStartMem := hDef.start_mem_slice hSlice hVerifierTask hVerifier
  rw [← Bool.not_eq_true]
  intro hRun
  obtain ⟨taskDef, hFound, hInputs⟩ := (Option.any_eq_true ..).mp hRun
  have hId : taskDef.id = task.taskDefId := (findTask_some hFound).2
  have hSliceOf := sliceOf_eq hDef hSlices hSlice hMem
  by_cases hIsStart : task.taskDefId = verifierRerunStartTaskId verifier verifierId
  · -- The start is not ready: a source outside the slice is missing.
    have hReady : logicalTaskReadyOutsideSlice workflow definition taskDef slice loopSlices =
        false := by
      rw [hIsStart] at hFound
      unfold eligibleStart at hStart
      simpa [hRuns, hNone, hVerifierTask, hVerifier, hFound] using hStart
    rw [logicalTaskReadyOutsideSlice, List.all_eq_false] at hReady
    obtain ⟨binding, hBinding, hMissing⟩ := hReady
    simp only [Bool.or_eq_true, decide_eq_true_eq, not_or] at hMissing
    obtain ⟨hOutside, hMissing⟩ := hMissing
    obtain ⟨entry, hEntry⟩ := resolveBinding_of_resolveInputs hInputs hBinding
    obtain ⟨source, found, hSource, hTaskFound, hCompleted, _⟩ := resolveBinding_some.mp hEntry
    rw [resolveSourceAttemptId_outside fun other hOther => by
      rw [hSliceOf] at hOther
      cases hOther
      exact hOutside] at hSource
    refine hMissing ?_
    change Option.any _ (Option.bind (latestSatisfiedAttemptId workflow _) _) = true
    rw [hSource]
    simp [hTaskFound, hCompleted]
  · -- Any other task waits for a source in the slice, which has not completed.
    obtain ⟨source, hSourceMem, hEdge⟩ :=
      hDef.source_in_slice hSlice hVerifierTask hVerifier hMem hIsStart
    obtain ⟨binding, hBinding, hPair⟩ := List.mem_map.mp hEdge
    have hInbound : binding ∈ inboundBindings definition taskDef.id := by
      rw [inboundBindings, List.mem_filter, hId]
      exact ⟨hBinding, decide_eq_true (Prod.mk.inj hPair).2⟩
    obtain ⟨entry, hEntry⟩ := resolveBinding_of_resolveInputs hInputs hInbound
    obtain ⟨id, found, hSource, hTaskFound, hCompleted, _⟩ := resolveBinding_some.mp hEntry
    rw [(Prod.mk.inj hPair).1, resolveSourceAttemptId_inside hSliceOf hSourceMem] at hSource
    obtain ⟨latest, hLatest, hLatestDef, _⟩ := latestMaterializedAttemptId_some hSource
    rw [hTaskFound] at hLatest
    cases hLatest
    rw [(hPendingAll id found hTaskFound (hLatestDef ▸ hSourceMem)).1] at hCompleted
    cases hCompleted

end Step

theorem mem_tasksToRun {loopSlices : LoopSlices} {ready : List String} {id : String}
    (h : tasksToRun workflow definition loopSlices = some ready) (hMem : id ∈ ready) :
    ∃ task, workflow.tasks.lookup id = some task ∧ task.status = .pending ∧
      canRun workflow definition loopSlices task = true := by
  unfold tasksToRun at h
  dsimp only at h
  split at h
  · cases h
  · cases h
    obtain ⟨entry, hEntry, rfl⟩ := List.mem_map.mp hMem
    obtain ⟨hPending, hRun⟩ := List.mem_filter.mp hEntry
    obtain ⟨hTask, hPending⟩ := List.mem_filter.mp hPending
    exact ⟨entry.2, (FiniteMap.mem_toList ..).mp hTask, by simpa using hPending, hRun⟩

theorem mem_tasksToRun_of_canRun {loopSlices : LoopSlices} {ready : List String} {id : String}
    {task : TaskInstance} (h : tasksToRun workflow definition loopSlices = some ready)
    (hTask : workflow.tasks.lookup id = some task) (hPending : task.status = .pending)
    (hRun : canRun workflow definition loopSlices task = true) : id ∈ ready := by
  unfold tasksToRun at h
  dsimp only at h
  split at h
  · cases h
  · cases h
    refine List.mem_map.mpr ⟨(id, task), List.mem_filter.mpr ⟨List.mem_filter.mpr ⟨?_, ?_⟩, hRun⟩, rfl⟩
    · exact (FiniteMap.mem_toList ..).mpr hTask
    · simpa using hPending

theorem SliceStarts.created (id workflowDefId : String) (pinnedWorkerHost : WorkerHostId)
    (input : Option Json) :
    SliceStarts definition (Lifecycle.created id workflowDefId pinnedWorkerHost input) :=
  ⟨fun _ _ _ _ => .inl fun _ _ hTask => (by cases hTask), fun _ h => by cases h⟩

/-- Every step keeps the slices without a verifier state untouched. -/
theorem SliceStarts.step (hDef : WellFormedDef definition) {ext : Externals} {l l' : Lifecycle}
    {writer : Writer} (h : SliceStarts definition l)
    (hStep : Lifecycle.Step ext definition l writer l') : SliceStarts definition l' := by
  cases hStep with
  | @write _ events plan reduced hWrite hReduce =>
      constructor
      · intro verifierId slice hSlice hNone
        change Unstarted reduced slice
        exact (hWrite.effect hReduce).unstarted hDef (fun _ => foldlM_keepsState hReduce) h hSlice
          hNone
      · intro id hMem
        obtain ⟨task, hTask, hStarted⟩ := h.planned id (hWrite.plan_subset hMem)
        obtain ⟨task', hTask', hMoves⟩ := (hWrite.attemptsAfter hReduce).kept id task hTask
        refine ⟨task', hTask', fun verifierId slice hSlice hIn => ?_⟩
        rw [hMoves.taskDefId] at hIn
        exact foldlM_keepsState hReduce (hStarted verifierId slice hSlice hIn)
  | @schedule loopSlices ready _ hSlices hStarted hReady =>
      refine ⟨h.unstarted, fun id hMem => ?_⟩
      obtain ⟨task, hTask, hPending, hRun⟩ := mem_tasksToRun hReady hMem
      refine ⟨task, hTask, fun verifierId slice hSlice hIn => ?_⟩
      cases hState : l.stored.verifierStates.lookup verifierId with
      | some state => rfl
      | none =>
          have hWaits := not_canRun_of_unstarted hDef hSlices hSlice hState
            (h.unstarted verifierId slice hSlice hState)
            (hStarted _ (hSlices.mem_iff.mpr hSlice)) hTask hPending hIn
          rw [hRun] at hWaits
          cases hWaits

theorem Lifecycle.Steps.sliceStarts (hDef : WellFormedDef definition) {ext : Externals}
    {l l' : Lifecycle} {writers : List Writer}
    (run : Lifecycle.Steps ext definition l writers l') (hStart : SliceStarts definition l) :
    SliceStarts definition l' :=
  Run.invariant run hStart fun _ _ _ h hStep => h.step hDef hStep

/-- An attempt that has been started belongs to no slice without a verifier
state. -/
theorem SliceStarts.state_isSome {l : Lifecycle} (h : SliceStarts definition l)
    {verifierId id : String} (hSlice : (verifierId, slice) ∈ computeLoopSlices definition)
    {task : TaskInstance} (hTask : l.stored.tasks.lookup id = some task)
    (hMem : task.taskDefId ∈ slice) (hRunning : task.status = .running) :
    (l.stored.verifierStates.lookup verifierId).isSome = true := by
  cases hState : l.stored.verifierStates.lookup verifierId with
  | some state => rfl
  | none =>
      rcases (h.unstarted verifierId slice hSlice hState).status hTask hMem with hStatus | hStatus
      · rw [hRunning] at hStatus
        cases hStatus
      · rw [hRunning] at hStatus
        cases hStatus

end RelayFold
