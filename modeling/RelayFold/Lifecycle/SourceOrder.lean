import RelayFold.Engine.SliceGraph
import RelayFold.Lifecycle.Satisfaction

/-! Sources come first: whatever has been started has had its sources, in every
run. -/
namespace RelayFold

open WorkflowEngine FallibleFold EdgeList

/-- Neither pending nor skipped. -/
def TaskStatus.hasBegun : TaskStatus → Bool
  | pending | skipped => false
  | _ => true

/-- An attempt of the task has completed. -/
def HasCompleted (workflow : WorkflowInstance) (taskId : String) : Prop :=
  ∃ id task, IsAttempt workflow taskId id task ∧ task.status = .completed

/-- An attempt of the task has completed and is satisfied. -/
def HasSatisfied (workflow : WorkflowInstance) (taskId : String) : Prop :=
  ∃ id task, IsAttempt workflow taskId id task ∧ task.status = .completed ∧
    task.satisfactionStatus = .satisfied

/-- What a task consumes is there: a completed attempt of each source, and a
satisfied one of each source that is not in its slice. -/
structure Supplied (definition : WorkflowDef) (workflow : WorkflowInstance) (taskId : String) :
    Prop where
  completed : ∀ source, (source, taskId) ∈ definition.edges → HasCompleted workflow source
  satisfied : ∀ source, (source, taskId) ∈ definition.edges →
    (∀ entry ∈ computeLoopSlices definition, taskId ∈ entry.2 → source ∉ entry.2) →
      HasSatisfied workflow source

/-- Everything that has begun is supplied, and so is what is planned. -/
structure Fed (definition : WorkflowDef) (l : Lifecycle) : Prop where
  earned : Earned definition l.stored
  begun : ∀ id task, l.stored.tasks.lookup id = some task → task.status.hasBegun = true →
    Supplied definition l.stored task.taskDefId
  planned : ∀ id ∈ l.plan, ∃ task, l.stored.tasks.lookup id = some task ∧
    Supplied definition l.stored task.taskDefId

variable {definition : WorkflowDef} {workflow reduced : WorkflowInstance} {taskId : String}

theorem edge_binding {source target : String} (h : (source, target) ∈ definition.edges) :
    ∃ binding ∈ inboundBindings definition target, binding.sourceTaskId = source := by
  obtain ⟨binding, hMem, hPair⟩ := List.mem_map.mp h
  cases hPair
  exact ⟨binding, List.mem_filter.mpr ⟨hMem, decide_eq_true rfl⟩, rfl⟩

/-- What can run is supplied. -/
theorem supplied_of_canRun {loopSlices : LoopSlices} {task : TaskInstance}
    (hSlices : loopSlices.Perm (computeLoopSlices definition))
    (h : canRun workflow definition loopSlices task = true) :
    Supplied definition workflow task.taskDefId := by
  obtain ⟨taskDef, hFound, hInputs⟩ := (Option.any_eq_true _ _).mp h
  have hResolved (source : String) (hEdge : (source, task.taskDefId) ∈ definition.edges) :
      ∃ id found, resolveSourceAttemptId workflow loopSlices (some task.taskDefId) source = some id ∧
        workflow.tasks.lookup id = some found ∧ found.status = .completed := by
    obtain ⟨binding, hBinding, rfl⟩ := edge_binding hEdge
    rw [← (findTask_some hFound).2] at hBinding
    obtain ⟨entry, hEntry⟩ := resolveBinding_of_resolveInputs hInputs hBinding
    obtain ⟨id, found, hId, hFound, hCompleted, _⟩ := resolveBinding_some.mp hEntry
    exact ⟨id, found, hId, hFound, hCompleted⟩
  have hOutside (source : String) (hEdge : (source, task.taskDefId) ∈ definition.edges)
      (hSource : ∀ entry, sliceOf loopSlices task.taskDefId = some entry → source ∉ entry.2) :
      HasSatisfied workflow source := by
    obtain ⟨id, _, hId, _, _⟩ := hResolved source hEdge
    rw [resolveSourceAttemptId_outside hSource] at hId
    obtain ⟨found, hTask, hDefId, hCompleted, hSatisfied⟩ := latestSatisfiedAttemptId_some hId
    exact ⟨id, found, ⟨hTask, hDefId⟩, hCompleted, hSatisfied⟩
  refine ⟨fun source hEdge => ?_, fun source hEdge hSource => hOutside source hEdge fun entry hEntry =>
    ?_⟩
  · by_cases hInside : ∃ entry, sliceOf loopSlices task.taskDefId = some entry ∧ source ∈ entry.2
    · obtain ⟨entry, hEntry, hMem⟩ := hInside
      obtain ⟨id, found, hId, hTask, hCompleted⟩ := hResolved source hEdge
      rw [resolveSourceAttemptId_inside hEntry hMem] at hId
      obtain ⟨latest, hLatest, hDefId, _⟩ := latestMaterializedAttemptId_some hId
      rw [hTask] at hLatest
      cases hLatest
      exact ⟨id, found, ⟨hTask, hDefId⟩, hCompleted⟩
    · obtain ⟨id, found, hAttempt, hCompleted, _⟩ := hOutside source hEdge fun entry hEntry hMem =>
        hInside ⟨entry, hEntry, hMem⟩
      exact ⟨id, found, hAttempt, hCompleted⟩
  · obtain ⟨hMem, hTarget⟩ := sliceOf_mem hEntry
    exact hSource entry (hSlices.mem_iff.mp hMem) hTarget

theorem HasCompleted.withVersion (h : HasCompleted workflow taskId) (version : Nat) :
    HasCompleted (workflow.withVersion version) taskId := by
  obtain ⟨id, task, hTask, hCompleted⟩ := h
  exact ⟨id, task, ⟨hTask.found, hTask.taskDefId⟩, hCompleted⟩

theorem HasSatisfied.withVersion (h : HasSatisfied workflow taskId) (version : Nat) :
    HasSatisfied (workflow.withVersion version) taskId := by
  obtain ⟨id, task, hTask, hMarks⟩ := h
  exact ⟨id, task, ⟨hTask.found, hTask.taskDefId⟩, hMarks⟩

theorem Supplied.withVersion (h : Supplied definition workflow taskId) (version : Nat) :
    Supplied definition (workflow.withVersion version) taskId :=
  ⟨fun source hEdge => (h.completed source hEdge).withVersion version,
    fun source hEdge hSource => (h.satisfied source hEdge hSource).withVersion version⟩

section Commit

variable {l : Lifecycle} {writer : Writer} {ext : Externals} {events : List WorkflowInstanceEvent}
  {plan : List String}

theorem HasCompleted.write (h : HasCompleted l.stored taskId)
    (hWrite : Write ext definition l writer events plan)
    (hReduce : reduceWorkflowInstanceEvents (some l.stored) events = .ok reduced) :
    HasCompleted reduced taskId := by
  obtain ⟨id, task, hTask, hCompleted⟩ := h
  obtain ⟨after, hAfter, hKept⟩ := hWrite.completed_kept hReduce hTask.found hCompleted
  refine ⟨id, after, ⟨hAfter, ?_⟩, ?_⟩
  · rw [hKept]
    exact hTask.taskDefId
  · rw [hKept]
    exact hCompleted

theorem HasSatisfied.write (hDef : WellFormedDef definition) (hSound : Sound definition l.stored)
    (hEarned : Earned definition l.stored) (h : HasSatisfied l.stored taskId)
    (hWrite : Write ext definition l writer events plan)
    (hReduce : reduceWorkflowInstanceEvents (some l.stored) events = .ok reduced) :
    HasSatisfied reduced taskId := by
  obtain ⟨id, task, hTask, hCompleted, hSatisfied⟩ := h
  exact ⟨id, task, ⟨hWrite.satisfied_kept hDef hReduce hSound.key hEarned hTask.found hCompleted
    hSatisfied, hTask.taskDefId⟩, hCompleted, hSatisfied⟩

theorem Supplied.write (hDef : WellFormedDef definition) (hSound : Sound definition l.stored)
    (hEarned : Earned definition l.stored) (h : Supplied definition l.stored taskId)
    (hWrite : Write ext definition l writer events plan)
    (hReduce : reduceWorkflowInstanceEvents (some l.stored) events = .ok reduced) :
    Supplied definition reduced taskId :=
  ⟨fun source hEdge => (h.completed source hEdge).write hWrite hReduce,
    fun source hEdge hSource =>
      (h.satisfied source hEdge hSource).write hDef hSound hEarned hWrite hReduce⟩

/-- Only what is planned is started. -/
theorem WriteEffect.starts_planned (h : WriteEffect definition l reduced .pass) {id : String}
    {a b : TaskInstance} (ha : l.stored.tasks.lookup id = some a) (hPending : a.status = .pending)
    (hb : reduced.tasks.lookup id = some b) (hRunning : b.status = .running) : id ∈ l.plan := by
  have hMoved (hSame : l.stored.tasks.lookup id = some b) : False := by
    rw [ha] at hSame
    cases hSame
    rw [hPending] at hRunning
    cases hRunning
  cases h with
  | status _ hTasks _ => exact (hMoved (hTasks ▸ hb)).elim
  | initialTasks hEmpty _ _ _ =>
      rw [hEmpty] at ha
      cases ha
  | initialGenerations _ _ hAfter => exact (hMoved (hAfter.tasks ▸ hb)).elim
  | start hPlan _ _ hTasks _ =>
      rw [hTasks] at hb
      split at hb
      · rename_i hKey
        exact hKey ▸ hPlan
      · exact (hMoved hb).elim
  | @result _ _ started _ _ _ hTask _ hStarted _ hOutcome _ =>
      obtain ⟨exit, hFrame⟩ := hOutcome.frame hTask
      have hKey : id ≠ started.taskAttemptId := by
        rintro rfl
        rw [hTask] at ha
        cases ha
        rw [hStarted] at hPending
        cases hPending
      obtain ⟨mark, hKept⟩ := hFrame.kept id a hKey ha
      rw [hb] at hKept
      cases hKept
      rcases a.afterExit_status exit with hSame | ⟨_, hSkipped⟩
      · have hStatus : (a.afterExit exit).status = .running := hRunning
        rw [hSame, hPending] at hStatus
        cases hStatus
      · have hStatus : (a.afterExit exit).status = .running := hRunning
        rw [hSkipped] at hStatus
        cases hStatus

/-- What a commit leaves begun has begun before, or it was planned. -/
theorem WriteEffect.begun_origin (h : WriteEffect definition l reduced writer)
    (hAfter : AttemptsAfter writer l.stored reduced) {id : String} {b : TaskInstance}
    (hb : reduced.tasks.lookup id = some b) (hBegun : b.status.hasBegun = true) :
    ∃ a, l.stored.tasks.lookup id = some a ∧ b.taskDefId = a.taskDefId ∧
      (a.status.hasBegun = true ∨ id ∈ l.plan) := by
  cases ha : l.stored.tasks.lookup id with
  | none =>
      rw [(hAfter.fresh id b ha hb).1] at hBegun
      cases hBegun
  | some a =>
      obtain ⟨b', hb', hMoves⟩ := hAfter.kept id a ha
      rw [hb] at hb'
      cases hb'
      refine ⟨a, rfl, hMoves.taskDefId, ?_⟩
      have hStatus := hMoves.status
      generalize hOld : a.status = old at hStatus
      generalize hNew : b.status = new at hStatus hBegun
      cases hStatus with
      | refl => exact .inl hBegun
      | answer => exact .inl rfl
      | skip | recover | retry => cases hBegun
      | start => exact .inr (h.starts_planned ha hOld hb hNew)

/-- Every step keeps everything fed. -/
theorem Fed.step {l' : Lifecycle} (hDef : WellFormedDef definition) (h : Fed definition l)
    (hSound : Sound definition l.stored) (hStep : Lifecycle.Step ext definition l writer l') :
    Fed definition l' := by
  cases hStep with
  | @write _ events plan reduced hWrite hReduce =>
      have hEffect := hWrite.effect hReduce
      have hAfter := hWrite.attemptsAfter hReduce
      have hKept {taskId : String} (hSupplied : Supplied definition l.stored taskId) :
          Supplied definition (reduced.withVersion (l.stored.version + events.length)) taskId :=
        (hSupplied.write hDef hSound h.earned hWrite hReduce).withVersion _
      have hEarned : Earned definition reduced := h.earned.write hDef hSound hWrite hReduce
      refine ⟨hEarned, fun id b hb hBegun => ?_, fun id hMem => ?_⟩
      · obtain ⟨a, ha, hDefId, hOrigin⟩ := hEffect.begun_origin hAfter hb hBegun
        rw [hDefId]
        apply hKept
        rcases hOrigin with hOld | hPlanned
        · exact h.begun id a ha hOld
        · obtain ⟨planned, hFound, hSupplied⟩ := h.planned id hPlanned
          rw [ha] at hFound
          cases hFound
          exact hSupplied
      · obtain ⟨a, ha, hSupplied⟩ := h.planned id (hWrite.plan_subset hMem)
        obtain ⟨b, hb, hMoves⟩ := hAfter.kept id a ha
        exact ⟨b, hb, hMoves.taskDefId ▸ hKept hSupplied⟩
  | @schedule loopSlices ready _ hSlices _ hReady =>
      refine ⟨h.earned, h.begun, fun id hMem => ?_⟩
      obtain ⟨task, hTask, _, hRun⟩ := mem_tasksToRun hReady hMem
      exact ⟨task, hTask, supplied_of_canRun hSlices hRun⟩

end Commit

/-! ### Cycles of slices -/

section Cycles

variable {l : Lifecycle} {writer : Writer} {ext : Externals} {node source target : String}

/-- A task of a supplied verifier's slice is supplied. -/
theorem Fed.slice_supplied (hDef : WellFormedDef definition) (h : Fed definition l)
    {slice : List String} (hSlice : (node, slice) ∈ computeLoopSlices definition)
    (hNode : Supplied definition l.stored node) (hMem : taskId ∈ slice) :
    Supplied definition l.stored taskId := by
  refine hDef.slice_path hSlice hNode (fun source target _ _ hEdge hTarget => ?_) hMem
  obtain ⟨id, task, hTask, hCompleted⟩ := hTarget.completed source hEdge
  rw [← hTask.taskDefId]
  exact h.begun id task hTask.found (by rw [hCompleted]; rfl)

/-- The node of a satisfied task has completed. -/
theorem Fed.node_completed (hKeyed : Keyed l.stored) (h : Fed definition l)
    (hSatisfied : HasSatisfied l.stored source) :
    HasCompleted l.stored (definition.sliceNode source) := by
  obtain ⟨id, task, hTask, hCompleted, hMark⟩ := hSatisfied
  rcases sliceNode_cases definition source with ⟨slice, hSlice, hMem⟩ | ⟨_, hSame⟩
  · obtain ⟨judge, hJudge, hAccepted⟩ :=
      h.earned _ _ hSlice id task hTask.found (hTask.taskDefId ▸ hMem) hMark
    obtain ⟨hVerifier, _⟩ := makeTaskAttemptId_inj.mp (hKeyed _ _ hJudge)
    exact ⟨_, judge, ⟨hJudge, hVerifier.symm⟩, hAccepted.1⟩
  · rw [hSame]
    exact ⟨id, task, hTask, hCompleted⟩

/-- The nodes that a supplied node consumes have completed. -/
theorem Fed.predecessor (hDef : WellFormedDef definition) (hKeyed : Keyed l.stored)
    (h : Fed definition l) {other : String} (hSupplied : Supplied definition l.stored node)
    (hEdge : (other, node) ∈ definition.sliceEdges) : HasCompleted l.stored other := by
  obtain ⟨hNodes, source, target, hBinding, rfl, hTarget⟩ := mem_sliceEdges.mp hEdge
  have hTargetSupplied : Supplied definition l.stored target := by
    rcases sliceNode_eq hTarget with ⟨slice, hSlice, hMem⟩ | ⟨_, rfl⟩
    · exact h.slice_supplied hDef hSlice hSupplied hMem
    · exact hSupplied
  exact h.node_completed hKeyed <| hTargetSupplied.satisfied source hBinding fun entry hEntry =>
    hDef.not_shared (hTarget ▸ hNodes) hEntry

/-- Every node that has completed is at the end of finitely many nodes. -/
def Grounded (definition : WorkflowDef) (workflow : WorkflowInstance) : Prop :=
  ∀ node, definition.sliceNode node = node → HasCompleted workflow node →
    Acc (Edge definition.sliceEdges) node

theorem Grounded.write {events : List WorkflowInstanceEvent} {plan : List String}
    (hDef : WellFormedDef definition) (hSound : Sound definition l.stored) (hFed : Fed definition l)
    (h : Grounded definition l.stored) (hWrite : Write ext definition l writer events plan)
    (hReduce : reduceWorkflowInstanceEvents (some l.stored) events = .ok reduced) :
    Grounded definition reduced := by
  rintro node hNode ⟨id, b, hb, hCompleted⟩
  obtain ⟨a, ha, hDefId, hOrigin⟩ := (hWrite.effect hReduce).begun_origin
    (hWrite.attemptsAfter hReduce) hb.found (by rw [hCompleted]; rfl)
  have hSupplied : Supplied definition l.stored node := by
    rw [← hb.taskDefId, hDefId]
    rcases hOrigin with hOld | hPlanned
    · exact hFed.begun id a ha hOld
    · obtain ⟨planned, hFound, hSupplied⟩ := hFed.planned id hPlanned
      rw [ha] at hFound
      cases hFound
      exact hSupplied
  refine .intro node fun other hEdge => h other ?_ (hFed.predecessor hDef hSound.key hSupplied hEdge)
  obtain ⟨_, source, _, _, rfl, _⟩ := mem_sliceEdges.mp hEdge
  exact hDef.sliceNode_idem source

theorem Lifecycle.Steps.fed {l' : Lifecycle} {writers : List Writer} (hDef : WellFormedDef definition)
    (run : Lifecycle.Steps ext definition l writers l') (hSound : Sound definition l.stored)
    (hFed : Fed definition l) (hGrounded : Grounded definition l.stored) :
    Fed definition l' ∧ Grounded definition l'.stored := by
  refine (Run.invariant (P := fun l : Lifecycle => Sound definition l.stored ∧ Fed definition l ∧
    Grounded definition l.stored) run ⟨hSound, hFed, hGrounded⟩ ?_).2
  rintro l writer l' ⟨hSound, hFed, hGrounded⟩ hStep
  refine ⟨Lifecycle.Steps.sound (.single hStep) hSound, hFed.step hDef hSound hStep, ?_⟩
  cases hStep with
  | schedule _ _ _ _ => exact hGrounded
  | write hWrite hReduce =>
      intro node hNode hCompleted
      have hReduced := hGrounded.write hDef hSound hFed hWrite hReduce
      obtain ⟨id, task, hTask, hStatus⟩ := hCompleted
      exact hReduced node hNode ⟨id, task, ⟨hTask.found, hTask.taskDefId⟩, hStatus⟩

end Cycles

theorem Fed.created (definition : WorkflowDef) (id workflowDefId : String)
    (pinnedWorkerHost : WorkerHostId) (input : Option Json) :
    Fed definition (Lifecycle.created id workflowDefId pinnedWorkerHost input) :=
  ⟨.created definition id workflowDefId pinnedWorkerHost input, fun _ _ hTask => (by cases hTask),
    fun _ hMem => (by cases hMem)⟩

theorem Grounded.created (definition : WorkflowDef) (id workflowDefId : String)
    (pinnedWorkerHost : WorkerHostId) (input : Option Json) :
    Grounded definition (Lifecycle.created id workflowDefId pinnedWorkerHost input).stored := by
  rintro node _ ⟨_, _, hTask, _⟩
  cases hTask.found

theorem System.Steps.fed {env : EngineEnv} {id workflowDefId : String}
    {pinnedWorkerHost : WorkerHostId} {input : Option Json} {actions : List Action} {s : System}
    (hDef : WellFormedDef definition) (hDefinition : env.definitions workflowDefId = some definition)
    (run : System.Steps env (System.created id workflowDefId pinnedWorkerHost input) actions s) :
    ∃ plan, Fed definition ⟨s.stored, plan⟩ ∧ Grounded definition s.stored := by
  obtain ⟨⟨stored, plan⟩, writers, steps, hRefines⟩ := run.refines hDefinition
  obtain ⟨hFed, hGrounded⟩ := steps.fed hDef (.created ..) (.created ..)
    (Grounded.created definition id workflowDefId pinnedWorkerHost input)
  obtain rfl : stored = s.stored := hRefines.stored
  exact ⟨plan, hFed, hGrounded⟩

/-- In every run, whatever has been started has had its sources: a completed
attempt of each, and one that is satisfied where the source is not of the same
slice. -/
theorem System.Steps.sources_first {env : EngineEnv} {submitted definition : WorkflowDef}
    {id workflowDefId : String} {pinnedWorkerHost : WorkerHostId} {input : Option Json}
    {actions : List Action} {s : System}
    (hAccepted : validateAndNormalizeWorkflowDef submitted = .ok definition)
    (hDefinition : env.definitions workflowDefId = some definition)
    (run : System.Steps env (System.created id workflowDefId pinnedWorkerHost input) actions s)
    {key : String} {task : TaskInstance} (hTask : s.stored.tasks.lookup key = some task)
    (hBegun : task.status.hasBegun = true) : Supplied definition s.stored task.taskDefId := by
  obtain ⟨plan, hFed, _⟩ := System.Steps.fed (validateAndNormalizeWorkflowDef_ok hAccepted)
    hDefinition run
  exact hFed.begun key task hTask hBegun

theorem reviewed_runs : (((firstReview completes).foldlM (System.step chainEnv) chainStart).filter
    fun s => (s.stored.tasks.lookup "a-review[1]").any fun task =>
      task.status = .running && task.taskDefId = "a-review").isSome := by
  decide +kernel

/-- The review that runs has a completed draft and edit. -/
theorem System.Steps.sources_first_review : ∃ s, System.Steps chainEnv chainStart
    (firstReview completes) s ∧ Supplied chainDefinition s.stored "a-review" := by
  have hAccepted : validateAndNormalizeWorkflowDef chainSubmitted = .ok chainDefinition :=
    eq_ok_get chainSubmitted_accepted
  have hDefinition : chainEnv.definitions "chain" = some chainDefinition := rfl
  obtain ⟨hFound, hReview⟩ := Option.filter_eq_some_iff.mp (Option.some_get reviewed_runs).symm
  obtain ⟨task, hTask, hChecks⟩ := (Option.any_eq_true _ _).mp hReview
  rw [Bool.and_eq_true, decide_eq_true_eq, decide_eq_true_eq] at hChecks
  have run := Run.of_foldlM hFound
  have hSupplied := System.Steps.sources_first hAccepted hDefinition run hTask (by rw [hChecks.1]; rfl)
  rw [hChecks.2] at hSupplied
  exact ⟨_, run, hSupplied⟩

end RelayFold
