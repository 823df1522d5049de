import RelayFold.Lifecycle.CompletedRuns
import RelayFold.Lifecycle.SourceOrder

/-! Slices that wait for each other. The definition is accepted, but nothing
that waits for the cycle ever completes, and an early exit that skips it is all
that can end the workflow. -/
namespace RelayFold

open WorkflowEngine FallibleFold EdgeList

/-- An attempt of the task has been skipped. -/
def HasSkippedAttempt (workflow : WorkflowInstance) (taskId : String) : Prop :=
  ∃ id task, IsAttempt workflow taskId id task ∧ task.status = .skipped

section Skipped

variable {definition : WorkflowDef} {l : Lifecycle} {writer : Writer} {ext : Externals}
  {workflow reduced : WorkflowInstance} {taskId : String}

theorem HasSkippedAttempt.after (h : HasSkippedAttempt workflow taskId)
    (hAfter : AttemptsAfter writer workflow reduced) : HasSkippedAttempt reduced taskId := by
  obtain ⟨id, task, hTask, hSkipped⟩ := h
  obtain ⟨after, hFound, hMoves⟩ := hAfter.kept id task hTask.found
  refine ⟨id, after, ⟨hFound, hMoves.taskDefId.trans hTask.taskDefId⟩, ?_⟩
  rw [hMoves.settled (by rw [hSkipped]; rfl), hSkipped]

/-- When the engine finds everything completed, a task without a completed
attempt has been skipped. -/
theorem skipped_of_allCompleted (hAll : workflowAllCompleted workflow definition = true)
    (hMem : taskId ∈ definition.taskIds) (hNever : ¬HasCompleted workflow taskId) :
    HasSkippedAttempt workflow taskId := by
  obtain ⟨taskDef, hTaskDef, rfl⟩ := List.mem_map.mp hMem
  obtain ⟨id, task, hId, hTask, hStatus⟩ := (workflowAllCompleted_iff.mp hAll).1 taskDef hTaskDef
  obtain ⟨found, hFound, hDefId, _⟩ := latestMaterializedAttemptId_some hId
  rw [hTask] at hFound
  cases hFound
  have hAttempt : IsAttempt workflow taskDef.id id task := ⟨hTask, hDefId⟩
  exact ⟨id, task, hAttempt, hStatus.resolve_left fun hCompleted =>
    hNever ⟨id, task, hAttempt, hCompleted⟩⟩

/-- A step that leaves the workflow completed finds the task completed or
skipped. -/
theorem HasSkippedAttempt.step {l' : Lifecycle} (hMem : taskId ∈ definition.taskIds)
    (hNever : ¬HasCompleted l.stored taskId)
    (h : l.stored.status = .completed → HasSkippedAttempt l.stored taskId)
    (hStep : Lifecycle.Step ext definition l writer l') (hCompleted : l'.stored.status = .completed) :
    HasSkippedAttempt l'.stored taskId := by
  cases hStep with
  | schedule _ _ _ _ => exact h hCompleted
  | @write _ events plan reduced hWrite hReduce =>
      have hAfter : HasSkippedAttempt l.stored taskId → HasSkippedAttempt reduced taskId :=
        fun hSkipped => hSkipped.after (hWrite.attemptsAfter hReduce)
      have hReduced : HasSkippedAttempt reduced taskId := by
        rcases hWrite.completes hReduce hCompleted with ⟨hAll, _, _⟩ | ⟨hOld, _⟩
        · exact hAfter (skipped_of_allCompleted hAll hMem hNever)
        · exact hAfter (h hOld)
      obtain ⟨id, task, hTask, hSkipped⟩ := hReduced
      exact ⟨id, task, ⟨hTask.found, hTask.taskDefId⟩, hSkipped⟩

end Skipped

/-- In no run does a verifier, or a task of no slice, complete that waits for a
cycle of slices. Such a workflow is completed only by an early exit that has
skipped all of these tasks. -/
theorem System.Steps.tangled_never_completes {env : EngineEnv} {submitted definition : WorkflowDef}
    {id workflowDefId : String} {pinnedWorkerHost : WorkerHostId} {input : Option Json}
    {actions : List Action} {s : System} {node behind : String}
    (hAccepted : validateAndNormalizeWorkflowDef submitted = .ok definition)
    (hDefinition : env.definitions workflowDefId = some definition)
    (run : System.Steps env (System.created id workflowDefId pinnedWorkerHost input) actions s)
    (hCycle : Relation.TransGen (Edge definition.sliceEdges) node node)
    (hBehind : Reaches definition.sliceEdges node behind) :
    ¬HasCompleted s.stored behind ∧
      (s.stored.status = .completed → HasSkippedAttempt s.stored behind) := by
  have hDef := validateAndNormalizeWorkflowDef_ok hAccepted
  have hPath := hCycle.trans_left hBehind
  have hNever {l : Lifecycle} (hGrounded : Grounded definition l.stored) :
      ¬HasCompleted l.stored behind := fun hCompleted =>
    not_acc_of_cycle hCycle hBehind (hGrounded behind (hDef.sliceNode_of_path hPath) hCompleted)
  obtain ⟨l, writers, steps, hRefines⟩ := run.refines hDefinition
  rw [← hRefines.stored]
  have hInv := Run.invariant (P := fun l : Lifecycle => Sound definition l.stored ∧
    Fed definition l ∧ Grounded definition l.stored ∧
    (l.stored.status = .completed → HasSkippedAttempt l.stored behind)) steps
    ⟨.created .., .created .., Grounded.created definition id workflowDefId pinnedWorkerHost input,
      fun hCompleted => by cases hCompleted⟩ ?_
  · exact ⟨hNever hInv.2.2.1, hInv.2.2.2⟩
  · rintro l writer l' ⟨hSound, hFed, hGrounded, hSkipped⟩ hStep
    obtain ⟨hFed', hGrounded'⟩ := Lifecycle.Steps.fed hDef (.single hStep) hSound hFed hGrounded
    exact ⟨Lifecycle.Steps.sound (.single hStep) hSound, hFed', hGrounded',
      HasSkippedAttempt.step (hDef.pathEnd_mem hPath) (hNever hGrounded) hSkipped hStep⟩

/-- Two slices, each of which consumes a task of the other. -/
def tangledSubmitted : WorkflowDef :=
  { sampleSubmitted with
    id := "tangled"
    tasks := [sampleTask "a1" none,
      sampleTask "a2" (some
        { maxIterations := 3, onExhaustedContinue := false, rerunFromTaskId := some "a1" }),
      sampleTask "b1" none,
      sampleTask "b2" (some
        { maxIterations := 3, onExhaustedContinue := false, rerunFromTaskId := some "b1" })]
    dataBindings := [⟨"a2", "a1"⟩, ⟨"b2", "b1"⟩, ⟨"b2", "a1"⟩, ⟨"a2", "b1"⟩] }

/-- Beside the two slices, a task that may exit. -/
def leavingSubmitted : WorkflowDef :=
  { tangledSubmitted with
    tasks := tangledSubmitted.tasks ++ [{ sampleTask "leave" none with control := some ⟨true, none⟩ }] }

theorem leavingSubmitted_accepted :
    (validateAndNormalizeWorkflowDef leavingSubmitted).toOption.isSome := by
  decide +kernel

def leavingDefinition : WorkflowDef :=
  (validateAndNormalizeWorkflowDef leavingSubmitted).toOption.get leavingSubmitted_accepted

def leavingEnv : EngineEnv :=
  { sampleEnv with definitions := fun id => if id = "tangled" then some leavingDefinition else none }

def leavingStart : System := System.created "tangled-1" "tangled" ⟨"host"⟩ none

theorem leaving_cycle : Relation.TransGen (Edge leavingDefinition.sliceEdges) "a2" "a2" := by
  have hFirst : ("a2", "b2") ∈ leavingDefinition.sliceEdges := by decide +kernel
  have hSecond : ("b2", "a2") ∈ leavingDefinition.sliceEdges := by decide +kernel
  exact .tail (.single hFirst) hSecond

/-- Both first tasks run, and then the exit ends the workflow. -/
def leavingPass : List Action :=
  startDraft ++ [succeeds] ++ passSteps 5 ++ [succeeds] ++ passSteps 5 ++ [exitAnswer []] ++
    passSteps 3

theorem leavingPass_runs : ((leavingPass.foldlM (System.step leavingEnv) leavingStart).filter
    fun s => s.stored.status = .completed).isSome := by
  decide +kernel

/-- The second review never completes: the exit, which completes the workflow,
has skipped it. -/
theorem System.Steps.tangled_never_completes_left : ∃ s,
    System.Steps leavingEnv leavingStart leavingPass s ∧ s.stored.status = .completed ∧
      ¬HasCompleted s.stored "b2" ∧ HasSkippedAttempt s.stored "b2" := by
  have hAccepted : validateAndNormalizeWorkflowDef leavingSubmitted = .ok leavingDefinition :=
    eq_ok_get leavingSubmitted_accepted
  have hDefinition : leavingEnv.definitions "tangled" = some leavingDefinition := rfl
  obtain ⟨hFound, hCompleted⟩ := Option.filter_eq_some_iff.mp (Option.some_get leavingPass_runs).symm
  have run : System.Steps leavingEnv leavingStart leavingPass _ := Run.of_foldlM hFound
  have hBehind : ("a2", "b2") ∈ leavingDefinition.sliceEdges := by decide +kernel
  obtain ⟨hNever, hSkipped⟩ := System.Steps.tangled_never_completes hAccepted hDefinition run
    leaving_cycle (.single hBehind)
  exact ⟨_, run, of_decide_eq_true hCompleted, hNever, hSkipped (of_decide_eq_true hCompleted)⟩

end RelayFold
