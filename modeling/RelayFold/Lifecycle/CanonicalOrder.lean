import RelayFold.Engine.HashOrders
import RelayFold.Lifecycle.AttemptOrder
import RelayFold.Lifecycle.SliceOrders

/-! What a pass computes from its hash maps is what it computes from the
canonical maps. The searches for the latest attempt rest on the ids of the
attempts, the lists of ids on their being sorted, and the slice of a task on
the slices being disjoint. -/
namespace RelayFold

open WorkflowEngine FallibleFold

namespace HashOrder

variable {order : HashOrder} {definition : WorkflowDef} {workflow : WorkflowInstance}
  {loopSlices : LoopSlices} {pass : ActivePass} {started : StartedTask}

/-- The sets are only asked for their members, so the slices are those of the
canonical definition, in some order. -/
theorem computeLoopSlices_perm (order : HashOrder) (definition : WorkflowDef) :
    (order.computeLoopSlices definition).Perm (RelayFold.computeLoopSlices definition) := by
  unfold computeLoopSlices RelayFold.computeLoopSlices
  simp only [IterationOrder.mem_order]
  exact order.loopSlices.order_perm _

/-- Whether the slices overlap is found out in every order, since all of them
are gone through unless an overlap is met. -/
theorem validateNonOverlappingVerifierSlices_iff (order : HashOrder) (definition : WorkflowDef) :
    order.validateNonOverlappingVerifierSlices definition = .ok () ↔
      RelayFold.validateNonOverlappingVerifierSlices definition = .ok () := by
  have hPerm := order.computeLoopSlices_perm definition
  have hChecked (slices : LoopSlices) : ((slices.foldlM (fun owners entry =>
      claimSlice entry.1 owners entry.2) []) >>= fun _ => pure ()) = Except.ok () ↔
        (slices.flatMap Prod.snd).Nodup := by
    rw [bind_ok]
    have hUnowned : ∀ taskId ∈ slices.flatMap Prod.snd, ([] : List (String × String)).lookup taskId =
        none := fun _ _ => rfl
    rw [← and_iff_left (a := (slices.flatMap Prod.snd).Nodup) hUnowned, ← claimSlices_iff]
    exact exists_congr fun _ => and_iff_left rfl
  exact (hChecked _).trans ((hPerm.flatMap_right Prod.snd).nodup_iff.trans (hChecked _).symm)

/-- The exit of an attempt is noticed wherever in the map it is found. -/
@[simp] theorem sliceInterruptedByExit_eq :
    order.sliceInterruptedByExit = WorkflowEngine.sliceInterruptedByExit := by
  funext workflow slice
  exact order.tasks.anyValue_eq _ _

/-- The events of an exit are made from the sorted ids, so their order is that
of the ids. -/
@[simp] theorem earlyExitEvents_eq : order.earlyExitEvents = WorkflowEngine.earlyExitEvents := by
  funext workflow id
  simp only [earlyExitEvents, WorkflowEngine.earlyExitEvents, IterationOrder.sortedKeys_eq,
    List.flatMap_map]

/-- The attempts of a generation are listed in the order of the slice, which is
a list and no set. -/
@[simp] theorem materializeGenerationEvents_eq :
    order.materializeGenerationEvents = WorkflowEngine.materializeGenerationEvents := by
  funext workflow slice generation planned
  simp only [materializeGenerationEvents, WorkflowEngine.materializeGenerationEvents,
    sliceInterruptedByExit_eq]

theorem continueTransition_eq :
    order.continueTransition = WorkflowEngine.continueTransition := by
  funext workflow verifierTask verifier slice id generation state taskOutput feedback output
  simp only [continueTransition, WorkflowEngine.continueTransition, rerunEvents,
    WorkflowEngine.rerunEvents, sliceInterruptedByExit_eq, materializeGenerationEvents_eq]

/-- A decision goes through the attempts only to learn whether its slice was
interrupted, so its events are the same in every order. -/
theorem verifierResultTransition_eq :
    order.verifierResultTransition = WorkflowEngine.verifierResultTransition := by
  have hDecision : order.decisionTransition = WorkflowEngine.decisionTransition := by
    funext workflow verifierTask verifier slice id generation state taskOutput result
    unfold decisionTransition
    rw [continueTransition_eq]
    rfl
  funext workflow definition loopSlices id output result
  unfold verifierResultTransition
  rw [hDecision]
  rfl

/-- The commit of a result is the same in every order. -/
theorem resultCommit_eq : order.resultCommit = WorkflowEngine.resultCommit := by
  have hCompleted : order.completedResult = WorkflowEngine.completedResult := by
    funext workflow definition loopSlices id taskDef output events
    unfold completedResult
    rw [verifierResultTransition_eq]
    rfl
  funext ext workflow definition loopSlices id taskDef inputs answer
  unfold resultCommit
  split
  · unfold successResult
    rw [hCompleted, earlyExitEvents_eq]
    rfl
  · rfl

section Keyed

variable (hKeyed : Keyed workflow)
include hKeyed

/-- An attempt is stored under the id that its task and its generation make, so
a task has one attempt of each generation. -/
theorem eq_of_generation (taskDefId : String) {p : TaskInstance → Bool}
    (hTask : ∀ task, p task = true → task.taskDefId = taskDefId) (id : String) (task : TaskInstance)
    (other : String) (otherTask : TaskInstance) (hFound : workflow.tasks.lookup id = some task)
    (hOther : workflow.tasks.lookup other = some otherTask) (hHere : p task = true)
    (hThere : p otherTask = true) (hSame : task.generationIndex = otherTask.generationIndex) :
    id = other := by
  rw [hKeyed id task hFound, hKeyed other otherTask hOther, hTask task hHere,
    hTask otherTask hThere, hSame]

/-- The latest attempt of a task is found in every order: no other attempt of
the task has its generation. -/
theorem latestMaterializedAttemptId_eq (source : String) :
    order.latestMaterializedAttemptId workflow source =
      WorkflowEngine.latestMaterializedAttemptId workflow source := by
  refine order.tasks.maxKeyBy_eq (eq_of_generation hKeyed source fun task h => ?_)
  exact of_decide_eq_true h

/-- The same holds for the latest attempt that is completed and satisfied. -/
theorem latestSatisfiedAttemptId_eq (source : String) :
    order.latestSatisfiedAttemptId workflow source =
      WorkflowEngine.latestSatisfiedAttemptId workflow source := by
  refine order.tasks.maxKeyBy_eq (eq_of_generation hKeyed source fun task h => ?_)
  simp only [Bool.and_eq_true, decide_eq_true_eq] at h
  exact h.1.1

/-- The attempt that a target reads from is the same in every order of the
attempts, for the slices in a given order. -/
theorem resolveSourceAttemptId_eq (loopSlices : LoopSlices) (target : Option String)
    (source : String) : order.resolveSourceAttemptId workflow loopSlices target source =
      WorkflowEngine.resolveSourceAttemptId workflow loopSlices target source := by
  unfold resolveSourceAttemptId
  rw [latestMaterializedAttemptId_eq hKeyed, latestSatisfiedAttemptId_eq hKeyed]
  rfl

/-- The inputs of an attempt are the same in every order. -/
theorem resolveInputs_eq (task : TaskInstance) (taskDef : TaskDef) :
    order.resolveInputs workflow definition task taskDef loopSlices =
      WorkflowEngine.resolveInputs workflow definition task taskDef loopSlices := by
  have hBinding : order.resolveBinding workflow loopSlices task.taskDefId =
      WorkflowEngine.resolveBinding workflow loopSlices task.taskDefId := by
    funext binding
    simp only [resolveBinding, WorkflowEngine.resolveBinding, resolveSourceAttemptId_eq hKeyed]
  simp only [resolveInputs, WorkflowEngine.resolveInputs, hBinding]

/-- Whether a slice may start its first generation does not depend on the order
of the attempts. -/
theorem eligibleStart_eq (verifierTaskId : String) (slice : List String) :
    order.eligibleStart workflow definition loopSlices verifierTaskId slice =
      WorkflowEngine.eligibleStart workflow definition loopSlices verifierTaskId slice := by
  simp only [eligibleStart, WorkflowEngine.eligibleStart, logicalTaskReadyOutsideSlice,
    WorkflowEngine.logicalTaskReadyOutsideSlice, resolveSourceAttemptId_eq hKeyed,
    sliceInterruptedByExit_eq]
  rfl

/-- The batch that starts the first generations, for one order of the
slices. -/
theorem materializeEligibleInitialGenerationEvents_eq :
    order.materializeEligibleInitialGenerationEvents workflow definition loopSlices =
      WorkflowEngine.materializeEligibleInitialGenerationEvents workflow definition loopSlices := by
  have hRest (rest : LoopSlices) (plannedStates plannedAttempts : List String) :
      order.materializeEligible workflow definition loopSlices rest plannedStates plannedAttempts =
        WorkflowEngine.materializeEligible workflow definition loopSlices rest plannedStates
          plannedAttempts := by
    induction rest generalizing plannedStates plannedAttempts with
    | nil => rfl
    | cons entry rest ih =>
        rw [materializeEligible, eligibleStart_eq hKeyed, materializeGenerationEvents_eq]
        simp only [ih]
        rfl
  exact hRest loopSlices [] []

/-- The runnable attempts are collected in any order and sorted, so they are
taken in the order of their ids. -/
theorem tasksToRun_eq : order.tasksToRun workflow definition loopSlices =
    WorkflowEngine.tasksToRun workflow definition loopSlices := by
  have hRuns : order.canRun workflow definition loopSlices =
      WorkflowEngine.canRun workflow definition loopSlices := by
    funext task
    simp only [canRun, WorkflowEngine.canRun, resolveInputs_eq hKeyed]
  simp only [tasksToRun, WorkflowEngine.tasksToRun, hRuns, IterationOrder.sortedKeys_eq,
    IterationOrder.anyValue_eq, FiniteMap.anyValue, List.any_filter, List.filter_filter,
    Bool.and_comm]

/-- What a pass holds of an attempt that it starts is the same in every
order. -/
theorem startedTask_eq (id : String) : order.startedTask workflow definition loopSlices id =
    WorkflowEngine.startedTask workflow definition loopSlices id := by
  simp only [startedTask, WorkflowEngine.startedTask, resolveInputs_eq hKeyed]

/-- Whether a workflow has completed is the same in every order of the
attempts, of the verifier states and of the slices, each of which is looked up
by its verifier. -/
theorem workflowAllCompleted_eq (hDef : WellFormedDef definition) :
    order.workflowAllCompleted workflow definition =
      WorkflowEngine.workflowAllCompleted workflow definition := by
  simp only [workflowAllCompleted, WorkflowEngine.workflowAllCompleted,
    latestMaterializedAttemptId_eq hKeyed, IterationOrder.allEntries_eq, sliceInterruptedByExit_eq,
    lookup_perm hDef (order.computeLoopSlices_perm definition)]

/-- The task loop begins with the same list of attempts in every order. -/
theorem startTasks_eq (atEnd : PassState) :
    order.startTasks pass workflow atEnd = pass.startTasks workflow atEnd := by
  unfold startTasks
  rw [tasksToRun_eq hKeyed]
  rfl

theorem prepareDispatch_eq (ext : Externals) (id : String) (rest : List String) :
    order.prepareDispatch ext pass workflow id rest =
      pass.prepareDispatch ext workflow id rest := by
  unfold prepareDispatch
  rw [startedTask_eq hKeyed]
  rfl

end Keyed

/-- The slices of the execution context are computed anew, but the slice of a
task is the only one that holds it. -/
theorem executionMetadata_eq (hDef : WellFormedDef definition) (ext : Externals)
    (task : TaskInstance) : order.executionMetadata ext workflow definition task =
      WorkflowEngine.executionMetadata ext workflow definition task := by
  simp only [executionMetadata, WorkflowEngine.executionMetadata, loopExecutionContext,
    WorkflowEngine.loopExecutionContext,
    sliceOf_perm hDef (order.computeLoopSlices_perm definition)]

section Operations

variable (hDef : WellFormedDef pass.definition) (hKeyed : Keyed workflow)
include hDef hKeyed

/-- One iteration of the main loop is the same in every order, for the slices
in the order of the pass. -/
theorem enterLoop_eq : order.enterLoop pass workflow = pass.enterLoop workflow := by
  simp only [enterLoop, ActivePass.enterLoop, leaveLoop, ActivePass.leaveLoop,
    materializeEligibleInitialGenerationEvents_eq hKeyed, startTasks_eq hKeyed,
    workflowAllCompleted_eq hKeyed hDef]

theorem initializeTasks_eq : order.initializeTasks pass workflow = pass.initializeTasks workflow := by
  simp only [initializeTasks, ActivePass.initializeTasks, enterLoop_eq hDef hKeyed]

/-- A pass goes on alike in every order once the result of an attempt is
stored. -/
theorem afterResult_eq (result : ResultCommit) (rest : List String) :
    order.afterResult pass result rest workflow = pass.afterResult result rest workflow := by
  unfold afterResult
  rw [workflowAllCompleted_eq hKeyed hDef, enterLoop_eq hDef hKeyed]
  rfl

end Operations

theorem answered_eq (ext : Externals) (pass : ActivePass) (started : StartedTask)
    (rest : List String) (answer : Answer) :
    order.answered ext pass started rest answer = pass.answered ext started rest answer := by
  unfold answered
  rw [resultCommit_eq]
  rfl

/-- An attempt is dispatched with the same call in every order. -/
theorem dispatch_eq (hDef : WellFormedDef pass.definition) (env : EngineEnv)
    (started : StartedTask) (rest : List String) :
    order.dispatch env pass started rest = pass.dispatch env started rest := by
  unfold dispatch ActivePass.dispatch
  simp only [answered_eq, dispatchCall, executionMetadata_eq hDef]
  rfl

/-- A commit goes on alike when the operations after it agree on the snapshot
that is stored. -/
theorem commit_congr {stored base : WorkflowInstance} {events : List WorkflowInstanceEvent}
    {next next' : WorkflowInstance → PassState}
    (h : ∀ updated, (ActivePass.commit stored base events next').2 = some updated →
      next updated = next' updated) :
    ActivePass.commit stored base events next = ActivePass.commit stored base events next' := by
  unfold ActivePass.commit at h ⊢
  split
  · rename_i updated hCommit
    rw [hCommit] at h
    rw [h updated rfl]
  · rfl

/-- The next operation of a pass is the same in every order, if what it stores
has the attempts under their ids. -/
theorem stepActive_eq (hDef : WellFormedDef pass.definition) {env : EngineEnv}
    {stored : WorkflowInstance}
    (hKeyed : ∀ updated, (pass.step env stored).2 = some updated → Keyed updated) :
    order.stepActive env stored pass = pass.step env stored := by
  unfold stepActive
  unfold ActivePass.step at hKeyed ⊢
  cases hPoint : pass.point with
  | commitRunning =>
      rw [hPoint] at hKeyed
      exact commit_congr fun updated hSaved => initializeTasks_eq hDef (hKeyed updated hSaved)
  | commitInitialTasks =>
      rw [hPoint] at hKeyed
      exact commit_congr fun updated hSaved => enterLoop_eq hDef (hKeyed updated hSaved)
  | commitGenerations events =>
      rw [hPoint] at hKeyed
      refine commit_congr fun updated hSaved => ?_
      rw [enterLoop_eq hDef (hKeyed updated hSaved), startTasks_eq (hKeyed updated hSaved)]
  | commitStart id rest =>
      rw [hPoint] at hKeyed
      exact commit_congr fun updated hSaved => prepareDispatch_eq (hKeyed updated hSaved) ..
  | resolveFunction started rest =>
      dsimp only
      rw [dispatch_eq hDef]
  | commitResult started answer result base rest =>
      rw [hPoint] at hKeyed
      exact commit_congr fun updated hSaved => afterResult_eq hDef (hKeyed updated hSaved) ..
  | _ => rfl

end HashOrder

end RelayFold
