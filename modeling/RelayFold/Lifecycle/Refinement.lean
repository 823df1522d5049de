import RelayFold.Lifecycle.PassInvariant

/-! The system refines the life of the instance: whatever the writers
interleave, every accepted commit is one that the replaced snapshot allows. -/
namespace RelayFold

open WorkflowEngine WorkflowStateManager WorkflowService FallibleFold

/-- The state is one that a pass may reach, after it has looked for ready
attempts. -/
def Goes (ext : Externals) (definition : WorkflowDef) (plan : List String) (s : System)
    (pass : PassState) : Prop :=
  ∃ plan' writers, Lifecycle.Steps ext definition ⟨s.stored, plan⟩ writers ⟨s.stored, plan'⟩ ∧
    (∀ writer ∈ writers, writer = .pass) ∧ PassInv ext definition plan' s pass

/-- A pass in its main loop whose snapshot is the stored one. -/
structure InLoop (definition : WorkflowDef) (s : System) (pass : ActivePass) : Prop where
  loaded : pass.definition = definition
  slices : pass.loopSlices.Perm (computeLoopSlices definition)
  running : s.stored.status = .running
  sound : Sound definition s.stored

section Continue

variable {ext : Externals} {definition : WorkflowDef} {plan : List String} {s : System}
  {pass : ActivePass}

theorem Goes.of_passInv {state : PassState} (h : PassInv ext definition plan s state) :
    Goes ext definition plan s state :=
  ⟨plan, [], .nil _, (fun _ h => nomatch h), h⟩

theorem InLoop.working (h : InLoop definition s pass) : Working s.stored s.stored :=
  ⟨.refl _, by simp [h.running], h.sound.failedOnce.noneFailed (by simp [h.running])⟩

theorem InLoop.goOn (h : InLoop definition s pass) {point : PassPoint}
    (hPoint : PointInv ext definition plan s { pass with workflow := s.stored, point := point }) :
    Goes ext definition plan s (pass.goOn s.stored point) :=
  .of_passInv ⟨h.loaded, h.slices, List.mem_cons_self, hPoint⟩

theorem InLoop.leaveLoop (h : InLoop definition s pass) (plan : List String) :
    Goes ext definition plan s (pass.leaveLoop s.stored) := by
  unfold ActivePass.leaveLoop
  rw [h.loaded]
  split
  · rename_i hAll
    exact h.goOn ⟨h.running, hAll⟩
  · exact .of_passInv trivial

theorem InLoop.nextTask (h : InLoop definition s pass) {atEnd : PassState}
    (hEnd : ∀ plan, Goes ext definition plan s atEnd) {ids : List String}
    (hIds : ∀ id ∈ ids, id ∈ plan) :
    Goes ext definition plan s (pass.nextTask s.stored atEnd ids) := by
  induction ids with
  | nil => exact hEnd plan
  | cons id rest ih =>
      have hRest : ∀ id ∈ rest, id ∈ plan := fun other hMem => hIds other (List.mem_cons_of_mem _ hMem)
      unfold ActivePass.nextTask
      cases hTask : s.stored.tasks.lookup id with
      | none => exact .of_passInv trivial
      | some task =>
          dsimp only
          split
          · exact ih hRest
          · rename_i hPending
            exact h.goOn ⟨h.running, h.working, hIds id List.mem_cons_self, hRest, task, hTask,
              not_not.mp hPending⟩

theorem InLoop.startTasks (h : InLoop definition s pass)
    (hStarted : Lifecycle.GenerationsStarted definition pass.loopSlices s.stored)
    {atEnd : PassState} (hEnd : ∀ plan, Goes ext definition plan s atEnd) :
    Goes ext definition plan s (pass.startTasks s.stored atEnd) := by
  unfold ActivePass.startTasks
  rw [h.loaded]
  cases hReady : tasksToRun s.stored definition pass.loopSlices with
  | none => exact .of_passInv trivial
  | some ready =>
      have hPlan : ∀ id ∈ ready, id ∈ ready := fun _ hMem => hMem
      obtain ⟨plan', writers, run, hWriters, hInv⟩ := h.nextTask hEnd hPlan
      have hSchedule : Lifecycle.Step ext definition ⟨s.stored, plan⟩ .pass ⟨s.stored, ready⟩ :=
        .schedule h.running h.slices hStarted hReady
      refine ⟨plan', [.pass] ++ writers, (Run.single hSchedule).trans run, ?_, hInv⟩
      simpa using hWriters

theorem generationsStarted_of_isEmpty {loopSlices : LoopSlices} {workflow : WorkflowInstance}
    (hTasks : TasksInitialized definition workflow)
    (hSlices : loopSlices.Perm (computeLoopSlices definition))
    (hEmpty : (materializeEligibleInitialGenerationEvents workflow definition
      loopSlices).isEmpty = true) :
    Lifecycle.GenerationsStarted definition loopSlices workflow := by
  intro entry hEntry
  cases hStart : eligibleStart workflow definition loopSlices entry.1 entry.2 with
  | none => rfl
  | some start =>
      have hExisting : ∀ entry ∈ loopSlices, ∀ taskId ∈ entry.2,
          (workflow.tasks.lookup (makeTaskAttemptId taskId 1)).isSome :=
        fun entry hEntry taskId hMem =>
          hTasks.isSome (slice_subset_taskIds (hSlices.mem_iff.mp hEntry) taskId hMem)
      rcases (materializeEligible_events hExisting [] []).2 entry hEntry (by rw [hStart]; rfl) with
        hPlanned | ⟨state, hMem⟩
      · cases hPlanned
      · rw [show materializeEligible workflow definition loopSlices loopSlices [] [] = [] from
          List.isEmpty_iff.mp hEmpty] at hMem
        cases hMem

theorem InLoop.enterLoop (h : InLoop definition s pass)
    (hTasks : TasksInitialized definition s.stored) (plan : List String) :
    Goes ext definition plan s (pass.enterLoop s.stored) := by
  unfold ActivePass.enterLoop
  rw [h.loaded]
  dsimp only
  split
  · rename_i hEmpty
    exact h.startTasks (generationsStarted_of_isEmpty hTasks h.slices hEmpty) h.leaveLoop
  · exact h.goOn ⟨h.running, h.working, hTasks, rfl⟩

theorem InLoop.initializeTasks (h : InLoop definition s pass) :
    Goes ext definition plan s (pass.initializeTasks s.stored) := by
  unfold ActivePass.initializeTasks
  rw [h.loaded]
  split
  · rename_i hEmpty
    rw [Bool.and_eq_true] at hEmpty
    exact h.goOn ⟨h.running, h.working, hEmpty.1⟩
  · rename_i hOld
    refine h.enterLoop ?_ plan
    cases hTasks : s.stored.tasks.isEmpty with
    | false => exact h.sound.initialized hTasks
    | true =>
        have hNone : definition.tasks = [] := by simpa [hTasks, initialTaskEvents] using hOld
        intro taskDef hMem
        rw [hNone] at hMem
        cases hMem

theorem InLoop.prepareDispatch (h : InLoop definition s pass) {id : String} {task : TaskInstance}
    (hTask : s.stored.tasks.lookup id = some task) (hRunning : task.status = .running)
    {rest : List String} (hRest : ∀ id ∈ rest, id ∈ plan) :
    Goes ext definition plan s (pass.prepareDispatch ext s.stored id rest) := by
  unfold ActivePass.prepareDispatch
  rw [h.loaded]
  cases hStarted : startedTask s.stored definition pass.loopSlices id with
  | none => exact .of_passInv trivial
  | some started =>
      obtain ⟨hId, hLookup, _⟩ := startedTask_eq hStarted
      have hStartedInv : Started definition pass.loopSlices s.stored started := by
        rw [hTask] at hLookup
        cases hLookup
        exact ⟨hId ▸ hStarted, hRunning⟩
      dsimp only
      cases hValid : validateInputs ext started.taskDef started.inputs.values with
      | error error => exact h.goOn ⟨h.running, h.working, hStartedInv, hValid⟩
      | ok _ => exact h.goOn ⟨h.running, h.working, hStartedInv, hRest⟩

/-- After a result the pass goes on only if the result is work alone. -/
theorem afterResult_goes {result : ResultCommit} {rest : List String}
    (hLoaded : pass.definition = definition)
    (hSlices : pass.loopSlices.Perm (computeLoopSlices definition))
    (hSound : Sound definition s.stored)
    (hTasks : s.stored.tasks.isEmpty = false)
    (hRest : ∀ id ∈ rest, id ∈ plan)
    (hStatus : result.next = .checkPause none →
      s.stored.status = .running ∨ s.stored.status = .paused) :
    Goes ext definition plan s (pass.afterResult result rest s.stored) := by
  unfold ActivePass.afterResult
  cases hNext : result.next with
  | stop _ => exact .of_passInv trivial
  | checkPause errorMessage =>
      dsimp only
      split
      · rename_i hPaused
        rw [hLoaded]
        split
        · rename_i hAll
          exact .of_passInv ⟨hLoaded, hSlices, List.mem_cons_self, hPaused, hAll⟩
        · exact .of_passInv trivial
      · rename_i hNotPaused
        cases errorMessage with
        | some message => exact .of_passInv trivial
        | none =>
            have hLoop : InLoop definition s pass :=
              ⟨hLoaded, hSlices, (hStatus hNext).resolve_right hNotPaused, hSound⟩
            exact hLoop.nextTask (hLoop.enterLoop (hSound.initialized hTasks)) hRest

end Continue

/-- The writer behind an action. -/
def Action.writer : Action → Writer
  | .request .pauseWorkflow _ => .pause
  | .request .resumeWorkflow _ => .resume
  | .request (.submitHumanInput ..) _ => .humanInput
  | .request (.retryTask _) _ | .request (.forceRetryTask ..) _ => .retry
  | .request (.failPinnedToLostHosts _) _ => .hostLost
  | .recover .. => .recovery
  | _ => .pass

/-- The system state refines the lifecycle state. -/
structure Refines (env : EngineEnv) (definition : WorkflowDef) (s : System) (l : Lifecycle) :
    Prop where
  stored : l.stored = s.stored
  history : HistoryInv env definition s
  sound : Sound definition s.stored
  pass : PassInv env.ext definition l.plan s s.pass

/-- A step of the system leaves the snapshots as they are, or commits one
more. -/
inductive Extends (ext : Externals) (definition : WorkflowDef) (writer : Writer) (s s' : System) :
    Prop
  | same (hStored : s'.stored = s.stored) (hPast : s'.past = s.past)
  | written {plan plan' : List String} {events : List WorkflowInstanceEvent}
      {reduced : WorkflowInstance}
      (hWrite : Write ext definition ⟨s.stored, plan⟩ writer events plan')
      (hReduce : reduceWorkflowInstanceEvents (some s.stored) events = .ok reduced)
      (hStored : s'.stored = reduced.withVersion (s.stored.version + events.length))
      (hPast : s'.past = s.snapshots)

/-- Lifecycle steps of one writer lead to a state that the new system state
refines. -/
structure StepsTo (env : EngineEnv) (definition : WorkflowDef) (s : System) (l : Lifecycle)
    (writer : Writer) (s' : System) : Prop where
  lifecycle : ∃ l' writers, Lifecycle.Steps env.ext definition l writers l' ∧
    (∀ other ∈ writers, other = writer) ∧ Refines env definition s' l'
  extended : Extends env.ext definition writer s s'

section Step

variable {env : EngineEnv} {definition : WorkflowDef} {s : System} {l : Lifecycle}

theorem PassInv.of_setPass {ext : Externals} {plan : List String} {pass other : PassState}
    (h : PassInv ext definition plan s pass) :
    PassInv ext definition plan (s.setPass other) pass := by
  cases pass with
  | active pass => exact ⟨h.loaded, h.slices, h.held, h.point⟩
  | _ => exact h

theorem Refines.setPass (h : Refines env definition s l) {pass : PassState}
    (hPass : PassInv env.ext definition l.plan s pass) :
    Refines env definition (s.setPass pass) l :=
  ⟨h.stored, ⟨h.history.older, h.history.defId⟩, h.sound, hPass.of_setPass⟩

/-- A commit on the stored snapshot is a lifecycle step, and the pass goes on
from it. -/
theorem Refines.write {plan : List String} (h : Refines env definition s ⟨s.stored, plan⟩)
    {writer : Writer} {events : List WorkflowInstanceEvent} {plan' : List String}
    {updated : WorkflowInstance} {pass : PassState}
    (hCommit : commitOn s.stored s.stored events = .ok updated)
    (hWrite : Write env.ext definition ⟨s.stored, plan⟩ writer events plan')
    (hPass : Sound definition updated → ∃ plan'' writers,
      Lifecycle.Steps env.ext definition ⟨updated, plan'⟩ writers ⟨updated, plan''⟩ ∧
        (∀ other ∈ writers, other = writer) ∧
        PassInv env.ext definition plan'' (s.saved updated) pass) :
    StepsTo env definition s ⟨s.stored, plan⟩ writer ((s.saved updated).setPass pass) := by
  obtain ⟨hEvents, _, reduced, hReduce, rfl⟩ := commitOn_ok hCommit
  have hSound := (hWrite.sound hReduce h.sound).withVersion (s.stored.version + events.length)
  obtain ⟨plan'', writers, run, hWriters, hInv⟩ := hPass hSound
  refine ⟨⟨⟨_, plan''⟩, [writer] ++ writers, (Run.single (.write hWrite hReduce)).trans run, ?_, rfl,
    h.history.saved hEvents hReduce pass, hSound, hInv.of_setPass⟩, .written hWrite hReduce rfl rfl⟩
  simpa using hWriters

theorem Refines.stepsTo (h : Refines env definition s l) {pass : PassState}
    (hPass : PassInv env.ext definition l.plan s pass) (writer : Writer) :
    StepsTo env definition s l writer (s.setPass pass) :=
  ⟨⟨l, [], .nil l, (fun _ h => nomatch h), h.setPass hPass⟩, .same rfl rfl⟩

theorem Refines.stays (h : Refines env definition s l) (writer : Writer) :
    StepsTo env definition s l writer s :=
  ⟨⟨l, [], .nil l, (fun _ h => nomatch h), h⟩, .same rfl rfl⟩

theorem commitOn_effected {stored updated : WorkflowInstance}
    {events : List WorkflowInstanceEvent} (h : commitOn stored stored events = .ok updated) :
    BatchEffected events stored updated := by
  obtain ⟨_, _, reduced, hReduce, rfl⟩ := commitOn_ok h
  have hEffect := reduceWorkflowInstanceEvents_effected hReduce
  exact ⟨hEffect.verifierState, hEffect.status, hEffect.pin, hEffect.task⟩

/-- The system after an operation of its pass. -/
def System.advance (s : System) : PassState × Option WorkflowInstance → System
  | (pass, none) => s.setPass pass
  | (pass, some updated) => (s.saved updated).setPass pass

theorem System.step_passStep (env : EngineEnv) (s : System) :
    s.step env .passStep = some (s.advance (s.pass.step env s.stored)) := by
  simp only [System.step, System.advance]
  rcases s.pass.step env s.stored with ⟨pass, _ | updated⟩ <;> rfl

/-- A commit of the pass on a snapshot it has seen. -/
theorem Refines.passCommit {plan : List String} (h : Refines env definition s ⟨s.stored, plan⟩)
    {base : WorkflowInstance} {events : List WorkflowInstanceEvent}
    {next : WorkflowInstance → PassState} (hHeld : base ∈ s.snapshots)
    (hWrite : base = s.stored → ∃ plan', Write env.ext definition ⟨s.stored, plan⟩ .pass events plan' ∧
      ∀ updated, commitOn s.stored s.stored events = .ok updated → Sound definition updated →
        Goes env.ext definition plan' (s.saved updated) (next updated)) :
    StepsTo env definition s ⟨s.stored, plan⟩ .pass
      (s.advance (ActivePass.commit s.stored base events next)) := by
  unfold ActivePass.commit
  cases hCommit : commitOn s.stored base events with
  | error error =>
      have hPass : PassInv env.ext definition plan s (.finished (.error error.display)) := trivial
      exact h.stepsTo hPass _
  | ok updated =>
      have hBase := h.history.eq_stored hHeld (commitOn_ok hCommit).2.1
      subst hBase
      obtain ⟨plan', hAllowed, hNext⟩ := hWrite rfl
      refine h.write hCommit hAllowed fun hSound => ?_
      obtain ⟨plan'', writers, run, hWriters, hInv⟩ :=
        hNext updated hCommit hSound
      exact ⟨plan'', writers, run, hWriters, hInv⟩

theorem Started.of_sameWork {loopSlices : LoopSlices} {a b : WorkflowInstance}
    {started : StartedTask} (h : Started definition loopSlices a started) (hSame : SameWork a b) :
    Started definition loopSlices b started := by
  rw [hSame]
  exact ⟨h.resolved, h.running⟩

/-- The pass turns an answer into a commit. -/
theorem ActiveInv.answered {ext : Externals} {plan : List String} {pass : ActivePass}
    (h : ActiveInv ext definition plan s pass) (hRunning : pass.workflow.status = .running)
    (hWorking : Working s.stored pass.workflow) {started : StartedTask}
    (hStarted : Started definition pass.loopSlices pass.workflow started) {rest : List String}
    (hRest : ∀ id ∈ rest, id ∈ plan) (answer : Answer) :
    PassInv ext definition plan s (pass.answered ext started rest answer) := by
  unfold ActivePass.answered
  rw [h.loaded]
  cases hResult : resultCommit ext pass.workflow definition pass.loopSlices started.taskAttemptId
      started.taskDef started.inputs answer with
  | error message => trivial
  | ok result => exact ⟨h.loaded, h.slices, h.held, hRunning, hWorking, hStarted, hRest, hResult⟩

theorem ActiveInv.dispatch {plan : List String} {pass : ActivePass}
    (h : ActiveInv env.ext definition plan s pass) (hRunning : pass.workflow.status = .running)
    (hWorking : Working s.stored pass.workflow) {started : StartedTask}
    (hStarted : Started definition pass.loopSlices pass.workflow started) {rest : List String}
    (hRest : ∀ id ∈ rest, id ∈ plan) :
    PassInv env.ext definition plan s (pass.dispatch env started rest) := by
  unfold ActivePass.dispatch
  cases resolveTaskFunctionRef env.functionDefs started.taskDef with
  | error error => exact h.answered hRunning hWorking hStarted hRest _
  | ok resolved =>
      dsimp only
      cases started.taskDef.effectiveOutputSchema with
      | error message => trivial
      | ok schema =>
          exact ⟨h.loaded, h.slices, h.held, hRunning, hWorking, hStarted, hRest, env, _, rfl, rfl⟩

/-- A result decided on the snapshot of a pass is one of the stored snapshot as
well. -/
theorem Working.recorded {ext : Externals} {stored workflow : WorkflowInstance}
    (h : Working stored workflow) {loopSlices : LoopSlices} {id : String} {taskDef : TaskDef}
    {inputs : ResolvedTaskInputs} {answer : Answer} {result : ResultCommit}
    (hResult : resultCommit ext workflow definition loopSlices id taskDef inputs answer =
      .ok result) : Recorded ext stored definition loopSlices id taskDef inputs answer result := by
  have hStored : resultCommit ext stored definition loopSlices id taskDef inputs answer =
      .ok result := by
    rw [h.same, resultCommit_marked]
    exact hResult
  exact resultCommit_ok hStored

/-- The batch that a pass commits next, and the snapshot on which it was
decided. -/
def ActivePass.batch (pass : ActivePass) : Option (WorkflowInstance × List WorkflowInstanceEvent) :=
  match pass.point with
  | .commitRunning => some (pass.workflow, [.workflowStatusChanged .running])
  | .commitInitialTasks => some (pass.workflow, initialTaskEvents pass.workflow pass.definition)
  | .commitGenerations events => some (pass.workflow, events)
  | .commitStart taskAttemptId _ =>
      some (pass.workflow, [.taskStatusChanged taskAttemptId .running])
  | .commitInputFailure started _ =>
      some (pass.workflow, failureEvents started.taskAttemptId started.inputs)
  | .commitResult _ _ result base _ => some (base, result.events)
  | .commitPauseCompleted | .commitCompleted =>
      some (pass.workflow, [.workflowStatusChanged .completed])
  | .checkPaused .. | .resolveFunction .. | .awaitAnswer .. | .readCurrent .. => none

/-- The plan after the commit: the commits before the task loop leave none. -/
def PassPoint.planAfter (plan : List String) : PassPoint → List String
  | commitRunning | commitInitialTasks | commitGenerations _ => []
  | _ => plan

/-- The snapshot on which a result is to be recorded is running, or paused, and
it has been stored. -/
theorem ActiveInv.resultBase {ext : Externals} {plan : List String} {pass : ActivePass}
    (hInv : ActiveInv ext definition plan s pass) {started : StartedTask} {answer : Answer}
    {result : ResultCommit} {base : WorkflowInstance} {rest : List String}
    (hCase : pass.point = .commitResult started answer result base rest) :
    base ∈ s.snapshots ∧ (base.status = .running ∨ base.status = .paused) := by
  have hPoint := hInv.point
  unfold PointInv at hPoint
  simp only [hCase] at hPoint
  obtain ⟨hRunning, _, _, _, _, rfl | ⟨hBase, hPaused, _⟩⟩ := hPoint
  · exact ⟨hInv.held, .inl hRunning⟩
  · exact ⟨hBase, .inr hPaused⟩

/-- A pass commits on a snapshot that has been stored. -/
theorem ActiveInv.batch_held {ext : Externals} {plan : List String} {pass : ActivePass}
    (hInv : ActiveInv ext definition plan s pass) {base : WorkflowInstance}
    {events : List WorkflowInstanceEvent} (hBatch : pass.batch = some (base, events)) :
    base ∈ s.snapshots := by
  unfold ActivePass.batch at hBatch
  cases hCase : pass.point with
  | commitResult started answer result base' rest =>
      simp only [hCase] at hBatch
      cases hBatch
      exact (hInv.resultBase hCase).1
  | checkPaused _ _ | resolveFunction _ _ | awaitAnswer _ _ _ | readCurrent _ _ _ _ =>
      simp only [hCase, reduceCtorEq] at hBatch
  | _ =>
      simp only [hCase] at hBatch
      cases hBatch
      exact hInv.held

/-- What a pass commits is allowed, if it was decided on the stored snapshot:
this is the one place where the points of a pass meet the writes of the
lifecycle. -/
theorem ActiveInv.allowed {ext : Externals} {plan : List String} {pass : ActivePass}
    (hInv : ActiveInv ext definition plan s pass) {base : WorkflowInstance}
    {events : List WorkflowInstanceEvent} (hBatch : pass.batch = some (base, events))
    (hStored : base = s.stored) :
    Write ext definition ⟨s.stored, plan⟩ .pass events (pass.point.planAfter plan) := by
  have hPoint := hInv.point
  unfold PointInv at hPoint
  unfold ActivePass.batch at hBatch
  cases hCase : pass.point with
  | commitRunning =>
      simp only [hCase] at hPoint hBatch
      cases hBatch
      exact .begin (hStored ▸ hPoint)
  | commitInitialTasks =>
      simp only [hCase] at hPoint hBatch
      cases hBatch
      rw [hStored, hInv.loaded]
      exact .initialTasks (hStored ▸ hPoint.1) (hStored ▸ hPoint.2.2)
  | commitGenerations events =>
      simp only [hCase] at hPoint hBatch
      cases hBatch
      obtain ⟨hRunning, _, hTasks, rfl⟩ := hPoint
      rw [hStored] at hRunning hTasks ⊢
      exact .initialGenerations hRunning hTasks hInv.slices
  | commitStart id rest =>
      simp only [hCase] at hPoint hBatch
      cases hBatch
      obtain ⟨hRunning, _, hPlanned, _, task, hTask, hPending⟩ := hPoint
      rw [hStored] at hRunning hTask
      exact .start hRunning hPlanned hTask hPending
  | commitInputFailure started error =>
      simp only [hCase] at hPoint hBatch
      cases hBatch
      obtain ⟨hRunning, _, hStarted, hInvalid⟩ := hPoint
      rw [hStored] at hRunning hStarted
      exact .inputFailure hRunning hInv.slices hStarted.resolved hStarted.running hInvalid
  | commitResult started answer result base' rest =>
      have hBase := (hInv.resultBase hCase).2
      simp only [hCase] at hPoint hBatch
      cases hBatch
      obtain ⟨_, hWorking, hStarted, _, hResult, _⟩ := hPoint
      have hStoredStarted := hStarted.of_sameWork hWorking.same
      exact .result (hStored ▸ hBase) hInv.slices hStoredStarted.resolved hStoredStarted.running
        (hWorking.recorded hResult)
  | commitPauseCompleted =>
      simp only [hCase] at hPoint hBatch
      cases hBatch
      rw [hStored] at hPoint
      exact .complete (.inr hPoint.1) hPoint.2
  | commitCompleted =>
      simp only [hCase] at hPoint hBatch
      cases hBatch
      rw [hStored] at hPoint
      exact .complete (.inl hPoint.1) hPoint.2
  | checkPaused _ _ | resolveFunction _ _ | awaitAnswer _ _ _ | readCurrent _ _ _ _ =>
      simp only [hCase, reduceCtorEq] at hBatch

/-- A running snapshot of a pass in flight is one from which its loop goes
on. -/
theorem ActiveInv.inLoop {ext : Externals} {plan : List String} {pass : ActivePass}
    (hInv : ActiveInv ext definition plan s pass) {updated : WorkflowInstance}
    (hStatus : updated.status = .running) (hSound : Sound definition updated) :
    InLoop definition (s.saved updated) pass :=
  ⟨hInv.loaded, hInv.slices, hStatus, hSound⟩

/-- The pass enters its loop with the first attempts. -/
theorem ActiveInv.initialTasks_goes {ext : Externals} {plan : List String} {pass : ActivePass}
    (hInv : ActiveInv ext definition plan s pass) {updated : WorkflowInstance}
    (hRunning : s.stored.status = .running)
    (hCommit : commitOn s.stored s.stored (initialTaskEvents s.stored definition) = .ok updated)
    (hSound : Sound definition updated) (plan' : List String) :
    Goes ext definition plan' (s.saved updated) (pass.enterLoop updated) := by
  have hEffect := commitOn_effected hCommit
  have hStatus : updated.status = .running := by
    rw [hEffect.status, foldl_statusEffect_of_work (by simp [initialTaskEvents,
      WorkflowInstanceEvent.isWork])]
    exact hRunning
  exact (hInv.inLoop hStatus hSound).enterLoop (initialTaskEvents_initialized hEffect) _

/-- The pass starts tasks once the generations that were due are started. -/
theorem ActiveInv.generations_goes {ext : Externals} {plan : List String} {pass : ActivePass}
    (hInv : ActiveInv ext definition plan s pass) {updated : WorkflowInstance}
    (hRunning : s.stored.status = .running) (hTasks : TasksInitialized definition s.stored)
    (hCommit : commitOn s.stored s.stored (materializeEligibleInitialGenerationEvents s.stored
      definition pass.loopSlices) = .ok updated)
    (hSound : Sound definition updated) (plan' : List String) :
    Goes ext definition plan' (s.saved updated)
      (pass.startTasks updated (pass.enterLoop updated)) := by
  obtain ⟨_, _, reduced, hReduce, rfl⟩ := commitOn_ok hCommit
  have hAfter := (initialGenerations_after hTasks hInv.slices hReduce).withVersion
    (s.stored.version + (materializeEligibleInitialGenerationEvents s.stored definition
      pass.loopSlices).length)
  have hLoop := hInv.inLoop (hAfter.status.trans hRunning) hSound
  refine hLoop.startTasks hAfter.generationsStarted fun plan => hLoop.enterLoop ?_ plan
  intro taskDef hMem
  change Option.isSome (Finmap.lookup _ (reduced.withVersion _).tasks) = true
  rw [hAfter.tasks]
  exact hTasks taskDef hMem

/-- The pass prepares the dispatch of the attempt that it has started. -/
theorem ActiveInv.start_goes {plan : List String} {pass : ActivePass}
    (hInv : ActiveInv env.ext definition plan s pass) {updated : WorkflowInstance} {id : String}
    {task : TaskInstance} {rest : List String} (hRunning : s.stored.status = .running)
    (hTask : s.stored.tasks.lookup id = some task) (hRest : ∀ id ∈ rest, id ∈ plan)
    (hCommit : commitOn s.stored s.stored [.taskStatusChanged id .running] = .ok updated)
    (hSound : Sound definition updated) :
    Goes env.ext definition plan (s.saved updated)
      (pass.prepareDispatch env.ext updated id rest) := by
  have hEffect := commitOn_effected hCommit
  have hLookup : updated.tasks.lookup id = some { task with status := .running } := by
    rw [hEffect.task (by simp [WorkflowInstanceEvent.isLocal])]
    simp [WorkflowInstanceEvent.taskEffect, hTask]
  exact (hInv.inLoop (hEffect.status.trans hRunning) hSound).prepareDispatch hLookup rfl hRest

/-- The pass goes on as a recorded result says, also where a pause has come
before it. -/
theorem ActiveInv.result_goes {ext : Externals} {plan : List String} {pass : ActivePass}
    (hInv : ActiveInv ext definition plan s pass) {updated : WorkflowInstance}
    {started : StartedTask} {answer : Answer} {result : ResultCommit} {rest : List String}
    (hBase : s.stored.status = .running ∨ s.stored.status = .paused)
    (hStarted : Started definition pass.loopSlices s.stored started)
    (hRest : ∀ id ∈ rest, id ∈ plan)
    (hRecorded : Recorded ext s.stored definition pass.loopSlices started.taskAttemptId
      started.taskDef started.inputs answer result)
    (hCommit : commitOn s.stored s.stored result.events = .ok updated)
    (hSound : Sound definition updated) :
    Goes ext definition plan (s.saved updated) (pass.afterResult result rest updated) := by
  have hTask := (startedTask_eq hStarted.resolved).2.1
  obtain ⟨_, _, reduced, hReduce, rfl⟩ := commitOn_ok hCommit
  obtain ⟨task, hTask⟩ := Option.isSome_iff_exists.mp (foldlM_keeps hReduce (by rw [hTask]; rfl))
  refine afterResult_goes hInv.loaded hInv.slices hSound
    (FiniteMap.isEmpty_eq_false_of_lookup _ hTask) hRest fun hNext => ?_
  change reduced.status = _ ∨ reduced.status = _
  rw [(reduceWorkflowInstanceEvents_effected hReduce).status,
    foldl_statusEffect_of_work (hRecorded.goesOn hNext).1]
  exact hBase

/-- The snapshot on which a result is to be recorded is the one of the pass, or
a paused one that was stored after it. -/
theorem ActiveInv.readCurrent {ext : Externals} {plan : List String} {pass : ActivePass}
    (hInv : ActiveInv ext definition plan s pass) {started : StartedTask} {answer : Answer}
    {result : ResultCommit} {rest : List String} (hRunning : pass.workflow.status = .running)
    (hWorking : Working s.stored pass.workflow)
    (hStarted : Started definition pass.loopSlices pass.workflow started)
    (hRest : ∀ id ∈ rest, id ∈ plan)
    (hResult : resultCommit ext pass.workflow definition pass.loopSlices started.taskAttemptId
      started.taskDef started.inputs answer = .ok result) :
    PassInv ext definition plan s (pass.goOn pass.workflow
      (.commitResult started answer result (pass.resultBase (some s.stored)) rest)) := by
  refine ⟨hInv.loaded, hInv.slices, hInv.held, hRunning, hWorking, hStarted, hRest, hResult, ?_⟩
  simp only [ActivePass.resultBase]
  split
  · rename_i hPaused
    exact .inr ⟨List.mem_cons_self, hPaused, hWorking.same⟩
  · exact .inl rfl

/-- The store operation of a pass in flight. -/
theorem Refines.activeStep {plan : List String} (h : Refines env definition s ⟨s.stored, plan⟩)
    {pass : ActivePass} (hInv : ActiveInv env.ext definition plan s pass) :
    StepsTo env definition s ⟨s.stored, plan⟩ .pass (s.advance (pass.step env s.stored)) := by
  have hCommits {base : WorkflowInstance} {events : List WorkflowInstanceEvent}
      {next : WorkflowInstance → PassState} (hBatch : pass.batch = some (base, events))
      (hNext : base = s.stored → ∀ updated, commitOn s.stored s.stored events = .ok updated →
        Sound definition updated →
          Goes env.ext definition (pass.point.planAfter plan) (s.saved updated) (next updated)) :
      StepsTo env definition s ⟨s.stored, plan⟩ .pass
        (s.advance (ActivePass.commit s.stored base events next)) :=
    h.passCommit (hInv.batch_held hBatch) fun hStored =>
      ⟨_, hInv.allowed hBatch hStored, hNext hStored⟩
  have hPoint := hInv.point
  unfold ActivePass.step
  unfold PointInv at hPoint
  unfold ActivePass.batch at hCommits
  cases hCase : pass.point with
  | commitRunning =>
      simp only [hCase] at hPoint hCommits ⊢
      refine hCommits rfl fun _ updated hCommit hSound => ?_
      exact (hInv.inLoop (commitOn_effected hCommit).status hSound).initializeTasks
  | commitInitialTasks =>
      simp only [hCase] at hPoint hCommits ⊢
      refine hCommits rfl fun hStored updated hCommit hSound => ?_
      rw [hStored, hInv.loaded] at hCommit
      exact hInv.initialTasks_goes (hStored ▸ hPoint.1) hCommit hSound _
  | commitGenerations events =>
      simp only [hCase] at hPoint hCommits ⊢
      obtain ⟨hRunning, _, hTasks, rfl⟩ := hPoint
      refine hCommits rfl fun hStored updated hCommit hSound => ?_
      rw [hStored] at hRunning hTasks hCommit
      exact hInv.generations_goes hRunning hTasks hCommit hSound _
  | checkPaused id rest =>
      simp only [hCase] at hPoint ⊢
      split
      · have hPass : PassInv env.ext definition plan s (.finished .ok) := trivial
        exact h.stepsTo hPass _
      · have hPass : PassInv env.ext definition plan s
            (pass.goOn pass.workflow (.commitStart id rest)) :=
          ⟨hInv.loaded, hInv.slices, hInv.held, hPoint⟩
        exact h.stepsTo hPass _
  | commitStart id rest =>
      simp only [hCase] at hPoint hCommits ⊢
      obtain ⟨hRunning, _, _, hRest, task, hTask, _⟩ := hPoint
      refine hCommits rfl fun hStored updated hCommit hSound => ?_
      rw [hStored] at hRunning hTask
      exact hInv.start_goes hRunning hTask hRest hCommit hSound
  | commitInputFailure started error =>
      simp only [hCase] at hCommits ⊢
      exact hCommits rfl fun _ _ _ _ => .of_passInv trivial
  | resolveFunction started rest =>
      simp only [hCase] at hPoint ⊢
      obtain ⟨hRunning, hWorking, hStarted, hRest⟩ := hPoint
      exact h.stepsTo (hInv.dispatch hRunning hWorking hStarted hRest) _
  | awaitAnswer started call rest =>
      simp only [hCase] at hPoint ⊢
      have hPass : PassInv env.ext definition plan s
          (pass.goOn pass.workflow (.awaitAnswer started call rest)) :=
        ⟨hInv.loaded, hInv.slices, hInv.held, hPoint⟩
      exact h.stepsTo hPass _
  | readCurrent started answer result rest =>
      simp only [hCase] at hPoint ⊢
      obtain ⟨hRunning, hWorking, hStarted, hRest, hResult⟩ := hPoint
      exact h.stepsTo (hInv.readCurrent hRunning hWorking hStarted hRest hResult) _
  | commitResult started answer result base rest =>
      have hBase := (hInv.resultBase hCase).2
      simp only [hCase] at hPoint hCommits ⊢
      obtain ⟨_, hWorking, hStarted, hRest, hResult, _⟩ := hPoint
      refine hCommits rfl fun hStored updated hCommit hSound => ?_
      exact hInv.result_goes (hStored ▸ hBase) (hStarted.of_sameWork hWorking.same) hRest
        (hWorking.recorded hResult) hCommit hSound
  | commitPauseCompleted | commitCompleted =>
      simp only [hCase] at hCommits ⊢
      exact hCommits rfl fun _ _ _ _ => .of_passInv trivial

/-- A commit of a request on a snapshot it has read. -/
theorem Refines.requestCommit {plan : List String} (h : Refines env definition s ⟨s.stored, plan⟩)
    {writer : Writer} {base : WorkflowInstance} {events : List WorkflowInstanceEvent}
    (hHeld : base ∈ s.snapshots)
    (hWrite : base = s.stored → ∃ plan', Write env.ext definition ⟨s.stored, plan⟩ writer events plan' ∧
      ∀ updated, commitOn s.stored s.stored events = .ok updated →
        PassInv env.ext definition plan' (s.saved updated) s.pass) :
    StepsTo env definition s ⟨s.stored, plan⟩ writer (s.commit base events) := by
  unfold System.commit
  cases hCommit : commitOn s.stored base events with
  | error error => exact h.stays writer
  | ok updated =>
      have hBase := h.history.eq_stored hHeld (commitOn_ok hCommit).2.1
      subst hBase
      obtain ⟨plan', hAllowed, hPass⟩ := hWrite rfl
      exact h.write hCommit hAllowed fun _ =>
        ⟨plan', [], .nil _, (fun _ h => nomatch h), hPass updated hCommit⟩

/-- A commit that sets the status alone leaves the pass its work. -/
theorem Refines.statusCommit {plan : List String} (h : Refines env definition s ⟨s.stored, plan⟩)
    {writer : Writer} {base : WorkflowInstance} {status : WorkflowStatus}
    (hHeld : base ∈ s.snapshots) (hStatus : status ≠ .inputNeeded)
    (hWrite : base = s.stored →
      Write env.ext definition ⟨s.stored, plan⟩ writer [.workflowStatusChanged status] plan) :
    StepsTo env definition s ⟨s.stored, plan⟩ writer
      (s.commit base [.workflowStatusChanged status]) := by
  refine h.requestCommit hHeld fun hStored => ⟨plan, hWrite hStored, fun updated hCommit => ?_⟩
  obtain ⟨_, _, reduced, hReduce, rfl⟩ := commitOn_ok hCommit
  cases reduce_single hReduce
  refine h.pass.of_saved fun workflow hWorking => ⟨⟨?_, hStatus, hWorking.noneFailed⟩, rfl⟩
  exact hWorking.same.trans (sameWork_marked s.stored (s.stored.version + 1) status)

theorem loadRetryableTask_ok {workflow : WorkflowInstance} {taskId id : String}
    (h : loadRetryableTask workflow taskId = .ok id) :
    workflow.status = .failed ∧
      ∃ task, workflow.tasks.lookup id = some task ∧ task.status = .failed := by
  unfold loadRetryableTask at h
  dsimp only at h
  split at h
  · cases h
  · rename_i hStatus
    obtain ⟨found, _, h⟩ := bind_ok.mp h
    cases hTask : workflow.tasks.lookup found with
    | none =>
        rw [hTask] at h
        cases h
    | some task =>
        rw [hTask] at h
        dsimp only at h
        split at h
        · cases h
        · rename_i hFailed
          cases h
          exact ⟨not_not.mp hStatus, task, hTask, not_not.mp hFailed⟩

theorem loadWaitingTask_ok {definitions : String → Option WorkflowDef}
    {workflow : WorkflowInstance} {taskId id next : String}
    (h : loadWaitingTask definitions workflow taskId = .ok (id, next)) :
    workflow.status = .inputNeeded ∧ ∃ definition task taskDef,
      definitions workflow.workflowDefId = some definition ∧
      workflow.tasks.lookup id = some task ∧ task.status.isInputNeeded = true ∧
      definition.findTask task.taskDefId = some taskDef ∧ taskDef.kind.isAgent = true ∧
      next = makeTaskAttemptId task.taskDefId (continuationGeneration task.generationIndex) := by
  unfold loadWaitingTask at h
  dsimp only at h
  split at h
  · cases h
  · rename_i hStatus
    obtain ⟨found, _, h⟩ := bind_ok.mp h
    cases hTask : workflow.tasks.lookup found with
    | none =>
        rw [hTask] at h
        cases h
    | some task =>
        rw [hTask] at h
        dsimp only at h
        split at h
        · cases h
        · rename_i hWaiting
          cases hDefinition : definitions workflow.workflowDefId with
          | none =>
              rw [hDefinition] at h
              cases h
          | some definition =>
              rw [hDefinition] at h
              dsimp only at h
              cases hTaskDef : definition.findTask task.taskDefId with
              | none =>
                  rw [hTaskDef] at h
                  cases h
              | some taskDef =>
                  rw [hTaskDef] at h
                  dsimp only at h
                  split at h
                  · cases h
                  · rename_i hAgent
                    split at h
                    · cases h
                    · cases h
                      exact ⟨not_not.mp hStatus, definition, task, taskDef, rfl, hTask,
                        by simpa using hWaiting, hTaskDef, by simpa using hAgent, rfl⟩

theorem Refines.request {plan : List String} (h : Refines env definition s ⟨s.stored, plan⟩)
    {request : Request} {base : WorkflowInstance} {events : List WorkflowInstanceEvent}
    (hHeld : base ∈ s.snapshots)
    (hBatch : request.batch env.definitions base = .ok (some events)) (seen : Nat) :
    StepsTo env definition s ⟨s.stored, plan⟩ (Action.request request seen).writer
      (s.commit base events) := by
  have hRetry {events : List WorkflowInstanceEvent} {taskId id : String}
      (hLoad : loadRetryableTask base taskId = .ok id)
      (hWrite : Write env.ext definition ⟨s.stored, plan⟩ .retry events []) :
      StepsTo env definition s ⟨s.stored, plan⟩ .retry (s.commit base events) := by
    obtain ⟨_, task, hTask, hFailed⟩ := loadRetryableTask_ok hLoad
    refine h.requestCommit hHeld fun hStored => ⟨[], hWrite, fun updated _ => ?_⟩
    rw [hStored] at hTask
    refine h.pass.of_saved fun workflow hWorking => ?_
    rw [hWorking.same] at hTask
    exact absurd hFailed (hWorking.noneFailed id task hTask)
  cases request with
  | pauseWorkflow =>
      simp only [Request.batch] at hBatch
      split at hBatch
      · cases hBatch
        rename_i hPending
        exact h.statusCommit hHeld (by decide) fun hStored => .pause (.inl (hStored ▸ hPending))
      · cases hBatch
        rename_i hRunning
        exact h.statusCommit hHeld (by decide) fun hStored => .pause (.inr (hStored ▸ hRunning))
      · cases hBatch
      · cases hBatch
  | resumeWorkflow =>
      simp only [Request.batch] at hBatch
      split at hBatch
      · cases hBatch
      · rename_i hPaused
        cases hBatch
        exact h.statusCommit hHeld (by decide) fun hStored =>
          .resume (hStored ▸ not_not.mp hPaused)
  | submitHumanInput taskId submittedInput =>
      obtain ⟨⟨id, next⟩, hLoad, hBatch⟩ := bind_ok.mp hBatch
      cases hBatch
      obtain ⟨hStatus, definition', task, taskDef, hDefinition, hTask, hWaiting, hTaskDef, hAgent,
        rfl⟩ := loadWaitingTask_ok hLoad
      refine h.requestCommit hHeld fun hStored => ⟨[], ?_, fun updated _ => ?_⟩
      · rw [h.history.defId base hHeld] at hDefinition
        cases hDefinition
        rw [hStored] at hStatus hTask
        exact .humanInput hStatus hTask hWaiting hTaskDef hAgent
      · rw [hStored] at hStatus
        exact h.pass.of_saved fun workflow hWorking => absurd hStatus hWorking.status
  | retryTask taskId =>
      obtain ⟨id, hLoad, hBatch⟩ := bind_ok.mp hBatch
      cases hBatch
      exact hRetry hLoad .retry
  | forceRetryTask taskId target =>
      obtain ⟨id, hLoad, hBatch⟩ := bind_ok.mp hBatch
      cases hBatch
      exact hRetry hLoad .forceRetry
  | failPinnedToLostHosts lostHosts =>
      simp only [Request.batch] at hBatch
      split at hBatch
      · cases hBatch
      · split at hBatch
        · cases hBatch
        · rename_i hLost
          cases hBatch
          rw [not_or, not_or] at hLost
          exact h.statusCommit hHeld (by decide) fun hStored =>
            .hostLost ⟨hStored ▸ hLost.1, hStored ▸ hLost.2.1⟩

theorem PassState.loaded_passInv {ext : Externals} (plan : List String) (order : LoopSlices) :
    PassInv ext definition plan s (PassState.loaded order (some s.stored)) := by
  unfold PassState.loaded
  dsimp only
  split
  · trivial
  · trivial
  · trivial
  · trivial
  · rename_i hStatus
    exact ⟨List.mem_cons_self, .inl hStatus⟩
  · rename_i hStatus
    exact ⟨List.mem_cons_self, .inr hStatus⟩

/-- Every step of the system is matched by lifecycle steps of the writer that
acts. -/
theorem Refines.step (h : Refines env definition s l) {action : Action} {s' : System}
    (hStep : s.step env action = some s') : StepsTo env definition s l action.writer s' := by
  obtain ⟨stored, plan⟩ := l
  obtain rfl : stored = s.stored := h.stored
  have hPass (pass : PassState) (hInv : PassInv env.ext definition plan s pass)
      (writer : Writer) : StepsTo env definition s ⟨s.stored, plan⟩ writer (s.setPass pass) :=
    h.stepsTo hInv writer
  cases action with
  | startPass order =>
      simp only [System.step] at hStep
      split at hStep
      · cases hStep
      · cases hStep
        exact hPass (.loading order) trivial _
  | passStep =>
      rw [System.step_passStep] at hStep
      cases hStep
      have hInv := h.pass
      cases hState : s.pass with
      | idle => exact hPass .idle trivial _
      | finished result => exact hPass (.finished result) trivial _
      | loading order => exact hPass _ (PassState.loaded_passInv plan order) _
      | loadingDef order workflow =>
          rw [hState] at hInv
          refine hPass _ ?_ _
          simp only [PassState.loadedDef, h.history.defId workflow hInv.1]
          exact ⟨rfl, iterationOrder_perm order definition, hInv.1, hInv.2⟩
      | active pass =>
          rw [hState] at hInv
          exact h.activeStep hInv
  | answer result =>
      simp only [System.step] at hStep
      obtain ⟨pass', hAnswer, rfl⟩ := Option.map_eq_some_iff.mp hStep
      refine hPass _ ?_ _
      have hInv := h.pass
      cases hState : s.pass with
      | active pass =>
          rw [hState] at hInv hAnswer
          have hPoint := hInv.point
          unfold PointInv at hPoint
          unfold PassState.answer at hAnswer
          cases hCase : pass.point with
          | awaitAnswer started call rest =>
              simp only [hCase] at hPoint hAnswer
              obtain ⟨hRunning, hWorking, hStarted, hRest, _⟩ := hPoint
              cases hAnswer
              exact hInv.answered hRunning hWorking hStarted hRest result
          | _ => simp only [hCase, reduceCtorEq] at hAnswer
      | _ =>
          rw [hState] at hAnswer
          cases hAnswer
  | crash =>
      cases hStep
      exact hPass .idle trivial _
  | request request seen =>
      simp only [System.step] at hStep
      obtain ⟨base, hBase, hStep⟩ := Option.bind_eq_some_iff.mp hStep
      have hHeld := List.mem_of_getElem? hBase
      split at hStep
      · rename_i events hBatch
        cases hStep
        exact h.request hHeld hBatch seen
      · cases hStep
        exact h.stays _
  | recover listed seen current =>
      simp only [System.step] at hStep
      obtain ⟨listedWorkflow, _, hStep⟩ := Option.bind_eq_some_iff.mp hStep
      obtain ⟨seenWorkflow, _, hStep⟩ := Option.bind_eq_some_iff.mp hStep
      obtain ⟨base, hBase, hStep⟩ := Option.bind_eq_some_iff.mp hStep
      have hHeld := List.mem_of_getElem? hBase
      split at hStep
      · cases hStep
      · rename_i hIdle
        split at hStep
        · rename_i events hEvents
          cases hStep
          refine h.requestCommit hHeld fun _ => ⟨[], ?_, fun updated _ => ?_⟩
          · unfold startupRecovery at hEvents
            dsimp only at hEvents
            split at hEvents
            · cases hEvents
              exact .recover _
            · cases hEvents
          · cases hState : s.pass with
            | idle | finished _ => trivial
            | _ =>
                rw [hState] at hIdle
                exact absurd rfl hIdle
        · cases hStep
          exact h.stays _

end Step

theorem HistoryInv.created {env : EngineEnv} {definition : WorkflowDef}
    (id workflowDefId : String) (pinnedWorkerHost : WorkerHostId) (input : Option Json)
    (hDefinition : env.definitions workflowDefId = some definition) :
    HistoryInv env definition (System.created id workflowDefId pinnedWorkerHost input) := by
  constructor
  · exact fun _ h => nomatch h
  · intro workflow hMem
    cases List.mem_singleton.mp hMem
    exact hDefinition

/-- Every run of the system is a run of the instance's life. -/
theorem System.Steps.refines {env : EngineEnv} {definition : WorkflowDef} {id workflowDefId : String}
    {pinnedWorkerHost : WorkerHostId} {input : Option Json} {actions : List Action} {s : System}
    (run : System.Steps env (System.created id workflowDefId pinnedWorkerHost input) actions s)
    (hDefinition : env.definitions workflowDefId = some definition) :
    ∃ l writers, Lifecycle.Steps env.ext definition
      (Lifecycle.created id workflowDefId pinnedWorkerHost input) writers l ∧
      Refines env definition s l := by
  refine Run.simulate (R := Refines env definition) (fun s action s' l h hStep => ?_) run ?_
  · obtain ⟨⟨l', writers, steps, _, h'⟩, _⟩ := h.step hStep
    exact ⟨l', writers, steps, h'⟩
  · exact ⟨rfl, .created _ _ _ _ hDefinition, .created .., trivial⟩

end RelayFold
