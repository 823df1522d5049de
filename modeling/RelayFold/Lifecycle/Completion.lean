import RelayFold.Lifecycle.FirstGeneration
import RelayFold.Lifecycle.Tangles

/-! The pass that runs a new instance to its end, when nobody disturbs it and
every answer is a good one: it completes the workflow unless slices wait for
each other. -/
namespace RelayFold

open WorkflowEngine WorkflowStateManager FallibleFold EdgeList

/-- No attempt but this one is running. -/
def OnlyRunning (workflow : WorkflowInstance) (id : String) : Prop :=
  ∀ key task, workflow.tasks.lookup key = some task → task.status = .running → key = id

/-- No attempt exists. -/
def NoAttempt (workflow : WorkflowInstance) : Prop := ∀ key, workflow.tasks.lookup key = none

/-- The points of the main loop at which no attempt is in flight. -/
def PassPoint.isBetween : PassPoint → Bool
  | commitGenerations _ | checkPaused _ _ | commitStart _ _ | commitPauseCompleted
  | commitCompleted => true
  | _ => false

/-- A pass all of whose answers have been good. -/
inductive PassState.Smooth (ext : Externals) (definition : WorkflowDef)
    (workflow : WorkflowInstance) : PassState → Prop
  | loading {order : LoopSlices} (hEmpty : NoAttempt workflow) :
      Smooth ext definition workflow (.loading order)
  | loadingDef {order : LoopSlices} {loaded : WorkflowInstance} (hEmpty : NoAttempt workflow) :
      Smooth ext definition workflow (.loadingDef order loaded)
  | setup {pass : ActivePass}
      (hPoint : pass.point = .commitRunning ∨ pass.point = .commitInitialTasks)
      (hEmpty : NoAttempt workflow) : Smooth ext definition workflow (.active pass)
  | between {pass : ActivePass} (hPoint : pass.point.isBetween = true)
      (hTasks : TasksInitialized definition workflow) (hNone : NoneRunning workflow) :
      Smooth ext definition workflow (.active pass)
  | resolving {pass : ActivePass} {started : StartedTask} {rest : List String}
      (hPoint : pass.point = .resolveFunction started rest)
      (hTasks : TasksInitialized definition workflow)
      (hOnly : OnlyRunning workflow started.taskAttemptId) :
      Smooth ext definition workflow (.active pass)
  | awaiting {pass : ActivePass} {started : StartedTask} {call : DispatchCall} {rest : List String}
      (hPoint : pass.point = .awaitAnswer started call rest)
      (hTasks : TasksInitialized definition workflow)
      (hOnly : OnlyRunning workflow started.taskAttemptId) :
      Smooth ext definition workflow (.active pass)
  | reading {pass : ActivePass} {started : StartedTask} {answer : Answer} {result : ResultCommit}
      {rest : List String} (hPoint : pass.point = .readCurrent started answer result rest)
      (hTasks : TasksInitialized definition workflow)
      (hOnly : OnlyRunning workflow started.taskAttemptId)
      (hGood : GoodAnswer ext started.taskDef answer) : Smooth ext definition workflow (.active pass)
  | recording {pass : ActivePass} {started : StartedTask} {answer : Answer} {result : ResultCommit}
      {base : WorkflowInstance} {rest : List String}
      (hPoint : pass.point = .commitResult started answer result base rest)
      (hTasks : TasksInitialized definition workflow)
      (hOnly : OnlyRunning workflow started.taskAttemptId)
      (hGood : GoodAnswer ext started.taskDef answer) : Smooth ext definition workflow (.active pass)
  | finished {result : PassResult} (hTasks : TasksInitialized definition workflow)
      (hNone : NoneRunning workflow) : Smooth ext definition workflow (.finished result)

/-- Every function that a task refers to is there. -/
def FunctionsKnown (env : EngineEnv) (definition : WorkflowDef) : Prop :=
  ∀ taskDef ∈ definition.tasks, ∃ resolved,
    resolveTaskFunctionRef env.functionDefs taskDef = .ok resolved

/-- The inputs of the attempt in flight fit the schemas of its task. -/
def PassState.InputsFit (ext : Externals) : PassState → Prop
  | .active pass => ∀ started, pass.point.started = some started →
      validateInputs ext started.taskDef started.inputs.values = .ok ()
  | _ => True

/-- If the pass waits for an answer, this is a good one. -/
def Obliging (env : EngineEnv) (s : System) (answer : Answer) : Prop :=
  ∀ pass started call rest, s.pass = .active pass → pass.point = .awaitAnswer started call rest →
    GoodAnswer env.ext started.taskDef answer

section Loop

variable {ext : Externals} {definition : WorkflowDef} {workflow : WorkflowInstance}
  {pass : ActivePass}

/-- Looking for the next attempt to start keeps the pass smooth, because no
attempt runs while it looks. -/
theorem nextTask_smooth (hTasks : TasksInitialized definition workflow) (hNone : NoneRunning workflow)
    {atEnd : PassState} (hEnd : atEnd.Smooth ext definition workflow) (ids : List String) :
    (pass.nextTask workflow atEnd ids).Smooth ext definition workflow := by
  induction ids with
  | nil => exact hEnd
  | cons id rest ih =>
      unfold ActivePass.nextTask
      split
      · exact .finished hTasks hNone
      · split
        · exact ih
        · exact .between rfl hTasks hNone

/-- Starting the runnable attempts does, too. -/
theorem startTasks_smooth (hTasks : TasksInitialized definition workflow)
    (hNone : NoneRunning workflow) {atEnd : PassState}
    (hEnd : atEnd.Smooth ext definition workflow) :
    (pass.startTasks workflow atEnd).Smooth ext definition workflow := by
  unfold ActivePass.startTasks
  split
  · exact .finished hTasks hNone
  · exact nextTask_smooth hTasks hNone hEnd _

/-- A round of the loop begins smoothly when the tasks have been initialized
and none of them runs. -/
theorem enterLoop_smooth (hTasks : TasksInitialized definition workflow)
    (hNone : NoneRunning workflow) : (pass.enterLoop workflow).Smooth ext definition workflow := by
  unfold ActivePass.enterLoop
  dsimp only
  split
  · refine startTasks_smooth hTasks hNone ?_
    unfold ActivePass.leaveLoop
    split
    · exact .between rfl hTasks hNone
    · exact .finished hTasks hNone
  · exact .between rfl hTasks hNone

/-- So does the creation of the first attempts, on an instance that has
none. -/
theorem initializeTasks_smooth (hLoaded : pass.definition = definition) (hEmpty : NoAttempt workflow) :
    (pass.initializeTasks workflow).Smooth ext definition workflow := by
  unfold ActivePass.initializeTasks
  split
  · exact .setup (.inr rfl) hEmpty
  · rename_i hOld
    have hNone : definition.tasks = [] := by
      simpa [(FiniteMap.isEmpty_iff _).mpr hEmpty, initialTaskEvents, hLoaded] using hOld
    refine enterLoop_smooth (fun taskDef hMem => ?_) fun key task hTask => ?_
    · rw [hNone] at hMem
      cases hMem
    · rw [hEmpty] at hTask
      cases hTask

end Loop

section Move

variable {env : EngineEnv} {definition : WorkflowDef} {s : System} {plan : List String}
  {start : WorkflowInstance} {pass : ActivePass}

/-- The version of the snapshot plays no part in the first generation. -/
theorem FirstGeneration.withVersion {workflow : WorkflowInstance}
    (h : FirstGeneration definition workflow) (version : Nat) :
    FirstGeneration definition (workflow.withVersion version) :=
  h.of_same rfl fun _ => rfl

theorem FirstGeneration.none_failed {workflow : WorkflowInstance}
    (h : FirstGeneration definition workflow) : ¬SomeFailed workflow := by
  rintro ⟨id, task, hTask, hFailed⟩
  rcases (h.attempt id task hTask).2 with hOther | hOther | hOther <;>
    rw [hFailed] at hOther <;> cases hOther

/-- A pass whose attempts are all in order has not ended with an error. -/
theorem FirstGeneration.not_failed {workflow : WorkflowInstance}
    (h : FirstGeneration definition workflow) {message : String} :
    ¬(PassState.finished (.error message)).Undisturbed definition start workflow := by
  intro hOutcome
  cases hOutcome with
  | failed _ hFailed => exact h.none_failed hFailed

/-- What a commit leads to, since it is not refused. -/
theorem HistoryInv.smoothCommit (h : HistoryInv env definition s)
    (hFirst : FirstGeneration definition s.stored) {base : WorkflowInstance}
    {events : List WorkflowInstanceEvent} {next : WorkflowInstance → PassState}
    (hHeld : base ∈ s.snapshots)
    (hAfter : (s.advance (ActivePass.commit s.stored base events next)).pass.Undisturbed definition
      start (s.advance (ActivePass.commit s.stored base events next)).stored)
    (hFits : (s.advance (ActivePass.commit s.stored base events next)).pass.InputsFit env.ext)
    (hNext : base = s.stored → ∀ reduced,
      reduceWorkflowInstanceEvents (some s.stored) events = .ok reduced →
      (next (reduced.withVersion (s.stored.version + events.length))).Undisturbed definition start
        (reduced.withVersion (s.stored.version + events.length)) →
      (next (reduced.withVersion (s.stored.version + events.length))).InputsFit env.ext →
      FirstGeneration definition reduced ∧
        (next (reduced.withVersion (s.stored.version + events.length))).Smooth env.ext definition
          (reduced.withVersion (s.stored.version + events.length))) :
    FirstGeneration definition (s.advance (ActivePass.commit s.stored base events next)).stored ∧
      (s.advance (ActivePass.commit s.stored base events next)).pass.Smooth env.ext definition
        (s.advance (ActivePass.commit s.stored base events next)).stored := by
  rcases h.commit_cases hHeld events next with ⟨message, hRefused⟩ |
    ⟨hBase, _, reduced, hReduce, hCommit⟩
  · rw [hRefused] at hAfter
    exact (hFirst.not_failed hAfter).elim
  · rw [hCommit] at hAfter hFits ⊢
    obtain ⟨hReduced, hSmooth⟩ := hNext hBase reduced hReduce hAfter hFits
    exact ⟨hReduced.withVersion _, hSmooth⟩

/-- The start of an attempt is followed by its dispatch. -/
theorem prepareDispatch_smooth {workflow : WorkflowInstance}
    (hLoaded : pass.definition = definition) {id : String} {rest : List String}
    (hTasks : TasksInitialized definition workflow) (hOnly : OnlyRunning workflow id)
    (hAfter : (pass.prepareDispatch env.ext workflow id rest).Undisturbed definition start workflow)
    (hFits : (pass.prepareDispatch env.ext workflow id rest).InputsFit env.ext) :
    (pass.prepareDispatch env.ext workflow id rest).Smooth env.ext definition workflow := by
  unfold ActivePass.prepareDispatch at hAfter hFits ⊢
  rw [hLoaded] at hAfter hFits ⊢
  cases hStarted : startedTask workflow definition pass.loopSlices id with
  | none =>
      rw [hStarted] at hAfter
      cases hAfter
  | some started =>
      obtain ⟨hId, _⟩ := startedTask_eq hStarted
      rw [hStarted] at hFits
      dsimp only at hFits ⊢
      cases hValid : validateInputs env.ext started.taskDef started.inputs.values with
      | ok _ => exact .resolving rfl hTasks (hId ▸ hOnly)
      | error message =>
          rw [hValid] at hFits
          have hFit : validateInputs env.ext started.taskDef started.inputs.values = .ok () :=
            hFits started rfl
          rw [hValid] at hFit
          cases hFit

/-- A good answer is recorded, and the pass goes on. -/
theorem Refines.smoothResult (hDef : WellFormedDef definition)
    (h : Refines env definition s ⟨s.stored, plan⟩) (hFirst : FirstGeneration definition s.stored)
    (hTasks : TasksInitialized definition s.stored) {loopSlices : LoopSlices} {started : StartedTask}
    {answer : Answer} {result : ResultCommit} {reduced : WorkflowInstance}
    (hRecords : Records env definition s.stored reduced loopSlices started answer result)
    (hOnly : OnlyRunning s.stored started.taskAttemptId)
    (hGood : GoodAnswer env.ext started.taskDef answer) (version : Nat) (rest : List String) :
    FirstGeneration definition reduced ∧
      (pass.afterResult result rest (reduced.withVersion version)).Smooth env.ext definition
        (reduced.withVersion version) := by
  obtain ⟨_, hTask, hFound, _⟩ := startedTask_eq hRecords.holds.resolved
  have hWrite : Write env.ext definition ⟨s.stored, plan⟩ .pass result.events plan :=
    .result hRecords.status hRecords.slices hRecords.holds.resolved hRecords.holds.running
      hRecords.recorded
  have hSound := hWrite.sound hRecords.reduce h.sound
  obtain ⟨hNext, own, mark, hResult⟩ := hRecords.outcome.good hDef hRecords.slices hSound.key hFirst
    hTask hFound hGood (hRecords.recorded.good_next hGood)
  have hReduced : TasksInitialized definition reduced :=
    hTasks.of_attemptsAfter (hWrite.attemptsAfter hRecords.reduce)
  have hInitialized : TasksInitialized definition (reduced.withVersion version) := hReduced
  have hNone : NoneRunning (reduced.withVersion version) := by
    intro key b hb hRunning
    rcases hResult.attempt_origin hb with ⟨_, rfl⟩ | ⟨hKey, a, ha, rfl⟩
    · rw [hResult.completed] at hRunning
      cases hRunning
    · exact hKey (hOnly key a ha hRunning)
  refine ⟨hFirst.of_result hTask hResult, ?_⟩
  unfold ActivePass.afterResult
  rw [hNext]
  dsimp only
  split
  · split
    · exact .between rfl hInitialized hNone
    · exact .finished hInitialized hNone
  · exact nextTask_smooth hInitialized hNone (enterLoop_smooth hInitialized hNone) rest

/-- The first attempts are pending, and the loop of the pass is smooth with
them. -/
theorem FirstGeneration.initialTasks_smooth (hFirst : FirstGeneration definition s.stored)
    (hEmpty : NoAttempt s.stored) {reduced : WorkflowInstance}
    (hReduce : reduceWorkflowInstanceEvents (some s.stored) (initialTaskEvents s.stored definition) =
      .ok reduced) (version : Nat) :
    FirstGeneration definition reduced ∧
      (pass.enterLoop (reduced.withVersion version)).Smooth env.ext definition
        (reduced.withVersion version) := by
  have hLookup (key : String) (b : TaskInstance) (hb : reduced.tasks.lookup key = some b) :=
    initialTaskEvents_lookup hReduce (hEmpty key) hb
  refine ⟨hFirst.of_initialTasks hLookup (sameStates_of_events hReduce
    (by simp [initialTaskEvents, WorkflowInstanceEvent.verifierEffect])), ?_⟩
  have hInitialized : TasksInitialized definition reduced :=
    initialTaskEvents_initialized (reduceWorkflowInstanceEvents_effected hReduce)
  apply enterLoop_smooth
  · exact hInitialized
  · intro key b hb hRunning
    obtain ⟨_, _, _, rfl⟩ := hLookup key b hb
    cases hRunning

/-- Starting the generations that are due leaves the attempts alone, so that
the pass stays between two dispatches. -/
theorem FirstGeneration.generations_smooth (hDef : WellFormedDef definition)
    (hFirst : FirstGeneration definition s.stored)
    (hStarts : SliceStarts definition ⟨s.stored, plan⟩)
    (hTasks : TasksInitialized definition s.stored) (hNone : NoneRunning s.stored)
    (hSlices : pass.loopSlices.Perm (computeLoopSlices definition)) {reduced : WorkflowInstance}
    (hReduce : reduceWorkflowInstanceEvents (some s.stored)
      (materializeEligibleInitialGenerationEvents s.stored definition pass.loopSlices) = .ok reduced)
    (version : Nat) :
    FirstGeneration definition reduced ∧
      (pass.startTasks (reduced.withVersion version)
        (pass.enterLoop (reduced.withVersion version))).Smooth env.ext definition
          (reduced.withVersion version) := by
  have hGenerations := initialGenerations_after hTasks hSlices hReduce
  have hSame : reduced.tasks = s.stored.tasks := hGenerations.tasks
  have hInitialized : TasksInitialized definition (reduced.withVersion version) := by
    intro taskDef hMem
    change Option.isSome (Finmap.lookup _ reduced.tasks) = true
    rw [hSame]
    exact hTasks taskDef hMem
  have hStill : NoneRunning (reduced.withVersion version) := by
    intro key task hTask
    exact hNone key task (hSame ▸ hTask)
  exact ⟨hFirst.of_generations hDef hStarts hSlices hGenerations,
    startTasks_smooth hInitialized hStill (enterLoop_smooth hInitialized hStill)⟩

/-- The attempt that is started is the only one that runs. -/
theorem FirstGeneration.start_smooth (hFirst : FirstGeneration definition s.stored)
    (hLoaded : pass.definition = definition) (hTasks : TasksInitialized definition s.stored)
    (hNone : NoneRunning s.stored) {id : String} {task : TaskInstance} {rest : List String}
    (hTask : s.stored.tasks.lookup id = some task) {reduced : WorkflowInstance}
    (hWrite : Write env.ext definition ⟨s.stored, plan⟩ .pass [.taskStatusChanged id .running] plan)
    (hReduce : reduceWorkflowInstanceEvents (some s.stored) [.taskStatusChanged id .running] =
      .ok reduced) {version : Nat}
    (hNext : (pass.prepareDispatch env.ext (reduced.withVersion version) id rest).Undisturbed
      definition start (reduced.withVersion version))
    (hFits : (pass.prepareDispatch env.ext (reduced.withVersion version) id rest).InputsFit
      env.ext) :
    FirstGeneration definition reduced ∧
      (pass.prepareDispatch env.ext (reduced.withVersion version) id rest).Smooth env.ext definition
        (reduced.withVersion version) := by
  have hLookup (key : String) : reduced.tasks.lookup key = if key = id then
      some { task with status := .running } else s.stored.tasks.lookup key := by
    rw [taskMut_lookup (reduce_single hReduce) key]
    split
    · rename_i hKey
      rw [hKey, hTask]
      rfl
    · rfl
  have hInitialized : TasksInitialized definition reduced :=
    hTasks.of_attemptsAfter (hWrite.attemptsAfter hReduce)
  have hOnly : OnlyRunning (reduced.withVersion version) id := by
    intro key b hb hRuns
    by_contra hKey
    have hOld : reduced.tasks.lookup key = some b := hb
    rw [hLookup, if_neg hKey] at hOld
    exact hNone key b hOld hRuns
  refine ⟨hFirst.of_start hTask hLookup (sameStates_of_events hReduce
    (List.forall_mem_singleton.mpr fun _ _ => rfl)), ?_⟩
  exact prepareDispatch_smooth hLoaded hInitialized hOnly hNext hFits

/-- Every operation of a smooth pass leaves it smooth. -/
theorem Refines.smoothStep (hDef : WellFormedDef definition)
    (hFunctions : FunctionsKnown env definition)
    (h : Refines env definition s ⟨s.stored, plan⟩) (hStarts : SliceStarts definition ⟨s.stored, plan⟩)
    (hInv : ActiveInv env.ext definition plan s pass) (hHeld : pass.workflow = s.stored)
    (hHolds : pass.point.Holds definition s.stored) (hFirst : FirstGeneration definition s.stored)
    (hSmooth : (PassState.active pass).Smooth env.ext definition s.stored)
    (hWaits : pass.isAwaiting = false)
    (hAfter : (s.advance (pass.step env s.stored)).pass.Undisturbed definition start
      (s.advance (pass.step env s.stored)).stored)
    (hFits : (s.advance (pass.step env s.stored)).pass.InputsFit env.ext) :
    FirstGeneration definition (s.advance (pass.step env s.stored)).stored ∧
      (s.advance (pass.step env s.stored)).pass.Smooth env.ext definition
        (s.advance (pass.step env s.stored)).stored := by
  have hPoint := hInv.point
  unfold PointInv at hPoint
  unfold ActivePass.step at hAfter hFits ⊢
  cases hSmooth with
  | setup hCase hEmpty =>
      rcases hCase with hCase | hCase <;> simp only [hCase, hHeld] at hAfter hFits ⊢
      · refine h.history.smoothCommit hFirst List.mem_cons_self hAfter hFits
          fun _ reduced hReduce _ _ => ?_
        cases reduce_single hReduce
        exact ⟨hFirst.of_same rfl fun _ => rfl, initializeTasks_smooth hInv.loaded hEmpty⟩
      · refine h.history.smoothCommit hFirst List.mem_cons_self hAfter hFits
          fun _ reduced hReduce _ _ => ?_
        rw [hInv.loaded] at hReduce
        exact hFirst.initialTasks_smooth hEmpty hReduce _
  | between hFree hTasks hNone =>
      cases hCase : pass.point with
      | commitGenerations events =>
          simp only [hCase, hHeld] at hAfter hFits hPoint ⊢
          refine h.history.smoothCommit hFirst List.mem_cons_self hAfter hFits
            fun _ reduced hReduce _ _ => ?_
          obtain ⟨_, _, _, rfl⟩ := hPoint
          exact hFirst.generations_smooth hDef hStarts hTasks hNone hInv.slices hReduce _
      | checkPaused id rest =>
          simp only [hCase] at hAfter ⊢
          split
          · exact ⟨hFirst, .finished hTasks hNone⟩
          · exact ⟨hFirst, .between rfl hTasks hNone⟩
      | commitStart id rest =>
          have hBatch : pass.batch = some (s.stored, [.taskStatusChanged id .running]) := by
            rw [ActivePass.batch, hCase, hHeld]
          have hWrite := hInv.allowed hBatch rfl
          simp only [hCase, hHeld] at hAfter hFits hPoint hWrite ⊢
          obtain ⟨_, _, _, _, task, hTask, _⟩ := hPoint
          exact h.history.smoothCommit hFirst List.mem_cons_self hAfter hFits
            fun _ reduced hReduce hNext hNextFits =>
              hFirst.start_smooth hInv.loaded hTasks hNone hTask hWrite hReduce hNext hNextFits
      | commitPauseCompleted | commitCompleted =>
          simp only [hCase, hHeld] at hAfter hFits ⊢
          refine h.history.smoothCommit hFirst List.mem_cons_self hAfter hFits
            fun _ reduced hReduce _ _ => ?_
          cases reduce_single hReduce
          exact ⟨hFirst.of_same rfl fun _ => rfl, .finished hTasks hNone⟩
      | _ =>
          rw [hCase] at hFree
          cases hFree
  | @resolving _ started rest hCase hTasks hOnly =>
      simp only [hCase, hHeld] at hAfter hFits hPoint ⊢
      obtain ⟨_, _, hStarted, _⟩ := hPoint
      obtain ⟨_, _, hFound, _⟩ := startedTask_eq hStarted.resolved
      have hMem := (findTask_some hFound).1
      obtain ⟨resolved, hResolved⟩ := hFunctions _ hMem
      obtain ⟨schema, hSchema⟩ := hDef.schema_ok _ hMem
      rw [ActivePass.dispatch, hResolved]
      dsimp only
      rw [hSchema]
      exact ⟨hFirst, .awaiting rfl hTasks hOnly⟩
  | awaiting hCase _ _ =>
      rw [ActivePass.isAwaiting, hCase] at hWaits
      cases hWaits
  | reading hCase hTasks hOnly hGood =>
      simp only [hCase] at hAfter ⊢
      exact ⟨hFirst, .recording rfl hTasks hOnly hGood⟩
  | @recording _ started answer result base rest hCase hTasks hOnly hGood =>
      simp only [hCase] at hAfter hFits hHolds ⊢
      obtain rfl : base = s.stored := hHolds
      refine h.history.smoothCommit hFirst List.mem_cons_self hAfter hFits
        fun _ reduced hReduce _ _ => ?_
      simp only [hCase, hHeld] at hPoint
      obtain ⟨hRunning, _, hStarted, _, hResult, _⟩ := hPoint
      have hRecords : Records env definition s.stored reduced pass.loopSlices started answer result :=
        ⟨.inl hRunning, hInv.slices, hStarted, resultCommit_ok hResult, hReduce⟩
      exact h.smoothResult hDef hFirst hTasks hRecords hOnly hGood _ rest

/-- Every move of a smooth pass leaves it smooth, if the answer is good and the
inputs of what is started fit. -/
theorem Refines.smoothMove (hDef : WellFormedDef definition)
    (hFunctions : FunctionsKnown env definition)
    (h : Refines env definition s ⟨s.stored, plan⟩) (hStarts : SliceStarts definition ⟨s.stored, plan⟩)
    (hKnown : KnownTasks definition s.stored) (hPending : start.status = .pending)
    (hAlone : s.pass.Undisturbed definition start s.stored)
    (hFirst : FirstGeneration definition s.stored)
    (hSmooth : s.pass.Smooth env.ext definition s.stored) {answer : Answer}
    (hGood : Obliging env s answer) (hFits : (s.move env answer).pass.InputsFit env.ext) :
    FirstGeneration definition (s.move env answer).stored ∧
      (s.move env answer).pass.Smooth env.ext definition (s.move env answer).stored := by
  have hAfter := h.undisturbedMove hDef hStarts hKnown hAlone answer
  have hMove := System.move_step env s answer
  have hInv := h.pass
  unfold System.nextMove at hMove
  cases hPass : s.pass with
  | idle =>
      rw [hPass] at hAlone
      exact hAlone.elim
  | finished result =>
      rw [hPass] at hMove hSmooth
      dsimp only at hMove
      rw [System.step_passStep, hPass] at hMove
      rw [← Option.some.inj hMove]
      exact ⟨hFirst, hSmooth⟩
  | loading order =>
      rw [hPass] at hMove hSmooth hAlone
      dsimp only at hMove
      rw [System.step_passStep, hPass] at hMove
      rw [← Option.some.inj hMove]
      cases hSmooth with
      | loading hEmpty =>
          refine ⟨hFirst, ?_⟩
          change (PassState.loaded order (some s.stored)).Smooth env.ext definition s.stored
          have hStatus : s.stored.status = .pending := by
            rw [show s.stored = start from hAlone]
            exact hPending
          unfold PassState.loaded
          dsimp only
          rw [hStatus]
          exact .loadingDef hEmpty
  | loadingDef order workflow =>
      rw [hPass] at hMove hSmooth hAlone
      dsimp only at hMove
      rw [System.step_passStep, hPass] at hMove
      rw [← Option.some.inj hMove]
      cases hSmooth with
      | loadingDef hEmpty =>
          refine ⟨hFirst, ?_⟩
          change (PassState.loadedDef order workflow (env.definitions workflow.workflowDefId)).Smooth
            env.ext definition s.stored
          rw [hAlone.1, h.history.defId _ List.mem_cons_self]
          exact .setup (.inl rfl) hEmpty
  | active pass =>
      rw [hPass] at hMove hInv hSmooth hAlone
      dsimp only at hMove
      cases hWaits : pass.isAwaiting with
      | false =>
          rw [hWaits, if_neg Bool.false_ne_true, System.step_passStep, hPass] at hMove
          rw [← Option.some.inj hMove] at hAfter hFits ⊢
          exact h.smoothStep hDef hFunctions hStarts hInv hAlone.1 hAlone.2 hFirst hSmooth hWaits
            hAfter hFits
      | true =>
          obtain ⟨started, call, rest, hPoint⟩ := ActivePass.isAwaiting_iff.mp hWaits
          rw [hWaits, if_pos rfl] at hMove
          simp only [System.step, hPass, PassState.answer, hPoint, Option.map_some] at hMove
          rw [← Option.some.inj hMove] at hAfter ⊢
          have hAnswer := hGood pass started call rest hPass hPoint
          change (pass.answered env.ext started rest answer).Undisturbed definition start s.stored
            at hAfter
          refine ⟨hFirst, ?_⟩
          change (pass.answered env.ext started rest answer).Smooth env.ext definition s.stored
          unfold ActivePass.answered at hAfter ⊢
          cases hSmooth with
          | awaiting hCase hTasks hOnly =>
              rw [hPoint] at hCase
              cases hCase
              split
              · rename_i hError
                rw [hError] at hAfter
                exact (hFirst.not_failed hAfter).elim
              · exact .reading rfl hTasks hOnly hAnswer
          | between hFree _ _ =>
              rw [hPoint] at hFree
              cases hFree
          | setup hCase _ =>
              rw [hPoint] at hCase
              rcases hCase with hCase | hCase <;> cases hCase
          | resolving hCase _ _ | reading hCase _ _ _ | recording hCase _ _ _ =>
              rw [hPoint] at hCase
              cases hCase

end Move

/-- A new instance that a pass has begun to load. -/
def System.fresh (id workflowDefId : String) (pinnedWorkerHost : WorkerHostId) (input : Option Json)
    (order : LoopSlices) : System :=
  (System.created id workflowDefId pinnedWorkerHost input).setPass (.loading order)

/-- Moves of a pass, each answer a good one. -/
abbrev System.ObligedMoves (env : EngineEnv) : System → List Answer → System → Prop :=
  Run fun s answer s' => s.move env answer = s' ∧ Obliging env s answer

/-- Moves of a pass whose answers are good and whose inputs fit. -/
abbrev System.GoodMoves (env : EngineEnv) : System → List Answer → System → Prop :=
  Run fun s answer s' => (s.move env answer = s' ∧ Obliging env s answer) ∧ s'.pass.InputsFit env.ext

/-- What every state of these moves has. -/
structure SmoothRun (env : EngineEnv) (definition : WorkflowDef) (start s : System) : Prop where
  reached : ∃ actions, System.Steps env start actions s
  tracked : Tracked env definition s
  known : KnownTasks definition s.stored
  alone : s.pass.Undisturbed definition start.stored s.stored
  first : FirstGeneration definition s.stored
  smooth : s.pass.Smooth env.ext definition s.stored

section SmoothRun

variable {env : EngineEnv} {definition : WorkflowDef} {start s : System} {workflowDefId : String}

/-- One move of the run: the pass steps, or takes an answer that obliges it.
Whether the inputs fit is asked of the state after the move. -/
theorem SmoothRun.move (hDef : WellFormedDef definition)
    (hFunctions : FunctionsKnown env definition) (hPending : start.stored.status = .pending)
    (h : SmoothRun env definition start s) {answer : Answer} (hGood : Obliging env s answer)
    (hFits : (s.move env answer).pass.InputsFit env.ext) :
    SmoothRun env definition start (s.move env answer) := by
  have hStep := System.move_step env s answer
  obtain ⟨actions, run⟩ := h.reached
  obtain ⟨hTracked, hKnown⟩ := Tracked.knownTasks hDef h.tracked h.known (Run.single hStep)
  obtain ⟨⟨stored, plan⟩, hRefines, hStarts⟩ := h.tracked
  obtain rfl : stored = s.stored := hRefines.stored
  obtain ⟨hFirst, hSmooth⟩ := hRefines.smoothMove hDef hFunctions hStarts h.known hPending h.alone
    h.first h.smooth hGood hFits
  exact ⟨⟨_, run.snoc hStep⟩, hTracked, hKnown,
    hRefines.undisturbedMove hDef hStarts h.known h.alone answer, hFirst, hSmooth⟩

/-- A created instance, with a pass just begun, is where a smooth run
starts. -/
theorem SmoothRun.fresh (hDef : WellFormedDef definition)
    (hDefinition : env.definitions workflowDefId = some definition)
    (id : String) (pinnedWorkerHost : WorkerHostId) (input : Option Json) (order : LoopSlices) :
    SmoothRun env definition (System.created id workflowDefId pinnedWorkerHost input)
      (System.fresh id workflowDefId pinnedWorkerHost input order) := by
  have hStep : System.step env (System.created id workflowDefId pinnedWorkerHost input)
      (.startPass order) = some (System.fresh id workflowDefId pinnedWorkerHost input order) := rfl
  have hTracked : Tracked env definition (System.created id workflowDefId pinnedWorkerHost input) :=
    .created pinnedWorkerHost input hDefinition
  refine ⟨⟨_, .single hStep⟩, hTracked.step hDef hStep, ?_, rfl, ⟨?_, ?_, ?_⟩, .loading fun _ => rfl⟩
  · exact fun _ _ hTask => by cases hTask
  · exact fun _ _ hTask => by cases hTask
  · exact fun _ _ hTask => by cases hTask
  · exact fun _ _ hState => by cases hState

/-- Where the tasks ask for no inputs, all inputs fit. -/
theorem Tracked.inputsFit (h : Tracked env definition s)
    (hNoSchemas : ∀ taskDef ∈ definition.tasks, taskDef.inputSchemas = []) :
    s.pass.InputsFit env.ext := by
  obtain ⟨l, hRefines, _⟩ := h
  have hInv := hRefines.pass
  cases hPass : s.pass with
  | active pass =>
      rw [hPass] at hInv
      intro started hStarted
      obtain ⟨_, _, hFound, _⟩ := startedTask_eq (hInv.started hStarted).2.resolved
      rw [validateInputs, hNoSchemas _ (findTask_some hFound).1]
      rfl
  | _ => trivial

/-- Tangled slices leave something to do. -/
theorem SmoothRun.unfinished (hDef : WellFormedDef definition)
    (hDefinition : env.definitions workflowDefId = some definition) {id : String}
    {pinnedWorkerHost : WorkerHostId} {input : Option Json}
    (h : SmoothRun env definition (System.created id workflowDefId pinnedWorkerHost input) s)
    (hTangled : ¬definition.Untangled) : workflowAllCompleted s.stored definition = false := by
  obtain ⟨actions, steps⟩ := h.reached
  obtain ⟨node, hCycle⟩ := not_forall_not.mp hTangled
  obtain ⟨_, _, hGrounded⟩ := steps.fed hDef hDefinition
  exact h.first.unfinished (hDef.pathEnd_mem hCycle) fun hCompleted =>
    not_acc_of_cycle hCycle .refl (hGrounded _ (hDef.sliceNode_of_path hCycle) hCompleted)

/-- How a smooth pass ends: without an error, and with everything completed
unless slices wait for each other. -/
theorem SmoothRun.ended (hDef : WellFormedDef definition)
    (hDefinition : env.definitions workflowDefId = some definition) {id : String}
    {pinnedWorkerHost : WorkerHostId} {input : Option Json}
    (h : SmoothRun env definition (System.created id workflowDefId pinnedWorkerHost input) s)
    (hDone : s.pass.inFlight = false) :
    s.pass = .finished .ok ∧ (s.stored.status = .completed ↔ definition.Untangled) ∧
      (¬definition.Untangled → s.stored.status = .running ∧ Stuck definition s.stored) := by
  have hAlone := h.alone
  have hSmooth := h.smooth
  cases hPass : s.pass with
  | idle =>
      rw [hPass] at hAlone
      exact hAlone.elim
  | loading _ | loadingDef _ _ | active _ =>
      rw [hPass] at hDone
      cases hDone
  | finished result =>
      rw [hPass] at hAlone hSmooth
      cases hSmooth with
      | finished hTasks hNone =>
          cases hAlone with
          | resting _ hStatus => exact absurd rfl hStatus.1
          | completed hStatus hAll =>
              have hUntangled : definition.Untangled := by
                by_contra hNot
                rw [h.unfinished hDef hDefinition hNot] at hAll
                cases hAll
              exact ⟨rfl, ⟨fun _ => hUntangled, fun _ => hStatus⟩, fun hNot => absurd hUntangled hNot⟩
          | inputNeeded _ hWaits =>
              obtain ⟨key, task, hTask, hWaiting⟩ := hWaits
              rcases (h.first.attempt key task hTask).2 with hOther | hOther | hOther <;>
                rw [hOther] at hWaiting <;> cases hWaiting
          | stuck hStatus hStuck =>
              obtain ⟨l, hRefines, _⟩ := h.tracked
              have hNot : ¬definition.Untangled := fun hUntangled =>
                h.first.not_stuck hDef hUntangled hRefines.sound.key hTasks hNone hStuck
              refine ⟨rfl, ⟨fun hCompleted => ?_, fun hUntangled => absurd hUntangled hNot⟩,
                fun _ => ⟨hStatus, hStuck⟩⟩
              rw [hStatus] at hCompleted
              cases hCompleted
          | failed _ hFailed => exact (h.first.none_failed hFailed).elim

end SmoothRun

section Moves

variable {env : EngineEnv} {submitted definition : WorkflowDef} {id workflowDefId : String}
  {pinnedWorkerHost : WorkerHostId} {input : Option Json} {order : LoopSlices}

/-- The pass that runs a new instance, with good answers and inputs only and
nobody else at work, ends after finitely many moves and without an error, and
it completes the workflow just when no slices wait for each other. -/
theorem System.GoodMoves.completes_iff_untangled
    (hAccepted : validateAndNormalizeWorkflowDef submitted = .ok definition)
    (hDefinition : env.definitions workflowDefId = some definition)
    (hFunctions : FunctionsKnown env definition) :
    (∃ bound, ∀ answers s, bound < answers.length →
      System.GoodMoves env (System.fresh id workflowDefId pinnedWorkerHost input order) answers s →
      s.pass.inFlight = false) ∧
    ∀ answers s,
      System.GoodMoves env (System.fresh id workflowDefId pinnedWorkerHost input order) answers s →
      s.pass.inFlight = false →
      s.pass = .finished .ok ∧ (s.stored.status = .completed ↔ definition.Untangled) ∧
        (¬definition.Untangled → s.stored.status = .running ∧ Stuck definition s.stored) := by
  have hDef := validateAndNormalizeWorkflowDef_ok hAccepted
  have hFresh := SmoothRun.fresh hDef hDefinition id pinnedWorkerHost input order
  constructor
  · obtain ⟨bound, hEnds⟩ := hFresh.tracked.ends hDef
    refine ⟨bound, fun answers s hLong run => ?_⟩
    rw [← (run.mono fun _ _ _ h => h.1.1).foldl_eq]
    exact hEnds answers hLong
  · intro answers s run hDone
    have hRun : SmoothRun env definition _ s :=
      run.invariant hFresh fun t answer t' h ⟨⟨hMove, hGood⟩, hFits⟩ => by
        subst hMove
        exact h.move hDef hFunctions rfl hGood hFits
    exact hRun.ended hDef hDefinition hDone

/-- Without input schemas, such a pass of enough moves has returned without
an error and left the workflow completed just when no slices wait for each
other. -/
theorem System.ObligedMoves.accepted_completes_iff
    (hAccepted : validateAndNormalizeWorkflowDef submitted = .ok definition)
    (hDefinition : env.definitions workflowDefId = some definition)
    (hNoSchemas : ∀ taskDef ∈ definition.tasks, taskDef.inputSchemas = [])
    (hFunctions : FunctionsKnown env definition) :
    ∃ bound, ∀ answers s, bound < answers.length →
      System.ObligedMoves env (System.fresh id workflowDefId pinnedWorkerHost input order) answers s →
      (s.pass = .finished .ok ∧ s.stored.status = .completed ↔ definition.Untangled) := by
  have hDef := validateAndNormalizeWorkflowDef_ok hAccepted
  have hFresh := SmoothRun.fresh hDef hDefinition id pinnedWorkerHost input order
  obtain ⟨bound, hEnds⟩ := hFresh.tracked.ends hDef
  refine ⟨bound, fun answers s hLong run => ?_⟩
  have hRun : SmoothRun env definition _ s :=
    run.invariant hFresh fun t answer t' h ⟨hMove, hGood⟩ => by
      subst hMove
      have hTracked := h.tracked.step hDef (System.move_step env t answer)
      exact h.move hDef hFunctions rfl hGood (hTracked.inputsFit hNoSchemas)
  have hDone : s.pass.inFlight = false := by
    rw [← (run.mono fun _ _ _ h => h.1).foldl_eq]
    exact hEnds answers hLong
  obtain ⟨hFinished, hCompletes, _⟩ := hRun.ended hDef hDefinition hDone
  exact ⟨fun hBoth => hCompletes.mp hBoth.2, fun hUntangled => ⟨hFinished, hCompletes.mpr hUntangled⟩⟩

end Moves

/-! Every task answers with the acceptance that a review gives. -/

def acceptance : Json := .object [("decision", .string "complete")]

/-- The acceptance of the sample obliges every task, the verifier included. -/
theorem acceptance_good {env : EngineEnv} (hExt : env.ext = sampleEnv.ext) {s : System} :
    Obliging env s (.ok (.success acceptance)) := by
  intro pass started call rest _ _
  rw [hExt]
  refine ⟨acceptance, rfl, fun schema _ => ?_, ?_, fun _ => ⟨_, rfl, rfl⟩⟩
  · cases schema <;> rfl
  · unfold exitReason
    split <;> rfl

/-- A check that can be evaluated: the function of every task is found. -/
theorem functionsKnown_of_isSome {env : EngineEnv} {definition : WorkflowDef}
    (h : ∀ taskDef ∈ definition.tasks,
      (resolveTaskFunctionRef env.functionDefs taskDef).toOption.isSome) :
    FunctionsKnown env definition :=
  fun taskDef hMem => ⟨_, eq_ok_get (h taskDef hMem)⟩

/-- A rank on the nodes that grows along the edges shows that no slices are
tangled. -/
theorem untangled_of_rank {definition : WorkflowDef} (rank : String → Nat)
    (h : ∀ edge ∈ definition.sliceEdges, rank edge.1 < rank edge.2) : definition.Untangled :=
  acyclic_iff_ranked.mpr ⟨rank, fun a b hEdge => h (a, b) hEdge⟩

def articleRank (node : String) : Nat := if node = "review" then 0 else 1

/-- Moves all of whose answers are the acceptance. -/
def accepts (count : Nat) : List Answer := List.replicate count (.ok (.success acceptance))

/-- Accepting answers, one after another, make a run whose moves all oblige. -/
theorem obligedMoves_accepts (env : EngineEnv) (hExt : env.ext = sampleEnv.ext) (start : System)
    (count : Nat) :
    System.ObligedMoves env start (accepts count) ((accepts count).foldl (System.move env) start) := by
  have hSame : ∀ answer ∈ accepts count, answer = .ok (.success acceptance) :=
    fun answer hMem => List.eq_of_mem_replicate hMem
  refine ((Run.of_foldl (System.move env) (accepts count) start).labelled hSame).mono ?_
  rintro s answer s' ⟨hMove, rfl⟩
  exact ⟨hMove, acceptance_good hExt⟩

/-- A pass on the article, which asks for no inputs, completes it if it makes
enough moves. -/
theorem System.ObligedMoves.accepted_completes_article : ∃ answers s,
    System.ObligedMoves sampleEnv (System.fresh "article-1" "article" ⟨"host"⟩ none []) answers s ∧
      s.pass = .finished .ok ∧ s.stored.status = .completed := by
  have hAccepted : validateAndNormalizeWorkflowDef sampleSubmitted = .ok sampleDefinition :=
    eq_ok_get sampleSubmitted_accepted
  have hDefinition : sampleEnv.definitions "article" = some sampleDefinition := rfl
  obtain ⟨bound, hEnds⟩ := System.ObligedMoves.accepted_completes_iff hAccepted hDefinition
    (by decide +kernel) (functionsKnown_of_isSome (by decide +kernel))
  have hLong : bound < (accepts (bound + 1)).length := by
    rw [accepts, List.length_replicate]
    exact Nat.lt_succ_self bound
  have run := obligedMoves_accepts sampleEnv rfl
    (System.fresh "article-1" "article" ⟨"host"⟩ none []) (bound + 1)
  exact ⟨_, _, run, (hEnds _ _ hLong run).mpr (untangled_of_rank articleRank (by decide +kernel))⟩

/-! The two slices that wait for each other, without the task that may exit. -/

/-- Validation accepts the tangled definition: its graph of tasks has no cycle,
though its graph of slices has. -/
theorem tangledSubmitted_accepted :
    (validateAndNormalizeWorkflowDef tangledSubmitted).toOption.isSome := by
  decide +kernel

def tangledDefinition : WorkflowDef :=
  (validateAndNormalizeWorkflowDef tangledSubmitted).toOption.get tangledSubmitted_accepted

def tangledEnv : EngineEnv :=
  { sampleEnv with definitions := fun id => if id = "tangled" then some tangledDefinition else none }

def tangledFresh : System := System.fresh "tangled-1" "tangled" ⟨"host"⟩ none []

/-- The pass has returned and the workflow is running. -/
def restsRunning (s : System) : Bool :=
  match s.pass with
  | .finished .ok => s.stored.status = .running
  | _ => false

/-- The check for a pass that has ended with its instance still running. -/
theorem restsRunning_iff {s : System} :
    restsRunning s = true ↔ s.pass = .finished .ok ∧ s.stored.status = .running := by
  unfold restsRunning
  split
  · rename_i hPass
    simp [hPass]
  · rename_i hOther
    exact iff_of_false Bool.false_ne_true fun hBoth => hOther hBoth.1

/-- After forty accepting answers the pass on the tangled definition has come
to rest. -/
theorem tangled_rests :
    restsRunning ((accepts 40).foldl (System.move tangledEnv) tangledFresh) = true := by
  decide +kernel

/-- The pass returns, the workflow is left running, and both reviews are left
pending. -/
theorem tangled_pass_rests :
    validateAndNormalizeWorkflowDef tangledSubmitted = .ok tangledDefinition ∧
    (∀ taskDef ∈ tangledDefinition.tasks, taskDef.inputSchemas = []) ∧
    FunctionsKnown tangledEnv tangledDefinition ∧
    ∃ s, System.ObligedMoves tangledEnv tangledFresh (accepts 40) s ∧ s.pass = .finished .ok ∧
      s.stored.status = .running ∧
      ∀ id ∈ ["a2[1]", "b2[1]"], (s.stored.tasks.lookup id).map (·.status) = some .pending := by
  have run : System.ObligedMoves tangledEnv tangledFresh (accepts 40) _ :=
    obligedMoves_accepts tangledEnv rfl tangledFresh 40
  obtain ⟨hFinished, hRunning⟩ := restsRunning_iff.mp tangled_rests
  exact ⟨eq_ok_get tangledSubmitted_accepted, by decide +kernel,
    functionsKnown_of_isSome (by decide +kernel), _, run, hFinished, hRunning, by decide +kernel⟩

/-! The article whose draft reads the trigger input. -/

def briefedFresh : System :=
  System.fresh "article-1" "article" ⟨"host"⟩ (some (.string "a brief")) []

/-- The inputs of the attempt in flight fit, after the next move. -/
def fitsNext (env : EngineEnv) (s : System) (answer : Answer) : Bool :=
  match (s.move env answer).pass with
  | .active pass => pass.point.started.all fun started =>
      (validateInputs env.ext started.taskDef started.inputs.values).toOption.isSome
  | _ => true

/-- The check, evaluated on one move, that the inputs fit. -/
theorem inputsFit_of_fitsNext {env : EngineEnv} {s : System} {answer : Answer}
    (h : fitsNext env s answer = true) : (s.move env answer).pass.InputsFit env.ext := by
  unfold fitsNext at h
  split at h
  · rename_i pass hPass
    rw [hPass]
    intro started hStarted
    rw [hStarted, Option.all_some] at h
    exact eq_ok_get h
  · rename_i hOther
    unfold PassState.InputsFit
    split
    · rename_i pass hPass
      exact absurd hPass (hOther pass)
    · trivial

/-- In the sample with an input schema every input fits, up to the end of the
pass. -/
theorem accepts_fit : ((accepts 40).foldlM (fun s answer =>
    if fitsNext briefedEnv s answer then some (s.move briefedEnv answer) else none)
      briefedFresh).any (fun s => !s.pass.inFlight) = true := by
  decide +kernel

/-- The draft reads its brief, and the pass completes the article. -/
theorem System.GoodMoves.completes_briefed : ∃ s,
    System.GoodMoves briefedEnv briefedFresh (accepts 40) s ∧ s.pass = .finished .ok ∧
      s.stored.status = .completed := by
  have hAccepted : validateAndNormalizeWorkflowDef briefedSubmitted = .ok briefedDefinition :=
    eq_ok_get briefedSubmitted_accepted
  have hDefinition : briefedEnv.definitions "article" = some briefedDefinition := rfl
  obtain ⟨s, hFound, hDone⟩ := (Option.any_eq_true _ _).mp accepts_fit
  have hSame : ∀ answer ∈ accepts 40, answer = .ok (.success acceptance) :=
    fun answer hMem => List.eq_of_mem_replicate hMem
  have run : System.GoodMoves briefedEnv briefedFresh (accepts 40) s := by
    refine ((Run.of_guarded hFound).labelled hSame).mono ?_
    rintro s answer s' ⟨⟨hMove, hFits⟩, rfl⟩
    obtain rfl := Option.some.inj hMove
    exact ⟨⟨rfl, acceptance_good rfl⟩, inputsFit_of_fitsNext hFits⟩
  obtain ⟨hFinished, hCompletes, _⟩ := (System.GoodMoves.completes_iff_untangled hAccepted
    hDefinition (functionsKnown_of_isSome (by decide +kernel))).2 _ s run (by simpa using hDone)
  exact ⟨s, run, hFinished, hCompletes.mpr (untangled_of_rank articleRank (by decide +kernel))⟩

end RelayFold
