import RelayFold.Lifecycle.AnswersRecorded

/-! The commit of one step of the system: the result that a pass holds, or a
batch that records no answer. -/
namespace RelayFold

open WorkflowEngine WorkflowStateManager WorkflowService FallibleFold

/-- A commit that records no valid output, asks for no input and skips nothing,
and that keeps the verifier states. -/
structure Quiet (before after : WorkflowInstance) : Prop where
  waiting : ∀ id b, after.tasks.lookup id = some b → b.status.isInputNeeded = true →
    ∃ a, before.tasks.lookup id = some a ∧ a.status.isInputNeeded = true
  satisfied : ∀ id b, after.tasks.lookup id = some b → b.satisfactionStatus = .satisfied →
    ∃ a, before.tasks.lookup id = some a ∧ a.satisfactionStatus = .satisfied
  skipped : ∀ id b, after.tasks.lookup id = some b → b.status = .skipped →
    ∃ a, before.tasks.lookup id = some a ∧ a.status = .skipped
  states : ∀ verifierId state, before.verifierStates.lookup verifierId = some state →
    after.verifierStates.lookup verifierId = some state

/-- The batch that a step commits on the stored snapshot, with what is known of
it. -/
inductive Commit (env : EngineEnv) (definition : WorkflowDef) (s : System)
    (reduced : WorkflowInstance) : Action → List WorkflowInstanceEvent → Prop
  | quiet {action : Action} {events : List WorkflowInstanceEvent} {plan rest : List String}
      (hWrite : Write env.ext definition ⟨s.stored, plan⟩ action.writer events rest)
      (hQuiet : Quiet s.stored reduced)
      (hRequest : ∀ request seen, action = .request request seen →
        s.snapshots[seen]? = some s.stored ∧
          request.batch env.definitions s.stored = .ok (some events)) :
      Commit env definition s reduced action events
  | result {pass : ActivePass} {started : StartedTask} {answer : Answer} {result : ResultCommit}
      {rest : List String} (hPass : s.pass = .active pass)
      (hPoint : pass.point = .commitResult started answer result s.stored rest)
      (hStatus : s.stored.status = .running ∨ s.stored.status = .paused)
      (hSlices : pass.loopSlices.Perm (computeLoopSlices definition))
      (hStarted : Started definition pass.loopSlices s.stored started)
      (hResult : Recorded env.ext s.stored definition pass.loopSlices started.taskAttemptId
        started.taskDef started.inputs answer result) :
      Commit env definition s reduced .passStep result.events

section Quiet

variable {definition : WorkflowDef} {l : Lifecycle} {workflow reduced : WorkflowInstance}

/-- The attempts and the states are as before. -/
theorem Quiet.of_same (hTasks : reduced.tasks = workflow.tasks)
    (hStates : SameStates workflow reduced) : Quiet workflow reduced := by
  refine ⟨fun key b hb hWaiting => ?_, fun key b hb hSatisfied => ?_, fun key b hb hSkipped => ?_,
    fun verifierId state h => ?_⟩
  · exact ⟨b, by rw [← hTasks, hb], hWaiting⟩
  · exact ⟨b, by rw [← hTasks, hb], hSatisfied⟩
  · exact ⟨b, by rw [← hTasks, hb], hSkipped⟩
  · rw [hStates, h]

/-- Some attempts change, and new ones are pending. -/
theorem Quiet.of_tasks (hStates : SameStates workflow reduced)
    (hTasks : ∀ id b, reduced.tasks.lookup id = some b →
      (b.status.isInputNeeded = false ∧ b.satisfactionStatus ≠ .satisfied ∧ b.status ≠ .skipped) ∨
      ∃ a, workflow.tasks.lookup id = some a ∧
        (b.status.isInputNeeded = true → a.status.isInputNeeded = true) ∧
        (b.satisfactionStatus = .satisfied → a.satisfactionStatus = .satisfied) ∧
        (b.status = .skipped → a.status = .skipped)) :
    Quiet workflow reduced := by
  refine ⟨fun key b hb hWaiting => ?_, fun key b hb hSatisfied => ?_, fun key b hb hSkipped => ?_,
    fun verifierId state h => ?_⟩
  · rcases hTasks key b hb with ⟨hNot, _⟩ | ⟨a, ha, hOld, _⟩
    · rw [hNot] at hWaiting
      cases hWaiting
    · exact ⟨a, ha, hOld hWaiting⟩
  · rcases hTasks key b hb with ⟨_, hNot, _⟩ | ⟨a, ha, _, hOld, _⟩
    · exact absurd hSatisfied hNot
    · exact ⟨a, ha, hOld hSatisfied⟩
  · rcases hTasks key b hb with ⟨_, _, hNot⟩ | ⟨a, ha, _, _, hOld⟩
    · exact absurd hSkipped hNot
    · exact ⟨a, ha, hOld hSkipped⟩
  · rw [hStates, h]

/-- Whoever commits beside the passes commits nothing but quiet batches. -/
theorem WriteEffect.quiet {writer : Writer} (h : WriteEffect definition l reduced writer)
    (hWriter : writer ≠ .pass) : Quiet l.stored reduced := by
  cases h with
  | status _ hTasks hStates => exact .of_same hTasks hStates
  | initialTasks | initialGenerations | start | result => exact absurd rfl hWriter
  | humanInput _ _ _ hTasks hStates =>
      refine .of_tasks hStates fun key b hb => ?_
      rw [hTasks] at hb
      split at hb
      · cases hb
        exact .inl ⟨rfl, nofun, nofun⟩
      · exact .inr ⟨b, hb, id, id, id⟩
  | retry _ _ hTasks hStates =>
      refine .of_tasks hStates fun key b hb => ?_
      rw [hTasks] at hb
      split at hb
      · cases hb
        exact .inl ⟨rfl, nofun, nofun⟩
      · exact .inr ⟨b, hb, id, id, id⟩
  | recover hTasks hStates =>
      refine .of_tasks hStates fun key b hb => ?_
      rw [hTasks] at hb
      split at hb
      · obtain ⟨a, ha, rfl⟩ := Option.map_eq_some_iff.mp hb
        refine .inr ⟨a, ha, fun hWaiting => ?_, fun hSatisfied => ?_, fun hSkipped => ?_⟩
        · unfold TaskInstance.recovered at hWaiting
          split at hWaiting
          · cases hWaiting
          · exact hWaiting
        · unfold TaskInstance.recovered at hSatisfied
          split at hSatisfied <;> exact hSatisfied
        · unfold TaskInstance.recovered at hSkipped
          split at hSkipped
          · cases hSkipped
          · exact hSkipped
      · exact .inr ⟨b, hb, id, id, id⟩

end Quiet

section Step

variable {env : EngineEnv} {definition : WorkflowDef} {s s' : System} {l : Lifecycle}

/-- A commit that was accepted is on the stored snapshot. -/
theorem HistoryInv.commit_some (h : HistoryInv env definition s) {base updated : WorkflowInstance}
    {events : List WorkflowInstanceEvent} {next : WorkflowInstance → PassState} {state : PassState}
    (hHeld : base ∈ s.snapshots)
    (hCommit : ActivePass.commit s.stored base events next = (state, some updated)) :
    base = s.stored ∧ ∃ reduced,
      reduceWorkflowInstanceEvents (some s.stored) events = .ok reduced ∧
      updated = reduced.withVersion (s.stored.version + events.length) := by
  unfold ActivePass.commit at hCommit
  cases hOn : commitOn s.stored base events with
  | error error =>
      rw [hOn] at hCommit
      cases hCommit
  | ok committed =>
      rw [hOn] at hCommit
      cases hCommit
      obtain ⟨_, hVersion, reduced, hReduce, rfl⟩ := commitOn_ok hOn
      obtain rfl := h.eq_stored hHeld hVersion
      exact ⟨rfl, reduced, hReduce, rfl⟩

/-- A failed input check records no output. -/
theorem failure_quiet {workflow reduced : WorkflowInstance} {id : String} {task : TaskInstance}
    {inputs : ResolvedTaskInputs} (hTask : workflow.tasks.lookup id = some task)
    (hReduce : reduceWorkflowInstanceEvents (some workflow) (failureEvents id inputs) =
      .ok reduced) : Quiet workflow reduced := by
  have hEffect := (CompletionEffect.refl hTask).andThen
    (inputEvents_own.append failTaskEvents_own) hReduce
  refine .of_tasks hEffect.verifierStates fun key b hb => ?_
  by_cases hKey : key = id
  · subst hKey
    rw [hEffect.own] at hb
    cases hb
    exact .inl ⟨rfl, nofun, nofun⟩
  · rw [hEffect.kept key hKey] at hb
    obtain ⟨a, ha, rfl⟩ := Option.map_eq_some_iff.mp hb
    rw [TaskInstance.afterExit_false]
    exact .inr ⟨a, ha, fun h => h, fun h => h, fun h => h⟩

theorem status_quiet {workflow reduced : WorkflowInstance} {status : WorkflowStatus}
    (hReduce : reduceWorkflowInstanceEvents (some workflow) [.workflowStatusChanged status] =
      .ok reduced) : Quiet workflow reduced := by
  cases reduce_single hReduce
  exact .of_same rfl fun _ => rfl

/-- A result that is committed on the stored snapshot. -/
structure Records (env : EngineEnv) (definition : WorkflowDef) (workflow reduced : WorkflowInstance)
    (loopSlices : LoopSlices) (started : StartedTask) (answer : Answer) (result : ResultCommit) :
    Prop where
  status : workflow.status = .running ∨ workflow.status = .paused
  slices : loopSlices.Perm (computeLoopSlices definition)
  holds : Started definition loopSlices workflow started
  recorded : Recorded env.ext workflow definition loopSlices started.taskAttemptId started.taskDef
    started.inputs answer result
  reduce : reduceWorkflowInstanceEvents (some workflow) result.events = .ok reduced

/-- When the pass commits a result, its base is the stored snapshot, and what
is stored afterwards records that answer. -/
theorem HistoryInv.records {plan : List String} {pass : ActivePass}
    (h : HistoryInv env definition s) (hInv : ActiveInv env.ext definition plan s pass)
    {started : StartedTask} {answer : Answer} {result : ResultCommit} {base : WorkflowInstance}
    {rest : List String} (hCase : pass.point = .commitResult started answer result base rest)
    {state : PassState} {updated : WorkflowInstance}
    (hStep : pass.step env s.stored = (state, some updated)) : base = s.stored ∧ ∃ reduced,
      Records env definition s.stored reduced pass.loopSlices started answer result ∧
      updated = reduced.withVersion (s.stored.version + result.events.length) := by
  have hPoint := hInv.point
  obtain ⟨hHeld, hStatus⟩ := hInv.resultBase hCase
  unfold PointInv at hPoint
  unfold ActivePass.step at hStep
  simp only [hCase] at hStep hPoint
  obtain ⟨_, hWorking, hStarted, _, hResult, _⟩ := hPoint
  obtain ⟨hStored, reduced, hReduce, hUpdated⟩ := h.commit_some hHeld hStep
  subst hStored
  exact ⟨rfl, reduced, ⟨hStatus, hInv.slices, hStarted.of_sameWork hWorking.same,
    hWorking.recorded hResult, hReduce⟩, hUpdated⟩

/-- The commit of a pass. -/
theorem ActiveInv.commit {plan : List String} {pass : ActivePass}
    (h : HistoryInv env definition s) (hInv : ActiveInv env.ext definition plan s pass)
    (hPass : s.pass = .active pass) {state : PassState} {updated : WorkflowInstance}
    (hStep : pass.step env s.stored = (state, some updated)) : ∃ events reduced,
      reduceWorkflowInstanceEvents (some s.stored) events = .ok reduced ∧
      updated = reduced.withVersion (s.stored.version + events.length) ∧
      Commit env definition s reduced .passStep events := by
  have hPoint := hInv.point
  have hQuiet {events : List WorkflowInstanceEvent} {next : WorkflowInstance → PassState}
      (hBatch : pass.batch = some (pass.workflow, events))
      (hCommit : ActivePass.commit s.stored pass.workflow events next = (state, some updated))
      (hQuiet : pass.workflow = s.stored → ∀ reduced,
        reduceWorkflowInstanceEvents (some s.stored) events = .ok reduced →
        Quiet s.stored reduced) :
      ∃ events reduced, reduceWorkflowInstanceEvents (some s.stored) events = .ok reduced ∧
        updated = reduced.withVersion (s.stored.version + events.length) ∧
        Commit env definition s reduced .passStep events := by
    obtain ⟨hBase, reduced, hReduce, hUpdated⟩ := h.commit_some hInv.held hCommit
    exact ⟨events, reduced, hReduce, hUpdated,
      .quiet (hInv.allowed hBatch hBase) (hQuiet hBase reduced hReduce) fun _ _ hSame => by cases hSame⟩
  unfold ActivePass.step at hStep
  unfold PointInv at hPoint
  unfold ActivePass.batch at hQuiet
  cases hCase : pass.point with
  | commitRunning | commitPauseCompleted | commitCompleted =>
      simp only [hCase] at hStep hQuiet
      exact hQuiet rfl hStep fun _ _ hReduce => status_quiet hReduce
  | commitInitialTasks =>
      simp only [hCase, hInv.loaded] at hStep hPoint hQuiet
      obtain ⟨hRunning, _, hEmpty⟩ := hPoint
      refine hQuiet rfl hStep fun hBase reduced hReduce => ?_
      rw [hBase] at hEmpty hReduce
      have hStates : SameStates s.stored reduced := sameStates_of_events hReduce
        (by simp [initialTaskEvents, WorkflowInstanceEvent.verifierEffect])
      refine .of_tasks hStates fun key b hb => ?_
      obtain ⟨taskDef, _, _, rfl⟩ :=
        initialTaskEvents_lookup hReduce ((FiniteMap.isEmpty_iff _).mp hEmpty key) hb
      exact .inl ⟨rfl, fun h => (by cases h), fun h => by cases h⟩
  | commitGenerations events =>
      simp only [hCase] at hStep hPoint hQuiet
      obtain ⟨hRunning, _, hTasks, rfl⟩ := hPoint
      refine hQuiet rfl hStep fun hBase reduced hReduce => ?_
      rw [hBase] at hTasks hReduce
      have hAfter := initialGenerations_after hTasks hInv.slices hReduce
      refine ⟨fun key b hb hWaiting => ?_, fun key b hb hSatisfied => ?_,
        fun key b hb hSkipped => ?_, hAfter.kept⟩
      · exact ⟨b, by rw [← hAfter.tasks, hb], hWaiting⟩
      · exact ⟨b, by rw [← hAfter.tasks, hb], hSatisfied⟩
      · exact ⟨b, by rw [← hAfter.tasks, hb], hSkipped⟩
  | commitStart id rest =>
      simp only [hCase] at hStep hPoint hQuiet
      obtain ⟨_, _, _, _, task, hTask, _⟩ := hPoint
      refine hQuiet rfl hStep fun hBase reduced hReduce => ?_
      rw [hBase] at hTask
      refine .of_tasks (sameStates_of_events hReduce (List.forall_mem_singleton.mpr fun _ _ => rfl))
        fun key b hb => ?_
      rw [taskMut_lookup (reduce_single hReduce) key] at hb
      split at hb
      · rename_i hKey
        rw [hKey, hTask] at hb
        cases hb
        exact .inr ⟨task, hKey ▸ hTask, fun h => (by cases h), fun h => h, fun h => by cases h⟩
      · exact .inr ⟨b, hb, fun h => h, fun h => h, fun h => h⟩
  | commitInputFailure started error =>
      simp only [hCase] at hStep hPoint hQuiet
      obtain ⟨_, _, hStarted, _⟩ := hPoint
      refine hQuiet rfl hStep fun hBase reduced hReduce => ?_
      rw [hBase] at hStarted
      exact failure_quiet (startedTask_eq hStarted.resolved).2.1 hReduce
  | checkPaused id rest =>
      simp only [hCase] at hStep
      split at hStep <;> cases hStep
  | resolveFunction _ _ | awaitAnswer _ _ _ | readCurrent _ _ _ _ =>
      simp only [hCase] at hStep
      cases hStep
  | commitResult started answer result base rest =>
      obtain ⟨hBase, reduced, hRecords, hUpdated⟩ := h.records hInv hCase hStep
      subst hBase
      exact ⟨_, reduced, hRecords.reduce, hUpdated, .result hPass hCase hRecords.status
        hRecords.slices hRecords.holds hRecords.recorded⟩

/-- The snapshots after a step: as before, or with one more commit. -/
inductive Commits (env : EngineEnv) (definition : WorkflowDef) (s : System) (action : Action)
    (s' : System) : Prop
  | same (hStored : s'.stored = s.stored)
  | committed {events : List WorkflowInstanceEvent} {reduced : WorkflowInstance}
      (hReduce : reduceWorkflowInstanceEvents (some s.stored) events = .ok reduced)
      (hStored : s'.stored = reduced.withVersion (s.stored.version + events.length))
      (hCommit : Commit env definition s reduced action events)

/-- What a request commits on the stored snapshot is allowed there. -/
theorem Request.batch_write {request : Request} {definitions : String → Option WorkflowDef}
    {workflow : WorkflowInstance} {events : List WorkflowInstanceEvent} {ext : Externals}
    (hDefinition : definitions workflow.workflowDefId = some definition)
    (hBatch : request.batch definitions workflow = .ok (some events)) (seen : Nat) :
    ∃ plan, Write ext definition ⟨workflow, []⟩ (Action.request request seen).writer events plan := by
  cases request with
  | pauseWorkflow =>
      simp only [Request.batch] at hBatch
      split at hBatch
      · cases hBatch
        rename_i hPending
        exact ⟨_, .pause (.inl hPending)⟩
      · cases hBatch
        rename_i hRunning
        exact ⟨_, .pause (.inr hRunning)⟩
      · cases hBatch
      · cases hBatch
  | resumeWorkflow =>
      simp only [Request.batch] at hBatch
      split at hBatch
      · cases hBatch
      · rename_i hPaused
        cases hBatch
        exact ⟨_, .resume (not_not.mp hPaused)⟩
  | submitHumanInput taskId submittedInput =>
      obtain ⟨⟨id, next⟩, hLoad, hBatch⟩ := bind_ok.mp hBatch
      cases hBatch
      obtain ⟨hStatus, definition', task, taskDef, hFound, hTask, hWaiting, hTaskDef, hAgent, rfl⟩ :=
        loadWaitingTask_ok hLoad
      rw [hDefinition] at hFound
      cases hFound
      exact ⟨_, .humanInput hStatus hTask hWaiting hTaskDef hAgent⟩
  | retryTask taskId =>
      obtain ⟨id, _, hBatch⟩ := bind_ok.mp hBatch
      cases hBatch
      exact ⟨_, .retry⟩
  | forceRetryTask taskId target =>
      obtain ⟨id, _, hBatch⟩ := bind_ok.mp hBatch
      cases hBatch
      exact ⟨_, .forceRetry⟩
  | failPinnedToLostHosts lostHosts =>
      simp only [Request.batch] at hBatch
      split at hBatch
      · cases hBatch
      · split at hBatch
        · cases hBatch
        · rename_i hLost
          cases hBatch
          rw [not_or, not_or] at hLost
          exact ⟨_, .hostLost ⟨hLost.1, hLost.2.1⟩⟩

/-- A commit of another writer. -/
theorem Refines.quietCommit (h : Refines env definition s l) {action : Action}
    (hWriter : action.writer ≠ .pass) {base : WorkflowInstance}
    {events : List WorkflowInstanceEvent} {plan : List String} (hHeld : base ∈ s.snapshots)
    (hWrite : base = s.stored →
      Write env.ext definition ⟨s.stored, []⟩ action.writer events plan)
    (hRequest : base = s.stored → ∀ request seen, action = .request request seen →
      s.snapshots[seen]? = some s.stored ∧
        request.batch env.definitions s.stored = .ok (some events)) :
    Commits env definition s action (s.commit base events) := by
  rcases h.commit_eq hHeld events with hSame | ⟨hBase, reduced, hReduce, hSaved⟩
  · exact .same (by rw [hSame])
  · have hEffect := (hWrite hBase).effect hReduce
    exact .committed hReduce (by rw [hSaved]; rfl)
      (.quiet (hWrite hBase) (hEffect.quiet hWriter) (hRequest hBase))

/-- What a step commits. -/
theorem Refines.commits (h : Refines env definition s l) {action : Action}
    (hStep : s.step env action = some s') : Commits env definition s action s' := by
  cases action with
  | startPass order =>
      simp only [System.step] at hStep
      split at hStep
      · cases hStep
      · cases hStep
        exact .same rfl
  | crash =>
      cases hStep
      exact .same rfl
  | answer result =>
      obtain ⟨pass, _, rfl⟩ := Option.map_eq_some_iff.mp hStep
      exact .same rfl
  | passStep =>
      have hInv := h.pass
      rw [System.step_passStep] at hStep
      cases hStep
      rcases hNext : s.pass.step env s.stored with ⟨state, _ | updated⟩
      · exact .same rfl
      · cases hPass : s.pass with
        | active pass =>
            rw [hPass] at hNext hInv
            obtain ⟨events, reduced, hReduce, hUpdated, hCommit⟩ :=
              hInv.commit h.history hPass hNext
            exact .committed hReduce hUpdated hCommit
        | _ =>
            rw [hPass] at hNext
            cases hNext
  | request request seen =>
      simp only [System.step] at hStep
      obtain ⟨base, hBase, hStep⟩ := Option.bind_eq_some_iff.mp hStep
      have hHeld := List.mem_of_getElem? hBase
      split at hStep
      · rename_i events hBatch
        cases hStep
        obtain ⟨plan, hWrite⟩ := @Request.batch_write definition request env.definitions base events
          env.ext (h.history.defId base hHeld) hBatch seen
        have hAllowed (hStored : base = s.stored) : Write env.ext definition ⟨s.stored, []⟩
            (Action.request request seen).writer events plan := hStored ▸ hWrite
        refine h.quietCommit (Action.request_writer request seen).2 hHeld hAllowed
          fun hStored other read hSame => ?_
        cases hSame
        rw [← hStored]
        exact ⟨hBase, hBatch⟩
      · cases hStep
        exact .same rfl
  | recover listed seen current =>
      simp only [System.step] at hStep
      obtain ⟨_, _, hStep⟩ := Option.bind_eq_some_iff.mp hStep
      obtain ⟨snapshot, _, hStep⟩ := Option.bind_eq_some_iff.mp hStep
      obtain ⟨base, hBase, hStep⟩ := Option.bind_eq_some_iff.mp hStep
      split at hStep
      · cases hStep
      · split at hStep
        · rename_i events hRecovery
          cases hStep
          simp only [startupRecovery] at hRecovery
          split at hRecovery
          · cases hRecovery
            exact h.quietCommit (by simp [Action.writer]) (List.mem_of_getElem? hBase)
              (fun _ => .recover _)
              fun _ _ _ hSame => (by cases hSame)
          · cases hRecovery
        · cases hStep
          exact .same rfl

/-- The step of a pass that holds a result is refused, or it records the
result. -/
theorem Refines.records (h : Refines env definition s l) {pass : ActivePass}
    {started : StartedTask} {answer : Answer} {result : ResultCommit} {base : WorkflowInstance}
    {rest : List String} (hPass : s.pass = .active pass)
    (hPoint : pass.point = .commitResult started answer result base rest)
    (hStep : s.step env .passStep = some s') : s'.stored = s.stored ∨ ∃ reduced,
      Records env definition s.stored reduced pass.loopSlices started answer result ∧
      s'.stored = reduced.withVersion (s.stored.version + result.events.length) := by
  have hInv := h.pass
  rw [System.step_passStep] at hStep
  cases hStep
  rw [hPass] at hInv ⊢
  rcases hNext : PassState.step env s.stored (.active pass) with ⟨state, _ | updated⟩
  · exact .inl rfl
  · obtain ⟨_, reduced, hRecords, hUpdated⟩ := h.history.records hInv hPoint hNext
    exact .inr ⟨reduced, hRecords, hUpdated⟩

/-- A recorded answer has the outcome that the engine computes for it on that
snapshot. -/
theorem Records.outcome {workflow reduced : WorkflowInstance} {loopSlices : LoopSlices}
    {started : StartedTask} {answer : Answer} {result : ResultCommit}
    (h : Records env definition workflow reduced loopSlices started answer result) :
    Outcome env.ext workflow reduced loopSlices started.taskAttemptId started.task started.taskDef
      started.inputs answer result := by
  obtain ⟨_, hTask, hDef, _⟩ := startedTask_eq h.holds.resolved
  exact h.recorded.outcome hTask h.holds.running hDef (findTask_some hDef).2.symm h.reduce

/-- Every commit is allowed by the stored snapshot. -/
theorem Commit.write {reduced : WorkflowInstance} {action : Action}
    {events : List WorkflowInstanceEvent} (h : Commit env definition s reduced action events) :
    ∃ plan rest, Write env.ext definition ⟨s.stored, plan⟩ action.writer events rest := by
  cases h with
  | quiet hWrite _ _ => exact ⟨_, _, hWrite⟩
  | result _ _ hStatus hSlices hStarted hResult =>
      exact ⟨[], [], .result hStatus hSlices hStarted.resolved hStarted.running hResult⟩

theorem Commit.effect {reduced : WorkflowInstance} {action : Action}
    {events : List WorkflowInstanceEvent} (h : Commit env definition s reduced action events)
    (hReduce : reduceWorkflowInstanceEvents (some s.stored) events = .ok reduced) :
    ∃ plan, WriteEffect definition ⟨s.stored, plan⟩ reduced action.writer := by
  obtain ⟨plan, _, hWrite⟩ := h.write
  exact ⟨plan, hWrite.effect hReduce⟩

/-- Whoever commits, the attempts only make the moves that its kind of writer
may make. -/
theorem Commit.attemptsAfter {reduced : WorkflowInstance} {action : Action}
    {events : List WorkflowInstanceEvent} (h : Commit env definition s reduced action events)
    (hReduce : reduceWorkflowInstanceEvents (some s.stored) events = .ok reduced) :
    AttemptsAfter action.writer s.stored reduced := by
  obtain ⟨_, _, hWrite⟩ := h.write
  exact hWrite.attemptsAfter hReduce

/-- An accepted submission continues the attempt that it means. -/
structure Submission (env : EngineEnv) (s : System) (reduced : WorkflowInstance)
    (taskId id : String) (task : TaskInstance) (submittedInput : Json) : Prop where
  loaded : loadWaitingTask env.definitions s.stored taskId =
    .ok (id, makeTaskAttemptId task.taskDefId (continuationGeneration task.generationIndex))
  found : s.stored.tasks.lookup id = some task
  waiting : task.status.isInputNeeded = true
  free : s.stored.tasks.lookup
    (makeTaskAttemptId task.taskDefId (continuationGeneration task.generationIndex)) = none
  tasks : ∀ key, reduced.tasks.lookup key =
    if key = makeTaskAttemptId task.taskDefId (continuationGeneration task.generationIndex) then
      some (continuationTask task.taskDefId (continuationGeneration task.generationIndex)
        submittedInput)
    else s.stored.tasks.lookup key

/-- A commit in the name of a person is the submission of an input for the
attempt that waits for it. -/
theorem Commit.submission {reduced : WorkflowInstance} {action : Action}
    {events : List WorkflowInstanceEvent} (h : Commit env definition s reduced action events)
    (hReduce : reduceWorkflowInstanceEvents (some s.stored) events = .ok reduced)
    (hWriter : action.writer = .humanInput) : ∃ taskId submittedInput seen id task,
      action = .request (.submitHumanInput taskId submittedInput) seen ∧
      s.snapshots[seen]? = some s.stored ∧
      Submission env s reduced taskId id task submittedInput := by
  cases h with
  | result => cases hWriter
  | quiet _ _ hRequest =>
      cases action with
      | request request seen =>
          obtain ⟨hSeen, hBatch⟩ := hRequest request seen rfl
          cases request with
          | submitHumanInput taskId submittedInput =>
              obtain ⟨⟨id, next⟩, hLoad, hBatch⟩ := bind_ok.mp hBatch
              cases hBatch
              obtain ⟨task, hTask, hWaiting, rfl, hFree, rfl⟩ :=
                humanInputSubmitted_ok (reduce_single hReduce)
              exact ⟨taskId, submittedInput, seen, id, task, rfl, hSeen, hLoad, hTask, hWaiting,
                hFree, fun key => FiniteMap.lookup_insert_eq ..⟩
          | _ => cases hWriter
      | _ => cases hWriter

/-- A state of a run has a lifecycle behind it. -/
def Tracked (env : EngineEnv) (definition : WorkflowDef) (s : System) : Prop :=
  ∃ l, Refines env definition s l ∧ SliceStarts definition l

/-- A new instance is tracked: its history is empty and nothing has been
committed. -/
theorem Tracked.created {id workflowDefId : String} (pinnedWorkerHost : WorkerHostId)
    (input : Option Json) (hDefinition : env.definitions workflowDefId = some definition) :
    Tracked env definition (System.created id workflowDefId pinnedWorkerHost input) :=
  ⟨Lifecycle.created id workflowDefId pinnedWorkerHost input,
    ⟨rfl, .created _ _ _ _ hDefinition, .created .., trivial⟩, .created ..⟩

/-- Every step of the system keeps the account of what has been committed and
by whom. -/
theorem Tracked.step (hDef : WellFormedDef definition) (h : Tracked env definition s)
    {action : Action} (hStep : s.step env action = some s') : Tracked env definition s' := by
  obtain ⟨l, hRefines, hStarts⟩ := h
  obtain ⟨l', writers, steps, _, hRefines'⟩ := (hRefines.step hStep).lifecycle
  exact ⟨l', hRefines', steps.sliceStarts hDef hStarts⟩

/-- Runs each of whose steps meets a condition on the state it starts from. -/
abbrev System.StepsMeeting (env : EngineEnv) (Meets : System → Action → Prop) :
    System → List Action → System → Prop :=
  Run fun s action s' => System.step env s action = some s' ∧ Meets s action

/-- What every commit that meets a condition keeps, every run whose steps meet
it keeps. -/
theorem System.StepsMeeting.keeps (hDef : WellFormedDef definition)
    {Meets : System → Action → Prop} {Inv : WorkflowInstance → Prop} {start : System}
    {actions : List Action} (run : System.StepsMeeting env Meets start actions s)
    (hTracked : Tracked env definition start) (hStart : Inv start.stored)
    (hCommit : ∀ s action events reduced, Tracked env definition s → Inv s.stored →
      Meets s action → Commit env definition s reduced action events →
      reduceWorkflowInstanceEvents (some s.stored) events = .ok reduced → Inv reduced)
    (hVersion : ∀ workflow version, Inv workflow → Inv (workflow.withVersion version)) :
    Tracked env definition s ∧ Inv s.stored := by
  refine run.invariant (P := fun s => Tracked env definition s ∧ Inv s.stored)
    ⟨hTracked, hStart⟩ ?_
  rintro s action s' ⟨hState, hInv⟩ ⟨hStep, hMeets⟩
  refine ⟨hState.step hDef hStep, ?_⟩
  have ⟨l, hRefines, _⟩ := hState
  cases hRefines.commits hStep with
  | same hStored => rwa [hStored]
  | committed hReduce hStored hAccepted =>
      rw [hStored]
      exact hVersion _ _ (hCommit _ _ _ _ hState hInv hMeets hAccepted hReduce)

end Step

end RelayFold
