import RelayFold.Core.SliceFacts
import RelayFold.Lifecycle.AttemptLifecycle

/-! The inputs of root tasks: the first attempt of a task without inbound
bindings reads the trigger input, and every later attempt of it reads
nothing. -/
namespace RelayFold

open WorkflowEngine FallibleFold

/-- A task that reads the trigger input. -/
structure RootTask (definition : WorkflowDef) (taskDef : TaskDef) : Prop where
  mem : taskDef ∈ definition.tasks
  unbound : inboundBindings definition taskDef.id = []
  reads : taskDef.inputSchemas ≠ []

/-- What an attempt of a root task is executed with. -/
def rootInputData (trigger : Json) (generation : Nat) : List Json :=
  if generation = 1 then [trigger] else []

theorem rootInputData_eq_trigger {trigger : Json} {generation : Nat} :
    rootInputData trigger generation = [trigger] ↔ generation = 1 := by
  unfold rootInputData
  split
  · simp [*]
  · simp [*]

/-- Every attempt of a root task holds these inputs, from its creation on. -/
structure RootInputs (definition : WorkflowDef) (trigger : Json) (workflow : WorkflowInstance) :
    Prop where
  triggerInput : workflow.triggerInput = some trigger
  data : ∀ taskDef, RootTask definition taskDef → ∀ id task,
    workflow.tasks.lookup id = some task → task.taskDefId = taskDef.id →
    task.inputData = rootInputData trigger task.generationIndex

variable {definition : WorkflowDef} {trigger : Json}

/-- A task without inbound bindings is executed with the inputs its attempt
holds. -/
theorem resolveInputs_unbound {workflow : WorkflowInstance} {task : TaskInstance}
    {taskDef : TaskDef} {loopSlices : LoopSlices}
    (h : inboundBindings definition taskDef.id = []) :
    ((resolveInputs workflow definition task taskDef loopSlices).getD ⟨[], []⟩).values =
      task.inputData := by
  unfold resolveInputs
  rw [h]
  cases hData : task.inputData with
  | nil => rfl
  | cons _ _ => simp

theorem startedTask_root (hDef : WellFormedDef definition) {workflow : WorkflowInstance}
    {loopSlices : LoopSlices} {started : StartedTask} {taskDef : TaskDef}
    (hStarted : startedTask workflow definition loopSlices started.taskAttemptId = some started)
    (hRoot : RootTask definition taskDef) (hTask : started.task.taskDefId = taskDef.id) :
    started.inputs.values = started.task.inputData := by
  obtain ⟨_, _, hFound, hInputs⟩ := startedTask_eq hStarted
  rw [hTask, hDef.findTask_mem hRoot.mem] at hFound
  cases hFound
  rw [hInputs]
  exact resolveInputs_unbound hRoot.unbound

/-- An attempt that did not exist before is of a later generation. -/
theorem TasksInitialized.generation_ne {workflow : WorkflowInstance}
    (h : TasksInitialized definition workflow) {taskDef : TaskDef} (hMem : taskDef ∈ definition.tasks)
    {generation : Nat}
    (hNone : workflow.tasks.lookup (makeTaskAttemptId taskDef.id generation) = none) :
    generation ≠ 1 := by
  rintro rfl
  have hSome := h taskDef hMem
  rw [hNone] at hSome
  cases hSome

theorem RootInputs.of_tasks {before after : WorkflowInstance}
    (h : RootInputs definition trigger before) (hTrigger : after.triggerInput = before.triggerInput)
    (hTasks : ∀ taskDef, RootTask definition taskDef → ∀ id b, after.tasks.lookup id = some b →
      b.taskDefId = taskDef.id → b.inputData = rootInputData trigger b.generationIndex ∨
      ∃ a, before.tasks.lookup id = some a ∧ b.taskDefId = a.taskDefId ∧
        b.generationIndex = a.generationIndex ∧ b.inputData = a.inputData) :
    RootInputs definition trigger after := by
  refine ⟨hTrigger.trans h.triggerInput, fun taskDef hRoot id b hb hTask => ?_⟩
  rcases hTasks taskDef hRoot id b hb hTask with hData | ⟨a, ha, hId, hGeneration, hData⟩
  · exact hData
  · rw [hData, hGeneration]
    exact h.data taskDef hRoot id a ha (hId ▸ hTask)

/-- The result of an attempt changes no inputs: it records those it was
resolved with. -/
theorem RootInputs.of_result (hDef : WellFormedDef definition) {workflow reduced : WorkflowInstance}
    (h : RootInputs definition trigger workflow) (hInitialized : TasksInitialized definition workflow)
    {loopSlices : LoopSlices} {started : StartedTask} {final : WorkflowStatus}
    {events rest : List WorkflowInstanceEvent}
    (hReduce : reduceWorkflowInstanceEvents (some workflow) events = .ok reduced)
    (hStarted : startedTask workflow definition loopSlices started.taskAttemptId = some started)
    (hRunning : started.task.status = .running)
    (hEvents : ResultEvents workflow started.taskAttemptId final events)
    (hInputs : events = inputEvents started.taskAttemptId started.inputs ++ rest)
    (hRest : ∀ event ∈ rest, event.isInput = false)
    (hAnswers : ∃ status : TaskStatus, status.isAnswered = true ∧
      .taskStatusChanged started.taskAttemptId status ∈ events) :
    RootInputs definition trigger reduced := by
  have hTask := (startedTask_eq hStarted).2.1
  have hAfter := hEvents.after hReduce (by rw [hTask]; rfl) hAnswers
  have hTrigger := (reduceWorkflowInstanceEvents_identity hReduce).triggerInput
  subst hInputs
  refine h.of_tasks hTrigger fun taskDef hRoot id b hb hId => ?_
  by_cases hKey : id = started.taskAttemptId
  · subst hKey
    obtain ⟨c, hc, hTaskDef, hGeneration, _⟩ := hAfter.answered _ hTask hRunning
    obtain ⟨d, hd, hData, _⟩ := hEvents.inputs_after hReduce hRest hTask
    rw [hb] at hc hd
    cases hc
    cases hd
    refine .inr ⟨started.task, hTask, hTaskDef, hGeneration, ?_⟩
    rw [hData]
    exact startedTask_root hDef hStarted hRoot (hTaskDef ▸ hId)
  · cases ha : workflow.tasks.lookup id with
    | some a =>
        obtain ⟨c, hc, hSame, _⟩ := hAfter.other id a hKey ha
        rw [hb] at hc
        cases hc
        rw [hSame]
        exact .inr ⟨a, rfl, rfl, rfl, rfl⟩
    | none =>
        obtain ⟨taskDefId, generation, rfl, hFresh, _⟩ := hAfter.fresh id b ha hb
        rw [hFresh] at hId ⊢
        have hId : taskDefId = taskDef.id := hId
        rw [hId] at ha
        have hLater := hInitialized.generation_ne hRoot.mem ha
        exact .inl (if_neg hLater).symm

/-- Every commit keeps the inputs of root tasks. -/
theorem Write.rootInputs {ext : Externals} (hDef : WellFormedDef definition) {l : Lifecycle}
    {writer : Writer} {events : List WorkflowInstanceEvent} {plan : List String}
    {reduced : WorkflowInstance} (hSound : Sound definition l.stored)
    (h : RootInputs definition trigger l.stored) (hWrite : Write ext definition l writer events plan)
    (hReduce : reduceWorkflowInstanceEvents (some l.stored) events = .ok reduced) :
    RootInputs definition trigger reduced := by
  have hTrigger := (reduceWorkflowInstanceEvents_identity hReduce).triggerInput
  have hModify (ids : List String) (change : TaskInstance → TaskInstance)
      (hChange : ∀ task, (change task).taskDefId = task.taskDefId ∧
        (change task).generationIndex = task.generationIndex ∧
        (change task).inputData = task.inputData)
      (hLookup : ∀ key, reduced.tasks.lookup key = if key ∈ ids
        then (l.stored.tasks.lookup key).map change else l.stored.tasks.lookup key) :
      RootInputs definition trigger reduced := by
    refine h.of_tasks hTrigger fun _ _ id b hb _ => ?_
    rw [hLookup] at hb
    split at hb
    · obtain ⟨a, ha, rfl⟩ := Option.map_eq_some_iff.mp hb
      exact .inr ⟨a, ha, hChange a⟩
    · exact .inr ⟨b, hb, rfl, rfl, rfl⟩
  have hInitialized {id : String} {task : TaskInstance}
      (hTask : l.stored.tasks.lookup id = some task) : TasksInitialized definition l.stored :=
    hSound.initialized (FiniteMap.isEmpty_eq_false_of_lookup _ hTask)
  cases hWrite with
  | begin _ | complete _ _ | pause _ | resume _ | hostLost _ =>
      cases reduce_single hReduce
      exact ⟨h.triggerInput, h.data⟩
  | initialTasks hStatus hEmpty =>
      refine h.of_tasks hTrigger fun taskDef hRoot id b hb hId => .inl ?_
      obtain ⟨taskDef', hMem, rfl, rfl⟩ :=
        initialTaskEvents_lookup hReduce ((FiniteMap.isEmpty_iff _).mp hEmpty id) hb
      obtain rfl : taskDef' = taskDef := by
        have hFound := hDef.findTask_mem hMem
        rw [show taskDef'.id = taskDef.id from hId, hDef.findTask_mem hRoot.mem] at hFound
        exact (Option.some.inj hFound).symm
      have hNoBinding : definition.dataBindings.any (·.targetTaskId = taskDef'.id) = false := by
        simpa [inboundBindings] using hRoot.unbound
      have hSchemas : taskDef'.inputSchemas.isEmpty = false := by
        simpa using hRoot.reads
      simp [initialTask, initialTaskInputData, h.triggerInput, hSchemas, hNoBinding, rootInputData,
        TaskInstance.fresh]
  | initialGenerations _ hTasks hSlices =>
      have hAfter := initialGenerations_after hTasks hSlices hReduce
      refine h.of_tasks hTrigger fun _ _ id b hb _ => .inr ⟨b, ?_, rfl, rfl, rfl⟩
      rwa [← hAfter.tasks]
  | @start id _ _ _ _ _ =>
      refine hModify [id] ({ · with status := .running }) (fun _ => ⟨rfl, rfl, rfl⟩) fun key => ?_
      rw [taskMut_lookup (reduce_single hReduce) key]
      simp only [List.mem_singleton]
  | inputFailure _ _ hStarted hRunning _ =>
      exact h.of_result hDef (hInitialized (startedTask_eq hStarted).2.1) hReduce hStarted hRunning
        (failureEvents_result _) rfl (by simp [failTaskEvents, WorkflowInstanceEvent.isInput])
        ⟨.failed, rfl, by simp [failureEvents, failTaskEvents]⟩
  | result _ _ hStarted hRunning hResult =>
      obtain ⟨rest, hInputs, hRest⟩ := hResult.inputs
      exact h.of_result hDef (hInitialized (startedTask_eq hStarted).2.1) hReduce hStarted hRunning
        hResult.result hInputs hRest hResult.answers
  | @humanInput _ _ task _ _ hTask _ _ _ =>
      have hInit := hInitialized hTask
      obtain ⟨_, hSame, _, hId, hNew, rfl⟩ := humanInputSubmitted_ok (reduce_single hReduce)
      rw [hTask] at hSame
      cases hSame
      refine h.of_tasks hTrigger fun taskDef hRoot id b hb hTaskDef => ?_
      rw [FiniteMap.lookup_insert_eq] at hb
      split at hb
      · cases hb
        have hTaskDef : task.taskDefId = taskDef.id := hTaskDef
        rw [hId, hTaskDef] at hNew
        exact .inl (if_neg (hInit.generation_ne hRoot.mem hNew)).symm
      · exact .inr ⟨b, hb, rfl, rfl, rfl⟩
  | @retry id =>
      obtain ⟨_, _, rfl⟩ := resetFailedTaskForRetry_ok (reduce_single hReduce)
      refine hModify [id] TaskInstance.resetForRetry (fun _ => ⟨rfl, rfl, rfl⟩) fun key => ?_
      rw [FiniteMap.lookup_modify]
      simp only [List.mem_singleton]
  | @forceRetry id previous target lost =>
      obtain ⟨middle, hMiddle, rfl⟩ := taskForceRetryRequested_ok (reduce_single hReduce)
      obtain ⟨_, _, rfl⟩ := resetFailedTaskForRetry_ok hMiddle
      refine hModify [id] TaskInstance.resetForRetry (fun _ => ⟨rfl, rfl, rfl⟩) fun key => ?_
      rw [FiniteMap.lookup_modify]
      simp only [List.mem_singleton]
  | recover ids =>
      refine hModify ids TaskInstance.recovered (fun task => ?_)
        ((applyWorkflowInstanceEvent_effected (reduce_single hReduce)).task rfl)
      unfold TaskInstance.recovered
      split <;> exact ⟨rfl, rfl, rfl⟩

theorem RootInputs.created (definition : WorkflowDef) (id workflowDefId : String)
    (pinnedWorkerHost : WorkerHostId) (trigger : Json) :
    RootInputs definition trigger
      (Lifecycle.created id workflowDefId pinnedWorkerHost (some trigger)).stored :=
  ⟨rfl, fun _ _ _ _ hTask => by cases hTask⟩

theorem Refines.rootInputs {env : EngineEnv} (hDef : WellFormedDef definition) {s : System}
    {l l' : Lifecycle} {writers : List Writer}
    (run : Lifecycle.Steps env.ext definition l writers l') (hSound : Sound definition l.stored)
    (hStart : RootInputs definition trigger l.stored) (h : Refines env definition s l') :
    RootInputs definition trigger s.stored := by
  rw [← h.stored]
  exact run.keeps hSound hStart
    (fun _ _ _ _ _ hSound hInputs hWrite hReduce => hWrite.rootInputs hDef hSound hInputs hReduce)
    fun _ _ hInputs => ⟨hInputs.triggerInput, hInputs.data⟩

/-- The attempt that a pass has started and not yet recorded. -/
def PassPoint.started : PassPoint → Option StartedTask
  | .commitInputFailure started _ | .resolveFunction started _ | .awaitAnswer started _ _
  | .readCurrent started _ _ _ | .commitResult started _ _ _ _ => some started
  | _ => none

/-- A pass that has started an attempt holds the stored work, and the attempt
in it. -/
theorem ActiveInv.started {ext : Externals} {plan : List String} {s : System} {pass : ActivePass}
    (h : ActiveInv ext definition plan s pass) {started : StartedTask}
    (hStarted : pass.point.started = some started) :
    Working s.stored pass.workflow ∧ Started definition pass.loopSlices pass.workflow started := by
  have hPoint := h.point
  unfold PointInv at hPoint
  cases hCase : pass.point <;> rw [hCase] at hStarted <;>
    simp only [PassPoint.started, reduceCtorEq, Option.some.injEq] at hStarted <;> subst hStarted <;>
    simp only [hCase] at hPoint <;> exact ⟨hPoint.2.1, hPoint.2.2.1⟩

/-- A worker is given the inputs that were resolved when the attempt was
started. -/
theorem ActiveInv.dispatched {ext : Externals} {plan : List String} {s : System} {pass : ActivePass}
    (h : ActiveInv ext definition plan s pass) {started : StartedTask} {call : DispatchCall}
    {rest : List String} (hAwait : pass.point = .awaitAnswer started call rest) :
    call.inputs = started.inputs.values := by
  have hPoint := h.point
  unfold PointInv at hPoint
  simp only [hAwait] at hPoint
  obtain ⟨_, _, _, _, _, _, _, rfl⟩ := hPoint
  rfl

/-- A started attempt of a root task is executed with the trigger input alone
exactly when it is the first attempt of its task. -/
theorem System.Steps.root_inputs {env : EngineEnv} {submitted : WorkflowDef}
    {id workflowDefId : String} {pinnedWorkerHost : WorkerHostId} {actions : List Action}
    {s : System} {pass : ActivePass} {started : StartedTask}
    (hAccepted : validateAndNormalizeWorkflowDef submitted = .ok definition)
    (hDefinition : env.definitions workflowDefId = some definition)
    (run : System.Steps env
      (System.created id workflowDefId pinnedWorkerHost (some trigger)) actions s)
    (hPass : s.pass = .active pass) (hStarted : pass.point.started = some started)
    (hUnbound : inboundBindings definition started.taskDef.id = [])
    (hReads : started.taskDef.inputSchemas ≠ []) :
    (started.inputs.values = [trigger] ↔ started.task.generationIndex = 1) ∧
      ∀ call rest, pass.point = .awaitAnswer started call rest →
        call.inputs = started.inputs.values := by
  have hDef := validateAndNormalizeWorkflowDef_ok hAccepted
  obtain ⟨l, writers, steps, hRefines⟩ := run.refines hDefinition
  have hInputs := hRefines.rootInputs hDef steps (.created ..) (.created ..)
  have hInv := hRefines.pass
  rw [hPass] at hInv
  obtain ⟨hWorking, hResolved, _⟩ := hInv.started hStarted
  refine ⟨?_, fun call rest hAwait => hInv.dispatched hAwait⟩
  obtain ⟨_, hTask, hFound, _⟩ := startedTask_eq hResolved
  obtain ⟨hMem, hTaskDef⟩ := findTask_some hFound
  have hRoot : RootTask definition started.taskDef := ⟨hMem, hUnbound, hReads⟩
  rw [← hWorking.same.tasks] at hTask
  rw [startedTask_root hDef hResolved hRoot hTaskDef.symm,
    hInputs.data _ hRoot _ _ hTask hTaskDef.symm]
  exact rootInputData_eq_trigger

/-! The sample article, with a draft that reads the trigger input. -/

def briefedSubmitted : WorkflowDef :=
  { sampleSubmitted with tasks := sampleSubmitted.tasks.map fun task =>
      if task.id = "draft" then { task with inputSchemas := [.bool true] } else task }

theorem briefedSubmitted_accepted :
    (validateAndNormalizeWorkflowDef briefedSubmitted).toOption.isSome := by
  decide +kernel

def briefedDefinition : WorkflowDef :=
  (validateAndNormalizeWorkflowDef briefedSubmitted).toOption.get briefedSubmitted_accepted

def briefedEnv : EngineEnv :=
  { sampleEnv with definitions := fun id => if id = "article" then some briefedDefinition else none }

def briefedStart : System :=
  System.created "article-1" "article" ⟨"host"⟩ (some (.string "a brief"))

/-- The attempt in flight. -/
def System.started (s : System) : Option StartedTask :=
  match s.pass with
  | .active pass => pass.point.started
  | _ => none

theorem System.started_active {s : System} {started : StartedTask} (h : s.started = some started) :
    ∃ pass, s.pass = .active pass ∧ pass.point.started = some started := by
  unfold System.started at h
  split at h
  · rename_i pass hPass
    exact ⟨pass, hPass, h⟩
  · cases h

theorem startDraft_runs :
    ((startDraft.foldlM (System.step briefedEnv) briefedStart).bind System.started).isSome := by
  decide +kernel

def firstDraft : StartedTask :=
  ((startDraft.foldlM (System.step briefedEnv) briefedStart).bind System.started).get startDraft_runs

def reviewAnswer : Answer :=
  .ok (.success (.object [("decision", .string "continue"), ("feedback", .string "shorter")]))

/-- The review sends the draft back, and its second attempt is started. -/
def draftRerun : List Action :=
  startDraft ++ [.answer (.ok (.success (.object []))), .passStep, .passStep, .passStep, .passStep,
    .passStep, .passStep, .answer reviewAnswer, .passStep, .passStep, .passStep, .passStep]

theorem draftRerun_runs :
    ((draftRerun.foldlM (System.step briefedEnv) briefedStart).bind System.started).isSome := by
  decide +kernel

def secondDraft : StartedTask :=
  ((draftRerun.foldlM (System.step briefedEnv) briefedStart).bind System.started).get draftRerun_runs

/-- The first attempt of the draft reads the brief, and the second, which the
review has asked for, does not. -/
theorem System.Steps.root_inputs_first :
    (∃ s started, System.Steps briefedEnv briefedStart startDraft s ∧ s.started = some started ∧
      started.task.generationIndex = 1 ∧ started.inputs.values = [.string "a brief"]) ∧
    ∃ s started, System.Steps briefedEnv briefedStart draftRerun s ∧ s.started = some started ∧
      started.task.generationIndex = 2 ∧ started.inputs.values ≠ [.string "a brief"] := by
  have hAccepted : validateAndNormalizeWorkflowDef briefedSubmitted = .ok briefedDefinition :=
    eq_ok_get briefedSubmitted_accepted
  constructor
  · obtain ⟨s, hRun, hStarted⟩ := Option.bind_eq_some_iff.mp (Option.some_get startDraft_runs).symm
    obtain ⟨pass, hPass, hPoint⟩ := System.started_active hStarted
    have hInputs := System.Steps.root_inputs hAccepted rfl (Run.of_foldlM hRun) hPass hPoint
      (List.isEmpty_iff.mp (by decide +kernel)) (List.ne_nil_of_length_pos (by decide +kernel))
    have hFirst : firstDraft.task.generationIndex = 1 := by decide +kernel
    exact ⟨s, firstDraft, Run.of_foldlM hRun, hStarted, hFirst, hInputs.1.mpr hFirst⟩
  · obtain ⟨s, hRun, hStarted⟩ := Option.bind_eq_some_iff.mp (Option.some_get draftRerun_runs).symm
    obtain ⟨pass, hPass, hPoint⟩ := System.started_active hStarted
    have hInputs := System.Steps.root_inputs hAccepted rfl (Run.of_foldlM hRun) hPass hPoint
      (List.isEmpty_iff.mp (by decide +kernel)) (List.ne_nil_of_length_pos (by decide +kernel))
    have hSecond : secondDraft.task.generationIndex = 2 := by decide +kernel
    refine ⟨s, secondDraft, Run.of_foldlM hRun, hStarted, hSecond, fun hBrief => ?_⟩
    have hFirst : secondDraft.task.generationIndex = 1 := hInputs.1.mp hBrief
    rw [hSecond] at hFirst
    cases hFirst

/-- The second attempt of the draft is started without inputs, and fails their
check. -/
theorem draftRerun_reads_nothing :
    ∃ s started, System.Steps briefedEnv briefedStart draftRerun s ∧ s.started = some started ∧
      inboundBindings briefedDefinition started.taskDef.id = [] ∧
      started.taskDef.inputSchemas ≠ [] ∧ started.inputs.values ≠ [.string "a brief"] := by
  obtain ⟨s, hRun, hStarted⟩ :=
    Option.bind_eq_some_iff.mp (Option.some_get draftRerun_runs).symm
  refine ⟨s, _, Run.of_foldlM hRun, hStarted, List.isEmpty_iff.mp (by decide +kernel), ?_, ?_⟩
  · rw [ne_eq, ← List.isEmpty_iff]
    decide +kernel
  · intro hInputs
    have hLength := congrArg List.length hInputs
    revert hLength
    decide +kernel

end RelayFold
