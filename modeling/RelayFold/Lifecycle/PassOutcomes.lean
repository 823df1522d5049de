import RelayFold.Lifecycle.AttemptLifecycle
import RelayFold.Lifecycle.AnswersRecorded
import RelayFold.Lifecycle.PassTermination

/-! How a pass ends when nobody else writes the instance meanwhile. -/
namespace RelayFold

open WorkflowEngine WorkflowStateManager FallibleFold

/-- Every attempt is one of a task of the definition. -/
def KnownTasks (definition : WorkflowDef) (workflow : WorkflowInstance) : Prop :=
  ∀ id task, workflow.tasks.lookup id = some task → task.taskDefId ∈ definition.taskIds

/-- Nothing can be started: no generation of a slice is due, and every attempt
that waits misses an input. -/
structure Stuck (definition : WorkflowDef) (workflow : WorkflowInstance) : Prop where
  unfinished : workflowAllCompleted workflow definition = false
  generations : ∀ entry ∈ computeLoopSlices definition,
    eligibleStart workflow definition (computeLoopSlices definition) entry.1 entry.2 = none
  waiting : ∀ id task, workflow.tasks.lookup id = some task → task.status = .pending →
    canRun workflow definition (computeLoopSlices definition) task = false

/-- The result of a pass, between the snapshot it has loaded and the one it
leaves. -/
inductive PassOutcome (definition : WorkflowDef) (before after : WorkflowInstance) :
    PassResult → Prop
  | resting (hSame : after = before)
      (hStatus : before.status ≠ .pending ∧ before.status ≠ .running) :
      PassOutcome definition before after .ok
  | completed (hStatus : after.status = .completed)
      (hAll : workflowAllCompleted after definition = true) :
      PassOutcome definition before after .ok
  | inputNeeded (hStatus : after.status = .inputNeeded)
      (hWaits : ∃ id task, after.tasks.lookup id = some task ∧ task.status.isInputNeeded = true) :
      PassOutcome definition before after .ok
  | stuck (hStatus : after.status = .running) (hStuck : Stuck definition after) :
      PassOutcome definition before after .ok
  | failed {message : String} (hStatus : after.status = .failed) (hFailed : SomeFailed after) :
      PassOutcome definition before after (.error message)

section Known

variable {definition : WorkflowDef} {workflow reduced : WorkflowInstance} {l : Lifecycle}

theorem KnownTasks.findTask (h : KnownTasks definition workflow) {id : String} {task : TaskInstance}
    (hTask : workflow.tasks.lookup id = some task) :
    ∃ taskDef, definition.findTask task.taskDefId = some taskDef :=
  findTask_isSome (h id task hTask)

theorem KnownTasks.startedTask (h : KnownTasks definition workflow) (loopSlices : LoopSlices)
    {id : String} {task : TaskInstance} (hTask : workflow.tasks.lookup id = some task) :
    ∃ started, startedTask workflow definition loopSlices id = some started ∧
      started.taskAttemptId = id ∧ started.task = task := by
  obtain ⟨taskDef, hFound⟩ := h.findTask hTask
  simp [WorkflowEngine.startedTask, hTask, hFound]

theorem KnownTasks.tasksToRun (h : KnownTasks definition workflow) (loopSlices : LoopSlices) :
    ∃ ready, tasksToRun workflow definition loopSlices = some ready := by
  unfold WorkflowEngine.tasksToRun
  dsimp only
  split
  · rename_i hUnknown
    obtain ⟨entry, hEntry, hNone⟩ := List.any_eq_true.mp hUnknown
    obtain ⟨hTask, _⟩ := List.mem_filter.mp hEntry
    obtain ⟨taskDef, hFound⟩ := h.findTask ((FiniteMap.mem_toList ..).mp hTask)
    rw [hFound] at hNone
    cases hNone
  · exact ⟨_, rfl⟩

/-- No commit brings in an attempt of another task. -/
theorem WriteEffect.knownTasks (hDef : WellFormedDef definition) {writer : Writer}
    (h : WriteEffect definition l reduced writer) (hKnown : KnownTasks definition l.stored) :
    KnownTasks definition reduced := by
  intro key found hFound
  cases h with
  | status _ hTasks _ => exact hKnown key found (hTasks ▸ hFound)
  | initialTasks _ hTasks _ _ =>
      obtain ⟨taskDef, hMem, _, rfl⟩ := hTasks key found hFound
      exact List.mem_map_of_mem hMem
  | initialGenerations _ _ hAfter => exact hKnown key found (hAfter.tasks ▸ hFound)
  | start _ hTask _ hTasks _ | retry hTask _ hTasks _ =>
      rw [hTasks] at hFound
      split at hFound
      · have hOwn := hKnown _ _ hTask
        cases hFound
        exact hOwn
      · exact hKnown key found hFound
  | @result ext loopSlices started answer result hSlices hTask hDefFound _ _ hOutcome _ =>
      obtain ⟨exit, hFrame⟩ := hOutcome.frame hTask
      by_cases hKey : key = started.taskAttemptId
      · obtain ⟨own, hOwn, hSame, _⟩ := hFrame.own _ hTask
        rw [hKey, hOwn] at hFound
        cases hFound
        rw [hSame]
        exact hKnown _ _ hTask
      · cases hOld : l.stored.tasks.lookup key with
        | some old =>
            obtain ⟨mark, hKept⟩ := hFrame.kept key old hKey hOld
            rw [hFound] at hKept
            cases hKept
            simpa [TaskInstance.marked] using hKnown key old hOld
        | none =>
            obtain ⟨hVerifier, _, taskDefId, hMem, _, _, rfl⟩ := hFrame.new key found hOld hFound
            exact slice_subset_taskIds (hDef.verdict_slice hSlices hDefFound hVerifier) _ hMem
  | humanInput hTask _ _ hTasks _ =>
      rw [hTasks] at hFound
      split at hFound
      · have hOwn := hKnown _ _ hTask
        cases hFound
        exact hOwn
      · exact hKnown key found hFound
  | recover hTasks _ =>
      rw [hTasks] at hFound
      split at hFound
      · obtain ⟨old, hOld, rfl⟩ := Option.map_eq_some_iff.mp hFound
        rw [TaskInstance.recovered]
        split <;> exact hKnown key old hOld
      · exact hKnown key found hFound

end Known

/-- What the next commit of a pass relies on, besides its snapshot: it has
something to commit, and commits it on the snapshot the pass holds. -/
def PassPoint.Holds (definition : WorkflowDef) (workflow : WorkflowInstance) : PassPoint → Prop
  | commitInitialTasks => initialTaskEvents workflow definition ≠ []
  | commitGenerations events => events ≠ []
  | commitResult _ _ _ base _ => base = workflow
  | _ => True

/-- A pass that nobody disturbs holds the stored snapshot, until it ends with
its outcome. -/
def PassState.Undisturbed (definition : WorkflowDef) (start stored : WorkflowInstance) :
    PassState → Prop
  | idle => False
  | loading _ => stored = start
  | loadingDef _ workflow => workflow = stored ∧ stored = start
  | active pass => pass.workflow = stored ∧ pass.point.Holds definition stored
  | finished result => PassOutcome definition start stored result

/-- A pass in its main loop. -/
structure Looping (definition : WorkflowDef) (workflow : WorkflowInstance) (pass : ActivePass) :
    Prop where
  loaded : pass.definition = definition
  slices : pass.loopSlices.Perm (computeLoopSlices definition)
  running : workflow.status = .running
  known : KnownTasks definition workflow

section Loop

variable {definition : WorkflowDef} {start workflow : WorkflowInstance} {pass : ActivePass}

theorem PassState.Undisturbed.goOn {point : PassPoint} (h : point.Holds definition workflow) :
    (pass.goOn workflow point).Undisturbed definition start workflow := ⟨rfl, h⟩

/-- The main loop is left when everything is done, or when nothing can be
started. -/
theorem Looping.leaveLoop (h : Looping definition workflow pass)
    (hGenerations : ∀ entry ∈ computeLoopSlices definition,
      eligibleStart workflow definition (computeLoopSlices definition) entry.1 entry.2 = none)
    (hWaiting : ∀ id task, workflow.tasks.lookup id = some task → task.status = .pending →
      canRun workflow definition (computeLoopSlices definition) task = false) :
    (pass.leaveLoop workflow).Undisturbed definition start workflow := by
  unfold ActivePass.leaveLoop
  rw [h.loaded]
  split
  · exact .goOn trivial
  · rename_i hUnfinished
    exact .stuck h.running ⟨by simpa using hUnfinished, hGenerations, hWaiting⟩

/-- The task loop goes on with the next attempt that is still pending. -/
theorem nextTask_undisturbed {atEnd : PassState} {ids : List String}
    (hIds : ∀ id ∈ ids, ∃ task, workflow.tasks.lookup id = some task)
    (hEnd : (∀ id ∈ ids, ∀ task, workflow.tasks.lookup id = some task → task.status ≠ .pending) →
      atEnd.Undisturbed definition start workflow) :
    (pass.nextTask workflow atEnd ids).Undisturbed definition start workflow := by
  induction ids with
  | nil => exact hEnd fun _ hMem => by cases hMem
  | cons id rest ih =>
      obtain ⟨task, hTask⟩ := hIds id List.mem_cons_self
      unfold ActivePass.nextTask
      rw [hTask]
      dsimp only
      split
      · rename_i hBegun
        refine ih (fun other hMem => hIds other (List.mem_cons_of_mem _ hMem)) fun hRest => ?_
        refine hEnd fun other hMem found hFound => ?_
        rcases List.mem_cons.mp hMem with rfl | hMem
        · rw [hTask] at hFound
          cases hFound
          exact hBegun
        · exact hRest other hMem found hFound
      · exact .goOn trivial

/-- Looking for tasks to run ends the loop only if none is found. -/
theorem Looping.startTasks (hDef : WellFormedDef definition) (h : Looping definition workflow pass)
    {atEnd : PassState}
    (hEnd : (∀ id task, workflow.tasks.lookup id = some task → task.status = .pending →
        canRun workflow definition (computeLoopSlices definition) task = false) →
      atEnd.Undisturbed definition start workflow) :
    (pass.startTasks workflow atEnd).Undisturbed definition start workflow := by
  unfold ActivePass.startTasks
  rw [h.loaded, tasksToRun_perm hDef h.slices]
  obtain ⟨ready, hReady⟩ := h.known.tasksToRun (computeLoopSlices definition)
  rw [hReady]
  refine nextTask_undisturbed (fun id hMem => ?_) fun hNone => hEnd fun id task hTask hPending => ?_
  · obtain ⟨task, hTask, _⟩ := mem_tasksToRun hReady hMem
    exact ⟨task, hTask⟩
  · rw [← Bool.not_eq_true]
    intro hRun
    exact hNone id (mem_tasksToRun_of_canRun hReady hTask hPending hRun) task hTask hPending

theorem Looping.enterLoop (hDef : WellFormedDef definition) (h : Looping definition workflow pass)
    (hTasks : TasksInitialized definition workflow) :
    (pass.enterLoop workflow).Undisturbed definition start workflow := by
  unfold ActivePass.enterLoop
  rw [h.loaded]
  dsimp only
  split
  · rename_i hEmpty
    refine h.startTasks hDef fun hWaiting => h.leaveLoop (fun entry hEntry => ?_) hWaiting
    exact generationsStarted_of_isEmpty hTasks h.slices hEmpty entry (h.slices.mem_iff.mpr hEntry)
  · rename_i hEvents
    exact .goOn fun hNone => hEvents (by rw [hNone]; rfl)

theorem Looping.initializeTasks (hDef : WellFormedDef definition)
    (h : Looping definition workflow pass) (hSound : Sound definition workflow) :
    (pass.initializeTasks workflow).Undisturbed definition start workflow := by
  unfold ActivePass.initializeTasks
  rw [h.loaded]
  split
  · rename_i hEmpty
    rw [Bool.and_eq_true] at hEmpty
    exact .goOn fun hNone => by simp [hNone] at hEmpty
  · rename_i hOld
    refine h.enterLoop hDef ?_
    cases hTasks : workflow.tasks.isEmpty with
    | false => exact hSound.initialized hTasks
    | true =>
        have hNone : definition.tasks = [] := by simpa [hTasks, initialTaskEvents] using hOld
        intro taskDef hMem
        rw [hNone] at hMem
        cases hMem

theorem Looping.prepareDispatch (h : Looping definition workflow pass) (ext : Externals)
    {id : String} {task : TaskInstance} (hTask : workflow.tasks.lookup id = some task)
    (rest : List String) :
    (pass.prepareDispatch ext workflow id rest).Undisturbed definition start workflow := by
  obtain ⟨started, hStarted, _⟩ := h.known.startedTask pass.loopSlices hTask
  unfold ActivePass.prepareDispatch
  rw [h.loaded, hStarted]
  dsimp only
  split
  · exact .goOn trivial
  · exact .goOn trivial

end Loop

section Events

variable {definition : WorkflowDef} {workflow : WorkflowInstance}

theorem reduce_of_targets {events : List WorkflowInstanceEvent}
    (h : ∀ event ∈ events, event.Targets workflow) :
    ∃ reduced, reduceWorkflowInstanceEvents (some workflow) events = .ok reduced := by
  obtain ⟨reduced, hReduced, _⟩ := foldlM_of_targets h
  exact ⟨reduced, hReduced⟩

theorem initialTaskEvents_reduce (hDef : WellFormedDef definition)
    (hEmpty : workflow.tasks.isEmpty = true) : ∃ reduced, reduceWorkflowInstanceEvents (some workflow)
      (initialTaskEvents workflow definition) = .ok reduced := by
  have hNew : ∀ entry ∈ definition.tasks.map fun taskDef => (makeTaskAttemptId taskDef.id 1,
      initialTask workflow definition taskDef), workflow.tasks.lookup entry.1 = none :=
    fun entry _ => (FiniteMap.isEmpty_iff _).mp hEmpty entry.1
  obtain ⟨reduced, hReduced⟩ := foldlM_of_materialized _ hNew (by
    rw [List.map_map]
    have hIds : (definition.tasks.map (·.id)).Nodup := hDef.ids_nodup
    refine List.Nodup.map_on (fun a ha b hb hSame => ?_) hIds.of_map
    exact List.inj_on_of_nodup_map hIds ha hb (makeTaskAttemptId_inj.mp hSame).1)
  refine ⟨reduced, ?_⟩
  rw [List.map_map] at hReduced
  exact hReduced

theorem initialGenerations_reduce {loopSlices : LoopSlices}
    (hTasks : TasksInitialized definition workflow)
    (hSlices : loopSlices.Perm (computeLoopSlices definition)) :
    ∃ reduced, reduceWorkflowInstanceEvents (some workflow)
      (materializeEligibleInitialGenerationEvents workflow definition loopSlices) = .ok reduced := by
  have hExisting : ∀ entry ∈ loopSlices, ∀ taskId ∈ entry.2,
      (workflow.tasks.lookup (makeTaskAttemptId taskId 1)).isSome :=
    fun entry hEntry taskId hMem =>
      hTasks.isSome (slice_subset_taskIds (hSlices.mem_iff.mp hEntry) taskId hMem)
  refine reduce_of_targets fun event hEvent => ?_
  obtain ⟨_, _, _, _, rfl⟩ := (materializeEligible_events hExisting [] []).1 event hEvent
  trivial

/-- How a pass goes on from a result it has recorded. -/
theorem WorkflowEngine.Recorded.next_cases {ext : Externals} {loopSlices : LoopSlices} {id : String}
    {taskDef : TaskDef} {inputs : ResolvedTaskInputs} {answer : Answer} {result : ResultCommit}
    (h : Recorded ext workflow definition loopSlices id taskDef inputs answer result) :
    result.next = .checkPause none ∨
    (∃ request, result.events = inputNeededEvents id inputs request ∧ result.next = .stop .ok ∧
      answerStatus answer = .inputNeeded) ∨
    ∃ message, (result.next = .stop (.error message) ∨ result.next = .checkPause (some message)) ∧
      answerStatus answer = .failed := by
  cases h with
  | inputNeeded request => exact .inr (.inl ⟨request, rfl, rfl, rfl⟩)
  | failure _ | dispatchError _ | badOutput _ _ | badExit _ _ _ =>
      exact .inr (.inr ⟨_, .inl rfl, rfl⟩)
  | completed _ _ _ hResult =>
      cases hResult with
      | plain _ => exact .inl rfl
      | invalid _ _ => exact .inr (.inr ⟨_, .inl rfl, rfl⟩)
      | @decided _ _ _ transition _ _ _ hTransition =>
          cases hMessage : transition.errorMessage with
          | none => exact .inl rfl
          | some message => exact .inr (.inr ⟨message, .inr rfl, rfl⟩)

end Events

section Move

variable {env : EngineEnv} {definition : WorkflowDef} {s : System} {plan : List String}
  {start : WorkflowInstance}

/-- A commit on the stored snapshot is accepted, and keeps what every snapshot
has. -/
theorem Refines.heldCommit (hDef : WellFormedDef definition)
    (h : Refines env definition s ⟨s.stored, plan⟩) (hKnown : KnownTasks definition s.stored)
    {events : List WorkflowInstanceEvent} {plan' : List String}
    (hWrite : Write env.ext definition ⟨s.stored, plan⟩ .pass events plan') (hEvents : events ≠ [])
    {reduced : WorkflowInstance}
    (hReduce : reduceWorkflowInstanceEvents (some s.stored) events = .ok reduced)
    (next : WorkflowInstance → PassState) : ∃ updated,
      updated = reduced.withVersion (s.stored.version + events.length) ∧
      KnownTasks definition updated ∧ Sound definition updated ∧
      s.advance (ActivePass.commit s.stored s.stored events next) =
        (s.saved updated).setPass (next updated) := by
  have hReduced := WriteEffect.knownTasks (l := ⟨s.stored, plan⟩) hDef (hWrite.effect hReduce) hKnown
  refine ⟨_, rfl, hReduced, (hWrite.sound hReduce h.sound).withVersion _, ?_⟩
  rw [ActivePass.commit, commitOn_stored hEvents hReduce]
  rfl

/-- A pass that fails a workflow fails an attempt of it. -/
theorem Write.someFailed {ext : Externals} {l : Lifecycle} {events : List WorkflowInstanceEvent}
    {plan : List String} {reduced : WorkflowInstance}
    (hWrite : Write ext definition l .pass events plan)
    (hReduce : reduceWorkflowInstanceEvents (some l.stored) events = .ok reduced)
    (hRunning : l.stored.status = .running) (hFailed : reduced.status = .failed) :
    SomeFailed reduced := by
  have hOrigin : FailureOrigin false l.stored := by
    refine ⟨fun _ hStatus => ?_, fun hLost => by cases hLost⟩
    rw [hRunning] at hStatus
    cases hStatus
  exact (hWrite.failureOrigin hReduce (by decide) hOrigin).attempt rfl hFailed

/-- Every answer to the attempt the pass has started can be recorded. -/
theorem SliceStarts.answered_undisturbed {ext : Externals} (hDef : WellFormedDef definition)
    (hStarts : SliceStarts definition ⟨s.stored, plan⟩) {pass : ActivePass}
    (hInv : ActiveInv ext definition plan s pass) (hHeld : pass.workflow = s.stored)
    {started : StartedTask} (hStarted : Started definition pass.loopSlices s.stored started)
    {rest : List String} {answer : Answer} :
    (pass.answered ext started rest answer).Undisturbed definition start s.stored := by
  have hAnswerable : Answerable s.stored definition started.taskAttemptId started.taskDef :=
    hStarts.answerable hDef hStarted
  obtain ⟨result, hResult, _⟩ : Recordable s.stored (resultCommit ext s.stored definition
    pass.loopSlices started.taskAttemptId started.taskDef started.inputs answer) :=
      hAnswerable.recordable ext started.inputs answer
  rw [ActivePass.answered, hHeld, hInv.loaded, hResult]
  exact .goOn trivial

/-- After a result the pass goes on, waits for a human, or has failed. -/
theorem afterResult_undisturbed {ext : Externals} (hDef : WellFormedDef definition) {l : Lifecycle}
    {pass : ActivePass} {loopSlices : LoopSlices} {id : String} {task : TaskInstance}
    {taskDef : TaskDef} {inputs : ResolvedTaskInputs} {answer : Answer} {result : ResultCommit}
    (hWrite : Write ext definition l .pass result.events plan)
    (hRecorded : Recorded ext l.stored definition loopSlices id taskDef inputs answer result)
    (hRunning : l.stored.status = .running) (hTask : l.stored.tasks.lookup id = some task)
    (hTaskRunning : task.status = .running) {reduced : WorkflowInstance}
    (hReduce : reduceWorkflowInstanceEvents (some l.stored) result.events = .ok reduced)
    {version : Nat} (hLoop : reduced.status = .running →
      Looping definition (reduced.withVersion version) pass)
    (hSound : Sound definition (reduced.withVersion version)) {rest : List String}
    (hRest : ∀ id ∈ rest, ∃ task, l.stored.tasks.lookup id = some task) :
    (pass.afterResult result rest (reduced.withVersion version)).Undisturbed definition start
      (reduced.withVersion version) := by
  have hEffect := reduceWorkflowInstanceEvents_effected hReduce
  have hEnds (hNext : result.next ≠ .checkPause none) : reduced.status = answerStatus answer := by
    rw [hEffect.status, hRecorded.result.status_eq (hRecorded.ends hNext)]
  have hPresent : (l.stored.tasks.lookup id).isSome = true := by rw [hTask]; rfl
  unfold ActivePass.afterResult
  rcases hRecorded.next_cases with hNext | ⟨request, hEvents, hNext, hAnswered⟩ |
    ⟨message, hNext, hAnswered⟩
  · have hStatus : reduced.status = .running := by
      rw [hEffect.status, foldl_statusEffect_of_work (hRecorded.goesOn hNext).1]
      exact hRunning
    have hTasks : TasksInitialized definition (reduced.withVersion version) := by
      obtain ⟨own, hOwn⟩ := Option.isSome_iff_exists.mp (foldlM_keeps hReduce hPresent)
      exact hSound.initialized (FiniteMap.isEmpty_eq_false_of_lookup _ hOwn)
    rw [hNext]
    dsimp only
    rw [if_neg (by change reduced.status ≠ _; rw [hStatus]; decide)]
    refine nextTask_undisturbed (fun id hMem => ?_) fun _ => (hLoop hStatus).enterLoop hDef hTasks
    obtain ⟨other, hFound⟩ := hRest id hMem
    exact Option.isSome_iff_exists.mp (foldlM_keeps hReduce (by rw [hFound]; rfl))
  · have hStatus := hEnds (by rw [hNext]; exact fun hSame => by cases hSame)
    rw [hAnswered] at hStatus
    rw [hNext]
    have hAfter := hRecorded.result.after hReduce hPresent hRecorded.answers
    obtain ⟨own, hOwn, _, _, _, hOwnAnswered, hOwnEvent⟩ := hAfter.answered task hTask hTaskRunning
    refine .inputNeeded hStatus ⟨id, own, hOwn, ?_⟩
    rw [hEvents] at hOwnEvent
    have hOwnStatus : own.status = .inputNeeded request := by
      simpa [inputNeededEvents, inputEvents] using hOwnEvent
    rw [hOwnStatus]
    rfl
  · have hStatus : reduced.status = .failed := by
      rw [← hAnswered]
      refine hEnds fun hSame => ?_
      rcases hNext with hNext | hNext <;> rw [hNext] at hSame <;> cases hSame
    have hFailed : SomeFailed reduced := hWrite.someFailed hReduce hRunning hStatus
    rcases hNext with hNext | hNext
    · rw [hNext]
      exact .failed hStatus hFailed
    · rw [hNext]
      dsimp only
      rw [if_neg (by change reduced.status ≠ _; rw [hStatus]; decide)]
      exact .failed hStatus hFailed

/-- A pass that is left in the system as nobody has disturbed it. -/
def System.Undisturbed (definition : WorkflowDef) (start : WorkflowInstance) (s : System) : Prop :=
  s.pass.Undisturbed definition start s.stored

section Points

variable {pass : ActivePass} (hDef : WellFormedDef definition)
  (h : Refines env definition s ⟨s.stored, plan⟩) (hKnown : KnownTasks definition s.stored)
  (hInv : ActiveInv env.ext definition plan s pass)
include hDef h hKnown hInv

omit hDef h hKnown in
theorem ActiveInv.looping {updated : WorkflowInstance} (hStatus : updated.status = .running)
    (hUpdated : KnownTasks definition updated) : Looping definition updated pass :=
  ⟨hInv.loaded, hInv.slices, hStatus, hUpdated⟩

/-- A batch decided on the stored snapshot is accepted, and keeps what every
snapshot has. -/
theorem Refines.batchCommit {events : List WorkflowInstanceEvent}
    (hBatch : pass.batch = some (s.stored, events)) (hEvents : events ≠ [])
    {reduced : WorkflowInstance}
    (hReduce : reduceWorkflowInstanceEvents (some s.stored) events = .ok reduced)
    (next : WorkflowInstance → PassState) : ∃ updated,
      updated = reduced.withVersion (s.stored.version + events.length) ∧
      KnownTasks definition updated ∧ Sound definition updated ∧
      s.advance (ActivePass.commit s.stored s.stored events next) =
        (s.saved updated).setPass (next updated) :=
  h.heldCommit hDef hKnown (hInv.allowed hBatch rfl) hEvents hReduce next

/-- The first attempts are created, and the loop starts with them. -/
theorem Refines.undisturbed_initialTasks
    (hBatch : pass.batch = some (s.stored, initialTaskEvents s.stored definition))
    (hRunning : s.stored.status = .running) (hEmpty : s.stored.tasks.isEmpty = true)
    (hEvents : initialTaskEvents s.stored definition ≠ []) :
    (s.advance (ActivePass.commit s.stored s.stored (initialTaskEvents s.stored definition)
      pass.enterLoop)).Undisturbed definition start := by
  obtain ⟨reduced, hReduce⟩ := initialTaskEvents_reduce hDef hEmpty
  obtain ⟨updated, hEq, hUpdated, hSound, hCommit⟩ :=
    h.batchCommit hDef hKnown hInv hBatch hEvents hReduce pass.enterLoop
  rw [hCommit]
  have hEffect := reduceWorkflowInstanceEvents_effected hReduce
  have hStatus : updated.status = .running := by
    rw [hEq]
    change reduced.status = _
    rw [hEffect.status, foldl_statusEffect_of_work (by simp [initialTaskEvents,
      WorkflowInstanceEvent.isWork])]
    exact hRunning
  have hTasks := initialTaskEvents_initialized hEffect
  subst hEq
  exact (hInv.looping hStatus hUpdated).enterLoop hDef hTasks

/-- The generations that are due are started, and the tasks that are ready
then. -/
theorem Refines.undisturbed_generations
    (hBatch : pass.batch = some (s.stored,
      materializeEligibleInitialGenerationEvents s.stored definition pass.loopSlices))
    (hRunning : s.stored.status = .running) (hTasks : TasksInitialized definition s.stored)
    (hEvents : materializeEligibleInitialGenerationEvents s.stored definition pass.loopSlices ≠ []) :
    (s.advance (ActivePass.commit s.stored s.stored
      (materializeEligibleInitialGenerationEvents s.stored definition pass.loopSlices)
      fun updated => pass.startTasks updated (pass.enterLoop updated))).Undisturbed definition
        start := by
  obtain ⟨reduced, hReduce⟩ := initialGenerations_reduce hTasks hInv.slices
  obtain ⟨updated, hEq, hUpdated, hSound, hCommit⟩ := h.batchCommit hDef hKnown hInv hBatch hEvents
    hReduce fun updated => pass.startTasks updated (pass.enterLoop updated)
  rw [hCommit]
  have hAfter := initialGenerations_after hTasks hInv.slices hReduce
  have hStatus : updated.status = .running := hEq ▸ hAfter.status.trans hRunning
  have hInitialized : TasksInitialized definition updated := by
    intro taskDef hMem
    rw [hEq]
    change Option.isSome (Finmap.lookup _ reduced.tasks) = true
    rw [hAfter.tasks]
    exact hTasks taskDef hMem
  have hLooping := hInv.looping hStatus hUpdated
  exact hLooping.startTasks hDef fun _ => hLooping.enterLoop hDef hInitialized

/-- A pending attempt is started, and its dispatch is prepared. -/
theorem Refines.undisturbed_start {id : String} {task : TaskInstance} {rest : List String}
    (hBatch : pass.batch = some (s.stored, [.taskStatusChanged id .running]))
    (hRunning : s.stored.status = .running) (hTask : s.stored.tasks.lookup id = some task) :
    (s.advance (ActivePass.commit s.stored s.stored [.taskStatusChanged id .running]
      fun updated => pass.prepareDispatch env.ext updated id rest)).Undisturbed definition start := by
  have hTarget : ∀ event ∈ [WorkflowInstanceEvent.taskStatusChanged id .running],
      event.Targets s.stored :=
    List.forall_mem_singleton.mpr (by rw [WorkflowInstanceEvent.Targets, hTask]; rfl)
  obtain ⟨reduced, hReduce⟩ := reduce_of_targets hTarget
  obtain ⟨updated, hEq, hUpdated, _, hCommit⟩ := h.batchCommit hDef hKnown hInv hBatch
    (List.cons_ne_nil _ _) hReduce fun updated => pass.prepareDispatch env.ext updated id rest
  rw [hCommit]
  have hEffect := reduceWorkflowInstanceEvents_effected hReduce
  have hLookup : updated.tasks.lookup id = some { task with status := .running } := by
    rw [hEq]
    change Finmap.lookup id reduced.tasks = _
    rw [hEffect.task (by simp [WorkflowInstanceEvent.isLocal])]
    simp [WorkflowInstanceEvent.taskEffect, hTask]
  have hStatus : updated.status = .running := hEq ▸ hEffect.status.trans hRunning
  exact (hInv.looping hStatus hUpdated).prepareDispatch env.ext hLookup rest

/-- Inputs that do not fit fail the attempt, and the pass with it. -/
theorem Refines.undisturbed_inputFailure {started : StartedTask} {error : String}
    (hBatch : pass.batch = some (s.stored, failureEvents started.taskAttemptId started.inputs))
    (hRunning : s.stored.status = .running)
    (hStarted : Started definition pass.loopSlices s.stored started) :
    (s.advance (ActivePass.commit s.stored s.stored
      (failureEvents started.taskAttemptId started.inputs)
      fun _ => .finished (.error error))).Undisturbed definition start := by
  obtain ⟨_, hTask, _⟩ := startedTask_eq hStarted.resolved
  have hPresent : (s.stored.tasks.lookup started.taskAttemptId).isSome = true := by
    rw [hTask]
    rfl
  obtain ⟨reduced, hReduce⟩ := reduce_of_targets (List.forall_mem_append.mpr
    ⟨inputEvents_targets hPresent started.inputs, failTaskEvents_targets hPresent⟩)
  obtain ⟨updated, hEq, _, _, hCommit⟩ := h.batchCommit hDef hKnown hInv hBatch
    (List.cons_ne_nil _ _) hReduce fun _ => .finished (.error error)
  rw [hCommit]
  have hStatus : updated.status = .failed := by
    rw [hEq]
    exact (reduceWorkflowInstanceEvents_effected hReduce).status
  subst hEq
  have hFailed : SomeFailed reduced :=
    (hInv.allowed hBatch rfl).someFailed hReduce hRunning hStatus
  exact .failed hStatus hFailed

/-- The result of a dispatch is recorded, whatever it is. -/
theorem Refines.undisturbed_result (hStarts : SliceStarts definition ⟨s.stored, plan⟩)
    {started : StartedTask} {answer : Answer} {result : ResultCommit} {rest : List String}
    (hBatch : pass.batch = some (s.stored, result.events))
    (hRunning : s.stored.status = .running)
    (hStarted : Started definition pass.loopSlices s.stored started)
    (hRest : ∀ id ∈ rest, id ∈ plan)
    (hResult : resultCommit env.ext s.stored definition pass.loopSlices started.taskAttemptId
      started.taskDef started.inputs answer = .ok result) :
    (s.advance (ActivePass.commit s.stored s.stored result.events
      (pass.afterResult result rest))).Undisturbed definition start := by
  have hRecorded := resultCommit_ok hResult
  have hAnswerable : Answerable s.stored definition started.taskAttemptId started.taskDef :=
    hStarts.answerable hDef hStarted
  obtain ⟨result', hSame, reduced, hReduce⟩ : Recordable s.stored (resultCommit env.ext s.stored
      definition pass.loopSlices started.taskAttemptId started.taskDef started.inputs answer) :=
    hAnswerable.recordable env.ext started.inputs answer
  rw [hResult] at hSame
  cases hSame
  obtain ⟨_, _, hAnswer⟩ := hRecorded.answers
  obtain ⟨updated, hEq, hUpdated, hSound, hCommit⟩ := h.batchCommit hDef hKnown hInv hBatch
    (List.ne_nil_of_mem hAnswer) hReduce (pass.afterResult result rest)
  rw [hCommit]
  subst hEq
  have hLooping (hStatus : reduced.status = .running) :
      Looping definition (reduced.withVersion (s.stored.version + result.events.length)) pass :=
    hInv.looping hStatus hUpdated
  refine afterResult_undisturbed hDef (hInv.allowed hBatch rfl) hRecorded hRunning
    (startedTask_eq hStarted.resolved).2.1 hStarted.running hReduce hLooping hSound
    fun id hMem => ?_
  obtain ⟨task, hTask, _⟩ := hStarts.planned id (hRest id hMem)
  exact ⟨task, hTask⟩

/-- The workflow is completed, and the pass has ended well. -/
theorem Refines.undisturbed_completed
    (hBatch : pass.batch = some (s.stored, [.workflowStatusChanged .completed]))
    (hAll : workflowAllCompleted s.stored definition = true) :
    (s.advance (ActivePass.commit s.stored s.stored [.workflowStatusChanged .completed]
      fun _ => .finished .ok)).Undisturbed definition start := by
  obtain ⟨updated, rfl, _, _, hCommit⟩ := h.batchCommit hDef hKnown hInv hBatch
    (List.cons_ne_nil _ _) rfl fun _ => .finished .ok
  rw [hCommit]
  exact .completed rfl hAll

end Points

/-- The next operation of a pass that waits for no answer. -/
theorem Refines.undisturbedStep (hDef : WellFormedDef definition)
    (h : Refines env definition s ⟨s.stored, plan⟩) (hStarts : SliceStarts definition ⟨s.stored, plan⟩)
    (hKnown : KnownTasks definition s.stored) {pass : ActivePass}
    (hInv : ActiveInv env.ext definition plan s pass) (hHeld : pass.workflow = s.stored)
    (hHolds : pass.point.Holds definition s.stored) :
    (s.advance (pass.step env s.stored)).Undisturbed definition start := by
  have hPoint := hInv.point
  unfold PointInv at hPoint
  unfold ActivePass.step
  cases hCase : pass.point with
  | commitRunning =>
      simp only [hCase, hHeld] at hPoint ⊢
      obtain ⟨updated, rfl, hUpdated, hSound, hCommit⟩ :=
        h.heldCommit hDef hKnown (.begin hPoint) (List.cons_ne_nil _ _) rfl pass.initializeTasks
      rw [hCommit]
      exact (hInv.looping rfl hUpdated).initializeTasks hDef hSound
  | commitInitialTasks =>
      have hBatch : pass.batch = some (s.stored, initialTaskEvents s.stored definition) := by
        rw [ActivePass.batch, hCase, hHeld, hInv.loaded]
      simp only [hCase, hHeld, hInv.loaded] at hPoint hHolds ⊢
      exact h.undisturbed_initialTasks hDef hKnown hInv hBatch hPoint.1 hPoint.2.2 hHolds
  | commitGenerations events =>
      have hBatch : pass.batch = some (s.stored, events) := by
        rw [ActivePass.batch, hCase, hHeld]
      simp only [hCase, hHeld] at hPoint hHolds ⊢
      obtain ⟨hRunning, _, hTasks, rfl⟩ := hPoint
      exact h.undisturbed_generations hDef hKnown hInv hBatch hRunning hTasks hHolds
  | checkPaused id rest =>
      simp only [hCase, hHeld] at hPoint ⊢
      rw [if_neg (by rw [hPoint.1]; decide)]
      exact .goOn trivial
  | commitStart id rest =>
      have hBatch : pass.batch = some (s.stored, [.taskStatusChanged id .running]) := by
        rw [ActivePass.batch, hCase, hHeld]
      simp only [hCase, hHeld] at hPoint ⊢
      obtain ⟨hRunning, _, _, _, task, hTask, _⟩ := hPoint
      exact h.undisturbed_start hDef hKnown hInv hBatch hRunning hTask
  | commitInputFailure started error =>
      have hBatch : pass.batch =
          some (s.stored, failureEvents started.taskAttemptId started.inputs) := by
        rw [ActivePass.batch, hCase, hHeld]
      simp only [hCase, hHeld] at hPoint ⊢
      obtain ⟨hRunning, _, hStarted, _⟩ := hPoint
      exact h.undisturbed_inputFailure hDef hKnown hInv hBatch hRunning hStarted
  | resolveFunction started rest =>
      simp only [hCase, hHeld] at hPoint ⊢
      obtain ⟨_, _, hStarted, _⟩ := hPoint
      obtain ⟨_, _, hFound, _⟩ := startedTask_eq hStarted.resolved
      obtain ⟨schema, hSchema⟩ := hDef.schema_ok _ (findTask_some hFound).1
      unfold ActivePass.dispatch
      split
      · rename_i error _
        change PassState.Undisturbed definition start s.stored
          (pass.answered env.ext started rest (.error error))
        exact hStarts.answered_undisturbed hDef hInv hHeld hStarted
      · rw [hSchema]
        exact ⟨hHeld, trivial⟩
  | awaitAnswer started call rest =>
      exact ⟨hHeld, trivial⟩
  | readCurrent started answer result rest =>
      simp only [hCase, hHeld] at hPoint ⊢
      refine ⟨rfl, ?_⟩
      change (if s.stored.status = .paused then s.stored else pass.workflow) = s.stored
      rw [hHeld, ite_self]
  | commitResult started answer result base rest =>
      have hBatch : pass.batch = some (base, result.events) := by
        rw [ActivePass.batch, hCase]
      simp only [hCase, hHeld] at hPoint hHolds ⊢
      obtain rfl : base = s.stored := hHolds
      obtain ⟨hRunning, _, hStarted, hRest, hResult, _⟩ := hPoint
      exact h.undisturbed_result hDef hKnown hInv hStarts hBatch hRunning hStarted hRest hResult
  | commitPauseCompleted | commitCompleted =>
      have hBatch : pass.batch = some (s.stored, [.workflowStatusChanged .completed]) := by
        rw [ActivePass.batch, hCase, hHeld]
      simp only [hCase, hHeld] at hPoint ⊢
      exact h.undisturbed_completed hDef hKnown hInv hBatch hPoint.2

/-- Every move of a pass that nobody disturbs leaves it undisturbed. -/
theorem Refines.undisturbedMove (hDef : WellFormedDef definition)
    (h : Refines env definition s ⟨s.stored, plan⟩) (hStarts : SliceStarts definition ⟨s.stored, plan⟩)
    (hKnown : KnownTasks definition s.stored)
    (hAlone : s.pass.Undisturbed definition start s.stored) (answer : Answer) :
    (s.move env answer).pass.Undisturbed definition start (s.move env answer).stored := by
  have hMove := System.move_step env s answer
  have hInv := h.pass
  unfold System.nextMove at hMove
  cases hPass : s.pass with
  | idle =>
      rw [hPass] at hAlone
      exact hAlone.elim
  | finished result =>
      rw [hPass] at hMove hAlone
      dsimp only at hMove
      rw [System.step_passStep, hPass] at hMove
      rw [← Option.some.inj hMove]
      exact hAlone
  | loading order =>
      rw [hPass] at hMove hAlone
      dsimp only at hMove
      rw [System.step_passStep, hPass] at hMove
      rw [← Option.some.inj hMove]
      change (PassState.loaded order (some s.stored)).Undisturbed definition start s.stored
      unfold PassState.loaded
      dsimp only
      split <;> rename_i hStatus
      all_goals first
        | exact .resting hAlone (by rw [← hAlone, hStatus]; decide)
        | exact ⟨rfl, hAlone⟩
  | loadingDef order workflow =>
      rw [hPass] at hMove hAlone
      dsimp only at hMove
      rw [System.step_passStep, hPass] at hMove
      rw [← Option.some.inj hMove]
      change (PassState.loadedDef order workflow (env.definitions workflow.workflowDefId)).Undisturbed
        definition start s.stored
      rw [hAlone.1, h.history.defId _ List.mem_cons_self]
      exact ⟨rfl, trivial⟩
  | active pass =>
      rw [hPass] at hMove hInv hAlone
      dsimp only at hMove
      cases hWaits : pass.isAwaiting with
      | false =>
          rw [hWaits, if_neg Bool.false_ne_true, System.step_passStep, hPass] at hMove
          rw [← Option.some.inj hMove]
          exact h.undisturbedStep hDef hStarts hKnown hInv hAlone.1 hAlone.2
      | true =>
          obtain ⟨started, call, rest, hPoint⟩ := ActivePass.isAwaiting_iff.mp hWaits
          rw [hWaits, if_pos rfl] at hMove
          simp only [System.step, hPass, PassState.answer, hPoint, Option.map_some] at hMove
          rw [← Option.some.inj hMove]
          have hKnows := hInv.point
          simp only [PointInv, hPoint, hAlone.1] at hKnows
          obtain ⟨_, _, hStarted, _⟩ := hKnows
          exact hStarts.answered_undisturbed hDef hInv hAlone.1 hStarted

end Move

theorem KnownTasks.created {definition : WorkflowDef} (id workflowDefId : String)
    (pinnedWorkerHost : WorkerHostId) (input : Option Json) :
    KnownTasks definition (System.created id workflowDefId pinnedWorkerHost input).stored :=
  fun _ _ hTask => by cases hTask

/-- Every attempt of every run is one of a task of the definition. -/
theorem Tracked.knownTasks {env : EngineEnv} {definition : WorkflowDef} {start s : System}
    {actions : List Action} (hDef : WellFormedDef definition) (hTracked : Tracked env definition start)
    (hStart : KnownTasks definition start.stored) (run : System.Steps env start actions s) :
    Tracked env definition s ∧ KnownTasks definition s.stored := by
  have hMeeting : System.StepsMeeting env (fun _ _ => True) start actions s :=
    Run.mono (fun _ _ _ hStep => ⟨hStep, trivial⟩) run
  refine hMeeting.keeps hDef hTracked hStart (fun s action events reduced _ hKnown _ hCommit
    hReduce => ?_) fun _ _ hKnown => hKnown
  obtain ⟨plan, hEffect⟩ := hCommit.effect hReduce
  exact hEffect.knownTasks hDef hKnown

theorem Tracked.ends {env : EngineEnv} {definition : WorkflowDef} {s : System}
    (hDef : WellFormedDef definition) (h : Tracked env definition s) :
    ∃ bound, ∀ answers : List Answer, bound < answers.length →
      (answers.foldl (System.move env) s).pass.inFlight = false := by
  obtain ⟨l, hRefines, _⟩ := h
  exact hRefines.ends hDef

/-- A pass that nobody disturbs ends, whatever it is answered, and it tells the
truth: without an error the workflow rests, has completed, waits for a human or
has nothing left that could be started; with an error the workflow has failed,
with one failed attempt. -/
theorem System.Steps.pass_outcome {env : EngineEnv} {submitted definition : WorkflowDef}
    {id workflowDefId : String} {pinnedWorkerHost : WorkerHostId} {input : Option Json}
    {actions : List Action} {s s' : System} {order : LoopSlices}
    (hAccepted : validateAndNormalizeWorkflowDef submitted = .ok definition)
    (hDefinition : env.definitions workflowDefId = some definition)
    (run : System.Steps env (System.created id workflowDefId pinnedWorkerHost input) actions s)
    (hStep : s.step env (.startPass order) = some s') :
    ∃ bound, ∀ answers : List Answer, bound < answers.length →
      ∃ result, (answers.foldl (System.move env) s').pass = .finished result ∧
        PassOutcome definition s.stored (answers.foldl (System.move env) s').stored result ∧
        FailedOnce (answers.foldl (System.move env) s').stored := by
  have hDef := validateAndNormalizeWorkflowDef_ok hAccepted
  obtain ⟨hTracked, hKnown⟩ := Tracked.knownTasks hDef (.created pinnedWorkerHost input hDefinition)
    (.created id workflowDefId pinnedWorkerHost input) (run.trans (Run.single hStep))
  have hLoading : s'.pass = .loading order ∧ s'.stored = s.stored := by
    simp only [System.step] at hStep
    split at hStep
    · cases hStep
    · cases hStep
      exact ⟨rfl, rfl⟩
  obtain ⟨bound, hEnds⟩ := hTracked.ends hDef
  refine ⟨bound, fun answers hLong => ?_⟩
  have hInv : Tracked env definition (answers.foldl (System.move env) s') ∧
      KnownTasks definition (answers.foldl (System.move env) s').stored ∧
      (answers.foldl (System.move env) s').pass.Undisturbed definition s.stored
        (answers.foldl (System.move env) s').stored := by
    refine List.foldlRecOn answers (motive := fun t => Tracked env definition t ∧
      KnownTasks definition t.stored ∧ t.pass.Undisturbed definition s.stored t.stored) _
      ⟨hTracked, hKnown, by rw [hLoading.1]; exact hLoading.2⟩ ?_
    rintro t ⟨hState, hTasks, hAlone⟩ answer _
    obtain ⟨hState', hTasks'⟩ := Tracked.knownTasks hDef hState hTasks
      (Run.single (System.move_step env t answer))
    obtain ⟨⟨stored, plan⟩, hRefines, hStarts⟩ := hState
    obtain rfl : stored = t.stored := hRefines.stored
    exact ⟨hState', hTasks', hRefines.undisturbedMove hDef hStarts hTasks hAlone answer⟩
  obtain ⟨⟨_, hLast, _⟩, _, hAlone⟩ := hInv
  have hEnd := hEnds answers hLong
  cases hPass : (answers.foldl (System.move env) s').pass with
  | finished result =>
      rw [hPass] at hAlone
      exact ⟨result, rfl, hAlone, hLast.sound.failedOnce⟩
  | idle =>
      rw [hPass] at hAlone
      exact hAlone.elim
  | loading _ | loadingDef _ _ | active _ =>
      rw [hPass] at hEnd
      cases hEnd

theorem restarted_runs : ((draftRetried.foldlM (System.step sampleEnv) sampleStart).bind fun s =>
    s.step sampleEnv (.startPass [])).isSome := by
  decide +kernel

/-- The pass after the draft has been retried. -/
theorem System.Steps.pass_outcome_retried : ∃ s s', System.Steps sampleEnv sampleStart draftRetried s ∧
    s.step sampleEnv (.startPass []) = some s' ∧
    ∃ bound, ∀ answers : List Answer, bound < answers.length →
      ∃ result, (answers.foldl (System.move sampleEnv) s').pass = .finished result ∧
        PassOutcome sampleDefinition s.stored (answers.foldl (System.move sampleEnv) s').stored
          result ∧
        FailedOnce (answers.foldl (System.move sampleEnv) s').stored := by
  have hAccepted : validateAndNormalizeWorkflowDef sampleSubmitted = .ok sampleDefinition :=
    eq_ok_get sampleSubmitted_accepted
  have hDefinition : sampleEnv.definitions "article" = some sampleDefinition := rfl
  obtain ⟨s', hRuns⟩ := Option.isSome_iff_exists.mp restarted_runs
  obtain ⟨s, hFound, hStep⟩ := Option.bind_eq_some_iff.mp hRuns
  have run : System.Steps sampleEnv sampleStart draftRetried s := Run.of_foldlM hFound
  exact ⟨s, s', run, hStep, System.Steps.pass_outcome hAccepted hDefinition run hStep⟩

end RelayFold
