import RelayFold.Lifecycle.SliceGenerations

/-! What a completed attempt has consumed: its record names the attempts behind
its bindings, and they stay as they were. -/
namespace RelayFold

open WorkflowEngine FallibleFold EdgeList

/-- The attempt that a task consumes from a source: a completed one, of its own
generation inside its slice and a satisfied one otherwise. -/
structure IsSource (definition : WorkflowDef) (workflow : WorkflowInstance) (task : TaskInstance)
    (sourceTaskId : String) (source : TaskInstance) : Prop where
  found : workflow.tasks.lookup (makeTaskAttemptId sourceTaskId source.generationIndex) = some source
  completed : source.status = .completed
  inside : ∀ entry ∈ computeLoopSlices definition, task.taskDefId ∈ entry.2 →
    sourceTaskId ∈ entry.2 → source.generationIndex = task.generationIndex
  outside : (∀ entry ∈ computeLoopSlices definition, task.taskDefId ∈ entry.2 →
    sourceTaskId ∉ entry.2) → source.satisfactionStatus = .satisfied

/-- The record of one binding: the output of its source, and where it comes
from. -/
def Consumed (definition : WorkflowDef) (workflow : WorkflowInstance) (task : TaskInstance)
    (binding : DataBinding) (entry : Json × TaskInputMapping) : Prop :=
  ∃ source, IsSource definition workflow task binding.sourceTaskId source ∧
    entry = (source.outputData.getD .null, ⟨binding.sourceTaskId, source.generationIndex⟩)

/-- The inputs of an attempt are recorded binding by binding. -/
def RecordedFrom (definition : WorkflowDef) (workflow : WorkflowInstance) (task : TaskInstance) :
    Prop :=
  ∃ entries, List.Forall₂ (Consumed definition workflow task)
      (inboundBindings definition task.taskDefId) entries ∧
    task.inputData = entries.map Prod.fst ∧ task.inputMapping = entries.map Prod.snd

section Answer

variable {ext : Externals} {before after : WorkflowInstance} {loopSlices : LoopSlices}
  {id : String} {task own : TaskInstance} {taskDef : TaskDef} {inputs : ResolvedTaskInputs}
  {answer : Answer} {result : ResultCommit}

/-- What an answer that completes its attempt leaves of it. -/
structure CompletedBy (ext : Externals) (loopSlices : LoopSlices) (task : TaskInstance)
    (taskDef : TaskDef) (inputs : ResolvedTaskInputs) (answer : Answer) (own : TaskInstance) :
    Prop where
  taskDefId : own.taskDefId = task.taskDefId
  generationIndex : own.generationIndex = task.generationIndex
  inputData : own.inputData = inputs.values
  inputMapping : own.inputMapping = inputs.mapping
  output : ∃ schema output, ValidAnswer ext taskDef schema answer output ∧
    own.outputData = if schema.isSome then some output else task.outputData

theorem WorkflowEngine.Outcome.completed_own
    (h : Outcome ext before after loopSlices id task taskDef inputs answer result)
    (hOwn : after.tasks.lookup id = some own) (hCompleted : own.status = .completed) :
    CompletedBy ext loopSlices task taskDef inputs answer own := by
  cases h with
  | stopped hEffect hStatus _ _ _ _ =>
      rw [hEffect.own] at hOwn
      cases hOwn
      rcases hStatus with hOther | hOther <;> rw [hCompleted] at hOther <;> cases hOther
  | plain _ _ _ hEffect hAnswer =>
      rw [hEffect.own] at hOwn
      cases hOwn
      exact ⟨rfl, rfl, rfl, rfl, _, _, hAnswer, rfl⟩
  | judged _ _ _ _ _ hCompletion hVerdict hAnswer =>
      cases hVerdict with
      | complete _ _ hEffect | interrupted _ _ _ hEffect | rerun _ _ _ _ hEffect
      | exhausted _ _ _ _ _ hEffect =>
          rw [hEffect.own, hCompletion.own] at hOwn
          cases hOwn
          exact ⟨rfl, rfl, rfl, rfl, _, _, hAnswer, rfl⟩
      | failed _ _ _ _ _ _ hEffect =>
          rw [hEffect.own, hCompletion.own] at hOwn
          cases hOwn
          cases hCompleted

end Answer

section Origin

variable {definition : WorkflowDef} {l : Lifecycle} {reduced : WorkflowInstance} {writer : Writer}
  {id : String} {b : TaskInstance}

/-- The commit has completed this attempt, which had been running. -/
def JustCompleted (definition : WorkflowDef) (workflow : WorkflowInstance) (id : String)
    (b : TaskInstance) : Prop :=
  ∃ ext loopSlices task taskDef inputs answer,
    loopSlices.Perm (computeLoopSlices definition) ∧ workflow.tasks.lookup id = some task ∧
    definition.findTask task.taskDefId = some taskDef ∧ task.status = .running ∧
    inputs = (resolveInputs workflow definition task taskDef loopSlices).getD ⟨[], []⟩ ∧
    CompletedBy ext loopSlices task taskDef inputs answer b

/-- What is completed after a commit was completed before, or the commit
records its answer. -/
theorem WriteEffect.completed_origin (h : WriteEffect definition l reduced writer)
    (hb : reduced.tasks.lookup id = some b) (hCompleted : b.status = .completed) :
    (∃ a, l.stored.tasks.lookup id = some a ∧ a.status = .completed) ∨
      JustCompleted definition l.stored id b := by
  cases h with
  | status _ hTasks _ => exact .inl ⟨b, hTasks ▸ hb, hCompleted⟩
  | initialTasks _ hTasks _ _ =>
      obtain ⟨_, _, _, rfl⟩ := hTasks id b hb
      cases hCompleted
  | initialGenerations _ _ hAfter => exact .inl ⟨b, hAfter.tasks ▸ hb, hCompleted⟩
  | start _ _ _ hTasks _ | humanInput _ _ _ hTasks _ | retry _ _ hTasks _ =>
      rw [hTasks] at hb
      split at hb
      · cases hb
        cases hCompleted
      · exact .inl ⟨b, hb, hCompleted⟩
  | @result ext loopSlices started answer result hSlices hTask hDef hRunning hInputs hOutcome _ =>
      by_cases hKey : id = started.taskAttemptId
      · subst hKey
        exact .inr ⟨ext, loopSlices, started.task, started.taskDef, started.inputs, answer, hSlices,
          hTask, hDef, hRunning, hInputs, hOutcome.completed_own hb hCompleted⟩
      · obtain ⟨exit, hFrame⟩ := hOutcome.frame hTask
        cases ha : l.stored.tasks.lookup id with
        | none =>
            obtain ⟨_, _, _, _, _, _, rfl⟩ := hFrame.new id b ha hb
            cases hCompleted
        | some a =>
            obtain ⟨mark, hKept⟩ := hFrame.kept id a hKey ha
            rw [hb] at hKept
            cases hKept
            exact .inl ⟨a, rfl, TaskInstance.afterExit_completed.mp hCompleted⟩
  | recover hTasks _ =>
      rw [hTasks] at hb
      split at hb
      · obtain ⟨a, ha, rfl⟩ := Option.map_eq_some_iff.mp hb
        refine .inl ⟨a, ha, ?_⟩
        unfold TaskInstance.recovered at hCompleted
        split at hCompleted
        · cases hCompleted
        · exact hCompleted
      · exact .inl ⟨b, hb, hCompleted⟩

end Origin

section Resolution

variable {definition : WorkflowDef} {l : Lifecycle} {loopSlices : LoopSlices} {id : String}
  {task : TaskInstance} {binding : DataBinding}

theorem latestMaterializedAttemptId_isSome {workflow : WorkflowInstance} {taskId : String}
    (hTask : IsAttempt workflow taskId id task) :
    ∃ latest, latestMaterializedAttemptId workflow taskId = some latest := by
  cases hLatest : latestMaterializedAttemptId workflow taskId with
  | none =>
      have hNone := FiniteMap.maxKeyBy_none.mp hLatest id task hTask.found
      rw [hTask.taskDefId, decide_eq_false_iff_not] at hNone
      exact absurd rfl hNone
  | some latest => exact ⟨latest, rfl⟩

theorem latestSatisfiedAttemptId_isSome {workflow : WorkflowInstance} {taskId : String}
    (h : HasSatisfied workflow taskId) :
    ∃ latest, latestSatisfiedAttemptId workflow taskId = some latest := by
  obtain ⟨id, task, hTask, hCompleted, hSatisfied⟩ := h
  cases hLatest : latestSatisfiedAttemptId workflow taskId with
  | none =>
      have hNone := FiniteMap.maxKeyBy_none.mp hLatest id task hTask.found
      simp [hTask.taskDefId, hCompleted, hSatisfied] at hNone
  | some latest => exact ⟨latest, rfl⟩

/-- A binding of an attempt that runs resolves to the attempt that it
consumes. -/
theorem Fed.resolves (hDef : WellFormedDef definition) (hKeyed : Keyed l.stored)
    (hFed : Fed definition l) (hSlices : loopSlices.Perm (computeLoopSlices definition))
    (hTask : l.stored.tasks.lookup id = some task) (hRunning : task.status = .running)
    (hInv : ∀ verifierId slice, (verifierId, slice) ∈ computeLoopSlices definition →
      task.taskDefId ∈ slice → SliceInv definition l verifierId slice)
    (hBinding : binding ∈ inboundBindings definition task.taskDefId) :
    ∃ entry, resolveBinding l.stored loopSlices task.taskDefId binding = some entry ∧
      Consumed definition l.stored task binding entry := by
  have hEdge : (binding.sourceTaskId, task.taskDefId) ∈ definition.edges := by
    obtain ⟨hMem, hTarget⟩ := List.mem_filter.mp hBinding
    rw [← of_decide_eq_true hTarget]
    exact List.mem_map_of_mem hMem
  have hBegun : task.status.hasBegun = true := by rw [hRunning]; rfl
  by_cases hInside : ∃ entry ∈ computeLoopSlices definition, task.taskDefId ∈ entry.2 ∧
      binding.sourceTaskId ∈ entry.2
  · obtain ⟨⟨verifierId, slice⟩, hSlice, hMem, hSource⟩ := hInside
    have h := hInv verifierId slice hSlice hMem
    obtain ⟨source, hFound, hCompleted⟩ := h.begun id task hTask hMem hBegun _ hSource hEdge
    obtain ⟨hDefId, hGeneration⟩ := makeTaskAttemptId_inj.mp (hKeyed _ source hFound)
    obtain ⟨latest, hLatest⟩ := latestMaterializedAttemptId_isSome ⟨hFound, hDefId.symm⟩
    have hName := h.latest_source hDef hKeyed hSlice hTask hMem (by rw [hRunning]; rintro ⟨⟩) hSource
      hLatest
    refine ⟨_, resolveBinding_some.mpr ⟨latest, source, ?_, hName ▸ hFound, hCompleted, rfl⟩, source,
      ⟨?_, hCompleted, fun _ _ _ _ => hGeneration.symm, fun hOutside => ?_⟩, rfl⟩
    · rw [resolveSourceAttemptId_inside (sliceOf_eq hDef hSlices hSlice hMem) hSource, hLatest]
    · rw [← hGeneration]
      exact hFound
    · exact absurd hSource (hOutside _ hSlice hMem)
  · have hOutside (entry) (hEntry : entry ∈ computeLoopSlices definition)
        (hMem : task.taskDefId ∈ entry.2) : binding.sourceTaskId ∉ entry.2 :=
      fun hSource => hInside ⟨entry, hEntry, hMem, hSource⟩
    obtain ⟨latest, hLatest⟩ :=
      latestSatisfiedAttemptId_isSome ((hFed.begun id task hTask hBegun).satisfied _ hEdge hOutside)
    obtain ⟨source, hFound, hDefId, hCompleted, hSatisfied⟩ := latestSatisfiedAttemptId_some hLatest
    refine ⟨_, resolveBinding_some.mpr ⟨latest, source, ?_, hFound, hCompleted, rfl⟩, source,
      ⟨?_, hCompleted, fun entry hEntry hMem hSource => absurd hSource (hOutside entry hEntry hMem),
        fun _ => hSatisfied⟩, rfl⟩
    · rw [resolveSourceAttemptId_outside fun entry hEntry => ?_, hLatest]
      obtain ⟨hMem, hTarget⟩ := sliceOf_mem hEntry
      exact hOutside entry (hSlices.mem_iff.mp hMem) hTarget
    · rw [← hDefId, ← hKeyed latest source hFound]
      exact hFound

/-- The inputs of an attempt that runs are those that its bindings consume. -/
theorem Fed.resolveInputs_consumed {taskDef : TaskDef} (hDef : WellFormedDef definition)
    (hKeyed : Keyed l.stored) (hFed : Fed definition l)
    (hSlices : loopSlices.Perm (computeLoopSlices definition))
    (hTask : l.stored.tasks.lookup id = some task) (hRunning : task.status = .running)
    (hFound : definition.findTask task.taskDefId = some taskDef)
    (hInv : ∀ verifierId slice, (verifierId, slice) ∈ computeLoopSlices definition →
      task.taskDefId ∈ slice → SliceInv definition l verifierId slice)
    (hBound : inboundBindings definition task.taskDefId ≠ []) :
    ∃ entries, resolveInputs l.stored definition task taskDef loopSlices =
        some ⟨entries.map Prod.fst, entries.map Prod.snd⟩ ∧
      List.Forall₂ (Consumed definition l.stored task) (inboundBindings definition task.taskDefId)
        entries := by
  obtain ⟨entries, hResolved, hConsumed⟩ := mapM_some_of fun binding hBinding =>
    hFed.resolves hDef hKeyed hSlices hTask hRunning hInv hBinding
  refine ⟨entries, ?_, hConsumed⟩
  unfold resolveInputs
  rw [(findTask_some hFound).2]
  dsimp only
  rw [List.isEmpty_eq_false_iff.mpr hBound, Bool.false_and, if_neg Bool.false_ne_true, hResolved]
  rfl

end Resolution

/-- Completed attempts have recorded what they consumed, but for those of a
slice with human input. -/
def RecordedInputs (definition : WorkflowDef) (workflow : WorkflowInstance) : Prop :=
  ∀ id task, workflow.tasks.lookup id = some task → task.status = .completed →
    inboundBindings definition task.taskDefId ≠ [] →
    (∀ entry ∈ computeLoopSlices definition, task.taskDefId ∈ entry.2 →
      WithoutInput workflow entry.2) → RecordedFrom definition workflow task

theorem RecordedInputs.withVersion {definition : WorkflowDef} {workflow : WorkflowInstance}
    (h : RecordedInputs definition workflow) (version : Nat) :
    RecordedInputs definition (workflow.withVersion version) := by
  intro id task hTask hCompleted hBound hInput
  obtain ⟨entries, hConsumed, hRecord⟩ := h id task hTask hCompleted hBound hInput
  refine ⟨entries, hConsumed.imp fun _ _ hEntry => ?_, hRecord⟩
  obtain ⟨source, hSource, hOutput⟩ := hEntry
  exact ⟨source, ⟨hSource.found, hSource.completed, hSource.inside, hSource.outside⟩, hOutput⟩

section Step

variable {definition : WorkflowDef} {l : Lifecycle} {writer : Writer} {ext : Externals}
  {events : List WorkflowInstanceEvent} {plan : List String} {reduced : WorkflowInstance}
  {a b : TaskInstance} {binding : DataBinding} {entry : Json × TaskInputMapping}

/-- What has been consumed stays as it was. -/
theorem Consumed.write (hDef : WellFormedDef definition) (hKeyed : Keyed l.stored)
    (hEarned : Earned definition l.stored) (h : Consumed definition l.stored a binding entry)
    (hWrite : Write ext definition l writer events plan)
    (hReduce : reduceWorkflowInstanceEvents (some l.stored) events = .ok reduced)
    (hDefId : b.taskDefId = a.taskDefId) (hGeneration : b.generationIndex = a.generationIndex) :
    Consumed definition reduced b binding entry := by
  obtain ⟨source, hSource, rfl⟩ := h
  obtain ⟨after, hAfter, hKept⟩ := hWrite.completed_kept hReduce hSource.found hSource.completed
  have hSame : after.generationIndex = source.generationIndex ∧ after.status = source.status ∧
      after.outputData = source.outputData := by
    rw [hKept]
    exact ⟨rfl, rfl, rfl⟩
  refine ⟨after, ⟨?_, ?_, fun entry hEntry hMem hInside => ?_, fun hOutside => ?_⟩, ?_⟩
  · rw [hSame.1]
    exact hAfter
  · rw [hSame.2.1]
    exact hSource.completed
  · rw [hDefId] at hMem
    rw [hSame.1, hGeneration]
    exact hSource.inside entry hEntry hMem hInside
  · rw [hDefId] at hOutside
    have hSatisfied := hSource.outside hOutside
    rw [hWrite.satisfied_kept hDef hReduce hKeyed hEarned hSource.found hSource.completed
      hSatisfied] at hAfter
    cases hAfter
    exact hSatisfied
  · rw [hSame.1, hSame.2.2]

/-- Every commit keeps the records, and each new one is right. -/
theorem RecordedInputs.write (hDef : WellFormedDef definition) (hSound : Sound definition l.stored)
    (hFed : Fed definition l) (hGenerational : Generational definition l)
    (h : RecordedInputs definition l.stored) (hWrite : Write ext definition l writer events plan)
    (hReduce : reduceWorkflowInstanceEvents (some l.stored) events = .ok reduced) :
    RecordedInputs definition reduced := by
  intro id b hb hCompleted hBound hInput
  have hAfter := hWrite.attemptsAfter hReduce
  rcases (hWrite.effect hReduce).completed_origin hb hCompleted with ⟨a, ha, hOld⟩ |
    ⟨_, loopSlices, task, taskDef, inputs, _, hSlices, hTask, hFound, hRunning, rfl, hOwn⟩
  · obtain ⟨b', hb', hKept⟩ := hWrite.completed_kept hReduce ha hOld
    rw [hb] at hb'
    cases hb'
    have hSame : b.taskDefId = a.taskDefId ∧ b.generationIndex = a.generationIndex ∧
        b.inputData = a.inputData ∧ b.inputMapping = a.inputMapping := by
      rw [hKept]
      exact ⟨rfl, rfl, rfl, rfl⟩
    rw [hSame.1] at hBound hInput
    obtain ⟨entries, hConsumed, hData, hMapping⟩ := h id a ha hOld hBound fun entry hEntry hMem =>
      (hInput entry hEntry hMem).before hAfter
    refine ⟨entries, ?_, hSame.2.2.1.trans hData, hSame.2.2.2.trans hMapping⟩
    rw [hSame.1]
    exact hConsumed.imp fun _ _ hEntry =>
      hEntry.write hDef hSound.key hFed.earned hWrite hReduce hSame.1 hSame.2.1
  · rw [hOwn.taskDefId] at hBound hInput
    obtain ⟨entries, hResolved, hConsumed⟩ := hFed.resolveInputs_consumed hDef hSound.key hSlices hTask
      hRunning hFound (fun verifierId slice hSlice hMem => hGenerational verifierId slice hSlice
        ((hInput _ hSlice hMem).before hAfter)) hBound
    have hData := hOwn.inputData
    have hMapping := hOwn.inputMapping
    rw [hResolved] at hData hMapping
    refine ⟨entries, ?_, hData, hMapping⟩
    rw [hOwn.taskDefId]
    exact hConsumed.imp fun _ _ hEntry => hEntry.write hDef hSound.key hFed.earned hWrite hReduce
      hOwn.taskDefId hOwn.generationIndex

end Step

/-- What is known of the generations of a workflow: those of a slice without
human input are in step, what begins in one finds its own sources completed,
and the satisfied attempts are of the generation that the verifier state
selects; completed attempts have recorded what they consumed. -/
structure GenerationsConsistent (definition : WorkflowDef) (workflow : WorkflowInstance) : Prop where
  inStep : ∀ verifierId slice, (verifierId, slice) ∈ computeLoopSlices definition →
    WithoutInput workflow slice → InStep workflow verifierId slice
  begun : ∀ verifierId slice, (verifierId, slice) ∈ computeLoopSlices definition →
    WithoutInput workflow slice → ∀ id task, workflow.tasks.lookup id = some task →
      task.taskDefId ∈ slice → task.status.hasBegun = true →
        OwnSources definition workflow slice task.taskDefId task.generationIndex
  selected : ∀ verifierId slice, (verifierId, slice) ∈ computeLoopSlices definition →
    WithoutInput workflow slice → ∀ id task, workflow.tasks.lookup id = some task →
      task.taskDefId ∈ slice → task.satisfactionStatus = .satisfied →
        ∃ state, workflow.verifierStates.lookup verifierId = some state ∧
          state.selectedGeneration = some task.generationIndex ∧
          (state.status = .accepted ∨ state.status = .exhaustedAccepted)
  recorded : RecordedInputs definition workflow

theorem GenerationsConsistent.of_generational {definition : WorkflowDef} {l : Lifecycle}
    (hEarned : Earned definition l.stored) (hGenerational : Generational definition l)
    (hRecorded : RecordedInputs definition l.stored) : GenerationsConsistent definition l.stored := by
  refine ⟨fun verifierId slice hSlice hInput => (hGenerational _ _ hSlice hInput).inStep,
    fun verifierId slice hSlice hInput => (hGenerational _ _ hSlice hInput).begun,
    fun verifierId slice hSlice hInput id task hTask hMem hSatisfied => ?_, hRecorded⟩
  obtain ⟨judge, hJudge, hAccepted⟩ := hEarned _ _ hSlice id task hTask hMem hSatisfied
  exact (hGenerational _ _ hSlice hInput).selected _ judge hJudge hAccepted

section Runs

variable {definition : WorkflowDef} {ext : Externals} {l l' : Lifecycle} {writers : List Writer}

theorem Lifecycle.Steps.generational (hDef : WellFormedDef definition)
    (run : Lifecycle.Steps ext definition l writers l') (hSound : Sound definition l.stored)
    (hFed : Fed definition l) (hGenerational : Generational definition l)
    (hRecorded : RecordedInputs definition l.stored) :
    Fed definition l' ∧ Generational definition l' ∧ RecordedInputs definition l'.stored := by
  refine (Run.invariant (P := fun l : Lifecycle => Sound definition l.stored ∧ Fed definition l ∧
    Generational definition l ∧ RecordedInputs definition l.stored) run
    ⟨hSound, hFed, hGenerational, hRecorded⟩ ?_).2
  rintro l writer l' ⟨hSound, hFed, hGenerational, hRecorded⟩ hStep
  refine ⟨Lifecycle.Steps.sound (.single hStep) hSound, hFed.step hDef hSound hStep,
    hGenerational.step hDef hSound hStep, ?_⟩
  cases hStep with
  | schedule _ _ _ _ => exact hRecorded
  | write hWrite hReduce =>
      exact (hRecorded.write hDef hSound hFed hGenerational hWrite hReduce).withVersion _

/-- What every state of a run has: it refines a lifecycle whose generations are
in step and whose records are right. -/
theorem System.Steps.generational {env : EngineEnv} {id workflowDefId : String}
    {pinnedWorkerHost : WorkerHostId} {input : Option Json} {actions : List Action} {s : System}
    (hDef : WellFormedDef definition) (hDefinition : env.definitions workflowDefId = some definition)
    (run : System.Steps env (System.created id workflowDefId pinnedWorkerHost input) actions s) :
    ∃ plan, Refines env definition s ⟨s.stored, plan⟩ ∧ Fed definition ⟨s.stored, plan⟩ ∧
      Generational definition ⟨s.stored, plan⟩ ∧ RecordedInputs definition s.stored := by
  obtain ⟨⟨stored, plan⟩, writers, steps, hRefines⟩ := run.refines hDefinition
  have hKept := steps.generational hDef (.created ..) (.created ..)
    (.created definition id workflowDefId pinnedWorkerHost input) fun _ _ hTask => by cases hTask
  obtain rfl : stored = s.stored := hRefines.stored
  exact ⟨plan, hRefines, hKept⟩

/-- In every run the generations of the workflow are consistent. -/
theorem System.Steps.generations_consistent {env : EngineEnv} {submitted : WorkflowDef}
    {id workflowDefId : String} {pinnedWorkerHost : WorkerHostId} {input : Option Json}
    {actions : List Action} {s : System}
    (hAccepted : validateAndNormalizeWorkflowDef submitted = .ok definition)
    (hDefinition : env.definitions workflowDefId = some definition)
    (run : System.Steps env (System.created id workflowDefId pinnedWorkerHost input) actions s) :
    GenerationsConsistent definition s.stored := by
  obtain ⟨_, _, hFed, hGenerational, hRecorded⟩ :=
    run.generational (validateAndNormalizeWorkflowDef_ok hAccepted) hDefinition
  exact .of_generational hFed.earned hGenerational hRecorded

end Runs

/-! ### What attempts consume -/

/-- The inputs of an attempt in flight are those of the attempts that its
bindings consume. -/
def TakenFrom (definition : WorkflowDef) (workflow : WorkflowInstance) (started : StartedTask) : Prop :=
  ∃ entries, List.Forall₂ (Consumed definition workflow started.task)
      (inboundBindings definition started.task.taskDefId) entries ∧
    started.inputs = ⟨entries.map Prod.fst, entries.map Prod.snd⟩

/-- No slice of the task has an attempt with human input. -/
def UntouchedTask (definition : WorkflowDef) (workflow : WorkflowInstance) (taskId : String) : Prop :=
  ∀ entry ∈ computeLoopSlices definition, taskId ∈ entry.2 → WithoutInput workflow entry.2

/-- Attempts consume their own generation inside their slice and what is
satisfied outside of it: when they are dispatched, and in the record that they
keep. What a slice gives out is of one generation. -/
structure Consumption (definition : WorkflowDef) (s : System) : Prop where
  inFlight : ∀ started, s.started = some started →
    inboundBindings definition started.task.taskDefId ≠ [] →
    UntouchedTask definition s.stored started.task.taskDefId → TakenFrom definition s.stored started
  dispatched : ∀ pass started call rest, s.pass = .active pass →
    pass.point = .awaitAnswer started call rest → call.inputs = started.inputs.values
  recorded : ∀ id task, s.stored.tasks.lookup id = some task → task.status = .completed →
    inboundBindings definition task.taskDefId ≠ [] →
    UntouchedTask definition s.stored task.taskDefId → RecordedFrom definition s.stored task
  satisfied : ∀ verifierId slice, (verifierId, slice) ∈ computeLoopSlices definition →
    WithoutInput s.stored slice → ∀ id task, s.stored.tasks.lookup id = some task →
      task.taskDefId ∈ slice → task.satisfactionStatus = .satisfied →
        ∃ state, s.stored.verifierStates.lookup verifierId = some state ∧
          state.selectedGeneration = some task.generationIndex ∧
          (state.status = .accepted ∨ state.status = .exhaustedAccepted)

section Consumption

variable {env : EngineEnv} {submitted definition : WorkflowDef} {s : System} {l : Lifecycle}

/-- A started attempt has been given what its bindings consume. -/
theorem Refines.takenFrom (hDef : WellFormedDef definition)
    (h : Refines env definition s l) (hFed : Fed definition l)
    (hGenerational : Generational definition l) {started : StartedTask}
    (hStarted : s.started = some started)
    (hBound : inboundBindings definition started.task.taskDefId ≠ [])
    (hUntouched : UntouchedTask definition l.stored started.task.taskDefId) :
    TakenFrom definition l.stored started := by
  obtain ⟨pass, hPass, hPoint⟩ := System.started_active hStarted
  have hInv := h.pass
  rw [hPass] at hInv
  obtain ⟨hWorking, hOld⟩ := hInv.started hPoint
  have hHolds := hOld.of_sameWork hWorking.same
  have hSound := h.sound
  rw [← h.stored] at hHolds hSound
  obtain ⟨_, hTask, hFound, hInputs⟩ := startedTask_eq hHolds.resolved
  obtain ⟨entries, hResolved, hConsumed⟩ := hFed.resolveInputs_consumed hDef hSound.key hInv.slices
    hTask hHolds.running hFound (fun verifierId slice hSlice hMem =>
      hGenerational verifierId slice hSlice (hUntouched _ hSlice hMem)) hBound
  rw [hResolved] at hInputs
  exact ⟨entries, hConsumed, hInputs⟩

/-- In every run attempts consume consistent generations, whatever is rerun,
retried, exhausted, paused, skipped and recovered on the way. -/
theorem System.Steps.consumption {id workflowDefId : String} {pinnedWorkerHost : WorkerHostId}
    {input : Option Json} {actions : List Action}
    (hAccepted : validateAndNormalizeWorkflowDef submitted = .ok definition)
    (hDefinition : env.definitions workflowDefId = some definition)
    (run : System.Steps env (System.created id workflowDefId pinnedWorkerHost input) actions s) :
    Consumption definition s := by
  have hDef := validateAndNormalizeWorkflowDef_ok hAccepted
  obtain ⟨plan, hRefines, hFed, hGenerational, hRecorded⟩ := run.generational hDef hDefinition
  refine ⟨fun started => hRefines.takenFrom hDef hFed hGenerational,
    fun pass started call rest hPass hAwait => ?_, hRecorded,
    (GenerationsConsistent.of_generational hFed.earned hGenerational hRecorded).selected⟩
  have hInv := hRefines.pass
  rw [hPass] at hInv
  exact hInv.dispatched hAwait

end Consumption

/-- The first review sends the draft back, and the second accepts it. -/
def secondAccepted : List Action :=
  firstReview (.answer reviewAnswer) ++ passSteps 4 ++ [succeeds] ++ passSteps 5 ++ [succeeds] ++
    passSteps 5 ++ [completes] ++ passSteps 2

theorem secondAccepted_runs : ((secondAccepted.foldlM (System.step chainEnv) chainStart).filter
    fun s => (s.stored.tasks.lookup "edit[2]").any fun task =>
      task.status = .completed && task.satisfactionStatus = .satisfied).isSome := by
  decide +kernel

/-- The second generation is the one that is selected. -/
theorem System.Steps.generations_consistent_second : ∃ s,
    System.Steps chainEnv chainStart secondAccepted s ∧ GenerationsConsistent chainDefinition s.stored ∧
    ∃ task, s.stored.tasks.lookup "edit[2]" = some task ∧ task.status = .completed ∧
      task.satisfactionStatus = .satisfied := by
  have hAccepted : validateAndNormalizeWorkflowDef chainSubmitted = .ok chainDefinition :=
    eq_ok_get chainSubmitted_accepted
  have hDefinition : chainEnv.definitions "chain" = some chainDefinition := rfl
  obtain ⟨hFound, hEdit⟩ := Option.filter_eq_some_iff.mp (Option.some_get secondAccepted_runs).symm
  obtain ⟨task, hTask, hMarks⟩ := (Option.any_eq_true _ _).mp hEdit
  rw [Bool.and_eq_true, decide_eq_true_eq, decide_eq_true_eq] at hMarks
  have run := Run.of_foldlM hFound
  exact ⟨_, run, System.Steps.generations_consistent hAccepted hDefinition run, task, hTask, hMarks⟩

/-- No attempt has human input. -/
def withoutInput (s : System) : Bool := !s.stored.tasks.anyValue fun task => task.humanInput.isSome

theorem withoutInput_of {s : System} (h : withoutInput s = true) (slice : List String) :
    WithoutInput s.stored slice := by
  intro id task hTask _
  by_contra hSome
  rw [withoutInput, Bool.not_eq_true', Bool.eq_false_iff, ne_eq, FiniteMap.anyValue_iff] at h
  exact h ⟨id, task, hTask, Option.isSome_iff_ne_none.mpr hSome⟩

theorem secondConsumed_runs : ((secondAccepted.foldlM (System.step chainEnv) chainStart).filter fun s =>
    withoutInput s && (s.stored.tasks.lookup "edit[2]").any fun task =>
      task.status = .completed && task.taskDefId = "edit").isSome := by
  decide +kernel

/-- The second edit has recorded the second draft. -/
theorem System.Steps.consumption_second : ∃ s task,
    System.Steps chainEnv chainStart secondAccepted s ∧ s.stored.tasks.lookup "edit[2]" = some task ∧
      RecordedFrom chainDefinition s.stored task := by
  have hAccepted : validateAndNormalizeWorkflowDef chainSubmitted = .ok chainDefinition :=
    eq_ok_get chainSubmitted_accepted
  have hDefinition : chainEnv.definitions "chain" = some chainDefinition := rfl
  obtain ⟨hFound, hChecks⟩ := Option.filter_eq_some_iff.mp (Option.some_get secondConsumed_runs).symm
  obtain ⟨hInput, hEdit⟩ := Bool.and_eq_true_iff.mp hChecks
  obtain ⟨task, hTask, hMarks⟩ := (Option.any_eq_true _ _).mp hEdit
  rw [Bool.and_eq_true, decide_eq_true_eq, decide_eq_true_eq] at hMarks
  have run : System.Steps chainEnv chainStart secondAccepted _ := Run.of_foldlM hFound
  have hBound : inboundBindings chainDefinition "edit" ≠ [] := by
    rw [ne_eq, ← List.isEmpty_iff]
    decide +kernel
  refine ⟨_, task, run, hTask, (System.Steps.consumption hAccepted hDefinition run).recorded _ task hTask
    hMarks.1 (hMarks.2 ▸ hBound) fun entry _ _ => withoutInput_of hInput entry.2⟩

end RelayFold
