import RelayFold.Engine.Answers

/-! What recording a valid output does to each attempt and to each verifier
state. -/
namespace RelayFold

open FallibleFold

namespace TaskInstance

/-- An early exit skips the attempts that are pending. -/
def afterExit (exit : Bool) (task : TaskInstance) : TaskInstance :=
  if exit = true ∧ task.status = .pending then
    { task with status := .skipped, satisfactionStatus := .unsatisfied }
  else task

/-- The attempt with the satisfaction mark it gets, if any. -/
def marked (mark : Option TaskSatisfactionStatus) (task : TaskInstance) : TaskInstance :=
  { task with satisfactionStatus := mark.getD task.satisfactionStatus }

@[simp] theorem afterExit_false (task : TaskInstance) : task.afterExit false = task := by
  simp [afterExit]

@[simp] theorem afterExit_taskDefId (exit : Bool) (task : TaskInstance) :
    (task.afterExit exit).taskDefId = task.taskDefId := by
  unfold afterExit
  split <;> rfl

@[simp] theorem afterExit_generationIndex (exit : Bool) (task : TaskInstance) :
    (task.afterExit exit).generationIndex = task.generationIndex := by
  unfold afterExit
  split <;> rfl

@[simp] theorem afterExit_earlyExit (exit : Bool) (task : TaskInstance) :
    (task.afterExit exit).earlyExit = task.earlyExit := by
  unfold afterExit
  split <;> rfl

theorem afterExit_of_ne_pending {exit : Bool} {task : TaskInstance} (h : task.status ≠ .pending) :
    task.afterExit exit = task :=
  if_neg fun hPending => h hPending.2

theorem afterExit_status (exit : Bool) (task : TaskInstance) :
    (task.afterExit exit).status = task.status ∨
      task.status = .pending ∧ (task.afterExit exit).status = .skipped := by
  unfold afterExit
  split
  · rename_i h
    exact .inr ⟨h.2, rfl⟩
  · exact .inl rfl

@[simp] theorem marked_none (task : TaskInstance) : task.marked none = task := rfl

end TaskInstance

namespace WorkflowEngine

/-- The mark that the attempts of one generation of a slice get. -/
def sliceMark (slice : List String) (generation : Nat) (satisfaction : TaskSatisfactionStatus)
    (key : String) : Option TaskSatisfactionStatus :=
  if key ∈ slice.map (makeTaskAttemptId · generation) then some satisfaction else none

/-- What a rerun leaves under a key that was free: the attempt of a task of the
slice, or nothing. -/
def FreshAt (slice : List String) (generation : Nat) (key : String) (found : Option TaskInstance) :
    Prop :=
  (∃ taskDefId ∈ slice, key = makeTaskAttemptId taskDefId generation ∧
    found = some (.fresh taskDefId generation)) ∨
  key ∉ slice.map (makeTaskAttemptId · generation) ∧ found = none

/-- An attempt after its valid output has been recorded. -/
def completedTask (loopSlices : LoopSlices) (taskDef : TaskDef) (inputs : ResolvedTaskInputs)
    (schema : Option JsonSchema) (output : Json) (exit : Bool) (task : TaskInstance) :
    TaskInstance :=
  { task with
    inputData := inputs.values
    inputMapping := inputs.mapping
    status := .completed
    satisfactionStatus :=
      if isTaskInLoopSlice loopSlices taskDef.id then task.satisfactionStatus else .satisfied
    outputData := if schema.isSome then some output else task.outputData
    earlyExit := exit || task.earlyExit }

variable {workflow middle next : WorkflowInstance} {id key : String} {slice : List String}
  {generation : Nat}

/-! ### Folds over one entry -/

/-- Marking a list of attempts sets the satisfaction of those in the list, and
of no other. -/
theorem foldl_satisfactions (ids : List String) (satisfaction : TaskSatisfactionStatus)
    (current : Option TaskInstance) :
    (ids.map (WorkflowInstanceEvent.taskSatisfactionChanged · satisfaction)).foldl
      (fun current event => event.taskEffect key current) current =
      current.map (·.marked (if key ∈ ids then some satisfaction else none)) := by
  induction ids generalizing current with
  | nil => simp
  | cons first ids ih =>
      rw [List.map_cons, List.foldl_cons, ih]
      by_cases hKey : key = first
      · simp only [WorkflowInstanceEvent.taskEffect, hKey, if_true, List.mem_cons, true_or,
          Option.map_map]
        split <;> rfl
      · simp [WorkflowInstanceEvent.taskEffect, hKey]

theorem foldl_taskEffect_none {events : List WorkflowInstanceEvent}
    (h : ∀ event ∈ events, event.taskEffect key none = none) :
    events.foldl (fun current event => event.taskEffect key current) none = none := by
  refine List.foldlRecOn events (motive := (· = none)) _ rfl ?_
  rintro _ rfl event hEvent
  exact h event hEvent

/-- The marks of a slice, as a list of the attempts of that generation which
exist. -/
theorem sliceSatisfactionEvents_eq (satisfaction : TaskSatisfactionStatus) :
    sliceSatisfactionEvents workflow slice generation satisfaction =
      ((slice.map (makeTaskAttemptId · generation)).filter fun id =>
        (workflow.tasks.lookup id).isSome).map
          (WorkflowInstanceEvent.taskSatisfactionChanged · satisfaction) := by
  induction slice with
  | nil => rfl
  | cons taskDefId slice ih =>
      unfold sliceSatisfactionEvents at ih ⊢
      rw [List.filterMap_cons, List.map_cons, List.filter_cons, ih]
      dsimp only
      by_cases hPresent :
          (workflow.tasks.lookup (makeTaskAttemptId taskDefId generation)).isSome = true
      · rw [if_pos hPresent, if_pos hPresent]
        rfl
      · rw [if_neg hPresent, if_neg hPresent]

/-- Marking a slice marks each of its attempts that exists. -/
theorem foldl_sliceSatisfactionEvents {satisfaction : TaskSatisfactionStatus}
    {current : Option TaskInstance}
    (hCurrent : current.isSome = true → (workflow.tasks.lookup key).isSome = true) :
    (sliceSatisfactionEvents workflow slice generation satisfaction).foldl
      (fun current event => event.taskEffect key current) current =
      current.map (·.marked (sliceMark slice generation satisfaction key)) := by
  rw [sliceSatisfactionEvents_eq, foldl_satisfactions]
  cases current with
  | none => rfl
  | some task => simp only [sliceMark, List.mem_filter, hCurrent rfl, and_true]

/-- Skipping a list of attempts sets status and satisfaction of exactly
these. -/
theorem foldl_skips (ids : List String) (current : Option TaskInstance) :
    (ids.flatMap fun id => [WorkflowInstanceEvent.taskStatusChanged id .skipped,
      .taskSatisfactionChanged id .unsatisfied]).foldl
        (fun current event => event.taskEffect key current) current =
      if key ∈ ids then current.map fun task =>
        { task with status := .skipped, satisfactionStatus := .unsatisfied }
      else current := by
  induction ids generalizing current with
  | nil => rfl
  | cons first ids ih =>
      rw [List.flatMap_cons, List.foldl_append, ih]
      by_cases hKey : key = first
      · subst hKey
        simp only [List.foldl_cons, List.foldl_nil, WorkflowInstanceEvent.taskEffect, if_true,
          List.mem_cons, true_or, Option.map_map]
        split <;> rfl
      · simp [WorkflowInstanceEvent.taskEffect, hKey]

/-- An early exit flags its own attempt and then skips the pending ones, in the
order of their keys. -/
theorem earlyExitEvents_eq : earlyExitEvents workflow id = .taskEarlyExitSet id true ::
    ((workflow.tasks.toList.filter fun entry => entry.2.status = .pending).map Prod.fst).flatMap
      fun id => [.taskStatusChanged id .skipped, .taskSatisfactionChanged id .unsatisfied] := by
  rw [List.flatMap_map]
  rfl

/-- The attempts that an early exit skips are the pending ones of the
snapshot. -/
theorem mem_pendingIds {task : TaskInstance} (hTask : workflow.tasks.lookup key = some task) :
    key ∈ (workflow.tasks.toList.filter fun entry => entry.2.status = .pending).map Prod.fst ↔
      task.status = .pending := by
  simp only [List.mem_map, List.mem_filter, FiniteMap.mem_toList, decide_eq_true_eq]
  constructor
  · rintro ⟨entry, ⟨hEntry, hPending⟩, rfl⟩
    rw [hTask] at hEntry
    cases hEntry
    exact hPending
  · intro hPending
    exact ⟨(key, task), ⟨hTask, hPending⟩, rfl⟩

/-- An early exit skips every other attempt that is pending. -/
theorem foldl_earlyExitEvents {task : TaskInstance} (hTask : workflow.tasks.lookup key = some task)
    (hKey : key ≠ id) :
    (earlyExitEvents workflow id).foldl (fun current event => event.taskEffect key current)
      (some task) = some (task.afterExit true) := by
  rw [earlyExitEvents_eq, List.foldl_cons, foldl_skips]
  simp only [mem_pendingIds hTask, TaskInstance.afterExit, true_and]
  simp only [WorkflowInstanceEvent.taskEffect, hKey, if_false]
  split <;> rfl

/-- The exiting attempt itself is flagged and not skipped, since it is running
when it answers. -/
theorem foldl_earlyExitEvents_self {task current : TaskInstance}
    (hTask : workflow.tasks.lookup id = some task) (hStatus : task.status ≠ .pending) :
    (earlyExitEvents workflow id).foldl (fun current event => event.taskEffect id current)
      (some current) = some { current with earlyExit := true } := by
  rw [earlyExitEvents_eq, List.foldl_cons, foldl_skips, if_neg fun hMem =>
    hStatus ((mem_pendingIds hTask).mp hMem)]
  simp [WorkflowInstanceEvent.taskEffect]

/-- Materialized attempts are found under their keys. -/
theorem foldl_fresh (key : String) (generation : Nat) (taskDefIds : List String)
    (current : Option TaskInstance) :
    (((taskDefIds.map (freshEntry generation)).map
      fun entry => WorkflowInstanceEvent.taskMaterialized entry.1 entry.2).foldl
        (fun current event => event.taskEffect key current) current = current ∧
      key ∉ taskDefIds.map (makeTaskAttemptId · generation)) ∨
    ∃ taskDefId ∈ taskDefIds, key = makeTaskAttemptId taskDefId generation ∧
      ((taskDefIds.map (freshEntry generation)).map
        fun entry => WorkflowInstanceEvent.taskMaterialized entry.1 entry.2).foldl
          (fun current event => event.taskEffect key current) current =
        some (.fresh taskDefId generation) := by
  induction taskDefIds generalizing current with
  | nil => exact .inl ⟨rfl, List.not_mem_nil⟩
  | cons first rest ih =>
      simp only [List.map_cons, List.foldl_cons]
      by_cases hKey : key = makeTaskAttemptId first generation
      · refine .inr ⟨first, List.mem_cons_self, hKey, ?_⟩
        rcases ih (some (.fresh first generation)) with ⟨hSame, _⟩ | ⟨taskDefId, _, hOther, hFresh⟩
        · simpa [WorkflowInstanceEvent.taskEffect, freshEntry, hKey] using hSame
        · rw [hKey] at hOther
          obtain rfl := (makeTaskAttemptId_inj.mp hOther).1
          simpa [WorkflowInstanceEvent.taskEffect, freshEntry, hKey] using hFresh
      · have hEffect : (WorkflowInstanceEvent.taskMaterialized (freshEntry generation first).1
            (freshEntry generation first).2).taskEffect key current = current := by
          simp [WorkflowInstanceEvent.taskEffect, freshEntry, hKey]
        rw [hEffect]
        rcases ih current with ⟨hSame, hNotMem⟩ | ⟨taskDefId, hMem, hOther, hFresh⟩
        · exact .inl ⟨hSame, by simp [hKey, hNotMem]⟩
        · exact .inr ⟨taskDefId, List.mem_cons_of_mem _ hMem, hOther, hFresh⟩

/-! ### The effect of a valid output -/

/-- Completing an attempt changes that attempt alone: its inputs, its status,
its output and perhaps its satisfaction. -/
theorem foldl_completionEvents {loopSlices : LoopSlices} {taskDef : TaskDef}
    {inputs : ResolvedTaskInputs} {schema : Option JsonSchema} {output : Json}
    (current : Option TaskInstance) :
    (completionEvents loopSlices id taskDef inputs schema output).foldl
      (fun current event => event.taskEffect key current) current =
      if key = id then current.map (completedTask loopSlices taskDef inputs schema output false)
      else current := by
  unfold completionEvents inputEvents
  by_cases hKey : key = id
  · subst hKey
    rw [if_pos rfl]
    cases current with
    | none => split <;> split <;> simp [WorkflowInstanceEvent.taskEffect]
    | some task =>
        split <;> split <;>
          simp [WorkflowInstanceEvent.taskEffect, completedTask, *]
  · rw [if_neg hKey]
    split <;> split <;> simp [WorkflowInstanceEvent.taskEffect, hKey]

/-- The snapshot once a valid output is recorded, before any verdict. -/
structure CompletionEffect (workflow middle : WorkflowInstance) (id : String) (own : TaskInstance)
    (exit : Bool) : Prop where
  own : middle.tasks.lookup id = some own
  kept : ∀ key, key ≠ id →
    middle.tasks.lookup key = (workflow.tasks.lookup key).map (·.afterExit exit)
  verifierStates : ∀ verifierId,
    middle.verifierStates.lookup verifierId = workflow.verifierStates.lookup verifierId

/-- Events without an effect on a verifier state leave it, as a batch too. -/
theorem foldl_verifierEffect_self {events : List WorkflowInstanceEvent} {verifierId : String}
    (h : ∀ event ∈ events, ∀ current, event.verifierEffect verifierId current = current)
    (current : Option VerifierGenerationState) :
    events.foldl (fun current event => event.verifierEffect verifierId current) current =
      current := by
  refine List.foldlRecOn events (motive := (· = current)) _ rfl ?_
  rintro _ rfl event hEvent
  exact h event hEvent _

/-- A completion does not touch the verifier states; a verdict does. -/
theorem completionEvents_verifierEffect {loopSlices : LoopSlices} {taskDef : TaskDef}
    {inputs : ResolvedTaskInputs} {schema : Option JsonSchema} {output : Json}
    {verifierId : String} :
    ∀ event ∈ completionEvents loopSlices id taskDef inputs schema output,
      ∀ current, event.verifierEffect verifierId current = current := by
  unfold completionEvents inputEvents
  split <;> split <;> simp [WorkflowInstanceEvent.verifierEffect]

/-- Nor does an early exit: the states of the slices that it interrupts stay as
they are. -/
theorem earlyExitEvents_verifierEffect {verifierId : String} :
    ∀ event ∈ earlyExitEvents workflow id,
      ∀ current, event.verifierEffect verifierId current = current := by
  rw [earlyExitEvents_eq]
  simp only [List.mem_cons, List.mem_flatMap, List.not_mem_nil, or_false]
  rintro event (rfl | ⟨_, _, rfl | rfl⟩) current <;> rfl

/-- What the completion of a running attempt leaves, with its early exit if it
makes one. -/
theorem completion_effect {loopSlices : LoopSlices} {taskDef : TaskDef}
    {inputs : ResolvedTaskInputs} {schema : Option JsonSchema} {output : Json}
    {exit : Option String} {task : TaskInstance} (hTask : workflow.tasks.lookup id = some task)
    (hRunning : task.status = .running)
    (hReduce : reduceWorkflowInstanceEvents (some workflow)
      (completionEvents loopSlices id taskDef inputs schema output ++
        (if exit.isSome then earlyExitEvents workflow id else [])) = .ok middle) :
    CompletionEffect workflow middle id
      (completedTask loopSlices taskDef inputs schema output exit.isSome task) exit.isSome := by
  have hEffect := reduceWorkflowInstanceEvents_effected hReduce
  have hEvents : ResultEvents workflow id .failed
      (completionEvents loopSlices id taskDef inputs schema output ++
        (if exit.isSome then earlyExitEvents workflow id else [])) := by
    refine .append (completionEvents_result ..) ?_
    split
    · exact earlyExitEvents_result
    · exact .nil
  have hLookup := hEffect.task fun event h =>
    WorkflowInstanceEvent.isLocal_of_isPassEvent (hEvents.all event h).isPassEvent
  refine ⟨?_, fun key hKey => ?_, fun verifierId => ?_⟩
  · rw [hLookup, List.foldl_append, foldl_completionEvents, if_pos rfl, hTask, Option.map_some]
    split
    · rename_i hExit
      rw [foldl_earlyExitEvents_self hTask (by rw [hRunning]; decide), hExit]
      simp [completedTask]
    · rename_i hExit
      rw [Bool.not_eq_true] at hExit
      rw [hExit]
      rfl
  · rw [hLookup, List.foldl_append, foldl_completionEvents, if_neg hKey]
    split
    · rename_i hExit
      rw [hExit]
      cases hOther : workflow.tasks.lookup key with
      | some other => exact foldl_earlyExitEvents hOther hKey
      | none =>
          refine foldl_taskEffect_none fun event hEvent => ?_
          cases (@earlyExitEvents_result workflow id .failed).all event hEvent with
          | materialized taskDefId generation => simp [earlyExitEvents] at hEvent
          | _ => simp [WorkflowInstanceEvent.taskEffect]
    · rename_i hExit
      rw [Bool.not_eq_true] at hExit
      rw [hExit]
      cases workflow.tasks.lookup key <;> simp
  · rw [hEffect.verifierState]
    refine foldl_verifierEffect_self (fun event hEvent current => ?_) _
    rcases List.mem_append.mp hEvent with hEvent | hEvent
    · exact completionEvents_verifierEffect event hEvent current
    · split at hEvent
      · exact earlyExitEvents_verifierEffect event hEvent current
      · cases hEvent

end WorkflowEngine

end RelayFold
