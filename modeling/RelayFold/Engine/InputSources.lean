import RelayFold.Library.Folds
import RelayFold.Engine.SliceOrder

/-! The attempts that the bindings of a task consume. -/
namespace RelayFold.WorkflowEngine

variable {workflow : WorkflowInstance} {definition : WorkflowDef} {loopSlices : LoopSlices}
  {id taskDefId source target : String}

/-- The attempt that is chosen belongs to the task, and no attempt of that task
has a later generation. -/
theorem latestMaterializedAttemptId_some
    (h : latestMaterializedAttemptId workflow taskDefId = some id) :
    ∃ task, workflow.tasks.lookup id = some task ∧ task.taskDefId = taskDefId ∧
      ∀ key other, workflow.tasks.lookup key = some other → other.taskDefId = taskDefId →
        other.generationIndex ≤ task.generationIndex := by
  obtain ⟨task, hTask, hDef, hMax⟩ := FiniteMap.maxKeyBy_some h
  exact ⟨task, hTask, by simpa using hDef,
    fun key other hOther hSame => hMax key other hOther (by simpa using hSame)⟩

/-- Outside its slice a task reads completed and satisfied attempts only. -/
theorem latestSatisfiedAttemptId_some (h : latestSatisfiedAttemptId workflow taskDefId = some id) :
    ∃ task, workflow.tasks.lookup id = some task ∧ task.taskDefId = taskDefId ∧
      task.status = .completed ∧ task.satisfactionStatus = .satisfied := by
  obtain ⟨task, hTask, hDef, _⟩ := FiniteMap.maxKeyBy_some h
  simp only [Bool.and_eq_true, decide_eq_true_eq] at hDef
  exact ⟨task, hTask, hDef.1.1, hDef.1.2, hDef.2⟩

/-- Inside a slice a binding consumes the latest attempt of its source. -/
theorem resolveSourceAttemptId_inside {entry : String × List String}
    (hSlice : sliceOf loopSlices target = some entry) (hSource : source ∈ entry.2) :
    resolveSourceAttemptId workflow loopSlices (some target) source =
      latestMaterializedAttemptId workflow source := by
  unfold resolveSourceAttemptId
  simp [hSlice, hSource]

/-- From outside its slice, a binding consumes the latest satisfied attempt. -/
theorem resolveSourceAttemptId_outside
    (hSource : ∀ entry, sliceOf loopSlices target = some entry → source ∉ entry.2) :
    resolveSourceAttemptId workflow loopSlices (some target) source =
      latestSatisfiedAttemptId workflow source := by
  unfold resolveSourceAttemptId
  cases hSlice : sliceOf loopSlices target with
  | none => simp [hSlice]
  | some entry => simp [hSlice, hSource entry hSlice]

/-- A binding has its value exactly when the source attempt is completed. The
entry records the output, or null in its absence, and the generation that it
was taken from. -/
theorem resolveBinding_some {binding : DataBinding} {entry : Json × TaskInputMapping} :
    resolveBinding workflow loopSlices target binding = some entry ↔
      ∃ id task, resolveSourceAttemptId workflow loopSlices (some target) binding.sourceTaskId =
          some id ∧
        workflow.tasks.lookup id = some task ∧ task.status = .completed ∧
        entry = (task.outputData.getD .null, ⟨binding.sourceTaskId, task.generationIndex⟩) := by
  unfold resolveBinding
  constructor
  · intro h
    obtain ⟨id, hId, h⟩ := Option.bind_eq_some_iff.mp h
    obtain ⟨task, hTask, h⟩ := Option.bind_eq_some_iff.mp h
    split at h
    · rename_i hCompleted
      cases h
      exact ⟨id, task, hId, hTask, hCompleted, rfl⟩
    · cases h
  · rintro ⟨id, task, hId, hTask, hCompleted, rfl⟩
    simp [hId, hTask, hCompleted]

/-- Inputs that resolve come from the bindings, or were given to an unbound
attempt. -/
theorem resolveInputs_some {task : TaskInstance} {taskDef : TaskDef} {inputs : ResolvedTaskInputs}
    (h : resolveInputs workflow definition task taskDef loopSlices = some inputs) :
    inboundBindings definition taskDef.id = [] ∨
      ∃ resolved, inputs = ⟨resolved.map Prod.fst, resolved.map Prod.snd⟩ ∧
        List.Forall₂ (fun binding entry =>
          resolveBinding workflow loopSlices task.taskDefId binding = some entry)
          (inboundBindings definition taskDef.id) resolved := by
  unfold resolveInputs at h
  dsimp only at h
  split at h
  · rename_i hUnbound
    simp only [Bool.and_eq_true, List.isEmpty_iff] at hUnbound
    exact .inl hUnbound.1
  · obtain ⟨resolved, hResolved, rfl⟩ := Option.map_eq_some_iff.mp h
    exact .inr ⟨resolved, rfl, FallibleFold.mapM_eq_some.mp hResolved⟩

/-- A task whose inputs resolve has a completed source behind each binding. -/
theorem resolveBinding_of_resolveInputs {task : TaskInstance} {taskDef : TaskDef}
    (h : (resolveInputs workflow definition task taskDef loopSlices).isSome = true)
    {binding : DataBinding} (hBinding : binding ∈ inboundBindings definition taskDef.id) :
    ∃ entry, resolveBinding workflow loopSlices task.taskDefId binding = some entry := by
  obtain ⟨inputs, hInputs⟩ := Option.isSome_iff_exists.mp h
  rcases resolveInputs_some hInputs with hUnbound | ⟨resolved, _, hResolved⟩
  · rw [hUnbound] at hBinding
    cases hBinding
  · obtain ⟨entry, _, hEntry⟩ := Forall₂.exists_left hResolved.flip hBinding
    exact ⟨entry, hEntry⟩

end RelayFold.WorkflowEngine
