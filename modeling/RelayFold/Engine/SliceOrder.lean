import RelayFold.Core.SliceFacts
import RelayFold.Engine.ResultEvents
import RelayFold.Engine.Pass

/-! A pass iterates over the slices of an accepted definition in any order: no
task is in two slices, so what it looks up does not depend on that order. -/
namespace RelayFold.WorkflowEngine

variable {definition : WorkflowDef} {loopSlices : LoopSlices} {taskId verifierId : String}
  {slice : List String}

/-- The slice that is found for a task is one of the slices and holds the
task. -/
theorem sliceOf_mem {entry : String × List String} (h : sliceOf loopSlices taskId = some entry) :
    entry ∈ loopSlices ∧ taskId ∈ entry.2 :=
  ⟨List.mem_of_find?_eq_some h, by simpa using List.find?_some h⟩

theorem sliceOf_eq_none :
    sliceOf loopSlices taskId = none ↔ ∀ entry ∈ loopSlices, taskId ∉ entry.2 := by
  simp [sliceOf, List.find?_eq_none]

/-- The test for membership looks through all slices, in any order. -/
theorem isTaskInLoopSlice_iff :
    isTaskInLoopSlice loopSlices taskId = true ↔ ∃ entry ∈ loopSlices, taskId ∈ entry.2 := by
  simp [isTaskInLoopSlice, List.any_eq_true]

section Perm

variable (h : WellFormedDef definition) (hPerm : loopSlices.Perm (computeLoopSlices definition))
include h hPerm

/-- Slices do not overlap, so the one that is found does not depend on the
order of the search. -/
theorem sliceOf_eq (hSlice : (verifierId, slice) ∈ computeLoopSlices definition)
    (hMem : taskId ∈ slice) : sliceOf loopSlices taskId = some (verifierId, slice) := by
  cases hFound : sliceOf loopSlices taskId with
  | none => exact absurd hMem (sliceOf_eq_none.mp hFound _ (hPerm.mem_iff.mpr hSlice))
  | some entry =>
      obtain ⟨hEntry, hIn⟩ := sliceOf_mem hFound
      rw [h.slices_disjoint _ (hPerm.mem_iff.mp hEntry) _ hSlice taskId hIn hMem]

/-- Whatever the order of the hash map, a task is found in the slice that the
definition gives it. -/
theorem sliceOf_perm (taskId : String) :
    sliceOf loopSlices taskId = sliceOf (computeLoopSlices definition) taskId := by
  cases hFound : sliceOf (computeLoopSlices definition) taskId with
  | none =>
      refine sliceOf_eq_none.mpr fun entry hEntry => ?_
      exact sliceOf_eq_none.mp hFound entry (hPerm.mem_iff.mp hEntry)
  | some entry =>
      obtain ⟨hEntry, hIn⟩ := sliceOf_mem hFound
      exact sliceOf_eq h hPerm hEntry hIn

/-- The slice of a verifier is found under the verifier's id in every order. -/
theorem lookup_slice (hSlice : (verifierId, slice) ∈ computeLoopSlices definition) :
    loopSlices.lookup verifierId = some slice := by
  cases hFound : loopSlices.lookup verifierId with
  | none =>
      have hNone := List.lookup_eq_none_iff.mp hFound _ (hPerm.mem_iff.mpr hSlice)
      simp at hNone
  | some found =>
      obtain ⟨_, _, rfl, _⟩ := List.lookup_eq_some_iff.mp hFound
      have hIn : (verifierId, found) ∈ computeLoopSlices definition :=
        hPerm.mem_iff.mp (by simp)
      rw [h.slice_unique hSlice hIn]

/-- The attempt that a binding reads from does not depend on the order of the
slices. -/
theorem resolveSourceAttemptId_perm (workflow : WorkflowInstance) (target : Option String)
    (source : String) : resolveSourceAttemptId workflow loopSlices target source =
      resolveSourceAttemptId workflow (computeLoopSlices definition) target source := by
  cases target with
  | none => rfl
  | some taskId => simp only [resolveSourceAttemptId, Option.bind_some, sliceOf_perm h hPerm taskId]

theorem resolveInputs_perm (workflow : WorkflowInstance) (task : TaskInstance) (taskDef : TaskDef) :
    resolveInputs workflow definition task taskDef loopSlices =
      resolveInputs workflow definition task taskDef (computeLoopSlices definition) := by
  have hBinding : resolveBinding workflow loopSlices task.taskDefId =
      resolveBinding workflow (computeLoopSlices definition) task.taskDefId := by
    funext binding
    simp only [resolveBinding, resolveSourceAttemptId_perm h hPerm]
  simp only [resolveInputs, hBinding]

theorem canRun_perm (workflow : WorkflowInstance) (task : TaskInstance) :
    canRun workflow definition loopSlices task =
      canRun workflow definition (computeLoopSlices definition) task := by
  simp only [canRun, resolveInputs_perm h hPerm]

/-- A pass finds the same attempts to run in every order of the slices. -/
theorem tasksToRun_perm (workflow : WorkflowInstance) : tasksToRun workflow definition loopSlices =
    tasksToRun workflow definition (computeLoopSlices definition) := by
  simp only [tasksToRun, canRun_perm h hPerm]

end Perm

end RelayFold.WorkflowEngine
