import RelayFold.Core.AttemptIds
import RelayFold.Core.EventTargets
import RelayFold.Engine.VerifierTransition

/-! The attempts of one generation of a slice that are still to be created. -/
namespace RelayFold.WorkflowEngine

variable {workflow : WorkflowInstance} {generation : Nat} {slice planned : List String}

/-- The entry of a task's attempt at a generation, before anything has run. -/
def freshEntry (generation : Nat) (taskDefId : String) : String × TaskInstance :=
  (makeTaskAttemptId taskDefId generation, .fresh taskDefId generation)

/-- The tasks of a slice that have no attempt at a generation, each once. -/
def missingTasks (workflow : WorkflowInstance) (generation : Nat) :
    List String → List String → List String
  | [], _ => []
  | taskDefId :: slice, planned =>
      let taskAttemptId := makeTaskAttemptId taskDefId generation
      if (workflow.tasks.lookup taskAttemptId).isSome || taskAttemptId ∈ planned then
        missingTasks workflow generation slice planned
      else taskDefId :: missingTasks workflow generation slice (taskAttemptId :: planned)

/-- A new generation of a slice consists of one fresh attempt for each task of
it that has none yet. -/
theorem materializeSlice_eq :
    (materializeSlice workflow generation slice planned).1 =
      ((missingTasks workflow generation slice planned).map (freshEntry generation)).map
        fun entry => .taskMaterialized entry.1 entry.2 := by
  induction slice generalizing planned with
  | nil => rfl
  | cons taskDefId slice ih =>
      unfold materializeSlice missingTasks
      dsimp only
      split
      · exact ih
      · exact congrArg (List.cons _) ih

/-- A task is missing if it lies in the slice and its attempt neither exists
nor is planned in the same batch. -/
theorem mem_missingTasks {taskDefId : String} :
    taskDefId ∈ missingTasks workflow generation slice planned ↔ taskDefId ∈ slice ∧
      workflow.tasks.lookup (makeTaskAttemptId taskDefId generation) = none ∧
      makeTaskAttemptId taskDefId generation ∉ planned := by
  induction slice generalizing planned with
  | nil => simp [missingTasks]
  | cons first slice ih =>
      unfold missingTasks
      dsimp only
      by_cases hSame : taskDefId = first
      · subst hSame
        split
        · rename_i hPresent
          rw [ih]
          refine ⟨fun h => ⟨List.mem_cons_of_mem _ h.1, h.2⟩, fun ⟨_, hNone, hPlanned⟩ => ?_⟩
          simp [hNone, hPlanned] at hPresent
        · rename_i hMissing
          simpa [Option.isSome_iff_ne_none] using hMissing
      · split
        · rw [ih]
          simp [hSame]
        · rw [List.mem_cons, ih]
          simp [hSame, makeTaskAttemptId_inj]

/-- Each missing task is listed once, though the slice could name it twice. -/
theorem missingTasks_nodup : (missingTasks workflow generation slice planned).Nodup := by
  induction slice generalizing planned with
  | nil => exact List.nodup_nil
  | cons first slice ih =>
      unfold missingTasks
      dsimp only
      split
      · exact ih
      · refine List.nodup_cons.mpr ⟨fun hMem => ?_, ih⟩
        exact (mem_missingTasks.mp hMem).2.2 List.mem_cons_self

/-- The attempts of one batch have different keys, so none of them replaces
another. -/
theorem missing_keys_nodup :
    (((missingTasks workflow generation slice planned).map (freshEntry generation)).map
      Prod.fst).Nodup := by
  rw [List.map_map]
  refine missingTasks_nodup.map fun a b h => ?_
  exact (makeTaskAttemptId_inj.mp h).1

/-- An early exit stops a generation before it is created. Without one, the
generation is materialized in full. -/
theorem materializeGenerationEvents_eq (h : sliceInterruptedByExit workflow slice = false) :
    (materializeGenerationEvents workflow slice generation planned).1 =
      ((missingTasks workflow generation slice planned).map (freshEntry generation)).map
        fun entry => .taskMaterialized entry.1 entry.2 := by
  unfold materializeGenerationEvents
  rw [if_neg (by simp [h])]
  exact materializeSlice_eq

/-- The missing attempts of a slice can be created in any snapshot with the
same attempts. -/
theorem foldlM_of_missing {current : WorkflowInstance} (generation : Nat)
    (slice planned : List String) (hSame : SameKeys workflow current) :
    ∃ next, (((missingTasks workflow generation slice planned).map (freshEntry generation)).map
      fun entry => WorkflowInstanceEvent.taskMaterialized entry.1 entry.2).foldlM
        applyWorkflowInstanceEvent current = .ok next := by
  refine foldlM_of_materialized _ (fun entry hEntry => ?_) missing_keys_nodup
  obtain ⟨taskDefId, hMem, rfl⟩ := List.mem_map.mp hEntry
  exact hSame.lookup_none (mem_missingTasks.mp hMem).2.1

end RelayFold.WorkflowEngine
