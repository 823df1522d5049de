import RelayFold.Core.AcceptedDefs

/-! The slices of an accepted definition: each is the interval between a rerun
start and its verifier, and no two of them share a task. -/
namespace RelayFold

open EdgeList WorkflowDef

variable {definition : WorkflowDef} {verifierId taskId : String} {slice : List String}

/-- The task that is found is one of the definition, under the id that was
asked for. -/
theorem findTask_some {taskDef : TaskDef} (h : definition.findTask taskId = some taskDef) :
    taskDef ∈ definition.tasks ∧ taskDef.id = taskId :=
  ⟨List.mem_of_find?_eq_some h, by simpa using List.find?_some h⟩

theorem findTask_isSome (h : taskId ∈ definition.taskIds) :
    ∃ taskDef, definition.findTask taskId = some taskDef := by
  obtain ⟨taskDef, hMem, hId⟩ := List.mem_map.mp h
  refine Option.isSome_iff_exists.mp (List.find?_isSome.mpr ⟨taskDef, hMem, ?_⟩)
  exact decide_eq_true hId

theorem findTask_mem_taskIds {taskDef : TaskDef} (h : definition.findTask taskId = some taskDef) :
    taskId ∈ definition.taskIds := by
  obtain ⟨hMem, rfl⟩ := findTask_some h
  exact List.mem_map_of_mem hMem

namespace WellFormedDef

variable (h : WellFormedDef definition)
include h

theorem findTask_mem {taskDef : TaskDef} (hMem : taskDef ∈ definition.tasks) :
    definition.findTask taskDef.id = some taskDef := by
  obtain ⟨found, hFound⟩ := findTask_isSome (List.mem_map_of_mem hMem : taskDef.id ∈ definition.taskIds)
  obtain ⟨hFoundMem, hId⟩ := findTask_some hFound
  rw [hFound, List.inj_on_of_nodup_map h.ids_nodup hFoundMem hMem hId]

/-- The verifier behind a slice. -/
theorem slice_verifier (hSlice : (verifierId, slice) ∈ computeLoopSlices definition) :
    ∃ task verifier, definition.findTask verifierId = some task ∧
      taskVerifier task = some verifier ∧
      ∀ taskId, taskId ∈ slice ↔ taskId ∈ definition.taskIds ∧
        Reaches definition.edges (verifierRerunStartTaskId verifier verifierId) taskId ∧
        Reaches definition.edges taskId verifierId := by
  obtain ⟨task, hTask, verifier, hVerifier, rfl, rfl⟩ := mem_computeLoopSlices.mp hSlice
  refine ⟨task, verifier, h.findTask_mem hTask, hVerifier, fun taskId => ?_⟩
  simp only [List.mem_filter, decide_eq_true_eq, mem_reachableFrom, mem_canReachTargetSet]

/-- No binding leads back along a path, or the rank of the definition would
have to grow along a cycle. -/
theorem acyclic {a b : String} (hReach : Reaches definition.edges a b)
    (hEdge : (b, a) ∈ definition.edges) : False := by
  obtain ⟨rank, hRank⟩ := h.ranked
  have hLe : rank a ≤ rank b := by
    clear hEdge
    induction hReach with
    | refl => exact Nat.le_refl _
    | tail _ hStep ih => exact Nat.le_trans ih (Nat.le_of_lt (hRank _ _ hStep))
  exact absurd (hRank _ _ hEdge) (Nat.not_lt.mpr hLe)

theorem edge_mem {a b : String} (hEdge : (a, b) ∈ definition.edges) :
    a ∈ definition.taskIds ∧ b ∈ definition.taskIds := by
  obtain ⟨binding, hMem, hPair⟩ := List.mem_map.mp hEdge
  cases hPair
  exact ⟨h.source_mem binding hMem, h.target_mem binding hMem⟩

theorem verifier_mem (hSlice : (verifierId, slice) ∈ computeLoopSlices definition) :
    verifierId ∈ slice := by
  obtain ⟨task, verifier, hTask, hVerifier, hMem⟩ := h.slice_verifier hSlice
  obtain ⟨hIn, rfl⟩ := findTask_some hTask
  exact (hMem _).mpr ⟨List.mem_map_of_mem hIn, h.start_reaches task hIn verifier hVerifier, .refl⟩

/-- The task at which the reruns of a verifier start belongs to its slice: the
slice is what the start reaches and what reaches the verifier. -/
theorem start_mem_slice (hSlice : (verifierId, slice) ∈ computeLoopSlices definition)
    {task : TaskDef} {verifier : VerifierControlConfig}
    (hTask : definition.findTask verifierId = some task)
    (hVerifier : taskVerifier task = some verifier) :
    verifierRerunStartTaskId verifier verifierId ∈ slice := by
  obtain ⟨task', verifier', hTask', hVerifier', hMem⟩ := h.slice_verifier hSlice
  rw [hTask'] at hTask
  cases hTask
  rw [hVerifier'] at hVerifier
  cases hVerifier
  obtain ⟨hIn, rfl⟩ := findTask_some hTask'
  exact (hMem _).mpr ⟨h.start_mem _ hIn _ hVerifier', .refl, h.start_reaches _ hIn _ hVerifier'⟩

/-- Every task of a slice but the start has a source in the slice. -/
theorem source_in_slice (hSlice : (verifierId, slice) ∈ computeLoopSlices definition)
    {task : TaskDef} {verifier : VerifierControlConfig}
    (hTask : definition.findTask verifierId = some task)
    (hVerifier : taskVerifier task = some verifier) (hMem : taskId ∈ slice)
    (hStart : taskId ≠ verifierRerunStartTaskId verifier verifierId) :
    ∃ source ∈ slice, (source, taskId) ∈ definition.edges := by
  obtain ⟨task', verifier', hTask', hVerifier', hIff⟩ := h.slice_verifier hSlice
  rw [hTask'] at hTask
  cases hTask
  rw [hVerifier'] at hVerifier
  cases hVerifier
  obtain ⟨_, hFrom, hTo⟩ := (hIff _).mp hMem
  rcases Relation.ReflTransGen.cases_tail hFrom with hSame | ⟨source, hFromSource, hEdge⟩
  · exact absurd hSame hStart
  · exact ⟨source, (hIff _).mpr ⟨(h.edge_mem hEdge).1, hFromSource, .head hEdge hTo⟩, hEdge⟩

/-- A verifier has one slice, although the slices are listed as pairs. -/
theorem slice_unique {slice' : List String}
    (hSlice : (verifierId, slice) ∈ computeLoopSlices definition)
    (hSlice' : (verifierId, slice') ∈ computeLoopSlices definition) : slice' = slice := by
  have hSame := h.slices_disjoint _ hSlice _ hSlice' verifierId (h.verifier_mem hSlice)
    (h.verifier_mem hSlice')
  exact (Prod.mk.inj hSame).2.symm


end WellFormedDef

end RelayFold
