import RelayFold.Engine.SliceOrder

/-! The graph of the slices: each slice is drawn together into its verifier,
and a task of no slice stands for itself. -/
namespace RelayFold

open WorkflowEngine EdgeList

namespace WorkflowDef

/-- The verifier of the slice of a task, or the task itself. -/
def sliceNode (definition : WorkflowDef) (taskId : String) : String :=
  ((sliceOf (computeLoopSlices definition) taskId).map Prod.fst).getD taskId

/-- The bindings between different nodes. -/
def sliceEdges (definition : WorkflowDef) : List (String × String) :=
  (definition.edges.map fun edge =>
    (definition.sliceNode edge.1, definition.sliceNode edge.2)).filter fun edge => edge.1 ≠ edge.2

/-- No slice waits for itself through others: the graph of the slices has no
cycle. -/
def Untangled (definition : WorkflowDef) : Prop :=
  ∀ node, ¬Relation.TransGen (Edge definition.sliceEdges) node node

end WorkflowDef

variable {definition : WorkflowDef} {verifierId source target taskId node : String}
  {slice : List String}

/-- The graph of slices has an edge wherever a binding leads from one slice, or
single task, to another. -/
theorem mem_sliceEdges {a b : String} : (a, b) ∈ definition.sliceEdges ↔
    a ≠ b ∧ ∃ source target, (source, target) ∈ definition.edges ∧
      definition.sliceNode source = a ∧ definition.sliceNode target = b := by
  simp only [WorkflowDef.sliceEdges, List.mem_filter, List.mem_map, Prod.mk.injEq, Prod.exists,
    decide_eq_true_eq]
  exact and_comm

theorem sliceNode_of_outside (hOutside : ∀ entry ∈ computeLoopSlices definition, taskId ∉ entry.2) :
    definition.sliceNode taskId = taskId := by
  rw [WorkflowDef.sliceNode, sliceOf_eq_none.mpr hOutside]
  rfl

/-- A task belongs to the slice of its node, or is its own node. -/
theorem sliceNode_cases (definition : WorkflowDef) (taskId : String) :
    (∃ slice, (definition.sliceNode taskId, slice) ∈ computeLoopSlices definition ∧ taskId ∈ slice) ∨
    (∀ entry ∈ computeLoopSlices definition, taskId ∉ entry.2) ∧
      definition.sliceNode taskId = taskId := by
  cases hFound : sliceOf (computeLoopSlices definition) taskId with
  | none =>
      have hOutside := sliceOf_eq_none.mp hFound
      exact .inr ⟨hOutside, sliceNode_of_outside hOutside⟩
  | some entry =>
      left
      obtain ⟨hEntry, hMem⟩ := sliceOf_mem hFound
      refine ⟨entry.2, ?_, hMem⟩
      rw [WorkflowDef.sliceNode, hFound]
      exact hEntry

theorem sliceNode_eq (hNode : definition.sliceNode taskId = node) :
    (∃ slice, (node, slice) ∈ computeLoopSlices definition ∧ taskId ∈ slice) ∨
    (∀ entry ∈ computeLoopSlices definition, taskId ∉ entry.2) ∧ taskId = node := by
  rcases sliceNode_cases definition taskId with hSlice | ⟨hOutside, hSame⟩
  · exact .inl (hNode ▸ hSlice)
  · exact .inr ⟨hOutside, hSame.symm.trans hNode⟩

namespace WellFormedDef

variable (h : WellFormedDef definition)
include h

/-- A task of a slice is represented by the verifier; slices do not overlap, so
this is well defined. -/
theorem sliceNode_of_mem (hSlice : (verifierId, slice) ∈ computeLoopSlices definition)
    (hMem : taskId ∈ slice) : definition.sliceNode taskId = verifierId := by
  rw [WorkflowDef.sliceNode, sliceOf_eq h (List.Perm.refl _) hSlice hMem]
  rfl

theorem sliceNode_idem (taskId : String) :
    definition.sliceNode (definition.sliceNode taskId) = definition.sliceNode taskId := by
  rcases sliceNode_cases definition taskId with ⟨slice, hSlice, _⟩ | ⟨_, hSame⟩
  · exact h.sliceNode_of_mem hSlice (h.verifier_mem hSlice)
  · rw [hSame, hSame]

theorem sliceNode_mem (hMem : taskId ∈ definition.taskIds) :
    definition.sliceNode taskId ∈ definition.taskIds := by
  rcases sliceNode_cases definition taskId with ⟨slice, hSlice, _⟩ | ⟨_, hSame⟩
  · obtain ⟨_, _, _, _, hIff⟩ := h.slice_verifier hSlice
    exact ((hIff _).mp (h.verifier_mem hSlice)).1
  · rw [hSame]
    exact hMem

theorem sliceNode_of_path {a : String} (hPath : Relation.TransGen (Edge definition.sliceEdges) a node) :
    definition.sliceNode node = node := by
  obtain ⟨_, _, hEdge⟩ := Relation.TransGen.tail'_iff.mp hPath
  obtain ⟨_, _, target, _, _, rfl⟩ := mem_sliceEdges.mp hEdge
  exact h.sliceNode_idem target

theorem pathEnd_mem {a : String} (hPath : Relation.TransGen (Edge definition.sliceEdges) a node) :
    node ∈ definition.taskIds := by
  obtain ⟨_, _, hEdge⟩ := Relation.TransGen.tail'_iff.mp hPath
  obtain ⟨_, _, target, hBinding, _, rfl⟩ := mem_sliceEdges.mp hEdge
  exact h.sliceNode_mem (h.edge_mem hBinding).2

theorem not_shared (hNodes : definition.sliceNode source ≠ definition.sliceNode target)
    {entry : String × List String} (hEntry : entry ∈ computeLoopSlices definition)
    (hTarget : target ∈ entry.2) : source ∉ entry.2 := by
  intro hSource
  apply hNodes
  rw [h.sliceNode_of_mem hEntry hSource, h.sliceNode_of_mem hEntry hTarget]

/-- The ends of a binding within one node share a slice. -/
theorem shared_of_edge (hEdge : (source, target) ∈ definition.edges)
    (hSame : definition.sliceNode source = definition.sliceNode target) :
    ∃ entry, sliceOf (computeLoopSlices definition) target = some entry ∧ source ∈ entry.2 := by
  rcases sliceNode_cases definition target with ⟨slice, hSlice, hTarget⟩ | ⟨hOutside, hSelf⟩
  · refine ⟨_, sliceOf_eq h (List.Perm.refl _) hSlice hTarget, ?_⟩
    rcases sliceNode_eq hSame with ⟨found, hFound, hSource⟩ | ⟨hNone, hSource⟩
    · rwa [h.slice_unique hSlice hFound] at hSource
    · rw [hSource] at hNone
      exact absurd (h.verifier_mem hSlice) (hNone _ hSlice)
  · rcases sliceNode_eq (hSame.trans hSelf) with ⟨found, hFound, _⟩ | ⟨_, rfl⟩
    · exact absurd (h.verifier_mem hFound) (hOutside _ hFound)
    · exact (h.acyclic .refl hEdge).elim

/-- A path within a slice that leads to its verifier. -/
theorem slice_path (hSlice : (verifierId, slice) ∈ computeLoopSlices definition)
    {P : String → Prop} (hVerifier : P verifierId)
    (hStep : ∀ source target, source ∈ slice → target ∈ slice →
      (source, target) ∈ definition.edges → P target → P source)
    (hMem : taskId ∈ slice) : P taskId := by
  obtain ⟨_, _, _, _, hIff⟩ := h.slice_verifier hSlice
  obtain ⟨hKnown, hFrom, hTo⟩ := (hIff _).mp hMem
  clear hMem hKnown
  induction hTo using Relation.ReflTransGen.head_induction_on with
  | refl => exact hVerifier
  | head hEdge hRest ih =>
      have hNext := hFrom.tail hEdge
      refine hStep _ _ ((hIff _).mpr ⟨(h.edge_mem hEdge).1, hFrom, .head hEdge hRest⟩)
        ((hIff _).mpr ⟨(h.edge_mem hEdge).2, hNext, hRest⟩) hEdge (ih hNext)

end WellFormedDef

end RelayFold
