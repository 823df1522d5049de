import RelayFold.Core.AcceptedDefs

/-! The graph checks of `workflow_service.rs` as they run: loops over adjacency
lists, work lists and in-degree counters in hash maps. A loop that does not
end, or a counter that would go below zero, gives no result. -/
namespace RelayFold

open EdgeList

namespace GraphLoops

/-- `entry(source).or_default().push(target)` -/
def pushEdge (adjacency : FiniteMap String (List String)) (edge : String × String) :
    FiniteMap String (List String) :=
  adjacency.insert edge.1 ((adjacency.lookup edge.1).getD [] ++ [edge.2])

def adjacencyOf (edges : List (String × String)) : FiniteMap String (List String) :=
  edges.foldl pushEdge ∅

/-- The last node pushed is popped first. -/
def walkLoop (adjacency : FiniteMap String (List String)) :
    Nat → List String → List String → Option (List String)
  | 0, _, _ => none
  | _ + 1, [], seen => some seen
  | fuel + 1, current :: stack, seen =>
      if current ∈ seen then walkLoop adjacency fuel stack seen
      else walkLoop adjacency fuel (((adjacency.lookup current).getD []).reverse ++ stack)
        (current :: seen)

def walkGraph (fuel : Nat) (start : String) (adjacency : FiniteMap String (List String)) :
    Option (List String) :=
  walkLoop adjacency fuel [start] []

def upstreamLoop (reverse : FiniteMap String (List String)) (ancestor : String) :
    Nat → List String → List String → Option Bool
  | 0, _, _ => none
  | _ + 1, [], _ => some false
  | fuel + 1, current :: stack, seen =>
      if current ∈ seen then upstreamLoop reverse ancestor fuel stack seen
      else
        let upstream := (reverse.lookup current).getD []
        if ancestor ∈ upstream then some true
        else upstreamLoop reverse ancestor fuel (upstream.reverse ++ stack) (current :: seen)

def isUpstreamAncestor (fuel : Nat) (definition : WorkflowDef) (ancestor taskId : String) :
    Option Bool :=
  upstreamLoop (adjacencyOf (reverse definition.edges)) ancestor fuel [taskId] []

/-- Every task starts at zero, and each binding counts for its target. -/
def inDegrees (definition : WorkflowDef) : FiniteMap String Nat :=
  definition.dataBindings.foldl
    (fun inDegree binding => inDegree.insert binding.targetTaskId
      ((inDegree.lookup binding.targetTaskId).getD 0 + 1))
    (definition.tasks.foldl (fun inDegree task => inDegree.insert task.id 0) ∅)

def cycleAdjacency (definition : WorkflowDef) : FiniteMap String (List String) :=
  definition.edges.foldl pushEdge
    (definition.tasks.foldl (fun adjacency task => adjacency.insert task.id []) ∅)

/-- `*degree -= 1`, and queue the neighbor at zero. -/
def countDown (state : FiniteMap String Nat × List String) (neighbor : String) :
    Option (FiniteMap String Nat × List String) :=
  match state.1.lookup neighbor with
  | none => some state
  | some 0 => none
  | some (degree + 1) =>
      some (state.1.insert neighbor degree,
        if degree = 0 then state.2 ++ [neighbor] else state.2)

def visitLoop (adjacency : FiniteMap String (List String)) :
    Nat → FiniteMap String Nat → List String → Nat → Option Nat
  | 0, _, _, _ => none
  | _ + 1, _, [], visited => some visited
  | fuel + 1, inDegree, node :: queue, visited => do
      let (inDegree, queue) ←
        ((adjacency.lookup node).getD []).foldlM countDown (inDegree, queue)
      visitLoop adjacency fuel inDegree queue (visited + 1)

/-- `order` is the order in which the counters are iterated. -/
def hasDataBindingCycle (fuel : Nat) (order : List String) (definition : WorkflowDef) :
    Option Bool :=
  let inDegree := inDegrees definition
  let queue := order.filter fun node => inDegree.lookup node = some 0
  (visitLoop (cycleAdjacency definition) fuel inDegree queue 0).map fun visited =>
    visited ≠ definition.tasks.length

/-! ### Adjacency lists -/

/-- Building the adjacency map appends to each node its successors, in the
order of the edges. -/
theorem lookup_pushEdges (edges : List (String × String)) (adjacency : FiniteMap String (List String))
    (node : String) :
    ((edges.foldl pushEdge adjacency).lookup node).getD [] =
      (adjacency.lookup node).getD [] ++ successors edges node := by
  induction edges generalizing adjacency with
  | nil => exact (List.append_nil _).symm
  | cons edge edges ih =>
      rw [List.foldl_cons, ih, pushEdge, FiniteMap.lookup_insert_eq]
      by_cases hNode : node = edge.1
      · rw [if_pos hNode, Option.getD_some, ← hNode, List.append_assoc]
        simp [successors, hNode]
      · rw [if_neg hNode]
        simp [successors, Ne.symm hNode]

/-- The finished map holds, for each node, exactly its successors; a missing
entry stands for none. -/
theorem lookup_adjacencyOf (edges : List (String × String)) (node : String) :
    ((adjacencyOf edges).lookup node).getD [] = successors edges node := by
  rw [adjacencyOf, lookup_pushEdges, Finmap.lookup_empty]
  rfl

/-- Starting the entry of every task adds no edge. -/
theorem lookup_cycleAdjacency (definition : WorkflowDef) (node : String) :
    ((cycleAdjacency definition).lookup node).getD [] = successors definition.edges node := by
  have hStart (tasks : List TaskDef) (adjacency : FiniteMap String (List String))
      (hEmpty : (adjacency.lookup node).getD [] = []) :
      ((tasks.foldl (fun adjacency task => adjacency.insert task.id []) adjacency).lookup
        node).getD [] = [] := by
    induction tasks generalizing adjacency with
    | nil => exact hEmpty
    | cons task tasks ih =>
        apply ih
        rw [FiniteMap.lookup_insert_eq]
        split
        · rfl
        · exact hEmpty
  rw [cycleAdjacency, lookup_pushEdges, hStart _ _ rfl, List.nil_append]

/-! ### The walks end -/

/-- With enough fuel the loop of the source ends, with what the walk of the
library has seen. The measure is the stack and the edges not followed yet. -/
theorem walkLoop_eq {edges : List (String × String)} {adjacency : FiniteMap String (List String)}
    (hAdjacency : ∀ node, (adjacency.lookup node).getD [] = successors edges node) (fuel : Nat)
    (stack seen : List String) (hFuel : stack.length + unexpanded edges seen < fuel) :
    walkLoop adjacency fuel stack seen = some (walk edges fuel stack seen) := by
  induction fuel generalizing stack seen with
  | zero => omega
  | succ fuel ih =>
      cases stack with
      | nil => rfl
      | cons current stack =>
          rw [List.length_cons] at hFuel
          rw [walkLoop, walk, hAdjacency]
          by_cases hMem : current ∈ seen
          · rw [if_pos hMem, if_pos hMem]
            exact ih _ _ (by omega)
          · rw [if_neg hMem, if_neg hMem]
            have hCount := unexpanded_cons edges hMem
            apply ih
            rw [List.length_append, List.length_reverse]
            omega

/-- The search for an ancestor is the library's search over the reversed edges,
with the same bound on the fuel. -/
theorem upstreamLoop_eq {edges : List (String × String)}
    {reverse : FiniteMap String (List String)}
    (hReverse : ∀ node, (reverse.lookup node).getD [] = successors edges node)
    (ancestor : String) (fuel : Nat) (stack seen : List String)
    (hFuel : stack.length + unexpanded edges seen < fuel) :
    upstreamLoop reverse ancestor fuel stack seen =
      some (search edges ancestor fuel stack seen) := by
  induction fuel generalizing stack seen with
  | zero => omega
  | succ fuel ih =>
      cases stack with
      | nil => rfl
      | cons current stack =>
          rw [List.length_cons] at hFuel
          rw [upstreamLoop, search, hReverse]
          by_cases hMem : current ∈ seen
          · rw [if_pos hMem, if_pos hMem]
            exact ih _ _ (by omega)
          · rw [if_neg hMem, if_neg hMem]
            dsimp only
            by_cases hAncestor : ancestor ∈ successors edges current
            · rw [if_pos hAncestor, if_pos hAncestor]
            · rw [if_neg hAncestor, if_neg hAncestor]
              have hCount := unexpanded_cons edges hMem
              apply ih
              rw [List.length_append, List.length_reverse]
              omega

theorem unexpanded_nil (edges : List (String × String)) : unexpanded edges [] = edges.length := by
  simp [unexpanded]

/-- A walk over the graph ends after at most two more rounds than there are
edges, and its result is the search that the slices are defined by. -/
theorem walkGraph_eq (edges : List (String × String)) (start : String) :
    walkGraph (edges.length + 2) start (adjacencyOf edges) =
      some (RelayFold.walkGraph start edges) := by
  apply walkLoop_eq (lookup_adjacencyOf edges)
  rw [unexpanded_nil, List.length_singleton]
  omega

/-- The upstream test as the source computes it, with its own stack, agrees
with the definition that validation uses. -/
theorem isUpstreamAncestor_eq (definition : WorkflowDef) (ancestor taskId : String) :
    isUpstreamAncestor (definition.dataBindings.length + 2) definition ancestor taskId =
      some (RelayFold.isUpstreamAncestor definition ancestor taskId) := by
  apply upstreamLoop_eq (lookup_adjacencyOf _)
  rw [unexpanded_nil, List.length_singleton, EdgeList.reverse, List.length_map, WorkflowDef.edges,
    List.length_map]
  omega

end GraphLoops

/-- The upstream test is exact: a path of at least one binding leads from the
ancestor to the task. -/
theorem isUpstreamAncestor_iff (definition : WorkflowDef) (ancestor taskId : String) :
    isUpstreamAncestor definition ancestor taskId = true ↔
      Relation.TransGen (Edge definition.edges) ancestor taskId := by
  have hLength : definition.dataBindings.length = (reverse definition.edges).length := by
    rw [EdgeList.reverse, List.length_map, WorkflowDef.edges, List.length_map]
  rw [isUpstreamAncestor, hLength, search_iff, ← Relation.transGen_swap]
  have hEdge : Function.swap (Edge (reverse definition.edges)) = Edge definition.edges := by
    funext a b
    exact propext mem_reverse
  rw [hEdge]

/-- A definition whose ids and references are normalized: the ids are distinct,
and every binding joins two of the tasks. -/
structure NormalizedDef (definition : WorkflowDef) : Prop where
  ids_nodup : definition.taskIds.Nodup
  source_mem : ∀ binding ∈ definition.dataBindings, binding.sourceTaskId ∈ definition.taskIds
  target_mem : ∀ binding ∈ definition.dataBindings, binding.targetTaskId ∈ definition.taskIds

namespace NormalizedDef

variable {definition : WorkflowDef} {order : List String}

theorem edge_mem (h : NormalizedDef definition) {a b : String} (hEdge : (a, b) ∈ definition.edges) :
    a ∈ definition.taskIds ∧ b ∈ definition.taskIds := by
  obtain ⟨binding, hBinding, hPair⟩ := List.mem_map.mp hEdge
  cases hPair
  exact ⟨h.source_mem binding hBinding, h.target_mem binding hBinding⟩

/-- The cycle check is exact: it answers yes if and only if some task lies on a
cycle of bindings. -/
theorem hasDataBindingCycle_iff (h : NormalizedDef definition) :
    hasDataBindingCycle definition = true ↔
      ∃ taskId, Relation.TransGen (Edge definition.edges) taskId taskId := by
  have hLength : definition.tasks.length = definition.taskIds.length := (List.length_map _).symm
  rw [hasDataBindingCycle, List.dedup_eq_self.mpr h.ids_nodup, decide_eq_true_eq, hLength, ne_eq,
    kahn_length_iff (fun _ _ hEdge => (h.edge_mem hEdge).1) (fun _ _ hEdge => (h.edge_mem hEdge).2)
      h.ids_nodup (by omega)]
  push Not
  rfl

end NormalizedDef

/-! ### The counters -/

namespace GraphLoops

/-- The counters hold the in-degree of every node of the loop. -/
def Counts (inDegree : FiniteMap String Nat) (nodes : List String) (degree : String → Nat) : Prop :=
  ∀ node ∈ nodes, inDegree.lookup node = some (degree node)

/-- Counting down the neighbors never takes a counter below zero. -/
theorem countDown_foldlM {nodes : List String} (neighbors : List String)
    (inDegree : FiniteMap String Nat) (degree : String → Nat) (queue : List String)
    (hCounts : Counts inDegree nodes degree) (hNodes : ∀ node ∈ neighbors, node ∈ nodes)
    (hCount : ∀ node, neighbors.count node ≤ degree node) :
    ∃ inDegree', neighbors.foldlM countDown (inDegree, queue) =
        some (inDegree', (neighbors.foldl relax (degree, queue)).2) ∧
      Counts inDegree' nodes (neighbors.foldl relax (degree, queue)).1 := by
  induction neighbors generalizing inDegree degree queue with
  | nil => exact ⟨inDegree, rfl, hCounts⟩
  | cons neighbor rest ih =>
      have hLookup := hCounts neighbor (hNodes neighbor List.mem_cons_self)
      have hPositive := hCount neighbor
      rw [List.count_cons_self] at hPositive
      obtain ⟨next, hNext⟩ : ∃ next, degree neighbor = next + 1 := ⟨degree neighbor - 1, by omega⟩
      rw [hNext] at hLookup
      have hStep : countDown (inDegree, queue) neighbor = some (inDegree.insert neighbor next,
          if next = 0 then queue ++ [neighbor] else queue) := by
        rw [countDown, hLookup]
      have hRelax : relax (degree, queue) neighbor =
          (fun node => if node = neighbor then next else degree node,
            if next = 0 then queue ++ [neighbor] else queue) := by
        simp only [relax, hNext, Nat.add_sub_cancel]
      rw [List.foldlM_cons, hStep, List.foldl_cons, hRelax]
      apply ih
      · intro node hNode
        rw [FiniteMap.lookup_insert_eq]
        by_cases hSame : node = neighbor
        · rw [if_pos hSame]
          simp only [if_pos hSame]
        · rw [if_neg hSame]
          simp only [if_neg hSame]
          exact hCounts node hNode
      · exact fun node hNode => hNodes node (List.mem_cons_of_mem _ hNode)
      · intro node
        have hLe := hCount node
        by_cases hSame : node = neighbor
        · subst hSame
          rw [List.count_cons_self] at hLe
          simp only [if_true]
          omega
        · rw [List.count_cons_of_ne (Ne.symm hSame)] at hLe
          simpa only [if_neg hSame] using hLe

/-- The loop visits the nodes that Kahn's algorithm visits. -/
theorem visitLoop_eq {edges : List (String × String)} {nodes : List String}
    {adjacency : FiniteMap String (List String)}
    (hAdjacency : ∀ node, (adjacency.lookup node).getD [] = successors edges node)
    (hTargets : ∀ a b, (a, b) ∈ edges → b ∈ nodes) (fuel : Nat) (inDegree : FiniteMap String Nat)
    (degree : String → Nat) (queue visited : List String)
    (h : KahnLoop edges nodes degree queue visited) (hCounts : Counts inDegree nodes degree)
    (hFuel : nodes.length < fuel + visited.length) :
    visitLoop adjacency fuel inDegree queue visited.length =
      some (kahn edges fuel degree queue visited).length := by
  induction fuel generalizing inDegree degree queue visited with
  | zero =>
      have hLength := h.length_le
      omega
  | succ fuel ih =>
      cases queue with
      | nil => rfl
      | cons node queue =>
          obtain ⟨inDegree', hFold, hCounts'⟩ := countDown_foldlM (successors edges node) inDegree
            degree queue hCounts (fun next hNext => hTargets node next (mem_successors.mp hNext))
            h.count_le
          have hLength : (visited ++ [node]).length = visited.length + 1 := by simp
          have hRest := ih inDegree' _ _ (visited ++ [node]) (h.visit hTargets) hCounts' (by omega)
          rw [hLength] at hRest
          rw [visitLoop, hAdjacency, hFold, kahn]
          exact hRest

/-- The first loop gives every task the degree 0. -/
theorem lookup_startDegrees (tasks : List TaskDef) (inDegree : FiniteMap String Nat)
    (node : String) :
    (tasks.foldl (fun inDegree task => inDegree.insert task.id 0) inDegree).lookup node =
      if node ∈ tasks.map (·.id) then some 0 else inDegree.lookup node := by
  induction tasks generalizing inDegree with
  | nil => rfl
  | cons task tasks ih =>
      rw [List.foldl_cons, ih, FiniteMap.lookup_insert_eq, List.map_cons]
      by_cases hRest : node ∈ tasks.map (·.id)
      · rw [if_pos hRest, if_pos (List.mem_cons_of_mem _ hRest)]
      · rw [if_neg hRest]
        by_cases hTask : node = task.id
        · rw [if_pos hTask, if_pos (hTask ▸ List.mem_cons_self)]
        · rw [if_neg hTask, if_neg fun hMem => (List.mem_cons.mp hMem).elim hTask hRest]

/-- Each binding counts once, however often it is repeated. -/
theorem lookup_countBindings (bindings : List DataBinding) (inDegree : FiniteMap String Nat)
    (node : String) :
    (bindings.foldl (fun inDegree binding => inDegree.insert binding.targetTaskId
        ((inDegree.lookup binding.targetTaskId).getD 0 + 1)) inDegree).lookup node =
      if ∃ binding ∈ bindings, binding.targetTaskId = node then
        some ((inDegree.lookup node).getD 0 + bindings.countP (·.targetTaskId = node))
      else inDegree.lookup node := by
  induction bindings generalizing inDegree with
  | nil => simp
  | cons binding bindings ih =>
      rw [List.foldl_cons, ih, FiniteMap.lookup_insert_eq, List.countP_cons]
      by_cases hTarget : node = binding.targetTaskId
      · subst hTarget
        simp only [List.mem_cons, exists_eq_or_imp, true_or, if_true, Option.getD_some, decide_true]
        split
        · rw [Nat.add_right_comm, Nat.add_assoc]
        · rename_i hRest
          have hZero : bindings.countP (·.targetTaskId = binding.targetTaskId) = 0 := by
            rw [List.countP_eq_zero]
            exact fun next hNext hSame => hRest ⟨next, hNext, of_decide_eq_true hSame⟩
          rw [hZero]
      · rw [if_neg hTarget]
        simp [Ne.symm hTarget]

end GraphLoops

namespace NormalizedDef

open GraphLoops

variable {definition : WorkflowDef} {order : List String}

/-- After the loop over the bindings, the degree of a task is the number of
bindings that end in it, repetitions counted. -/
theorem lookup_inDegrees (h : NormalizedDef definition) (node : String) :
    (inDegrees definition).lookup node =
      if node ∈ definition.taskIds then some (blockedBy definition.edges [] node) else none := by
  have hCount : definition.dataBindings.countP (·.targetTaskId = node) =
      blockedBy definition.edges [] node := by
    rw [blockedBy, WorkflowDef.edges, List.countP_map]
    apply List.countP_congr
    intro binding _
    simp
  rw [inDegrees, lookup_countBindings, lookup_startDegrees, Finmap.lookup_empty,
    ← WorkflowDef.taskIds]
  by_cases hTask : node ∈ definition.taskIds
  · rw [if_pos hTask, if_pos hTask, Option.getD_some, Nat.zero_add, hCount]
    split
    · rfl
    · rename_i hNone
      rw [← hCount, List.countP_eq_zero.mpr]
      exact fun binding hBinding hTarget => hNone ⟨binding, hBinding, of_decide_eq_true hTarget⟩
  · rw [if_neg hTask, if_neg hTask, if_neg]
    rintro ⟨binding, hBinding, rfl⟩
    exact hTask (h.target_mem binding hBinding)

/-- The order in which the hash map is iterated is a permutation of the tasks,
whatever it is. -/
theorem order_perm (h : NormalizedDef definition)
    (hOrder : order.Perm (inDegrees definition).sortedKeys) : order.Perm definition.taskIds := by
  refine hOrder.trans ?_
  rw [List.perm_ext_iff_of_nodup (FiniteMap.sortedKeys_nodup _) h.ids_nodup]
  intro node
  rw [FiniteMap.mem_sortedKeys, ← Finmap.lookup_isSome, h.lookup_inDegrees]
  split <;> simp_all

/-- Whatever the iteration order, the loop ends, no counter goes below zero,
and the answer is whether the bindings have a cycle. -/
theorem hasDataBindingCycle_eq (h : NormalizedDef definition)
    (hOrder : order.Perm (inDegrees definition).sortedKeys) :
    GraphLoops.hasDataBindingCycle (definition.tasks.length + 1) order definition =
      some (RelayFold.hasDataBindingCycle definition) := by
  have hPerm := h.order_perm hOrder
  have hNodup : order.Nodup := hPerm.nodup_iff.mpr h.ids_nodup
  have hLength : order.length = definition.tasks.length := by
    rw [hPerm.length_eq, WorkflowDef.taskIds, List.length_map]
  have hSources : ∀ a b, (a, b) ∈ definition.edges → a ∈ order := fun a b hEdge =>
    hPerm.mem_iff.mpr (h.edge_mem hEdge).1
  have hTargets : ∀ a b, (a, b) ∈ definition.edges → b ∈ order := fun a b hEdge =>
    hPerm.mem_iff.mpr (h.edge_mem hEdge).2
  have hCounts : Counts (inDegrees definition) order (blockedBy definition.edges []) := by
    intro node hNode
    rw [h.lookup_inDegrees, if_pos (hPerm.mem_iff.mp hNode)]
  have hQueue : (order.filter fun node => (inDegrees definition).lookup node = some 0) =
      order.filter fun node => blockedBy definition.edges [] node = 0 := by
    apply List.filter_congr
    intro node hNode
    rw [hCounts node hNode]
    simp
  have hLoop := visitLoop_eq (lookup_cycleAdjacency definition) hTargets
    (definition.tasks.length + 1) (inDegrees definition) _ _ []
    (KahnLoop.start hNodup hQueue) hCounts (by rw [List.length_nil]; omega)
  have hVisited := kahn_length_iff hSources hTargets hNodup (by omega : order.length <
    definition.tasks.length + 1)
  rw [List.length_nil, hQueue] at hLoop
  unfold GraphLoops.hasDataBindingCycle
  dsimp only
  rw [hQueue, hLoop, Option.map_some, Option.some_inj, Bool.eq_iff_iff, h.hasDataBindingCycle_iff,
    decide_eq_true_eq, ne_eq]
  rw [hLength] at hVisited
  rw [hVisited]
  push Not
  rfl

end NormalizedDef

/-- The checks are exact on every normalized definition: each loop ends, no
counter goes below zero, a cycle is reported exactly when the bindings have
one, an ancestor exactly when a path of at least one binding leads from it, and
a walk over any bindings finds exactly what is reachable. -/
theorem graph_checks_exact {definition : WorkflowDef} (h : NormalizedDef definition)
    {order : List String} (hOrder : order.Perm (GraphLoops.inDegrees definition).sortedKeys) :
    (∃ cyclic, GraphLoops.hasDataBindingCycle (definition.tasks.length + 1) order definition =
        some cyclic ∧
      (cyclic = true ↔ ∃ taskId, Relation.TransGen (Edge definition.edges) taskId taskId)) ∧
    (∀ ancestor taskId, ∃ upstream,
      GraphLoops.isUpstreamAncestor (definition.dataBindings.length + 2) definition ancestor
        taskId = some upstream ∧
      (upstream = true ↔ Relation.TransGen (Edge definition.edges) ancestor taskId)) ∧
    ∀ edges start, ∃ seen,
      GraphLoops.walkGraph (edges.length + 2) start (GraphLoops.adjacencyOf edges) = some seen ∧
      ∀ node, node ∈ seen ↔ Reaches edges start node :=
  ⟨⟨_, h.hasDataBindingCycle_eq hOrder, h.hasDataBindingCycle_iff⟩,
    fun ancestor taskId => ⟨_, GraphLoops.isUpstreamAncestor_eq definition ancestor taskId,
      isUpstreamAncestor_iff definition ancestor taskId⟩,
    fun edges start => ⟨_, GraphLoops.walkGraph_eq edges start, mem_walk_iff start⟩⟩

def noopTask (id : String) : TaskDef where
  id := id
  kind := .function (.ref "noop")
  allowAgentFeedback := false
  control := none
  timeoutSecs := none
  inputSchemas := []
  outputSchema := none
  workspace := none
  requiredCredentials := []

/-- A repeated binding, and a binding of a task to itself. -/
def loopedDefinition : WorkflowDef where
  id := "looped"
  exampleInput := none
  description := ""
  tasks := [noopTask "draft", noopTask "review"]
  dataBindings := [⟨"review", "draft"⟩, ⟨"review", "draft"⟩, ⟨"review", "review"⟩]

/-- Here on a definition with a repeated binding and a task that is bound to
itself, its tasks visited in the order review, draft. -/
theorem graph_checks_exact_looped :
    (∃ cyclic, GraphLoops.hasDataBindingCycle 3 ["review", "draft"] loopedDefinition =
        some cyclic ∧
      (cyclic = true ↔ ∃ taskId, Relation.TransGen (Edge loopedDefinition.edges) taskId taskId)) ∧
    (∀ ancestor taskId, ∃ upstream,
      GraphLoops.isUpstreamAncestor 5 loopedDefinition ancestor taskId = some upstream ∧
      (upstream = true ↔ Relation.TransGen (Edge loopedDefinition.edges) ancestor taskId)) ∧
    ∀ edges start, ∃ seen,
      GraphLoops.walkGraph (edges.length + 2) start (GraphLoops.adjacencyOf edges) = some seen ∧
      ∀ node, node ∈ seen ↔ Reaches edges start node := by
  have hNormalized : NormalizedDef loopedDefinition :=
    ⟨by decide, by decide, by decide⟩
  exact graph_checks_exact hNormalized (by decide +kernel)

end RelayFold
