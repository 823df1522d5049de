import Mathlib.Data.List.Nodup
import Mathlib.Data.List.Perm.Subperm
import Mathlib.Data.Fintype.EquivFin
import Mathlib.Logic.Relation
import Mathlib.Order.WellFounded

/-! Directed graphs given by their list of edges: the depth-first walk finds
exactly the reachable nodes, and Kahn's algorithm orders every node it visits
after the sources of its edges. -/
namespace EdgeList

variable {ν : Type} [DecidableEq ν] (edges : List (ν × ν))

/-- The targets of the edges that leave a node, in the order of the list. -/
def successors (node : ν) : List ν := (edges.filter (·.1 = node)).map Prod.snd

/-- The edges with their direction reversed. -/
def reverse : List (ν × ν) := edges.map Prod.swap

def Edge (a b : ν) : Prop := (a, b) ∈ edges

/-- A path of any length leads from one node to the other. -/
def Reaches : ν → ν → Prop := Relation.ReflTransGen (Edge edges)

variable {edges}

@[simp] theorem mem_successors {a b : ν} : b ∈ successors edges a ↔ (a, b) ∈ edges := by
  simp only [successors, List.mem_map, List.mem_filter, decide_eq_true_eq]
  constructor
  · rintro ⟨⟨_, _⟩, ⟨hMem, rfl⟩, rfl⟩
    exact hMem
  · intro hMem
    exact ⟨(a, b), ⟨hMem, rfl⟩, rfl⟩

omit [DecidableEq ν] in
@[simp] theorem mem_reverse {a b : ν} : (a, b) ∈ reverse edges ↔ (b, a) ∈ edges := by
  simp only [reverse, List.mem_map, Prod.exists, Prod.swap_prod_mk, Prod.mk.injEq]
  constructor
  · rintro ⟨_, _, hMem, rfl, rfl⟩
    exact hMem
  · intro hMem
    exact ⟨b, a, hMem, rfl, rfl⟩

omit [DecidableEq ν] in

/-- Reversing the edges turns paths around. -/
theorem reaches_reverse {a b : ν} : Reaches (reverse edges) a b ↔ Reaches edges b a := by
  unfold Reaches
  rw [← Relation.reflTransGen_swap]
  have hEdge : (Function.swap (Edge (reverse edges))) = Edge edges := by
    funext x y
    exact propext mem_reverse
  rw [hEdge]

/-! ### Depth-first walk -/

variable (edges) in
/-- Pop a node; unless it was seen, mark it and push its successors. -/
def walk : Nat → List ν → List ν → List ν
  | 0, _, seen => seen
  | _ + 1, [], seen => seen
  | fuel + 1, current :: stack, seen =>
      if current ∈ seen then walk fuel stack seen
      else walk fuel ((successors edges current).reverse ++ stack) (current :: seen)

variable (edges) in
/-- Edges whose source is still to be expanded. -/
def unexpanded (seen : List ν) : Nat := edges.countP (·.1 ∉ seen)

variable (edges) in

/-- Expanding a node for the first time uses up its outgoing edges. This is the
measure of every walk. -/
theorem unexpanded_cons {node : ν} {seen : List ν} (h : node ∉ seen) :
    unexpanded edges (node :: seen) + (successors edges node).length = unexpanded edges seen := by
  induction edges with
  | nil => rfl
  | cons e rest ih =>
      simp [unexpanded, successors, ← List.countP_eq_length_filter, List.countP_cons] at ih ⊢
      by_cases hNode : e.1 = node
      · simp [hNode, h]
        omega
      · simp [hNode]
        omega

/-- Every node marked is the start or was pushed along an edge of a marked
node. -/
theorem walk_sound {P : ν → Prop} (hStep : ∀ a b, P a → (a, b) ∈ edges → P b) (fuel : Nat)
    (stack seen : List ν) (hStack : ∀ v ∈ stack, P v) (hSeen : ∀ v ∈ seen, P v) :
    ∀ v ∈ walk edges fuel stack seen, P v := by
  induction fuel generalizing stack seen with
  | zero => exact hSeen
  | succ fuel ih =>
      cases stack with
      | nil => exact hSeen
      | cons current stack =>
          rw [walk]
          have hRest := fun v hv => hStack v (List.mem_cons_of_mem current hv)
          have hCurrent := hStack current List.mem_cons_self
          split
          · exact ih stack seen hRest hSeen
          · refine ih _ _ (fun v hv => ?_) (fun v hv => ?_)
            · rcases List.mem_append.mp hv with hNew | hOld
              · exact hStep current v hCurrent (mem_successors.mp (List.mem_reverse.mp hNew))
              · exact hRest v hOld
            · rcases List.mem_cons.mp hv with rfl | hOld
              · exact hCurrent
              · exact hSeen v hOld

variable (edges) in
/-- With enough fuel the marked nodes contain the stack and are closed under
edges. -/
theorem walk_closed (fuel : Nat) (stack seen : List ν)
    (hFuel : stack.length + unexpanded edges seen < fuel)
    (hClosed : ∀ a ∈ seen, ∀ b, (a, b) ∈ edges → b ∈ seen ∨ b ∈ stack) :
    (∀ v, v ∈ seen ∨ v ∈ stack → v ∈ walk edges fuel stack seen) ∧
      ∀ a ∈ walk edges fuel stack seen, ∀ b, (a, b) ∈ edges → b ∈ walk edges fuel stack seen := by
  induction fuel generalizing stack seen with
  | zero => omega
  | succ fuel ih =>
      cases stack with
      | nil =>
          refine ⟨fun v hv => hv.resolve_right List.not_mem_nil, fun a ha b hEdge => ?_⟩
          exact (hClosed a ha b hEdge).resolve_right List.not_mem_nil
      | cons current stack =>
          rw [walk]
          rw [List.length_cons] at hFuel
          split
          · rename_i hMem
            obtain ⟨hContains, hResult⟩ := ih stack seen (by omega) fun a ha b hEdge => by
              rcases hClosed a ha b hEdge with hSeen | hStack
              · exact .inl hSeen
              · rcases List.mem_cons.mp hStack with rfl | hStack
                · exact .inl hMem
                · exact .inr hStack
            refine ⟨fun v hv => hContains v ?_, hResult⟩
            rcases hv with hSeen | hStack
            · exact .inl hSeen
            · rcases List.mem_cons.mp hStack with rfl | hStack
              · exact .inl hMem
              · exact .inr hStack
          · rename_i hMem
            have hCount := unexpanded_cons edges hMem
            obtain ⟨hContains, hResult⟩ := ih ((successors edges current).reverse ++ stack)
              (current :: seen) (by rw [List.length_append, List.length_reverse]; omega)
              fun a ha b hEdge => by
                rcases List.mem_cons.mp ha with rfl | hOld
                · exact .inr (List.mem_append_left _
                    (List.mem_reverse.mpr (mem_successors.mpr hEdge)))
                · rcases hClosed a hOld b hEdge with hSeen | hStack
                  · exact .inl (List.mem_cons_of_mem _ hSeen)
                  · rcases List.mem_cons.mp hStack with rfl | hStack
                    · exact .inl List.mem_cons_self
                    · exact .inr (List.mem_append_right _ hStack)
            refine ⟨fun v hv => hContains v ?_, hResult⟩
            rcases hv with hSeen | hStack
            · exact .inl (List.mem_cons_of_mem _ hSeen)
            · rcases List.mem_cons.mp hStack with rfl | hStack
              · exact .inl List.mem_cons_self
              · exact .inr (List.mem_append_right _ hStack)

/-- A walk with one step for the start and one for each edge finds exactly the
reachable nodes. -/
theorem mem_walk_iff (start v : ν) :
    v ∈ walk edges (edges.length + 2) [start] [] ↔ Reaches edges start v := by
  constructor
  · refine walk_sound (P := Reaches edges start)
      (fun a b hReach hEdge => hReach.tail hEdge) _ _ _ (fun v hv => ?_)
      (fun v hv => absurd hv List.not_mem_nil) v
    rw [List.mem_singleton.mp hv]
    exact Relation.ReflTransGen.refl
  · intro hReach
    have hAll : unexpanded edges [] = edges.length := by simp [unexpanded]
    obtain ⟨hContains, hClosed⟩ := walk_closed edges (edges.length + 2) [start] []
      (by rw [hAll, List.length_singleton]; omega) (fun a ha => absurd ha List.not_mem_nil)
    induction hReach with
    | refl => exact hContains start (.inr List.mem_cons_self)
    | tail _ hEdge ih => exact hClosed _ ih _ hEdge

/-! ### Search for a node along at least one edge -/

variable (edges) in
/-- As `walk`, but stop as soon as the target is among the successors of a
node. -/
def search (target : ν) : Nat → List ν → List ν → Bool
  | 0, _, _ => false
  | _ + 1, [], _ => false
  | fuel + 1, current :: stack, seen =>
      if current ∈ seen then search target fuel stack seen
      else if target ∈ successors edges current then true
      else search target fuel ((successors edges current).reverse ++ stack) (current :: seen)

/-- A search that finds its target has followed at least one edge to it. -/
theorem search_sound {start target : ν} (fuel : Nat) (stack seen : List ν)
    (hStack : ∀ v ∈ stack, Reaches edges start v) (h : search edges target fuel stack seen = true) :
    Relation.TransGen (Edge edges) start target := by
  induction fuel generalizing stack seen with
  | zero => cases h
  | succ fuel ih =>
      cases stack with
      | nil => cases h
      | cons current stack =>
          rw [search] at h
          have hRest := fun v hv => hStack v (List.mem_cons_of_mem current hv)
          have hCurrent := hStack current List.mem_cons_self
          split at h
          · exact ih stack seen hRest h
          · split at h
            · rename_i hTarget
              exact .tail' hCurrent (mem_successors.mp hTarget)
            · refine ih _ _ (fun v hv => ?_) h
              rcases List.mem_append.mp hv with hNew | hOld
              · exact hCurrent.tail (mem_successors.mp (List.mem_reverse.mp hNew))
              · exact hRest v hOld

variable (edges) in
/-- A search that fails has seen a set that is closed under edges and misses
the target. -/
theorem search_closed {target : ν} (fuel : Nat) (stack seen : List ν)
    (hFuel : stack.length + unexpanded edges seen < fuel)
    (hClosed : ∀ a ∈ seen, ∀ b, (a, b) ∈ edges → b ≠ target ∧ (b ∈ seen ∨ b ∈ stack))
    (h : search edges target fuel stack seen = false) :
    ∃ found : List ν, (∀ v, v ∈ seen ∨ v ∈ stack → v ∈ found) ∧
      ∀ a ∈ found, ∀ b, (a, b) ∈ edges → b ≠ target ∧ b ∈ found := by
  induction fuel generalizing stack seen with
  | zero => omega
  | succ fuel ih =>
      cases stack with
      | nil =>
          refine ⟨seen, fun v hv => hv.resolve_right List.not_mem_nil, fun a ha b hEdge => ?_⟩
          obtain ⟨hTarget, hSeen⟩ := hClosed a ha b hEdge
          exact ⟨hTarget, hSeen.resolve_right List.not_mem_nil⟩
      | cons current stack =>
          rw [search] at h
          rw [List.length_cons] at hFuel
          split at h
          · rename_i hMem
            have hDrop (v : ν) (hv : v ∈ seen ∨ v ∈ current :: stack) : v ∈ seen ∨ v ∈ stack := by
              rcases hv with hSeen | hStack
              · exact .inl hSeen
              · rcases List.mem_cons.mp hStack with rfl | hStack
                · exact .inl hMem
                · exact .inr hStack
            obtain ⟨found, hContains, hFound⟩ := ih stack seen (by omega)
              (fun a ha b hEdge => (hClosed a ha b hEdge).imp_right (hDrop b)) h
            exact ⟨found, fun v hv => hContains v (hDrop v hv), hFound⟩
          · rename_i hMem
            split at h
            · cases h
            · rename_i hTarget
              have hCount := unexpanded_cons edges hMem
              have hMove (v : ν) (hv : v ∈ seen ∨ v ∈ current :: stack) :
                  v ∈ current :: seen ∨ v ∈ (successors edges current).reverse ++ stack := by
                rcases hv with hSeen | hStack
                · exact .inl (List.mem_cons_of_mem _ hSeen)
                · rcases List.mem_cons.mp hStack with rfl | hStack
                  · exact .inl List.mem_cons_self
                  · exact .inr (List.mem_append_right _ hStack)
              obtain ⟨found, hContains, hFound⟩ := ih ((successors edges current).reverse ++ stack)
                (current :: seen) (by rw [List.length_append, List.length_reverse]; omega)
                (fun a ha b hEdge => by
                  rcases List.mem_cons.mp ha with rfl | hOld
                  · have hNext : b ∈ successors edges a := mem_successors.mpr hEdge
                    refine ⟨fun hSame => hTarget (hSame ▸ hNext), .inr ?_⟩
                    exact List.mem_append_left _ (List.mem_reverse.mpr hNext)
                  · exact (hClosed a hOld b hEdge).imp_right (hMove b)) h
              exact ⟨found, fun v hv => hContains v (hMove v hv), hFound⟩

/-- The search finds the target exactly when a path of at least one edge leads
to it. -/
theorem search_iff (start target : ν) :
    search edges target (edges.length + 2) [start] [] = true ↔
      Relation.TransGen (Edge edges) start target := by
  constructor
  · refine search_sound _ _ _ fun v hv => ?_
    rw [List.mem_singleton.mp hv]
    exact Relation.ReflTransGen.refl
  · intro hPath
    by_contra hMissed
    have hAll : unexpanded edges [] = edges.length := by simp [unexpanded]
    obtain ⟨found, hContains, hFound⟩ := search_closed edges (edges.length + 2) [start] []
      (by rw [hAll, List.length_singleton]; omega) (fun a ha => absurd ha List.not_mem_nil)
      (Bool.not_eq_true _ ▸ hMissed)
    have hReached (v : ν) (hReach : Reaches edges start v) : v ∈ found := by
      induction hReach with
      | refl => exact hContains start (.inr List.mem_cons_self)
      | tail _ hStep ih => exact (hFound _ ih _ hStep).2
    obtain ⟨last, hReach, hEdge⟩ := Relation.TransGen.tail'_iff.mp hPath
    exact (hFound last (hReached last hReach) target hEdge).1 rfl

/-! ### Kahn's algorithm -/

/-- Count down the in-degree of one neighbour and queue it at zero. -/
def relax (state : (ν → Nat) × List ν) (neighbor : ν) : (ν → Nat) × List ν :=
  let degree := state.1 neighbor - 1
  (fun v => if v = neighbor then degree else state.1 v,
    if degree = 0 then state.2 ++ [neighbor] else state.2)

variable (edges) in
/-- The nodes in the order in which they are taken from the queue. -/
def kahn : Nat → (ν → Nat) → List ν → List ν → List ν
  | 0, _, _, visited => visited
  | _ + 1, _, [], visited => visited
  | fuel + 1, inDegree, node :: queue, visited =>
      let (inDegree, queue) := (successors edges node).foldl relax (inDegree, queue)
      kahn fuel inDegree queue (visited ++ [node])

variable (edges) in
/-- How many edges into the node come from nodes not visited yet. -/
def blockedBy (visited : List ν) (node : ν) : Nat :=
  edges.countP fun e => e.2 = node ∧ e.1 ∉ visited

variable (edges) in
/-- Every visited node comes after the sources of its edges. -/
def Ordered (visited : List ν) : Prop :=
  ∀ before node after, visited = before ++ node :: after →
    ∀ source, (source, node) ∈ edges → source ∈ before

variable (edges) in
structure KahnInv (inDegree : ν → Nat) (queue visited : List ν) : Prop where
  degree : ∀ node, inDegree node = blockedBy edges visited node
  free : ∀ node ∈ visited ++ queue, inDegree node = 0
  nodup : (visited ++ queue).Nodup
  ordered : Ordered edges visited

/-- Relaxing the neighbors of a node subtracts what each of them is waiting
for, and queues those that wait for nothing more. -/
theorem relax_foldl (neighbors : List ν) (inDegree : ν → Nat) (queue : List ν)
    (hCount : ∀ v, neighbors.count v ≤ inDegree v) :
    ∃ added, (neighbors.foldl relax (inDegree, queue)) =
        (fun v => inDegree v - neighbors.count v, queue ++ added) ∧
      added.Nodup ∧ ∀ v ∈ added, v ∈ neighbors ∧ 0 < inDegree v ∧
        inDegree v - neighbors.count v = 0 := by
  induction neighbors generalizing inDegree queue with
  | nil => exact ⟨[], by simp, List.nodup_nil, by simp⟩
  | cons n rest ih =>
      have hPos : 0 < inDegree n := by
        have hN := hCount n
        rw [List.count_cons_self] at hN
        omega
      let next : ν → Nat := fun v => if v = n then inDegree n - 1 else inDegree v
      have hNext (v : ν) : next v - rest.count v = inDegree v - (n :: rest).count v := by
        by_cases hv : v = n
        · subst hv
          simp only [next, if_true, List.count_cons_self]
          omega
        · simp only [next, hv, if_false, List.count_cons_of_ne (Ne.symm hv)]
      have hLe (v : ν) : rest.count v ≤ next v := by
        have hV := hCount v
        by_cases hv : v = n
        · subst hv
          rw [List.count_cons_self] at hV
          simp only [next, if_true]
          omega
        · rw [List.count_cons_of_ne (Ne.symm hv)] at hV
          simpa only [next, hv, if_false] using hV
      obtain ⟨added, hFold, hNodup, hAdded⟩ := ih next
        (if inDegree n - 1 = 0 then queue ++ [n] else queue) hLe
      have hFirst : (n :: rest).foldl relax (inDegree, queue) =
          rest.foldl relax (next, if inDegree n - 1 = 0 then queue ++ [n] else queue) := rfl
      have hPosOf {v : ν} (hv : 0 < next v) : 0 < inDegree v := by
        by_cases hEq : v = n
        · rwa [hEq]
        · simpa only [next, hEq, if_false] using hv
      rw [hFirst, hFold]
      have hDegrees : (fun v => next v - rest.count v) =
          fun v => inDegree v - (n :: rest).count v := funext hNext
      rw [hDegrees]
      by_cases hZero : inDegree n - 1 = 0
      · rw [if_pos hZero]
        refine ⟨n :: added, by simp, List.nodup_cons.mpr ⟨fun hn => ?_, hNodup⟩, fun v hv => ?_⟩
        · have hPositive := (hAdded n hn).2.1
          simp only [next, if_true] at hPositive
          omega
        · rcases List.mem_cons.mp hv with rfl | hv
          · refine ⟨List.mem_cons_self, hPos, ?_⟩
            rw [List.count_cons_self]
            omega
          · obtain ⟨hMem, hPositive, hNone⟩ := hAdded v hv
            exact ⟨List.mem_cons_of_mem _ hMem, hPosOf hPositive, by rw [← hNext]; exact hNone⟩
      · rw [if_neg hZero]
        refine ⟨added, rfl, hNodup, fun v hv => ?_⟩
        obtain ⟨hMem, hPositive, hNone⟩ := hAdded v hv
        exact ⟨List.mem_cons_of_mem _ hMem, hPosOf hPositive, by rw [← hNext]; exact hNone⟩

variable (edges) in

/-- Visiting a node frees its successors of one unvisited source for each
edge. -/
theorem blockedBy_snoc {visited : List ν} {node : ν} (h : node ∉ visited) (v : ν) :
    blockedBy edges (visited ++ [node]) v + (successors edges node).count v =
      blockedBy edges visited v := by
  induction edges with
  | nil => rfl
  | cons e rest ih =>
      obtain ⟨a, b⟩ := e
      simp only [blockedBy, successors, List.countP_cons, List.mem_append, List.mem_singleton,
        List.filter_cons] at ih ⊢
      by_cases hA : a = node
      · subst hA
        by_cases hB : b = v
        · subst hB
          simp [h] at ih ⊢
          omega
        · simp [h, hB] at ih ⊢
          omega
      · by_cases hB : b = v <;> by_cases hMem : a ∈ visited <;> simp [hA, hB, hMem] at ih ⊢ <;> omega

/-- Nothing blocks a node all of whose sources have been visited. -/
theorem blockedBy_eq_zero {visited : List ν} {node : ν} (h : blockedBy edges visited node = 0) :
    ∀ source, (source, node) ∈ edges → source ∈ visited := by
  intro source hEdge
  rw [blockedBy, List.countP_eq_zero] at h
  by_contra hMem
  exact h (source, node) hEdge (by simp [hMem])

omit [DecidableEq ν] in

/-- A node may come next in a topological order if its sources stand before
it. -/
theorem Ordered.snoc {visited : List ν} {node : ν} (h : Ordered edges visited)
    (hNode : ∀ source, (source, node) ∈ edges → source ∈ visited) :
    Ordered edges (visited ++ [node]) := by
  intro before next after hSplit source hEdge
  rcases List.eq_nil_or_concat after with rfl | ⟨after', last, rfl⟩
  · obtain ⟨rfl, hLast⟩ := List.append_inj' hSplit rfl
    cases hLast
    exact hNode source hEdge
  · rw [List.concat_eq_append, ← List.cons_append, ← List.append_assoc] at hSplit
    exact h before next after' (List.append_inj' hSplit rfl).1 source hEdge

variable (edges) in

/-- The result of Kahn's loop lists no node twice and puts every source before
its targets. -/
theorem kahn_spec (fuel : Nat) (inDegree : ν → Nat) (queue visited : List ν)
    (h : KahnInv edges inDegree queue visited) :
    (kahn edges fuel inDegree queue visited).Nodup ∧
      Ordered edges (kahn edges fuel inDegree queue visited) := by
  induction fuel generalizing inDegree queue visited with
  | zero => exact ⟨h.nodup.of_append_left, h.ordered⟩
  | succ fuel ih =>
      cases queue with
      | nil => exact ⟨h.nodup.of_append_left, h.ordered⟩
      | cons node queue =>
          have hFree : node ∉ visited := by
            have hDisjoint := List.disjoint_of_nodup_append h.nodup
            exact fun hMem => hDisjoint hMem List.mem_cons_self
          have hZero : blockedBy edges visited node = 0 := by
            rw [← h.degree]
            exact h.free node (List.mem_append_right _ List.mem_cons_self)
          have hSnoc := fun v => blockedBy_snoc edges hFree v
          obtain ⟨added, hFold, hNodup, hAdded⟩ := relax_foldl (successors edges node) inDegree queue
            fun v => by rw [h.degree, ← hSnoc]; omega
          rw [kahn, hFold]
          have hOld : (visited ++ [node] ++ queue).Nodup := by simpa using h.nodup
          have hFreeOld (v : ν) (hv : v ∈ visited ++ [node] ++ queue) : inDegree v = 0 :=
            h.free v (by simpa using hv)
          refine ih _ _ _ ⟨fun v => ?_, fun v hv => ?_, ?_, h.ordered.snoc (blockedBy_eq_zero hZero)⟩
          · rw [h.degree, ← hSnoc, Nat.add_sub_cancel]
          · rw [← List.append_assoc] at hv
            rcases List.mem_append.mp hv with hOld | hNew
            · rw [hFreeOld v hOld, Nat.zero_sub]
            · exact (hAdded v hNew).2.2
          · rw [← List.append_assoc]
            refine hOld.append hNodup fun v hv hNew => ?_
            have hPositive := (hAdded v hNew).2.1
            rw [hFreeOld v hv] at hPositive
            exact absurd hPositive (Nat.lt_irrefl 0)

/-- The loop only visits the nodes that it starts from and targets of edges. -/
theorem mem_kahn {P : ν → Prop} (hTarget : ∀ a b, (a, b) ∈ edges → P b) (fuel : Nat)
    (inDegree : ν → Nat) (queue visited : List ν) (hQueue : ∀ v ∈ queue, P v)
    (hVisited : ∀ v ∈ visited, P v) : ∀ v ∈ kahn edges fuel inDegree queue visited, P v := by
  induction fuel generalizing inDegree queue visited with
  | zero => exact hVisited
  | succ fuel ih =>
      cases queue with
      | nil => exact hVisited
      | cons node queue =>
          have hRelax (neighbors : List ν) (state : (ν → Nat) × List ν)
              (hNeighbors : ∀ v ∈ neighbors, P v) (hState : ∀ v ∈ state.2, P v) :
              ∀ v ∈ (neighbors.foldl relax state).2, P v := by
            induction neighbors generalizing state with
            | nil => exact hState
            | cons n rest ihRest =>
                refine ihRest _ (fun v hv => hNeighbors v (List.mem_cons_of_mem _ hv)) ?_
                simp only [relax]
                split
                · intro v hv
                  rcases List.mem_append.mp hv with hOld | hNew
                  · exact hState v hOld
                  · rw [List.mem_singleton.mp hNew]
                    exact hNeighbors n List.mem_cons_self
                · exact hState
          rw [kahn]
          refine ih _ _ _ (hRelax _ _ (fun v hv => hTarget node v (mem_successors.mp hv))
            fun v hv => hQueue v (List.mem_cons_of_mem _ hv)) fun v hv => ?_
          rcases List.mem_append.mp hv with hOld | hNew
          · exact hVisited v hOld
          · rw [List.mem_singleton.mp hNew]
            exact hQueue node List.mem_cons_self

/-- Counting down keeps what is queued and queues every node that reaches
zero. -/
theorem mem_relax_foldl (neighbors : List ν) (inDegree : ν → Nat) (queue : List ν) {v : ν}
    (h : v ∈ queue ∨ v ∈ neighbors ∧ inDegree v = neighbors.count v) :
    v ∈ (neighbors.foldl relax (inDegree, queue)).2 := by
  induction neighbors generalizing inDegree queue with
  | nil => exact h.resolve_right fun hNone => absurd hNone.1 List.not_mem_nil
  | cons n rest ih =>
      apply ih
      by_cases hQueued : v ∈ queue
      · left
        dsimp only
        split
        · exact List.mem_append_left _ hQueued
        · exact hQueued
      · obtain ⟨hMem, hCount⟩ := h.resolve_left hQueued
        by_cases hEq : v = n
        · subst hEq
          rw [List.count_cons_self] at hCount
          by_cases hRest : v ∈ rest
          · refine .inr ⟨hRest, ?_⟩
            dsimp only
            rw [if_pos rfl]
            omega
          · rw [List.count_eq_zero.mpr hRest] at hCount
            left
            dsimp only
            rw [if_pos (by omega)]
            exact List.mem_append_right _ List.mem_cons_self
        · rw [List.count_cons_of_ne (Ne.symm hEq)] at hCount
          refine .inr ⟨(List.mem_cons.mp hMem).resolve_left hEq, ?_⟩
          dsimp only
          rwa [if_neg hEq]

/-- Kahn's invariant with the nodes the loop runs over: the queue holds every
node all of whose sources were visited. -/
structure KahnLoop (edges : List (ν × ν)) (nodes : List ν) (inDegree : ν → Nat)
    (queue visited : List ν) : Prop extends KahnInv edges inDegree queue visited where
  subset : visited ++ queue ⊆ nodes
  queued : ∀ v ∈ nodes, inDegree v = 0 → v ∈ visited ++ queue

/-- At the start the queue holds the nodes that nothing blocks. -/
theorem KahnLoop.start {nodes queue : List ν} (hNodes : nodes.Nodup)
    (hQueue : queue = nodes.filter fun v => blockedBy edges [] v = 0) :
    KahnLoop edges nodes (blockedBy edges []) queue [] where
  degree _ := rfl
  free v hv := by
    rw [List.nil_append, hQueue] at hv
    simpa using (List.mem_filter.mp hv).2
  nodup := by
    rw [List.nil_append, hQueue]
    exact hNodes.filter _
  ordered before node after hSplit := by simp at hSplit
  subset v hv := by
    rw [List.nil_append, hQueue] at hv
    exact (List.mem_filter.mp hv).1
  queued v hv hZero := by
    rw [List.nil_append, hQueue]
    exact List.mem_filter.mpr ⟨hv, by simpa using hZero⟩

section

variable {nodes visited queue : List ν} {inDegree : ν → Nat} {node : ν}

theorem KahnLoop.not_visited (h : KahnLoop edges nodes inDegree (node :: queue) visited) :
    node ∉ visited :=
  fun hMem => List.disjoint_of_nodup_append h.nodup hMem List.mem_cons_self

theorem KahnLoop.count_le (h : KahnLoop edges nodes inDegree (node :: queue) visited) (v : ν) :
    (successors edges node).count v ≤ inDegree v := by
  have hSnoc := blockedBy_snoc edges h.not_visited v
  rw [h.degree]
  omega

/-- One turn of the loop: the first queued node is visited. -/
theorem KahnLoop.visit (h : KahnLoop edges nodes inDegree (node :: queue) visited)
    (hTargets : ∀ a b, (a, b) ∈ edges → b ∈ nodes) :
    KahnLoop edges nodes ((successors edges node).foldl relax (inDegree, queue)).1
      ((successors edges node).foldl relax (inDegree, queue)).2 (visited ++ [node]) := by
  have hSnoc := fun v => blockedBy_snoc edges h.not_visited v
  have hZero : blockedBy edges visited node = 0 := by
    rw [← h.degree]
    exact h.free node (List.mem_append_right _ List.mem_cons_self)
  have hMono (v : ν) := mem_relax_foldl (successors edges node) inDegree queue (v := v)
  obtain ⟨added, hFold, hNodup, hAdded⟩ := relax_foldl (successors edges node) inDegree queue
    h.count_le
  rw [hFold] at hMono ⊢
  have hOld : (visited ++ [node] ++ queue).Nodup := by simpa using h.nodup
  have hSame (v : ν) : v ∈ visited ++ [node] ++ queue ↔ v ∈ visited ++ node :: queue := by simp
  constructor
  · constructor
    · intro v
      dsimp only
      rw [h.degree, ← hSnoc, Nat.add_sub_cancel]
    · intro v hv
      dsimp only at hv ⊢
      rw [← List.append_assoc] at hv
      rcases List.mem_append.mp hv with hv | hNew
      · rw [h.free v ((hSame v).mp hv), Nat.zero_sub]
      · exact (hAdded v hNew).2.2
    · rw [← List.append_assoc]
      refine hOld.append hNodup fun v hv hNew => ?_
      have hPositive := (hAdded v hNew).2.1
      rw [h.free v ((hSame v).mp hv)] at hPositive
      exact absurd hPositive (Nat.lt_irrefl 0)
    · exact h.ordered.snoc (blockedBy_eq_zero hZero)
  · intro v hv
    rw [← List.append_assoc] at hv
    rcases List.mem_append.mp hv with hv | hNew
    · exact h.subset ((hSame v).mp hv)
    · exact hTargets node v (mem_successors.mp (hAdded v hNew).1)
  · intro v hv hDone
    have hCount := h.count_le v
    by_cases hBefore : inDegree v = 0
    · rcases List.mem_append.mp (h.queued v hv hBefore) with hVisited | hQueued
      · exact List.mem_append_left _ (List.mem_append_left _ hVisited)
      · rcases List.mem_cons.mp hQueued with rfl | hQueued
        · exact List.mem_append_left _ (List.mem_append_right _ List.mem_cons_self)
        · exact List.mem_append_right _ (hMono v (.inl hQueued))
    · dsimp only at hDone
      have hPositive : 0 < (successors edges node).count v := by omega
      refine List.mem_append_right _ (hMono v (.inr ⟨List.count_pos_iff.mp hPositive, ?_⟩))
      omega

/-- Queue and visited nodes together never exceed the nodes, which bounds the
rounds. -/
theorem KahnLoop.length_le (h : KahnLoop edges nodes inDegree queue visited) :
    visited.length + queue.length ≤ nodes.length := by
  rw [← List.length_append]
  exact (List.subperm_of_subset h.nodup h.subset).length_le

/-- With a turn for every node the loop ends with its queue empty. -/
theorem KahnLoop.finishes (fuel : Nat) (inDegree : ν → Nat) (queue visited : List ν)
    (h : KahnLoop edges nodes inDegree queue visited)
    (hTargets : ∀ a b, (a, b) ∈ edges → b ∈ nodes)
    (hFuel : nodes.length < fuel + visited.length) :
    ∃ last, KahnLoop edges nodes last [] (kahn edges fuel inDegree queue visited) := by
  induction fuel generalizing inDegree queue visited with
  | zero =>
      have hLength := h.length_le
      omega
  | succ fuel ih =>
      cases queue with
      | nil => exact ⟨inDegree, h⟩
      | cons node queue =>
          refine ih _ _ _ (h.visit hTargets) ?_
          rw [List.length_append, List.length_singleton]
          omega

/-- Without a cycle nothing is left when the queue is empty. -/
theorem KahnLoop.visits_all (h : KahnLoop edges nodes inDegree [] visited)
    (hSources : ∀ a b, (a, b) ∈ edges → a ∈ nodes)
    (hAcyclic : ∀ v, ¬Relation.TransGen (Edge edges) v v) : nodes ⊆ visited := by
  by_contra hSubset
  obtain ⟨first, hFirst, hMissing⟩ : ∃ v ∈ nodes, v ∉ visited := by
    simpa [List.subset_def] using hSubset
  -- A node left over that no other one leads to has had all its sources visited.
  let Before (a b : {v // v ∈ nodes}) : Prop := Relation.TransGen (Edge edges) a.1 b.1
  have : IsTrans {v // v ∈ nodes} Before := ⟨fun _ _ _ => Relation.TransGen.trans⟩
  have : Std.Irrefl Before := ⟨fun v => hAcyclic v.1⟩
  have hWell : WellFounded Before := Finite.wellFounded_of_trans_of_irrefl Before
  obtain ⟨least, hLeast, hMin⟩ := hWell.has_min {v | v.1 ∉ visited} ⟨⟨first, hFirst⟩, hMissing⟩
  have hFree : blockedBy edges visited least.1 = 0 := by
    rw [blockedBy, List.countP_eq_zero]
    intro e hEdge hBlocks
    obtain ⟨hTarget, hSource⟩ := of_decide_eq_true hBlocks
    refine hMin ⟨e.1, hSources e.1 e.2 hEdge⟩ hSource (.single ?_)
    rw [← hTarget]
    exact hEdge
  have hMem := h.queued least.1 least.2 ((h.degree _).trans hFree)
  rw [List.append_nil] at hMem
  exact hLeast hMem

end

/-- Nodes that are ordered after the sources of their edges are ranked by
position. -/
theorem Ordered.idxOf_lt {visited : List ν} (h : Ordered edges visited) {a b : ν}
    (hEdge : (a, b) ∈ edges) (hMem : b ∈ visited) : visited.idxOf a < visited.idxOf b := by
  obtain ⟨before, after, rfl, hNot⟩ := List.eq_append_cons_of_mem hMem
  have hSource := h before b after rfl a hEdge
  rw [List.idxOf_append_of_mem hSource, List.idxOf_append_of_notMem hNot, List.idxOf_cons_self]
  exact List.idxOf_lt_length_of_mem hSource

/-- When Kahn's algorithm visits every node, the graph is ranked: it has no
cycle. -/
theorem rank_of_kahn {nodes : List ν} (fuel : Nat) (hTargets : ∀ a b, (a, b) ∈ edges → b ∈ nodes)
    (hNodes : nodes.Nodup)
    (hAll : (kahn edges fuel (blockedBy edges [])
      (nodes.filter fun v => blockedBy edges [] v = 0) []).length = nodes.length) :
    ∃ rank : ν → Nat, ∀ a b, (a, b) ∈ edges → rank a < rank b := by
  let queue := nodes.filter fun v => blockedBy edges [] v = 0
  let visited := kahn edges fuel (blockedBy edges []) queue []
  obtain ⟨hNodup, hOrdered⟩ := kahn_spec edges fuel (blockedBy edges []) queue []
    { degree := fun _ => rfl
      free := fun v hv => by simpa using (List.mem_filter.mp hv).2
      nodup := hNodes.filter _
      ordered := fun before node after hSplit => by simp at hSplit }
  have hSubset : visited ⊆ nodes := mem_kahn (P := (· ∈ nodes)) hTargets _ _ _ _
    (fun v hv => (List.mem_filter.mp hv).1) (fun v hv => absurd hv List.not_mem_nil)
  have hPerm : visited.Perm nodes :=
    (List.subperm_of_subset hNodup hSubset).perm_of_length_le (Nat.le_of_eq hAll.symm)
  exact ⟨visited.idxOf, fun a b hEdge =>
    Ordered.idxOf_lt hOrdered hEdge (hPerm.mem_iff.mpr (hTargets a b hEdge))⟩

omit [DecidableEq ν] in
theorem acyclic_of_rank {rank : ν → Nat} (hRank : ∀ a b, (a, b) ∈ edges → rank a < rank b)
    {a b : ν} (hPath : Relation.TransGen (Edge edges) a b) : rank a < rank b := by
  induction hPath with
  | single hEdge => exact hRank _ _ hEdge
  | tail _ hEdge ih => exact ih.trans (hRank _ _ hEdge)

/-- Kahn's algorithm visits every node exactly when the graph has no cycle. -/
theorem kahn_length_iff {nodes : List ν} {fuel : Nat}
    (hSources : ∀ a b, (a, b) ∈ edges → a ∈ nodes)
    (hTargets : ∀ a b, (a, b) ∈ edges → b ∈ nodes) (hNodes : nodes.Nodup)
    (hFuel : nodes.length < fuel) :
    (kahn edges fuel (blockedBy edges []) (nodes.filter fun v => blockedBy edges [] v = 0)
      []).length = nodes.length ↔ ∀ v, ¬Relation.TransGen (Edge edges) v v := by
  constructor
  · intro hAll v hCycle
    obtain ⟨rank, hRank⟩ := rank_of_kahn fuel hTargets hNodes hAll
    exact absurd (acyclic_of_rank hRank hCycle) (Nat.lt_irrefl _)
  · intro hAcyclic
    obtain ⟨last, h⟩ := (KahnLoop.start hNodes rfl).finishes fuel _ _ _ hTargets (by simpa using hFuel)
    have hNodup := h.nodup
    rw [List.append_nil] at hNodup
    refine Nat.le_antisymm ?_ ?_
    · simpa using h.length_le
    · exact (List.subperm_of_subset hNodes (h.visits_all hSources hAcyclic)).length_le

omit [DecidableEq ν] in
/-- Nothing at or behind a cycle is accessible. -/
theorem not_acc_of_cycle {a b : ν} (hCycle : Relation.TransGen (Edge edges) a a)
    (hReach : Reaches edges a b) : ¬Acc (Edge edges) b := by
  have hNone (v : ν) (h : Acc (Relation.TransGen (Edge edges)) v) :
      ¬Relation.TransGen (Edge edges) v v := by
    induction h with
    | intro v _ ih => exact fun hLoop => ih v hLoop hLoop
  intro hAcc
  refine hNone b hAcc.transGen ?_
  rcases Relation.reflTransGen_iff_eq_or_transGen.mp hReach with rfl | hPath
  · exact hCycle
  · exact absurd hCycle (hNone a (hAcc.inv_of_transGen hPath).transGen)

/-- The graphs without a cycle are the ranked ones. -/
theorem acyclic_iff_ranked : (∀ v, ¬Relation.TransGen (Edge edges) v v) ↔
    ∃ rank : ν → Nat, ∀ a b, (a, b) ∈ edges → rank a < rank b := by
  constructor
  · intro hAcyclic
    let nodes := (edges.map Prod.fst ++ edges.map Prod.snd).dedup
    have hSources : ∀ a b, (a, b) ∈ edges → a ∈ nodes := fun a b hEdge =>
      List.mem_dedup.mpr (List.mem_append_left _ (List.mem_map_of_mem hEdge))
    have hTargets : ∀ a b, (a, b) ∈ edges → b ∈ nodes := fun a b hEdge =>
      List.mem_dedup.mpr (List.mem_append_right _ (List.mem_map_of_mem hEdge))
    exact rank_of_kahn (nodes.length + 1) hTargets (List.nodup_dedup _)
      ((kahn_length_iff hSources hTargets (List.nodup_dedup _) (Nat.lt_succ_self _)).mpr hAcyclic)
  · rintro ⟨rank, hRank⟩ v hCycle
    exact absurd (acyclic_of_rank hRank hCycle) (Nat.lt_irrefl _)

end EdgeList
