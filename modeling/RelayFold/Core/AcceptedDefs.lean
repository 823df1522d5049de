import RelayFold.Library.Folds
import RelayFold.Core.Validation

/-! What validation guarantees about the definitions it accepts. -/
namespace RelayFold

open EdgeList FallibleFold

/-- The structure of a stored definition that the engine relies on. -/
structure WellFormedDef (definition : WorkflowDef) : Prop where
  ids_nodup : definition.taskIds.Nodup
  source_mem : ∀ binding ∈ definition.dataBindings, binding.sourceTaskId ∈ definition.taskIds
  target_mem : ∀ binding ∈ definition.dataBindings, binding.targetTaskId ∈ definition.taskIds
  ranked : ∃ rank : String → Nat, ∀ a b, (a, b) ∈ definition.edges → rank a < rank b
  maxIterations_pos : ∀ task ∈ definition.tasks, ∀ verifier, taskVerifier task = some verifier →
    0 < verifier.maxIterations.toNat
  verifier_schema : ∀ task ∈ definition.tasks, ∀ verifier, taskVerifier task = some verifier →
    task.outputSchema = some verifierDecisionSchema
  start_mem : ∀ task ∈ definition.tasks, ∀ verifier, taskVerifier task = some verifier →
    verifierRerunStartTaskId verifier task.id ∈ definition.taskIds
  start_reaches : ∀ task ∈ definition.tasks, ∀ verifier, taskVerifier task = some verifier →
    Reaches definition.edges (verifierRerunStartTaskId verifier task.id) task.id
  slices_disjoint : ∀ a ∈ computeLoopSlices definition, ∀ b ∈ computeLoopSlices definition,
    ∀ taskId, taskId ∈ a.2 → taskId ∈ b.2 → a = b
  schema_ok : ∀ task ∈ definition.tasks, ∃ schema, task.effectiveOutputSchema = .ok schema

/-- Accepted tasks carry their ids in lower case, each of them once, and none
that was taken before the loop began. -/
theorem normalizeTasks_ok {taken : List String} {tasks tasks' : List TaskDef}
    (h : normalizeTasks taken tasks = .ok tasks') :
    tasks'.map (·.id) = tasks.map (fun task => toAsciiLowercase task.id) ∧
      (tasks'.map (·.id)).Nodup ∧ ∀ taskId ∈ tasks'.map (·.id), taskId ∉ taken := by
  induction tasks generalizing taken tasks' with
  | nil =>
      cases h
      exact ⟨rfl, List.nodup_nil, fun _ h => absurd h List.not_mem_nil⟩
  | cons task tasks ih =>
      obtain ⟨_, _, h⟩ := bind_ok.mp h
      dsimp only at h
      split at h
      · cases h
      · rename_i hFree
        obtain ⟨workspace, _, h⟩ := bind_ok.mp h
        obtain ⟨rest, hRest, h⟩ := bind_ok.mp h
        cases h
        obtain ⟨hIds, hNodup, hTaken⟩ := ih hRest
        refine ⟨by rw [List.map_cons, List.map_cons, hIds], ?_, fun taskId hMem => ?_⟩
        · rw [List.map_cons, List.nodup_cons]
          exact ⟨fun hMem => hTaken _ hMem List.mem_cons_self, hNodup⟩
        · rcases List.mem_cons.mp hMem with rfl | hMem
          · exact hFree
          · exact fun hOld => hTaken taskId hMem (List.mem_cons_of_mem _ hOld)

/-- A reference that normalizes names a task of the definition: an unknown id
is refused, whatever its letter case. -/
theorem normalizeTaskReference_ok {originalToNormalized : List (String × String)}
    {id field normalized : String}
    (h : normalizeTaskReference originalToNormalized id field = .ok normalized) :
    normalized ∈ originalToNormalized.map Prod.snd := by
  obtain ⟨_, _, h⟩ := bind_ok.mp h
  cases hLookup : originalToNormalized.lookup id with
  | none =>
      rw [hLookup] at h
      cases h
  | some found =>
      rw [hLookup] at h
      cases h
      rw [List.lookup_eq_some_iff] at hLookup
      obtain ⟨before, after, rfl, _⟩ := hLookup
      simp

/-- Both ends of an accepted binding are tasks of the definition, so no edge of
the graph leaves it. -/
theorem normalizeBinding_ok {originalToNormalized : List (String × String)}
    {binding normalized : DataBinding}
    (h : normalizeBinding originalToNormalized binding = .ok normalized) :
    normalized.sourceTaskId ∈ originalToNormalized.map Prod.snd ∧
      normalized.targetTaskId ∈ originalToNormalized.map Prod.snd := by
  obtain ⟨source, hSource, h⟩ := bind_ok.mp h
  obtain ⟨target, hTarget, h⟩ := bind_ok.mp h
  cases h
  exact ⟨normalizeTaskReference_ok hSource, normalizeTaskReference_ok hTarget⟩

/-- A task that passed the verifier checks. -/
structure VerifierChecked (ids : List String) (task task' : TaskDef) : Prop where
  id : task'.id = task.id
  schema : ∃ schema, task'.effectiveOutputSchema = .ok schema
  maxIterations : ∀ verifier, taskVerifier task' = some verifier →
    0 < verifier.maxIterations.toNat
  outputSchema : ∀ verifier, taskVerifier task' = some verifier →
    task'.outputSchema = some verifierDecisionSchema
  rerun : ∀ verifier, taskVerifier task' = some verifier →
    ∀ start, verifier.rerunFromTaskId = some start → start ∈ ids

/-- An explicit rerun start of an accepted verifier is a task of the definition
too. -/
theorem normalizeRerunStart_ok {originalToNormalized : List (String × String)}
    {rerun : Option String} {start : String}
    (h : normalizeRerunStart originalToNormalized rerun = .ok (some start)) :
    start ∈ originalToNormalized.map Prod.snd := by
  cases rerun with
  | none => cases h
  | some taskId =>
      rw [normalizeRerunStart] at h
      cases hReference : normalizeTaskReference originalToNormalized taskId
          "verifier rerun_from_task_id" with
      | error message =>
          rw [hReference] at h
          cases h
      | ok normalized =>
          rw [hReference] at h
          cases h
          exact normalizeTaskReference_ok hReference

/-- Normalizing the verifier of a task leaves the rest of the task alone, and
every task that the verifier names exists. -/
theorem normalizeVerifier_ok {originalToNormalized : List (String × String)} {task task' : TaskDef}
    (h : normalizeVerifier originalToNormalized task = .ok task') :
    VerifierChecked (originalToNormalized.map Prod.snd) task task' := by
  unfold normalizeVerifier at h
  split at h
  · cases h
  · obtain ⟨checked, hChecked, h⟩ := bind_ok.mp h
    obtain ⟨schema, hSchema, h⟩ := bind_ok.mp h
    cases h
    unfold normalizeControl at hChecked
    split at hChecked
    · rename_i allowEarlyExit verifier hControl
      split at hChecked
      · cases hChecked
      · rename_i hPositive
        obtain ⟨rerun, hRerun, hChecked⟩ := bind_ok.mp hChecked
        cases hChecked
        refine ⟨rfl, ⟨schema, hSchema⟩, ?_, fun _ _ => rfl, ?_⟩
        · rintro _ ⟨⟩
          exact Nat.pos_of_ne_zero fun hZero => hPositive (UInt32.toNat_inj.mp hZero)
        · rintro _ ⟨⟩ start hStart
          dsimp only at hStart
          subst hStart
          exact normalizeRerunStart_ok hRerun
    · rename_i hControl
      cases hChecked
      have hNone : taskVerifier task = none := by
        unfold taskVerifier
        rcases hTask : task.control with _ | ⟨allowEarlyExit, _ | verifier⟩
        · rfl
        · rfl
        · exact absurd hTask (hControl allowEarlyExit verifier)
      refine ⟨rfl, ⟨schema, hSchema⟩, ?_, ?_, ?_⟩ <;>
        · intro verifier hVerifier
          rw [hNone] at hVerifier
          cases hVerifier

/-- A verifier claims its slice only when nobody owns a task of it. Afterwards
the owned tasks are those of the slice and those owned before. -/
theorem claimSlice_ok {verifierId : String} {slice : List String}
    {owners owners' : List (String × String)}
    (h : claimSlice verifierId owners slice = .ok owners') :
    (∀ taskId ∈ slice, owners.lookup taskId = none) ∧
      ∀ taskId, (owners'.lookup taskId).isSome = true ↔
        taskId ∈ slice ∨ (owners.lookup taskId).isSome = true := by
  induction slice generalizing owners with
  | nil =>
      cases h
      simp
  | cons first slice ih =>
      rw [claimSlice] at h
      split at h
      · cases h
      · rename_i hFree
        obtain ⟨hUnowned, hOwned⟩ := ih h
        have hLookup (taskId : String) : ((first, verifierId) :: owners).lookup taskId =
            if taskId = first then some verifierId else owners.lookup taskId := by
          by_cases hEq : taskId = first
          · simp [hEq]
          · rw [List.lookup_cons, beq_eq_false_iff_ne.mpr hEq, if_neg hEq]
        constructor
        · intro taskId hMem
          rcases List.mem_cons.mp hMem with rfl | hMem
          · exact hFree
          · have hNone := hUnowned taskId hMem
            rw [hLookup] at hNone
            split at hNone
            · cases hNone
            · exact hNone
        · intro taskId
          rw [hOwned, hLookup, List.mem_cons]
          by_cases hEq : taskId = first <;> simp [hEq]

/-- Claiming the slices one after another keeps them apart. -/
theorem claimSlices_ok {slices : List (String × List String)} {owners owners' : List (String × String)}
    (h : slices.foldlM (fun owners entry => claimSlice entry.1 owners entry.2) owners =
      .ok owners') :
    slices.Pairwise (fun a b => ∀ taskId ∈ a.2, taskId ∉ b.2) ∧
      ∀ entry ∈ slices, ∀ taskId ∈ entry.2, owners.lookup taskId = none := by
  induction slices generalizing owners with
  | nil => exact ⟨.nil, fun _ h => absurd h List.not_mem_nil⟩
  | cons first slices ih =>
      obtain ⟨middle, hFirst, hRest⟩ := foldlM_cons_ok.mp h
      obtain ⟨hFree, hOwned⟩ := claimSlice_ok hFirst
      obtain ⟨hPairwise, hUnowned⟩ := ih hRest
      constructor
      · refine .cons (fun entry hEntry taskId hTask hMem => ?_) hPairwise
        have hSome := (hOwned taskId).mpr (.inl hTask)
        rw [hUnowned entry hEntry taskId hMem] at hSome
        cases hSome
      · intro entry hEntry taskId hTask
        rcases List.mem_cons.mp hEntry with rfl | hEntry
        · exact hFree taskId hTask
        · cases hLookup : owners.lookup taskId with
          | none => rfl
          | some owner =>
              have hSome := (hOwned taskId).mpr (.inr (by rw [hLookup]; rfl))
              rw [hUnowned entry hEntry taskId hTask] at hSome
              cases hSome

/-- A slice is claimed when none of its tasks has an owner or occurs twice. -/
theorem claimSlice_succeeds (verifierId : String) {slice : List String}
    {owners : List (String × String)} (hNodup : slice.Nodup)
    (hFree : ∀ taskId ∈ slice, owners.lookup taskId = none) :
    ∃ owners', claimSlice verifierId owners slice = .ok owners' := by
  induction slice generalizing owners with
  | nil => exact ⟨owners, rfl⟩
  | cons first slice ih =>
      rw [List.nodup_cons] at hNodup
      rw [claimSlice, hFree first List.mem_cons_self]
      refine ih hNodup.2 fun taskId hMem => ?_
      have hNe : taskId ≠ first := fun hEq => hNodup.1 (hEq ▸ hMem)
      rw [List.lookup_cons, beq_eq_false_iff_ne.mpr hNe]
      exact hFree taskId (List.mem_cons_of_mem _ hMem)

/-- A slice that has been claimed lists none of its tasks twice, since the
second claim would find the first one. -/
theorem claimSlice_nodup {verifierId : String} {slice : List String}
    {owners owners' : List (String × String)}
    (h : claimSlice verifierId owners slice = .ok owners') : slice.Nodup := by
  induction slice generalizing owners with
  | nil => exact .nil
  | cons first slice ih =>
      rw [claimSlice] at h
      split at h
      · cases h
      · refine List.nodup_cons.mpr ⟨fun hMem => ?_, ih h⟩
        have hOwned := (claimSlice_ok h).1 first hMem
        simp at hOwned

/-- All slices are claimed exactly when no task occurs twice in them. -/
theorem claimSlices_iff {slices : List (String × List String)} {owners : List (String × String)} :
    (∃ owners', slices.foldlM (fun owners entry => claimSlice entry.1 owners entry.2) owners =
      .ok owners') ↔ (slices.flatMap Prod.snd).Nodup ∧
        ∀ taskId ∈ slices.flatMap Prod.snd, owners.lookup taskId = none := by
  have hUnclaimed {verifierId : String} {slice : List String}
      {owners middle : List (String × String)}
      (h : claimSlice verifierId owners slice = .ok middle) (taskId : String) :
      middle.lookup taskId = none ↔ taskId ∉ slice ∧ owners.lookup taskId = none := by
    have hOwned := (claimSlice_ok h).2 taskId
    rw [← not_iff_not, ← Option.ne_none_iff_isSome, ← Option.ne_none_iff_isSome] at hOwned
    tauto
  induction slices generalizing owners with
  | nil => simp [pure, Except.pure]
  | cons entry slices ih =>
      rw [List.flatMap_cons, List.nodup_append]
      constructor
      · rintro ⟨owners', h⟩
        obtain ⟨middle, hFirst, hRest⟩ := foldlM_cons_ok.mp h
        obtain ⟨hNodup, hUnowned⟩ := ih.mp ⟨owners', hRest⟩
        have hFree (taskId : String) (hMem : taskId ∈ slices.flatMap Prod.snd) :=
          (hUnclaimed hFirst taskId).mp (hUnowned taskId hMem)
        refine ⟨⟨claimSlice_nodup hFirst, hNodup, fun taskId hMem other hOther hSame =>
          (hFree other hOther).1 (hSame ▸ hMem)⟩, fun taskId hMem => ?_⟩
        rcases List.mem_append.mp hMem with hMem | hMem
        · exact (claimSlice_ok hFirst).1 taskId hMem
        · exact (hFree taskId hMem).2
      · rintro ⟨⟨hFirstNodup, hNodup, hDisjoint⟩, hUnowned⟩
        obtain ⟨middle, hFirst⟩ := claimSlice_succeeds entry.1 hFirstNodup
          fun taskId hMem => hUnowned taskId (List.mem_append_left _ hMem)
        obtain ⟨owners', hRest⟩ := (@ih middle).mpr ⟨hNodup, fun taskId hMem =>
          (hUnclaimed hFirst taskId).mpr ⟨fun hSlice => hDisjoint taskId hSlice taskId hMem rfl,
            hUnowned taskId (List.mem_append_right _ hMem)⟩⟩
        exact ⟨owners', foldlM_cons_ok.mpr ⟨middle, hFirst, hRest⟩⟩

/-- In a definition that passes the check a task lies in one slice at most; two
slices that share a task are the same slice. -/
theorem validateNonOverlappingVerifierSlices_ok {definition : WorkflowDef}
    (h : validateNonOverlappingVerifierSlices definition = .ok ()) :
    ∀ a ∈ computeLoopSlices definition, ∀ b ∈ computeLoopSlices definition,
      ∀ taskId, taskId ∈ a.2 → taskId ∈ b.2 → a = b := by
  obtain ⟨owners, hFold, _⟩ := bind_ok.mp h
  obtain ⟨hPairwise, _⟩ := claimSlices_ok hFold
  intro a ha b hb taskId hTask hTask'
  by_contra hNe
  have : Std.Symm fun a b : String × List String => ∀ taskId ∈ a.2, taskId ∉ b.2 :=
    ⟨fun _ _ hDisjoint taskId hMem hMem' => hDisjoint taskId hMem' hMem⟩
  exact hPairwise.forall ha hb hNe taskId hTask hTask'

theorem Forall₂.exists_left {α β : Type} {R : α → β → Prop} {xs : List α} {ys : List β}
    (h : List.Forall₂ R xs ys) {b : β} (hb : b ∈ ys) : ∃ a ∈ xs, R a b := by
  induction h with
  | nil => cases hb
  | cons hHead hTail ih =>
      rcases List.mem_cons.mp hb with rfl | hb
      · exact ⟨_, List.mem_cons_self, hHead⟩
      · obtain ⟨a, ha, hR⟩ := ih hb
        exact ⟨a, List.mem_cons_of_mem _ ha, hR⟩

/-- The verifier checks go through the tasks in order and rename none of
them. -/
theorem VerifierChecked.ids {ids : List String} {tasks tasks' : List TaskDef}
    (h : List.Forall₂ (VerifierChecked ids) tasks tasks') :
    tasks'.map (·.id) = tasks.map (·.id) := by
  induction h with
  | nil => rfl
  | cons hHead hTail ih => rw [List.map_cons, List.map_cons, hHead.id, ih]

/-- Where the cycle check finds nothing, the position in Kahn's order is a
rank: every binding points from a smaller rank to a larger one. -/
theorem rank_of_hasDataBindingCycle {definition : WorkflowDef} (hNodup : definition.taskIds.Nodup)
    (hTargets : ∀ a b, (a, b) ∈ definition.edges → b ∈ definition.taskIds)
    (h : hasDataBindingCycle definition = false) :
    ∃ rank : String → Nat, ∀ a b, (a, b) ∈ definition.edges → rank a < rank b := by
  simp only [hasDataBindingCycle, decide_eq_false_iff_not, not_not] at h
  rw [List.dedup_eq_self.mpr hNodup] at h
  refine rank_of_kahn _ hTargets hNodup (h.trans ?_)
  rw [WorkflowDef.taskIds, List.length_map]

/-- A verifier accepts as its rerun start only a task from which its own task
can be reached. -/
theorem start_reaches_of_validateRerunStart {definition : WorkflowDef} {task : TaskDef}
    {verifier : VerifierControlConfig} (hVerifier : taskVerifier task = some verifier)
    (h : validateRerunStart definition task = .ok ()) :
    Reaches definition.edges (verifierRerunStartTaskId verifier task.id) task.id := by
  unfold validateRerunStart at h
  rw [hVerifier, Option.bind_some] at h
  unfold verifierRerunStartTaskId
  cases hStart : verifier.rerunFromTaskId with
  | none => exact .refl
  | some start =>
      rw [hStart] at h
      dsimp only at h
      split at h
      · cases h
      · rename_i hRefused
        rw [Option.getD_some]
        by_cases hEq : start = task.id
        · rw [hEq]
          exact .refl
        · have hFound : isUpstreamAncestor definition start task.id = true := by
            simpa [hEq] using hRefused
          have hPath := (search_sound _ _ _ (fun v hv => by
            rw [List.mem_singleton.mp hv]
            exact .refl) hFound).to_reflTransGen
          exact reaches_reverse.mp hPath

/-- Every accepted definition is well formed. -/
theorem validateAndNormalizeWorkflowDef_ok {input definition : WorkflowDef}
    (h : validateAndNormalizeWorkflowDef input = .ok definition) : WellFormedDef definition := by
  obtain ⟨_, _, h⟩ := bind_ok.mp h
  obtain ⟨tasks, hTasks, h⟩ := bind_ok.mp h
  obtain ⟨dataBindings, hBindings, h⟩ := bind_ok.mp h
  obtain ⟨checkedTasks, hChecked, h⟩ := bind_ok.mp h
  dsimp only at h
  split at h
  · cases h
  · rename_i hCycle
    obtain ⟨_, hStarts, h⟩ := bind_ok.mp h
    obtain ⟨_, hSlices, h⟩ := bind_ok.mp h
    cases h
    obtain ⟨hIds, hNodup, _⟩ := normalizeTasks_ok hTasks
    have hNormalized : (input.tasks.map fun task =>
        (task.id, toAsciiLowercase task.id)).map Prod.snd = tasks.map (·.id) := by
      rw [hIds, List.map_map]
      rfl
    have hVerifiers : List.Forall₂ (VerifierChecked (tasks.map (·.id))) tasks checkedTasks := by
      rw [← hNormalized]
      exact (mapM_ok hChecked).imp fun _ _ hTask => normalizeVerifier_ok hTask
    have hSame := VerifierChecked.ids hVerifiers
    have hBound : ∀ binding ∈ dataBindings, binding.sourceTaskId ∈ checkedTasks.map (·.id) ∧
        binding.targetTaskId ∈ checkedTasks.map (·.id) := by
      intro binding hBinding
      obtain ⟨_, _, hOk⟩ := Forall₂.exists_left (mapM_ok hBindings) hBinding
      rw [hSame, ← hNormalized]
      exact normalizeBinding_ok hOk
    have hTaskIds : WorkflowDef.taskIds
        { input with id := toAsciiLowercase input.id, tasks := checkedTasks,
                     dataBindings := dataBindings } = checkedTasks.map (·.id) := rfl
    have hNodupIds : (checkedTasks.map (·.id)).Nodup := by rwa [hSame]
    refine
      { ids_nodup := hNodupIds
        source_mem := fun binding hBinding => (hBound binding hBinding).1
        target_mem := fun binding hBinding => (hBound binding hBinding).2
        ranked := rank_of_hasDataBindingCycle hNodupIds ?_ (by simpa using hCycle)
        maxIterations_pos := ?_
        verifier_schema := ?_
        start_mem := ?_
        start_reaches := ?_
        slices_disjoint := validateNonOverlappingVerifierSlices_ok hSlices
        schema_ok := ?_ }
    · intro a b hEdge
      obtain ⟨binding, hBinding, hPair⟩ := List.mem_map.mp hEdge
      cases hPair
      exact (hBound binding hBinding).2
    · intro task hTask
      obtain ⟨_, _, hOk⟩ := Forall₂.exists_left hVerifiers hTask
      exact hOk.maxIterations
    · intro task hTask
      obtain ⟨_, _, hOk⟩ := Forall₂.exists_left hVerifiers hTask
      exact hOk.outputSchema
    · intro task hTask verifier hVerifier
      obtain ⟨_, _, hOk⟩ := Forall₂.exists_left hVerifiers hTask
      unfold verifierRerunStartTaskId
      cases hStart : verifier.rerunFromTaskId with
      | none => exact List.mem_map_of_mem hTask
      | some start =>
          rw [hTaskIds, hSame]
          exact hOk.rerun verifier hVerifier start hStart
    · intro task hTask verifier hVerifier
      exact start_reaches_of_validateRerunStart hVerifier (forM_ok hStarts task hTask)
    · intro task hTask
      obtain ⟨_, _, hOk⟩ := Forall₂.exists_left hVerifiers hTask
      exact hOk.schema

/-! ### Logical ids -/

/-- Lowercasing leaves a character alone or moves it by 32, and it moves only
the ASCII capitals. Stated with code points, which the injectivity of attempt
ids needs. -/
theorem lowercase_char (c : Char) :
    (if 'A' ≤ c ∧ c ≤ 'Z' then Char.ofNat (c.toNat + 32) else c) = c ∧ ¬('A' ≤ c ∧ c ≤ 'Z') ∨
      (if 'A' ≤ c ∧ c ≤ 'Z' then Char.ofNat (c.toNat + 32) else c).toNat = c.toNat + 32 ∧
        65 ≤ c.toNat ∧ c.toNat ≤ 90 := by
  by_cases h : 'A' ≤ c ∧ c ≤ 'Z'
  · right
    have hBounds : 65 ≤ c.toNat ∧ c.toNat ≤ 90 := h
    have hValid : (c.toNat + 32).isValidChar := .inl (by omega)
    rw [if_pos h, Char.ofNat, dif_pos hValid]
    exact ⟨rfl, hBounds⟩
  · exact .inl ⟨if_neg h, h⟩

/-- An id that normalization leaves as it is, and that is not an attempt id. -/
structure IsLogicalId (taskId : String) : Prop where
  normalized : toAsciiLowercase taskId = taskId
  bracket : '[' ∉ taskId.toList

/-- Lowercasing works character by character, so that facts about it can be
read off the list of characters. -/
theorem toAsciiLowercase_toList (s : String) : (toAsciiLowercase s).toList =
    s.toList.map fun c => if 'A' ≤ c ∧ c ≤ 'Z' then Char.ofNat (c.toNat + 32) else c := by
  simp [toAsciiLowercase]

/-- Lowercasing twice is lowercasing once: no capital is left to move. -/
theorem toAsciiLowercase_idem (s : String) :
    toAsciiLowercase (toAsciiLowercase s) = toAsciiLowercase s := by
  apply String.toList_inj.mp
  rw [toAsciiLowercase_toList, toAsciiLowercase_toList, List.map_map]
  apply List.map_congr_left
  intro c _
  rcases lowercase_char c with ⟨hSame, hNot⟩ | ⟨hLower, hLow, hHigh⟩
  · rw [Function.comp_apply, hSame, hSame]
  · rw [Function.comp_apply]
    apply if_neg
    intro hUpper
    have hBound : (if 'A' ≤ c ∧ c ≤ 'Z' then Char.ofNat (c.toNat + 32) else c).toNat ≤ 90 := hUpper.2
    omega

/-- Normalization neither adds nor removes a bracket. -/
theorem bracket_mem_toAsciiLowercase {s : String} :
    '[' ∈ (toAsciiLowercase s).toList ↔ '[' ∈ s.toList := by
  rw [toAsciiLowercase_toList, List.mem_map]
  constructor
  · rintro ⟨c, hMem, hBracket⟩
    rcases lowercase_char c with ⟨hSame, _⟩ | ⟨hLower, hLow, hHigh⟩
    · rw [hSame] at hBracket
      rwa [← hBracket]
    · rw [hBracket] at hLower
      have hCode : '['.toNat = 91 := rfl
      omega
  · exact fun hMem => ⟨'[', hMem, by decide⟩

/-- An id that passes the identifier check is a logical id once it is in lower
case: it holds no bracket, so an attempt id can be split again. -/
theorem isLogicalId_of_validateIdentifier {kind id : String}
    (h : validateIdentifier kind id = .ok ()) : IsLogicalId (toAsciiLowercase id) := by
  unfold validateIdentifier at h
  split at h
  · cases h
  · rename_i hValid
    refine ⟨toAsciiLowercase_idem id, fun hMem => ?_⟩
    have hAll : id.toList.all isIdentifierChar = true := by
      cases hAll : id.toList.all isIdentifierChar with
      | true => rfl
      | false => simp [hAll] at hValid
    have hChar := List.all_eq_true.mp hAll '[' (bracket_mem_toAsciiLowercase.mp hMem)
    revert hChar
    decide

/-- Every task of an accepted definition has a logical id. -/
theorem normalizeTasks_logicalIds {taken : List String} {tasks tasks' : List TaskDef}
    (h : normalizeTasks taken tasks = .ok tasks') :
    ∀ taskId ∈ tasks'.map (·.id), IsLogicalId taskId := by
  induction tasks generalizing taken tasks' with
  | nil =>
      cases h
      exact fun _ hMem => absurd hMem List.not_mem_nil
  | cons task tasks ih =>
      obtain ⟨_, hValid, h⟩ := bind_ok.mp h
      dsimp only at h
      split at h
      · cases h
      · obtain ⟨workspace, _, h⟩ := bind_ok.mp h
        obtain ⟨rest, hRest, h⟩ := bind_ok.mp h
        cases h
        intro taskId hMem
        rcases List.mem_cons.mp hMem with rfl | hMem
        · exact isLogicalId_of_validateIdentifier hValid
        · exact ih hRest taskId hMem

/-- The task ids of an accepted definition are logical ids. -/
theorem validateAndNormalizeWorkflowDef_logicalIds {input definition : WorkflowDef}
    (h : validateAndNormalizeWorkflowDef input = .ok definition) :
    ∀ taskId ∈ definition.taskIds, IsLogicalId taskId := by
  obtain ⟨_, _, h⟩ := bind_ok.mp h
  obtain ⟨tasks, hTasks, h⟩ := bind_ok.mp h
  obtain ⟨dataBindings, hBindings, h⟩ := bind_ok.mp h
  obtain ⟨checkedTasks, hChecked, h⟩ := bind_ok.mp h
  dsimp only at h
  split at h
  · cases h
  · obtain ⟨_, _, h⟩ := bind_ok.mp h
    obtain ⟨_, _, h⟩ := bind_ok.mp h
    cases h
    have hVerifiers := (mapM_ok hChecked).imp fun _ _ hTask => normalizeVerifier_ok hTask
    intro taskId hMem
    apply normalizeTasks_logicalIds hTasks
    rw [← VerifierChecked.ids hVerifiers]
    exact hMem

end RelayFold
