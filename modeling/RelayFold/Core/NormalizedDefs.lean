import RelayFold.Core.GraphLoops

/-! What an accepted definition is: the submitted one with its ids and
references in lower case and the decision schema on its verifier tasks. -/
namespace RelayFold

open EdgeList FallibleFold

/-- A nonempty id over lower-case letters, digits, `-` and `_`. -/
structure IsIdentifier (id : String) : Prop where
  nonempty : id ≠ ""
  chars : ∀ c ∈ id.toList, 'a' ≤ c ∧ c ≤ 'z' ∨ c.isDigit = true ∨ c = '-' ∨ c = '_'

/-! ### The normalized definition -/

def Workspace.normalized (workspace : Workspace) : Workspace :=
  ⟨toAsciiLowercase workspace.groupName⟩

def VerifierControlConfig.normalized (verifier : VerifierControlConfig) : VerifierControlConfig :=
  { verifier with rerunFromTaskId := verifier.rerunFromTaskId.map toAsciiLowercase }

def TaskControl.normalized (control : TaskControl) : TaskControl :=
  { control with verifier := control.verifier.map VerifierControlConfig.normalized }

def DataBinding.normalized (binding : DataBinding) : DataBinding where
  targetTaskId := toAsciiLowercase binding.targetTaskId
  sourceTaskId := toAsciiLowercase binding.sourceTaskId

/-- The task with its own id and its workspace group in lower case. -/
def TaskDef.renamed (task : TaskDef) : TaskDef :=
  { task with
    id := toAsciiLowercase task.id
    workspace := task.workspace.map Workspace.normalized }

/-- The task with its rerun start in lower case, and the decision schema if it
is a verifier. -/
def TaskDef.verified (task : TaskDef) : TaskDef :=
  { task with
    control := task.control.map TaskControl.normalized
    outputSchema :=
      if (taskVerifier task).isSome then some verifierDecisionSchema else task.outputSchema }

def WorkflowDef.normalized (definition : WorkflowDef) : WorkflowDef :=
  { definition with
    id := toAsciiLowercase definition.id
    tasks := definition.tasks.map fun task => task.renamed.verified
    dataBindings := definition.dataBindings.map DataBinding.normalized }

/-! ### Identifiers -/

/-- An accepted id is not empty and consists of letters, digits, hyphens and
underscores. -/
theorem validateIdentifier_ok {kind id : String} (h : validateIdentifier kind id = .ok ()) :
    id ≠ "" ∧ ∀ c ∈ id.toList, isIdentifierChar c = true := by
  unfold validateIdentifier at h
  split at h
  · cases h
  · rename_i hValid
    rw [Bool.or_eq_true, not_or, Bool.not_eq_true', Bool.not_eq_false] at hValid
    refine ⟨fun hEmpty => hValid.1 (by rw [hEmpty]; rfl), List.all_eq_true.mp hValid.2⟩

/-- The lower-case form of an identifier character is one as well. -/
theorem lowercase_identifierChar {c : Char} (h : isIdentifierChar c = true) :
    let lower := if 'A' ≤ c ∧ c ≤ 'Z' then Char.ofNat (c.toNat + 32) else c
    'a' ≤ lower ∧ lower ≤ 'z' ∨ lower.isDigit = true ∨ lower = '-' ∨ lower = '_' := by
  intro lower
  rcases lowercase_char c with ⟨hSame, hUpper⟩ | ⟨hLower, hLow, hHigh⟩
  · rw [show lower = c from hSame]
    have hKind : (c.isUpper || c.isLower || c.isDigit || c = '-' || c = '_') = true := h
    simp only [Bool.or_eq_true, decide_eq_true_eq] at hKind
    rcases hKind with ((((hCapital | hSmall) | hDigit) | hDash) | hUnderscore)
    · exact absurd (of_decide_eq_true hCapital) hUpper
    · obtain ⟨hLow, hHigh⟩ := Bool.and_eq_true_iff.mp hSmall
      exact .inl ⟨of_decide_eq_true hLow, of_decide_eq_true hHigh⟩
    · exact .inr (.inl hDigit)
    · exact .inr (.inr (.inl hDash))
    · exact .inr (.inr (.inr hUnderscore))
  · left
    change lower.toNat = c.toNat + 32 at hLower
    constructor
    · change 97 ≤ lower.toNat
      omega
    · change lower.toNat ≤ 122
      omega

/-- In lower case it is an identifier, with no capital letter left in it. -/
theorem isIdentifier_of_validateIdentifier {kind id : String}
    (h : validateIdentifier kind id = .ok ()) : IsIdentifier (toAsciiLowercase id) := by
  obtain ⟨hNonempty, hChars⟩ := validateIdentifier_ok h
  constructor
  · intro hEmpty
    have hLength := congrArg (fun s : String => s.toList.length) hEmpty
    rw [toAsciiLowercase_toList, List.length_map] at hLength
    exact hNonempty (String.toList_inj.mp (List.length_eq_zero_iff.mp hLength))
  · intro lower hLower
    rw [toAsciiLowercase_toList, List.mem_map] at hLower
    obtain ⟨c, hMem, rfl⟩ := hLower
    exact lowercase_identifierChar (hChars c hMem)

/-! ### What each step of the normalization returns -/

/-- Normalizing a workspace puts the name of its group in lower case and does
nothing else; the name is an identifier then. -/
theorem normalizeWorkspace_eq {workspace workspace' : Option Workspace}
    (h : normalizeWorkspace workspace = .ok workspace') :
    workspace' = workspace.map Workspace.normalized ∧
      ∀ group ∈ workspace', IsIdentifier group.groupName := by
  cases workspace with
  | none =>
      cases h
      exact ⟨rfl, fun _ hNone => by cases hNone⟩
  | some workspace =>
      obtain ⟨_, hValid, h⟩ := bind_ok.mp h
      cases h
      refine ⟨rfl, fun group hGroup => ?_⟩
      cases hGroup
      exact isIdentifier_of_validateIdentifier hValid

/-- The loop over the tasks renames each of them and its workspace group, and
keeps everything else that a task declares. -/
theorem normalizeTasks_eq {taken : List String} {tasks tasks' : List TaskDef}
    (h : normalizeTasks taken tasks = .ok tasks') :
    tasks' = tasks.map TaskDef.renamed ∧
      ∀ task ∈ tasks', IsIdentifier task.id ∧
        ∀ group ∈ task.workspace, IsIdentifier group.groupName := by
  induction tasks generalizing taken tasks' with
  | nil =>
      cases h
      exact ⟨rfl, fun _ hNone => absurd hNone List.not_mem_nil⟩
  | cons task tasks ih =>
      obtain ⟨_, hValid, h⟩ := bind_ok.mp h
      dsimp only at h
      split at h
      · cases h
      · obtain ⟨workspace, hWorkspace, h⟩ := bind_ok.mp h
        obtain ⟨rest, hRest, h⟩ := bind_ok.mp h
        cases h
        obtain ⟨rfl, hGroup⟩ := normalizeWorkspace_eq hWorkspace
        obtain ⟨rfl, hTasks⟩ := ih hRest
        refine ⟨rfl, fun next hNext => ?_⟩
        rcases List.mem_cons.mp hNext with rfl | hNext
        · exact ⟨isIdentifier_of_validateIdentifier hValid, hGroup⟩
        · exact hTasks next hNext

/-- The tasks as they are referred to: each id with its lower-case form. -/
def originalToNormalized (tasks : List TaskDef) : List (String × String) :=
  tasks.map fun task => (task.id, toAsciiLowercase task.id)

/-- A reference is replaced by its lower-case form, as is the task it refers
to. -/
theorem normalizeTaskReference_eq {tasks : List TaskDef} {id field normalized : String}
    (h : normalizeTaskReference (originalToNormalized tasks) id field = .ok normalized) :
    normalized = toAsciiLowercase id := by
  obtain ⟨_, _, h⟩ := bind_ok.mp h
  cases hLookup : (originalToNormalized tasks).lookup id with
  | none =>
      rw [hLookup] at h
      cases h
  | some found =>
      rw [hLookup] at h
      cases h
      obtain ⟨before, after, hSplit, _⟩ := List.lookup_eq_some_iff.mp hLookup
      have hEntry : (id, normalized) ∈ originalToNormalized tasks := by
        rw [hSplit]
        exact List.mem_append_right _ List.mem_cons_self
      obtain ⟨task, _, hPair⟩ := List.mem_map.mp hEntry
      cases hPair
      rfl

/-- An accepted binding is the given one with both task ids in lower case. -/
theorem normalizeBinding_eq {tasks : List TaskDef} {binding normalized : DataBinding}
    (h : normalizeBinding (originalToNormalized tasks) binding = .ok normalized) :
    binding.normalized = normalized := by
  obtain ⟨source, hSource, h⟩ := bind_ok.mp h
  obtain ⟨target, hTarget, h⟩ := bind_ok.mp h
  cases h
  rw [DataBinding.normalized, normalizeTaskReference_eq hSource, normalizeTaskReference_eq hTarget]

/-- The rerun start of a verifier is put in lower case, where there is one. -/
theorem normalizeRerunStart_eq {tasks : List TaskDef} {rerun rerun' : Option String}
    (h : normalizeRerunStart (originalToNormalized tasks) rerun = .ok rerun') :
    rerun' = rerun.map toAsciiLowercase := by
  cases rerun with
  | none =>
      cases h
      rfl
  | some taskId =>
      rw [normalizeRerunStart] at h
      cases hReference : normalizeTaskReference (originalToNormalized tasks) taskId
          "verifier rerun_from_task_id" with
      | error message =>
          rw [hReference] at h
          cases h
      | ok normalized =>
          rw [hReference] at h
          cases h
          rw [normalizeTaskReference_eq hReference]
          rfl

/-- What the verifier check returns is the verified task: its rerun start in
lower case and, for a verifier, the decision schema filled in. -/
theorem normalizeVerifier_eq {tasks : List TaskDef} {task task' : TaskDef}
    (h : normalizeVerifier (originalToNormalized tasks) task = .ok task') :
    task.verified = task' := by
  unfold normalizeVerifier at h
  split at h
  · cases h
  · obtain ⟨checked, hChecked, h⟩ := bind_ok.mp h
    obtain ⟨schema, _, h⟩ := bind_ok.mp h
    cases h
    unfold normalizeControl at hChecked
    unfold TaskDef.verified taskVerifier
    split at hChecked
    · rename_i allowEarlyExit verifier hControl
      split at hChecked
      · cases hChecked
      · obtain ⟨rerun, hRerun, hChecked⟩ := bind_ok.mp hChecked
        cases hChecked
        rw [normalizeRerunStart_eq hRerun, hControl]
        rfl
    · rename_i hControl
      cases hChecked
      obtain ⟨id, kind, feedback, control, timeout, inputs, output, workspace, credentials⟩ := task
      rcases control with _ | ⟨allowEarlyExit, _ | verifier⟩
      · rfl
      · rfl
      · exact absurd rfl (hControl allowEarlyExit verifier)

/-- Two lists related by the graph of a function: the second is the image of
the first. -/
theorem Forall₂.eq_map {α β : Type} {f : α → β} {xs : List α} {ys : List β}
    (h : List.Forall₂ (fun a b => f a = b) xs ys) : ys = xs.map f := by
  induction h with
  | nil => rfl
  | cons hHead _ ih => rw [List.map_cons, hHead, ih]

/-- An accepted definition is the normalized form of the submitted one. -/
theorem validateAndNormalizeWorkflowDef_eq {input definition : WorkflowDef}
    (h : validateAndNormalizeWorkflowDef input = .ok definition) :
    definition = input.normalized ∧ IsIdentifier definition.id ∧
      ∀ task ∈ definition.tasks, IsIdentifier task.id ∧
        ∀ group ∈ task.workspace, IsIdentifier group.groupName := by
  obtain ⟨_, hId, h⟩ := bind_ok.mp h
  obtain ⟨tasks, hTasks, h⟩ := bind_ok.mp h
  obtain ⟨dataBindings, hBindings, h⟩ := bind_ok.mp h
  obtain ⟨checkedTasks, hChecked, h⟩ := bind_ok.mp h
  dsimp only at h
  split at h
  · cases h
  · obtain ⟨_, _, h⟩ := bind_ok.mp h
    obtain ⟨_, _, h⟩ := bind_ok.mp h
    cases h
    obtain ⟨rfl, hIdentifiers⟩ := normalizeTasks_eq hTasks
    have hVerified := Forall₂.eq_map ((mapM_ok hChecked).imp fun _ _ hTask =>
      normalizeVerifier_eq hTask)
    have hNormalized := Forall₂.eq_map ((mapM_ok hBindings).imp fun _ _ hBinding =>
      normalizeBinding_eq hBinding)
    rw [List.map_map] at hVerified
    subst hVerified hNormalized
    refine ⟨rfl, isIdentifier_of_validateIdentifier hId, fun task hTask => ?_⟩
    obtain ⟨submitted, hSubmitted, rfl⟩ := List.mem_map.mp hTask
    exact hIdentifiers submitted.renamed (List.mem_map_of_mem hSubmitted)

/-! ### Slices -/

namespace GraphLoops

def verifierSlice (definition : WorkflowDef) (verifierTask : TaskDef)
    (verifier : VerifierControlConfig) : Option (List String) := do
  let rerunStartTaskId := verifierRerunStartTaskId verifier verifierTask.id
  let fuel := definition.dataBindings.length + 2
  let fromStart ← walkGraph fuel rerunStartTaskId (adjacencyOf definition.edges)
  let toVerifier ← walkGraph fuel verifierTask.id (adjacencyOf (reverse definition.edges))
  return definition.taskIds.filter fun taskId => taskId ∈ fromStart ∧ taskId ∈ toVerifier

def insertSlice (definition : WorkflowDef) (slices : FiniteMap String (List String))
    (verifierTask : TaskDef) : Option (FiniteMap String (List String)) :=
  match taskVerifier verifierTask with
  | none => some slices
  | some verifier => (verifierSlice definition verifierTask verifier).map
      (slices.insert verifierTask.id)

/-- The service and the engine fill the map with the same code. -/
def computeLoopSlices (definition : WorkflowDef) : Option (FiniteMap String (List String)) :=
  definition.tasks.foldlM (insertSlice definition) ∅

/-- The slice of a verifier task as the list of slices has it. -/
def sliceOf (definition : WorkflowDef) (verifierTask : TaskDef)
    (verifier : VerifierControlConfig) : List String :=
  definition.taskIds.filter fun taskId =>
    taskId ∈ reachableFrom definition (verifierRerunStartTaskId verifier verifierTask.id) ∧
      taskId ∈ canReachTargetSet definition verifierTask.id

/-- The slice of one verifier, computed by two walks with fuel, is the
intersection of what each of them reaches. -/
theorem verifierSlice_eq (definition : WorkflowDef) (verifierTask : TaskDef)
    (verifier : VerifierControlConfig) :
    verifierSlice definition verifierTask verifier =
      some (sliceOf definition verifierTask verifier) := by
  have hEdges : definition.dataBindings.length = definition.edges.length :=
    (List.length_map _).symm
  have hReverse : definition.dataBindings.length = (reverse definition.edges).length := by
    rw [EdgeList.reverse, List.length_map, hEdges]
  have hFrom := walkGraph_eq definition.edges (verifierRerunStartTaskId verifier verifierTask.id)
  have hTo := walkGraph_eq (reverse definition.edges) verifierTask.id
  rw [← hEdges] at hFrom
  rw [← hReverse] at hTo
  unfold verifierSlice
  dsimp only
  rw [hFrom, hTo]
  rfl

/-- The loop gives every verifier its slice and leaves the keys that are no
verifiers alone. -/
theorem insertSlices_ok (definition : WorkflowDef) (tasks : List TaskDef)
    (hNodup : (tasks.map (·.id)).Nodup) (slices : FiniteMap String (List String)) :
    ∃ slices', tasks.foldlM (insertSlice definition) slices = some slices' ∧
      (∀ task ∈ tasks, ∀ verifier, taskVerifier task = some verifier →
        slices'.lookup task.id = some (sliceOf definition task verifier)) ∧
      ∀ taskId, (∀ task ∈ tasks, (taskVerifier task).isSome = true → task.id ≠ taskId) →
        slices'.lookup taskId = slices.lookup taskId := by
  induction tasks generalizing slices with
  | nil => exact ⟨slices, rfl, fun _ hNone => absurd hNone List.not_mem_nil, fun _ _ => rfl⟩
  | cons task tasks ih =>
      rw [List.map_cons, List.nodup_cons] at hNodup
      have hOthers : ∀ other ∈ tasks, (taskVerifier other).isSome = true → other.id ≠ task.id :=
        fun other hOther _ hSame => hNodup.1 (hSame ▸ List.mem_map_of_mem hOther)
      rw [List.foldlM_cons, insertSlice]
      cases hVerifier : taskVerifier task with
      | none =>
          obtain ⟨slices', hFold, hSlices, hRest⟩ := ih hNodup.2 slices
          refine ⟨slices', hFold, fun other hOther verifier hOwn => ?_, fun taskId hFree =>
            hRest taskId fun other hOther => hFree other (List.mem_cons_of_mem _ hOther)⟩
          rcases List.mem_cons.mp hOther with rfl | hOther
          · rw [hVerifier] at hOwn
            cases hOwn
          · exact hSlices other hOther verifier hOwn
      | some verifier =>
          obtain ⟨slices', hFold, hSlices, hRest⟩ := ih hNodup.2
            (slices.insert task.id (sliceOf definition task verifier))
          dsimp only
          rw [verifierSlice_eq]
          refine ⟨slices', hFold, fun other hOther own hOwn => ?_, fun taskId hFree => ?_⟩
          · rcases List.mem_cons.mp hOther with rfl | hOther
            · rw [hVerifier] at hOwn
              cases hOwn
              rw [hRest _ hOthers, Finmap.lookup_insert]
            · exact hSlices other hOther own hOwn
          · have hNe : task.id ≠ taskId := hFree task List.mem_cons_self (by rw [hVerifier]; rfl)
            rw [hRest taskId fun other hOther => hFree other (List.mem_cons_of_mem _ hOther)]
            exact Finmap.lookup_insert_of_ne _ hNe.symm

/-- The computation ends, and the map has the slice of each verifier and no
others. -/
theorem computeLoopSlices_ok {definition : WorkflowDef} (hNodup : definition.taskIds.Nodup) :
    ∃ slices, computeLoopSlices definition = some slices ∧
      ∀ taskId slice, slices.lookup taskId = some slice ↔
        ∃ task ∈ definition.tasks, ∃ verifier, taskVerifier task = some verifier ∧
          task.id = taskId ∧ slice = sliceOf definition task verifier := by
  obtain ⟨slices, hFold, hSlices, hRest⟩ := insertSlices_ok definition definition.tasks hNodup ∅
  refine ⟨slices, hFold, fun taskId slice => ⟨fun hSlice => ?_, ?_⟩⟩
  · by_cases hFree : ∀ task ∈ definition.tasks, (taskVerifier task).isSome = true →
        task.id ≠ taskId
    · rw [hRest taskId hFree, Finmap.lookup_empty] at hSlice
      cases hSlice
    · push Not at hFree
      obtain ⟨task, hTask, hIsVerifier, rfl⟩ := hFree
      obtain ⟨verifier, hVerifier⟩ := Option.isSome_iff_exists.mp hIsVerifier
      rw [hSlices task hTask verifier hVerifier] at hSlice
      exact ⟨task, hTask, verifier, hVerifier, rfl, (Option.some.inj hSlice).symm⟩
  · rintro ⟨task, hTask, verifier, hVerifier, rfl, rfl⟩
    exact hSlices task hTask verifier hVerifier

end GraphLoops

/-- A slice consists of the tasks on some way from the rerun start to the
verifier, both ends included. -/
theorem mem_sliceOf {definition : WorkflowDef} {task : TaskDef} {verifier : VerifierControlConfig}
    {taskId : String} :
    taskId ∈ GraphLoops.sliceOf definition task verifier ↔ taskId ∈ definition.taskIds ∧
      Reaches definition.edges (verifierRerunStartTaskId verifier task.id) taskId ∧
        Reaches definition.edges taskId task.id := by
  rw [GraphLoops.sliceOf, List.mem_filter, decide_eq_true_eq, mem_reachableFrom,
    mem_canReachTargetSet]

/-- What validation guarantees of the definition it returns for a submitted
one. -/
structure AcceptedDef (submitted definition : WorkflowDef) : Prop where
  identifiers : IsIdentifier definition.id ∧ ∀ task ∈ definition.tasks, IsIdentifier task.id ∧
    ∀ group ∈ task.workspace, IsIdentifier group.groupName
  ids_nodup : definition.taskIds.Nodup
  bindings : ∀ binding ∈ definition.dataBindings,
    binding.sourceTaskId ∈ definition.taskIds ∧ binding.targetTaskId ∈ definition.taskIds
  acyclic : ∀ taskId, ¬Relation.TransGen (Edge definition.edges) taskId taskId
  verifiers : ∀ task ∈ definition.tasks, ∀ verifier, taskVerifier task = some verifier →
    1 ≤ verifier.maxIterations ∧
      ∀ start, verifier.rerunFromTaskId = some start → start ∈ definition.taskIds
  slices : ∃ slices, GraphLoops.computeLoopSlices definition = some slices ∧
    (∀ task ∈ definition.tasks, ∀ verifier, taskVerifier task = some verifier →
      ∃ slice, slices.lookup task.id = some slice ∧
        verifierRerunStartTaskId verifier task.id ∈ slice ∧ task.id ∈ slice ∧
        ∀ taskId, taskId ∈ slice ↔ taskId ∈ definition.taskIds ∧
          Reaches definition.edges (verifierRerunStartTaskId verifier task.id) taskId ∧
          Reaches definition.edges taskId task.id) ∧
    ∀ first second slice slice', slices.lookup first = some slice →
      slices.lookup second = some slice' → first ≠ second → slice.Disjoint slice'
  schemas : ∀ task ∈ definition.tasks, ∃ schema, task.effectiveOutputSchema = .ok schema
  normalized : definition = submitted.normalized

/-- Validation is sound. -/
theorem validateAndNormalizeWorkflowDef_sound {submitted definition : WorkflowDef}
    (h : validateAndNormalizeWorkflowDef submitted = .ok definition) :
    AcceptedDef submitted definition := by
  have hDef := validateAndNormalizeWorkflowDef_ok h
  obtain ⟨hNormalized, hIdentifiers⟩ := validateAndNormalizeWorkflowDef_eq h
  obtain ⟨slices, hCompute, hSlices⟩ := GraphLoops.computeLoopSlices_ok hDef.ids_nodup
  constructor
  · exact hIdentifiers
  · exact hDef.ids_nodup
  · exact fun binding hBinding => ⟨hDef.source_mem binding hBinding, hDef.target_mem binding hBinding⟩
  · intro taskId hCycle
    obtain ⟨rank, hRank⟩ := hDef.ranked
    exact absurd (acyclic_of_rank hRank hCycle) (Nat.lt_irrefl _)
  · intro task hTask verifier hVerifier
    refine ⟨UInt32.le_iff_toNat_le.mpr (hDef.maxIterations_pos task hTask verifier hVerifier), ?_⟩
    intro start hStart
    have hMem := hDef.start_mem task hTask verifier hVerifier
    rwa [verifierRerunStartTaskId, hStart] at hMem
  · refine ⟨slices, hCompute, fun task hTask verifier hVerifier => ?_, ?_⟩
    · have hReaches := hDef.start_reaches task hTask verifier hVerifier
      refine ⟨_, (hSlices _ _).mpr ⟨task, hTask, verifier, hVerifier, rfl, rfl⟩, ?_, ?_,
        fun taskId => mem_sliceOf⟩
      · exact mem_sliceOf.mpr ⟨hDef.start_mem task hTask verifier hVerifier, .refl, hReaches⟩
      · exact mem_sliceOf.mpr ⟨List.mem_map_of_mem hTask, hReaches, .refl⟩
    · intro first second slice slice' hFirst hSecond hNe taskId hMem hMem'
      have hListed {id : String} {slice : List String} (hSlice : slices.lookup id = some slice) :
          (id, slice) ∈ computeLoopSlices definition := by
        obtain ⟨task, hTask, verifier, hVerifier, hId, hEq⟩ := (hSlices _ _).mp hSlice
        exact mem_computeLoopSlices.mpr ⟨task, hTask, verifier, hVerifier, hId, hEq⟩
      have hSame := hDef.slices_disjoint _ (hListed hFirst) _ (hListed hSecond) taskId hMem hMem'
      exact hNe (Prod.mk.inj hSame).1
  · exact hDef.schema_ok
  · exact hNormalized

/-- A verifier that reruns from the task before it, spelled with capitals. -/
def reviewedDefinition : WorkflowDef where
  id := "Article"
  exampleInput := none
  description := ""
  tasks := [{ noopTask "Draft" with workspace := some ⟨"Shared"⟩ },
    { noopTask "Review" with control := some ⟨false, some ⟨2, false, some "Draft"⟩⟩ }]
  dataBindings := [⟨"Review", "Draft"⟩]

/-- Here on a definition with a review that sends its draft back. -/
theorem validateAndNormalizeWorkflowDef_sound_reviewed :
    AcceptedDef reviewedDefinition reviewedDefinition.normalized := by
  have hAccepted : (validateAndNormalizeWorkflowDef reviewedDefinition).toOption.isSome := by
    decide +kernel
  have hSound := validateAndNormalizeWorkflowDef_sound (eq_ok_get hAccepted)
  have hSame := hSound.normalized
  rwa [hSame] at hSound

end RelayFold
