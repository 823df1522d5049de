import RelayFold.Core.NormalizedDefs

/-! Normalizing an accepted definition once more. -/
namespace RelayFold

open FallibleFold

section Identifiers

variable {id : String}

theorem IsIdentifier.isIdentifierChar (h : IsIdentifier id) :
    ∀ c ∈ id.toList, isIdentifierChar c = true := by
  intro c hMem
  change (c.isUpper || c.isLower || c.isDigit || c = '-' || c = '_') = true
  simp only [Bool.or_eq_true, decide_eq_true_eq]
  rcases h.chars c hMem with ⟨hLow, hHigh⟩ | hDigit | hDash | hUnderscore
  · exact .inl (.inl (.inl (.inr (Bool.and_eq_true_iff.mpr
      ⟨decide_eq_true hLow, decide_eq_true hHigh⟩))))
  · exact .inl (.inl (.inr hDigit))
  · exact .inl (.inr hDash)
  · exact .inr hUnderscore

/-- What normalization has produced passes the identifier check again. -/
theorem IsIdentifier.validateIdentifier (h : IsIdentifier id) (kind : String) :
    validateIdentifier kind id = .ok () := by
  have hNonempty : id.isEmpty = false := by
    rw [String.isEmpty_eq_false_iff]
    exact h.nonempty
  have hChars : id.toList.all RelayFold.isIdentifierChar = true :=
    List.all_eq_true.mpr h.isIdentifierChar
  unfold RelayFold.validateIdentifier
  rw [hNonempty, hChars]
  rfl

/-- An identifier has no capitals. -/
theorem IsIdentifier.toAsciiLowercase (h : IsIdentifier id) : toAsciiLowercase id = id := by
  apply String.toList_inj.mp
  rw [toAsciiLowercase_toList]
  refine (List.map_congr_left fun c hMem => if_neg ?_).trans (List.map_id _)
  rintro ⟨hLow, hHigh⟩
  change 65 ≤ c.toNat at hLow
  change c.toNat ≤ 90 at hHigh
  rcases h.chars c hMem with ⟨hSmall, _⟩ | hDigit | rfl | rfl
  · change 97 ≤ c.toNat at hSmall
    omega
  · have hNine : c.toNat ≤ 57 := of_decide_eq_true (Bool.and_eq_true_iff.mp hDigit).2
    omega
  · have hCode : '-'.toNat = 45 := rfl
    omega
  · have hCode : '_'.toNat = 95 := rfl
    omega

end Identifiers

section Tasks

variable {tasks : List TaskDef}

/-- The group of a workspace is in lower case already, so a second
normalization returns it unchanged. -/
theorem normalizeWorkspace_again {workspace : Option Workspace}
    (h : ∀ group ∈ workspace, IsIdentifier group.groupName) :
    normalizeWorkspace workspace = .ok workspace := by
  cases workspace with
  | none => rfl
  | some group =>
      have hGroup := h group rfl
      refine bind_ok.mpr ⟨(), hGroup.validateIdentifier _, ?_⟩
      rw [hGroup.toAsciiLowercase]
      rfl

/-- Tasks with identifiers of their own keep them. -/
theorem normalizeTasks_again {taken : List String} (hNodup : (tasks.map (·.id)).Nodup)
    (hFree : ∀ task ∈ tasks, task.id ∉ taken)
    (hTasks : ∀ task ∈ tasks, IsIdentifier task.id ∧
      ∀ group ∈ task.workspace, IsIdentifier group.groupName) :
    normalizeTasks taken tasks = .ok tasks := by
  induction tasks generalizing taken with
  | nil => rfl
  | cons task tasks ih =>
      obtain ⟨⟨hId, hGroup⟩, hRest⟩ := List.forall_mem_cons.mp hTasks
      obtain ⟨hOwn, hOthers⟩ := List.forall_mem_cons.mp hFree
      rw [List.map_cons, List.nodup_cons] at hNodup
      have hTail : normalizeTasks (task.id :: taken) tasks = .ok tasks := by
        refine ih hNodup.2 (fun other hOther hMem => ?_) hRest
        rcases List.mem_cons.mp hMem with hSame | hTaken
        · exact hNodup.1 (List.mem_map.mpr ⟨other, hOther, hSame⟩)
        · exact hOthers other hOther hTaken
      refine bind_ok.mpr ⟨(), hId.validateIdentifier _, ?_⟩
      dsimp only
      rw [hId.toAsciiLowercase, if_neg hOwn]
      exact bind_ok.mpr ⟨_, normalizeWorkspace_again hGroup, bind_ok.mpr ⟨_, hTail, rfl⟩⟩

/-- In a normalized definition the table of names maps each task to itself. -/
theorem originalToNormalized_again (hTasks : ∀ task ∈ tasks, IsIdentifier task.id) {id : String}
    (hMem : id ∈ tasks.map (·.id)) : (originalToNormalized tasks).lookup id = some id := by
  cases hLookup : (originalToNormalized tasks).lookup id with
  | none =>
      obtain ⟨task, hTask, rfl⟩ := List.mem_map.mp hMem
      have hNone := List.lookup_eq_none_iff.mp hLookup _ (List.mem_map_of_mem hTask)
      simp at hNone
  | some found =>
      obtain ⟨before, after, hSplit, _⟩ := List.lookup_eq_some_iff.mp hLookup
      have hEntry : (id, found) ∈ originalToNormalized tasks := by
        rw [hSplit]
        exact List.mem_append_right _ List.mem_cons_self
      obtain ⟨task, hTask, hPair⟩ := List.mem_map.mp hEntry
      cases hPair
      rw [(hTasks task hTask).toAsciiLowercase]

/-- A reference to a task stays. -/
theorem normalizeTaskReference_again (hTasks : ∀ task ∈ tasks, IsIdentifier task.id)
    {id : String} (hMem : id ∈ tasks.map (·.id)) (field : String) :
    normalizeTaskReference (originalToNormalized tasks) id field = .ok id := by
  obtain ⟨task, hTask, hId⟩ := List.mem_map.mp hMem
  unfold normalizeTaskReference
  rw [originalToNormalized_again hTasks hMem, ← hId, (hTasks task hTask).validateIdentifier]
  rfl

/-- Bindings between tasks that are in lower case stay as they are. -/
theorem normalizeBinding_again (hTasks : ∀ task ∈ tasks, IsIdentifier task.id)
    {binding : DataBinding} (hSource : binding.sourceTaskId ∈ tasks.map (·.id))
    (hTarget : binding.targetTaskId ∈ tasks.map (·.id)) :
    normalizeBinding (originalToNormalized tasks) binding = .ok binding := by
  unfold normalizeBinding
  rw [normalizeTaskReference_again hTasks hSource, normalizeTaskReference_again hTasks hTarget]
  rfl

/-- A task without a verifier passes unchanged if its output schema can be
derived. -/
theorem normalizeVerifier_plain {names : List (String × String)} {task : TaskDef}
    (hPlain : taskVerifier task = none) (hSchema : ∃ schema, task.effectiveOutputSchema = .ok schema) :
    normalizeVerifier names task = .ok task := by
  obtain ⟨schema, hSchema⟩ := hSchema
  have hControl : normalizeControl names task = .ok task := by
    unfold normalizeControl
    split
    · rename_i allowEarlyExit verifier hControl
      rw [taskVerifier, hControl] at hPlain
      cases hPlain
    · rfl
  unfold normalizeVerifier
  rw [if_neg (by rw [hPlain]; simp), hControl]
  exact bind_ok.mpr ⟨task, rfl, bind_ok.mpr ⟨schema, hSchema, rfl⟩⟩

theorem normalizeVerifier_verified {names : List (String × String)} {task : TaskDef}
    (hVerifier : taskVerifier task ≠ none) (hSchema : task.outputSchema ≠ none) :
    normalizeVerifier names task =
      .error s!"task {task.id} declares control.verifier and must not declare output_schema" := by
  unfold normalizeVerifier
  rw [if_pos ⟨Option.isSome_iff_ne_none.mpr hVerifier, Option.isSome_iff_ne_none.mpr hSchema⟩]

end Tasks

section Definition

variable {submitted definition : WorkflowDef}

/-- The checks of the whole definition are made on the normalized one. -/
theorem validateAndNormalizeWorkflowDef_checks
    (h : validateAndNormalizeWorkflowDef submitted = .ok definition) :
    hasDataBindingCycle definition = false ∧
      definition.tasks.forM (validateRerunStart definition) = .ok () ∧
      validateNonOverlappingVerifierSlices definition = .ok () := by
  obtain ⟨_, _, h⟩ := bind_ok.mp h
  obtain ⟨tasks, _, h⟩ := bind_ok.mp h
  obtain ⟨dataBindings, _, h⟩ := bind_ok.mp h
  obtain ⟨checkedTasks, _, h⟩ := bind_ok.mp h
  dsimp only at h
  split at h
  · cases h
  · rename_i hCycle
    obtain ⟨_, hStarts, h⟩ := bind_ok.mp h
    obtain ⟨_, hSlices, h⟩ := bind_ok.mp h
    cases h
    exact ⟨Bool.eq_false_iff.mpr hCycle, hStarts, hSlices⟩

/-- An accepted definition without verifiers is accepted again as it is. One
with verifiers is refused for the decision schema that the first verifier was
given. -/
theorem validateAndNormalizeWorkflowDef_again
    (h : validateAndNormalizeWorkflowDef submitted = .ok definition) :
    ((∀ task ∈ definition.tasks, taskVerifier task = none) →
      validateAndNormalizeWorkflowDef definition = .ok definition) ∧
    ∀ before task after, definition.tasks = before ++ task :: after →
      (∀ other ∈ before, taskVerifier other = none) → taskVerifier task ≠ none →
      validateAndNormalizeWorkflowDef definition = .error
        s!"task {task.id} declares control.verifier and must not declare output_schema" := by
  have hDef := validateAndNormalizeWorkflowDef_ok h
  obtain ⟨_, hId, hTasks⟩ := validateAndNormalizeWorkflowDef_eq h
  obtain ⟨hCycle, hStarts, hSlices⟩ := validateAndNormalizeWorkflowDef_checks h
  have hIds : ∀ task ∈ definition.tasks, IsIdentifier task.id := fun task hTask =>
    (hTasks task hTask).1
  have hBindings : definition.dataBindings.mapM
      (normalizeBinding (originalToNormalized definition.tasks)) = .ok definition.dataBindings := by
    refine (mapM_ok_of fun binding hBinding => ?_).trans (congrArg _ (List.map_id _))
    exact normalizeBinding_again hIds (hDef.source_mem binding hBinding)
      (hDef.target_mem binding hBinding)
  have hSplit : validateAndNormalizeWorkflowDef definition =
      (definition.tasks.mapM (normalizeVerifier (originalToNormalized definition.tasks)) >>=
        fun tasks =>
          let checked := { definition with tasks := tasks }
          if hasDataBindingCycle checked then .error "workflow data bindings contain a cycle"
          else do
            checked.tasks.forM (validateRerunStart checked)
            validateNonOverlappingVerifierSlices checked
            return checked) := by
    unfold validateAndNormalizeWorkflowDef
    rw [hId.validateIdentifier, hId.toAsciiLowercase,
      normalizeTasks_again hDef.ids_nodup (fun _ _ => List.not_mem_nil) hTasks]
    change (do
      let dataBindings ← definition.dataBindings.mapM
        (normalizeBinding (originalToNormalized definition.tasks))
      _) = _
    rw [hBindings]
    rfl
  rw [hSplit]
  refine ⟨fun hPlain => ?_, fun before task after hList hBefore hVerifier => ?_⟩
  · have hSame : definition.tasks.mapM
        (normalizeVerifier (originalToNormalized definition.tasks)) = .ok definition.tasks := by
      refine (mapM_ok_of fun task hTask => ?_).trans (congrArg _ (List.map_id _))
      exact normalizeVerifier_plain (hPlain task hTask) (hDef.schema_ok task hTask)
    refine bind_ok.mpr ⟨_, hSame, ?_⟩
    dsimp only
    rw [hCycle]
    exact bind_ok.mpr ⟨(), hStarts, bind_ok.mpr ⟨(), hSlices, rfl⟩⟩
  · have hMem : ∀ other ∈ before ++ task :: after, other ∈ definition.tasks := by
      rw [hList]
      exact fun _ hOther => hOther
    obtain ⟨verifier, hOwn⟩ := Option.ne_none_iff_exists'.mp hVerifier
    have hSchema := hDef.verifier_schema task (hMem task (by simp)) verifier hOwn
    have hFails : definition.tasks.mapM
        (normalizeVerifier (originalToNormalized definition.tasks)) =
          .error s!"task {task.id} declares control.verifier and must not declare output_schema" := by
      rw [hList]
      refine mapM_error_of (fun other hOther => ?_)
        (normalizeVerifier_verified hVerifier (by rw [hSchema]; simp))
      exact ⟨other, normalizeVerifier_plain (hBefore other hOther)
        (hDef.schema_ok other (hMem other (List.mem_append_left _ hOther)))⟩
    rw [hFails]
    rfl

end Definition

/-- The reviewed article without its reviewer. -/
def draftedDefinition : WorkflowDef :=
  { reviewedDefinition with tasks := [noopTask "Draft"], dataBindings := [] }

/-- A definition without verifiers is a fixed point, and one with a review is
refused the second time because its schema has been filled in. -/
theorem validateAndNormalizeWorkflowDef_again_drafted :
    validateAndNormalizeWorkflowDef draftedDefinition.normalized =
        .ok draftedDefinition.normalized ∧
      validateAndNormalizeWorkflowDef reviewedDefinition.normalized =
        .error "task review declares control.verifier and must not declare output_schema" := by
  have hDrafted : (validateAndNormalizeWorkflowDef draftedDefinition).toOption.isSome := by
    decide +kernel
  have hReviewed : (validateAndNormalizeWorkflowDef reviewedDefinition).toOption.isSome := by
    decide +kernel
  have hDraftedAgain := validateAndNormalizeWorkflowDef_again (eq_ok_get hDrafted)
  have hReviewedAgain := validateAndNormalizeWorkflowDef_again (eq_ok_get hReviewed)
  rw [(validateAndNormalizeWorkflowDef_eq (eq_ok_get hDrafted)).1] at hDraftedAgain
  rw [(validateAndNormalizeWorkflowDef_eq (eq_ok_get hReviewed)).1] at hReviewedAgain
  exact ⟨hDraftedAgain.1 (by decide +kernel),
    hReviewedAgain.2 [_] _ [] rfl (by decide +kernel) (by decide +kernel)⟩

/-- A stored definition with a verifier cannot be registered as it is read
back. -/
theorem reviewedDefinition_refused_again :
    ¬∀ submitted definition, validateAndNormalizeWorkflowDef submitted = .ok definition →
      validateAndNormalizeWorkflowDef definition = .ok definition := by
  intro hAgain
  have hReviewed : (validateAndNormalizeWorkflowDef reviewedDefinition).toOption.isSome := by
    decide +kernel
  have hAccepted := eq_ok_get hReviewed
  have hSame := hAgain _ _ hAccepted
  rw [(validateAndNormalizeWorkflowDef_eq hAccepted).1] at hSame
  have hRefused : (validateAndNormalizeWorkflowDef reviewedDefinition.normalized).toOption.isSome =
      false := by
    decide +kernel
  rw [hSame] at hRefused
  cases hRefused

end RelayFold
