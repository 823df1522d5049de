import RelayFold.Core.EventEffects

/-! Batches that the reducer cannot refuse: every event changes an entry that
exists, or creates one that does not. -/
namespace RelayFold

open FallibleFold

/-- What the event changes exists. -/
def WorkflowInstanceEvent.Targets (workflow : WorkflowInstance) : WorkflowInstanceEvent → Prop
  | taskEarlyExitSet id _ | taskStatusChanged id _ | taskInputDataSet id _
  | taskInputMappingSet id _ | taskOutputRecorded id _ | taskSatisfactionChanged id _
  | taskVerifierMetadataSet id _ => (workflow.tasks.lookup id).isSome = true
  | verifierFeedbackRecorded id _ | verifierStateStatusChanged id _ _ _ =>
      (workflow.verifierStates.lookup id).isSome = true
  | workflowStatusChanged _ | verifierStateUpserted _ _ => True
  | _ => False

/-- The same attempts exist, of the same tasks, and no verifier state is
lost. -/
structure SameKeys (before after : WorkflowInstance) : Prop where
  tasks : ∀ id, (after.tasks.lookup id).map (·.taskDefId) =
    (before.tasks.lookup id).map (·.taskDefId)
  verifierStates : ∀ id, (before.verifierStates.lookup id).isSome = true →
    (after.verifierStates.lookup id).isSome = true

theorem SameKeys.refl (workflow : WorkflowInstance) : SameKeys workflow workflow :=
  ⟨fun _ => rfl, fun _ h => h⟩

theorem SameKeys.trans {a b c : WorkflowInstance} (h : SameKeys a b) (h' : SameKeys b c) :
    SameKeys a c :=
  ⟨fun id => (h'.tasks id).trans (h.tasks id),
    fun id hState => h'.verifierStates id (h.verifierStates id hState)⟩

/-- Instances with the same keys hold the same attempts, as far as existence
goes. -/
theorem SameKeys.isSome {a b : WorkflowInstance} (h : SameKeys a b) (id : String) :
    (b.tasks.lookup id).isSome = (a.tasks.lookup id).isSome := by
  simpa using congrArg Option.isSome (h.tasks id)

/-- What an event refers to survives every change that keeps the keys, so the
events of a batch can be checked against the instance before it. -/
theorem SameKeys.targets {a b : WorkflowInstance} (h : SameKeys a b)
    {event : WorkflowInstanceEvent} (hEvent : event.Targets a) : event.Targets b := by
  cases event with
  | taskEarlyExitSet _ _ | taskStatusChanged _ _ | taskInputDataSet _ _
  | taskInputMappingSet _ _ | taskOutputRecorded _ _ | taskSatisfactionChanged _ _
  | taskVerifierMetadataSet _ _ => exact (h.isSome _).trans hEvent
  | verifierFeedbackRecorded _ _ | verifierStateStatusChanged _ _ _ _ =>
      exact h.verifierStates _ hEvent
  | workflowStatusChanged _ | verifierStateUpserted _ _ => trivial
  | _ => exact hEvent.elim

theorem SameKeys.lookup_none {a b : WorkflowInstance} (h : SameKeys a b) {id : String}
    (hNone : a.tasks.lookup id = none) : b.tasks.lookup id = none := by
  have hSame := h.tasks id
  rw [hNone] at hSame
  exact Option.map_eq_none_iff.mp hSame

/-- A change of an existing attempt succeeds and keeps the keys, as long as it
does not rename the task. -/
theorem taskMut_of_isSome {workflow : WorkflowInstance} {id : String}
    (h : (workflow.tasks.lookup id).isSome = true) {change : TaskInstance → TaskInstance}
    (hChange : ∀ task, (change task).taskDefId = task.taskDefId) :
    ∃ next, taskMut workflow id change = .ok next ∧ SameKeys workflow next := by
  obtain ⟨task, hTask⟩ := Option.isSome_iff_exists.mp h
  refine ⟨{ workflow with tasks := workflow.tasks.modify id change }, ?_, fun other => ?_,
    fun _ h => h⟩
  · simp only [taskMut, hTask]
  · simp only [FiniteMap.lookup_modify]
    split
    · simp [Function.comp_def, hChange]
    · rfl

/-- A change of an existing verifier state succeeds and keeps the keys. -/
theorem verifierStateMut_of_isSome {workflow : WorkflowInstance} {id : String}
    (h : (workflow.verifierStates.lookup id).isSome = true)
    (change : VerifierGenerationState → VerifierGenerationState) :
    ∃ next, verifierStateMut workflow id change = .ok next ∧ SameKeys workflow next := by
  obtain ⟨state, hState⟩ := Option.isSome_iff_exists.mp h
  refine ⟨{ workflow with verifierStates := workflow.verifierStates.modify id change }, ?_,
    fun _ => rfl, fun other hOther => ?_⟩
  · simp only [verifierStateMut, hState]
  · simp only [FiniteMap.lookup_modify]
    split
    · simpa using hOther
    · exact hOther

/-- An event whose target exists can be applied. -/
theorem applyWorkflowInstanceEvent_of_targets {workflow : WorkflowInstance}
    {event : WorkflowInstanceEvent} (h : event.Targets workflow) :
    ∃ next, applyWorkflowInstanceEvent workflow event = .ok next ∧ SameKeys workflow next := by
  cases event with
  | taskEarlyExitSet _ _ | taskStatusChanged _ _ | taskInputDataSet _ _
  | taskInputMappingSet _ _ | taskOutputRecorded _ _ | taskSatisfactionChanged _ _
  | taskVerifierMetadataSet _ _ => exact taskMut_of_isSome h fun _ => rfl
  | verifierFeedbackRecorded _ _ | verifierStateStatusChanged _ _ _ _ =>
      exact verifierStateMut_of_isSome h _
  | workflowStatusChanged _ => exact ⟨_, rfl, fun _ => rfl, fun _ h => h⟩
  | verifierStateUpserted id state =>
      refine ⟨_, rfl, fun _ => rfl, fun other hOther => ?_⟩
      simp only [FiniteMap.lookup_insert_eq]
      split
      · rfl
      · exact hOther
  | _ => exact h.elim

/-- A batch whose events refer to what exists already is accepted as a
whole. -/
theorem foldlM_of_targets {workflow : WorkflowInstance} {events : List WorkflowInstanceEvent}
    (h : ∀ event ∈ events, event.Targets workflow) :
    ∃ next, events.foldlM applyWorkflowInstanceEvent workflow = .ok next ∧
      SameKeys workflow next := by
  induction events generalizing workflow with
  | nil => exact ⟨workflow, rfl, .refl _⟩
  | cons event events ih =>
      obtain ⟨hEvent, hEvents⟩ := List.forall_mem_cons.mp h
      obtain ⟨middle, hFirst, hSame⟩ := applyWorkflowInstanceEvent_of_targets hEvent
      obtain ⟨next, hRest, hSameRest⟩ := ih fun e he => hSame.targets (hEvents e he)
      exact ⟨next, foldlM_cons_ok.mpr ⟨middle, hFirst, hRest⟩, hSame.trans hSameRest⟩

/-- Attempts that do not exist, each materialized once. -/
theorem foldlM_of_materialized {workflow : WorkflowInstance}
    (attempts : List (String × TaskInstance)) (hNew : ∀ entry ∈ attempts,
      workflow.tasks.lookup entry.1 = none) (hNodup : (attempts.map Prod.fst).Nodup) :
    ∃ next, (attempts.map fun entry => WorkflowInstanceEvent.taskMaterialized entry.1 entry.2).foldlM
      applyWorkflowInstanceEvent workflow = .ok next := by
  induction attempts generalizing workflow with
  | nil => exact ⟨workflow, rfl⟩
  | cons entry attempts ih =>
      obtain ⟨hEntry, hAttempts⟩ := List.forall_mem_cons.mp hNew
      obtain ⟨hNotMem, hNodup⟩ := List.nodup_cons.mp hNodup
      have hApply : applyWorkflowInstanceEvent workflow (.taskMaterialized entry.1 entry.2) =
          .ok { workflow with tasks := workflow.tasks.insert entry.1 entry.2 } := by
        simp only [applyWorkflowInstanceEvent, hEntry]
      have hFree : ∀ other ∈ attempts,
          (workflow.tasks.insert entry.1 entry.2).lookup other.1 = none := by
        intro other hOther
        rw [FiniteMap.lookup_insert_eq, if_neg, hAttempts other hOther]
        intro hSame
        exact hNotMem (hSame ▸ List.mem_map_of_mem hOther)
      obtain ⟨next, hNext⟩ :=
        @ih { workflow with tasks := workflow.tasks.insert entry.1 entry.2 } hFree hNodup
      exact ⟨next, foldlM_cons_ok.mpr ⟨_, hApply, hNext⟩⟩

end RelayFold
