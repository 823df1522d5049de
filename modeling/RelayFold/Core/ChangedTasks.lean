import RelayFold.Core.EventEffects

/-! `changed_task_attempt_ids` covers the reducer: the attempts it names are
the only ones a batch can alter, and each of them is stored afterwards. -/
namespace RelayFold

open FallibleFold

/-- An attempt a batch does not name keeps its value, and one it names is
stored after it. -/
structure TasksChanged (ids : List String) (workflow next : WorkflowInstance) : Prop where
  unchanged : ∀ id, id ∉ ids → next.tasks.lookup id = workflow.tasks.lookup id
  present : ∀ id ∈ ids, (next.tasks.lookup id).isSome = true
  kept : ∀ id, (workflow.tasks.lookup id).isSome = true → (next.tasks.lookup id).isSome = true

/-- Two changes in a row change the tasks of either list. -/
theorem TasksChanged.trans {xs ys : List String} {a b c : WorkflowInstance}
    (first : TasksChanged xs a b) (second : TasksChanged ys b c) : TasksChanged (xs ++ ys) a c where
  unchanged id h := by
    rw [List.mem_append, not_or] at h
    rw [second.unchanged id h.2, first.unchanged id h.1]
  present id h := by
    rcases List.mem_append.mp h with h | h
    · exact second.kept id (first.present id h)
    · exact second.present id h
  kept id h := second.kept id (first.kept id h)

theorem TasksChanged.of_eq {workflow next : WorkflowInstance} (h : next.tasks = workflow.tasks) :
    TasksChanged [] workflow next where
  unchanged id _ := by rw [h]
  present id h := by cases h
  kept id hSome := by rwa [h]

/-- A change of one attempt leaves the key and all other attempts alone. -/
theorem taskMut_changed {workflow next : WorkflowInstance} {id : String}
    {change : TaskInstance → TaskInstance} (h : taskMut workflow id change = .ok next) :
    TasksChanged [id] workflow next := by
  have hLookup := taskMut_lookup h
  refine ⟨fun id' hId => ?_, fun id' hId => ?_, fun id' hSome => ?_⟩
  · rw [hLookup, if_neg (fun hEq => hId (List.mem_singleton.mpr hEq))]
  · rw [List.mem_singleton.mp hId, hLookup, if_pos rfl, Option.isSome_map]
    exact (taskMut_ok h).1
  · rw [hLookup]
    split
    · rwa [Option.isSome_map]
    · exact hSome

/-- Inserting an attempt, with whatever status goes along, changes that attempt
alone. -/
theorem insert_changed {workflow : WorkflowInstance} {id : String} {task : TaskInstance}
    {status : WorkflowStatus} :
    TasksChanged [id] workflow
      { workflow with tasks := workflow.tasks.insert id task, status := status } := by
  have hLookup (id' : String) := FiniteMap.lookup_insert_eq workflow.tasks id id' task
  refine ⟨fun id' hId => ?_, fun id' hId => ?_, fun id' hSome => ?_⟩
  · rw [hLookup, if_neg (fun hEq => hId (List.mem_singleton.mpr hEq))]
  · rw [hLookup, if_pos (List.mem_singleton.mp hId)]
    rfl
  · rw [hLookup]
    split
    · rfl
    · exact hSome

/-- A retry resets one attempt; the other attempts are untouched. -/
theorem resetFailedTaskForRetry_changed {workflow next : WorkflowInstance} {id : String}
    (h : resetFailedTaskForRetry workflow id = .ok next) : TasksChanged [id] workflow next := by
  obtain ⟨_, ⟨task, hTask, _⟩, rfl⟩ := resetFailedTaskForRetry_ok h
  have hMut : taskMut workflow id TaskInstance.resetForRetry =
      .ok { workflow with tasks := workflow.tasks.modify id TaskInstance.resetForRetry } := by
    simp only [taskMut, hTask]
  have hChanged := taskMut_changed hMut
  exact ⟨hChanged.unchanged, hChanged.present, hChanged.kept⟩

/-- `changed_task_attempt_ids` names every attempt that one event can alter. -/
theorem applyWorkflowInstanceEvent_changed {workflow next : WorkflowInstance}
    {event : WorkflowInstanceEvent} (h : applyWorkflowInstanceEvent workflow event = .ok next)
    (createdTime : Nat) :
    TasksChanged (changedTaskAttemptIds [⟨createdTime, event⟩]) workflow next := by
  cases event with
  | workflowCreated _ => cases h
  | workflowStatusChanged _ | verifierStateUpserted _ _ =>
      cases h
      exact .of_eq rfl
  | taskEarlyExitSet _ _ | taskStatusChanged _ _ | taskInputDataSet _ _
  | taskInputMappingSet _ _ | taskOutputRecorded _ _ | taskSatisfactionChanged _ _
  | taskVerifierMetadataSet _ _ => exact taskMut_changed h
  | verifierFeedbackRecorded _ _ | verifierStateStatusChanged _ _ _ _ =>
      exact .of_eq (by rw [(verifierStateMut_ok h).2])
  | taskRetryRequested id => exact resetFailedTaskForRetry_changed h
  | startupRecoveryApplied ids =>
      have hFold (ids : List String) {workflow : WorkflowInstance}
          (h : ids.foldlM (fun workflow id => taskMut workflow id TaskInstance.recovered) workflow =
            .ok next) : TasksChanged ids workflow next := by
        induction ids generalizing workflow with
        | nil =>
            cases h
            exact .of_eq rfl
        | cons id rest ih =>
            obtain ⟨middle, hFirst, hRest⟩ := foldlM_cons_ok.mp h
            exact (taskMut_changed hFirst).trans (ih hRest)
      have hChanged := hFold ids h
      rw [changedTaskAttemptIds, List.flatMap_singleton]
      refine ⟨fun id hId => ?_, hChanged.present, fun id hSome => hChanged.kept id ?_⟩
      · rw [hChanged.unchanged id hId]
        split <;> rfl
      · split <;> exact hSome
  | taskMaterialized id task =>
      simp only [applyWorkflowInstanceEvent] at h
      split at h <;> cases h
      exact insert_changed
  | humanInputSubmitted id continuationId input =>
      obtain ⟨task, _, _, _, _, rfl⟩ := humanInputSubmitted_ok h
      exact insert_changed
  | taskForceRetryRequested id previous target lost =>
      simp only [applyWorkflowInstanceEvent] at h
      split at h
      · cases h
      · split at h
        · cases h
        · cases hMut : resetFailedTaskForRetry workflow id with
          | error message =>
              rw [hMut] at h
              cases h
          | ok middle =>
              rw [hMut] at h
              cases h
              have hChanged := resetFailedTaskForRetry_changed hMut
              exact ⟨hChanged.unchanged, hChanged.present, hChanged.kept⟩

/-- The attempts named by a batch cover everything it alters, and all of them
are stored after it. -/
theorem foldlM_changed {workflow next : WorkflowInstance} {records : List WorkflowEventRecord}
    (h : (records.map (·.event)).foldlM applyWorkflowInstanceEvent workflow = .ok next) :
    TasksChanged (changedTaskAttemptIds records) workflow next := by
  induction records generalizing workflow with
  | nil =>
      cases h
      exact .of_eq rfl
  | cons record records ih =>
      obtain ⟨middle, hFirst, hRest⟩ := foldlM_cons_ok.mp h
      have first := applyWorkflowInstanceEvent_changed hFirst record.createdTime
      have hSplit : changedTaskAttemptIds (record :: records) =
          changedTaskAttemptIds [record] ++ changedTaskAttemptIds records := by
        simp only [changedTaskAttemptIds, List.flatMap_cons, List.flatMap_nil, List.append_nil]
      rw [hSplit]
      exact first.trans (ih hRest)

end RelayFold
