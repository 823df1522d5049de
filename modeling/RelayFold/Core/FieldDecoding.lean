import RelayFold.Core.EventReplay

/-! What comes back from the JSON text of events and attempts. A derived
decoder reads a JSON null in an optional field as no value; events and columns
keep different fields that way. -/
namespace RelayFold

open FallibleFold

/-- An `Option<Value>` field of a derived decoder. -/
def decodedField : Option Json → Option Json
  | some .null => none
  | field => field

/-- Writing a field and reading it back a second time changes nothing more. -/
@[simp] theorem decodedField_decodedField (field : Option Json) :
    decodedField (decodedField field) = decodedField field := by
  rcases field with _ | _ | _ | _ | _ | _ | _ <;> rfl

/-- The field holds a JSON null. -/
def isNullField (field : Option Json) : Bool := field.any Json.isNull

/-- A field comes back as it was unless it is an explicit null: that one comes
back as an absent field. -/
theorem decodedField_eq_self {field : Option Json} :
    decodedField field = field ↔ isNullField field = false := by
  rcases field with _ | _ | _ | _ | _ | _ | _ <;> simp [decodedField, isNullField, Json.isNull]

/-- How the optional values of a record come back from its text. -/
structure FieldDecoding where
  triggerInput : Option Json → Option Json
  outputData : Option Json → Option Json
  verifierOutput : Option Json → Option Json
  outputData_none : outputData none = none

namespace FieldDecoding

variable (d : FieldDecoding)

def metadata (metadata : VerifierAttemptMetadata) : VerifierAttemptMetadata :=
  { metadata with verifierOutput := d.verifierOutput metadata.verifierOutput }

def task (task : TaskInstance) : TaskInstance :=
  { task with
    outputData := d.outputData task.outputData
    verifierMetadata := task.verifierMetadata.map d.metadata }

def workflow (workflow : WorkflowInstance) : WorkflowInstance :=
  { workflow with
    triggerInput := d.triggerInput workflow.triggerInput
    tasks := workflow.tasks.mapValues d.task }

def event : WorkflowInstanceEvent → WorkflowInstanceEvent
  | .workflowCreated workflow => .workflowCreated (d.workflow workflow)
  | .taskMaterialized id task => .taskMaterialized id (d.task task)
  | .taskOutputRecorded id outputData => .taskOutputRecorded id (d.outputData outputData)
  | .taskVerifierMetadataSet id metadata => .taskVerifierMetadataSet id (metadata.map d.metadata)
  | event => event

/-- Decoding a row never changes the status of the attempt, which the reducer's
guards look at. -/
@[simp] theorem task_status (task : TaskInstance) : (d.task task).status = task.status := rfl

/-- The attempts of a decoded instance are its attempts, decoded one by one. -/
@[simp] theorem lookup_workflow_tasks (workflow : WorkflowInstance) (id : String) :
    (d.workflow workflow).tasks.lookup id = (workflow.tasks.lookup id).map d.task :=
  FiniteMap.lookup_mapValues ..

/-- Changes that commute with the decoding of an attempt. -/
def Commutes (change change' : TaskInstance → TaskInstance) : Prop :=
  ∀ task, d.task (change task) = change' (d.task task)

variable {d} {change change' : TaskInstance → TaskInstance}

/-- Where a change commutes with decoding, so does the change of one entry of
the map. -/
theorem Commutes.modify (h : d.Commutes change change') (id : String)
    (tasks : FiniteMap String TaskInstance) :
    (tasks.modify id change).mapValues d.task = (tasks.mapValues d.task).modify id change' := by
  refine Finmap.ext_lookup fun other => ?_
  rw [FiniteMap.lookup_mapValues, FiniteMap.lookup_modify, FiniteMap.lookup_modify,
    FiniteMap.lookup_mapValues]
  split
  · cases tasks.lookup other with
    | none => rfl
    | some task => exact congrArg some (h task)
  · rfl

/-- And so does the reducer's change of one attempt, its error for an unknown
id included. -/
theorem Commutes.taskMut (h : d.Commutes change change') (workflow : WorkflowInstance)
    (id : String) :
    taskMut (d.workflow workflow) id change' = (RelayFold.taskMut workflow id change).map d.workflow := by
  simp only [RelayFold.taskMut, lookup_workflow_tasks]
  cases workflow.tasks.lookup id with
  | none => rfl
  | some task =>
      simp only [Option.map_some, Except.map, FieldDecoding.workflow, h.modify]

/-- The reset of a retry clears fields and sets the status; no column matters
to it. -/
theorem commutes_resetForRetry : d.Commutes TaskInstance.resetForRetry TaskInstance.resetForRetry := by
  intro task
  simp only [FieldDecoding.task, TaskInstance.resetForRetry, d.outputData_none]
  rfl

theorem commutes_recovered : d.Commutes TaskInstance.recovered TaskInstance.recovered := by
  intro task
  by_cases hRunning : task.status = .running
  · rw [TaskInstance.recovered, TaskInstance.recovered, if_pos hRunning,
      if_pos (show (d.task task).status = _ from hRunning)]
    rfl
  · rw [TaskInstance.recovered, TaskInstance.recovered, if_neg hRunning,
      if_neg (show ¬(d.task task).status = _ from hRunning)]

/-- A retry reads statuses only, so it is accepted on the decoded instance
exactly when it is on the instance. -/
theorem resetFailedTaskForRetry_workflow (workflow : WorkflowInstance) (id : String) :
    resetFailedTaskForRetry (d.workflow workflow) id =
      (resetFailedTaskForRetry workflow id).map d.workflow := by
  simp only [resetFailedTaskForRetry, lookup_workflow_tasks]
  by_cases hStatus : workflow.status = .failed
  · rw [if_neg (not_not.mpr hStatus), if_neg (not_not.mpr (show (d.workflow workflow).status = _ from
      hStatus))]
    cases workflow.tasks.lookup id with
    | none => rfl
    | some task =>
        dsimp only [Option.map_some]
        rw [task_status]
        split
        · rfl
        · simp only [Except.map, FieldDecoding.workflow, commutes_resetForRetry.modify]
  · rw [if_pos hStatus, if_pos (show (d.workflow workflow).status ≠ _ from hStatus)]
    rfl

/-- Decoding the snapshot and the event decodes what the event makes of the
snapshot. -/
theorem apply_event (workflow : WorkflowInstance) (event : WorkflowInstanceEvent) :
    applyWorkflowInstanceEvent (d.workflow workflow) (d.event event) =
      (applyWorkflowInstanceEvent workflow event).map d.workflow := by
  cases event with
  | workflowCreated _ | workflowStatusChanged _ | verifierStateUpserted _ _ => rfl
  | taskEarlyExitSet _ _ | taskStatusChanged _ _ | taskInputDataSet _ _
  | taskInputMappingSet _ _ | taskOutputRecorded _ _ | taskSatisfactionChanged _ _
  | taskVerifierMetadataSet _ _ =>
      refine Commutes.taskMut ?_ workflow _
      exact fun _ => rfl
  | verifierFeedbackRecorded id _ | verifierStateStatusChanged id _ _ _ =>
      simp only [event, applyWorkflowInstanceEvent, verifierStateMut]
      rw [show (d.workflow workflow).verifierStates.lookup id = workflow.verifierStates.lookup id
        from rfl]
      cases workflow.verifierStates.lookup id <;> rfl
  | taskRetryRequested id => exact resetFailedTaskForRetry_workflow workflow id
  | startupRecoveryApplied ids =>
      let recover (workflow : WorkflowInstance) (id : String) :=
        taskMut workflow id TaskInstance.recovered
      have hFold (workflow : WorkflowInstance) : ids.foldlM recover (d.workflow workflow) =
          (ids.foldlM recover workflow).map d.workflow :=
        foldlM_map (fun workflow id => commutes_recovered.taskMut workflow id) workflow ids
      simp only [event, applyWorkflowInstanceEvent]
      by_cases hStatus : workflow.status = .running
      · rw [if_pos hStatus, if_pos (show (d.workflow workflow).status = _ from hStatus)]
        exact hFold { workflow with status := .pending }
      · rw [if_neg hStatus, if_neg (show ¬(d.workflow workflow).status = _ from hStatus)]
        exact hFold workflow
  | taskMaterialized id task =>
      simp only [event, applyWorkflowInstanceEvent, lookup_workflow_tasks]
      cases workflow.tasks.lookup id with
      | some _ => rfl
      | none => simp only [Option.map_none, Except.map, FieldDecoding.workflow,
        FiniteMap.mapValues_insert]
  | humanInputSubmitted id continuationId input =>
      simp only [event, applyWorkflowInstanceEvent, lookup_workflow_tasks]
      cases workflow.tasks.lookup id with
      | none => rfl
      | some task =>
          let generation := continuationGeneration task.generationIndex
          change (if (!task.status.isInputNeeded) = true then _
            else if continuationId ≠ makeTaskAttemptId task.taskDefId generation then _ else _) = _
          by_cases hWaiting : (!task.status.isInputNeeded) = true
          · rw [if_pos hWaiting]
            dsimp only
            rw [if_pos hWaiting]
            rfl
          · rw [if_neg hWaiting]
            dsimp only
            rw [if_neg hWaiting]
            by_cases hId : continuationId ≠ makeTaskAttemptId task.taskDefId generation
            · rw [if_pos hId, if_pos hId]
              rfl
            · rw [if_neg hId, if_neg hId]
              cases workflow.tasks.lookup continuationId with
              | some _ => rfl
              | none =>
                  have hFresh : d.task (continuationTask task.taskDefId generation input) =
                      continuationTask task.taskDefId generation input := by
                    simp only [FieldDecoding.task, continuationTask, TaskInstance.fresh,
                      d.outputData_none]
                    rfl
                  simp only [Option.map_none, Except.map, FieldDecoding.workflow,
                    FiniteMap.mapValues_insert]
                  rw [hFresh]
                  rfl
  | taskForceRetryRequested id previous target lost =>
      simp only [event, applyWorkflowInstanceEvent, resetFailedTaskForRetry_workflow]
      change (if workflow.pinnedWorkerHost ≠ previous then _ else _) = _
      split
      · rfl
      · split
        · rfl
        · cases resetFailedTaskForRetry workflow id <;> rfl

/-- Decoding commutes with the reducer: decoded events on the decoded instance
give the decoded result, and they fail together. -/
theorem reduce_event (current : Option WorkflowInstance) (events : List WorkflowInstanceEvent) :
    reduceWorkflowInstanceEvents (current.map d.workflow) (events.map d.event) =
      (reduceWorkflowInstanceEvents current events).map d.workflow := by
  have hFold (workflow : WorkflowInstance) (events : List WorkflowInstanceEvent) :
      (events.map d.event).foldlM applyWorkflowInstanceEvent (d.workflow workflow) =
        (events.foldlM applyWorkflowInstanceEvent workflow).map d.workflow := by
    rw [List.foldlM_map]
    exact foldlM_map apply_event workflow events
  cases current with
  | some workflow => exact hFold workflow events
  | none =>
      cases events with
      | nil => rfl
      | cons event rest =>
          cases event with
          | workflowCreated workflow => exact hFold workflow rest
          | _ => rfl

/-- Decoding every value but the human inputs, which a submission records as
they are. -/
def fields : FieldDecoding := ⟨decodedField, decodedField, decodedField, rfl⟩

/-- The columns keep the text of a value; only what is nested in the metadata
is decoded. -/
def columns : FieldDecoding := ⟨id, id, decodedField, rfl⟩

/-- What the columns of the attempt metadata have lost, the decoding of its
JSON fields would have lost as well. -/
theorem metadata_fields_columns (metadata : VerifierAttemptMetadata) :
    fields.metadata (columns.metadata metadata) = fields.metadata metadata := by
  simp only [FieldDecoding.metadata, fields, columns, decodedField_decodedField]

/-- The same for a whole attempt: decoding the columns first makes no further
difference. -/
theorem task_fields_columns (task : TaskInstance) :
    fields.task (columns.task task) = fields.task task := by
  simp only [FieldDecoding.task, Option.map_map, Function.comp_def, metadata_fields_columns]
  rfl

theorem workflow_fields_columns (workflow : WorkflowInstance) :
    fields.workflow (columns.workflow workflow) = fields.workflow workflow := by
  have hTasks : (workflow.tasks.mapValues columns.task).mapValues fields.task =
      workflow.tasks.mapValues fields.task := by
    refine Finmap.ext_lookup fun id => ?_
    rw [FiniteMap.lookup_mapValues, FiniteMap.lookup_mapValues, FiniteMap.lookup_mapValues,
      Option.map_map]
    exact Option.map_congr fun task _ => task_fields_columns task
  simp only [FieldDecoding.workflow, hTasks]
  rfl

theorem event_fields_columns (event : WorkflowInstanceEvent) :
    fields.event (columns.event event) = fields.event event := by
  cases event with
  | workflowCreated workflow => exact congrArg WorkflowInstanceEvent.workflowCreated (workflow_fields_columns workflow)
  | taskMaterialized id task => exact congrArg (WorkflowInstanceEvent.taskMaterialized id) (task_fields_columns task)
  | taskVerifierMetadataSet id metadata =>
      simp only [FieldDecoding.event, Option.map_map, Function.comp_def, metadata_fields_columns]
  | _ => rfl

end FieldDecoding

/-- The attempt a derived decoder reads. -/
def TaskInstance.decoded (task : TaskInstance) : TaskInstance :=
  { FieldDecoding.fields.task task with humanInput := decodedField task.humanInput }

def WorkflowInstance.decoded (workflow : WorkflowInstance) : WorkflowInstance :=
  { workflow with
    triggerInput := decodedField workflow.triggerInput
    tasks := workflow.tasks.mapValues TaskInstance.decoded }

/-- The event read from an `event_json` text. A submitted input is a value, not
an optional one. -/
def WorkflowInstanceEvent.decoded : WorkflowInstanceEvent → WorkflowInstanceEvent
  | .workflowCreated workflow => .workflowCreated workflow.decoded
  | .taskMaterialized id task => .taskMaterialized id task.decoded
  | .taskOutputRecorded id outputData => .taskOutputRecorded id (decodedField outputData)
  | .taskVerifierMetadataSet id metadata =>
      .taskVerifierMetadataSet id (metadata.map FieldDecoding.fields.metadata)
  | event => event

/-- An attempt that the event brings with it has a null for its human input. -/
def WorkflowInstanceEvent.hasNullHumanInput : WorkflowInstanceEvent → Bool
  | .workflowCreated workflow => workflow.tasks.anyValue fun task => isNullField task.humanInput
  | .taskMaterialized _ task => isNullField task.humanInput
  | _ => false

/-- Without a null human input, reading an attempt back from its row loses only
what decoding loses of any field. -/
theorem TaskInstance.decoded_eq {task : TaskInstance} (h : isNullField task.humanInput = false) :
    task.decoded = FieldDecoding.fields.task task := by
  rw [decoded, decodedField_eq_self.mpr h]
  rfl

/-- The same for an event that carries no null human input. -/
theorem WorkflowInstanceEvent.decoded_eq {event : WorkflowInstanceEvent}
    (h : event.hasNullHumanInput = false) : event.decoded = FieldDecoding.fields.event event := by
  cases event with
  | workflowCreated workflow =>
      have hTasks : workflow.tasks.mapValues TaskInstance.decoded =
          workflow.tasks.mapValues FieldDecoding.fields.task := by
        refine Finmap.ext_lookup fun id => ?_
        rw [FiniteMap.lookup_mapValues, FiniteMap.lookup_mapValues]
        apply Option.map_congr
        intro task hTask
        apply TaskInstance.decoded_eq
        by_contra hNull
        rw [Bool.not_eq_false] at hNull
        have hAny : workflow.tasks.anyValue (fun task => isNullField task.humanInput) = true :=
          (FiniteMap.anyValue_iff _ _).mpr ⟨id, task, hTask, hNull⟩
        exact Bool.false_ne_true (h.symm.trans hAny)
      rw [decoded, WorkflowInstance.decoded, hTasks]
      rfl
  | taskMaterialized id task => exact congrArg _ (TaskInstance.decoded_eq h)
  | _ => rfl

end RelayFold
