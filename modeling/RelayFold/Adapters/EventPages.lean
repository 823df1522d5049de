import RelayFold.Adapters.CommitHistories
import RelayFold.Adapters.WorkflowListing
import RelayFold.Library.PageEnumeration

/-! The event list of an instance, page by page
(`list_workflow_instance_events`): the in-memory store counts positions, SQLite
compares sequence numbers. -/
namespace RelayFold

open FallibleFold PageEnumeration SqlTables

def MemoryStorage.listWorkflowInstanceEvents (ns : Namespace) (workflowInstanceId : String)
    (page : PageRequest Nat) (storage : MemoryStorage) : Page WorkflowEventRecord Nat :=
  let all := storage.eventsOf (resourceKey ns workflowInstanceId)
  if page.limit = 0 then ⟨[], none⟩
  else
    let start := page.cursor.getD 0
    let selected := (all.drop start).take (page.limit + 1)
    let hasMore := page.limit < selected.length
    let events := selected.take page.limit
    { items := events
      nextCursor := if hasMore then some (start + events.length) else none }

/-- The query binds the cursor and one more than the limit, both as signed
integers. -/
def SqliteStorage.listWorkflowInstanceEvents (ns : Namespace) (workflowInstanceId : String)
    (page : PageRequest Nat) (tables : SqlTables) :
    Except StorageError (Page WorkflowEventRecord Nat) :=
  if page.limit = 0 then .ok ⟨[], none⟩
  else do
    let cursor ← i64FromU64 (page.cursor.getD 0)
    let limit ← i64FromU64 (page.limit + 1)
    let rows := ((tables.eventRows (resourceKey ns workflowInstanceId)).toList.filter
      fun row => cursor < row.1).take limit
    let hasMore := page.limit < rows.length
    let selected := rows.take page.limit
    return {
      items := selected.map (·.2.decoded)
      nextCursor := if hasMore then selected.getLast?.map (·.1) else none }

/-! ### Null fields -/

/-- An optional value of the attempt is null. -/
def TaskInstance.hasNullField (task : TaskInstance) : Bool :=
  isNullField task.outputData || isNullField task.humanInput ||
    task.verifierMetadata.any fun metadata => isNullField metadata.verifierOutput

/-- An optional value of the event is null. -/
def WorkflowInstanceEvent.hasNullField : WorkflowInstanceEvent → Bool
  | .workflowCreated workflow =>
      isNullField workflow.triggerInput || workflow.tasks.anyValue (·.hasNullField)
  | .taskMaterialized _ task => task.hasNullField
  | .taskOutputRecorded _ outputData => isNullField outputData
  | .taskVerifierMetadataSet _ metadata =>
      metadata.any fun metadata => isNullField metadata.verifierOutput
  | _ => false

/-- The metadata of a verdict are read back as written unless the verifier's
output is an explicit null. -/
theorem metadata_decoded_eq_self {metadata : Option VerifierAttemptMetadata} :
    metadata.map FieldDecoding.fields.metadata = metadata ↔
      metadata.any (fun metadata => isNullField metadata.verifierOutput) = false := by
  cases metadata with
  | none => simp
  | some metadata =>
      rw [Option.map_some, Option.some_inj, Option.any_some, ← decodedField_eq_self]
      constructor
      · exact fun h => congrArg VerifierAttemptMetadata.verifierOutput h
      · intro h
        change { metadata with verifierOutput := decodedField metadata.verifierOutput } = metadata
        rw [h]

/-- An attempt is read back as written unless one of its JSON fields is an
explicit null. -/
theorem TaskInstance.decoded_eq_self {task : TaskInstance} :
    task.decoded = task ↔ task.hasNullField = false := by
  rw [hasNullField, Bool.or_eq_false_iff, Bool.or_eq_false_iff, ← decodedField_eq_self,
    ← decodedField_eq_self, ← metadata_decoded_eq_self]
  constructor
  · intro h
    exact ⟨⟨congrArg TaskInstance.outputData h, congrArg TaskInstance.humanInput h⟩,
      congrArg TaskInstance.verifierMetadata h⟩
  · rintro ⟨⟨hOutput, hHuman⟩, hMetadata⟩
    change { task with
      outputData := decodedField task.outputData
      humanInput := decodedField task.humanInput
      verifierMetadata := task.verifierMetadata.map FieldDecoding.fields.metadata } = task
    rw [hOutput, hHuman, hMetadata]

/-- The same for all attempts of an instance. -/
theorem tasks_decoded_eq_self {tasks : FiniteMap String TaskInstance} :
    tasks.mapValues TaskInstance.decoded = tasks ↔ tasks.anyValue (·.hasNullField) = false := by
  constructor
  · intro h
    by_contra hNull
    rw [Bool.not_eq_false, FiniteMap.anyValue_iff] at hNull
    obtain ⟨id, task, hTask, hField⟩ := hNull
    have hSame := congrArg (fun tasks => tasks.lookup id) h
    rw [FiniteMap.lookup_mapValues, hTask, Option.map_some, Option.some_inj,
      TaskInstance.decoded_eq_self, hField] at hSame
    cases hSame
  · intro h
    refine Finmap.ext_lookup fun id => ?_
    rw [FiniteMap.lookup_mapValues]
    cases hTask : tasks.lookup id with
    | none => rfl
    | some task =>
        rw [Option.map_some, Option.some_inj, TaskInstance.decoded_eq_self]
        by_contra hNull
        rw [Bool.not_eq_false] at hNull
        have hAny : tasks.anyValue (·.hasNullField) = true :=
          (FiniteMap.anyValue_iff _ _).mpr ⟨id, task, hTask, hNull⟩
        exact Bool.false_ne_true (h.symm.trans hAny)

/-- Reading an event back from its text changes it exactly when it holds a
null. -/
theorem WorkflowInstanceEvent.decoded_eq_self {event : WorkflowInstanceEvent} :
    event.decoded = event ↔ event.hasNullField = false := by
  cases event with
  | workflowCreated workflow =>
      rw [hasNullField, Bool.or_eq_false_iff, ← decodedField_eq_self, ← tasks_decoded_eq_self]
      rw [decoded, WorkflowInstanceEvent.workflowCreated.injEq]
      constructor
      · exact fun h => ⟨congrArg WorkflowInstance.triggerInput h, congrArg WorkflowInstance.tasks h⟩
      · rintro ⟨hTrigger, hTasks⟩
        rw [WorkflowInstance.decoded, hTrigger, hTasks]
  | taskMaterialized id task =>
      rw [hasNullField, ← TaskInstance.decoded_eq_self, decoded]
      simp
  | taskOutputRecorded id outputData =>
      rw [hasNullField, ← decodedField_eq_self, decoded]
      simp
  | taskVerifierMetadataSet id metadata =>
      rw [hasNullField, ← metadata_decoded_eq_self, decoded]
      simp
  | _ => simp [decoded, hasNullField]

/-! ### Pages -/

section

variable {ns : Namespace} {id : String} {limit : Nat} {cursor : Option Nat}

end

namespace MirroredClients

/-- An attempt that answers, and its answer recorded. -/
def answeredActions (output : Json) : List StorageClients.Action :=
  [.read .global "w-1",
    .commit 0 [.workflowCreated (.created "w-1" "w" ⟨"host"⟩ none)] (.ok 10) (.ok 11),
    .commit 0 [.taskMaterialized "a[1]" (.fresh "a" 1), .taskOutputRecorded "a[1]" (some output)]
      (.ok 20) (.ok 21)]

/-- An instance that has been answered can be built with any output. -/
theorem answeredActions_runs (output : Json) :
    (runActions SqliteStorage.port (answeredActions output)).isSome = true := by
  rfl

def answered (output : Json) : MirroredClients × List CommitRecord :=
  (runActions SqliteStorage.port (answeredActions output)).get (answeredActions_runs output)

end MirroredClients

end RelayFold
