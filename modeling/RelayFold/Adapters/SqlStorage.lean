import RelayFold.Adapters.MemoryStorage

/-! The SQL adapters (`sql_storage_common.rs`, `sqlite_storage.rs`,
`mysql_storage.rs`). Tables are finite maps by primary key, with the rows of
one instance grouped; a JSON column holds the value it encodes. -/
namespace RelayFold

def outOfRange : StorageError := .other "out of range integral type conversion attempted"

/-- `i64::try_from`: integer columns are signed. -/
def i64FromU64 (value : Nat) : Except StorageError Nat :=
  if value < 2 ^ 63 then .ok value else .error outOfRange

def optionalI64FromU64 : Option Nat → Except StorageError (Option Nat)
  | some value => (i64FromU64 value).map some
  | none => .ok none

def workflowStatusName : WorkflowStatus → String
  | .pending => "pending"
  | .running => "running"
  | .paused => "paused"
  | .inputNeeded => "input_needed"
  | .completed => "completed"
  | .failed => "failed"

def workflowStatusFromName : String → Except StorageError WorkflowStatus
  | "pending" => .ok .pending
  | "running" => .ok .running
  | "paused" => .ok .paused
  | "input_needed" => .ok .inputNeeded
  | "completed" => .ok .completed
  | "failed" => .ok .failed
  | value => .error (.other s!"unknown workflow status {value}")

theorem workflowStatusFromName_name (status : WorkflowStatus) :
    workflowStatusFromName (workflowStatusName status) = .ok status := by
  cases status <;> rfl

def taskStatusName : TaskStatus → String
  | .pending => "pending"
  | .running => "running"
  | .inputNeeded _ => "input_needed"
  | .completed => "completed"
  | .skipped => "skipped"
  | .failed => "failed"

structure WorkflowInstanceRow where
  workflowDefId : String
  version : Nat
  status : String
  triggerInputJson : Option Json
  pinnedWorkerHostId : Option String
  createdAtEpochMs : Nat
  modifiedAtEpochMs : Nat
  completedAtEpochMs : Option Nat

structure WorkflowTaskRow where
  taskDefId : String
  status : String
  statusJson : TaskStatus
  satisfactionStatus : TaskSatisfactionStatus
  generationIndex : Nat
  humanInputJson : Option Json
  earlyExit : Bool
  inputDataJson : List Json
  inputMappingJson : List TaskInputMapping
  outputDataJson : Option Json
  verifierMetadataJson : Option VerifierAttemptMetadata

structure SqlTables where
  workflowInstances : FiniteMap ResourceKey WorkflowInstanceRow
  workflowTasks : FiniteMap ResourceKey (FiniteMap String WorkflowTaskRow)
  workflowVerifierStates : FiniteMap ResourceKey (FiniteMap String VerifierGenerationState)
  workflowEvents : FiniteMap ResourceKey (FiniteMap Nat WorkflowEventRecord)

def WorkflowTaskRow.ofTask (task : TaskInstance) : WorkflowTaskRow where
  taskDefId := task.taskDefId
  status := taskStatusName task.status
  statusJson := task.status
  satisfactionStatus := task.satisfactionStatus
  generationIndex := task.generationIndex
  humanInputJson := task.humanInput
  earlyExit := task.earlyExit
  inputDataJson := task.inputData
  inputMappingJson := task.inputMapping
  outputDataJson := task.outputData
  verifierMetadataJson := task.verifierMetadata

/-- The attempt a row is read back as; the `status` name is for queries
only. -/
def WorkflowTaskRow.toTask (row : WorkflowTaskRow) : TaskInstance where
  taskDefId := row.taskDefId
  status := row.statusJson
  satisfactionStatus := row.satisfactionStatus
  earlyExit := row.earlyExit
  humanInput := row.humanInputJson
  inputData := row.inputDataJson
  inputMapping := row.inputMappingJson
  outputData := row.outputDataJson
  generationIndex := row.generationIndex
  verifierMetadata := row.verifierMetadataJson

namespace SqlTables

def new : SqlTables := ⟨∅, ∅, ∅, ∅⟩

def taskRows (tables : SqlTables) (key : ResourceKey) : FiniteMap String WorkflowTaskRow :=
  (tables.workflowTasks.lookup key).getD ∅

def verifierRows (tables : SqlTables) (key : ResourceKey) :
    FiniteMap String VerifierGenerationState :=
  (tables.workflowVerifierStates.lookup key).getD ∅

def eventRows (tables : SqlTables) (key : ResourceKey) : FiniteMap Nat WorkflowEventRecord :=
  (tables.workflowEvents.lookup key).getD ∅

def getWorkflowInstance (ns : Namespace) (id : String) (tables : SqlTables) :
    Except StorageError (Option WorkflowInstance) :=
  let key := resourceKey ns id
  match tables.workflowInstances.lookup key with
  | none => .ok none
  | some row => do
      let status ← workflowStatusFromName row.status
      return some {
        id := id
        workflowDefId := row.workflowDefId
        version := row.version
        status := status
        triggerInput := row.triggerInputJson
        pinnedWorkerHost := row.pinnedWorkerHostId.map WorkerHostId.mk
        tasks := (tables.taskRows key).mapValues WorkflowTaskRow.toTask
        verifierStates := tables.verifierRows key }

/-- The row bound by the `INSERT` of an instance. -/
def instanceRow (workflow : WorkflowInstance) (version createdAtEpochMs modifiedAtEpochMs : Nat)
    (completedAtEpochMs : Option Nat) : Except StorageError WorkflowInstanceRow := do
  let version ← i64FromU64 version
  let createdAt ← i64FromU64 createdAtEpochMs
  let modifiedAt ← i64FromU64 modifiedAtEpochMs
  let completedAt ← optionalI64FromU64 completedAtEpochMs
  return {
    workflowDefId := workflow.workflowDefId
    version := version
    status := workflowStatusName workflow.status
    triggerInputJson := workflow.triggerInput
    pinnedWorkerHostId := workflow.pinnedWorkerHost.map (·.value)
    createdAtEpochMs := createdAt
    modifiedAtEpochMs := modifiedAt
    completedAtEpochMs := completedAt }

/-- On a conflict every column but the creation time is overwritten. -/
def upsertWorkflowInstance (ns : Namespace) (workflow : WorkflowInstance)
    (createdAtEpochMs modifiedAtEpochMs : Nat) (completedAtEpochMs : Option Nat)
    (tables : SqlTables) : Except StorageError SqlTables := do
  let key := resourceKey ns workflow.id
  let row ← instanceRow workflow workflow.version createdAtEpochMs modifiedAtEpochMs
    completedAtEpochMs
  let createdAt := ((tables.workflowInstances.lookup key).map (·.createdAtEpochMs)).getD
    row.createdAtEpochMs
  return { tables with
    workflowInstances :=
      tables.workflowInstances.insert key { row with createdAtEpochMs := createdAt } }

/-- Insert the events from a sequence number on; a taken number violates the
primary key. -/
def insertEvents (key : ResourceKey) : Nat → List WorkflowEventRecord → SqlTables →
    Except StorageError SqlTables
  | _, [], tables => .ok tables
  | sequence, event :: events, tables => do
      let sequenceColumn ← i64FromU64 sequence
      let createdTime ← i64FromU64 event.createdTime
      match (tables.eventRows key).lookup sequenceColumn with
      | some _ => throw (.other "UNIQUE constraint failed: workflow_events")
      | none =>
          let rows := (tables.eventRows key).insert sequenceColumn
            { event with createdTime := createdTime }
          insertEvents key (sequence + 1) events
            { tables with workflowEvents := tables.workflowEvents.insert key rows }

def upsertTask (key : ResourceKey) (taskAttemptId : String) (task : TaskInstance)
    (tables : SqlTables) : SqlTables :=
  { tables with
    workflowTasks := tables.workflowTasks.insert key
      ((tables.taskRows key).insert taskAttemptId (.ofTask task)) }

def missingTaskError (taskAttemptId workflowInstanceId : String) : StorageError :=
  .other s!"event identified task attempt {taskAttemptId} but it is missing from workflow instance {workflowInstanceId}"

/-- Write the row of one attempt of the saved snapshot. -/
def persistTask (ns : Namespace) (workflow : WorkflowInstance) (tables : SqlTables)
    (taskAttemptId : String) : Except StorageError SqlTables :=
  match workflow.tasks.lookup taskAttemptId with
  | none => .error (missingTaskError taskAttemptId workflow.id)
  | some task => .ok (tables.upsertTask (resourceKey ns workflow.id) taskAttemptId task)

/-- Write the rows of the attempts the batch names, or of all when the instance
is new. -/
def persistTaskChanges (ns : Namespace) (workflow : WorkflowInstance)
    (events : List WorkflowEventRecord) (isNewInstance : Bool) (tables : SqlTables) :
    Except StorageError SqlTables :=
  let taskAttemptIds :=
    if isNewInstance then workflow.tasks.sortedKeys else changedTaskAttemptIds events
  taskAttemptIds.foldlM (persistTask ns workflow) tables

/-- Delete the instance's verifier rows and insert one for each state. -/
def replaceVerifierStates (ns : Namespace) (workflow : WorkflowInstance) (tables : SqlTables) :
    SqlTables :=
  { tables with
    workflowVerifierStates :=
      tables.workflowVerifierStates.insert (resourceKey ns workflow.id) workflow.verifierStates }

end SqlTables

/-- Run a transaction: an error rolls every table back. -/
def transaction (body : SqlTables → Except StorageError SqlTables) : StorageM SqlTables Unit := do
  match body (← get) with
  | .ok tables => set tables
  | .error error => throw error

/-- Reads run outside the transactions that write. -/
def readInstance (ns : Namespace) (id : String) : StorageM SqlTables (Option WorkflowInstance) := do
  match SqlTables.getWorkflowInstance ns id (← get) with
  | .ok found => return found
  | .error error => throw error

def readClock (clock : Clock) : Except StorageError Nat :=
  match clock with
  | .ok now => .ok now
  | .error message => .error (.other message)

namespace SqliteStorage

open SqlTables

def saveWorkflowInstance (ns : Namespace) (expectedVersion : Nat)
    (events : List WorkflowEventRecord) (workflow : WorkflowInstance) (clock : Clock) :
    StorageM SqlTables Unit :=
  transaction fun tables => do
    let key := resourceKey ns workflow.id
    let existing := tables.workflowInstances.lookup key
    let actualVersion := (existing.map (·.version)).getD 0
    if actualVersion ≠ expectedVersion then
      throw (.workflowVersionConflict workflow.id expectedVersion actualVersion)
    let now ← readClock clock
    let createdFromEvents := (events.head?.map (·.createdTime)).getD now
    let modifiedAt := (events.getLast?.map (·.createdTime)).getD createdFromEvents
    let createdAt := (existing.map (·.createdAtEpochMs)).getD createdFromEvents
    let completedAt :=
      (existing.bind (·.completedAtEpochMs)).or (workflowCompletedAt workflow modifiedAt)
    let tables ← upsertWorkflowInstance ns workflow createdAt modifiedAt completedAt tables
    let tables ← insertEvents key (expectedVersion + 1) events tables
    let tables ← persistTaskChanges ns workflow events existing.isNone tables
    return replaceVerifierStates ns workflow tables

def port : StoragePort SqlTables := ⟨readInstance, saveWorkflowInstance⟩

end SqliteStorage

namespace MySqlStorage

open SqlTables

/-- Insert a row of version 0 for a missing instance; report whether it was
missing. -/
def claimWorkflowInstance (ns : Namespace) (workflow : WorkflowInstance)
    (createdAtEpochMs modifiedAtEpochMs : Nat) (tables : SqlTables) :
    Except StorageError (Bool × SqlTables) := do
  let key := resourceKey ns workflow.id
  let row ← instanceRow workflow 0 createdAtEpochMs modifiedAtEpochMs
    (workflowCompletedAt workflow modifiedAtEpochMs)
  match tables.workflowInstances.lookup key with
  | some _ => return (false, tables)
  | none =>
      return (true, { tables with workflowInstances := tables.workflowInstances.insert key row })

def saveWorkflowInstance (ns : Namespace) (expectedVersion : Nat)
    (events : List WorkflowEventRecord) (workflow : WorkflowInstance) (clock : Clock) :
    StorageM SqlTables Unit :=
  transaction fun tables => do
    let key := resourceKey ns workflow.id
    let now ← readClock clock
    let createdFromEvents := (events.head?.map (·.createdTime)).getD now
    let modifiedAt := (events.getLast?.map (·.createdTime)).getD createdFromEvents
    let (isNewInstance, tables) ←
      claimWorkflowInstance ns workflow createdFromEvents modifiedAt tables
    match tables.workflowInstances.lookup key with
    | none => throw (.other "no rows returned by a query that expected to return at least one row")
    | some existing =>
        if existing.version ≠ expectedVersion then
          throw (.workflowVersionConflict workflow.id expectedVersion existing.version)
        let completedAt :=
          existing.completedAtEpochMs.or (workflowCompletedAt workflow modifiedAt)
        let tables ← insertEvents key (expectedVersion + 1) events tables
        let tables ← upsertWorkflowInstance ns workflow existing.createdAtEpochMs modifiedAt
          completedAt tables
        let tables ← persistTaskChanges ns workflow events isNewInstance tables
        return replaceVerifierStates ns workflow tables

def port : StoragePort SqlTables := ⟨readInstance, saveWorkflowInstance⟩

end MySqlStorage

end RelayFold
