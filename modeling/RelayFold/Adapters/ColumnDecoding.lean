import RelayFold.Core.FieldDecoding
import RelayFold.Adapters.PointReads

/-! The columns of the SQL tables as they are read. A value nested in a column
is decoded with it; what a save does to the tables does not depend on when that
happens. -/
namespace RelayFold

open FieldDecoding FallibleFold SqlTables WorkflowStateManager

def WorkflowTaskRow.decoded (row : WorkflowTaskRow) : WorkflowTaskRow :=
  { row with verifierMetadataJson := row.verifierMetadataJson.map columns.metadata }

def WorkflowEventRecord.columnsDecoded (record : WorkflowEventRecord) : WorkflowEventRecord :=
  { record with event := columns.event record.event }

/-- The tables with each column as its text is read back. -/
def SqlTables.decoded (tables : SqlTables) : SqlTables :=
  { tables with
    workflowTasks := tables.workflowTasks.mapValues (·.mapValues WorkflowTaskRow.decoded)
    workflowEvents := tables.workflowEvents.mapValues
      (·.mapValues WorkflowEventRecord.columnsDecoded) }

variable {tables : SqlTables} {ns : Namespace} {workflow : WorkflowInstance}

/-- The task rows of the decoded tables are the rows of the tables, decoded one
by one. -/
theorem taskRows_decoded (tables : SqlTables) (key : ResourceKey) :
    tables.decoded.taskRows key = (tables.taskRows key).mapValues WorkflowTaskRow.decoded := by
  rw [taskRows, taskRows, SqlTables.decoded, FiniteMap.lookup_mapValues]
  cases tables.workflowTasks.lookup key <;> rfl

theorem eventRows_decoded (tables : SqlTables) (key : ResourceKey) :
    tables.decoded.eventRows key =
      (tables.eventRows key).mapValues WorkflowEventRecord.columnsDecoded := by
  rw [eventRows, eventRows, SqlTables.decoded, FiniteMap.lookup_mapValues]
  cases tables.workflowEvents.lookup key <;> rfl

/-- Writing the instance row and decoding the columns may be done in either
order: the row holds no JSON. -/
theorem upsertWorkflowInstance_decoded (created modified : Nat) (completed : Option Nat) :
    upsertWorkflowInstance ns (columns.workflow workflow) created modified completed
        tables.decoded =
      (upsertWorkflowInstance ns workflow created modified completed tables).map
        SqlTables.decoded := by
  simp only [upsertWorkflowInstance]
  change (instanceRow workflow workflow.version created modified completed >>= _) = _
  cases instanceRow workflow workflow.version created modified completed <;> rfl

/-- The same for the event rows, where each event is decoded on its own. -/
theorem insertEvents_decoded (key : ResourceKey) (start : Nat)
    (events : List WorkflowEventRecord) (tables : SqlTables) :
    insertEvents key start (events.map WorkflowEventRecord.columnsDecoded) tables.decoded =
      (insertEvents key start events tables).map SqlTables.decoded := by
  induction events generalizing start tables with
  | nil => rfl
  | cons event events ih =>
      simp only [List.map_cons, insertEvents]
      cases i64FromU64 start with
      | error error => rfl
      | ok sequence =>
          change (i64FromU64 event.createdTime >>= _) = Except.map _ (i64FromU64 event.createdTime >>= _)
          cases i64FromU64 event.createdTime with
          | error error => rfl
          | ok createdTime =>
              simp only [bind, Except.bind]
              rw [eventRows_decoded, FiniteMap.lookup_mapValues]
              cases (tables.eventRows key).lookup sequence with
              | some _ => rfl
              | none =>
                  dsimp only [Option.map_none]
                  rw [← ih]
                  congr 1
                  simp only [SqlTables.decoded, FiniteMap.mapValues_insert]
                  rfl

/-- Which attempts a batch has changed does not depend on the contents of its
columns. -/
theorem changedTaskAttemptIds_decoded (events : List WorkflowEventRecord) :
    changedTaskAttemptIds (events.map WorkflowEventRecord.columnsDecoded) =
      changedTaskAttemptIds events := by
  rw [changedTaskAttemptIds, changedTaskAttemptIds, List.flatMap_map]
  apply List.flatMap_congr
  intro record _
  cases hEvent : record.event with
  | workflowCreated workflow =>
      simp only [WorkflowEventRecord.columnsDecoded, hEvent]
      exact FiniteMap.sortedKeys_mapValues columns.task workflow.tasks
  | _ => simp only [WorkflowEventRecord.columnsDecoded, hEvent]; rfl

/-- A task row is written decoded, or decoded after it was written. -/
theorem upsertTask_decoded (key : ResourceKey) (taskAttemptId : String) (task : TaskInstance)
    (tables : SqlTables) :
    tables.decoded.upsertTask key taskAttemptId (columns.task task) =
      (tables.upsertTask key taskAttemptId task).decoded := by
  simp only [upsertTask]
  rw [taskRows_decoded]
  simp only [SqlTables.decoded, FiniteMap.mapValues_insert]
  rfl

/-- By induction over the changed attempts, the same for all rows that a save
touches. -/
theorem persistTaskChanges_decoded (events : List WorkflowEventRecord) (isNewInstance : Bool)
    (tables : SqlTables) :
    persistTaskChanges ns (columns.workflow workflow)
        (events.map WorkflowEventRecord.columnsDecoded) isNewInstance tables.decoded =
      (persistTaskChanges ns workflow events isNewInstance tables).map SqlTables.decoded := by
  have hIds : (columns.workflow workflow).tasks.sortedKeys = workflow.tasks.sortedKeys :=
    FiniteMap.sortedKeys_mapValues columns.task workflow.tasks
  simp only [persistTaskChanges, changedTaskAttemptIds_decoded, hIds]
  apply foldlM_map
  intro tables taskAttemptId
  simp only [persistTask, lookup_workflow_tasks]
  cases workflow.tasks.lookup taskAttemptId with
  | none => rfl
  | some task => exact congrArg Except.ok (upsertTask_decoded _ taskAttemptId task tables)

/-- A transaction commutes with decoding if its body does; an error rolls both
back. -/
theorem transaction_decoded {body body' : SqlTables → Except StorageError SqlTables}
    (h : body' tables.decoded = (body tables).map SqlTables.decoded) :
    (transaction body').run.run tables.decoded =
      Prod.map id SqlTables.decoded ((transaction body).run.run tables) := by
  rw [transaction_run, transaction_run, h]
  cases body tables <;> rfl

/-- Saving the decoded snapshot in the decoded tables decodes the tables
saved. -/
def SavesDecoded (port : StoragePort SqlTables) : Prop :=
  ∀ ns expectedVersion events workflow clock (tables : SqlTables),
    (port.saveWorkflowInstance ns expectedVersion
        (events.map WorkflowEventRecord.columnsDecoded) (columns.workflow workflow)
        clock).run.run tables.decoded =
      Prod.map id SqlTables.decoded
        ((port.saveWorkflowInstance ns expectedVersion events workflow clock).run.run tables)

/-- The times of a batch are no JSON, so the first of them is not affected. -/
theorem head_time_decoded (events : List WorkflowEventRecord) :
    (events.map WorkflowEventRecord.columnsDecoded).head?.map (·.createdTime) =
      events.head?.map (·.createdTime) := by
  cases events <;> rfl

theorem last_time_decoded (events : List WorkflowEventRecord) :
    (events.map WorkflowEventRecord.columnsDecoded).getLast?.map (·.createdTime) =
      events.getLast?.map (·.createdTime) := by
  rw [List.getLast?_map, Option.map_map]
  rfl

/-- A save of SQLite commutes with the decoding of the columns. -/
theorem SqliteStorage.saves_decoded : SavesDecoded SqliteStorage.port := by
  intro ns expectedVersion events workflow clock tables
  apply transaction_decoded
  simp only [head_time_decoded, last_time_decoded]
  let existing := tables.workflowInstances.lookup (resourceKey ns workflow.id)
  change (if (existing.map (·.version)).getD 0 ≠ expectedVersion then _ else _) = Except.map _
    (if (existing.map (·.version)).getD 0 ≠ expectedVersion then _ else _)
  by_cases hVersion : (existing.map (·.version)).getD 0 ≠ expectedVersion
  · rw [if_pos hVersion, if_pos hVersion]
    rfl
  · rw [if_neg hVersion, if_neg hVersion]
    refine bind_map (f := id) (by cases readClock clock <;> rfl) fun now => ?_
    refine bind_map (upsertWorkflowInstance_decoded ..) fun tables => ?_
    refine bind_map (insertEvents_decoded ..) fun tables => ?_
    exact bind_map (persistTaskChanges_decoded ..) fun tables => rfl

/-- The row claim that MySQL makes first commutes with decoding as well. -/
theorem claimWorkflowInstance_decoded (created modified : Nat) (tables : SqlTables) :
    MySqlStorage.claimWorkflowInstance ns (columns.workflow workflow) created modified
        tables.decoded =
      (MySqlStorage.claimWorkflowInstance ns workflow created modified tables).map
        (Prod.map id SqlTables.decoded) := by
  simp only [MySqlStorage.claimWorkflowInstance]
  refine bind_map (f := id) ?_ fun row => ?_
  · change instanceRow workflow 0 created modified (workflowCompletedAt workflow modified) = _
    cases instanceRow workflow 0 created modified (workflowCompletedAt workflow modified) <;> rfl
  · rw [show tables.decoded.workflowInstances.lookup (resourceKey ns (columns.workflow workflow).id) =
      tables.workflowInstances.lookup (resourceKey ns workflow.id) from rfl]
    cases tables.workflowInstances.lookup (resourceKey ns workflow.id) <;> rfl

/-- A save of MySQL, claim included, commutes with the decoding of the
columns. -/
theorem MySqlStorage.saves_decoded : SavesDecoded MySqlStorage.port := by
  intro ns expectedVersion events workflow clock tables
  apply transaction_decoded
  simp only [head_time_decoded, last_time_decoded]
  refine bind_map (f := id) (by cases readClock clock <;> rfl) fun now => ?_
  refine bind_map (claimWorkflowInstance_decoded ..) fun ⟨isNewInstance, tables⟩ => ?_
  dsimp only [Prod.map_fst, Prod.map_snd, id]
  rw [show tables.decoded.workflowInstances.lookup (resourceKey ns (columns.workflow workflow).id) =
    tables.workflowInstances.lookup (resourceKey ns workflow.id) from rfl]
  cases tables.workflowInstances.lookup (resourceKey ns workflow.id) with
  | none => rfl
  | some existing =>
      dsimp only
      by_cases hVersion : existing.version ≠ expectedVersion
      · rw [if_pos hVersion, if_pos hVersion]
        rfl
      · rw [if_neg hVersion, if_neg hVersion]
        refine bind_map (insertEvents_decoded ..) fun tables => ?_
        refine bind_map (upsertWorkflowInstance_decoded ..) fun tables => ?_
        exact bind_map (persistTaskChanges_decoded ..) fun tables => rfl

/-- A commit of decoded events on a decoded snapshot is the commit, decoded. -/
theorem SavesDecoded.commit {port : StoragePort SqlTables} (hPort : SavesDecoded port)
    (ns : Namespace) (current : Option WorkflowInstance) (events : List WorkflowInstanceEvent)
    (clock storageClock : Clock) (tables : SqlTables) :
    (commitEventsForCurrent port ns (current.map columns.workflow) (events.map columns.event)
        clock storageClock).run.run tables.decoded =
      Prod.map (·.map columns.workflow) SqlTables.decoded
        ((commitEventsForCurrent port ns current events clock storageClock).run.run tables) := by
  cases events with
  | nil => rfl
  | cons event rest =>
      have hReduce := reduce_event (d := columns) current (event :: rest)
      have hVersion : ((current.map columns.workflow).map (·.version)).getD 0 =
          (current.map (·.version)).getD 0 := by cases current <;> rfl
      rw [List.map_cons] at hReduce ⊢
      unfold commitEventsForCurrent
      dsimp only [List.isEmpty_cons]
      rw [hReduce, hVersion]
      cases reduceWorkflowInstanceEvents current (event :: rest) with
      | error message => rfl
      | ok reduced =>
          cases clock with
          | error message => rfl
          | ok createdTime =>
              let base := (current.map (·.version)).getD 0
              let updated := { reduced with version := base + (event :: rest).length }
              let records := (event :: rest).map (WorkflowEventRecord.mk createdTime)
              have hSave := hPort ns base records updated storageClock tables
              have hRecords : (columns.event event :: rest.map columns.event).map
                  (WorkflowEventRecord.mk createdTime) =
                  records.map WorkflowEventRecord.columnsDecoded := by
                simp [records, WorkflowEventRecord.columnsDecoded, Function.comp_def]
              have hUpdated : { columns.workflow reduced with
                  version := base + (columns.event event :: rest.map columns.event).length } =
                  columns.workflow updated := by
                simp [updated, FieldDecoding.workflow]
              change (port.saveWorkflowInstance ns base ((columns.event event ::
                rest.map columns.event).map (WorkflowEventRecord.mk createdTime)) { columns.workflow
                  reduced with version := base + (columns.event event ::
                    rest.map columns.event).length } storageClock >>= fun _ => pure _).run.run
                  tables.decoded = Prod.map _ _ ((port.saveWorkflowInstance ns base records updated
                    storageClock >>= fun _ => pure updated).run.run tables)
              rw [hRecords, hUpdated, ExceptT.run_bind, StateT.run_bind, ExceptT.run_bind,
                StateT.run_bind, hSave]
              rcases (port.saveWorkflowInstance ns base records updated storageClock).run.run tables
                with ⟨_ | _, _⟩ <;> rfl

end RelayFold
