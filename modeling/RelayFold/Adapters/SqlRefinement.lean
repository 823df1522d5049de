import RelayFold.Adapters.MemoryStorageRuns
import RelayFold.Adapters.SqlSaves

/-! The SQL adapters refine the in-memory store: fed the same commits, a SQL
store reassembles the snapshot the in-memory store holds. -/
namespace RelayFold

open SqlTables WorkflowStateManager

/-- The tables hold every instance of the in-memory store, row by row. -/
structure Mirrors (memory : MemoryStorage) (tables : SqlTables) : Prop where
  missing : ∀ key, memory.workflowInstances.lookup key = none →
    tables.workflowInstances.lookup key = none
  row : ∀ key workflow, memory.workflowInstances.lookup key = some workflow →
    ∃ row, tables.workflowInstances.lookup key = some row ∧ RowOf workflow row
  dated : ∀ key row, tables.workflowInstances.lookup key = some row → row.Dated
  task : ∀ key id, (tables.taskRows key).lookup id =
    ((memory.workflowInstances.lookup key).bind (·.tasks.lookup id)).map WorkflowTaskRow.ofTask
  verifier : ∀ key, tables.verifierRows key =
    ((memory.workflowInstances.lookup key).map (·.verifierStates)).getD ∅
  event : ∀ key sequence, ((tables.eventRows key).lookup sequence).isSome = true →
    sequence ≤ memory.versionAt key

namespace Mirrors

variable {memory memory' : MemoryStorage} {tables tables' : SqlTables}

/-- Empty tables mirror the empty store. -/
theorem init : Mirrors MemoryStorage.new SqlTables.new where
  missing _ _ := rfl
  row _ _ h := by cases h
  dated _ _ h := by cases h
  task _ _ := rfl
  verifier _ := rfl
  event _ _ h := by cases h

/-- Both stores hold the same version of every instance. -/
theorem version (h : Mirrors memory tables) (key : ResourceKey) :
    ((tables.workflowInstances.lookup key).map (·.version)).getD 0 = memory.versionAt key := by
  unfold MemoryStorage.versionAt
  cases hMemory : memory.workflowInstances.lookup key with
  | none =>
      rw [h.missing key hMemory]
      rfl
  | some workflow =>
      obtain ⟨row, hRow, hOf⟩ := h.row key workflow hMemory
      rw [hRow]
      exact hOf.version

/-- A mirrored instance is read back as the snapshot the in-memory store
holds. -/
theorem getWorkflowInstance (h : Mirrors memory tables) (ns : Namespace) (id : String)
    (hKeyed : ∀ workflow, memory.getWorkflowInstance ns id = some workflow → workflow.id = id) :
    SqlTables.getWorkflowInstance ns id tables = .ok (memory.getWorkflowInstance ns id) := by
  unfold SqlTables.getWorkflowInstance
  dsimp only
  cases hMemory : memory.workflowInstances.lookup (resourceKey ns id) with
  | none =>
      rw [h.missing _ hMemory, MemoryStorage.getWorkflowInstance, hMemory]
  | some workflow =>
      obtain ⟨row, hRow, hOf⟩ := h.row _ workflow hMemory
      have hId := hKeyed workflow hMemory
      have hTasks : (tables.taskRows (resourceKey ns id)).mapValues WorkflowTaskRow.toTask =
          workflow.tasks := by
        refine Finmap.ext_lookup fun attempt => ?_
        rw [FiniteMap.lookup_mapValues, h.task, hMemory, Option.bind_some, Option.map_map]
        exact Option.map_id'
      have hVerifiers := h.verifier (resourceKey ns id)
      rw [hMemory, Option.map_some, Option.getD_some] at hVerifiers
      rw [hRow]
      dsimp only
      rw [hOf.status, workflowStatusFromName_name, hOf.workflowDefId, hOf.version,
        hOf.triggerInput, hOf.pin, hTasks, hVerifiers, MemoryStorage.getWorkflowInstance,
        hMemory, ← hId]
      rfl

/-- The tables before an accepted commit are as its save assumes: the rows are
those of the snapshot the batch was reduced on, so the ones it does not name
are current. -/
theorem savable (h : Mirrors memory tables) {ns : Namespace} {current : Option WorkflowInstance}
    {records : List WorkflowEventRecord} {reduced : WorkflowInstance} (hNonempty : records ≠ [])
    (hReduce : reduceWorkflowInstanceEvents current (records.map (·.event)) = .ok reduced)
    (hStored : memory.workflowInstances.lookup (resourceKey ns reduced.id) = current) :
    let base := (current.map (·.version)).getD 0
    Savable ns base records (reduced.withVersion (base + records.length)) tables := by
  intro base
  have hVersion : memory.versionAt (resourceKey ns reduced.id) = base := by
    rw [MemoryStorage.versionAt, hStored]
  constructor
  · exact (h.version _).trans hVersion
  · rfl
  · exact hNonempty
  · exact h.dated _
  · intro sequence hSome
    exact (h.event _ sequence hSome).trans_eq hVersion
  · intro hMissing id
    have hTask := h.task (resourceKey ns reduced.id) id
    cases hMemory : memory.workflowInstances.lookup (resourceKey ns reduced.id) with
    | none => exact hTask.trans (by rw [hMemory]; rfl)
    | some workflow =>
        obtain ⟨row, hRow, _⟩ := h.row _ workflow hMemory
        exact absurd (hRow.symm.trans hMissing) (Option.some_ne_none row)
  all_goals
    intro hPresent id hId
    cases current with
    | none => exact absurd (h.missing _ hStored) hPresent
    | some workflow =>
        have hChanged := foldlM_changed hReduce
        first
          | exact hChanged.present id hId
          | have hTask := h.task (resourceKey ns reduced.id) id
            rw [hStored, Option.bind_some, ← hChanged.unchanged id hId] at hTask
            exact hTask

/-- Tables that have taken over a save mirror the store that has. -/
theorem saved (h : Mirrors memory tables) {ns : Namespace} {records : List WorkflowEventRecord}
    {updated : WorkflowInstance} {info : WorkflowInfo}
    (hTables : SavedTables (resourceKey ns updated.id) updated tables tables') :
    Mirrors (memory.saved ns records updated info) tables' := by
  have hLookup (key : ResourceKey) :
      (memory.saved ns records updated info).workflowInstances.lookup key =
        if key = resourceKey ns updated.id then some updated
        else memory.workflowInstances.lookup key := FiniteMap.lookup_insert_eq ..
  constructor
  · intro key hMissing
    rw [hLookup] at hMissing
    split at hMissing
    · cases hMissing
    · rename_i hKey
      rw [(hTables.other key hKey).1]
      exact h.missing key hMissing
  · intro key workflow hStored
    rw [hLookup] at hStored
    split at hStored
    · rename_i hKey
      cases hStored
      obtain ⟨row, hOf, _, hRow⟩ := hTables.row
      exact ⟨row, hKey ▸ hRow, hOf⟩
    · rename_i hKey
      rw [(hTables.other key hKey).1]
      exact h.row key workflow hStored
  · intro key row hRow
    obtain ⟨saved, _, hDated, hSaved⟩ := hTables.row
    by_cases hKey : key = resourceKey ns updated.id
    · rw [hKey, hSaved] at hRow
      exact Option.some.inj hRow ▸ hDated
    · rw [(hTables.other key hKey).1] at hRow
      exact h.dated key row hRow
  · intro key id
    rw [hLookup]
    split
    · rename_i hKey
      rw [hKey, hTables.task]
      rfl
    · rename_i hKey
      rw [(hTables.other key hKey).2.1]
      exact h.task key id
  · intro key
    rw [hLookup]
    split
    · rename_i hKey
      rw [hKey, hTables.verifier]
      rfl
    · rename_i hKey
      rw [(hTables.other key hKey).2.2.1]
      exact h.verifier key
  · intro key sequence hSome
    rw [MemoryStorage.versionAt, hLookup]
    split
    · rename_i hKey
      rw [hKey] at hSome
      exact hTables.event sequence hSome
    · rename_i hKey
      rw [(hTables.other key hKey).2.2.2] at hSome
      exact h.event key sequence hSome

end Mirrors

/-- The clock shows a time that a signed column cannot hold. -/
def LateClock (clock : Clock) : Prop :=
  ∃ time, clock = .ok time ∧ 2 ^ 63 ≤ time

/-- The outcome of a commit against SQL tables next to the in-memory one. The
integer columns are signed, so that only a version or a time from `2^63` on is
refused for its size; any other refusal is the one of the in-memory store,
unless the storage's own clock cannot be read. -/
def Agrees (clock storageClock : Clock) :
    Except StorageError WorkflowInstance → Except StorageError WorkflowInstance → Prop
  | .ok updated, .ok updated' => updated' = updated
  | .ok updated, .error error =>
      error = outOfRange ∧ (2 ^ 63 ≤ updated.version ∨ LateClock clock)
  | .error error, .error error' =>
      error' = error ∨ (error' = outOfRange ∧ LateClock clock) ∨ ∃ message, storageClock = .error message
  | .error _, .ok _ => False

section

variable {port : StoragePort SqlTables} {memory : MemoryStorage} {tables : SqlTables}

/-- All events of a batch have the time of the state manager's clock. -/
theorem lateClock_of_event {events : List WorkflowInstanceEvent} {time : Nat} {clock : Clock}
    (hClock : clock = .ok time) (hLate : LateEvent (events.map (WorkflowEventRecord.mk time))) :
    LateClock clock := by
  obtain ⟨record, hRecord, hLarge⟩ := hLate
  obtain ⟨event, _, rfl⟩ := List.mem_map.mp hRecord
  exact ⟨time, hClock, hLarge⟩

/-- A commit on the stored snapshot has the same outcome in both stores, unless
an integer does not fit its column, and leaves them mirrored. -/
theorem Mirrors.commit (h : Mirrors memory tables) (hPort : SqlAdapter port) (ns : Namespace)
    (current : Option WorkflowInstance) (events : List WorkflowInstanceEvent)
    (clock storageClock : Clock)
    (hStored : ∀ updated memory', Accepted ns current events memory memory' updated →
      memory.workflowInstances.lookup (resourceKey ns updated.id) = current) :
    let inMemory := (commitEventsForCurrent MemoryStorage.port ns current events clock
      storageClock).run.run memory
    let inSql := (commitEventsForCurrent port ns current events clock storageClock).run.run tables
    Agrees clock storageClock inMemory.1 inSql.1 ∧
      (inMemory.1.isOk = inSql.1.isOk → Mirrors inMemory.2 inSql.2) := by
  intro inMemory inSql
  rcases commitEventsForCurrent_saves ns current events clock storageClock with
    ⟨error, hRun⟩ | ⟨reduced, createdTime, hClock, hNonempty, hReduce, hRun⟩
  · have hMemory : inMemory = (.error error, memory) := hRun _ MemoryStorage.port memory
    have hSql : inSql = (.error error, tables) := hRun _ port tables
    rw [hMemory, hSql]
    exact ⟨.inl rfl, fun _ => h⟩
  · let base := (current.map (·.version)).getD 0
    let records := events.map (WorkflowEventRecord.mk createdTime)
    let updated := reduced.withVersion (base + events.length)
    have hRecords : records.map (·.event) = events := by
      simp [records, Function.comp_def]
    have hRecorded : records ≠ [] := fun hNil => hNonempty (List.map_eq_nil_iff.mp hNil)
    have hMemoryRun : inMemory = ((MemoryStorage.saveWorkflowInstance ns base records updated
      storageClock).run.run memory).map (·.map fun _ => updated) id := hRun _ _ memory
    have hSqlRun : inSql = ((port.saveWorkflowInstance ns base records updated
      storageClock).run.run tables).map (·.map fun _ => updated) id := hRun _ _ tables
    cases storageClock with
    | error message =>
        obtain ⟨error, hSave⟩ := MemoryStorage.saveWorkflowInstance_clock_error ns memory base
          records updated message
        obtain ⟨error', hSave'⟩ := hPort.unclocked ns base records updated message tables
        rw [hMemoryRun, hSqlRun, hSave, hSave']
        exact ⟨.inr (.inr ⟨message, rfl⟩), fun _ => h⟩
    | ok now =>
        by_cases hVersion : memory.versionAt (resourceKey ns updated.id) = base
        · obtain ⟨info, hSave, _⟩ := MemoryStorage.saveWorkflowInstance_ok records now hVersion
          have hMemory : inMemory = (.ok updated, memory.saved ns records updated info) := by
            rw [hMemoryRun, hSave]
            rfl
          have hCurrent := hStored updated _ ⟨hNonempty, hVersion, ⟨reduced, hReduce, rfl⟩,
            records, info, hRecords, rfl⟩
          have hReplay : reduceWorkflowInstanceEvents current (records.map (·.event)) =
              .ok reduced := by rw [hRecords]; exact hReduce
          have hSavable : Savable ns base records updated tables := by
            have hLength : records.length = events.length := List.length_map _
            simpa only [hLength] using h.savable hRecorded hReplay hCurrent
          rcases hPort.saves hSavable now with ⟨tables', hSql, hTables⟩ | ⟨hSql, hLarge⟩
          · rw [hMemory, hSqlRun, hSql]
            exact ⟨rfl, fun _ => h.saved hTables⟩
          · rw [hMemory, hSqlRun, hSql]
            exact ⟨⟨rfl, hLarge.imp_right (lateClock_of_event hClock)⟩, fun hOk => nomatch hOk⟩
        · -- The stored version is the same in both stores, and neither has the expected one.
          obtain ⟨error, hSql, hError⟩ := hPort.refuses ns base records updated now tables _
            (h.version _) hVersion hRecorded
          rw [hMemoryRun, MemoryStorage.saveWorkflowInstance_conflict hVersion, hSqlRun, hSql]
          exact ⟨hError.imp_right fun hLate => .inl ⟨hLate.1, lateClock_of_event hClock hLate.2⟩,
            fun _ => h⟩

end

/-- Clients of the in-memory store whose commits a SQL store also receives. -/
structure MirroredClients where
  clients : StorageClients
  tables : SqlTables

/-- The message about a missing attempt is none of the other refusals of a
batch. -/
theorem outOfRange_ne_missing (taskAttemptId workflowInstanceId : String) :
    outOfRange ≠ missingTaskError taskAttemptId workflowInstanceId := by
  intro h
  have hHead := congrArg (fun text : String => text.toList.head?) (StorageError.other.inj h)
  simp [toString, String.toList_append] at hHead

theorem emptyBatch_ne_missing (taskAttemptId workflowInstanceId : String) :
    StorageError.other "event batch must not be empty" ≠
      missingTaskError taskAttemptId workflowInstanceId := by
  intro h
  have hSeventh := congrArg (fun text : String => text.toList[6]?) (StorageError.other.inj h)
  simp [toString, String.toList_append] at hSeventh

namespace MirroredClients

variable (port : StoragePort SqlTables)

def initial : MirroredClients := ⟨StorageClients.initial, SqlTables.new⟩

/-- A commit on a client's snapshot, as the SQL store carries it out. -/
def commitSql (stores : MirroredClients) (ns : Namespace) (current : Option WorkflowInstance)
    (events : List WorkflowInstanceEvent) (clock storageClock : Clock) :
    Except StorageError WorkflowInstance × SqlTables :=
  (commitEventsForCurrent port ns current events clock storageClock).run.run stores.tables

def commitMemory (stores : MirroredClients) (ns : Namespace) (current : Option WorkflowInstance)
    (events : List WorkflowInstanceEvent) (clock storageClock : Clock) :
    Except StorageError WorkflowInstance × MemoryStorage :=
  (commitEventsForCurrent MemoryStorage.port ns current events clock storageClock).run.run
    stores.clients.storage

/-- A sequence of commits goes on while both stores accept the same ones. -/
def step (stores : MirroredClients) (action : StorageClients.Action) : Option MirroredClients :=
  match action with
  | .read _ _ => (stores.clients.step action).map (⟨·, stores.tables⟩)
  | .commit snapshot events clock storageClock => do
      let (ns, current) ← stores.clients.held[snapshot]?
      let (accepted, tables) := stores.commitSql port ns current events clock storageClock
      if (stores.commitMemory ns current events clock storageClock).1.isOk = accepted.isOk then
        (stores.clients.step action).map (⟨·, tables⟩)
      else none

structure Inv (stores : MirroredClients) : Prop where
  clients : stores.clients.Inv
  mirrors : Mirrors stores.clients.storage stores.tables

variable {port} {stores stores' : MirroredClients}

/-- A commit on both stores keeps them mirrored. -/
theorem Inv.commit (h : stores.Inv) (hPort : SqlAdapter port) {ns : Namespace}
    {current : Option WorkflowInstance} (hHeld : (ns, current) ∈ stores.clients.held)
    (events : List WorkflowInstanceEvent) (clock storageClock : Clock) :
    let inMemory := stores.commitMemory ns current events clock storageClock
    let inSql := stores.commitSql port ns current events clock storageClock
    Agrees clock storageClock inMemory.1 inSql.1 ∧
      (inMemory.1.isOk = inSql.1.isOk → Mirrors inMemory.2 inSql.2) :=
  h.mirrors.commit hPort ns current events clock storageClock fun _ _ hAccepted =>
    h.clients.base_stored hHeld hAccepted

/-- So does every action of a client. -/
theorem Inv.step (h : stores.Inv) (hPort : SqlAdapter port) (action : StorageClients.Action)
    (hStep : stores.step port action = some stores') : stores'.Inv := by
  cases action with
  | read ns id =>
      cases hStep
      exact ⟨h.clients.read ns id, h.mirrors⟩
  | commit snapshot events clock storageClock =>
      simp only [MirroredClients.step] at hStep
      obtain ⟨⟨ns, current⟩, hSnapshot, hStep⟩ := Option.bind_eq_some_iff.mp hStep
      dsimp only at hStep
      split at hStep
      · rename_i hOk
        obtain ⟨clients', hClients, rfl⟩ := Option.map_eq_some_iff.mp hStep
        have hMirrors := (h.commit hPort (List.mem_of_getElem? hSnapshot) events clock
          storageClock).2 hOk
        refine ⟨h.clients.step _ hClients, ?_⟩
        simp only [StorageClients.step, hSnapshot] at hClients
        dsimp only [bind, Option.bind] at hClients
        rw [← commitMemory] at hClients
        rcases hMemory : stores.commitMemory ns current events clock storageClock with
          ⟨error | updated, storage⟩
        · rw [hMemory] at hClients hMirrors
          cases hClients
          exact hMirrors
        · rw [hMemory] at hClients hMirrors
          cases hClients
          exact hMirrors
      · cases hStep

/-- A batch that the reducer accepts is refused in memory for its version, or
because it is empty. -/
theorem commitMemory_refused {ns : Namespace} {current : Option WorkflowInstance}
    {events : List WorkflowInstanceEvent} {time now : Nat} {reduced : WorkflowInstance}
    {error : StorageError} (hReduce : reduceWorkflowInstanceEvents current events = .ok reduced)
    (h : (stores.commitMemory ns current events (.ok time) (.ok now)).1 = .error error) :
    error = .other "event batch must not be empty" ∨ ∃ id expectedVersion actualVersion,
      error = .workflowVersionConflict id expectedVersion actualVersion := by
  by_cases hEmpty : events = []
  · subst hEmpty
    exact .inl (Except.error.inj h).symm
  · let base := (current.map (·.version)).getD 0
    let records := events.map (WorkflowEventRecord.mk time)
    let updated := reduced.withVersion (base + events.length)
    have hRun : stores.commitMemory ns current events (.ok time) (.ok now) =
        ((MemoryStorage.saveWorkflowInstance ns base records updated (.ok now)).run.run
          stores.clients.storage).map (·.map fun _ => updated) id :=
      commitEventsForCurrent_reduced MemoryStorage.port hEmpty hReduce time (.ok now) _
    by_cases hVersion : stores.clients.storage.versionAt (resourceKey ns updated.id) = base
    · obtain ⟨info, hSave, _⟩ := MemoryStorage.saveWorkflowInstance_ok records now hVersion
      rw [hRun, hSave] at h
      cases h
    · rw [hRun, MemoryStorage.saveWorkflowInstance_conflict hVersion] at h
      exact .inr ⟨_, _, _, (Except.error.inj h).symm⟩

/-- What a SQL store promises of the next commit of a client, whatever the
state: the outcome is the one in memory, and a batch that the reducer accepts
never names an attempt that is missing. -/
structure CommitRefines (port : StoragePort SqlTables) (stores : MirroredClients) (ns : Namespace)
    (current : Option WorkflowInstance) (events : List WorkflowInstanceEvent)
    (clock storageClock : Clock) : Prop where
  agrees : Agrees clock storageClock (stores.commitMemory ns current events clock storageClock).1
    (stores.commitSql port ns current events clock storageClock).1
  /-- The text of a clock's error is free, so that both clocks are readable here. -/
  named : ∀ reduced time now taskAttemptId id,
    reduceWorkflowInstanceEvents current events = .ok reduced → clock = .ok time →
    storageClock = .ok now →
      (stores.commitSql port ns current events clock storageClock).1 ≠
        .error (missingTaskError taskAttemptId id)

/-- Each commit is accepted or refused alike, except where an integer does not
fit its column. -/
theorem Inv.commitRefines (h : stores.Inv) (hPort : SqlAdapter port) {ns : Namespace}
    {current : Option WorkflowInstance} (hHeld : (ns, current) ∈ stores.clients.held)
    (events : List WorkflowInstanceEvent) (clock storageClock : Clock) :
    CommitRefines port stores ns current events clock storageClock := by
  have hAgrees := (h.commit hPort hHeld events clock storageClock).1
  refine ⟨hAgrees, ?_⟩
  rintro reduced time now taskAttemptId id hReduce rfl rfl hMissing
  rw [hMissing] at hAgrees
  rcases hMemory : (stores.commitMemory ns current events (.ok time) (.ok now)).1 with
    error | updated
  · rw [hMemory] at hAgrees
    rcases hAgrees with hSame | ⟨hRange, _⟩ | ⟨_, hClock⟩
    · rcases commitMemory_refused hReduce hMemory with rfl | ⟨_, _, _, rfl⟩
      · exact emptyBatch_ne_missing _ _ hSame.symm
      · cases hSame
    · exact outOfRange_ne_missing _ _ hRange.symm
    · cases hClock
  · rw [hMemory] at hAgrees
    exact outOfRange_ne_missing _ _ hAgrees.1.symm

/-- After any commits, a SQL store reads back every instance exactly as the
in-memory store holds it, and a further commit has the same outcome in both. -/
theorem sql_refines_memory (hPort : port = SqliteStorage.port ∨ port = MySqlStorage.port)
    {actions : List StorageClients.Action}
    (hRun : Run (fun stores action stores' => stores.step port action = some stores')
      initial actions stores) :
    (∀ ns id, SqlTables.getWorkflowInstance ns id stores.tables =
      .ok (stores.clients.storage.getWorkflowInstance ns id)) ∧
      ∀ ns current events clock storageClock, (ns, current) ∈ stores.clients.held →
        CommitRefines port stores ns current events clock storageClock := by
  have hAdapter : SqlAdapter port := by
    rcases hPort with rfl | rfl
    · exact SqliteStorage.adapter
    · exact MySqlStorage.adapter
  have hInv : stores.Inv := hRun.invariant ⟨StorageClients.Inv.init, Mirrors.init⟩
    fun _ action _ h hStep => h.step hAdapter action hStep
  constructor
  · intro ns id
    exact hInv.mirrors.getWorkflowInstance ns id fun workflow => hInv.clients.keyed ns id workflow
  · intro ns current events clock storageClock hHeld
    exact hInv.commitRefines hAdapter hHeld events clock storageClock

/-- Three commits: two attempts appear, and the last batch changes one of
them. -/
def mirroredActions : List StorageClients.Action :=
  [.read .global "w-1",
    .commit 0 [.workflowCreated (.created "w-1" "w" ⟨"host"⟩ none)] (.ok 10) (.ok 11),
    .commit 0 [.taskMaterialized "a[1]" (.fresh "a" 1), .taskMaterialized "b[1]" (.fresh "b" 1)]
      (.ok 20) (.ok 21),
    .commit 0 [.taskStatusChanged "a[1]" .completed] (.ok 30) (.ok 31)]

theorem mirroredActions_run :
    (mirroredActions.foldlM (step SqliteStorage.port) initial).isSome = true ∧
      (mirroredActions.foldlM (step MySqlStorage.port) initial).isSome = true := by
  decide +kernel

/-- The status of an attempt as the tables read it back. -/
def readStatus (stores : MirroredClients) (taskAttemptId : String) : Option TaskStatus :=
  match SqlTables.getWorkflowInstance .global "w-1" stores.tables with
  | .ok (some found) => (found.tasks.lookup taskAttemptId).map (·.status)
  | _ => none

/-- Both adapters accept the three commits, read back the change of the last
batch and the attempt that it leaves alone, and carry out a fourth commit as
the in-memory store does. -/
theorem sql_refines_memory_mirrored :
    (∃ stores, mirroredActions.foldlM (step SqliteStorage.port) initial = some stores ∧
      stores.readStatus "a[1]" = some .completed ∧ stores.readStatus "b[1]" = some .pending ∧
      ∀ ns current, (ns, current) ∈ stores.clients.held → CommitRefines SqliteStorage.port stores
        ns current [.taskStatusChanged "b[1]" .running] (.ok 40) (.ok 41)) ∧
    ∃ stores, mirroredActions.foldlM (step MySqlStorage.port) initial = some stores ∧
      stores.readStatus "a[1]" = some .completed ∧ stores.readStatus "b[1]" = some .pending ∧
      ∀ ns current, (ns, current) ∈ stores.clients.held → CommitRefines MySqlStorage.port stores
        ns current [.taskStatusChanged "b[1]" .running] (.ok 40) (.ok 41) := by
  constructor
  · have hLast := (Option.some_get mirroredActions_run.1).symm
    obtain ⟨hRead, hNext⟩ := sql_refines_memory (.inl rfl) (Run.of_foldlM hLast)
    refine ⟨_, hLast, ?_, ?_, fun ns current => hNext ns current _ _ _⟩
    all_goals
      rw [readStatus, hRead]
      decide +kernel
  · have hLast := (Option.some_get mirroredActions_run.2).symm
    obtain ⟨hRead, hNext⟩ := sql_refines_memory (.inr rfl) (Run.of_foldlM hLast)
    refine ⟨_, hLast, ?_, ?_, fun ns current => hNext ns current _ _ _⟩
    all_goals
      rw [readStatus, hRead]
      decide +kernel

end MirroredClients

end RelayFold
