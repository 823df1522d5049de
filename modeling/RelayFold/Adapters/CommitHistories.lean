import RelayFold.Adapters.EventLogReplay

/-! The commits that both an in-memory and a SQL store accepted, in order, and
what they leave in the summaries, the event lists and the rows. -/
namespace RelayFold

open FallibleFold SqlTables WorkflowStateManager

/-! ### The row a SQL save leaves -/

/-- The dates of an instance row. -/
structure RowDates where
  createdAtEpochMs : Nat
  modifiedAtEpochMs : Nat
  completedAtEpochMs : Option Nat

def WorkflowInstanceRow.dates (row : WorkflowInstanceRow) : RowDates where
  createdAtEpochMs := row.createdAtEpochMs
  modifiedAtEpochMs := row.modifiedAtEpochMs
  completedAtEpochMs := row.completedAtEpochMs

/-- The dates a save writes: those of the batch, with the earlier ones carried
forward. -/
def savedDates (existing : Option RowDates) (events : List WorkflowEventRecord)
    (workflow : WorkflowInstance) (now : Nat) : RowDates :=
  let created := (events.head?.map (·.createdTime)).getD now
  let modified := (events.getLast?.map (·.createdTime)).getD created
  { createdAtEpochMs := (existing.map (·.createdAtEpochMs)).getD created
    modifiedAtEpochMs := modified
    completedAtEpochMs :=
      (existing.bind (·.completedAtEpochMs)).or (workflowCompletedAt workflow modified) }

section

variable {ns : Namespace} {workflow : WorkflowInstance} {tables tables' : SqlTables}

/-- A number that is accepted for a column is stored as it is. -/
theorem optionalI64FromU64_ok {value column : Option Nat}
    (h : optionalI64FromU64 value = .ok column) : column = value := by
  cases value with
  | none =>
      cases h
      rfl
  | some value =>
      rw [optionalI64FromU64] at h
      cases hValue : i64FromU64 value with
      | error error =>
          rw [hValue] at h
          cases h
      | ok found =>
          rw [hValue] at h
          cases h
          rw [i64FromU64_ok hValue]

/-- The row of an instance holds the name of its status and the dates that were
computed for it. -/
theorem instanceRow_ok {version created modified : Nat} {completed : Option Nat}
    {row : WorkflowInstanceRow}
    (h : instanceRow workflow version created modified completed = .ok row) :
    row.status = workflowStatusName workflow.status ∧ row.dates = ⟨created, modified, completed⟩ := by
  obtain ⟨_, _, h⟩ := bind_ok.mp h
  obtain ⟨_, hCreated, h⟩ := bind_ok.mp h
  obtain ⟨_, hModified, h⟩ := bind_ok.mp h
  obtain ⟨_, hCompleted, h⟩ := bind_ok.mp h
  cases h
  rw [WorkflowInstanceRow.dates, i64FromU64_ok hCreated, i64FromU64_ok hModified,
    optionalI64FromU64_ok hCompleted]
  exact ⟨rfl, rfl⟩

/-- The upsert keeps the time of creation that an existing row has, and
replaces the rest. -/
theorem upsertWorkflowInstance_ok {created modified : Nat} {completed : Option Nat}
    (h : upsertWorkflowInstance ns workflow created modified completed tables = .ok tables') :
    ∃ row, row.status = workflowStatusName workflow.status ∧
      row.dates = ⟨((tables.workflowInstances.lookup (resourceKey ns workflow.id)).map
        (·.createdAtEpochMs)).getD created, modified, completed⟩ ∧
      tables'.workflowInstances =
        tables.workflowInstances.insert (resourceKey ns workflow.id) row := by
  obtain ⟨row, hRow, h⟩ := bind_ok.mp h
  cases h
  obtain ⟨hStatus, hDates⟩ := instanceRow_ok hRow
  let createdAt := ((tables.workflowInstances.lookup (resourceKey ns workflow.id)).map
    (·.createdAtEpochMs)).getD row.createdAtEpochMs
  refine ⟨{ row with createdAtEpochMs := createdAt }, hStatus, ?_, rfl⟩
  cases hDates
  rfl

/-- Event rows are written without touching the instance rows. -/
theorem insertEvents_instances {key : ResourceKey} {start : Nat} {events : List WorkflowEventRecord}
    (h : insertEvents key start events tables = .ok tables') :
    tables'.workflowInstances = tables.workflowInstances := by
  induction events generalizing start tables with
  | nil =>
      cases h
      rfl
  | cons event events ih =>
      obtain ⟨_, _, h⟩ := bind_ok.mp h
      obtain ⟨_, _, h⟩ := bind_ok.mp h
      split at h
      · cases h
      · exact (@ih _ (start + 1) h).trans rfl

/-- The last sequence number of a batch fits its column. -/
theorem insertEvents_bounded {key : ResourceKey} {start : Nat} {events : List WorkflowEventRecord}
    (hNonempty : events ≠ []) (h : insertEvents key start events tables = .ok tables') :
    start + events.length ≤ 2 ^ 63 := by
  induction events generalizing start tables with
  | nil => exact absurd rfl hNonempty
  | cons event events ih =>
      obtain ⟨column, hColumn, h⟩ := bind_ok.mp h
      obtain ⟨createdTime, _, h⟩ := bind_ok.mp h
      rw [List.length_cons]
      split at h
      · cases h
      · cases events with
        | nil =>
            unfold i64FromU64 at hColumn
            split at hColumn
            · rw [List.length_nil]
              omega
            · cases hColumn
        | cons next rest =>
            have hRest := @ih _ (start + 1) (List.cons_ne_nil _ _) h
            omega

/-- So are task rows. -/
theorem persistTaskChanges_instances {events : List WorkflowEventRecord} {isNewInstance : Bool}
    (h : persistTaskChanges ns workflow events isNewInstance tables = .ok tables') :
    tables'.workflowInstances = tables.workflowInstances := by
  refine foldlM_rel (R := fun a b : SqlTables => b.workflowInstances = a.workflowInstances)
    (fun _ => rfl) (fun hFirst hRest => hRest.trans hFirst) ?_ h
  intro tables id tables' hStep
  unfold persistTask at hStep
  split at hStep
  · cases hStep
  · cases hStep
    rfl

/-- What an accepted save leaves in the row of its instance, and that it writes
no other row. -/
def DatesRows (port : StoragePort SqlTables) : Prop :=
  ∀ {ns expectedVersion events workflow clock} {tables tables' : SqlTables},
    (port.saveWorkflowInstance ns expectedVersion events workflow clock).run.run tables =
        (.ok (), tables') →
      ∃ now row, row.status = workflowStatusName workflow.status ∧
        row.dates = savedDates ((tables.workflowInstances.lookup
          (resourceKey ns workflow.id)).map (·.dates)) events workflow now ∧
        ∀ key, tables'.workflowInstances.lookup key =
          if key = resourceKey ns workflow.id then some row else tables.workflowInstances.lookup key

/-- SQLite dates a row by its first and last event and carries an earlier
completion over. -/
theorem SqliteStorage.datesRows : DatesRows SqliteStorage.port := by
  intro ns expectedVersion events workflow clock tables tables' h
  have hBody := transaction_ok h
  dsimp only at hBody
  split at hBody
  · cases hBody
  · obtain ⟨now, _, hBody⟩ := bind_ok.mp hBody
    obtain ⟨upserted, hUpsert, hBody⟩ := bind_ok.mp hBody
    obtain ⟨inserted, hInsert, hBody⟩ := bind_ok.mp hBody
    obtain ⟨persisted, hPersist, hBody⟩ := bind_ok.mp hBody
    cases hBody
    obtain ⟨row, hStatus, hDates, hRows⟩ := upsertWorkflowInstance_ok hUpsert
    refine ⟨now, row, hStatus, ?_, fun key => ?_⟩
    · rw [hDates]
      cases tables.workflowInstances.lookup (resourceKey ns workflow.id) <;> rfl
    · change persisted.workflowInstances.lookup key = _
      rw [persistTaskChanges_instances hPersist, insertEvents_instances hInsert, hRows,
        FiniteMap.lookup_insert_eq]

/-- Claiming inserts the row that the save then finds. -/
theorem claimWorkflowInstance_ok {created modified : Nat} {isNewInstance : Bool}
    (h : MySqlStorage.claimWorkflowInstance ns workflow created modified tables =
      .ok (isNewInstance, tables')) :
    ∃ row, (∀ key, tables'.workflowInstances.lookup key =
        if key = resourceKey ns workflow.id then some row
        else tables.workflowInstances.lookup key) ∧
      row.dates = ((tables.workflowInstances.lookup (resourceKey ns workflow.id)).map
        (·.dates)).getD ⟨created, modified, workflowCompletedAt workflow modified⟩ := by
  obtain ⟨row, hRow, h⟩ := bind_ok.mp h
  split at h
  · rename_i existing hExisting
    cases h
    refine ⟨existing, fun key => ?_, by rw [hExisting]; rfl⟩
    split
    · rename_i hKey
      rw [hKey, hExisting]
    · rfl
  · rename_i hMissing
    cases h
    refine ⟨row, fun key => FiniteMap.lookup_insert_eq .., ?_⟩
    rw [hMissing]
    exact (instanceRow_ok hRow).2

/-- MySQL does the same, although the row has been claimed before. -/
theorem MySqlStorage.datesRows : DatesRows MySqlStorage.port := by
  intro ns expectedVersion events workflow clock tables tables' h
  have hBody := transaction_ok h
  obtain ⟨now, _, hBody⟩ := bind_ok.mp hBody
  obtain ⟨⟨isNewInstance, claimed⟩, hClaim, hBody⟩ := bind_ok.mp hBody
  obtain ⟨claimedRow, hClaimed, hClaimedDates⟩ := claimWorkflowInstance_ok hClaim
  dsimp only at hBody
  rw [hClaimed, if_pos rfl] at hBody
  dsimp only at hBody
  split at hBody
  · cases hBody
  · obtain ⟨inserted, hInsert, hBody⟩ := bind_ok.mp hBody
    obtain ⟨upserted, hUpsert, hBody⟩ := bind_ok.mp hBody
    obtain ⟨persisted, hPersist, hBody⟩ := bind_ok.mp hBody
    cases hBody
    obtain ⟨row, hStatus, hDates, hRows⟩ := upsertWorkflowInstance_ok hUpsert
    rw [insertEvents_instances hInsert] at hDates hRows
    refine ⟨now, row, hStatus, ?_, fun key => ?_⟩
    · have hCreated : claimedRow.createdAtEpochMs = claimedRow.dates.createdAtEpochMs := rfl
      have hCompleted : claimedRow.completedAtEpochMs = claimedRow.dates.completedAtEpochMs := rfl
      rw [hDates, hClaimed, if_pos rfl, Option.map_some, Option.getD_some, hCreated, hCompleted,
        hClaimedDates]
      cases tables.workflowInstances.lookup (resourceKey ns workflow.id) with
      | none =>
          simp only [savedDates, Option.map_none, Option.getD_none, Option.bind_none, Option.none_or,
            Option.or_self]
      | some existing => rfl
    · change persisted.workflowInstances.lookup key = _
      rw [persistTaskChanges_instances hPersist, hRows, FiniteMap.lookup_insert_eq]
      split
      · rfl
      · rename_i hKey
        rw [hClaimed, if_neg hKey]

end

/-! ### Histories -/

/-- A commit that was accepted. -/
structure CommitRecord where
  key : ResourceKey
  time : Nat
  events : List WorkflowInstanceEvent
  updated : WorkflowInstance

def CommitRecord.records (commit : CommitRecord) : List WorkflowEventRecord :=
  commit.events.map (WorkflowEventRecord.mk commit.time)

/-- The commits on one instance. -/
def commitsOn (history : List CommitRecord) (key : ResourceKey) : List CommitRecord :=
  history.filter (·.key = key)

/-- A commit is the latest of its own instance and none of the others. -/
theorem commitsOn_append (history : List CommitRecord) (commit : CommitRecord) (key : ResourceKey) :
    commitsOn (history ++ [commit]) key =
      if key = commit.key then commitsOn history key ++ [commit] else commitsOn history key := by
  rw [commitsOn, List.filter_append]
  by_cases hKey : key = commit.key
  · rw [if_pos hKey, hKey]
    simp [commitsOn]
  · rw [if_neg hKey]
    simp [commitsOn, Ne.symm hKey]

/-- The dates after some commits on an instance. -/
def datesAfter (commits : List CommitRecord) : Option RowDates :=
  commits.foldl (fun dates commit => some (savedDates dates commit.records commit.updated
    commit.time)) none

/-- The dates of a nonempty batch do not depend on the store's clock. -/
theorem savedDates_clock {existing : Option RowDates} {events : List WorkflowEventRecord}
    (h : events ≠ []) (workflow : WorkflowInstance) (now now' : Nat) :
    savedDates existing events workflow now = savedDates existing events workflow now' := by
  cases events with
  | nil => exact absurd rfl h
  | cons event events => simp [savedDates, List.getLast?_cons]

def WorkflowInfo.dates (info : WorkflowInfo) : Option RowDates :=
  info.createdAtEpochMs.map fun created => ⟨created, info.modifiedAtEpochMs, info.completedAtEpochMs⟩

/-- The summary carries forward the dates that a row would. -/
theorem MemoryStorage.summary_dates (storage : MemoryStorage) (ns : Namespace)
    (events : List WorkflowEventRecord) (workflow : WorkflowInstance) (now : Nat)
    (hDated : ∀ info, storage.workflowInfos.lookup (resourceKey ns workflow.id) = some info →
      info.createdAtEpochMs.isSome = true) :
    (storage.summary ns events workflow now).dates = some (savedDates
      ((storage.workflowInfos.lookup (resourceKey ns workflow.id)).bind (·.dates)) events workflow
      now) := by
  unfold MemoryStorage.summary
  cases hInfo : storage.workflowInfos.lookup (resourceKey ns workflow.id) with
  | none => rfl
  | some info =>
      obtain ⟨created, hCreated⟩ := Option.isSome_iff_exists.mp (hDated info hInfo)
      simp only [WorkflowInfo.dates, savedDates, WorkflowInfo.fromInstanceWithTimestamps,
        Option.bind_some, hCreated, Option.map_some, Option.getD_some, Option.some_or]

namespace MirroredClients

/-- The commit an action makes, if the in-memory store accepts it. -/
def acceptedCommit (stores : MirroredClients) : StorageClients.Action → Option CommitRecord
  | .read _ _ => none
  | .commit snapshot events clock storageClock => do
      let (ns, current) ← stores.clients.held[snapshot]?
      let now ← clock.toOption
      let updated ← (stores.commitMemory ns current events clock storageClock).1.toOption
      return ⟨resourceKey ns updated.id, now, events, updated⟩

def recordCommit (stores : MirroredClients) (action : StorageClients.Action) (_ : MirroredClients)
    (history : List CommitRecord) : List CommitRecord :=
  history ++ (stores.acceptedCommit action).toList

/-- Runs of commits that both stores accept, with their history. -/
abbrev Steps (port : StoragePort SqlTables) : MirroredClients × List CommitRecord →
    List StorageClients.Action → MirroredClients × List CommitRecord → Prop :=
  Run (Run.Traced (fun stores action stores' => stores.step port action = some stores') recordCommit)

def runActions (port : StoragePort SqlTables) (actions : List StorageClients.Action) :
    Option (MirroredClients × List CommitRecord) :=
  actions.foldlM (fun p action => (p.1.step port action).map fun stores =>
    (stores, recordCommit p.1 action stores p.2)) (initial, [])

/-- What an accepted commit did to the two stores. -/
structure CommitDone (port : StoragePort SqlTables) (stores stores' : MirroredClients)
    (commit : CommitRecord) (ns : Namespace) (storageNow : Nat) : Prop where
  key : commit.key = resourceKey ns commit.updated.id
  nonempty : commit.events ≠ []
  memory : stores'.clients.storage = stores.clients.storage.saved ns commit.records commit.updated
    (stores.clients.storage.summary ns commit.records commit.updated storageNow)
  sql : (port.saveWorkflowInstance ns (stores.clients.storage.versionAt commit.key) commit.records
    commit.updated (.ok storageNow)).run.run stores.tables = (.ok (), stores'.tables)

variable {port : StoragePort SqlTables} {stores stores' : MirroredClients}

section

variable {snapshot : Nat} {ns : Namespace} {current : Option WorkflowInstance}
  {events : List WorkflowInstanceEvent} {clock storageClock : Clock}

/-- The record that the history keeps of a commit is made of what the memory
store answers. -/
theorem acceptedCommit_commit (hSnapshot : stores.clients.held[snapshot]? = some (ns, current)) :
    stores.acceptedCommit (.commit snapshot events clock storageClock) =
      clock.toOption.bind fun now =>
        (stores.commitMemory ns current events clock storageClock).1.toOption.bind fun updated =>
          some ⟨resourceKey ns updated.id, now, events, updated⟩ := by
  simp only [acceptedCommit, hSnapshot]
  rfl

/-- Both stores take the commit or both refuse it. -/
theorem step_commit (hSnapshot : stores.clients.held[snapshot]? = some (ns, current))
    (hStep : stores.step port (.commit snapshot events clock storageClock) = some stores') :
    (stores.commitMemory ns current events clock storageClock).1.isOk =
        (stores.commitSql port ns current events clock storageClock).1.isOk ∧
      stores'.clients.storage = (stores.commitMemory ns current events clock storageClock).2 ∧
      stores'.tables = (stores.commitSql port ns current events clock storageClock).2 := by
  simp only [MirroredClients.step, hSnapshot] at hStep
  dsimp only [bind, Option.bind] at hStep
  split at hStep
  · rename_i hOk
    obtain ⟨clients', hClients, rfl⟩ := Option.map_eq_some_iff.mp hStep
    refine ⟨hOk, ?_, rfl⟩
    simp only [StorageClients.step, hSnapshot] at hClients
    dsimp only [bind, Option.bind] at hClients
    rw [← commitMemory] at hClients
    rcases hMemory : stores.commitMemory ns current events clock storageClock with ⟨_ | _, storage⟩
    all_goals
      rw [hMemory] at hClients
      cases hClients
      rfl
  · cases hStep

/-- A commit that the in-memory store refuses leaves both stores as they
are. -/
theorem step_refused (hPort : port = SqliteStorage.port ∨ port = MySqlStorage.port)
    (hSnapshot : stores.clients.held[snapshot]? = some (ns, current)) {error : StorageError}
    (hMemory : stores.commitMemory ns current events clock storageClock =
      (.error error, stores.clients.storage))
    (hStep : stores.step port (.commit snapshot events clock storageClock) = some stores') :
    stores.acceptedCommit (.commit snapshot events clock storageClock) = none ∧
      stores'.clients.storage = stores.clients.storage ∧ stores'.tables = stores.tables := by
  obtain ⟨hOk, hStorage, hTables⟩ := step_commit hSnapshot hStep
  rw [hMemory] at hOk hStorage
  refine ⟨?_, hStorage, hTables.trans ?_⟩
  · rw [acceptedCommit_commit hSnapshot, hMemory]
    cases clock <;> rfl
  · rcases hSql : stores.commitSql port ns current events clock storageClock with
      ⟨error' | updated, tables'⟩
    · exact ReadingClients.commit_rolled_back hPort hSql
    · rw [hSql] at hOk
      cases hOk

end

/-- A step leaves both stores as they are, or makes its commit in both. -/
theorem step_cases (hPort : port = SqliteStorage.port ∨ port = MySqlStorage.port)
    {action : StorageClients.Action} (hStep : stores.step port action = some stores') :
    stores.acceptedCommit action = none ∧ stores'.clients.storage = stores.clients.storage ∧
        stores'.tables = stores.tables ∨
      ∃ commit ns storageNow, stores.acceptedCommit action = some commit ∧
        CommitDone port stores stores' commit ns storageNow := by
  cases action with
  | read ns id =>
      cases hStep
      exact .inl ⟨rfl, rfl, rfl⟩
  | commit snapshot events clock storageClock =>
      obtain ⟨⟨ns, current⟩, hSnapshot, _⟩ := Option.bind_eq_some_iff.mp hStep
      rcases commitEventsForCurrent_saves ns current events clock storageClock with
        ⟨error, hRun⟩ | ⟨reduced, now, rfl, hNonempty, hReduce, hRun⟩
      · exact .inl (step_refused hPort hSnapshot (hRun _ _ _) hStep)
      · let base := (current.map (·.version)).getD 0
        let updated := reduced.withVersion (base + events.length)
        let commit : CommitRecord := ⟨resourceKey ns updated.id, now, events, updated⟩
        have hMemory : stores.commitMemory ns current events (.ok now) storageClock =
            ((MemoryStorage.saveWorkflowInstance ns base commit.records updated
              storageClock).run.run stores.clients.storage).map (·.map fun _ => updated) id :=
          hRun _ MemoryStorage.port _
        have hSql : stores.commitSql port ns current events (.ok now) storageClock =
            ((port.saveWorkflowInstance ns base commit.records updated
              storageClock).run.run stores.tables).map (·.map fun _ => updated) id := hRun _ port _
        by_cases hVersion : stores.clients.storage.versionAt (resourceKey ns updated.id) = base
        · cases storageClock with
          | error message =>
              obtain ⟨error, hSave⟩ := MemoryStorage.saveWorkflowInstance_clock_error ns
                stores.clients.storage base commit.records updated message
              rw [hSave] at hMemory
              exact .inl (step_refused hPort hSnapshot hMemory hStep)
          | ok storageNow =>
              rw [MemoryStorage.saveWorkflowInstance_saved commit.records storageNow hVersion]
                at hMemory
              obtain ⟨hOk, hStorage, hTables⟩ := step_commit hSnapshot hStep
              rw [hMemory] at hOk hStorage
              refine .inr ⟨commit, ns, storageNow, ?_, rfl, hNonempty, hStorage, ?_⟩
              · rw [acceptedCommit_commit hSnapshot, hMemory]
                rfl
              · rw [show stores.clients.storage.versionAt commit.key = base from hVersion, hTables]
                rcases hSave : (port.saveWorkflowInstance ns base commit.records updated
                    (.ok storageNow)).run.run stores.tables with ⟨error | _, tables'⟩
                · rw [hSql, hSave] at hOk
                  cases hOk
                · rw [hSql, hSave]
                  rfl
        · rw [MemoryStorage.saveWorkflowInstance_conflict hVersion] at hMemory
          exact .inl (step_refused hPort hSnapshot hMemory hStep)

/-- Both stores show the history: the last snapshot of every instance, its
records in order, and its dates. -/
structure Recorded (stores : MirroredClients) (history : List CommitRecord) : Prop where
  inv : stores.Inv
  nonempty : ∀ commit ∈ history, commit.events ≠ []
  instances : ∀ key, stores.clients.storage.workflowInstances.lookup key =
    (commitsOn history key).getLast?.map (·.updated)
  events : ∀ key, stores.clients.storage.eventsOf key =
    (commitsOn history key).flatMap (·.records)
  eventRows : ∀ key sequence, (stores.tables.eventRows key).lookup sequence =
    if sequence = 0 then none else (stores.clients.storage.eventsOf key)[sequence - 1]?
  bounded : ∀ key, (stores.clients.storage.eventsOf key).length < 2 ^ 63
  infos : ∀ key, (stores.clients.storage.workflowInfos.lookup key).map
      (fun info => (info.status, info.dates)) =
    (commitsOn history key).getLast?.map
      fun commit => (commit.updated.status, datesAfter (commitsOn history key))
  rows : ∀ key, (stores.tables.workflowInstances.lookup key).map
      (fun row => (row.status, some row.dates)) =
    (commitsOn history key).getLast?.map
      fun commit => (workflowStatusName commit.updated.status, datesAfter (commitsOn history key))

/-- Nothing is recorded of empty stores. -/
theorem Recorded.init : Recorded initial [] where
  inv := ⟨StorageClients.Inv.init, Mirrors.init⟩
  nonempty _ h := absurd h List.not_mem_nil
  instances _ := rfl
  events _ := rfl
  eventRows key sequence := by
    change none = _
    split <;> rfl
  bounded key := by
    change 0 < 2 ^ 63
    omega
  infos _ := rfl
  rows _ := rfl

theorem datesAfter_isSome {commits : List CommitRecord} (h : commits ≠ []) :
    (datesAfter commits).isSome = true := by
  obtain ⟨first, last, rfl⟩ := List.eq_nil_or_concat commits |>.resolve_left h
  rw [List.concat_eq_append, datesAfter, List.foldl_append]
  rfl

theorem datesAfter_append (commits : List CommitRecord) (commit : CommitRecord) :
    datesAfter (commits ++ [commit]) = some (savedDates (datesAfter commits) commit.records
      commit.updated commit.time) := by
  rw [datesAfter, List.foldl_append]
  rfl

theorem CommitRecord.records_ne_nil {commit : CommitRecord} (h : commit.events ≠ []) :
    commit.records ≠ [] := fun hNil => h (List.map_eq_nil_iff.mp hNil)

/-- The dates the summaries show are those of the commits. -/
theorem Recorded.info_dates {history : List CommitRecord} (h : Recorded stores history)
    (key : ResourceKey) :
    (stores.clients.storage.workflowInfos.lookup key).bind (·.dates) =
      datesAfter (commitsOn history key) := by
  have hInfo := h.infos key
  cases hLookup : stores.clients.storage.workflowInfos.lookup key with
  | none =>
      rw [hLookup, Option.map_none, eq_comm, Option.map_eq_none_iff, List.getLast?_eq_none_iff]
        at hInfo
      rw [hInfo]
      rfl
  | some info =>
      rw [hLookup, Option.map_some, eq_comm, Option.map_eq_some_iff] at hInfo
      obtain ⟨commit, _, hSame⟩ := hInfo
      rw [Option.bind_some, ← (Prod.mk.inj hSame).2]

/-- The dates of a row are those that the history of its instance leads to. -/
theorem Recorded.row_dates {history : List CommitRecord} (h : Recorded stores history)
    (key : ResourceKey) :
    (stores.tables.workflowInstances.lookup key).map (·.dates) =
      datesAfter (commitsOn history key) := by
  have hRow := h.rows key
  cases hLookup : stores.tables.workflowInstances.lookup key with
  | none =>
      rw [hLookup, Option.map_none, eq_comm, Option.map_eq_none_iff, List.getLast?_eq_none_iff]
        at hRow
      rw [hRow]
      rfl
  | some row =>
      rw [hLookup, Option.map_some, eq_comm, Option.map_eq_some_iff] at hRow
      obtain ⟨commit, _, hSame⟩ := hRow
      rw [Option.map_some, ← (Prod.mk.inj hSame).2]

/-- A commit that both stores have accepted extends the history by one record,
in which they agree. -/
theorem Recorded.commit {history : List CommitRecord} (h : Recorded stores history)
    (hDates : DatesRows port) (hAppends : AppendsEvents port) {commit : CommitRecord}
    {ns : Namespace} {storageNow : Nat} (hDone : CommitDone port stores stores' commit ns storageNow)
    (hInv : stores'.Inv) : Recorded stores' (history ++ [commit]) := by
  have hRecords := CommitRecord.records_ne_nil hDone.nonempty
  obtain ⟨now, row, hStatus, hRowDates, hRow⟩ := hDates hDone.sql
  obtain ⟨before, inserted, hBefore, hInsert, hAfter⟩ := hAppends hDone.sql
  have hEventsOf (key : ResourceKey) : stores'.clients.storage.eventsOf key =
      if key = commit.key then stores.clients.storage.eventsOf key ++ commit.records
      else stores.clients.storage.eventsOf key := by
    rw [hDone.memory, MemoryStorage.eventsOf, MemoryStorage.saved, FiniteMap.lookup_insert_eq,
      ← hDone.key]
    split
    · rename_i hKey
      rw [hKey, Option.getD_some]
    · rfl
  have hLength : stores.clients.storage.versionAt commit.key =
      (stores.clients.storage.eventsOf commit.key).length := by
    rw [← MemoryStorage.versionOf_cell, (h.inv.clients.consistent commit.key).version_eq]
    exact List.length_map _
  constructor
  · exact hInv
  · exact List.forall_mem_append.mpr ⟨h.nonempty, List.forall_mem_singleton.mpr hDone.nonempty⟩
  · intro key
    rw [hDone.memory, MemoryStorage.saved, FiniteMap.lookup_insert_eq, ← hDone.key, commitsOn_append]
    split
    · rw [List.getLast?_append, List.getLast?_singleton, Option.some_or, Option.map_some]
    · exact h.instances key
  · intro key
    rw [hEventsOf, commitsOn_append]
    split
    · rw [List.flatMap_append, h.events]
      simp
    · exact h.events key
  · intro key sequence
    have hOld (other : ResourceKey) : before.eventRows other = stores.tables.eventRows other := by
      rw [SqlTables.eventRows, SqlTables.eventRows, hBefore]
    have hRows : stores'.tables.eventRows key = inserted.eventRows key := by
      rw [SqlTables.eventRows, SqlTables.eventRows, hAfter]
    obtain ⟨hOther, hKey⟩ := insertEvents_records hInsert
    rw [← hDone.key] at hOther hKey
    rw [hRows, hEventsOf]
    by_cases hSame : key = commit.key
    · subst hSame
      rw [if_pos rfl, hKey, hOld, h.eventRows, hLength]
      exact append_lookup _ commit.records sequence
    · rw [if_neg hSame, hOther key hSame, hOld, h.eventRows]
  · intro key
    rw [hEventsOf]
    split
    · rename_i hSame
      have hBound := insertEvents_bounded hRecords hInsert
      rw [hLength] at hBound
      rw [hSame, List.length_append]
      omega
    · exact h.bounded key
  · intro key
    rw [hDone.memory, MemoryStorage.saved, FiniteMap.lookup_insert_eq, ← hDone.key, commitsOn_append]
    by_cases hSame : key = commit.key
    · rw [if_pos hSame, if_pos hSame, Option.map_some, List.getLast?_append,
        List.getLast?_singleton, Option.some_or, Option.map_some, datesAfter_append,
        MemoryStorage.summary_dates, ← hDone.key, h.info_dates, hSame,
        savedDates_clock hRecords commit.updated storageNow commit.time]
      · rfl
      · intro info hInfo
        have hShown := h.infos commit.key
        rw [hDone.key, hInfo, Option.map_some, eq_comm, Option.map_eq_some_iff] at hShown
        obtain ⟨last, hLast, hPair⟩ := hShown
        have hSome := datesAfter_isSome (List.ne_nil_of_mem (List.mem_of_getLast? hLast))
        rw [(Prod.mk.inj hPair).2, WorkflowInfo.dates, Option.isSome_map] at hSome
        exact hSome
    · rw [if_neg hSame, if_neg hSame]
      exact h.infos key
  · intro key
    rw [hRow, ← hDone.key, commitsOn_append]
    by_cases hSame : key = commit.key
    · rw [if_pos hSame, if_pos hSame, Option.map_some, List.getLast?_append,
        List.getLast?_singleton, Option.some_or, Option.map_some, datesAfter_append, hStatus,
        hRowDates, ← hDone.key, h.row_dates, hSame,
        savedDates_clock hRecords commit.updated now commit.time]
    · rw [if_neg hSame, if_neg hSame]
      exact h.rows key

/-- In every run the stores show the history of accepted commits. -/
theorem Steps.recorded (hPort : port = SqliteStorage.port ∨ port = MySqlStorage.port)
    {actions : List StorageClients.Action} {history : List CommitRecord}
    (run : Steps port (initial, []) actions (stores, history)) : Recorded stores history := by
  have hAdapter : SqlAdapter port ∧ DatesRows port ∧ AppendsEvents port := by
    rcases hPort with rfl | rfl
    · exact ⟨SqliteStorage.adapter, SqliteStorage.datesRows, SqliteStorage.appendsEvents⟩
    · exact ⟨MySqlStorage.adapter, MySqlStorage.datesRows, MySqlStorage.appendsEvents⟩
  refine run.invariant (P := fun p => Recorded p.1 p.2) Recorded.init ?_
  rintro ⟨stores, history⟩ action ⟨stores', history'⟩ h ⟨hStep, hHistory⟩
  have hInv : stores'.Inv := h.inv.step hAdapter.1 action hStep
  dsimp only at hHistory hStep h ⊢
  subst hHistory
  rcases step_cases hPort hStep with ⟨hNone, hStorage, hTables⟩ | ⟨commit, ns, now, hSome, hDone⟩
  · rw [recordCommit, hNone]
    simp only [Option.toList_none, List.append_nil]
    exact ⟨hInv, h.nonempty, hStorage ▸ h.instances, hStorage ▸ h.events,
      hTables ▸ hStorage ▸ h.eventRows, hStorage ▸ h.bounded, hStorage ▸ h.infos,
      hTables ▸ h.rows⟩
  · rw [recordCommit, hSome]
    exact h.commit hAdapter.2.1 hAdapter.2.2 hDone hInv

end MirroredClients

end RelayFold
