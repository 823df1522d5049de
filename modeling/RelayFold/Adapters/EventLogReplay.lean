import RelayFold.Adapters.ColumnDecoding
import RelayFold.Library.KeysetPages

/-! The persisted event log against the persisted snapshot: both come back from
their JSON texts, each in its own way. -/
namespace RelayFold

open FieldDecoding FallibleFold SqlTables WorkflowStateManager ReadingClients

section

variable {ns : Namespace} {workflow : WorkflowInstance} {tables tables' : SqlTables}

/-- The records of a batch take the sequence numbers from the first one on. -/
theorem insertEvents_records {key : ResourceKey} {start : Nat} {events : List WorkflowEventRecord}
    (h : insertEvents key start events tables = .ok tables') :
    (∀ other, other ≠ key → tables'.eventRows other = tables.eventRows other) ∧
      ∀ sequence, (tables'.eventRows key).lookup sequence =
        if start ≤ sequence ∧ sequence < start + events.length then events[sequence - start]?
        else (tables.eventRows key).lookup sequence := by
  induction events generalizing start tables with
  | nil =>
      cases h
      refine ⟨fun _ _ => rfl, fun sequence => ?_⟩
      rw [if_neg (by simp only [List.length_nil]; omega)]
  | cons event events ih =>
      obtain ⟨column, hColumn, h⟩ := bind_ok.mp h
      obtain ⟨createdTime, hTime, h⟩ := bind_ok.mp h
      obtain rfl := i64FromU64_ok hColumn
      obtain rfl := i64FromU64_ok hTime
      split at h
      · cases h
      · obtain ⟨hOther, hKey⟩ := ih h
        let rows := (tables.eventRows key).insert column event
        have hInserted (other : ResourceKey) :
            eventRows { tables with workflowEvents := tables.workflowEvents.insert key rows } other =
              if other = key then rows else tables.eventRows other := by
          rw [eventRows, FiniteMap.lookup_insert_eq]
          split <;> rfl
        refine ⟨fun other hNe => ?_, fun sequence => ?_⟩
        · rw [hOther other hNe, hInserted, if_neg hNe]
        · rw [hKey, hInserted, if_pos rfl, FiniteMap.lookup_insert_eq]
          by_cases hFirst : sequence = column
          · subst hFirst
            rw [if_neg (by omega), if_pos rfl, if_pos (by simp only [List.length_cons]; omega),
              Nat.sub_self]
            rfl
          · rw [if_neg hFirst]
            by_cases hIn : column + 1 ≤ sequence ∧ sequence < column + 1 + events.length
            · rw [if_pos hIn, if_pos (by simp only [List.length_cons]; omega)]
              have hIndex : sequence - column = sequence - (column + 1) + 1 := by omega
              rw [hIndex, List.getElem?_cons_succ]
            · rw [if_neg hIn, if_neg (by simp only [List.length_cons]; omega)]

/-- Event rows are numbered on from the start, each under its own sequence, and
no other row changes. -/
theorem insertEvents_lookup {key : ResourceKey} {start : Nat} {events : List WorkflowEventRecord}
    (h : insertEvents key start events tables = .ok tables') :
    (∀ other, other ≠ key → tables'.eventRows other = tables.eventRows other) ∧
      ∀ sequence, ((tables'.eventRows key).lookup sequence).map (·.event) =
        if start ≤ sequence ∧ sequence < start + events.length then
          (events.map (·.event))[sequence - start]?
        else ((tables.eventRows key).lookup sequence).map (·.event) := by
  obtain ⟨hOther, hKey⟩ := insertEvents_records h
  refine ⟨hOther, fun sequence => ?_⟩
  rw [hKey, List.getElem?_map]
  split <;> rfl

theorem upsertWorkflowInstance_events {created modified : Nat} {completed : Option Nat}
    (h : upsertWorkflowInstance ns workflow created modified completed tables = .ok tables') :
    tables'.workflowEvents = tables.workflowEvents := by
  obtain ⟨row, _, h⟩ := bind_ok.mp h
  cases h
  rfl

/-- Writing the task rows of a commit leaves the event table as it is,
whichever rows it deletes and inserts. -/
theorem persistTaskChanges_events {events : List WorkflowEventRecord} {isNewInstance : Bool}
    (h : persistTaskChanges ns workflow events isNewInstance tables = .ok tables') :
    tables'.workflowEvents = tables.workflowEvents := by
  refine foldlM_rel (R := fun a b : SqlTables => b.workflowEvents = a.workflowEvents)
    (fun _ => rfl) (fun hFirst hRest => hRest.trans hFirst) ?_ h
  intro tables id tables' hStep
  unfold persistTask at hStep
  split at hStep
  · cases hStep
  · cases hStep
    rfl

theorem claimWorkflowInstance_events {created modified : Nat} {isNewInstance : Bool}
    (h : MySqlStorage.claimWorkflowInstance ns workflow created modified tables =
      .ok (isNewInstance, tables')) : tables'.workflowEvents = tables.workflowEvents := by
  obtain ⟨row, _, h⟩ := bind_ok.mp h
  split at h <;> cases h <;> rfl

/-- A transaction that has succeeded has left what its body computes. -/
theorem transaction_ok {body : SqlTables → Except StorageError SqlTables}
    (h : (transaction body).run.run tables = (.ok (), tables')) : body tables = .ok tables' := by
  rw [transaction_run] at h
  split at h
  · rename_i hBody
    cases h
    exact hBody
  · cases h

/-- What an accepted save leaves in the event table is the batch, after the
rows it found. -/
def AppendsEvents (port : StoragePort SqlTables) : Prop :=
  ∀ {ns expectedVersion events workflow clock} {tables tables' : SqlTables},
    (port.saveWorkflowInstance ns expectedVersion events workflow clock).run.run tables =
        (.ok (), tables') →
      ∃ before inserted, before.workflowEvents = tables.workflowEvents ∧
        insertEvents (resourceKey ns workflow.id) (expectedVersion + 1) events before =
          .ok inserted ∧
        tables'.workflowEvents = inserted.workflowEvents

/-- A save of SQLite appends its batch to the log of the instance. -/
theorem SqliteStorage.appendsEvents : AppendsEvents SqliteStorage.port := by
  intro ns expectedVersion events workflow clock tables tables' h
  have hBody := transaction_ok h
  dsimp only at hBody
  split at hBody
  · cases hBody
  · obtain ⟨now, _, hBody⟩ := bind_ok.mp hBody
    obtain ⟨upserted, hUpsert, hBody⟩ := bind_ok.mp hBody
    obtain ⟨inserted, hInsert, hBody⟩ := bind_ok.mp hBody
    obtain ⟨persisted, hPersist, hBody⟩ := bind_ok.mp hBody
    have hPersisted := persistTaskChanges_events hPersist
    cases hBody
    exact ⟨upserted, inserted, upsertWorkflowInstance_events hUpsert, hInsert, hPersisted⟩

/-- So does one of MySQL. -/
theorem MySqlStorage.appendsEvents : AppendsEvents MySqlStorage.port := by
  intro ns expectedVersion events workflow clock tables tables' h
  have hBody := transaction_ok h
  obtain ⟨now, _, hBody⟩ := bind_ok.mp hBody
  obtain ⟨⟨isNewInstance, claimed⟩, hClaim, hBody⟩ := bind_ok.mp hBody
  dsimp only at hBody
  split at hBody
  · cases hBody
  · split at hBody
    · cases hBody
    · obtain ⟨inserted, hInsert, hBody⟩ := bind_ok.mp hBody
      obtain ⟨upserted, hUpsert, hBody⟩ := bind_ok.mp hBody
      obtain ⟨persisted, hPersist, hBody⟩ := bind_ok.mp hBody
      cases hBody
      refine ⟨claimed, inserted, claimWorkflowInstance_events hClaim, hInsert, ?_⟩
      exact (persistTaskChanges_events hPersist).trans (upsertWorkflowInstance_events hUpsert)

end

/-- The event rows of an instance are numbered from one, and carry the events
of the in-memory list. -/
def Logged (memory : MemoryStorage) (tables : SqlTables) : Prop :=
  ∀ key sequence, ((tables.eventRows key).lookup sequence).map (·.event) =
    if sequence = 0 then none else ((memory.eventsOf key).map (·.event))[sequence - 1]?

/-- The tables mirror an in-memory store whose instances replay their events,
and log these. -/
structure MirrorsLog (memory : MemoryStorage) (tables : SqlTables) : Prop where
  mirrors : Mirrors memory tables
  consistent : ∀ key, VersionedLog.Consistent eventJournal (memory.cell key)
  logged : Logged memory tables

theorem MirrorsLog.init : MirrorsLog MemoryStorage.new SqlTables.new where
  mirrors := Mirrors.init
  consistent _ := VersionedLog.consistent_empty
  logged key sequence := by
    change none = _
    split <;> rfl

section

variable {port : StoragePort SqlTables} {memory memory' : MemoryStorage}
  {tables tables' : SqlTables} {ns : Namespace} {current : Option WorkflowInstance}
  {events : List WorkflowInstanceEvent} {updated : WorkflowInstance}

/-- A commit on the stored snapshot keeps every instance the replay of its
events. -/
theorem Accepted.consistent (hAccepted : Accepted ns current events memory memory' updated)
    (hStored : memory.workflowInstances.lookup (resourceKey ns updated.id) = current)
    (h : ∀ key, VersionedLog.Consistent eventJournal (memory.cell key)) (key : ResourceKey) :
    VersionedLog.Consistent eventJournal (memory'.cell key) := by
  by_cases hKey : key = resourceKey ns updated.id
  · subst hKey
    have hBase : commitBase current = (memory.cell (resourceKey ns updated.id)).head := by
      rw [← hStored]
      rfl
    have hHeld : VersionedLog.Held eventJournal (memory.cell (resourceKey ns updated.id)).log
        (commitBase current) := hBase ▸ (h _).held_head
    exact (VersionedLog.commit_spec (h _) hHeld hAccepted.commit).2.2.2
  · rw [hAccepted.cell_of_ne hKey]
    exact h key

/-- A list numbered from one, with a batch after it. -/
theorem append_lookup {α : Type} (log batch : List α) (sequence : Nat) :
    (if log.length + 1 ≤ sequence ∧ sequence < log.length + 1 + batch.length then
        batch[sequence - (log.length + 1)]?
      else if sequence = 0 then none else log[sequence - 1]?) =
      if sequence = 0 then none else (log ++ batch)[sequence - 1]? := by
  by_cases hZero : sequence = 0
  · rw [if_neg (by omega), if_pos hZero, if_pos hZero]
  · rw [if_neg hZero, if_neg hZero]
    by_cases hOld : sequence ≤ log.length
    · rw [if_neg (by omega), List.getElem?_append_left (by omega)]
    · have hIndex : sequence - 1 - log.length = sequence - (log.length + 1) := by omega
      rw [List.getElem?_append_right (by omega), hIndex]
      split
      · rfl
      · rw [List.getElem?_eq_none (by omega), List.getElem?_eq_none (by omega)]

/-- An accepted commit appends the same events to both logs. -/
theorem Logged.commit (h : Logged memory tables)
    (hConsistent : ∀ key, VersionedLog.Consistent eventJournal (memory.cell key))
    (hPort : AppendsEvents port) (hAccepted : Accepted ns current events memory memory' updated)
    {clock storageClock : Clock}
    (hRun : (commitEventsForCurrent port ns current events clock storageClock).run.run tables =
      (.ok updated, tables')) : Logged memory' tables' := by
  obtain ⟨reduced, createdTime, before, inserted, hUpdated, hBefore, hInsert, hAfter⟩ :
      ∃ (reduced : WorkflowInstance) (createdTime : Nat) (before inserted : SqlTables),
        updated.id = reduced.id ∧ before.workflowEvents = tables.workflowEvents ∧
        insertEvents (resourceKey ns updated.id) ((current.map (·.version)).getD 0 + 1)
          (events.map (WorkflowEventRecord.mk createdTime)) before = .ok inserted ∧
        tables'.workflowEvents = inserted.workflowEvents := by
    rcases commitEventsForCurrent_run ns current events clock storageClock with
      ⟨_, hError⟩ | ⟨reduced, createdTime, _, _, hSave⟩
    · rw [hError] at hRun
      cases hRun
    · have hSave := hSave _ port tables
      dsimp only at hSave
      rw [hSave] at hRun
      rcases hOutcome : (port.saveWorkflowInstance ns _ _ _ storageClock).run.run tables with
        ⟨_ | _, saved⟩
      · rw [hOutcome] at hRun
        cases hRun
      · rw [hOutcome] at hRun
        cases hRun
        obtain ⟨before, inserted, hBefore, hInsert, hAfter⟩ := hPort hOutcome
        exact ⟨reduced, createdTime, before, inserted, rfl, hBefore, hInsert, hAfter⟩
  have hRows (key : ResourceKey) : tables'.eventRows key = inserted.eventRows key := by
    rw [eventRows, eventRows, hAfter]
  have hOld (key : ResourceKey) : before.eventRows key = tables.eventRows key := by
    rw [eventRows, eventRows, hBefore]
  obtain ⟨hOther, hKey⟩ := insertEvents_lookup hInsert
  obtain ⟨records, info, hRecords, rfl⟩ := hAccepted.stored
  have hEvents (key : ResourceKey) : ((memory.saved ns records updated info).eventsOf key).map
      (·.event) = (memory.eventsOf key).map (·.event) ++
        (if key = resourceKey ns updated.id then events else []) := by
    rw [MemoryStorage.eventsOf, MemoryStorage.saved, FiniteMap.lookup_insert_eq]
    split
    · rename_i hSame
      rw [Option.getD_some, List.map_append, hRecords, hSame]
    · rw [List.append_nil]
      rfl
  intro key sequence
  rw [hRows, hEvents]
  by_cases hSame : key = resourceKey ns updated.id
  · subst hSame
    have hLength : (current.map (·.version)).getD 0 =
        ((memory.eventsOf (resourceKey ns updated.id)).map (·.event)).length := by
      rw [← hAccepted.version_eq, ← MemoryStorage.versionOf_cell, (hConsistent _).version_eq]
      rfl
    have hBatch : ((events.map (WorkflowEventRecord.mk createdTime)).map (·.event)) = events := by
      simp [Function.comp_def]
    have hCount : (events.map (WorkflowEventRecord.mk createdTime)).length = events.length :=
      List.length_map _
    rw [hKey, hOld, h, if_pos rfl, hLength, hBatch, hCount]
    exact append_lookup _ events sequence
  · rw [hOther key hSame, hOld, h, if_neg hSame, List.append_nil]

/-- A SQL adapter and its reads, against an in-memory store that replays its
events. -/
theorem mirrorsLog_shown {reader : PointReader SqlTables}
    (hPort : port = SqliteStorage.port ∨ port = MySqlStorage.port)
    (hShown : Shown port reader getWorkflowInstance Mirrors) :
    Shown port reader getWorkflowInstance MirrorsLog where
  commit {memory tables} ns current events clock storageClock h hStored := by
    obtain ⟨outcome, tables', hRun, hOutcome⟩ := sql_commit hPort ns current events clock
      storageClock h.mirrors hStored
    refine ⟨outcome, tables', hRun, ?_⟩
    cases outcome with
    | error error => exact hOutcome
    | ok updated =>
        obtain ⟨memory', hAccepted, hMirrors⟩ := hOutcome
        have hAppends : AppendsEvents port := by
          rcases hPort with rfl | rfl
          · exact SqliteStorage.appendsEvents
          · exact MySqlStorage.appendsEvents
        exact ⟨memory', hAccepted, hMirrors,
          hAccepted.consistent (hStored updated memory' hAccepted) h.consistent,
          h.logged.commit h.consistent hAppends hAccepted hRun⟩
  shown ns id h hKeyed := hShown.shown ns id h.mirrors hKeyed
  result h hSeen := hShown.result h hSeen

end

/-- The reads of an adapter, which decode what the columns hold. -/
def PointReader.decoding (reader : PointReader SqlTables) : PointReader SqlTables where
  Progress := reader.Progress
  start := reader.start
  query ns id tables := reader.query ns id tables.decoded

/-- What the reads return is decoded throughout. -/
def ReadsColumns (reader : PointReader SqlTables) : Prop :=
  ∀ {ns id} {seen : List SqlTables} {workflow},
    reader.resume ns id reader.start (seen.map SqlTables.decoded) = .inr (.ok (some workflow)) →
      columns.workflow workflow = workflow

/-- What is read back from the rows has no column left to decode. -/
theorem columns_of_rows {workflow : WorkflowInstance} {tables : SqlTables} {key : ResourceKey}
    (h : workflow.tasks = (tables.decoded.taskRows key).mapValues WorkflowTaskRow.toTask) :
    columns.workflow workflow = workflow := by
  have hTask (row : WorkflowTaskRow) : columns.task row.decoded.toTask = row.decoded.toTask := by
    simp only [FieldDecoding.task, WorkflowTaskRow.toTask, WorkflowTaskRow.decoded, Option.map_map,
      Function.comp_def, FieldDecoding.metadata, columns, decodedField_decodedField, id]
    rfl
  have hTasks : workflow.tasks.mapValues columns.task = workflow.tasks := by
    refine Finmap.ext_lookup fun id => ?_
    rw [h, taskRows_decoded, FiniteMap.lookup_mapValues, FiniteMap.lookup_mapValues,
      FiniteMap.lookup_mapValues, Option.map_map, Option.map_map, Option.map_map]
    exact Option.map_congr fun row _ => hTask row
  rw [FieldDecoding.workflow, hTasks]
  rfl

/-- The point read of SQLite sees the rows through their columns. -/
theorem SqliteStorage.readsColumns : ReadsColumns SqliteStorage.pointReader := by
  intro ns id seen workflow h
  rcases SqliteStorage.pointReader_result h with
    ⟨_, _, _, _, hNone⟩ | ⟨first, second, third, rest, hSeen, hRow, hFound⟩
  · cases hNone
  · have hSecond : second ∈ seen.map SqlTables.decoded := by
      rw [hSeen]
      exact List.mem_cons_of_mem _ List.mem_cons_self
    obtain ⟨tables, _, rfl⟩ := List.mem_map.mp hSecond
    rw [assembled] at hFound
    cases hStored : getWorkflowInstance ns id first with
    | error error =>
        rw [hStored] at hFound
        cases hFound
    | ok found =>
        obtain ⟨before, rfl⟩ := stored_of_row hRow hStored
        rw [hStored] at hFound
        cases hFound
        exact columns_of_rows rfl

theorem MySqlStorage.readsColumns : ReadsColumns MySqlStorage.pointReader := by
  intro ns id seen workflow h
  obtain ⟨first, rest, hSeen, hFound⟩ := MySqlStorage.pointReader_result h
  have hFirst : first ∈ seen.map SqlTables.decoded := by
    rw [hSeen]
    exact List.mem_cons_self
  obtain ⟨tables, _, rfl⟩ := List.mem_map.mp hFirst
  obtain ⟨_, hTasks, _⟩ := rows_of_stored hFound.symm
  exact columns_of_rows hTasks

namespace ReadingClients

variable {port : StoragePort SqlTables} {reader : PointReader SqlTables}

/-- The clients with every column decoded where it is stored. -/
def columnsDecoded (clients : ReadingClients reader.decoding) : ReadingClients reader where
  storage := clients.storage.decoded
  saved := clients.saved.map fun entry => (entry.1, columns.workflow entry.2)
  held := clients.held.map fun entry => (entry.1, entry.2.map columns.workflow)
  reading := clients.reading.map fun read =>
    ⟨read.ns, read.id, read.progress, read.since, read.seen.map SqlTables.decoded⟩
  finished := clients.finished.map fun read => { read with seen := read.seen.map SqlTables.decoded }

def Action.columnsDecoded : Action → Action
  | .create ns events clock storageClock =>
      .create ns (events.map columns.event) clock storageClock
  | .commit snapshot events clock storageClock =>
      .commit snapshot (events.map columns.event) clock storageClock
  | action => action

/-- A commit on a decoded snapshot is the decoded commit. The decoding can be
moved from the readers to the actions. -/
theorem commitOn_columnsDecoded (hPort : SavesDecoded port)
    (clients : ReadingClients reader.decoding) (ns : Namespace)
    (current : Option WorkflowInstance) (events : List WorkflowInstanceEvent)
    (clock storageClock : Clock) :
    clients.columnsDecoded.commitOn port ns (current.map columns.workflow)
        (events.map columns.event) clock storageClock =
      (clients.commitOn port ns current events clock storageClock).columnsDecoded := by
  have hCommit := hPort.commit ns current events clock storageClock clients.storage
  have hStorage : clients.columnsDecoded.storage = clients.storage.decoded := rfl
  rw [commitOn, commitOn, hStorage, hCommit]
  rcases (commitEventsForCurrent port ns current events clock storageClock).run.run
    clients.storage with ⟨error | updated, storage⟩
  · rfl
  · simp only [columnsDecoded, List.map_append, List.map_cons, List.map_nil]
    rfl

/-- Every step with decoding readers is a step with plain readers on decoded
actions. -/
theorem step_columnsDecoded (hPort : SavesDecoded port) (hReader : ReadsColumns reader)
    {clients clients' : ReadingClients reader.decoding} {action : Action}
    (hReading : ∀ read ∈ clients.columnsDecoded.reading,
      reader.resume read.ns read.id reader.start read.seen = .inl read.progress)
    (hStep : clients.step port action = some clients') :
    clients.columnsDecoded.step port action.columnsDecoded = some clients'.columnsDecoded := by
  cases action with
  | create ns events clock storageClock =>
      cases hStep
      exact congrArg some (commitOn_columnsDecoded hPort clients ns none events clock storageClock)
  | commit snapshot events clock storageClock =>
      obtain ⟨⟨ns, current⟩, hSnapshot, hStep⟩ := Option.bind_eq_some_iff.mp hStep
      cases hStep
      have hHeld : clients.columnsDecoded.held[snapshot]? =
          some (ns, current.map columns.workflow) := by
        simp only [columnsDecoded, List.getElem?_map, hSnapshot, Option.map_some]
      simp only [step, Action.columnsDecoded, hHeld]
      exact congrArg some (commitOn_columnsDecoded hPort clients ns current events clock
        storageClock)
  | beginRead ns id =>
      cases hStep
      have hSaved : (clients.columnsDecoded.savedOn ns id).length =
          (clients.savedOn ns id).length := by
        rw [savedOn, columnsDecoded, List.filter_map, List.length_map]
        rfl
      simp only [step, Action.columnsDecoded, hSaved]
      rfl
  | query n =>
      obtain ⟨read, hRead, hStep⟩ := Option.bind_eq_some_iff.mp hStep
      let decodedRead : OpenRead reader :=
        ⟨read.ns, read.id, read.progress, read.since, read.seen.map SqlTables.decoded⟩
      have hDecoded : clients.columnsDecoded.reading[n]? = some decodedRead := by
        simp only [columnsDecoded, List.getElem?_map, hRead, Option.map_some]
        rfl
      have hProgress := hReading decodedRead (List.mem_of_getElem? hDecoded)
      have hSeen : (read.seen ++ [clients.storage]).map SqlTables.decoded =
          read.seen.map SqlTables.decoded ++ [clients.storage.decoded] := by
        rw [List.map_append]
        rfl
      have hQuery := reader.resume_append hProgress clients.storage.decoded
      simp only [step, Action.columnsDecoded, hDecoded, Option.bind_eq_bind, Option.bind_some]
      dsimp only at hStep
      change reader.resume read.ns read.id reader.start (read.seen.map SqlTables.decoded ++
        [clients.storage.decoded]) = reader.query read.ns read.id clients.storage.decoded
          read.progress at hQuery
      cases hNext : reader.query read.ns read.id clients.storage.decoded read.progress with
      | inl progress =>
          rw [show reader.decoding.query read.ns read.id clients.storage read.progress =
            .inl progress from hNext] at hStep
          cases hStep
          rw [show reader.query decodedRead.ns decodedRead.id clients.columnsDecoded.storage
            decodedRead.progress = .inl progress from hNext]
          simp only [columnsDecoded, List.map_set, hSeen]
          rfl
      | inr result =>
          rw [show reader.decoding.query read.ns read.id clients.storage read.progress =
            .inr result from hNext] at hStep
          rw [hNext] at hQuery
          cases hStep
          rw [show reader.query decodedRead.ns decodedRead.id clients.columnsDecoded.storage
            decodedRead.progress = .inr result from hNext]
          have hHeld : (result.toOption.map (read.ns, ·)).toList =
              (result.toOption.map (read.ns, ·)).toList.map fun entry =>
                (entry.1, entry.2.map columns.workflow) := by
            rcases result with error | _ | workflow
            · rfl
            · rfl
            · rw [← hSeen] at hQuery
              have hWorkflow := hReader hQuery
              simp [Except.toOption, hWorkflow]
          simp only [columnsDecoded, List.map_append, List.map_cons, hSeen, ← hHeld]
          rw [List.eraseIdx_map]
          rfl

/-- The same for whole runs. What is known of plain readers therefore holds of
the real ones. -/
theorem Steps.columnsDecoded (hSaves : SavesDecoded port) (hReader : ReadsColumns reader)
    (hShown : Shown port reader getWorkflowInstance MirrorsLog) {actions : List Action}
    {clients : ReadingClients reader.decoding}
    (run : Steps port (initial reader.decoding SqlTables.new) actions clients) :
    Steps port (initial reader SqlTables.new) (actions.map Action.columnsDecoded)
      clients.columnsDecoded := by
  induction run with
  | nil => exact .nil _
  | snoc prior last ih =>
      obtain ⟨memory, h⟩ := Steps.inv ih hShown MirrorsLog.init
      rw [List.map_append]
      exact ih.snoc (step_columnsDecoded hSaves hReader (fun read hRead =>
        (h.reading read hRead).2.1) last)

end ReadingClients

/-- The two SQL adapters. -/
inductive IsSqlStore : StoragePort SqlTables → PointReader SqlTables → Prop where
  | sqlite : IsSqlStore SqliteStorage.port SqliteStorage.pointReader
  | mySql : IsSqlStore MySqlStorage.port MySqlStorage.pointReader

/-- The page of event rows after a cursor, in sequence. -/
def listEventRows (ns : Namespace) (id : String) (limit : Nat) (tables : SqlTables)
    (cursor : Option Nat) : Page (Nat × WorkflowEventRecord) Nat :=
  let rows := (tables.eventRows (resourceKey ns id)).toList.filter fun row => cursor.getD 0 < row.1
  if limit = 0 then ⟨[], none⟩
  else
    { items := rows.take limit
      nextCursor := if limit < rows.length then (rows.take limit).getLast?.map (·.1) else none }

/-- The record read from its row. -/
def WorkflowEventRecord.decoded (record : WorkflowEventRecord) : WorkflowEventRecord :=
  { record with event := record.event.decoded }

/-- `list_workflow_instance_events`: a limit and a cursor that fit their
columns, and each event decoded from its text. -/
def listWorkflowInstanceEvents (ns : Namespace) (id : String) (limit : Nat) (tables : SqlTables)
    (cursor : Option Nat) : Page WorkflowEventRecord Nat :=
  let page := listEventRows ns id limit tables cursor
  { items := page.items.map (·.2.decoded)
    nextCursor := page.nextCursor }

/-- The events of all pages. -/
def readEventLog (ns : Namespace) (id : String) (limit : Nat) (tables : SqlTables) :
    Option (List WorkflowInstanceEvent) :=
  KeysetPages.foldPages (listWorkflowInstanceEvents ns id limit tables)
    (fun events page => events ++ page.map (·.event))
    ((tables.eventRows (resourceKey ns id)).toList.length + 1) none []

/-- No column of the instance holds the text `null`. -/
def NoNullColumns (ns : Namespace) (id : String) (tables : SqlTables) : Prop :=
  isNullField ((tables.workflowInstances.lookup (resourceKey ns id)).bind (·.triggerInputJson)) =
      false ∧
    (tables.taskRows (resourceKey ns id)).anyValue (fun row => isNullField row.outputDataJson) =
      false

section

variable {ns : Namespace} {id : String} {tables : SqlTables} {limit : Nat}

/-- Reading page by page returns every event row, decoded, in sequence. -/
theorem readEventLog_eq (hLimit : 0 < limit)
    (hNumbered : (tables.eventRows (resourceKey ns id)).lookup 0 = none) :
    readEventLog ns id limit tables = some ((tables.eventRows (resourceKey ns id)).toList.map
      fun row => row.2.event.decoded) := by
  let listing := (tables.eventRows (resourceKey ns id)).toList
  have hPage (cursor : Option Nat) : listEventRows ns id limit tables cursor =
      KeysetPages.page (fun row => OrderDual.toDual row.1) OrderDual.toDual (·.1) limit cursor
        listing := by
    have hRows : listing.filter (fun row => cursor.getD 0 < row.1) =
        KeysetPages.remaining (fun row => OrderDual.toDual row.1) OrderDual.toDual cursor
          listing := by
      cases cursor with
      | some cursor => rfl
      | none =>
          apply List.filter_eq_self.mpr
          rintro ⟨sequence, record⟩ hRow
          cases sequence with
          | zero =>
              rw [FiniteMap.mem_toList] at hRow
              exact absurd hRow (by rw [hNumbered]; simp)
          | succ sequence => simp
    rw [listEventRows, if_neg (Nat.ne_of_gt hLimit), hRows]
    rfl
  have hSorted : listing.Pairwise fun a b => OrderDual.toDual b.1 < OrderDual.toDual a.1 := by
    have hKeys : listing.Pairwise fun a b => a.1 ≤ b.1 := by
      apply List.Pairwise.filterMap _ _ (FiniteMap.sortedKeys_pairwise _)
      intro k k' hLe a ha b hb
      obtain ⟨_, _, rfl⟩ := Option.map_eq_some_iff.mp ha
      obtain ⟨_, _, rfl⟩ := Option.map_eq_some_iff.mp hb
      exact hLe
    apply (hKeys.and (FiniteMap.toList_distinct _)).imp
    intro a b h
    exact OrderDual.toDual_lt_toDual.mpr (lt_of_le_of_ne h.1 h.2)
  let extend (events : List WorkflowInstanceEvent) (rows : List (Nat × WorkflowEventRecord)) :=
    events ++ rows.map fun row => row.2.event.decoded
  have hExtend (events : List WorkflowInstanceEvent) (xs ys : List (Nat × WorkflowEventRecord)) :
      extend (extend events xs) ys = extend events (xs ++ ys) := by
    simp [extend]
  calc readEventLog ns id limit tables
      = KeysetPages.foldPages (listEventRows ns id limit tables)
          (fun events rows => events ++ (rows.map (·.2.decoded)).map (·.event))
          (listing.length + 1) none [] :=
        KeysetPages.foldPages_map (listEventRows ns id limit tables) (·.2.decoded)
          (fun events page => events ++ page.map (·.event)) (listing.length + 1) none []
    _ = KeysetPages.foldPages (listEventRows ns id limit tables) extend (listing.length + 1) none
          [] := by
        simp only [List.map_map]
        rfl
    _ = some (extend [] listing) := by
        rw [funext hPage]
        exact KeysetPages.foldPages_all hSorted (fun _ => rfl) hLimit hExtend
          (Nat.lt_succ_self listing.length) []

/-- Decoding every value changes what the columns returned exactly when one of
them is null. -/
theorem fields_workflow_iff {workflow : WorkflowInstance}
    (hFound : getWorkflowInstance ns id tables.decoded = .ok (some workflow)) :
    fields.workflow workflow = workflow ↔ NoNullColumns ns id tables := by
  obtain ⟨_, hTasks, _⟩ := rows_of_stored hFound
  obtain ⟨row, hRow, hTrigger⟩ : ∃ row, tables.workflowInstances.lookup (resourceKey ns id) =
      some row ∧ workflow.triggerInput = row.triggerInputJson := by
    simp only [getWorkflowInstance] at hFound
    rw [show tables.decoded.workflowInstances.lookup (resourceKey ns id) =
      tables.workflowInstances.lookup (resourceKey ns id) from rfl] at hFound
    cases hRow : tables.workflowInstances.lookup (resourceKey ns id) with
    | none =>
        rw [hRow] at hFound
        cases hFound
    | some row =>
        rw [hRow] at hFound
        obtain ⟨status, _, hFound⟩ := bind_ok.mp hFound
        cases hFound
        exact ⟨row, rfl, rfl⟩
  have hLookup (taskAttemptId : String) : workflow.tasks.lookup taskAttemptId =
      ((tables.taskRows (resourceKey ns id)).lookup taskAttemptId).map fun row =>
        row.decoded.toTask := by
    rw [hTasks, taskRows_decoded, FiniteMap.lookup_mapValues, FiniteMap.lookup_mapValues,
      Option.map_map]
    rfl
  have hTask (row : WorkflowTaskRow) : fields.task row.decoded.toTask = row.decoded.toTask ↔
      isNullField row.outputDataJson = false := by
    rw [← decodedField_eq_self]
    constructor
    · exact fun h => congrArg TaskInstance.outputData h
    · intro h
      have hMetadata : (row.verifierMetadataJson.map columns.metadata).map fields.metadata =
          row.verifierMetadataJson.map columns.metadata := by
        rw [Option.map_map]
        exact Option.map_congr fun metadata _ => metadata_fields_columns metadata
      simp only [FieldDecoding.task, WorkflowTaskRow.toTask, WorkflowTaskRow.decoded, hMetadata]
      change { row.decoded.toTask with outputData := decodedField row.outputDataJson } = _
      rw [h]
      rfl
  constructor
  · intro h
    constructor
    · rw [hRow, Option.bind_some, ← hTrigger]
      exact decodedField_eq_self.mp (congrArg WorkflowInstance.triggerInput h)
    · by_contra hNull
      rw [Bool.not_eq_false, FiniteMap.anyValue_iff] at hNull
      obtain ⟨taskAttemptId, taskRow, hTaskRow, hNull⟩ := hNull
      have hSame := congrArg (fun workflow => workflow.tasks.lookup taskAttemptId) h
      rw [lookup_workflow_tasks, hLookup, hTaskRow] at hSame
      exact Bool.false_ne_true (((hTask taskRow).mp (Option.some.inj hSame)).symm.trans hNull)
  · rintro ⟨hNoTrigger, hNoOutput⟩
    have hSame : workflow.tasks.mapValues fields.task = workflow.tasks := by
      refine Finmap.ext_lookup fun taskAttemptId => ?_
      rw [FiniteMap.lookup_mapValues, hLookup]
      cases hTaskRow : (tables.taskRows (resourceKey ns id)).lookup taskAttemptId with
      | none => rfl
      | some taskRow =>
          apply congrArg some
          apply (hTask taskRow).mpr
          by_contra hNull
          rw [Bool.not_eq_false] at hNull
          have hAny : (tables.taskRows (resourceKey ns id)).anyValue
              (fun row => isNullField row.outputDataJson) = true :=
            (FiniteMap.anyValue_iff _ _).mpr ⟨taskAttemptId, taskRow, hTaskRow, hNull⟩
          exact Bool.false_ne_true (hNoOutput.symm.trans hAny)
    have hTriggerSame : decodedField workflow.triggerInput = workflow.triggerInput := by
      rw [hRow, Option.bind_some, ← hTrigger] at hNoTrigger
      exact decodedField_eq_self.mpr hNoTrigger
    rw [FieldDecoding.workflow, hSame]
    change { workflow with triggerInput := decodedField workflow.triggerInput } = _
    rw [hTriggerSame]

end

theorem IsSqlStore.saves {port : StoragePort SqlTables} {reader : PointReader SqlTables}
    (h : IsSqlStore port reader) : SavesDecoded port := by
  cases h with
  | sqlite => exact SqliteStorage.saves_decoded
  | mySql => exact MySqlStorage.saves_decoded

theorem IsSqlStore.reads {port : StoragePort SqlTables} {reader : PointReader SqlTables}
    (h : IsSqlStore port reader) : ReadsColumns reader := by
  cases h with
  | sqlite => exact SqliteStorage.readsColumns
  | mySql => exact MySqlStorage.readsColumns

theorem IsSqlStore.shown {port : StoragePort SqlTables} {reader : PointReader SqlTables}
    (h : IsSqlStore port reader) : Shown port reader getWorkflowInstance MirrorsLog := by
  cases h with
  | sqlite => exact mirrorsLog_shown (.inl rfl) sqliteStorage_shown
  | mySql => exact mirrorsLog_shown (.inr rfl) mySqlStorage_shown

namespace ReadingClients

variable {port : StoragePort SqlTables} {reader : PointReader SqlTables}

/-- The replay of the persisted log is the persisted instance, but for its
version, exactly while neither the trigger input nor an output is stored as
null. -/
theorem Steps.log_replays (hStore : IsSqlStore port reader) {actions : List Action}
    {clients : ReadingClients reader.decoding}
    (run : Steps port (initial reader.decoding SqlTables.new) actions clients) {ns : Namespace}
    {id : String} {workflow : WorkflowInstance}
    (hFound : getWorkflowInstance ns id clients.storage.decoded = .ok (some workflow))
    (hHuman : ∀ sequence record, (clients.storage.eventRows (resourceKey ns id)).lookup sequence =
      some record → record.event.hasNullHumanInput = false) {limit : Nat} (hLimit : 0 < limit) :
    ∃ events, readEventLog ns id limit clients.storage = some events ∧
      ((∃ replayed, reduceWorkflowInstanceEvents none events = .ok replayed ∧
          replayed.unversioned = workflow.unversioned) ↔
        NoNullColumns ns id clients.storage) := by
  obtain ⟨memory, h⟩ := Steps.inv (run.columnsDecoded hStore.saves hStore.reads hStore.shown)
    hStore.shown MirrorsLog.init
  let key := resourceKey ns id
  let log := (memory.eventsOf key).map (·.event)
  have hStored : memory.getWorkflowInstance ns id = some workflow := by
    have hShown := hStore.shown.shown ns id h.shows fun workflow hFound => h.keyed hFound
    exact Except.ok.inj (hShown.symm.trans hFound)
  have hLogged (sequence : Nat) : ((clients.storage.eventRows key).lookup sequence).map
      (fun record => columns.event record.event) =
        if sequence = 0 then none else log[sequence - 1]? := by
    rw [← h.shows.logged key sequence]
    change _ = ((clients.storage.decoded.eventRows key).lookup sequence).map _
    rw [eventRows_decoded, FiniteMap.lookup_mapValues, Option.map_map]
    rfl
  have hListed := FiniteMap.toList_numbered hLogged
  have hZero : (clients.storage.eventRows key).lookup 0 = none :=
    Option.map_eq_none_iff.mp (hLogged 0)
  refine ⟨_, readEventLog_eq hLimit hZero, ?_⟩
  -- A decoded event is one of the log the tables mirror, decoded once more.
  have hDecoded : (clients.storage.eventRows key).toList.map (fun row => row.2.event.decoded) =
      log.map fields.event := by
    rw [← hListed, List.map_map]
    apply List.map_congr_left
    intro row hRow
    have hPlain := hHuman row.1 row.2 ((FiniteMap.mem_toList _ _).mp hRow)
    exact (WorkflowInstanceEvent.decoded_eq hPlain).trans (event_fields_columns _).symm
  rw [hDecoded]
  obtain ⟨replayed, hReplay, hSame⟩ : ∃ replayed,
      reduceWorkflowInstanceEvents none log = .ok replayed ∧
        replayed.unversioned = workflow.unversioned := by
    have hConsistent := (h.shows.consistent key).replay_eq
    have hHead : (memory.cell key).head.map Prod.snd = some workflow.unversioned := by
      change ((memory.getWorkflowInstance ns id).map _).map _ = _
      rw [hStored]
      rfl
    rw [hHead] at hConsistent
    have hReduce := (replay_eventJournal none log).symm.trans hConsistent.symm
    cases hResult : reduceWorkflowInstanceEvents none log with
    | error message =>
        rw [hResult] at hReduce
        cases hReduce
    | ok replayed =>
        rw [hResult] at hReduce
        exact ⟨replayed, rfl, Option.some.inj hReduce⟩
  have hResult : reduceWorkflowInstanceEvents none (log.map fields.event) =
      .ok (fields.workflow replayed) := by
    have hReduce := reduce_event (d := fields) none log
    rw [hReplay] at hReduce
    exact hReduce
  have hUnversioned : (fields.workflow replayed).unversioned =
      (fields.workflow workflow).unversioned := congrArg fields.workflow hSame
  rw [← fields_workflow_iff hFound, hResult]
  constructor
  · rintro ⟨_, hOk, hEqual⟩
    cases hOk
    have hFields := hUnversioned.symm.trans hEqual
    exact congrArg (·.withVersion workflow.version) hFields
  · intro hFields
    exact ⟨_, rfl, by rw [hUnversioned, hFields]⟩

/-- An attempt whose output is recorded. -/
def recordedActions (output : Json) : List Action :=
  [.create .global [.workflowCreated (.created "w-1" "w" ⟨"host"⟩ none)] (.ok 10) (.ok 11),
    .commit 0 [.taskMaterialized "a[1]" (.fresh "a" 1), .taskOutputRecorded "a[1]" (some output)]
      (.ok 20) (.ok 21)]

theorem recordedActions_done (output : Json) :
    ((recordedActions output).foldlM (step SqliteStorage.port)
      (initial SqliteStorage.pointReader.decoding SqlTables.new)).isSome = true := by
  rfl

def recorded (output : Json) : ReadingClients SqliteStorage.pointReader.decoding :=
  Option.get _ (recordedActions_done output)

theorem recorded_run (output : Json) :
    Steps SqliteStorage.port (initial SqliteStorage.pointReader.decoding SqlTables.new)
      (recordedActions output) (recorded output) :=
  Run.of_foldlM (Option.some_get (recordedActions_done output)).symm

theorem recorded_found (output : Json) :
    ((getWorkflowInstance .global "w-1" (recorded output).storage.decoded).toOption.join).isSome =
      true := by
  rfl

/-- A read that gives an instance has succeeded. -/
theorem stored_of_join {result : Except StorageError (Option WorkflowInstance)}
    {workflow : WorkflowInstance} (h : some workflow = result.toOption.join) :
    result = .ok (some workflow) := by
  rcases result with error | _ | found
  · cases h
  · cases h
  · cases h
    rfl

/-- Here the answer is a text, not null, and the log gives the instance
again. -/
theorem Steps.log_replays_recorded :
    ∃ events replayed workflow, readEventLog .global "w-1" 1 (recorded (.string "x")).storage =
        some events ∧ reduceWorkflowInstanceEvents none events = .ok replayed ∧
      getWorkflowInstance .global "w-1" (recorded (.string "x")).storage.decoded =
        .ok (some workflow) ∧ replayed.unversioned = workflow.unversioned := by
  have hFound := stored_of_join (Option.some_get (recorded_found (.string "x")))
  have hHuman : ∀ row ∈ ((recorded (.string "x")).storage.eventRows
      (resourceKey .global "w-1")).toList, row.2.event.hasNullHumanInput = false := by
    decide +kernel
  obtain ⟨events, hEvents, hReplays⟩ := Steps.log_replays .sqlite (recorded_run (.string "x"))
    hFound (fun sequence record hRow => hHuman (sequence, record)
      ((FiniteMap.mem_toList _ _).mpr hRow)) Nat.zero_lt_one
  obtain ⟨replayed, hOk, hSame⟩ := hReplays.mpr ⟨by decide +kernel, by decide +kernel⟩
  exact ⟨events, replayed, _, hEvents, hOk, hFound, hSame⟩

/-- An attempt that answered null: the column keeps the null, its event reads
as no output. -/
theorem null_output_not_replayed :
    ¬∀ (actions : List Action) (clients : ReadingClients SqliteStorage.pointReader.decoding),
      Steps SqliteStorage.port (initial SqliteStorage.pointReader.decoding SqlTables.new) actions
        clients → ∀ ns id workflow limit, 0 < limit →
      getWorkflowInstance ns id clients.storage.decoded = .ok (some workflow) →
      ∃ events replayed, readEventLog ns id limit clients.storage = some events ∧
        reduceWorkflowInstanceEvents none events = .ok replayed ∧
          replayed.unversioned = workflow.unversioned := by
  intro hClaim
  have hFound := stored_of_join (Option.some_get (recorded_found .null))
  obtain ⟨events, replayed, hEvents, hOk, hSame⟩ := hClaim _ _ (recorded_run .null) .global "w-1" _ 1
    Nat.zero_lt_one hFound
  let output (workflow : WorkflowInstance) : Bool :=
    ((workflow.tasks.lookup "a[1]").bind (·.outputData)).isSome
  have hReplayed : (((readEventLog .global "w-1" 1 (recorded .null).storage).bind fun events =>
      (reduceWorkflowInstanceEvents none events).toOption).map fun workflow =>
        ((workflow.tasks.lookup "a[1]").bind (·.outputData)).isSome) = some false := by
    decide +kernel
  have hStored : ((((getWorkflowInstance .global "w-1"
      (recorded .null).storage.decoded).toOption.join).map fun workflow =>
        ((workflow.tasks.lookup "a[1]").bind (·.outputData)).isSome)) = some true := by
    decide +kernel
  rw [hEvents, Option.bind_some, hOk] at hReplayed
  rw [hFound] at hStored
  have hOutput := congrArg output hSame
  have hFalse : output replayed = false := Option.some.inj hReplayed
  have hTrue : output (Option.get _ (recorded_found .null)) = true := Option.some.inj hStored
  exact Bool.false_ne_true (hFalse.symm.trans (hOutput.trans hTrue))

end ReadingClients

end RelayFold
