import RelayFold.Core.ChangedTasks
import RelayFold.Adapters.SqlStorage

/-! What one save of a SQL adapter does to its tables: it writes only the rows
of the attempts the batch names, and leaves the rows of the whole saved
snapshot. -/
namespace RelayFold

open SqlTables FallibleFold

/-- A write does what it should, or an integer does not fit its column, which
needs one of the integers to be as large as `Large` says. -/
def Fits {α : Type} (Large : Prop) (result : Except StorageError α) (Post : α → Prop) : Prop :=
  (∃ a, result = .ok a ∧ Post a) ∨ result = .error outOfRange ∧ Large

section

variable {Large : Prop}

/-- Two writes in a row do what the second does after the first. -/
theorem Fits.bind {α β : Type} {x : Except StorageError α} {f : α → Except StorageError β}
    {P : α → Prop} {Q : β → Prop} (h : Fits Large x P) (hNext : ∀ a, P a → Fits Large (f a) Q) :
    Fits Large (x >>= f) Q := by
  rcases h with ⟨a, rfl, hPost⟩ | ⟨rfl, hLarge⟩
  · exact hNext a hPost
  · exact .inr ⟨rfl, hLarge⟩

theorem Fits.ok {α : Type} {a : α} {P : α → Prop} (h : P a) : Fits Large (.ok a) P :=
  .inl ⟨a, rfl, h⟩

theorem i64FromU64_ok {value column : Nat} (h : i64FromU64 value = .ok column) : column = value := by
  unfold i64FromU64 at h
  split at h <;> cases h
  rfl

theorem i64FromU64_of_lt {value : Nat} (h : value < 2 ^ 63) : i64FromU64 value = .ok value :=
  if_pos h

/-- A signed column takes every value below `2^63`, and no other. -/
theorem i64FromU64_fits {value : Nat} (hLarge : 2 ^ 63 ≤ value → Large) :
    Fits Large (i64FromU64 value) fun column => column = value ∧ value < 2 ^ 63 := by
  unfold i64FromU64
  split
  · rename_i hSmall
    exact .ok ⟨rfl, hSmall⟩
  · rename_i hValue
    exact .inr ⟨rfl, hLarge (Nat.le_of_not_lt hValue)⟩

/-- An optional number fits its column unless it is too large. -/
theorem optionalI64FromU64_fits {value : Option Nat}
    (hLarge : ∀ number, value = some number → 2 ^ 63 ≤ number → Large) :
    Fits Large (optionalI64FromU64 value) fun column =>
      column = value ∧ ∀ number, value = some number → number < 2 ^ 63 := by
  cases value with
  | none => exact .ok ⟨rfl, fun _ h => nomatch h⟩
  | some value =>
      rcases i64FromU64_fits (hLarge value rfl) with ⟨_, hValue, rfl, hSmall⟩ | ⟨hValue, hLarge⟩
      · simp only [optionalI64FromU64, hValue]
        exact .ok ⟨rfl, fun number hNumber => Option.some.inj hNumber ▸ hSmall⟩
      · simp only [optionalI64FromU64, hValue]
        exact .inr ⟨rfl, hLarge⟩

end

/-- The columns an instance is read back from. -/
structure RowOf (workflow : WorkflowInstance) (row : WorkflowInstanceRow) : Prop where
  workflowDefId : row.workflowDefId = workflow.workflowDefId
  version : row.version = workflow.version
  status : row.status = workflowStatusName workflow.status
  triggerInput : row.triggerInputJson = workflow.triggerInput
  pin : row.pinnedWorkerHostId.map WorkerHostId.mk = workflow.pinnedWorkerHost

/-- The dates that a later save of the instance writes once more. -/
structure WorkflowInstanceRow.Dated (row : WorkflowInstanceRow) : Prop where
  created : row.createdAtEpochMs < 2 ^ 63
  completed : ∀ time, row.completedAtEpochMs = some time → time < 2 ^ 63

/-- The row of an instance has the columns of its snapshot, or one of its four
integers is too large for a column. -/
theorem instanceRow_fits {Large : Prop} (workflow : WorkflowInstance)
    {version created modified : Nat} {completed : Option Nat}
    (hVersion : 2 ^ 63 ≤ version → Large) (hCreated : 2 ^ 63 ≤ created → Large)
    (hModified : 2 ^ 63 ≤ modified → Large)
    (hCompleted : ∀ time, completed = some time → 2 ^ 63 ≤ time → Large) :
    Fits Large (instanceRow workflow version created modified completed) fun row =>
      RowOf (workflow.withVersion version) row ∧ row.Dated := by
  refine (i64FromU64_fits hVersion).bind ?_
  rintro _ ⟨rfl, _⟩
  refine (i64FromU64_fits hCreated).bind ?_
  rintro _ ⟨rfl, hCreatedSmall⟩
  refine (i64FromU64_fits hModified).bind fun _ _ => ?_
  refine (optionalI64FromU64_fits hCompleted).bind ?_
  rintro _ ⟨rfl, hCompletedSmall⟩
  refine .ok ⟨⟨rfl, rfl, rfl, rfl, ?_⟩, hCreatedSmall, hCompletedSmall⟩
  change (workflow.pinnedWorkerHost.map (·.value)).map WorkerHostId.mk = workflow.pinnedWorkerHost
  cases workflow.pinnedWorkerHost <;> rfl

/-- The tables after a save of one instance, row by row. -/
structure SavedTables (key : ResourceKey) (updated : WorkflowInstance)
    (tables tables' : SqlTables) : Prop where
  row : ∃ row, RowOf updated row ∧ row.Dated ∧ tables'.workflowInstances.lookup key = some row
  task : ∀ id, (tables'.taskRows key).lookup id =
    (updated.tasks.lookup id).map WorkflowTaskRow.ofTask
  verifier : tables'.verifierRows key = updated.verifierStates
  event : ∀ sequence, ((tables'.eventRows key).lookup sequence).isSome = true →
    sequence ≤ updated.version
  other : ∀ key', key' ≠ key →
    tables'.workflowInstances.lookup key' = tables.workflowInstances.lookup key' ∧
    tables'.taskRows key' = tables.taskRows key' ∧
    tables'.verifierRows key' = tables.verifierRows key' ∧
    tables'.eventRows key' = tables.eventRows key'

section

variable {ns : Namespace} {workflow : WorkflowInstance} {tables : SqlTables} {Large : Prop}

/-- The instance row can be written unless its version or one of its times is
too large. -/
theorem upsertWorkflowInstance_fits {created modified : Nat} {completed : Option Nat}
    (hDated : ∀ row, tables.workflowInstances.lookup (resourceKey ns workflow.id) = some row →
      row.Dated)
    (hVersion : 2 ^ 63 ≤ workflow.version → Large) (hCreated : 2 ^ 63 ≤ created → Large)
    (hModified : 2 ^ 63 ≤ modified → Large)
    (hCompleted : ∀ time, completed = some time → 2 ^ 63 ≤ time → Large) :
    Fits Large (upsertWorkflowInstance ns workflow created modified completed tables) fun tables' =>
      ∃ row, RowOf workflow row ∧ row.Dated ∧ tables' = { tables with
        workflowInstances := tables.workflowInstances.insert (resourceKey ns workflow.id) row } := by
  refine (instanceRow_fits workflow hVersion hCreated hModified hCompleted).bind ?_
  rintro row ⟨hRow, hRowDated⟩
  let createdAt := ((tables.workflowInstances.lookup (resourceKey ns workflow.id)).map
    (·.createdAtEpochMs)).getD row.createdAtEpochMs
  have hCreatedAt : createdAt < 2 ^ 63 := by
    cases hExisting : tables.workflowInstances.lookup (resourceKey ns workflow.id) with
    | none => simpa [createdAt, hExisting] using hRowDated.created
    | some existing => simpa [createdAt, hExisting] using (hDated existing hExisting).created
  exact .ok ⟨{ row with createdAtEpochMs := createdAt },
    ⟨hRow.workflowDefId, hRow.version, hRow.status, hRow.triggerInput, hRow.pin⟩,
    ⟨hCreatedAt, hRowDated.completed⟩, rfl⟩

/-- The events of a batch get the numbers from `start` on, unless a number or a
time is too large for its column. -/
theorem insertEvents_fits {key : ResourceKey} (tables : SqlTables)
    (events : List WorkflowEventRecord) (start : Nat)
    (hBelow : ∀ sequence, ((tables.eventRows key).lookup sequence).isSome = true →
      sequence < start)
    (hNumbers : 2 ^ 63 < start + events.length → Large)
    (hTimes : ∀ event ∈ events, 2 ^ 63 ≤ event.createdTime → Large) :
    Fits Large (insertEvents key start events tables) fun tables' =>
      ∃ rows, tables' = { tables with workflowEvents := rows } ∧
        (∀ key', key' ≠ key → rows.lookup key' = tables.workflowEvents.lookup key') ∧
        ∀ sequence, ((tables'.eventRows key).lookup sequence).isSome = true →
          sequence < start + events.length := by
  induction events generalizing start tables with
  | nil => exact .ok ⟨tables.workflowEvents, rfl, fun _ _ => rfl, hBelow⟩
  | cons event events ih =>
      rw [List.length_cons] at hNumbers
      refine (i64FromU64_fits fun hStart => hNumbers (by omega)).bind ?_
      rintro start ⟨rfl, _⟩
      refine (i64FromU64_fits (hTimes event List.mem_cons_self)).bind ?_
      rintro createdTime ⟨rfl, _⟩
      have hFree : (tables.eventRows key).lookup start = none := by
        cases hRow : (tables.eventRows key).lookup start with
        | none => rfl
        | some row => exact absurd (hBelow start (by rw [hRow]; rfl)) (Nat.lt_irrefl _)
      simp only [hFree]
      let rows := (tables.eventRows key).insert start event
      let inserted := { tables with workflowEvents := tables.workflowEvents.insert key rows }
      have hRows : inserted.eventRows key = rows := by
        simp [inserted, eventRows]
      have hNext : ∀ sequence, ((inserted.eventRows key).lookup sequence).isSome = true →
          sequence < start + 1 := by
        intro sequence hSome
        rw [hRows, FiniteMap.lookup_insert_eq] at hSome
        split at hSome
        · omega
        · exact Nat.lt_succ_of_lt (hBelow sequence hSome)
      have hRest := ih inserted (start + 1) hNext (fun hNumber => hNumbers (by omega))
        fun other hOther => hTimes other (List.mem_cons_of_mem _ hOther)
      rcases hRest with ⟨tables', hInsert, rows', hTables, hOther, hBound⟩ | hError
      · refine .inl ⟨tables', hInsert, rows', hTables, fun key' hKey => ?_, fun sequence hSome => ?_⟩
        · rw [hOther key' hKey]
          exact Finmap.lookup_insert_of_ne _ hKey
        · have hLess := hBound sequence hSome
          rw [List.length_cons]
          omega
      · exact .inr hError

/-- The rows of attempts that exist are written without fail. -/
theorem persistTasks_ok (ns : Namespace) (tables : SqlTables) (ids : List String)
    (hPresent : ∀ id ∈ ids, (workflow.tasks.lookup id).isSome = true) :
    let key := resourceKey ns workflow.id
    ∃ rows, ids.foldlM (persistTask ns workflow) tables =
        .ok { tables with workflowTasks := rows } ∧
      (∀ key', key' ≠ key → rows.lookup key' = tables.workflowTasks.lookup key') ∧
      ∀ id, ((rows.lookup key).getD ∅).lookup id =
        if id ∈ ids then (workflow.tasks.lookup id).map WorkflowTaskRow.ofTask
        else (tables.taskRows key).lookup id := by
  intro key
  induction ids generalizing tables with
  | nil => exact ⟨tables.workflowTasks, rfl, fun _ _ => rfl, fun id => by simp [taskRows]⟩
  | cons first rest ih =>
      obtain ⟨task, hTask⟩ := Option.isSome_iff_exists.mp (hPresent first List.mem_cons_self)
      obtain ⟨rows, hFold, hOther, hRows⟩ := ih (tables.upsertTask key first task)
        fun id hId => hPresent id (List.mem_cons_of_mem _ hId)
      refine ⟨rows, ?_, fun key' hKey => ?_, fun id => ?_⟩
      · rw [foldlM_cons_ok]
        exact ⟨tables.upsertTask key first task, by simp only [persistTask, hTask, key], hFold⟩
      · rw [hOther key' hKey]
        exact Finmap.lookup_insert_of_ne _ hKey
      · have hUpserted : (tables.upsertTask key first task).taskRows key =
            (tables.taskRows key).insert first (.ofTask task) := by
          simp [upsertTask, taskRows]
        rw [hRows, hUpserted, FiniteMap.lookup_insert_eq]
        by_cases hEq : id = first
        · subst hEq
          simp [hTask]
        · simp [hEq]

end

/-- An event has a time that a signed column cannot hold. -/
def LateEvent (events : List WorkflowEventRecord) : Prop :=
  ∃ event ∈ events, 2 ^ 63 ≤ event.createdTime

/-- The integers that a save writes for a batch: the version, which is the
number of the last event, and the times of the events. -/
def TooLarge (workflow : WorkflowInstance) (events : List WorkflowEventRecord) : Prop :=
  2 ^ 63 ≤ workflow.version ∨ LateEvent events

/-- What a save may assume of the tables: they hold the instance at the
expected version, and the batch names every attempt whose row is out of
date. -/
structure Savable (ns : Namespace) (expectedVersion : Nat) (events : List WorkflowEventRecord)
    (workflow : WorkflowInstance) (tables : SqlTables) : Prop where
  version : ((tables.workflowInstances.lookup (resourceKey ns workflow.id)).map
    (·.version)).getD 0 = expectedVersion
  updated : workflow.version = expectedVersion + events.length
  nonempty : events ≠ []
  dated : ∀ row, tables.workflowInstances.lookup (resourceKey ns workflow.id) = some row →
    row.Dated
  sequences : ∀ sequence, ((tables.eventRows (resourceKey ns workflow.id)).lookup
    sequence).isSome = true → sequence ≤ expectedVersion
  fresh : tables.workflowInstances.lookup (resourceKey ns workflow.id) = none →
    ∀ id, (tables.taskRows (resourceKey ns workflow.id)).lookup id = none
  named : tables.workflowInstances.lookup (resourceKey ns workflow.id) ≠ none →
    ∀ id ∈ changedTaskAttemptIds events, (workflow.tasks.lookup id).isSome = true
  current : tables.workflowInstances.lookup (resourceKey ns workflow.id) ≠ none →
    ∀ id, id ∉ changedTaskAttemptIds events →
      (tables.taskRows (resourceKey ns workflow.id)).lookup id =
        (workflow.tasks.lookup id).map WorkflowTaskRow.ofTask

section

variable {ns : Namespace} {expectedVersion : Nat} {events : List WorkflowEventRecord}
  {workflow : WorkflowInstance} {tables : SqlTables}

/-- The dates of a save are the times of its first and of its last event. -/
theorem firstTime_late (hNonempty : events ≠ []) (now : Nat)
    (hLarge : 2 ^ 63 ≤ (events.head?.map (·.createdTime)).getD now) : LateEvent events := by
  rw [List.head?_eq_some_head hNonempty, Option.map_some, Option.getD_some] at hLarge
  exact ⟨_, List.head_mem hNonempty, hLarge⟩

/-- If the last time of a batch is too large, an event of the batch is late. -/
theorem lastTime_late (hNonempty : events ≠ []) (time : Nat)
    (hLarge : 2 ^ 63 ≤ (events.getLast?.map (·.createdTime)).getD time) : LateEvent events := by
  rw [List.getLast?_eq_some_getLast hNonempty, Option.map_some, Option.getD_some] at hLarge
  exact ⟨_, List.getLast_mem hNonempty, hLarge⟩

/-- If the first time of a batch does not fit its column, the save holds what
is too large. -/
theorem Savable.firstTime (h : Savable ns expectedVersion events workflow tables) (now : Nat)
    (hLarge : 2 ^ 63 ≤ (events.head?.map (·.createdTime)).getD now) : TooLarge workflow events :=
  .inr (firstTime_late h.nonempty now hLarge)

theorem Savable.lastTime (h : Savable ns expectedVersion events workflow tables) (time : Nat)
    (hLarge : 2 ^ 63 ≤ (events.getLast?.map (·.createdTime)).getD time) : TooLarge workflow events :=
  .inr (lastTime_late h.nonempty time hLarge)

theorem workflowCompletedAt_eq {modifiedAt time : Nat}
    (h : workflowCompletedAt workflow modifiedAt = some time) : time = modifiedAt := by
  unfold workflowCompletedAt at h
  split at h <;> cases h
  rfl

/-- The completion date of a save is the one in the row, or the time of the
last event. -/
theorem completedAt_large {Large : Prop} {existing : Option WorkflowInstanceRow} {modifiedAt : Nat}
    (hDated : ∀ row, existing = some row → row.Dated) (hModified : 2 ^ 63 ≤ modifiedAt → Large)
    (time : Nat) (hTime : (existing.bind (·.completedAtEpochMs)).or
      (workflowCompletedAt workflow modifiedAt) = some time) (hLarge : 2 ^ 63 ≤ time) : Large := by
  rcases Option.or_eq_some_iff.mp hTime with hStored | ⟨_, hNew⟩
  · obtain ⟨row, hRow, hCompleted⟩ := Option.bind_eq_some_iff.mp hStored
    exact absurd ((hDated row hRow).completed time hCompleted) (Nat.not_lt_of_le hLarge)
  · exact hModified (workflowCompletedAt_eq hNew ▸ hLarge)

/-- After the task rows are written, they are the rows of the saved
snapshot. -/
theorem Savable.persist (h : Savable ns expectedVersion events workflow tables)
    (written : SqlTables) (hWritten : written.workflowTasks = tables.workflowTasks) :
    ∃ rows, persistTaskChanges ns workflow events
        (tables.workflowInstances.lookup (resourceKey ns workflow.id)).isNone written =
          .ok { written with workflowTasks := rows } ∧
      (∀ key, key ≠ resourceKey ns workflow.id →
        rows.lookup key = tables.workflowTasks.lookup key) ∧
      ∀ id, ((rows.lookup (resourceKey ns workflow.id)).getD ∅).lookup id =
        (workflow.tasks.lookup id).map WorkflowTaskRow.ofTask := by
  have hRows : written.taskRows (resourceKey ns workflow.id) =
      tables.taskRows (resourceKey ns workflow.id) := by
    rw [taskRows, taskRows, hWritten]
  cases hRow : tables.workflowInstances.lookup (resourceKey ns workflow.id) with
  | none =>
      have hKeys (id : String) :
          id ∈ workflow.tasks.sortedKeys ↔ (workflow.tasks.lookup id).isSome = true := by
        rw [FiniteMap.mem_sortedKeys, Finmap.lookup_isSome]
      obtain ⟨rows, hFold, hOther, hLookup⟩ := persistTasks_ok ns written
        workflow.tasks.sortedKeys fun id hId => (hKeys id).mp hId
      refine ⟨rows, hFold, fun key hKey => (hOther key hKey).trans (by rw [hWritten]), fun id => ?_⟩
      rw [hLookup, hRows, h.fresh hRow]
      by_cases hMem : id ∈ workflow.tasks.sortedKeys
      · rw [if_pos hMem]
      · rw [if_neg hMem]
        rw [hKeys, Bool.not_eq_true, Option.isSome_eq_false_iff, Option.isNone_iff_eq_none] at hMem
        rw [hMem, Option.map_none]
  | some row =>
      have hStored : tables.workflowInstances.lookup (resourceKey ns workflow.id) ≠ none := by
        rw [hRow]
        exact Option.some_ne_none row
      obtain ⟨rows, hFold, hOther, hLookup⟩ := persistTasks_ok ns written
        (changedTaskAttemptIds events) (h.named hStored)
      refine ⟨rows, hFold, fun key hKey => (hOther key hKey).trans (by rw [hWritten]), fun id => ?_⟩
      rw [hLookup, hRows]
      by_cases hMem : id ∈ changedTaskAttemptIds events
      · rw [if_pos hMem]
      · rw [if_neg hMem]
        exact h.current hStored id hMem

/-- The sequences of a batch that is appended lie in range, since the log is
not longer than the version is large. -/
theorem Savable.below (h : Savable ns expectedVersion events workflow tables)
    (instances : FiniteMap ResourceKey WorkflowInstanceRow) (sequence : Nat)
    (hSome : ((eventRows { tables with workflowInstances := instances }
      (resourceKey ns workflow.id)).lookup sequence).isSome = true) :
    sequence < expectedVersion + 1 :=
  Nat.lt_succ_of_le (h.sequences sequence hSome)

/-- A transaction is all or nothing. -/
theorem transaction_run (body : SqlTables → Except StorageError SqlTables) (tables : SqlTables) :
    (transaction body).run.run tables =
      match body tables with
      | .ok tables' => (.ok (), tables')
      | .error error => (.error error, tables) := by
  unfold transaction
  change (match body tables with
    | .ok tables => set tables
    | .error error => throw error : StorageM SqlTables Unit).run.run tables = _
  cases body tables <;> rfl

/-- The four kinds of rows of a save come together. -/
theorem Savable.saved (h : Savable ns expectedVersion events workflow tables)
    {row : WorkflowInstanceRow} (hRow : RowOf workflow row) (hDated : row.Dated)
    {instances : FiniteMap ResourceKey WorkflowInstanceRow}
    (hInstances : ∀ key, instances.lookup key =
      if key = resourceKey ns workflow.id then some row else tables.workflowInstances.lookup key)
    {eventRows' : FiniteMap ResourceKey (FiniteMap Nat WorkflowEventRecord)}
    (hEventsOther : ∀ key, key ≠ resourceKey ns workflow.id →
      eventRows'.lookup key = tables.workflowEvents.lookup key)
    (hEvents : ∀ sequence, (((eventRows'.lookup (resourceKey ns workflow.id)).getD ∅).lookup
      sequence).isSome = true → sequence < expectedVersion + 1 + events.length)
    {taskRows' : FiniteMap ResourceKey (FiniteMap String WorkflowTaskRow)}
    (hTasksOther : ∀ key, key ≠ resourceKey ns workflow.id →
      taskRows'.lookup key = tables.workflowTasks.lookup key)
    (hTasks : ∀ id, ((taskRows'.lookup (resourceKey ns workflow.id)).getD ∅).lookup id =
      (workflow.tasks.lookup id).map WorkflowTaskRow.ofTask) :
    SavedTables (resourceKey ns workflow.id) workflow tables
      (replaceVerifierStates ns workflow
        ⟨instances, taskRows', tables.workflowVerifierStates, eventRows'⟩) where
  row := ⟨row, hRow, hDated, by simp [replaceVerifierStates, hInstances]⟩
  task := hTasks
  verifier := by simp [replaceVerifierStates, verifierRows]
  event sequence hSome := by
    have hLess := hEvents sequence hSome
    rw [h.updated]
    omega
  other key hKey := by
    refine ⟨by simp [replaceVerifierStates, hInstances, hKey], ?_, ?_, ?_⟩
    · simp only [replaceVerifierStates, taskRows, hTasksOther key hKey]
    · simp only [replaceVerifierStates, verifierRows, Finmap.lookup_insert_of_ne _ hKey]
    · simp only [replaceVerifierStates, SqlTables.eventRows, hEventsOther key hKey]

/-- A save commits the rows of the snapshot, or an integer does not fit its
column. -/
def SaveOutcome (outcome : Except StorageError Unit × SqlTables) (key : ResourceKey)
    (workflow : WorkflowInstance) (events : List WorkflowEventRecord) (tables : SqlTables) : Prop :=
  (∃ tables', outcome = (.ok (), tables') ∧ SavedTables key workflow tables tables') ∨
    outcome = (.error outOfRange, tables) ∧ TooLarge workflow events

/-- A save is taken over in full or refused for what is too large; in the
second case nothing has changed. -/
theorem saveOutcome_of_fits {body : SqlTables → Except StorageError SqlTables}
    {key : ResourceKey}
    (h : Fits (TooLarge workflow events) (body tables) (SavedTables key workflow tables)) :
    SaveOutcome ((transaction body).run.run tables) key workflow events tables := by
  rw [transaction_run]
  rcases h with ⟨tables', hBody, hSaved⟩ | ⟨hBody, hLarge⟩
  · rw [hBody]
    exact .inl ⟨tables', rfl, hSaved⟩
  · rw [hBody]
    exact .inr ⟨rfl, hLarge⟩

theorem Savable.numbers (h : Savable ns expectedVersion events workflow tables)
    (hNumber : 2 ^ 63 < expectedVersion + 1 + events.length) : TooLarge workflow events := by
  refine .inl ?_
  rw [h.updated]
  omega

/-- A save of SQLite is taken over in full, or refused for an integer that no
column can hold. -/
theorem SqliteStorage.save_outcome (h : Savable ns expectedVersion events workflow tables)
    (now : Nat) :
    SaveOutcome ((SqliteStorage.saveWorkflowInstance ns expectedVersion events workflow
      (.ok now)).run.run tables) (resourceKey ns workflow.id) workflow events tables := by
  refine saveOutcome_of_fits ?_
  dsimp only
  rw [if_neg (not_not.mpr h.version)]
  refine Fits.bind (P := fun t => t = now) (.ok rfl) ?_
  rintro now rfl
  have hCreated : 2 ^ 63 ≤ ((tables.workflowInstances.lookup (resourceKey ns workflow.id)).map
      (·.createdAtEpochMs)).getD ((events.head?.map (·.createdTime)).getD now) →
        TooLarge workflow events := by
    cases hRow : tables.workflowInstances.lookup (resourceKey ns workflow.id) with
    | none => exact h.firstTime now
    | some row => exact fun hLarge => absurd (h.dated row hRow).created (Nat.not_lt_of_le hLarge)
  refine (upsertWorkflowInstance_fits h.dated Or.inl hCreated (h.lastTime _)
    (completedAt_large h.dated (h.lastTime _))).bind ?_
  rintro _ ⟨row, hRow, hDated, rfl⟩
  refine (insertEvents_fits _ events _ (h.below _) h.numbers
    fun event hEvent hLarge => .inr ⟨event, hEvent, hLarge⟩).bind ?_
  rintro _ ⟨eventRows', rfl, hOther, hBound⟩
  obtain ⟨taskRows', hPersist, hTasksOther, hTasks⟩ := h.persist
    ⟨tables.workflowInstances.insert (resourceKey ns workflow.id) row, tables.workflowTasks,
      tables.workflowVerifierStates, eventRows'⟩ rfl
  rw [hPersist]
  exact .ok (h.saved hRow hDated (fun key => FiniteMap.lookup_insert_eq ..) hOther hBound
    hTasksOther hTasks)

/-- Claiming leaves a row for the instance, at the version a missing one counts
as. -/
theorem MySqlStorage.claim_fits {Large : Prop} (ns : Namespace) (workflow : WorkflowInstance)
    (tables : SqlTables) (created modified : Nat) (hCreated : 2 ^ 63 ≤ created → Large)
    (hModified : 2 ^ 63 ≤ modified → Large) :
    Fits Large (claimWorkflowInstance ns workflow created modified tables) fun claimed =>
      ∃ instances existing, claimed =
          ((tables.workflowInstances.lookup (resourceKey ns workflow.id)).isNone,
            { tables with workflowInstances := instances }) ∧
        instances.lookup (resourceKey ns workflow.id) = some existing ∧
        existing.version = ((tables.workflowInstances.lookup
          (resourceKey ns workflow.id)).map (·.version)).getD 0 ∧
        ((∀ row, tables.workflowInstances.lookup (resourceKey ns workflow.id) = some row →
          row.Dated) → existing.Dated) ∧
        ∀ key, key ≠ resourceKey ns workflow.id →
          instances.lookup key = tables.workflowInstances.lookup key := by
  have hCompleted (time : Nat) (hTime : workflowCompletedAt workflow modified = some time)
      (hLarge : 2 ^ 63 ≤ time) : Large := hModified (workflowCompletedAt_eq hTime ▸ hLarge)
  refine (instanceRow_fits workflow (fun hVersion => absurd hVersion (by decide)) hCreated hModified
    hCompleted).bind ?_
  rintro row ⟨hRow, hDated⟩
  cases hStored : tables.workflowInstances.lookup (resourceKey ns workflow.id) with
  | none =>
      exact .ok ⟨_, row, rfl, Finmap.lookup_insert _, hRow.version, fun _ => hDated,
        fun key hKey => Finmap.lookup_insert_of_ne _ hKey⟩
  | some existing =>
      exact .ok ⟨_, existing, rfl, hStored, rfl, fun hAll => hAll existing rfl, fun _ _ => rfl⟩

/-- A save of MySQL has the same two outcomes, although it claims its row
first. -/
theorem MySqlStorage.save_outcome (h : Savable ns expectedVersion events workflow tables)
    (now : Nat) :
    SaveOutcome ((MySqlStorage.saveWorkflowInstance ns expectedVersion events workflow
      (.ok now)).run.run tables) (resourceKey ns workflow.id) workflow events tables := by
  refine saveOutcome_of_fits ?_
  dsimp only
  refine Fits.bind (P := fun t => t = now) (.ok rfl) ?_
  rintro now rfl
  refine (claim_fits ns workflow tables _ _ (h.firstTime _) (h.lastTime _)).bind ?_
  rintro _ ⟨instances, existing, rfl, hExisting, hVersion, hExistingDated, hClaimed⟩
  dsimp only
  rw [hExisting]
  dsimp only
  rw [if_neg (not_not.mpr (hVersion.trans h.version))]
  have hDated (row : WorkflowInstanceRow) (hRow : some existing = some row) : row.Dated :=
    Option.some.inj hRow ▸ hExistingDated h.dated
  refine (insertEvents_fits _ events _ (h.below _) h.numbers
    fun event hEvent hLarge => .inr ⟨event, hEvent, hLarge⟩).bind ?_
  rintro _ ⟨eventRows', rfl, hOther, hBound⟩
  refine (upsertWorkflowInstance_fits (fun row hRow => hDated row (hExisting.symm.trans hRow))
    Or.inl (fun hLarge => absurd (hDated existing rfl).created (Nat.not_lt_of_le hLarge))
    (h.lastTime _) (completedAt_large hDated (h.lastTime _))).bind ?_
  rintro _ ⟨row, hRow, hRowDated, rfl⟩
  obtain ⟨taskRows', hPersist, hTasksOther, hTasks⟩ := h.persist
    ⟨instances.insert (resourceKey ns workflow.id) row, tables.workflowTasks,
      tables.workflowVerifierStates, eventRows'⟩ rfl
  rw [hPersist]
  refine .ok (h.saved hRow hRowDated (fun key => ?_) hOther hBound hTasksOther hTasks)
  rw [FiniteMap.lookup_insert_eq]
  split
  · rfl
  · exact hClaimed key ‹_›

end

/-- What both adapters promise of a save. A refusal for the version names the
version that is stored; MySQL converts the times before it looks at that. -/
structure SqlAdapter (port : StoragePort SqlTables) : Prop where
  saves : ∀ {ns expectedVersion events workflow tables},
    Savable ns expectedVersion events workflow tables → ∀ now,
      SaveOutcome ((port.saveWorkflowInstance ns expectedVersion events workflow
        (.ok now)).run.run tables) (resourceKey ns workflow.id) workflow events tables
  refuses : ∀ ns expectedVersion events workflow now (tables : SqlTables) actualVersion,
    ((tables.workflowInstances.lookup (resourceKey ns workflow.id)).map (·.version)).getD 0 =
        actualVersion → actualVersion ≠ expectedVersion → events ≠ [] →
      ∃ error, (port.saveWorkflowInstance ns expectedVersion events workflow (.ok now)).run.run
          tables = (.error error, tables) ∧
        (error = .workflowVersionConflict workflow.id expectedVersion actualVersion ∨
          error = outOfRange ∧ LateEvent events)
  unclocked : ∀ ns expectedVersion events workflow message (tables : SqlTables),
    ∃ error, (port.saveWorkflowInstance ns expectedVersion events workflow (.error message)).run.run
      tables = (.error error, tables)

/-- What fails in a transaction is refused for the same reason, and rolled
back. -/
theorem refuses_of_error {body : SqlTables → Except StorageError SqlTables} {tables : SqlTables}
    {Reason : StorageError → Prop} (h : ∃ error, body tables = .error error ∧ Reason error) :
    ∃ error, (transaction body).run.run tables = (.error error, tables) ∧ Reason error := by
  obtain ⟨error, hBody, hReason⟩ := h
  rw [transaction_run, hBody]
  exact ⟨error, rfl, hReason⟩

/-- SQLite meets what the refinement asks of an adapter. -/
theorem SqliteStorage.adapter : SqlAdapter SqliteStorage.port where
  saves h now := SqliteStorage.save_outcome h now
  refuses ns expectedVersion events workflow now tables actualVersion hActual hVersion _ := by
    refine refuses_of_error ?_
    dsimp only
    rw [hActual, if_pos hVersion]
    exact ⟨_, rfl, .inl rfl⟩
  unclocked ns expectedVersion events workflow message tables := by
    change ∃ error, (transaction _).run.run tables = (.error error, tables)
    rw [transaction_run]
    dsimp only
    by_cases hVersion : ((tables.workflowInstances.lookup (resourceKey ns workflow.id)).map
        (·.version)).getD 0 = expectedVersion
    · rw [if_neg (not_not.mpr hVersion)]
      exact ⟨_, rfl⟩
    · rw [if_pos hVersion]
      exact ⟨_, rfl⟩

/-- MySQL meets it as well. -/
theorem MySqlStorage.adapter : SqlAdapter MySqlStorage.port where
  saves h now := MySqlStorage.save_outcome h now
  refuses ns expectedVersion events workflow now tables actualVersion hActual hVersion hNonempty := by
    refine refuses_of_error ?_
    dsimp only
    change ∃ error, (claimWorkflowInstance ns workflow _ _ tables >>= _) = Except.error error ∧ _
    have hFits := claim_fits ns workflow tables _ _ (firstTime_late hNonempty now)
      (lastTime_late hNonempty ((events.head?.map (·.createdTime)).getD now))
    rcases hFits with
      ⟨_, hClaim, instances, existing, rfl, hExisting, hClaimed, _⟩ | ⟨hClaim, hLate⟩
    · rw [hActual] at hClaimed
      rw [hClaim]
      simp only [bind, Except.bind, hExisting]
      rw [if_pos (hClaimed ▸ hVersion), hClaimed]
      exact ⟨_, rfl, .inl rfl⟩
    · rw [hClaim]
      exact ⟨_, rfl, .inr ⟨rfl, hLate⟩⟩
  unclocked _ _ _ _ _ _ := ⟨_, rfl⟩

end RelayFold
