import RelayFold.Library.Runs
import RelayFold.Core.EventReplay
import RelayFold.Adapters.MemoryStorage

/-! Commits of many clients against one in-memory store: optimistic locking
keeps every instance the replay of its own event list. -/
namespace RelayFold

open MemoryStorage WorkflowStateManager

namespace MemoryStorage

def versionAt (storage : MemoryStorage) (key : ResourceKey) : Nat :=
  ((storage.workflowInstances.lookup key).map (·.version)).getD 0

/-- The store after an accepted save. -/
def saved (storage : MemoryStorage) (ns : Namespace) (events : List WorkflowEventRecord)
    (workflow : WorkflowInstance) (info : WorkflowInfo) : MemoryStorage :=
  let key := resourceKey ns workflow.id
  { storage with
    workflowInfos := storage.workflowInfos.insert key info
    workflowInstanceEvents :=
      storage.workflowInstanceEvents.insert key (storage.eventsOf key ++ events)
    workflowInstances := storage.workflowInstances.insert key workflow }

variable {ns : Namespace} {expectedVersion : Nat} {events : List WorkflowEventRecord}
  {workflow : WorkflowInstance} {clock : Clock} {storage : MemoryStorage}

/-- A save on another version than the stored one is refused and changes
nothing. -/
theorem saveWorkflowInstance_conflict
    (h : storage.versionAt (resourceKey ns workflow.id) ≠ expectedVersion) :
    (saveWorkflowInstance ns expectedVersion events workflow clock).run.run storage =
      (.error (.workflowVersionConflict workflow.id expectedVersion
        (storage.versionAt (resourceKey ns workflow.id))), storage) := by
  unfold saveWorkflowInstance
  change StateT.run (ExceptT.run (if storage.versionAt _ ≠ _ then _ else _)) storage = _
  rw [if_pos h]
  rfl

/-- A save that meets its version needs the clock. -/
theorem saveWorkflowInstance_undated (message : String)
    (h : storage.versionAt (resourceKey ns workflow.id) = expectedVersion) :
    (saveWorkflowInstance ns expectedVersion events workflow (.error message)).run.run storage =
      (.error (.other message), storage) := by
  unfold saveWorkflowInstance
  change StateT.run (ExceptT.run (if storage.versionAt _ ≠ _ then _ else _)) storage = _
  rw [if_neg (not_not.mpr h)]
  rfl

theorem saveWorkflowInstance_clock_error (ns : Namespace) (storage : MemoryStorage)
    (expectedVersion : Nat) (events : List WorkflowEventRecord) (workflow : WorkflowInstance)
    (message : String) :
    ∃ error, (saveWorkflowInstance ns expectedVersion events workflow
      (.error message)).run.run storage = (.error error, storage) := by
  by_cases h : storage.versionAt (resourceKey ns workflow.id) = expectedVersion
  · exact ⟨_, saveWorkflowInstance_undated message h⟩
  · exact ⟨_, saveWorkflowInstance_conflict h⟩

/-- The summary an accepted save writes: dated by the batch, with the times of
the summary before it carried forward. -/
def summary (storage : MemoryStorage) (ns : Namespace) (events : List WorkflowEventRecord)
    (workflow : WorkflowInstance) (now : Nat) : WorkflowInfo :=
  let existing := storage.workflowInfos.lookup (resourceKey ns workflow.id)
  let created := (events.head?.map (·.createdTime)).getD now
  let modified := (events.getLast?.map (·.createdTime)).getD created
  .fromInstanceWithTimestamps ns workflow
    ((existing.bind (·.createdAtEpochMs)).or (some created)) modified
    ((existing.bind (·.completedAtEpochMs)).or (workflowCompletedAt workflow modified))

/-- With the expected version the save stores the snapshot, its summary and its
events, all under the same key. -/
theorem saveWorkflowInstance_saved (events : List WorkflowEventRecord) (now : Nat)
    (h : storage.versionAt (resourceKey ns workflow.id) = expectedVersion) :
    (saveWorkflowInstance ns expectedVersion events workflow (.ok now)).run.run storage =
      (.ok (), storage.saved ns events workflow (storage.summary ns events workflow now)) := by
  unfold saveWorkflowInstance
  change StateT.run (ExceptT.run (if storage.versionAt _ ≠ _ then _ else _)) storage = _
  rw [if_neg (not_not.mpr h)]
  rfl

/-- The save as one function of version and clock. -/
theorem saveWorkflowInstance_run (ns : Namespace) (expectedVersion : Nat)
    (events : List WorkflowEventRecord) (workflow : WorkflowInstance) (clock : Clock)
    (storage : MemoryStorage) :
    (saveWorkflowInstance ns expectedVersion events workflow clock).run.run storage =
      if storage.versionAt (resourceKey ns workflow.id) ≠ expectedVersion then
        (.error (.workflowVersionConflict workflow.id expectedVersion
          (storage.versionAt (resourceKey ns workflow.id))), storage)
      else
        match clock with
        | .error message => (.error (.other message), storage)
        | .ok now =>
            (.ok (), storage.saved ns events workflow (storage.summary ns events workflow now)) := by
  split
  · rename_i hVersion
    exact saveWorkflowInstance_conflict hVersion
  · rename_i hVersion
    cases clock with
    | error message => exact saveWorkflowInstance_undated message (not_not.mp hVersion)
    | ok now => exact saveWorkflowInstance_saved events now (not_not.mp hVersion)

/-- An accepted save also writes the summary, dated by the last event of the
batch. -/
theorem saveWorkflowInstance_ok (events : List WorkflowEventRecord) (now : Nat)
    (h : storage.versionAt (resourceKey ns workflow.id) = expectedVersion) :
    ∃ info, (saveWorkflowInstance ns expectedVersion events workflow (.ok now)).run.run storage =
        (.ok (), storage.saved ns events workflow info) ∧
      ∃ created completed, info = .fromInstanceWithTimestamps ns workflow created
        ((events.getLast?.map (·.createdTime)).getD
          ((events.head?.map (·.createdTime)).getD now)) completed :=
  ⟨_, saveWorkflowInstance_saved events now h, _, _, rfl⟩

end MemoryStorage

/-- What an accepted commit stored and returned. -/
structure Accepted (ns : Namespace) (current : Option WorkflowInstance)
    (events : List WorkflowInstanceEvent) (storage storage' : MemoryStorage)
    (updated : WorkflowInstance) : Prop where
  nonempty : events ≠ []
  version_eq : storage.versionAt (resourceKey ns updated.id) = (current.map (·.version)).getD 0
  reduced : ∃ reduced, reduceWorkflowInstanceEvents current events = .ok reduced ∧
    updated = reduced.withVersion ((current.map (·.version)).getD 0 + events.length)
  stored : ∃ records info, records.map (·.event) = events ∧
    storage' = storage.saved ns records updated info

/-- A commit on the memory store is refused, with the store as it was, or
accepted in full. -/
theorem commitEventsForCurrent_cases (ns : Namespace) (current : Option WorkflowInstance)
    (events : List WorkflowInstanceEvent) (clock storageClock : Clock) (storage : MemoryStorage) :
    (∃ error, (commitEventsForCurrent port ns current events clock storageClock).run.run storage =
      (.error error, storage)) ∨
    (∃ updated storage',
      (commitEventsForCurrent port ns current events clock storageClock).run.run storage =
        (.ok updated, storage') ∧ Accepted ns current events storage storage' updated) := by
  rcases commitEventsForCurrent_run ns current events clock storageClock with
    ⟨error, hRun⟩ | ⟨reduced, createdTime, hNonempty, hReduce, hRun⟩
  · exact .inl ⟨error, hRun _ port storage⟩
  · let base := (current.map (·.version)).getD 0
    let updated := reduced.withVersion (base + events.length)
    let records := events.map (WorkflowEventRecord.mk createdTime)
    have hCommit : (commitEventsForCurrent port ns current events clock storageClock).run.run
        storage = ((saveWorkflowInstance ns base records updated storageClock).run.run storage).map
          (·.map fun _ => updated) id := hRun _ port storage
    rw [hCommit]
    by_cases hVersion : storage.versionAt (resourceKey ns updated.id) = base
    · cases storageClock with
      | error message =>
          obtain ⟨error, hSave⟩ := saveWorkflowInstance_clock_error ns storage base records updated message
          rw [hSave]
          exact .inl ⟨error, rfl⟩
      | ok now =>
          obtain ⟨info, hSave, _⟩ := saveWorkflowInstance_ok records now hVersion
          rw [hSave]
          refine .inr ⟨updated, _, rfl, hNonempty, hVersion, ⟨reduced, hReduce, rfl⟩,
            records, info, ?_, rfl⟩
          simp [records, Function.comp_def]
    · rw [saveWorkflowInstance_conflict hVersion]
      exact .inl ⟨_, rfl⟩

/-- A batch that reduces on the stored version is accepted when the clocks can
be read. -/
theorem commitEventsForCurrent_accepts {ns : Namespace} {current : Option WorkflowInstance}
    {events : List WorkflowInstanceEvent} {reduced : WorkflowInstance} {storage : MemoryStorage}
    (hNonempty : events ≠ []) (hReduce : reduceWorkflowInstanceEvents current events = .ok reduced)
    (hVersion : storage.versionAt (resourceKey ns reduced.id) =
      (current.map (·.version)).getD 0) (now storageNow : Nat) :
    ∃ updated storage', (commitEventsForCurrent port ns current events (.ok now)
      (.ok storageNow)).run.run storage = (.ok updated, storage') := by
  cases events with
  | nil => exact absurd rfl hNonempty
  | cons event rest =>
      let base := (current.map (·.version)).getD 0
      let updated := { reduced with version := base + (event :: rest).length }
      let records := (event :: rest).map (WorkflowEventRecord.mk now)
      have hBase : storage.versionAt (resourceKey ns updated.id) = base := hVersion
      obtain ⟨info, hSave, _⟩ := saveWorkflowInstance_ok records storageNow hBase
      refine ⟨updated, storage.saved ns records updated info, ?_⟩
      unfold commitEventsForCurrent
      dsimp only [List.isEmpty_cons]
      rw [hReduce]
      change (saveWorkflowInstance ns base records updated (.ok storageNow) >>=
        fun _ => pure updated).run.run storage = _
      rw [ExceptT.run_bind, StateT.run_bind, hSave]
      rfl

/-- The instance stored under a key as a versioned log. -/
def MemoryStorage.cell (storage : MemoryStorage) (key : ResourceKey) :
    VersionedLog WorkflowInstance WorkflowInstanceEvent where
  head := (storage.workflowInstances.lookup key).map fun workflow =>
    (workflow.version, workflow.unversioned)
  log := (storage.eventsOf key).map (·.event)

/-- The snapshot a client commits on, as the base of a versioned log. -/
def commitBase (current : Option WorkflowInstance) : Option (Nat × WorkflowInstance) :=
  current.map fun workflow => (workflow.version, workflow.unversioned)

/-- The version that a commit expects is that of the snapshot it was decided
on. -/
theorem versionOf_commitBase (current : Option WorkflowInstance) :
    VersionedLog.versionOf (commitBase current) = (current.map (·.version)).getD 0 := by
  cases current <;> rfl

/-- An instance of the store is a cell of the versioned log, with its
version. -/
theorem MemoryStorage.versionOf_cell (storage : MemoryStorage) (key : ResourceKey) :
    VersionedLog.versionOf (storage.cell key).head = storage.versionAt key := by
  unfold cell versionAt
  cases storage.workflowInstances.lookup key <;> rfl

section

variable {ns : Namespace} {current : Option WorkflowInstance}
  {events : List WorkflowInstanceEvent} {storage storage' : MemoryStorage}
  {updated : WorkflowInstance}

/-- An accepted commit replaces one instance. -/
theorem Accepted.lookup (h : Accepted ns current events storage storage' updated)
    (key : ResourceKey) :
    storage'.workflowInstances.lookup key =
      if key = resourceKey ns updated.id then some updated
      else storage.workflowInstances.lookup key := by
  obtain ⟨records, info, _, rfl⟩ := h.stored
  exact FiniteMap.lookup_insert_eq ..

/-- An accepted commit is the versioned-log commit of its cell. -/
theorem Accepted.commit (h : Accepted ns current events storage storage' updated) :
    VersionedLog.commit eventJournal (storage.cell (resourceKey ns updated.id))
      (commitBase current) events = some (storage'.cell (resourceKey ns updated.id)) := by
  obtain ⟨reduced, hReduce, rfl⟩ := h.reduced
  obtain ⟨records, info, hRecords, rfl⟩ := h.stored
  have hReplay : eventJournal.replay ((commitBase current).map Prod.snd) events =
      some reduced.unversioned := by
    have hSnd : (commitBase current).map Prod.snd = current.map (·.unversioned) := by
      cases current <;> rfl
    rw [hSnd, replay_eventJournal, hReduce]
    rfl
  have hVersion := h.version_eq
  rw [← versionOf_commitBase, ← versionOf_cell] at hVersion
  rw [VersionedLog.commit, if_pos ⟨h.nonempty, hVersion⟩, hReplay, versionOf_commitBase]
  simp only [MemoryStorage.cell, MemoryStorage.saved, eventsOf, Finmap.lookup_insert,
    Option.map_some, Option.getD_some, List.map_append, hRecords]
  rfl

theorem Accepted.cell_of_ne (h : Accepted ns current events storage storage' updated)
    {key : ResourceKey} (hKey : key ≠ resourceKey ns updated.id) :
    storage'.cell key = storage.cell key := by
  obtain ⟨records, info, _, rfl⟩ := h.stored
  simp only [MemoryStorage.cell, MemoryStorage.saved, eventsOf, Finmap.lookup_insert_of_ne _ hKey]

theorem Accepted.id_eq {workflow : WorkflowInstance}
    (h : Accepted ns (some workflow) events storage storage' updated) :
    updated.id = workflow.id := by
  obtain ⟨reduced, hReduce, rfl⟩ := h.reduced
  exact (reduceWorkflowInstanceEvents_identity hReduce).id

end

/-- Clients of one store. Each holds the snapshots it has read and those its
commits returned; the base version of every successful commit is kept for the
record. -/
structure StorageClients where
  storage : MemoryStorage
  held : List (Namespace × Option WorkflowInstance)
  committed : List (ResourceKey × Nat)

namespace StorageClients

inductive Action where
  | read (ns : Namespace) (workflowInstanceId : String)
  | commit (snapshot : Nat) (events : List WorkflowInstanceEvent) (clock storageClock : Clock)

def initial : StorageClients := ⟨MemoryStorage.new, [], []⟩

def step (clients : StorageClients) : Action → Option StorageClients
  | .read ns id =>
      some { clients with
        held := (ns, clients.storage.getWorkflowInstance ns id) :: clients.held }
  | .commit snapshot events clock storageClock => do
      let (ns, current) ← clients.held[snapshot]?
      match (commitEventsForCurrent port ns current events clock storageClock).run.run
          clients.storage with
      | (.error _, storage) => some { clients with storage := storage }
      | (.ok updated, storage) =>
          some {
            storage := storage
            held := (ns, some updated) :: clients.held
            committed := (resourceKey ns updated.id, (current.map (·.version)).getD 0) ::
              clients.committed }

/-- The base versions of the successful commits on one instance, latest
first. -/
def baseVersions (clients : StorageClients) (key : ResourceKey) : List Nat :=
  (clients.committed.filter (·.1 = key)).map Prod.snd

/-- Every instance replays its event list, clients hold earlier replays,
and the base versions committed so far are distinct and below the stored
version. -/
structure Inv (clients : StorageClients) : Prop where
  consistent : ∀ key, VersionedLog.Consistent eventJournal (clients.storage.cell key)
  keyed : ∀ ns id workflow,
    clients.storage.workflowInstances.lookup (resourceKey ns id) = some workflow → workflow.id = id
  held : ∀ ns workflow, (ns, some workflow) ∈ clients.held →
    VersionedLog.Held eventJournal (clients.storage.cell (resourceKey ns workflow.id)).log
      (commitBase (some workflow))
  bases_lt : ∀ key, ∀ base ∈ clients.baseVersions key, base < clients.storage.versionAt key
  bases_nodup : ∀ key, (clients.baseVersions key).Nodup

theorem Inv.init : Inv initial where
  consistent _ := VersionedLog.consistent_empty
  keyed _ _ _ h := by cases h
  held _ _ h := by cases h
  bases_lt _ _ h := by cases h
  bases_nodup _ := List.nodup_nil

variable {clients clients' : StorageClients}

/-- Reading gives a client a snapshot that the log has led to. -/
theorem Inv.read (h : Inv clients) (ns : Namespace) (id : String) :
    Inv { clients with held := (ns, clients.storage.getWorkflowInstance ns id) :: clients.held } where
  consistent := h.consistent
  keyed := h.keyed
  bases_lt := h.bases_lt
  bases_nodup := h.bases_nodup
  held ns' workflow hMem := by
    rcases List.mem_cons.mp hMem with hNew | hOld
    · obtain ⟨rfl, hLookup⟩ := Prod.mk.inj hNew
      have hKey := h.keyed ns' id workflow hLookup.symm
      have hHead := (h.consistent (resourceKey ns' workflow.id)).held_head
      rw [MemoryStorage.cell, hKey, show clients.storage.workflowInstances.lookup
        (resourceKey ns' id) = some workflow from hLookup.symm] at hHead
      rwa [MemoryStorage.cell, hKey]
    · exact h.held ns' workflow hOld

/-- A client's snapshot is a replay of a prefix of the instance it would commit
to. -/
theorem Inv.base_held (h : Inv clients) {ns : Namespace} {current : Option WorkflowInstance}
    (hMem : (ns, current) ∈ clients.held) {events : List WorkflowInstanceEvent}
    {storage' : MemoryStorage} {updated : WorkflowInstance}
    (hAccepted : Accepted ns current events clients.storage storage' updated) :
    VersionedLog.Held eventJournal (clients.storage.cell (resourceKey ns updated.id)).log
      (commitBase current) := by
  cases current with
  | none => exact VersionedLog.held_none _
  | some workflow =>
      rw [hAccepted.id_eq]
      exact h.held ns workflow hMem

/-- An accepted commit was reduced on the snapshot the store holds. -/
theorem Inv.base_stored (h : Inv clients) {ns : Namespace} {current : Option WorkflowInstance}
    (hMem : (ns, current) ∈ clients.held) {events : List WorkflowInstanceEvent}
    {storage' : MemoryStorage} {updated : WorkflowInstance}
    (hAccepted : Accepted ns current events clients.storage storage' updated) :
    clients.storage.workflowInstances.lookup (resourceKey ns updated.id) = current := by
  obtain ⟨hHead, _⟩ := VersionedLog.commit_spec (h.consistent (resourceKey ns updated.id))
    (h.base_held hMem hAccepted) hAccepted.commit
  refine Option.map_injective (fun a b hEq => ?_) hHead.symm
  obtain ⟨hVersion, hRest⟩ := Prod.mk.inj hEq
  rw [← a.withVersion_version, ← b.withVersion_version, ← hVersion]
  exact congrArg (·.withVersion a.version) hRest

/-- After an accepted commit the cells are consistent and what the clients hold
is still a prefix of each log. -/
theorem Inv.accepted (h : Inv clients) {ns : Namespace} {current : Option WorkflowInstance}
    (hMem : (ns, current) ∈ clients.held) {events : List WorkflowInstanceEvent}
    {storage' : MemoryStorage} {updated : WorkflowInstance}
    (hAccepted : Accepted ns current events clients.storage storage' updated) :
    Inv {
      storage := storage'
      held := (ns, some updated) :: clients.held
      committed := (resourceKey ns updated.id, (current.map (·.version)).getD 0) ::
        clients.committed } := by
  obtain ⟨hHead, hLog, hLess, hConsistent⟩ := VersionedLog.commit_spec
    (h.consistent (resourceKey ns updated.id)) (h.base_held hMem hAccepted) hAccepted.commit
  rw [versionOf_cell, versionOf_cell] at hLess
  have hVersion := hAccepted.version_eq
  have hOther {key : ResourceKey} (hKey : key ≠ resourceKey ns updated.id) :
      storage'.versionAt key = clients.storage.versionAt key := by
    rw [← versionOf_cell, ← versionOf_cell, hAccepted.cell_of_ne hKey]
  have hOld {key : ResourceKey} {base : Nat} (hBase : base ∈ clients.baseVersions key) :
      base < storage'.versionAt key := by
    have hLt := h.bases_lt key base hBase
    by_cases hKey : key = resourceKey ns updated.id
    · subst hKey
      omega
    · rwa [hOther hKey]
  constructor
  · intro key
    by_cases hKey : key = resourceKey ns updated.id
    · subst hKey
      exact hConsistent
    · dsimp only
      rw [hAccepted.cell_of_ne hKey]
      exact h.consistent key
  · intro ns' id workflow hLookup
    dsimp only at hLookup
    rw [hAccepted.lookup] at hLookup
    split at hLookup
    · rename_i hKey
      cases hLookup
      exact (congrArg (fun key : ResourceKey => (ofLex key).2) hKey).symm
    · exact h.keyed ns' id workflow hLookup
  · intro ns' workflow hMem'
    dsimp only
    rcases List.mem_cons.mp hMem' with hNew | hOld
    · cases hNew
      have hHeld := hConsistent.held_head
      have hStored : (storage'.cell (resourceKey ns updated.id)).head = commitBase (some updated) := by
        simp only [MemoryStorage.cell, hAccepted.lookup, if_true]
        rfl
      rwa [hStored] at hHeld
    · have hHeld := h.held ns' workflow hOld
      by_cases hKey : resourceKey ns' workflow.id = resourceKey ns updated.id
      · rw [hKey] at hHeld ⊢
        rw [hLog]
        exact hHeld.append events
      · rwa [hAccepted.cell_of_ne hKey]
  · intro key base hBase
    by_cases hKey : resourceKey ns updated.id = key
    · subst hKey
      simp only [baseVersions, List.filter_cons, decide_true, if_true, List.map_cons,
        List.mem_cons] at hBase
      rcases hBase with rfl | hBase
      · dsimp only
        omega
      · exact hOld hBase
    · simp only [baseVersions, List.filter_cons, hKey, decide_false] at hBase
      exact hOld hBase
  · intro key
    by_cases hKey : resourceKey ns updated.id = key
    · subst hKey
      simp only [baseVersions, List.filter_cons, decide_true, if_true, List.map_cons,
        List.nodup_cons]
      refine ⟨fun hBase => ?_, h.bases_nodup _⟩
      have hLt := h.bases_lt _ _ hBase
      omega
    · simp only [baseVersions, List.filter_cons, hKey, decide_false]
      exact h.bases_nodup key

/-- Every step of a client keeps the invariant. -/
theorem Inv.step (h : Inv clients) (action : Action) (hStep : clients.step action = some clients') :
    Inv clients' := by
  cases action with
  | read ns id =>
      cases hStep
      exact h.read ns id
  | commit snapshot events clock storageClock =>
      simp only [StorageClients.step] at hStep
      obtain ⟨⟨ns, current⟩, hSnapshot, hStep⟩ := Option.bind_eq_some_iff.mp hStep
      dsimp only at hStep
      rcases commitEventsForCurrent_cases ns current events clock storageClock clients.storage with
        ⟨error, hRun⟩ | ⟨updated, storage', hRun, hAccepted⟩
      · rw [hRun] at hStep
        cases hStep
        exact h
      · rw [hRun] at hStep
        cases hStep
        exact h.accepted (List.mem_of_getElem? hSnapshot) hAccepted

/-- Every instance in every reachable store is the replay of its event list,
counted by its version; no two commits share a base version, and a rejected
commit changes nothing. -/
theorem commits_keep_event_log {actions : List Action}
    (hRun : Run (fun clients action clients' => clients.step action = some clients')
      initial actions clients) (key : ResourceKey) :
    (∀ workflow, clients.storage.workflowInstances.lookup key = some workflow →
      workflow.version = (clients.storage.eventsOf key).length ∧
        ∃ replayed, reduceWorkflowInstanceEvents none
            ((clients.storage.eventsOf key).map (·.event)) = .ok replayed ∧
          replayed.unversioned = workflow.unversioned) ∧
      (clients.baseVersions key).Nodup ∧
      ∀ ns current events clock storageClock error storage',
        (commitEventsForCurrent port ns current events clock storageClock).run.run
            clients.storage = (.error error, storage') →
          storage' = clients.storage := by
  have hInv : Inv clients := hRun.invariant Inv.init fun _ action _ h hStep => h.step action hStep
  refine ⟨fun workflow hLookup => ?_, hInv.bases_nodup key, ?_⟩
  · have hConsistent := hInv.consistent key
    have hVersion := hConsistent.version_eq
    have hReplay := hConsistent.replay_eq
    have hNone := replay_eventJournal none ((clients.storage.eventsOf key).map (·.event))
    rw [versionOf_cell, versionAt, hLookup] at hVersion
    simp only [MemoryStorage.cell, hLookup, Option.map_some] at hReplay
    simp only [MemoryStorage.cell, List.length_map, Option.map_some, Option.getD_some] at hVersion
    refine ⟨hVersion, ?_⟩
    rw [Option.map_none, ← hReplay] at hNone
    cases hReduce : reduceWorkflowInstanceEvents none
        ((clients.storage.eventsOf key).map (·.event)) with
    | error message =>
        rw [hReduce] at hNone
        cases hNone
    | ok replayed =>
        rw [hReduce] at hNone
        exact ⟨replayed, rfl, (Option.some.inj hNone).symm⟩
  · intro ns current events clock storageClock error storage' hRejected
    rcases commitEventsForCurrent_cases ns current events clock storageClock clients.storage with
      ⟨error', hRun'⟩ | ⟨updated, storage'', hRun', _⟩
    · rw [hRun'] at hRejected
      exact (Prod.mk.inj hRejected).2.symm
    · rw [hRun'] at hRejected
      cases hRejected

/-- Create an instance, then let two clients commit on the same snapshot of
it. -/
def contendedActions : List Action :=
  let ns : Namespace := .global
  [.read ns "w-1",
    .commit 0 [.workflowCreated (.created "w-1" "w" ⟨"host"⟩ none)] (.ok 10) (.ok 11),
    .read ns "w-1",
    .commit 0 [.workflowStatusChanged .running] (.ok 20) (.ok 21),
    .commit 1 [.workflowStatusChanged .paused] (.ok 20) (.ok 22)]

theorem contendedActions_run :
    (contendedActions.foldlM StorageClients.step initial).isSome = true := by
  decide +kernel

/-- The second of the two commits is rejected: the instance stays at version
two. -/
theorem commits_keep_event_log_contended :
    ∃ (clients : StorageClients) (workflow : WorkflowInstance),
      clients.storage.workflowInstances.lookup
          (resourceKey ⟨globalNamespace, .inl rfl⟩ "w-1") = some workflow ∧
        workflow.version = 2 ∧
        clients.baseVersions (resourceKey ⟨globalNamespace, .inl rfl⟩ "w-1") = [1, 0] ∧
        ∃ replayed, reduceWorkflowInstanceEvents none
            ((clients.storage.eventsOf (resourceKey ⟨globalNamespace, .inl rfl⟩ "w-1")).map
              (·.event)) = .ok replayed ∧ replayed.unversioned = workflow.unversioned := by
  let last := (contendedActions.foldlM StorageClients.step initial).get contendedActions_run
  let key : ResourceKey := resourceKey ⟨globalNamespace, .inl rfl⟩ "w-1"
  have hRun := Run.of_foldlM (Option.some_get contendedActions_run).symm
  have hStored : (last.storage.workflowInstances.lookup key).isSome = true := by decide +kernel
  have hLookup := (Option.some_get hStored).symm
  obtain ⟨hVersion, hReplay⟩ := (commits_keep_event_log hRun key).1 _ hLookup
  have hCount : (last.storage.eventsOf key).length = 2 := by decide +kernel
  exact ⟨last, _, hLookup, hVersion.trans hCount, by decide +kernel, hReplay⟩

end StorageClients

end RelayFold
