import RelayFold.Adapters.SqlRefinement

/-! `get_workflow_instance` beside the saves of other clients. The in-memory
read and each save are one critical section; the SQL adapters assemble an
instance from three queries. -/
namespace RelayFold

open SqlTables WorkflowStateManager

/-- A point read as the queries it makes: each looks at the committed store
once. -/
structure PointReader (σ : Type) where
  Progress : Type
  start : Progress
  query : Namespace → String → σ → Progress →
    Progress ⊕ Except StorageError (Option WorkflowInstance)

namespace PointReader

variable {σ : Type} (reader : PointReader σ)

/-- How far a read comes while its queries see these states of the store, one
after another. -/
def resume (ns : Namespace) (id : String) (progress : reader.Progress) :
    List σ → reader.Progress ⊕ Except StorageError (Option WorkflowInstance)
  | [] => .inl progress
  | storage :: rest =>
      match reader.query ns id storage progress with
      | .inl progress => resume ns id progress rest
      | .inr result => .inr result

/-- A read that goes on asks its next query of the store as it is then. -/
theorem resume_append {ns : Namespace} {id : String} {progress next : reader.Progress}
    {seen : List σ} (h : reader.resume ns id progress seen = .inl next) (storage : σ) :
    reader.resume ns id progress (seen ++ [storage]) = reader.query ns id storage next := by
  induction seen generalizing progress with
  | nil =>
      cases h
      rw [List.nil_append, resume]
      cases reader.query ns id storage next <;> rfl
  | cons first rest ih =>
      rw [resume] at h
      rw [List.cons_append, resume]
      cases hQuery : reader.query ns id first progress with
      | inl progress =>
          rw [hQuery] at h
          exact ih h
      | inr result =>
          rw [hQuery] at h
          cases h

end PointReader

/-- The rows a SQL read holds between its queries. -/
inductive SqlReadProgress where
  | instanceQuery
  | taskQuery (row : WorkflowInstanceRow)
  | verifierQuery (row : WorkflowInstanceRow) (tasks : FiniteMap String TaskInstance)

def SqlReadProgress.query (ns : Namespace) (id : String) (tables : SqlTables) :
    SqlReadProgress → SqlReadProgress ⊕ Except StorageError (Option WorkflowInstance)
  | .instanceQuery =>
      match tables.workflowInstances.lookup (resourceKey ns id) with
      | none => .inr (.ok none)
      | some row => .inl (.taskQuery row)
  | .taskQuery row =>
      .inl (.verifierQuery row ((tables.taskRows (resourceKey ns id)).mapValues
        WorkflowTaskRow.toTask))
  | .verifierQuery row tasks => .inr do
      let status ← workflowStatusFromName row.status
      return some {
        id := id
        workflowDefId := row.workflowDefId
        version := row.version
        status := status
        triggerInput := row.triggerInputJson
        pinnedWorkerHost := row.pinnedWorkerHostId.map WorkerHostId.mk
        tasks := tasks
        verifierStates := tables.verifierRows (resourceKey ns id) }

def MemoryStorage.pointReader : PointReader MemoryStorage where
  Progress := Unit
  start := ()
  query ns id storage _ := .inr (.ok (storage.getWorkflowInstance ns id))

/-- Each query goes to the pool on its own. -/
def SqliteStorage.pointReader : PointReader SqlTables where
  Progress := SqlReadProgress
  start := .instanceQuery
  query := SqlReadProgress.query

/-- The queries are one transaction, which goes on seeing what its first query
saw. -/
def MySqlStorage.pointReader : PointReader SqlTables where
  Progress := Option SqlTables × SqlReadProgress
  start := (none, .instanceQuery)
  query ns id tables progress :=
    let snapshot := progress.1.getD tables
    match progress.2.query ns id snapshot with
    | .inl next => .inl (some snapshot, next)
    | .inr result => .inr result

/-- What the queries of a SQL read find, in the states of the tables they
see. -/
def assembled (ns : Namespace) (id : String) (first second third : SqlTables) :
    Except StorageError (Option WorkflowInstance) :=
  (getWorkflowInstance ns id first).map (·.map fun workflow => { workflow with
    tasks := (second.taskRows (resourceKey ns id)).mapValues WorkflowTaskRow.toTask
    verifierStates := third.verifierRows (resourceKey ns id) })

/-- The later queries of a found instance see the attempts and the verifier
states that were stored at the first. -/
def Undisturbed (ns : Namespace) (id : String) : List SqlTables → Prop
  | first :: second :: third :: _ =>
      (first.workflowInstances.lookup (resourceKey ns id)).isSome = true →
        (second.taskRows (resourceKey ns id)).mapValues WorkflowTaskRow.toTask =
            (first.taskRows (resourceKey ns id)).mapValues WorkflowTaskRow.toTask ∧
          third.verifierRows (resourceKey ns id) = first.verifierRows (resourceKey ns id)
  | _ => True

section

variable {ns : Namespace} {id : String} {result : Except StorageError (Option WorkflowInstance)}

/-- The memory store answers a read from one state, the first that it sees. -/
theorem MemoryStorage.pointReader_result {seen : List MemoryStorage}
    (h : pointReader.resume ns id pointReader.start seen = .inr result) :
    ∃ first rest, seen = first :: rest ∧ result = .ok (first.getWorkflowInstance ns id) := by
  cases seen with
  | nil => cases h
  | cons first rest =>
      cases h
      exact ⟨first, rest, rfl, rfl⟩

theorem SqlReadProgress.query_missing {tables : SqlTables}
    (h : tables.workflowInstances.lookup (resourceKey ns id) = none) :
    SqlReadProgress.query ns id tables .instanceQuery = .inr (.ok none) := by
  simp only [query, h]

theorem SqlReadProgress.query_present {tables : SqlTables} {row : WorkflowInstanceRow}
    (h : tables.workflowInstances.lookup (resourceKey ns id) = some row) :
    SqlReadProgress.query ns id tables .instanceQuery = .inl (.taskQuery row) := by
  simp only [query, h]

/-- A SQL read that found no row stops there; one that found a row makes two
more queries. -/
theorem SqliteStorage.pointReader_result {seen : List SqlTables}
    (h : pointReader.resume ns id pointReader.start seen = .inr result) :
    (∃ first rest, seen = first :: rest ∧
      first.workflowInstances.lookup (resourceKey ns id) = none ∧ result = .ok none) ∨
    ∃ first second third rest, seen = first :: second :: third :: rest ∧
      (first.workflowInstances.lookup (resourceKey ns id)).isSome = true ∧
      result = assembled ns id first second third := by
  cases seen with
  | nil => cases h
  | cons first rest =>
      cases hRow : first.workflowInstances.lookup (resourceKey ns id) with
      | none =>
          have hQuery : pointReader.query ns id first pointReader.start = .inr (.ok none) :=
            SqlReadProgress.query_missing hRow
          rw [PointReader.resume, hQuery] at h
          cases h
          exact .inl ⟨first, rest, rfl, hRow, rfl⟩
      | some row =>
          have hQuery : pointReader.query ns id first pointReader.start = .inl (.taskQuery row) :=
            SqlReadProgress.query_present hRow
          rw [PointReader.resume, hQuery] at h
          rcases rest with _ | ⟨second, _ | ⟨third, rest⟩⟩
          · cases h
          · cases h
          · cases h
            refine .inr ⟨first, second, third, rest, rfl, by rw [hRow]; rfl, ?_⟩
            simp only [assembled, getWorkflowInstance, hRow]
            cases workflowStatusFromName row.status <;> rfl

/-- A read whose queries all see one state returns the instance stored
there. -/
theorem assembled_self (ns : Namespace) (id : String) (tables : SqlTables) :
    assembled ns id tables tables tables = getWorkflowInstance ns id tables := by
  simp only [assembled, getWorkflowInstance]
  cases tables.workflowInstances.lookup (resourceKey ns id) with
  | none => rfl
  | some row =>
      dsimp only
      cases workflowStatusFromName row.status <;> rfl

/-- The transaction reads as three queries of the tables its first query
saw. -/
theorem MySqlStorage.pointReader_result {seen : List SqlTables}
    (h : pointReader.resume ns id pointReader.start seen = .inr result) :
    ∃ first rest, seen = first :: rest ∧ result = getWorkflowInstance ns id first := by
  cases seen with
  | nil => cases h
  | cons first rest =>
      refine ⟨first, rest, rfl, ?_⟩
      rw [← assembled_self]
      cases hRow : first.workflowInstances.lookup (resourceKey ns id) with
      | none =>
          have hQuery : pointReader.query ns id first pointReader.start = .inr (.ok none) := by
            simp only [pointReader, Option.getD_none, SqlReadProgress.query_missing hRow]
          rw [PointReader.resume, hQuery] at h
          cases h
          simp only [assembled, getWorkflowInstance, hRow]
          rfl
      | some row =>
          have hQuery : pointReader.query ns id first pointReader.start =
              .inl (some first, .taskQuery row) := by
            simp only [pointReader, Option.getD_none, SqlReadProgress.query_present hRow]
          rw [PointReader.resume, hQuery] at h
          rcases rest with _ | ⟨second, _ | ⟨third, rest⟩⟩
          · cases h
          · cases h
          · cases h
            simp only [assembled, getWorkflowInstance, hRow]
            cases workflowStatusFromName row.status <;> rfl

end

/-- A read under way. How many saves of its instance had finished when it
began, and the states its queries saw, are kept for the record. -/
structure OpenRead {σ : Type} (reader : PointReader σ) where
  ns : Namespace
  id : String
  progress : reader.Progress
  since : Nat
  seen : List σ

structure FinishedRead (σ : Type) where
  ns : Namespace
  id : String
  since : Nat
  seen : List σ
  result : Except StorageError (Option WorkflowInstance)

/-- Clients of one store that read point by point and commit on what they have
read. The accepted saves are kept for the record, the earliest first. -/
structure ReadingClients {σ : Type} (reader : PointReader σ) where
  storage : σ
  saved : List (Namespace × WorkflowInstance)
  held : List (Namespace × Option WorkflowInstance)
  reading : List (OpenRead reader)
  finished : List (FinishedRead σ)

namespace ReadingClients

inductive Action where
  | create (ns : Namespace) (events : List WorkflowInstanceEvent) (clock storageClock : Clock)
  | commit (snapshot : Nat) (events : List WorkflowInstanceEvent) (clock storageClock : Clock)
  | beginRead (ns : Namespace) (id : String)
  | query (read : Nat)

variable {σ : Type} {reader : PointReader σ}

def initial (reader : PointReader σ) (storage : σ) : ReadingClients reader :=
  ⟨storage, [], [], [], []⟩

def savedOn (clients : ReadingClients reader) (ns : Namespace) (id : String) :
    List (Namespace × WorkflowInstance) :=
  clients.saved.filter fun entry => resourceKey entry.1 entry.2.id = resourceKey ns id

/-- The committed snapshots of an instance, from its absence on. -/
def snapshots (clients : ReadingClients reader) (ns : Namespace) (id : String) :
    List (Option WorkflowInstance) :=
  none :: (clients.savedOn ns id).map fun entry => some entry.2

def commitOn (port : StoragePort σ) (clients : ReadingClients reader) (ns : Namespace)
    (current : Option WorkflowInstance) (events : List WorkflowInstanceEvent)
    (clock storageClock : Clock) : ReadingClients reader :=
  match (commitEventsForCurrent port ns current events clock storageClock).run.run
      clients.storage with
  | (.error _, storage) => { clients with storage := storage }
  | (.ok updated, storage) =>
      { clients with
        storage := storage
        saved := clients.saved ++ [(ns, updated)]
        held := (ns, some updated) :: clients.held }

def step (port : StoragePort σ) (clients : ReadingClients reader) :
    Action → Option (ReadingClients reader)
  | .create ns events clock storageClock =>
      some (clients.commitOn port ns none events clock storageClock)
  | .commit snapshot events clock storageClock => do
      let (ns, current) ← clients.held[snapshot]?
      return clients.commitOn port ns current events clock storageClock
  | .beginRead ns id =>
      some { clients with
        reading := ⟨ns, id, reader.start, (clients.savedOn ns id).length, []⟩ :: clients.reading }
  | .query n => do
      let read ← clients.reading[n]?
      let seen := read.seen ++ [clients.storage]
      match reader.query read.ns read.id clients.storage read.progress with
      | .inl progress =>
          return { clients with
            reading := clients.reading.set n { read with progress := progress, seen := seen } }
      | .inr result =>
          return { clients with
            reading := clients.reading.eraseIdx n
            held := (result.toOption.map (read.ns, ·)).toList ++ clients.held
            finished := ⟨read.ns, read.id, read.since, seen, result⟩ :: clients.finished }

abbrev Steps (port : StoragePort σ) : ReadingClients reader → List Action →
    ReadingClients reader → Prop :=
  Run fun clients action clients' => clients.step port action = some clients'

/-- The read returned a committed snapshot, at least as new as the last save
that had finished when the read began. -/
def Committed (clients : ReadingClients reader) (read : FinishedRead σ) : Prop :=
  ∃ i found, read.since ≤ i ∧ (clients.snapshots read.ns read.id)[i]? = some found ∧
    read.result = .ok found

/-- The version a commit on the snapshot expects. -/
def expectedVersion (current : Option WorkflowInstance) : Nat :=
  (current.map (·.version)).getD 0

/-- What the store shows of an instance, against an in-memory store that takes
the same commits. -/
structure Shown (port : StoragePort σ) (reader : PointReader σ)
    (stored : Namespace → String → σ → Except StorageError (Option WorkflowInstance))
    (Shows : MemoryStorage → σ → Prop) : Prop where
  commit : ∀ {memory storage} ns current events clock storageClock, Shows memory storage →
    (∀ updated memory', Accepted ns current events memory memory' updated →
      memory.workflowInstances.lookup (resourceKey ns updated.id) = current) →
    ∃ outcome storage', (commitEventsForCurrent port ns current events clock
        storageClock).run.run storage = (outcome, storage') ∧
      match outcome with
      | .error _ => storage' = storage
      | .ok updated => ∃ memory', Accepted ns current events memory memory' updated ∧
          Shows memory' storage'
  shown : ∀ {memory storage} ns id, Shows memory storage →
    (∀ workflow, memory.getWorkflowInstance ns id = some workflow → workflow.id = id) →
      stored ns id storage = .ok (memory.getWorkflowInstance ns id)
  /-- The result has the version its first query found; it is what was stored then, if that is what
  the later queries find. -/
  result : ∀ {ns id seen result}, reader.resume ns id reader.start seen = .inr result →
    (∀ storage ∈ seen, ∃ found, stored ns id storage = .ok found) →
    ∃ first rest before found, seen = first :: rest ∧ stored ns id first = .ok before ∧
      result = .ok found ∧
      found.map (fun workflow => (workflow.id, workflow.version)) =
        before.map (fun workflow => (workflow.id, workflow.version)) ∧
      ((∀ storage ∈ rest, stored ns id storage = .ok before) → found = before)

/-- The queries saw snapshots committed one after another, from the given one
on. -/
def Saw (snapshots : List (Option WorkflowInstance))
    (stored : σ → Except StorageError (Option WorkflowInstance)) (since : Nat) (seen : List σ) :
    Prop :=
  ∃ indices : List Nat, (since :: indices).Pairwise (· ≤ ·) ∧
    List.Forall₂ (fun i storage => ∃ found, stored storage = .ok found ∧
      snapshots[i]? = some found) indices seen

section

variable {snapshots : List (Option WorkflowInstance)}
  {stored : σ → Except StorageError (Option WorkflowInstance)} {since : Nat} {seen : List σ}

theorem Saw.none : Saw snapshots stored since [] := ⟨[], List.pairwise_singleton _ _, .nil⟩

theorem Saw.append (h : Saw snapshots stored since seen)
    (more : List (Option WorkflowInstance)) : Saw (snapshots ++ more) stored since seen := by
  obtain ⟨indices, hOrder, hSeen⟩ := h
  refine ⟨indices, hOrder, hSeen.imp fun i storage ⟨found, hStored, hAt⟩ => ⟨found, hStored, ?_⟩⟩
  rw [List.getElem?_append_left (List.getElem?_eq_some_iff.mp hAt).1, hAt]

/-- A query that sees the latest snapshot comes after the earlier ones. -/
theorem Saw.latest {storage : σ} {found : Option WorkflowInstance}
    (h : Saw snapshots stored since seen) (hSince : since < snapshots.length)
    (hStored : stored storage = .ok found) (hLast : snapshots.getLast? = some found) :
    Saw snapshots stored since (seen ++ [storage]) := by
  obtain ⟨indices, hOrder, hSeen⟩ := h
  refine ⟨indices ++ [snapshots.length - 1], ?_, List.rel_append hSeen (.cons ⟨found, hStored, ?_⟩ .nil)⟩
  · rw [← List.cons_append]
    apply List.pairwise_append.mpr
    refine ⟨hOrder, List.pairwise_singleton _ _, fun i hi last hLastIndex => ?_⟩
    obtain rfl := List.mem_singleton.mp hLastIndex
    rcases List.mem_cons.mp hi with rfl | hi
    · omega
    · obtain ⟨n, hn, rfl⟩ := List.mem_iff_getElem.mp hi
      have hLength := hSeen.length_eq
      obtain ⟨_, _, hAt⟩ := hSeen.get hn (hLength ▸ hn)
      have hBound := (List.getElem?_eq_some_iff.mp hAt).1
      simp only [List.get_eq_getElem] at hBound
      omega
  · rw [← List.getLast?_eq_getElem?, hLast]

/-- Each state that a read has seen was committed since the read began. -/
theorem Saw.committed (h : Saw snapshots stored since seen) {storage : σ} (hMem : storage ∈ seen) :
    ∃ i found, since ≤ i ∧ snapshots[i]? = some found ∧ stored storage = .ok found := by
  obtain ⟨indices, hOrder, hSeen⟩ := h
  obtain ⟨n, hn, rfl⟩ := List.mem_iff_getElem.mp hMem
  have hLength := hSeen.length_eq
  obtain ⟨found, hStored, hAt⟩ := hSeen.get (hLength ▸ hn) hn
  have hSince := List.rel_of_pairwise_cons hOrder (List.getElem_mem (hLength ▸ hn))
  exact ⟨_, found, hSince, hAt, hStored⟩

end

variable {port : StoragePort σ}
  {stored : Namespace → String → σ → Except StorageError (Option WorkflowInstance)}
  {Shows : MemoryStorage → σ → Prop} {clients clients' : ReadingClients reader}
  {memory : MemoryStorage}

/-- The clients against an in-memory store that took the same commits. -/
structure Inv (stored : Namespace → String → σ → Except StorageError (Option WorkflowInstance))
    (Shows : MemoryStorage → σ → Prop) (clients : ReadingClients reader)
    (memory : MemoryStorage) : Prop where
  shows : Shows memory clients.storage
  latest : ∀ ns id, (clients.snapshots ns id).getLast? = some (memory.getWorkflowInstance ns id)
  increasing : ∀ ns id, (clients.snapshots ns id).Pairwise fun a b =>
    expectedVersion a < expectedVersion b
  held : ∀ ns workflow, (ns, some workflow) ∈ clients.held →
    memory.getWorkflowInstance ns workflow.id = some workflow ∨
      workflow.version < memory.versionAt (resourceKey ns workflow.id)
  reading : ∀ read ∈ clients.reading,
    read.since < (clients.snapshots read.ns read.id).length ∧
      reader.resume read.ns read.id reader.start read.seen = .inl read.progress ∧
      Saw (clients.snapshots read.ns read.id) (stored read.ns read.id) read.since read.seen
  finished : ∀ read ∈ clients.finished,
    reader.resume read.ns read.id reader.start read.seen = .inr read.result ∧
      Saw (clients.snapshots read.ns read.id) (stored read.ns read.id) read.since read.seen

/-- The history of an instance holds snapshots of that instance. -/
theorem mem_snapshots {ns : Namespace} {id : String} {workflow : WorkflowInstance}
    (h : some workflow ∈ clients.snapshots ns id) : workflow.id = id := by
  rcases List.mem_cons.mp h with h | h
  · cases h
  · obtain ⟨entry, hEntry, hWorkflow⟩ := List.mem_map.mp h
    cases hWorkflow
    have hKey := of_decide_eq_true (List.mem_filter.mp hEntry).2
    exact (Prod.ext_iff.mp (toLex.injective hKey)).2

theorem Inv.keyed (h : Inv stored Shows clients memory) {ns : Namespace} {id : String}
    {workflow : WorkflowInstance} (hStored : memory.getWorkflowInstance ns id = some workflow) :
    workflow.id = id := by
  have hLatest := h.latest ns id
  rw [hStored] at hLatest
  exact mem_snapshots (List.mem_of_getLast? hLatest)

/-- No committed snapshot is newer than the stored one. -/
theorem Inv.version_le (h : Inv stored Shows clients memory) {ns : Namespace} {id : String}
    {found : Option WorkflowInstance} (hFound : found ∈ clients.snapshots ns id) :
    found = memory.getWorkflowInstance ns id ∨
      expectedVersion found < memory.versionAt (resourceKey ns id) := by
  obtain ⟨earlier, hSplit⟩ := List.getLast?_eq_some_iff.mp (h.latest ns id)
  have hOrder := h.increasing ns id
  rw [hSplit] at hFound hOrder
  rcases List.mem_append.mp hFound with hEarlier | hLast
  · exact .inr ((List.pairwise_append.mp hOrder).2.2 found hEarlier _ List.mem_cons_self)
  · exact .inl (List.mem_singleton.mp hLast)

/-- Later snapshots have larger versions, so a version names its snapshot. -/
theorem Inv.version_lt (h : Inv stored Shows clients memory) {ns : Namespace} {id : String}
    {i j : Nat} {found later : Option WorkflowInstance}
    (hFound : (clients.snapshots ns id)[i]? = some found)
    (hLater : (clients.snapshots ns id)[j]? = some later) (hOrder : i < j) :
    expectedVersion found < expectedVersion later := by
  obtain ⟨hi, rfl⟩ := List.getElem?_eq_some_iff.mp hFound
  obtain ⟨hj, rfl⟩ := List.getElem?_eq_some_iff.mp hLater
  exact List.pairwise_iff_getElem.mp (h.increasing ns id) i j hi hj hOrder

/-- A version stands for one committed snapshot. -/
theorem Inv.eq_of_version (h : Inv stored Shows clients memory) {ns : Namespace} {id : String}
    {i j : Nat} {found other : Option WorkflowInstance}
    (hFound : (clients.snapshots ns id)[i]? = some found)
    (hOther : (clients.snapshots ns id)[j]? = some other)
    (hVersion : expectedVersion found = expectedVersion other) : found = other := by
  rcases Nat.lt_trichotomy i j with hBefore | rfl | hAfter
  · exact absurd hVersion (Nat.ne_of_lt (h.version_lt hFound hOther hBefore))
  · exact Option.some.inj (hFound.symm.trans hOther)
  · exact absurd hVersion (Nat.ne_of_gt (h.version_lt hOther hFound hAfter))

/-- The snapshot of an accepted commit is the stored one. -/
theorem Inv.base_stored (h : Inv stored Shows clients memory) {ns : Namespace}
    {current : Option WorkflowInstance} {events : List WorkflowInstanceEvent}
    {memory' : MemoryStorage} {updated : WorkflowInstance}
    (hHeld : ∀ workflow, current = some workflow → (ns, current) ∈ clients.held)
    (hAccepted : Accepted ns current events memory memory' updated) :
    memory.workflowInstances.lookup (resourceKey ns updated.id) = current := by
  have hVersion := hAccepted.version_eq
  cases current with
  | none =>
      have hFirst : none ∈ clients.snapshots ns updated.id := List.mem_cons_self
      rcases h.version_le hFirst with hStored | hOlder
      · exact hStored.symm
      · exact absurd hVersion (Nat.ne_of_gt hOlder)
  | some workflow =>
      have hId := hAccepted.id_eq
      rw [hId] at hVersion ⊢
      rcases h.held ns workflow (hHeld workflow rfl) with hStored | hOlder
      · exact hStored
      · exact absurd hVersion (Nat.ne_of_gt hOlder)

/-- A commit adds its result to the snapshots of its instance and to no
others. -/
theorem snapshots_commit (ns : Namespace) (updated : WorkflowInstance) (other : Namespace)
    (id : String) (hSaved : clients'.saved = clients.saved ++ [(ns, updated)]) :
    clients'.snapshots other id = clients.snapshots other id ++
      (if resourceKey other id = resourceKey ns updated.id then [some updated] else []) := by
  rw [snapshots, savedOn, hSaved, List.filter_append, List.map_append]
  split
  · rename_i hKey
    rw [List.filter_cons_of_pos (by simpa using hKey.symm)]
    rfl
  · rename_i hKey
    rw [List.filter_cons_of_neg (by simpa using fun h => hKey h.symm)]
    rfl

/-- A commit of a client keeps the history, whatever it comes to. -/
theorem Inv.commitOn (h : Inv stored Shows clients memory) (hShown : Shown port reader stored Shows)
    (ns : Namespace) (current : Option WorkflowInstance) (events : List WorkflowInstanceEvent)
    (clock storageClock : Clock)
    (hHeld : ∀ workflow, current = some workflow → (ns, current) ∈ clients.held) :
    ∃ memory', Inv stored Shows (clients.commitOn port ns current events clock storageClock)
      memory' := by
  obtain ⟨outcome, storage', hRun, hOutcome⟩ := hShown.commit ns current events clock storageClock
    h.shows fun _ _ hAccepted => h.base_stored hHeld hAccepted
  rw [ReadingClients.commitOn, hRun]
  cases outcome with
  | error error =>
      obtain rfl := hOutcome
      exact ⟨memory, h⟩
  | ok updated =>
      obtain ⟨memory', hAccepted, hShows⟩ := hOutcome
      have hStored := h.base_stored hHeld hAccepted
      have hVersion := hAccepted.version_eq
      have hLookup (other : Namespace) (id : String) : memory'.getWorkflowInstance other id =
          if resourceKey other id = resourceKey ns updated.id then some updated
          else memory.getWorkflowInstance other id := hAccepted.lookup _
      have hNewer : memory.versionAt (resourceKey ns updated.id) < updated.version := by
        obtain ⟨reduced, _, hReduced⟩ := hAccepted.reduced
        have hPositive := List.length_pos_of_ne_nil hAccepted.nonempty
        rw [hVersion, hReduced]
        change _ < _ + events.length
        omega
      refine ⟨memory', hShows, fun other id => ?_, fun other id => ?_, fun other workflow hMem => ?_,
        fun read hRead => ?_, fun read hRead => ?_⟩
      · rw [snapshots_commit ns updated other id rfl, hLookup]
        split
        · rw [List.getLast?_append, List.getLast?_singleton, Option.some_or]
        · rw [List.append_nil]
          exact h.latest other id
      · rw [snapshots_commit ns updated other id rfl]
        split
        · rename_i hKey
          apply List.pairwise_append.mpr
          refine ⟨h.increasing other id, List.pairwise_singleton _ _, fun found hFound last hLast => ?_⟩
          obtain rfl := List.mem_singleton.mp hLast
          rw [← hKey] at hNewer
          rcases h.version_le hFound with rfl | hOlder
          · exact hNewer
          · exact hOlder.trans hNewer
        · rw [List.append_nil]
          exact h.increasing other id
      · rcases List.mem_cons.mp hMem with hNew | hOld
        · cases hNew
          left
          rw [hLookup, if_pos rfl]
        · rw [hLookup, MemoryStorage.versionAt, hAccepted.lookup]
          split
          · rename_i hKey
            right
            rw [← hKey] at hNewer
            rcases h.held other workflow hOld with hSame | hOlder
            · have hSameVersion : memory.versionAt (resourceKey other workflow.id) =
                  workflow.version := congrArg expectedVersion hSame
              exact hSameVersion ▸ hNewer
            · exact hOlder.trans hNewer
          · exact h.held other workflow hOld
      · obtain ⟨hSince, hProgress, hSaw⟩ := h.reading read hRead
        rw [snapshots_commit ns updated read.ns read.id rfl, List.length_append]
        exact ⟨Nat.lt_add_right _ hSince, hProgress, hSaw.append _⟩
      · obtain ⟨hResult, hSaw⟩ := h.finished read hRead
        rw [snapshots_commit ns updated read.ns read.id rfl]
        exact ⟨hResult, hSaw.append _⟩

/-- A query sees the latest snapshot. -/
theorem Inv.query (h : Inv stored Shows clients memory) (hShown : Shown port reader stored Shows)
    {read : OpenRead reader} (hRead : read ∈ clients.reading) :
    Saw (clients.snapshots read.ns read.id) (stored read.ns read.id) read.since
      (read.seen ++ [clients.storage]) := by
  obtain ⟨hSince, _, hSaw⟩ := h.reading read hRead
  have hStored := hShown.shown read.ns read.id h.shows fun workflow hFound => h.keyed hFound
  exact hSaw.latest hSince hStored (h.latest read.ns read.id)

/-- What a read returned is the stored snapshot, or it is out of date. -/
theorem Inv.read_held (h : Inv stored Shows clients memory) (hShown : Shown port reader stored Shows)
    {ns : Namespace} {id : String} {since : Nat} {seen : List σ} {workflow : WorkflowInstance}
    (hResult : reader.resume ns id reader.start seen = .inr (.ok (some workflow)))
    (hSaw : Saw (clients.snapshots ns id) (stored ns id) since seen) :
    memory.getWorkflowInstance ns workflow.id = some workflow ∨
      workflow.version < memory.versionAt (resourceKey ns workflow.id) := by
  obtain ⟨first, rest, before, found, rfl, hBefore, hFound, hSame, hWhole⟩ :=
    hShown.result hResult fun storage hMem => by
      obtain ⟨_, found, _, _, hStored⟩ := hSaw.committed hMem
      exact ⟨found, hStored⟩
  cases hFound
  obtain ⟨indices, hOrder, hSeen⟩ := hSaw
  cases hSeen with
  | @cons i _ indices _ hFirst hRest =>
      obtain ⟨found, hFirstStored, hAt⟩ := hFirst
      cases hBefore.symm.trans hFirstStored
      cases before with
      | none => cases hSame
      | some old =>
          have hOld := mem_snapshots (List.mem_of_getElem? hAt)
          obtain ⟨hId, hVersion⟩ := Prod.ext_iff.mp (Option.some.inj hSame)
          dsimp only at hId hVersion
          rw [hId, hOld, hVersion]
          rcases h.version_le (List.mem_of_getElem? hAt) with hStored | hOlder
          · -- Nothing was saved since the first query, so the later ones saw the same.
            left
            have hLater : ∀ storage ∈ rest, stored ns id storage = .ok (some old) := by
              intro storage hMem
              obtain ⟨n, hn, rfl⟩ := List.mem_iff_getElem.mp hMem
              have hLength := hRest.length_eq
              obtain ⟨later, hLaterStored, hLaterAt⟩ := hRest.get (hLength ▸ hn) hn
              have hAfter := List.rel_of_pairwise_cons (List.pairwise_cons.mp hOrder).2
                (List.getElem_mem (hLength ▸ hn))
              rcases Nat.eq_or_lt_of_le hAfter with rfl | hAfter
              · rw [Option.some.inj (hAt.symm.trans hLaterAt)]
                exact hLaterStored
              · have hNewer := h.version_lt hAt hLaterAt hAfter
                rcases h.version_le (List.mem_of_getElem? hLaterAt) with rfl | hOlder
                · exact absurd hNewer (hStored ▸ Nat.lt_irrefl _)
                · have hVersion : memory.versionAt (resourceKey ns id) = expectedVersion (some old) :=
                    congrArg expectedVersion hStored.symm
                  exact absurd hNewer (Nat.lt_asymm (hVersion ▸ hOlder))
            rw [← hStored]
            exact (hWhole hLater).symm
          · exact .inr hOlder

/-- So does each query of a read, between whatever commits. -/
theorem Inv.step (h : Inv stored Shows clients memory) (hShown : Shown port reader stored Shows)
    {action : Action} (hStep : clients.step port action = some clients') :
    ∃ memory', Inv stored Shows clients' memory' := by
  cases action with
  | create ns events clock storageClock =>
      cases hStep
      exact h.commitOn hShown ns none events clock storageClock fun _ hCurrent => (by cases hCurrent)
  | commit snapshot events clock storageClock =>
      obtain ⟨⟨ns, current⟩, hSnapshot, hStep⟩ := Option.bind_eq_some_iff.mp hStep
      cases hStep
      exact h.commitOn hShown ns current events clock storageClock fun _ _ =>
        List.mem_of_getElem? hSnapshot
  | beginRead ns id =>
      cases hStep
      refine ⟨memory, h.shows, h.latest, h.increasing, h.held, fun read hRead => ?_, h.finished⟩
      rcases List.mem_cons.mp hRead with rfl | hRead
      · refine ⟨?_, rfl, .none⟩
        change (clients.savedOn ns id).length < (none :: (clients.savedOn ns id).map _).length
        rw [List.length_cons, List.length_map]
        exact Nat.lt_succ_self _
      · exact h.reading read hRead
  | query n =>
      obtain ⟨read, hRead, hStep⟩ := Option.bind_eq_some_iff.mp hStep
      have hMem := List.mem_of_getElem? hRead
      obtain ⟨hSince, hProgress, _⟩ := h.reading read hMem
      have hSaw := h.query hShown hMem
      have hQuery := reader.resume_append hProgress clients.storage
      dsimp only at hStep
      split at hStep
      · rename_i progress hNext
        cases hStep
        refine ⟨memory, h.shows, h.latest, h.increasing, h.held, fun other hOther => ?_, h.finished⟩
        rcases List.mem_or_eq_of_mem_set hOther with hOther | rfl
        · exact h.reading other hOther
        · exact ⟨hSince, hQuery.trans hNext, hSaw⟩
      · rename_i result hDone
        cases hStep
        have hResult := hQuery.trans hDone
        refine ⟨memory, h.shows, h.latest, h.increasing, fun ns workflow hHeld => ?_,
          fun other hOther => h.reading other (List.mem_of_mem_eraseIdx hOther), fun other hOther => ?_⟩
        · rcases List.mem_append.mp hHeld with hNew | hOld
          · obtain ⟨found, hFound, hPair⟩ := Option.map_eq_some_iff.mp (Option.mem_toList.mp hNew)
            cases hPair
            cases result with
            | error error => cases hFound
            | ok found =>
                cases hFound
                exact h.read_held hShown hResult hSaw
          · exact h.held ns workflow hOld
        · rcases List.mem_cons.mp hOther with rfl | hOther
          · exact ⟨hResult, hSaw⟩
          · exact h.finished other hOther

/-- Initially nothing has been committed and nobody reads. -/
theorem Inv.initial {storage : σ} (hShown : Shows MemoryStorage.new storage) :
    Inv stored Shows (ReadingClients.initial reader storage) MemoryStorage.new where
  shows := hShown
  latest _ _ := rfl
  increasing _ _ := List.pairwise_singleton _ _
  held _ _ := fun h => (by cases h)
  reading := List.forall_mem_nil _
  finished := List.forall_mem_nil _

/-- In every state of a run each reader has seen committed states only. -/
theorem Steps.inv {storage : σ} {actions : List Action}
    (run : Steps port (initial reader storage) actions clients)
    (hShown : Shown port reader stored Shows) (hStart : Shows MemoryStorage.new storage) :
    ∃ memory, Inv stored Shows clients memory :=
  run.invariant (P := fun clients => ∃ memory, Inv stored Shows clients memory)
    ⟨_, Inv.initial hStart⟩ fun _ _ _ ⟨_, h⟩ hStep => h.step hShown hStep

/-- The memory store shows what it holds. -/
theorem memoryStorage_shown :
    Shown MemoryStorage.port MemoryStorage.pointReader
      (fun ns id storage => .ok (storage.getWorkflowInstance ns id)) Eq where
  commit {memory storage} ns current events clock storageClock hSame _ := by
    obtain rfl := hSame
    rcases commitEventsForCurrent_cases ns current events clock storageClock memory with
      ⟨error, hRun⟩ | ⟨updated, memory', hRun, hAccepted⟩
    · exact ⟨_, _, hRun, rfl⟩
    · exact ⟨_, _, hRun, memory', hAccepted, rfl⟩
  shown {memory storage} ns id hSame _ := by rw [hSame]
  result h _ := by
    obtain ⟨first, rest, rfl, rfl⟩ := MemoryStorage.pointReader_result h
    exact ⟨first, rest, _, _, rfl, rfl, rfl, rfl, fun _ => rfl⟩

/-- A SQL commit that fails leaves the tables as they were. -/
theorem commit_rolled_back {port : StoragePort SqlTables}
    (hPort : port = SqliteStorage.port ∨ port = MySqlStorage.port) {ns : Namespace}
    {current : Option WorkflowInstance} {events : List WorkflowInstanceEvent}
    {clock storageClock : Clock} {tables tables' : SqlTables} {error : StorageError}
    (h : (commitEventsForCurrent port ns current events clock storageClock).run.run tables =
      (.error error, tables')) : tables' = tables := by
  have hSave (expectedVersion : Nat) (records : List WorkflowEventRecord)
      (workflow : WorkflowInstance) {error : StorageError} {tables' : SqlTables}
      (hSaved : (port.saveWorkflowInstance ns expectedVersion records workflow
        storageClock).run.run tables = (.error error, tables')) : tables' = tables := by
    rcases hPort with rfl | rfl
    all_goals
      change (transaction _).run.run tables = _ at hSaved
      rw [transaction_run] at hSaved
      split at hSaved
      · cases hSaved
      · cases hSaved
        rfl
  rcases commitEventsForCurrent_run ns current events clock storageClock with
    ⟨_, hRun⟩ | ⟨reduced, createdTime, _, _, hRun⟩
  · rw [hRun] at h
    cases h
    rfl
  · dsimp only at hRun
    rw [hRun] at h
    rcases hOutcome : (port.saveWorkflowInstance ns _ _ _ storageClock).run.run tables with
      ⟨error | _, saved⟩
    · rw [hOutcome] at h
      cases h
      exact hSave _ _ _ hOutcome
    · rw [hOutcome] at h
      cases h

/-- A commit on mirrored stores is accepted by both, or leaves both as they
were. -/
theorem sql_commit {port : StoragePort SqlTables}
    (hPort : port = SqliteStorage.port ∨ port = MySqlStorage.port) {memory : MemoryStorage}
    {tables : SqlTables} (ns : Namespace) (current : Option WorkflowInstance)
    (events : List WorkflowInstanceEvent) (clock storageClock : Clock)
    (hMirrors : Mirrors memory tables)
    (hStored : ∀ updated memory', Accepted ns current events memory memory' updated →
      memory.workflowInstances.lookup (resourceKey ns updated.id) = current) :
    ∃ outcome tables', (commitEventsForCurrent port ns current events clock
        storageClock).run.run tables = (outcome, tables') ∧
      match outcome with
      | .error _ => tables' = tables
      | .ok updated => ∃ memory', Accepted ns current events memory memory' updated ∧
          Mirrors memory' tables' := by
  have hAdapter : SqlAdapter port := by
    rcases hPort with rfl | rfl
    · exact SqliteStorage.adapter
    · exact MySqlStorage.adapter
  obtain ⟨hAgrees, hNext⟩ := hMirrors.commit hAdapter ns current events clock storageClock hStored
  rcases hSql : (commitEventsForCurrent port ns current events clock storageClock).run.run tables with
    ⟨error | updated, tables'⟩
  · exact ⟨_, _, rfl, commit_rolled_back hPort hSql⟩
  · refine ⟨_, _, rfl, ?_⟩
    rw [hSql] at hAgrees hNext
    rcases commitEventsForCurrent_cases ns current events clock storageClock memory with
      ⟨error, hMemory⟩ | ⟨updated', memory', hMemory, hAccepted⟩
    · rw [hMemory] at hAgrees
      exact hAgrees.elim
    · rw [hMemory] at hAgrees hNext
      have hSame : updated = updated' := hAgrees
      exact ⟨memory', hSame ▸ hAccepted, hNext rfl⟩

section

variable {ns : Namespace} {id : String} {tables : SqlTables} {workflow : WorkflowInstance}

/-- What the rows of a stored instance are, from what is read of them. -/
theorem rows_of_stored (h : getWorkflowInstance ns id tables = .ok (some workflow)) :
    workflow.id = id ∧ workflow.tasks =
        (tables.taskRows (resourceKey ns id)).mapValues WorkflowTaskRow.toTask ∧
      workflow.verifierStates = tables.verifierRows (resourceKey ns id) := by
  simp only [getWorkflowInstance] at h
  split at h
  · cases h
  · rename_i row _
    cases hStatus : workflowStatusFromName row.status with
    | error error =>
        rw [hStatus] at h
        cases h
    | ok status =>
        rw [hStatus] at h
        cases h
        exact ⟨rfl, rfl, rfl⟩

/-- Where there is an instance row the read finds an instance. -/
theorem stored_of_row (hRow : (tables.workflowInstances.lookup (resourceKey ns id)).isSome = true)
    {found : Option WorkflowInstance} (h : getWorkflowInstance ns id tables = .ok found) :
    ∃ workflow, found = some workflow := by
  obtain ⟨row, hRow⟩ := Option.isSome_iff_exists.mp hRow
  simp only [getWorkflowInstance, hRow] at h
  cases hStatus : workflowStatusFromName row.status with
  | error error =>
      rw [hStatus] at h
      cases h
  | ok status =>
      rw [hStatus] at h
      cases h
      exact ⟨_, rfl⟩

/-- If the row of the instance has not changed, a read in parts gives the
instance of the first state with the tasks and the verifier states of the later
ones. -/
theorem assembled_of_stored (h : getWorkflowInstance ns id tables = .ok (some workflow))
    (second third : SqlTables) :
    assembled ns id tables second third = .ok (some { workflow with
      tasks := (second.taskRows (resourceKey ns id)).mapValues WorkflowTaskRow.toTask
      verifierStates := third.verifierRows (resourceKey ns id) }) := by
  rw [assembled, h]
  rfl

theorem stored_of_missing
    (hRow : tables.workflowInstances.lookup (resourceKey ns id) = none) :
    getWorkflowInstance ns id tables = .ok none := by
  simp only [getWorkflowInstance, hRow]

end

/-- SQLite shows what the memory store would hold. -/
theorem sqliteStorage_shown :
    Shown SqliteStorage.port SqliteStorage.pointReader getWorkflowInstance Mirrors where
  commit ns current events clock storageClock hMirrors hStored :=
    sql_commit (.inl rfl) ns current events clock storageClock hMirrors hStored
  shown ns id hMirrors hKeyed := hMirrors.getWorkflowInstance ns id hKeyed
  result {ns id seen result} h hSeen := by
    rcases SqliteStorage.pointReader_result h with
      ⟨first, rest, rfl, hRow, rfl⟩ | ⟨first, second, third, rest, rfl, hRow, rfl⟩
    · exact ⟨first, rest, none, none, rfl, stored_of_missing hRow, rfl, rfl, fun _ => rfl⟩
    · obtain ⟨before, hBefore⟩ := hSeen first List.mem_cons_self
      obtain ⟨workflow, rfl⟩ := stored_of_row hRow hBefore
      refine ⟨first, second :: third :: rest, some workflow, _, rfl, hBefore,
        assembled_of_stored hBefore second third, rfl, fun hLater => ?_⟩
      obtain ⟨_, hTasks, _⟩ := rows_of_stored (hLater second List.mem_cons_self)
      obtain ⟨_, _, hStates⟩ := rows_of_stored
        (hLater third (List.mem_cons_of_mem _ List.mem_cons_self))
      rw [← hTasks, ← hStates]

/-- MySQL shows what the memory store would hold. -/
theorem mySqlStorage_shown :
    Shown MySqlStorage.port MySqlStorage.pointReader getWorkflowInstance Mirrors where
  commit ns current events clock storageClock hMirrors hStored :=
    sql_commit (.inr rfl) ns current events clock storageClock hMirrors hStored
  shown ns id hMirrors hKeyed := hMirrors.getWorkflowInstance ns id hKeyed
  result h hSeen := by
    obtain ⟨first, rest, rfl, rfl⟩ := MySqlStorage.pointReader_result h
    obtain ⟨before, hBefore⟩ := hSeen first List.mem_cons_self
    exact ⟨first, rest, before, before, rfl, hBefore, hBefore, rfl, fun _ => rfl⟩

/-- A SQLite read returns a committed snapshot exactly when its later queries
see what its first saw. -/
theorem committed_iff_undisturbed {clients : ReadingClients SqliteStorage.pointReader}
    {memory : MemoryStorage} (h : Inv getWorkflowInstance Mirrors clients memory)
    {read : FinishedRead SqlTables} (hRead : read ∈ clients.finished) :
    clients.Committed read ↔ Undisturbed read.ns read.id read.seen := by
  obtain ⟨hResult, hSaw⟩ := h.finished read hRead
  have hFirst (first : SqlTables) (hMem : first ∈ read.seen) := hSaw.committed hMem
  rcases SqliteStorage.pointReader_result hResult with
    ⟨first, rest, hSeen, hRow, hNone⟩ | ⟨first, second, third, rest, hSeen, hRow, hFound⟩
  · obtain ⟨i, found, hSince, hAt, hStored⟩ := hFirst first (hSeen ▸ List.mem_cons_self)
    refine iff_of_true ⟨i, found, hSince, hAt, ?_⟩ ?_
    · rw [hNone, ← stored_of_missing hRow, hStored]
    · rw [hSeen, Undisturbed.eq_def]
      split
      · rename_i hCons
        cases hCons
        intro hPresent
        rw [hRow] at hPresent
        cases hPresent
      · trivial
  · obtain ⟨i, found, hSince, hAt, hStored⟩ := hFirst first (hSeen ▸ List.mem_cons_self)
    obtain ⟨workflow, rfl⟩ := stored_of_row hRow hStored
    obtain ⟨_, hTasks, hStates⟩ := rows_of_stored hStored
    rw [hSeen, Undisturbed]
    constructor
    · rintro ⟨j, other, _, hOther, hReturned⟩ _
      rw [hFound, assembled_of_stored hStored] at hReturned
      have hSame : other = some workflow := by
        apply h.eq_of_version hOther hAt
        rw [← Except.ok.inj hReturned]
        rfl
      have hWhole := Option.some.inj ((Except.ok.inj hReturned).trans hSame)
      rw [← hTasks, ← hStates]
      exact ⟨congrArg WorkflowInstance.tasks hWhole, congrArg WorkflowInstance.verifierStates hWhole⟩
    · intro hUndisturbed
      obtain ⟨hSecond, hThird⟩ := hUndisturbed hRow
      refine ⟨i, some workflow, hSince, hAt, ?_⟩
      rw [hFound, assembled_of_stored hStored, hSecond, hThird, ← hTasks, ← hStates]

/-- Reads of the in-memory store and of MySQL return committed snapshots, at
least as new as the last save that had finished; those of SQLite do exactly
while no commit changes the attempts or the verifier states between their
queries. -/
theorem point_reads_committed (actions : List Action) :
    (∀ clients, Steps MemoryStorage.port
      (ReadingClients.initial MemoryStorage.pointReader MemoryStorage.new) actions clients →
        ∀ read ∈ clients.finished, clients.Committed read) ∧
    (∀ clients, Steps MySqlStorage.port
      (ReadingClients.initial MySqlStorage.pointReader SqlTables.new) actions clients →
        ∀ read ∈ clients.finished, clients.Committed read) ∧
    ∀ clients, Steps SqliteStorage.port
      (ReadingClients.initial SqliteStorage.pointReader SqlTables.new) actions clients →
        ∀ read ∈ clients.finished,
          (clients.Committed read ↔ Undisturbed read.ns read.id read.seen) := by
  refine ⟨fun clients run read hRead => ?_, fun clients run read hRead => ?_,
    fun clients run read hRead => ?_⟩
  · obtain ⟨memory, h⟩ := Steps.inv run memoryStorage_shown rfl
    obtain ⟨hResult, hSaw⟩ := h.finished read hRead
    obtain ⟨first, rest, hSeen, hReturned⟩ := MemoryStorage.pointReader_result hResult
    obtain ⟨i, found, hSince, hAt, hStored⟩ := hSaw.committed (hSeen ▸ List.mem_cons_self)
    exact ⟨i, found, hSince, hAt, hReturned.trans hStored⟩
  · obtain ⟨memory, h⟩ := Steps.inv run mySqlStorage_shown Mirrors.init
    obtain ⟨hResult, hSaw⟩ := h.finished read hRead
    obtain ⟨first, rest, hSeen, hReturned⟩ := MySqlStorage.pointReader_result hResult
    obtain ⟨i, found, hSince, hAt, hStored⟩ := hSaw.committed (hSeen ▸ List.mem_cons_self)
    exact ⟨i, found, hSince, hAt, hReturned.trans hStored⟩
  · obtain ⟨memory, h⟩ := Steps.inv run sqliteStorage_shown Mirrors.init
    exact committed_iff_undisturbed h hRead

/-- An attempt completes between the first and the second query of a read. -/
def tornActions : List Action :=
  [.create .global [.workflowCreated (.created "w-1" "w" ⟨"host"⟩ none)] (.ok 10) (.ok 11),
    .commit 0 [.taskMaterialized "a[1]" (.fresh "a" 1)] (.ok 20) (.ok 21),
    .beginRead .global "w-1", .query 0,
    .commit 0 [.taskStatusChanged "a[1]" .completed] (.ok 30) (.ok 31),
    .query 0, .query 0]

/-- The version and the status of the attempt that a read found. -/
def versionAndStatus (found : Option WorkflowInstance) : Option (Nat × Option TaskStatus) :=
  found.map fun workflow => (workflow.version, (workflow.tasks.lookup "a[1]").map (·.status))

/-- The sample run commits between the queries of a read, and SQLite lets
it. -/
theorem tornActions_sqlite :
    (tornActions.foldlM (step SqliteStorage.port)
      (ReadingClients.initial SqliteStorage.pointReader SqlTables.new)).isSome = true := by
  decide +kernel

/-- On MySQL the same run is possible too; there the read sees one state. -/
theorem tornActions_mySql :
    (tornActions.foldlM (step MySqlStorage.port)
      (ReadingClients.initial MySqlStorage.pointReader SqlTables.new)).isSome = true := by
  decide +kernel

def tornSqlite : ReadingClients SqliteStorage.pointReader := Option.get _ tornActions_sqlite

def tornMySql : ReadingClients MySqlStorage.pointReader := Option.get _ tornActions_mySql

theorem tornSqlite_finished : 0 < tornSqlite.finished.length := by decide +kernel

theorem tornMySql_finished : 0 < tornMySql.finished.length := by decide +kernel

/-- The transaction of MySQL returns the snapshot its first query saw. -/
theorem point_reads_committed_mySql :
    let read := tornMySql.finished.get ⟨0, tornMySql_finished⟩
    tornMySql.Committed read ∧
      read.result.toOption.map versionAndStatus = some (some (2, some .pending)) :=
  ⟨(point_reads_committed tornActions).2.1 tornMySql
    (Run.of_foldlM (Option.some_get tornActions_mySql).symm) _ (List.get_mem _ _), by decide +kernel⟩

/-- SQLite returns the old version with the new status, which no commit stored
together. -/
theorem sqlite_read_torn :
    ¬∀ actions clients, Steps SqliteStorage.port
      (ReadingClients.initial SqliteStorage.pointReader SqlTables.new) actions clients →
        ∀ read ∈ clients.finished, clients.Committed read := by
  intro hClaim
  have run := Run.of_foldlM (Option.some_get tornActions_sqlite).symm
  let read := tornSqlite.finished.get ⟨0, tornSqlite_finished⟩
  obtain ⟨i, found, _, hAt, hResult⟩ := hClaim tornActions tornSqlite run read (List.get_mem _ _)
  have hTorn : (tornSqlite.finished.get ⟨0, tornSqlite_finished⟩).result.toOption.map
      versionAndStatus = some (some (2, some .completed)) := by decide +kernel
  have hNone : ∀ found ∈ tornSqlite.snapshots (tornSqlite.finished.get ⟨0, tornSqlite_finished⟩).ns
      (tornSqlite.finished.get ⟨0, tornSqlite_finished⟩).id,
      versionAndStatus found ≠ some (2, some .completed) := by decide +kernel
  have hFound : versionAndStatus found = some (2, some .completed) := by
    rw [hResult] at hTorn
    exact Option.some.inj hTorn
  exact hNone found (List.mem_of_getElem? hAt) hFound

end ReadingClients

end RelayFold
