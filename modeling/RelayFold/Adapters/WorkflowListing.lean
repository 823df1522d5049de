import RelayFold.Adapters.MemoryStorageRuns
import RelayFold.Library.PageEnumeration

/-! Listing summaries page by page (`ports/storage.rs`,
`memory_storage.rs`): filtered, newest first, each page starting after the
cursor of the page before. -/
namespace RelayFold

open MemoryStorage WorkflowStateManager KeysetPages PageEnumeration

inductive WorkflowInstanceFilter where
  | statuses (statuses : List WorkflowStatus)
  | workflowDefId (workflowDefId : String)

structure WorkflowInfoCursor where
  ns : Namespace
  modifiedAtEpochMs : Nat
  workflowInstanceId : String

structure PageRequest (C : Type) where
  limit : Nat
  cursor : Option C

/-- The sort key: modification time, then id, then namespace. -/
abbrev WorkflowInfoRank := Lex (Nat × Lex (String × Namespace))

def WorkflowInfo.rank (info : WorkflowInfo) : WorkflowInfoRank :=
  toLex (info.modifiedAtEpochMs, toLex (info.id, info.ns))

def WorkflowInfoCursor.rank (cursor : WorkflowInfoCursor) : WorkflowInfoRank :=
  toLex (cursor.modifiedAtEpochMs, toLex (cursor.workflowInstanceId, cursor.ns))

def workflowInfoMatches (info : WorkflowInfo) : WorkflowInstanceFilter → Bool
  | .statuses statuses => info.status ∈ statuses
  | .workflowDefId workflowDefId => info.workflowDefId = workflowDefId

def isAfterCursor (info : WorkflowInfo) (cursor : WorkflowInfoCursor) : Bool :=
  info.modifiedAtEpochMs < cursor.modifiedAtEpochMs ||
    (info.modifiedAtEpochMs = cursor.modifiedAtEpochMs &&
      (info.id < cursor.workflowInstanceId ||
        (info.id = cursor.workflowInstanceId && info.ns < cursor.ns)))

def workflowInfoCursor (info : WorkflowInfo) : WorkflowInfoCursor where
  ns := info.ns
  modifiedAtEpochMs := info.modifiedAtEpochMs
  workflowInstanceId := info.id

theorem rank_workflowInfoCursor (info : WorkflowInfo) :
    (workflowInfoCursor info).rank = info.rank := rfl

/-- A summary comes after a cursor if its rank is smaller: the listing goes
from the latest change back. -/
theorem isAfterCursor_iff (info : WorkflowInfo) (cursor : WorkflowInfoCursor) :
    isAfterCursor info cursor = true ↔ info.rank < cursor.rank := by
  simp only [isAfterCursor, Bool.or_eq_true, Bool.and_eq_true, decide_eq_true_eq,
    WorkflowInfo.rank, WorkflowInfoCursor.rank, Prod.Lex.toLex_lt_toLex]

namespace MemoryStorage

/-- The summaries that pass the namespace and every filter. -/
def selectedInfos (ns : Option Namespace) (filters : List WorkflowInstanceFilter)
    (storage : MemoryStorage) : List WorkflowInfo :=
  (storage.workflowInfos.toList.map Prod.snd).filter fun info =>
    ns.all (info.ns = ·) && filters.all (workflowInfoMatches info)

/-- The selected summaries in decreasing order of modification time, id and
namespace. -/
def sortedInfos (ns : Option Namespace) (filters : List WorkflowInstanceFilter)
    (storage : MemoryStorage) : List WorkflowInfo :=
  (selectedInfos ns filters storage).insertionSort fun left right => right.rank ≤ left.rank

def listWorkflowInfo (ns : Option Namespace) (page : PageRequest WorkflowInfoCursor)
    (filters : List WorkflowInstanceFilter) (storage : MemoryStorage) :
    Page WorkflowInfo WorkflowInfoCursor :=
  let workflows := sortedInfos ns filters storage
  let workflows :=
    match page.cursor with
    | none => workflows
    | some cursor => workflows.filter (isAfterCursor · cursor)
  let hasMore := workflows.length > page.limit
  let workflows := workflows.take page.limit
  { items := workflows
    nextCursor := if hasMore then workflows.getLast?.map workflowInfoCursor else none }

theorem length_sortedInfos_le (ns : Option Namespace) (filters : List WorkflowInstanceFilter)
    (storage : MemoryStorage) :
    (sortedInfos ns filters storage).length ≤ storage.workflowInfos.toList.length := by
  rw [sortedInfos, List.length_insertionSort, selectedInfos]
  exact (List.length_filter_le _ _).trans (List.length_map _).le

/-- A page of instances is a keyset page of the sorted summaries. -/
theorem listWorkflowInfo_eq_page (ns : Option Namespace) (request : PageRequest WorkflowInfoCursor)
    (filters : List WorkflowInstanceFilter) (storage : MemoryStorage) :
    listWorkflowInfo ns request filters storage =
      page WorkflowInfo.rank WorkflowInfoCursor.rank workflowInfoCursor request.limit
        request.cursor (sortedInfos ns filters storage) := by
  unfold listWorkflowInfo page remaining
  cases request.cursor with
  | none => rfl
  | some cursor =>
      have hFilter : (fun info => isAfterCursor info cursor) =
          fun info => decide (info.rank < cursor.rank) :=
        funext fun info => Bool.eq_iff_iff.mpr (by rw [isAfterCursor_iff, decide_eq_true_eq])
      dsimp only
      rw [hFilter]

end MemoryStorage

/-! ### Listings -/

def WorkflowInfo.key (info : WorkflowInfo) : ResourceKey := resourceKey info.ns info.id

/-- How a store answers `list_workflow_info`. -/
abbrev ReadInfoPage := Option Namespace → PageRequest WorkflowInfoCursor →
  List WorkflowInstanceFilter → Except StorageError (Page WorkflowInfo WorkflowInfoCursor)

/-- The summaries `infoAt` shows that pass the namespace and the filters, each
once, newest first; among those of one time the larger ids first, and among
those of one id the larger namespaces. -/
structure Lists (infoAt : ResourceKey → Option WorkflowInfo) (ns : Option Namespace)
    (filters : List WorkflowInstanceFilter) (listing : List WorkflowInfo) : Prop where
  complete : ∀ info, info ∈ listing ↔
    infoAt info.key = some info ∧ (∀ chosen ∈ ns, info.ns = chosen) ∧
      ∀ filter ∈ filters, workflowInfoMatches info filter = true
  ordered : listing.Pairwise fun left right => right.rank < left.rank

/-- A store whose pages are those of a listing, at every limit below a bound,
for every cursor the listing gives. -/
def PagesOf (readPage : ReadInfoPage) (bound : Nat) (ns : Option Namespace)
    (filters : List WorkflowInstanceFilter) (listing : List WorkflowInfo) : Prop :=
  ∀ limit cursor, 0 < limit → limit < bound → Issued workflowInfoCursor listing cursor →
    readPage ns ⟨limit, cursor⟩ filters =
      .ok (page WorkflowInfo.rank WorkflowInfoCursor.rank workflowInfoCursor limit cursor listing)

/-- The cursors of a store lead through its listing. -/
theorem PagesOf.enumerates {readPage : ReadInfoPage} {bound : Nat} {listing : List WorkflowInfo}
    {ns : Option Namespace} {filters : List WorkflowInstanceFilter}
    (h : PagesOf readPage bound ns filters listing)
    (hOrdered : listing.Pairwise fun left right => right.rank < left.rank) {limit : Nat}
    (hLimit : 0 < limit) (hBound : limit < bound) :
    Enumerates (fun cursor => readPage ns ⟨limit, cursor⟩ filters) none listing := by
  refine enumerates_keyset id hOrdered rank_workflowInfoCursor hLimit
    (fun cursor hCursor => ?_) none fun c hNone => by cases hNone
  rw [Option.map_id_fun]
  exact h limit cursor hLimit hBound hCursor

/-- A summary is stored under its own key. -/
def MemoryStorage.InfosKeyed (storage : MemoryStorage) : Prop :=
  ∀ key info, storage.workflowInfos.lookup key = some info → info.key = key

namespace MemoryStorage.InfosKeyed

variable {storage : MemoryStorage}

/-- The selected summaries, by key. -/
theorem mem_sortedInfos (h : storage.InfosKeyed) {ns : Option Namespace}
    {filters : List WorkflowInstanceFilter} {info : WorkflowInfo} :
    info ∈ sortedInfos ns filters storage ↔
      storage.workflowInfos.lookup info.key = some info ∧
        (ns.all (info.ns = ·) && filters.all (workflowInfoMatches info)) = true := by
  rw [sortedInfos, (List.perm_insertionSort _ _).mem_iff, selectedInfos, List.mem_filter,
    List.mem_map]
  refine and_congr_left fun _ => ⟨?_, fun hInfo => ?_⟩
  · rintro ⟨⟨key, info⟩, hEntry, rfl⟩
    have hInfo := (FiniteMap.mem_toList _ _).mp hEntry
    dsimp only at hInfo ⊢
    rwa [h _ _ hInfo]
  · exact ⟨(info.key, info), (FiniteMap.mem_toList _ _).mpr hInfo, rfl⟩

/-- No two summaries share a sort key, so the order is strict. -/
theorem sortedInfos_strict (h : storage.InfosKeyed) (ns : Option Namespace)
    (filters : List WorkflowInstanceFilter) :
    (sortedInfos ns filters storage).Pairwise fun left right => right.rank < left.rank := by
  refine insertionSort_strict (List.Pairwise.filter _ (List.pairwise_map.mpr ?_))
  refine (FiniteMap.toList_distinct _).imp_of_mem fun {a b} hA hB hKeys hRanks => hKeys ?_
  have hKeyA := h _ _ ((FiniteMap.mem_toList _ _).mp hA)
  have hKeyB := h _ _ ((FiniteMap.mem_toList _ _).mp hB)
  have hRest := congrArg (fun rank : WorkflowInfoRank => ofLex (ofLex rank).2) hRanks
  obtain ⟨hId, hNs⟩ := Prod.mk.inj hRest
  rw [← hKeyA, ← hKeyB, WorkflowInfo.key, WorkflowInfo.key, hId, hNs]

/-- The sorted summaries list each matching instance once. -/
theorem lists (h : storage.InfosKeyed) (ns : Option Namespace)
    (filters : List WorkflowInstanceFilter) :
    Lists (fun key => storage.workflowInfos.lookup key) ns filters
      (sortedInfos ns filters storage) where
  complete info := by
    rw [h.mem_sortedInfos, Bool.and_eq_true, Option.all_eq_true, List.all_eq_true]
    simp only [decide_eq_true_eq, Option.mem_def]
  ordered := h.sortedInfos_strict ns filters

end MemoryStorage.InfosKeyed

theorem MemoryStorage.pagesOf (storage : MemoryStorage) (bound : Nat) (ns : Option Namespace)
    (filters : List WorkflowInstanceFilter) :
    PagesOf (fun ns request filters => .ok (listWorkflowInfo ns request filters storage)) bound ns
      filters (sortedInfos ns filters storage) := fun _ _ _ _ _ =>
  congrArg Except.ok (listWorkflowInfo_eq_page ..)

/-- A summary is stored under the key of its instance and shows its status. -/
def WorkflowInfo.Summarizes (key : ResourceKey) (info : WorkflowInfo)
    (workflow : WorkflowInstance) : Prop :=
  info.key = key ∧ info.status = workflow.status

/-- Every instance has its summary, and there are no others. -/
def MemoryStorage.Summarized (storage : MemoryStorage) : Prop :=
  ∀ key, Option.Rel (WorkflowInfo.Summarizes key) (storage.workflowInfos.lookup key)
    (storage.workflowInstances.lookup key)

/-- An instance is stored under its own id. -/
def MemoryStorage.Keyed (storage : MemoryStorage) : Prop :=
  ∀ ns id workflow,
    storage.workflowInstances.lookup (resourceKey ns id) = some workflow → workflow.id = id

namespace MemoryStorage.Summarized

variable {storage storage' : MemoryStorage}

theorem new : Summarized MemoryStorage.new := fun _ => .none

/-- Every stored instance has a summary. -/
theorem info (h : storage.Summarized) {key : ResourceKey} {workflow : WorkflowInstance}
    (hStored : storage.workflowInstances.lookup key = some workflow) :
    ∃ info, storage.workflowInfos.lookup key = some info ∧ info.Summarizes key workflow := by
  have hRel := h key
  rw [hStored] at hRel
  cases hInfo : storage.workflowInfos.lookup key with
  | none => rw [hInfo] at hRel; cases hRel
  | some info =>
      rw [hInfo] at hRel
      cases hRel with
      | some hSame => exact ⟨info, rfl, hSame⟩

/-- Every summary has an instance that it summarizes. -/
theorem workflow (h : storage.Summarized) {key : ResourceKey} {info : WorkflowInfo}
    (hInfo : storage.workflowInfos.lookup key = some info) :
    ∃ workflow, storage.workflowInstances.lookup key = some workflow ∧
      info.Summarizes key workflow := by
  have hRel := h key
  rw [hInfo] at hRel
  cases hStored : storage.workflowInstances.lookup key with
  | none => rw [hStored] at hRel; cases hRel
  | some workflow =>
      rw [hStored] at hRel
      cases hRel with
      | some hSame => exact ⟨workflow, rfl, hSame⟩

theorem infosKeyed (h : storage.Summarized) : storage.InfosKeyed := fun _ _ hInfo =>
  (h.workflow hInfo).elim fun _ hSummary => hSummary.2.1

theorem mem_sortedInfos (h : storage.Summarized) {ns : Option Namespace}
    {filters : List WorkflowInstanceFilter} {info : WorkflowInfo} :
    info ∈ sortedInfos ns filters storage ↔
      storage.workflowInfos.lookup info.key = some info ∧
        (ns.all (info.ns = ·) && filters.all (workflowInfoMatches info)) = true :=
  h.infosKeyed.mem_sortedInfos

/-- No two of them have the same rank, so that the order of the listing is
determined. -/
theorem sortedInfos_strict (h : storage.Summarized) (ns : Option Namespace)
    (filters : List WorkflowInstanceFilter) :
    (sortedInfos ns filters storage).Pairwise fun left right => right.rank < left.rank :=
  h.infosKeyed.sortedInfos_strict ns filters

end MemoryStorage.Summarized

section

variable {ns : Namespace} {current : Option WorkflowInstance}
  {events : List WorkflowInstanceEvent} {clock storageClock : Clock}
  {storage storage' : MemoryStorage} {updated : WorkflowInstance}

/-- A commit writes the summary of the instance it stores, dated by the
manager's clock. -/
theorem commitEventsForCurrent_summary
    (h : (commitEventsForCurrent port ns current events clock storageClock).run.run storage =
      (.ok updated, storage')) :
    ∃ now info, clock = .ok now ∧ info.modifiedAtEpochMs = now ∧
      storage'.workflowInfos = storage.workflowInfos.insert (resourceKey ns updated.id) info ∧
      info.Summarizes (resourceKey ns updated.id) updated := by
  cases events with
  | nil => cases h
  | cons event rest =>
      unfold commitEventsForCurrent at h
      dsimp only [List.isEmpty_cons] at h
      cases hReduce : reduceWorkflowInstanceEvents current (event :: rest) with
      | error message => rw [hReduce] at h; cases h
      | ok reduced =>
          cases clock with
          | error message => rw [hReduce] at h; cases h
          | ok now =>
              rw [hReduce] at h
              let base := (current.map (·.version)).getD 0
              let workflow := { reduced with version := base + (event :: rest).length }
              let records := (event :: rest).map (WorkflowEventRecord.mk now)
              change (saveWorkflowInstance ns base records workflow storageClock >>=
                fun _ => pure workflow).run.run storage = _ at h
              rw [ExceptT.run_bind, StateT.run_bind] at h
              by_cases hVersion : storage.versionAt (resourceKey ns workflow.id) = base
              · cases storageClock with
                | error message =>
                    obtain ⟨error, hSave⟩ := saveWorkflowInstance_clock_error ns storage base records workflow message
                    rw [hSave] at h
                    cases h
                | ok storageNow =>
                    obtain ⟨_, hSave, created, completed, rfl⟩ :=
                      saveWorkflowInstance_ok records storageNow hVersion
                    rw [hSave] at h
                    obtain ⟨hUpdated, rfl⟩ :=
                      Prod.mk.inj (show (Except.ok workflow, _) = (Except.ok updated, storage') from h)
                    obtain rfl := Except.ok.inj hUpdated
                    refine ⟨now, _, rfl, ?_, rfl, rfl, rfl⟩
                    simp only [WorkflowInfo.fromInstanceWithTimestamps, records, List.getLast?_map,
                      List.getLast?_cons, Option.map_some, Option.getD_some]
              · rw [saveWorkflowInstance_conflict hVersion] at h
                cases h

/-- A save stores the instance and its summary together. -/
theorem MemoryStorage.Summarized.saved (h : storage.Summarized) (records : List WorkflowEventRecord)
    {workflow : WorkflowInstance} {info : WorkflowInfo}
    (hSummary : info.Summarizes (resourceKey ns workflow.id) workflow) :
    (storage.saved ns records workflow info).Summarized := by
  intro key
  change Option.Rel _ ((storage.workflowInfos.insert _ info).lookup key)
    ((storage.workflowInstances.insert _ workflow).lookup key)
  rw [FiniteMap.lookup_insert_eq, FiniteMap.lookup_insert_eq]
  by_cases hKey : key = resourceKey ns workflow.id
  · rw [if_pos hKey, if_pos hKey]
    exact .some (hKey ▸ hSummary)
  · rw [if_neg hKey, if_neg hKey]
    exact h key

/-- It stores them under the key of the instance. -/
theorem MemoryStorage.Keyed.saved (h : storage.Keyed) (ns : Namespace)
    (records : List WorkflowEventRecord) (workflow : WorkflowInstance) (info : WorkflowInfo) :
    (storage.saved ns records workflow info).Keyed := by
  intro ns' id stored hStored
  change (storage.workflowInstances.insert _ workflow).lookup _ = _ at hStored
  rw [FiniteMap.lookup_insert_eq] at hStored
  split at hStored
  · rename_i hKey
    cases hStored
    exact (congrArg (fun key : ResourceKey => (ofLex key).2) hKey).symm
  · exact h ns' id stored hStored

/-- An accepted commit is a save with a summary of what it stores. -/
theorem Accepted.saved (h : Accepted ns current events storage storage' updated)
    (hCommit : (commitEventsForCurrent port ns current events clock storageClock).run.run storage =
      (.ok updated, storage')) :
    ∃ records info, info.Summarizes (resourceKey ns updated.id) updated ∧
      storage' = storage.saved ns records updated info := by
  obtain ⟨_, info, _, _, hInfos, hSummary⟩ := commitEventsForCurrent_summary hCommit
  obtain ⟨records, written, _, rfl⟩ := h.stored
  have hLookup := congrArg (·.lookup (resourceKey ns updated.id)) hInfos
  dsimp only [MemoryStorage.saved] at hLookup
  rw [Finmap.lookup_insert, Finmap.lookup_insert] at hLookup
  cases hLookup
  exact ⟨records, info, hSummary, rfl⟩

theorem MemoryStorage.Summarized.commit (h : storage.Summarized)
    (hAccepted : Accepted ns current events storage storage' updated)
    (hCommit : (commitEventsForCurrent port ns current events clock storageClock).run.run storage =
      (.ok updated, storage')) : storage'.Summarized := by
  obtain ⟨records, info, hSummary, rfl⟩ := hAccepted.saved hCommit
  exact h.saved records hSummary

/-- Every accepted commit stores its instance under the right key. -/
theorem MemoryStorage.Keyed.commit (h : storage.Keyed)
    (hAccepted : Accepted ns current events storage storage' updated) : storage'.Keyed := by
  obtain ⟨records, info, _, rfl⟩ := hAccepted.stored
  exact h.saved ns records updated info

end

namespace StorageClients

variable {clients clients' : StorageClients}

/-- No action of a client leaves an instance without its summary. -/
theorem summarized_step (h : clients.storage.Summarized) (action : Action)
    (hStep : clients.step action = some clients') : clients'.storage.Summarized := by
  cases action with
  | read ns id =>
      cases hStep
      exact h
  | commit snapshot events clock storageClock =>
      simp only [StorageClients.step] at hStep
      obtain ⟨⟨ns, current⟩, hSnapshot, hStep⟩ := Option.bind_eq_some_iff.mp hStep
      dsimp only at hStep
      rcases commitEventsForCurrent_cases ns current events clock storageClock clients.storage with
        ⟨error, hRun⟩ | ⟨updated, storage', hRun, hAccepted⟩
      · rw [hRun] at hStep
        cases hStep
        exact h
      · rw [hRun] at hStep
        cases hStep
        exact h.commit hAccepted hRun

/-- In every reachable store the summaries show the instances as they are. -/
theorem reachable_summarized {actions : List Action}
    (hRun : Run (fun clients action clients' => clients.step action = some clients')
      initial actions clients) : clients.storage.Summarized :=
  hRun.invariant (P := fun clients => clients.storage.Summarized) .new
    fun _ action _ h hStep => summarized_step h action hStep

end StorageClients

end RelayFold
