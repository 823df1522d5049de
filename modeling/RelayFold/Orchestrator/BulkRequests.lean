import RelayFold.Adapters.StorageOperations
import RelayFold.Engine.System
import RelayFold.Library.DrainedPages

/-! Pausing and resuming every workflow of a namespace (`workflow_service.rs`):
the summaries are read page by page, and the workflows of a page are changed
before the next page is read. -/
namespace RelayFold

open MemoryStorage WorkflowStateManager KeysetPages

/-- A store and how many readings its clock has given. -/
structure TimedStorage where
  storage : MemoryStorage
  readings : Nat

namespace WorkflowService

section Model

variable (clock : Nat → Nat) (ns : Namespace)

/-- Read an instance and commit what the request asks of it. The state manager
and the store each read the clock once. -/
def perform (request : Request) (id : String) (s : TimedStorage) :
    Except StorageError Unit × TimedStorage :=
  match s.storage.getWorkflowInstance ns id with
  | none => (.error (.other s!"workflow instance {id} not found"), s)
  | some workflow =>
      match request.batch (getWorkflowDef ns · s.storage) workflow with
      | .error message => (.error (.other message), s)
      | .ok none => (.ok (), s)
      | .ok (some events) =>
          let (result, storage) := (commitEventsForInstance port ns workflow events
            (.ok (clock s.readings)) (.ok (clock (s.readings + 1)))).run.run s.storage
          (result.map fun _ => (), ⟨storage, s.readings + 2⟩)

def pauseWorkflow := perform clock ns .pauseWorkflow

def resumeWorkflow := perform clock ns .resumeWorkflow

/-- The loop over the pages; it has no result if it needs more than `fuel`
pages. -/
def changeListed (statuses : List WorkflowStatus)
    (change : String → TimedStorage → Except StorageError Unit × TimedStorage) (fuel : Nat)
    (s : TimedStorage) : Option (Except StorageError (List String)) × TimedStorage :=
  (visitPages (fun s cursor => s.storage.listWorkflowInfo (some ns) ⟨100, cursor⟩ [.statuses statuses])
    (fun info => change info.id) fuel none [] s).map
      (Option.map (Except.map (List.map (·.id)))) id

def pauseActiveWorkflows := changeListed ns [.pending, .running] (pauseWorkflow clock ns)

def resumePausedWorkflows := changeListed ns [.paused] (resumeWorkflow clock ns)

end Model

/-- The request changes an instance of one of the statuses to a status that is
not one of them. -/
structure Sets (request : Request) (statuses : List WorkflowStatus) (final : WorkflowStatus) :
    Prop where
  batch : ∀ definitions workflow, workflow.status ∈ statuses →
    request.batch definitions workflow = .ok (some [.workflowStatusChanged final])
  leaves : final ∉ statuses

theorem pauseWorkflow_sets : Sets .pauseWorkflow [.pending, .running] .paused where
  batch definitions workflow hStatus := by
    rw [Request.batch]
    rcases List.mem_pair.mp hStatus with h | h <;> rw [h]
  leaves := by decide

theorem resumeWorkflow_sets : Sets .resumeWorkflow [.paused] .pending where
  batch definitions workflow hStatus := by
    rw [Request.batch, if_neg (not_not.mpr (List.mem_singleton.mp hStatus))]
  leaves := by decide

/-- The instance after the change. -/
def changed (workflow : WorkflowInstance) (final : WorkflowStatus) : WorkflowInstance :=
  { workflow with status := final, version := workflow.version + 1 }

/-- One instance is changed, with its events and its summary. -/
def Changes (ns : Namespace) (final : WorkflowStatus) (storage : MemoryStorage) (id : String)
    (storage' : MemoryStorage) : Prop :=
  ∃ workflow records info, storage.getWorkflowInstance ns id = some workflow ∧ workflow.id = id ∧
    info.Summarizes (resourceKey ns id) (changed workflow final) ∧
    storage' = storage.saved ns records (changed workflow final) info

/-- What a loop that returned `ids` did to the instances. -/
structure Changed (storage : MemoryStorage) (ns : Namespace) (final : WorkflowStatus)
    (ids : List String) (storage' : MemoryStorage) : Prop where
  changed : ∀ id ∈ ids, ∃ workflow, storage.getWorkflowInstance ns id = some workflow ∧
    storage'.getWorkflowInstance ns id = some (changed workflow final)
  others : ∀ key, key ∉ ids.map (resourceKey ns) →
    storage'.workflowInstances.lookup key = storage.workflowInstances.lookup key ∧
    storage'.workflowInfos.lookup key = storage.workflowInfos.lookup key ∧
    storage'.workflowInstanceEvents.lookup key = storage.workflowInstanceEvents.lookup key

section One

variable {clock : Nat → Nat} {ns : Namespace} {request : Request} {statuses : List WorkflowStatus}
  {final : WorkflowStatus} {storage storage' : MemoryStorage} {id : String}

theorem Changes.summarized (h : Changes ns final storage id storage')
    (hSummarized : storage.Summarized) : storage'.Summarized := by
  obtain ⟨workflow, records, info, _, hId, hSummary, rfl⟩ := h
  subst hId
  exact hSummarized.saved records hSummary

theorem Changes.keyed (h : Changes ns final storage id storage') (hKeyed : storage.Keyed) :
    storage'.Keyed := by
  obtain ⟨workflow, records, info, _, _, _, rfl⟩ := h
  exact hKeyed.saved ns records _ info

theorem Changes.others (h : Changes ns final storage id storage') {key : ResourceKey}
    (hKey : key ≠ resourceKey ns id) :
    storage'.workflowInstances.lookup key = storage.workflowInstances.lookup key ∧
    storage'.workflowInfos.lookup key = storage.workflowInfos.lookup key ∧
    storage'.workflowInstanceEvents.lookup key = storage.workflowInstanceEvents.lookup key := by
  obtain ⟨workflow, records, info, _, rfl, _, rfl⟩ := h
  exact ⟨Finmap.lookup_insert_of_ne _ hKey, Finmap.lookup_insert_of_ne _ hKey,
    Finmap.lookup_insert_of_ne _ hKey⟩

/-- Of its own instance it changes the version and the status, in the snapshot
and in the summary. -/
theorem Changes.own (h : Changes ns final storage id storage') :
    ∃ workflow info, storage.getWorkflowInstance ns id = some workflow ∧
      storage'.getWorkflowInstance ns id = some (changed workflow final) ∧
      storage'.workflowInfos.lookup (resourceKey ns id) = some info ∧ info.status = final := by
  obtain ⟨workflow, records, info, hStored, rfl, hSummary, rfl⟩ := h
  exact ⟨workflow, info, hStored, Finmap.lookup_insert _, Finmap.lookup_insert _, hSummary.2⟩

variable (clock) in
/-- A request that sets a status is granted on an instance of a store that
keeps its keys. -/
theorem perform_changes (hSets : Sets request statuses final) {s : TimedStorage}
    {workflow : WorkflowInstance} (hKeyed : s.storage.Keyed)
    (hStored : s.storage.getWorkflowInstance ns id = some workflow)
    (hStatus : workflow.status ∈ statuses) :
    ∃ s', perform clock ns request id s = (.ok (), s') ∧
      Changes ns final s.storage id s'.storage := by
  let events : List WorkflowInstanceEvent := [.workflowStatusChanged final]
  let reduced : WorkflowInstance := { workflow with status := final }
  have hId := hKeyed ns id workflow hStored
  have hReduce : reduceWorkflowInstanceEvents (some workflow) events = .ok reduced := rfl
  have hVersion : s.storage.versionAt (resourceKey ns reduced.id) = workflow.version := by
    change s.storage.versionAt (resourceKey ns workflow.id) = _
    rw [hId, versionAt, show s.storage.workflowInstances.lookup _ = _ from hStored]
    rfl
  obtain ⟨updated, storage', hCommit⟩ := commitEventsForCurrent_accepts (List.cons_ne_nil _ _)
    hReduce hVersion (clock s.readings) (clock (s.readings + 1))
  refine ⟨⟨storage', s.readings + 2⟩, ?_, ?_⟩
  · unfold perform
    rw [hStored]
    dsimp only
    rw [hSets.batch _ workflow hStatus]
    dsimp only
    rw [commitEventsForInstance, hCommit]
    rfl
  · rcases commitEventsForCurrent_cases ns (some workflow) events (.ok (clock s.readings))
      (.ok (clock (s.readings + 1))) s.storage with ⟨error, hRun⟩ | ⟨_, _, hRun, hAccepted⟩
    · rw [hCommit] at hRun
      cases hRun
    · rw [hCommit] at hRun
      cases hRun
      obtain ⟨records, info, hSummary, rfl⟩ := hAccepted.saved hCommit
      obtain ⟨_, hReduced, rfl⟩ := hAccepted.reduced
      rw [hReduce] at hReduced
      cases hReduced
      exact ⟨workflow, records, info, hStored, hId, hId ▸ hSummary, rfl⟩

end One

/-! ### The loop -/

/-- The summaries the loop still has to read. -/
def listed (ns : Namespace) (statuses : List WorkflowStatus) (s : TimedStorage) :
    List WorkflowInfo :=
  sortedInfos (some ns) [.statuses statuses] s.storage

/-- A store that operations can leave. -/
def Kept (s : TimedStorage) : Prop := s.storage.Summarized ∧ s.storage.Keyed

section Loop

variable {clock : Nat → Nat} {ns : Namespace} {request : Request} {statuses : List WorkflowStatus}
  {final : WorkflowStatus} {s s' : TimedStorage} {info : WorkflowInfo}

/-- The listing holds the summaries of the namespace whose status is one of
those asked for. -/
theorem mem_listed (h : Kept s) : info ∈ listed ns statuses s ↔
    s.storage.workflowInfos.lookup info.key = some info ∧ info.ns = ns ∧
      info.status ∈ statuses := by
  rw [listed, h.1.mem_sortedInfos]
  simp [workflowInfoMatches]

/-- What the bulk requests rely on survives each single request. -/
theorem Changes.kept (h : Changes ns final s.storage info.id s'.storage) (hKept : Kept s) :
    Kept s' :=
  ⟨h.summarized hKept.1, h.keyed hKept.2⟩

theorem listed_stored (h : Kept s) (hListed : info ∈ listed ns statuses s) :
    ∃ workflow, s.storage.getWorkflowInstance ns info.id = some workflow ∧
      workflow.status ∈ statuses := by
  obtain ⟨hInfo, rfl, hStatus⟩ := (mem_listed h).mp hListed
  obtain ⟨workflow, hStored, _, hSame⟩ := h.1.workflow hInfo
  exact ⟨workflow, hStored, hSame ▸ hStatus⟩

/-- A changed instance leaves the listing, and the others keep their places. -/
theorem listed_changes (hLeaves : final ∉ statuses) (h : Kept s) {rest : List WorkflowInfo}
    (hListing : listed ns statuses s = info :: rest)
    (hChanges : Changes ns final s.storage info.id s'.storage) :
    listed ns statuses s' = rest := by
  have hKept' := hChanges.kept h
  have hSorted := h.1.sortedInfos_strict (some ns) [.statuses statuses]
  change (listed ns statuses s).Pairwise _ at hSorted
  rw [hListing, List.pairwise_cons] at hSorted
  have hInfo : info ∈ listed ns statuses s := by
    rw [hListing]
    exact List.mem_cons_self
  have hMemInfo := (mem_listed h).mp hInfo
  refine eq_of_strict (hKept'.1.sortedInfos_strict _ _) hSorted.2 fun other => ?_
  rw [mem_listed hKept']
  by_cases hKey : other.key = resourceKey ns info.id
  · obtain ⟨_, written, _, _, hWritten, hFinal⟩ := hChanges.own
    rw [hKey, hWritten]
    constructor
    · rintro ⟨hSame, _, hStatus⟩
      cases hSame
      exact absurd (hFinal ▸ hStatus) hLeaves
    · intro hRest
      have hOther : other ∈ listed ns statuses s := by
        rw [hListing]
        exact List.mem_cons_of_mem _ hRest
      have hLookup := ((mem_listed h).mp hOther).1
      rw [hKey, ← hMemInfo.2.1] at hLookup
      have hSame := hMemInfo.1.symm.trans hLookup
      cases hSame
      exact absurd (hSorted.1 info hRest) (lt_irrefl _)
  · obtain ⟨_, hInfos, _⟩ := hChanges.others hKey
    rw [hInfos, ← mem_listed h, hListing, List.mem_cons]
    refine ⟨fun hMem => hMem.resolve_left fun hSame => hKey ?_, .inr⟩
    rw [hSame, WorkflowInfo.key, hMemInfo.2.1]

variable (clock ns) in

/-- Each request takes its instance out of the listing, since the new status is
none of those that are listed. The pages therefore drain the listing, although
every page is read from its beginning. -/
theorem drains (hSets : Sets request statuses final) :
    Drains WorkflowInfo.rank (listed ns statuses)
      (fun info => perform clock ns request info.id) Kept where
  sorted s h := h.1.sortedInfos_strict _ _
  visits s info rest h hListing := by
    have hListed : info ∈ listed ns statuses s := by
      rw [hListing]
      exact List.mem_cons_self
    obtain ⟨workflow, hStored, hStatus⟩ := listed_stored h hListed
    obtain ⟨s', hPerform, hChanges⟩ := perform_changes clock hSets h.2 hStored hStatus
    exact ⟨s', hPerform, hChanges.kept h, listed_changes hSets.leaves h hListing hChanges⟩

/-- No instance is listed twice. -/
theorem listed_ids_nodup (h : Kept s) : ((listed ns statuses s).map (·.id)).Nodup := by
  refine List.pairwise_map.mpr ((h.1.sortedInfos_strict _ _).imp_of_mem ?_)
  intro first second hFirst hSecond hRank hSame
  obtain ⟨hInfo, hNs, _⟩ := (mem_listed h).mp hFirst
  obtain ⟨hOther, hNs', _⟩ := (mem_listed h).mp hSecond
  rw [WorkflowInfo.key, hNs, hSame] at hInfo
  rw [WorkflowInfo.key, hNs', hInfo] at hOther
  cases hOther
  exact absurd hRank (lt_irrefl _)

/-- Visits of distinct instances change each of them once. -/
theorem run_changed (hSets : Sets request statuses final) {infos : List WorkflowInfo}
    (run : Run (TakesOut (listed ns statuses) (fun info => perform clock ns request info.id) Kept)
      s infos s') (hNodup : (infos.map (·.id)).Nodup) :
    Changed s.storage ns final (infos.map (·.id)) s'.storage := by
  induction run with
  | nil => exact ⟨fun _ hMem => absurd hMem List.not_mem_nil, fun _ _ => ⟨rfl, rfl, rfl⟩⟩
  | @snoc middle last info infos prior hLast ih =>
      obtain ⟨hKept, hListing, hVisit⟩ := hLast
      rw [List.map_append, List.map_singleton] at hNodup ⊢
      obtain ⟨hFirst, _, hDisjoint⟩ := List.nodup_append.mp hNodup
      have hNew : info.id ∉ infos.map (·.id) := fun hMem =>
        hDisjoint _ hMem _ (List.mem_singleton.mpr rfl) rfl
      have hBefore := ih hFirst
      have hListed : info ∈ listed ns statuses middle := by
        rw [hListing]
        exact List.mem_cons_self
      obtain ⟨workflow, hStored, hStatus⟩ := listed_stored hKept hListed
      obtain ⟨_, hPerform, hChanges⟩ :=
        perform_changes clock hSets hKept.2 hStored hStatus
      cases hVisit.symm.trans hPerform
      have hKeyNe {id : String} (hMem : id ∈ infos.map (·.id)) :
          resourceKey ns id ≠ resourceKey ns info.id := fun hKey =>
        hNew ((Prod.mk.inj hKey).2 ▸ hMem)
      constructor
      · intro id hMem
        rcases List.mem_append.mp hMem with hMem | hMem
        · obtain ⟨workflow, hStored, hChanged⟩ := hBefore.changed id hMem
          exact ⟨workflow, hStored, (hChanges.others (hKeyNe hMem)).1.trans hChanged⟩
        · cases List.mem_singleton.mp hMem
          obtain ⟨workflow, _, hStored, hChanged, _⟩ := hChanges.own
          refine ⟨workflow, ?_, hChanged⟩
          have hSame := (hBefore.others (resourceKey ns info.id) fun hKey => ?_).1
          · exact hSame.symm.trans hStored
          · obtain ⟨id, hId, hEq⟩ := List.mem_map.mp hKey
            exact hKeyNe hId hEq
      · intro key hKey
        rw [List.map_append, List.mem_append, not_or] at hKey
        have hNe : key ≠ resourceKey ns info.id := fun hEq => hKey.2 (List.mem_singleton.mpr hEq)
        have hOther := hChanges.others hNe
        have hSame := hBefore.others key hKey.1
        exact ⟨hOther.1.trans hSame.1, hOther.2.1.trans hSame.2.1, hOther.2.2.trans hSame.2.2⟩

end Loop

/-- What a bulk request does: with room for as many pages as there are
summaries it ends, and it returns exactly the instances of the statuses, each
once; it gives each of them the final status and its next version, and changes
nothing else of it and no other instance. -/
def Completes (storage : MemoryStorage) (ns : Namespace) (statuses : List WorkflowStatus)
    (final : WorkflowStatus)
    (call : Nat → Option (Except StorageError (List String)) × TimedStorage) : Prop :=
  ∃ ids s', (∀ fuel, storage.workflowInfos.toList.length < fuel →
      call fuel = (some (.ok ids), s')) ∧ ids.Nodup ∧
    (∀ id, id ∈ ids ↔ ∃ workflow, storage.getWorkflowInstance ns id = some workflow ∧
      workflow.status ∈ statuses) ∧
    Changed storage ns final ids s'.storage

/-- A bulk request of either kind ends: everything that was listed has been
changed, once each, and nothing else has. -/
theorem changeListed_completes {clock : Nat → Nat} {ns : Namespace} {request : Request}
    {statuses : List WorkflowStatus} {final : WorkflowStatus}
    (hSets : Sets request statuses final) {s : TimedStorage} (h : Kept s) :
    Completes s.storage ns statuses final
      (changeListed ns statuses (perform clock ns request) · s) := by
  obtain ⟨s', hPages, _, _, hRun⟩ := (drains clock ns hSets).pages
    (fun s cursor _ => listWorkflowInfo_eq_page (some ns) ⟨100, cursor⟩ [.statuses statuses]
      s.storage) rank_workflowInfoCursor (Nat.succ_pos 99) h none
    (fun _ _ _ hNone => by cases hNone) []
  refine ⟨(listed ns statuses s).map (·.id), s', fun fuel hFuel => ?_, listed_ids_nodup h,
    fun id => ⟨fun hMem => ?_, ?_⟩, run_changed hSets hRun (listed_ids_nodup h)⟩
  · have hEnough : (listed ns statuses s).length < fuel :=
      (length_sortedInfos_le _ _ _).trans_lt hFuel
    dsimp only [changeListed]
    rw [hPages fuel hEnough]
    rfl
  · obtain ⟨info, hListed, rfl⟩ := List.mem_map.mp hMem
    exact listed_stored h hListed
  · rintro ⟨workflow, hStored, hStatus⟩
    obtain ⟨info, hInfo, hKey, hSame⟩ := h.1.info hStored
    obtain ⟨hNs, hId⟩ := Prod.mk.inj hKey
    refine List.mem_map.mpr ⟨info, (mem_listed h).mpr ⟨?_, hNs, hSame ▸ hStatus⟩, hId⟩
    rw [hKey]
    exact hInfo

end WorkflowService

open WorkflowService in
/-- On every content a store can have, whatever the clock reads: pausing the
active workflows of a namespace misses none of them, and neither does resuming
the paused ones. -/
theorem bulk_pause_and_resume_complete (operations : List StorageOperation) (clock : Nat → Nat)
    (readings : Nat) (ns : Namespace) :
    Completes (reached operations) ns [.pending, .running] .paused
      (pauseActiveWorkflows clock ns · ⟨reached operations, readings⟩) ∧
    Completes (reached operations) ns [.paused] .pending
      (resumePausedWorkflows clock ns · ⟨reached operations, readings⟩) :=
  have h : WorkflowService.Kept ⟨reached operations, readings⟩ :=
    ⟨.reached operations, .reached operations⟩
  ⟨changeListed_completes pauseWorkflow_sets h, changeListed_completes resumeWorkflow_sets h⟩

end RelayFold
