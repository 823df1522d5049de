import RelayFold.Adapters.WorkflowListing

/-! Finding the unfinished workflows of every namespace (`orchestrator.rs`):
the summaries are read page by page and split by status. -/
namespace RelayFold

open MemoryStorage KeysetPages

structure StartupWorkflowDiscovery where
  runnable : List WorkflowInfo
  blocked : List WorkflowInfo

def WorkflowStatus.isRunnable (status : WorkflowStatus) : Bool :=
  status = .running || status = .pending

def WorkflowStatus.isBlocked (status : WorkflowStatus) : Bool :=
  status = .paused || status = .inputNeeded

def isTerminalWorkflowStatus (status : WorkflowStatus) : Bool :=
  status = .completed || status = .failed

theorem WorkflowStatus.isRunnable_iff {status : WorkflowStatus} :
    status.isRunnable = true ↔ status = .pending ∨ status = .running := by
  cases status <;> decide

def allNonterminalWorkflowFilter : List WorkflowInstanceFilter :=
  [.statuses [.pending, .running, .paused, .inputNeeded]]

theorem isTerminalWorkflowStatus_eq_false {status : WorkflowStatus} :
    isTerminalWorkflowStatus status = false ↔
      status.isRunnable = true ∨ status.isBlocked = true := by
  cases status <;> decide

/-- The filter of the discovery lets through exactly the summaries that are not
terminal. -/
theorem matches_allNonterminal (info : WorkflowInfo) :
    allNonterminalWorkflowFilter.all (workflowInfoMatches info) =
      !isTerminalWorkflowStatus info.status := by
  simp only [allNonterminalWorkflowFilter, workflowInfoMatches, List.all_cons, List.all_nil,
    Bool.and_true]
  cases info.status <;> decide

namespace StartupWorkflowDiscovery

/-- Add the summaries of one page. -/
def extend (found : StartupWorkflowDiscovery) (items : List WorkflowInfo) :
    StartupWorkflowDiscovery where
  runnable := found.runnable ++ items.filter fun info => info.status.isRunnable
  blocked := found.blocked ++ items.filter fun info => info.status.isBlocked

theorem extend_extend (found : StartupWorkflowDiscovery) (first second : List WorkflowInfo) :
    (found.extend first).extend second = found.extend (first ++ second) := by
  simp only [extend, List.filter_append, List.append_assoc]

theorem mem_extend_of_mem (found : StartupWorkflowDiscovery) (items : List WorkflowInfo)
    {key : ResourceKey} (h : key ∈ (found.runnable ++ found.blocked).map (·.key)) :
    key ∈ ((found.extend items).runnable ++ (found.extend items).blocked).map (·.key) := by
  simp only [extend, List.map_append, List.mem_append] at h ⊢
  exact h.imp .inl .inl

end StartupWorkflowDiscovery

def discoveryPage (ns : Option Namespace) (storage : MemoryStorage)
    (cursor : Option WorkflowInfoCursor) : Page WorkflowInfo WorkflowInfoCursor :=
  storage.listWorkflowInfo ns ⟨100, cursor⟩ allNonterminalWorkflowFilter

/-- The loop over the pages. It has no result only if it needs more pages than
there are summaries. -/
def listNonterminalWorkflowInfo (ns : Option Namespace) (storage : MemoryStorage) :
    Option StartupWorkflowDiscovery :=
  foldPages (discoveryPage ns storage) StartupWorkflowDiscovery.extend
    (storage.workflowInfos.toList.length + 1) none ⟨[], []⟩

variable {storage : MemoryStorage}

/-- A page of the discovery is a keyset page of the sorted summaries, so the
general facts about enumerations apply. -/
theorem discoveryPage_eq (ns : Option Namespace) (storage : MemoryStorage) :
    discoveryPage ns storage = fun cursor =>
      page WorkflowInfo.rank WorkflowInfoCursor.rank workflowInfoCursor 100 cursor
        (sortedInfos ns allNonterminalWorkflowFilter storage) :=
  funext fun _ => listWorkflowInfo_eq_page ..

/-- The loop ends and finds the whole listing, however it is cut into pages. -/
theorem listNonterminalWorkflowInfo_eq (h : storage.Summarized) (ns : Option Namespace) :
    listNonterminalWorkflowInfo ns storage =
      some (StartupWorkflowDiscovery.extend ⟨[], []⟩
        (sortedInfos ns allNonterminalWorkflowFilter storage)) := by
  have hFuel : (sortedInfos ns allNonterminalWorkflowFilter storage).length <
      storage.workflowInfos.toList.length + 1 :=
    Nat.lt_succ_of_le (length_sortedInfos_le ns _ storage)
  rw [listNonterminalWorkflowInfo, discoveryPage_eq]
  exact foldPages_all (h.sortedInfos_strict ns _) rank_workflowInfoCursor (Nat.succ_pos 99)
    StartupWorkflowDiscovery.extend_extend hFuel _

/-- The runnable summaries of all namespaces are those of the Pending and
Running instances. -/
theorem mem_runnable (h : storage.Summarized) {found : StartupWorkflowDiscovery}
    (hFound : listNonterminalWorkflowInfo none storage = some found) {info : WorkflowInfo} :
    info ∈ found.runnable ↔
      storage.workflowInfos.lookup info.key = some info ∧
        info.status.isRunnable = true := by
  rw [listNonterminalWorkflowInfo_eq h] at hFound
  cases hFound
  simp only [StartupWorkflowDiscovery.extend, List.nil_append, List.mem_filter, h.mem_sortedInfos,
    Option.all_none, Bool.true_and, matches_allNonterminal, Bool.not_eq_true']
  refine ⟨fun hMem => ⟨hMem.1.1, hMem.2⟩, fun hMem => ⟨⟨hMem.1, ?_⟩, hMem.2⟩⟩
  exact isTerminalWorkflowStatus_eq_false.mpr (.inl hMem.2)

end RelayFold
