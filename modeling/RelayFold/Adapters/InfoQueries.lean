import RelayFold.Adapters.SqlSaves
import RelayFold.Adapters.WorkflowListing

/-! The query behind `SqliteStorage::list_workflow_info`: instance rows with
the counts of their attempts, newest first, below the cursor. -/
namespace RelayFold

open FallibleFold KeysetPages PageEnumeration

/-- A row of the query. -/
structure WorkflowInfoRow where
  ns : Namespace
  id : String
  workflowDefId : String
  status : String
  createdAtEpochMs : Nat
  modifiedAtEpochMs : Nat
  completedAtEpochMs : Option Nat
  totalTaskCount : Nat
  completedTaskCount : Nat

def workflowInfoFromRow (row : WorkflowInfoRow) : Except StorageError WorkflowInfo := do
  let status ← workflowStatusFromName row.status
  return {
    ns := row.ns
    id := row.id
    workflowDefId := row.workflowDefId
    createdAtEpochMs := some row.createdAtEpochMs
    modifiedAtEpochMs := row.modifiedAtEpochMs
    completedAtEpochMs := row.completedAtEpochMs
    status := status
    totalTaskCount := row.totalTaskCount
    completedTaskCount := row.completedTaskCount }

namespace WorkflowInfoRow

def rank (row : WorkflowInfoRow) : WorkflowInfoRank :=
  toLex (row.modifiedAtEpochMs, toLex (row.id, row.ns))

/-- The condition of one filter. -/
def passes (row : WorkflowInfoRow) : WorkflowInstanceFilter → Bool
  | .statuses statuses => row.status ∈ statuses.map workflowStatusName
  | .workflowDefId workflowDefId => row.workflowDefId = workflowDefId

/-- The condition of the cursor; within a namespace it does not compare
namespaces. -/
def isAfter (row : WorkflowInfoRow) (ns : Option Namespace) (cursor : WorkflowInfoCursor) : Bool :=
  match ns with
  | some _ => row.modifiedAtEpochMs < cursor.modifiedAtEpochMs ||
      (row.modifiedAtEpochMs = cursor.modifiedAtEpochMs && row.id < cursor.workflowInstanceId)
  | none => row.modifiedAtEpochMs < cursor.modifiedAtEpochMs ||
      (row.modifiedAtEpochMs = cursor.modifiedAtEpochMs &&
        (row.id < cursor.workflowInstanceId ||
          (row.id = cursor.workflowInstanceId && row.ns < cursor.ns)))

end WorkflowInfoRow

namespace SqlTables

/-- An instance row joined with its attempts. -/
def infoRow (tables : SqlTables) (key : ResourceKey) (row : WorkflowInstanceRow) :
    WorkflowInfoRow where
  ns := (ofLex key).1
  id := (ofLex key).2
  workflowDefId := row.workflowDefId
  status := row.status
  createdAtEpochMs := row.createdAtEpochMs
  modifiedAtEpochMs := row.modifiedAtEpochMs
  completedAtEpochMs := row.completedAtEpochMs
  totalTaskCount := (tables.taskRows key).toList.length
  completedTaskCount := (tables.taskRows key).toList.countP fun entry =>
    entry.2.status = "completed"

def infoRows (tables : SqlTables) : List WorkflowInfoRow :=
  tables.workflowInstances.toList.map fun entry => tables.infoRow entry.1 entry.2

/-- `WHERE` and `ORDER BY`. -/
def queriedRows (ns : Option Namespace) (filters : List WorkflowInstanceFilter)
    (cursor : Option WorkflowInfoCursor) (tables : SqlTables) : List WorkflowInfoRow :=
  (tables.infoRows.filter fun row => ns.all (row.ns = ·) && filters.all row.passes &&
    cursor.all (row.isAfter ns)).insertionSort fun left right => right.rank ≤ left.rank

end SqlTables

def WorkflowInstanceFilter.selectsNothing : WorkflowInstanceFilter → Bool
  | .statuses names => names.isEmpty
  | .workflowDefId _ => false

/-- The cursor's time and one more than the limit are bound as signed
integers. -/
def SqliteStorage.listWorkflowInfo (ns : Option Namespace) (page : PageRequest WorkflowInfoCursor)
    (filters : List WorkflowInstanceFilter) (tables : SqlTables) :
    Except StorageError (Page WorkflowInfo WorkflowInfoCursor) :=
  if page.limit = 0 || filters.any (·.selectsNothing) then .ok ⟨[], none⟩
  else do
    let cursor ← page.cursor.mapM fun cursor => do
      let modifiedAtEpochMs ← i64FromU64 cursor.modifiedAtEpochMs
      return { cursor with modifiedAtEpochMs := modifiedAtEpochMs }
    let limit ← i64FromU64 (page.limit + 1)
    let rows := (tables.queriedRows ns filters cursor).take limit
    let hasMore := page.limit < rows.length
    let workflows ← (rows.take page.limit).mapM workflowInfoFromRow
    return {
      items := workflows
      nextCursor := if hasMore then workflows.getLast?.map workflowInfoCursor else none }

/-! ### The pages -/

namespace WorkflowInfoRow

/-- The row holds the name of a status. -/
def Named (row : WorkflowInfoRow) : Prop :=
  ∃ status, row.status = workflowStatusName status

/-- What a row with a status name is read as. -/
def info (row : WorkflowInfoRow) : WorkflowInfo where
  ns := row.ns
  id := row.id
  workflowDefId := row.workflowDefId
  createdAtEpochMs := some row.createdAtEpochMs
  modifiedAtEpochMs := row.modifiedAtEpochMs
  completedAtEpochMs := row.completedAtEpochMs
  status := (workflowStatusFromName row.status).toOption.getD .pending
  totalTaskCount := row.totalTaskCount
  completedTaskCount := row.completedTaskCount

variable {row : WorkflowInfoRow}

theorem Named.read (h : row.Named) : workflowInfoFromRow row = .ok row.info := by
  obtain ⟨status, hStatus⟩ := h
  rw [workflowInfoFromRow, info, hStatus, workflowStatusFromName_name]
  rfl

theorem workflowStatusName_inj {status status' : WorkflowStatus}
    (h : workflowStatusName status = workflowStatusName status') : status = status' := by
  have hSame := congrArg workflowStatusFromName h
  rw [workflowStatusFromName_name, workflowStatusFromName_name] at hSame
  exact Except.ok.inj hSame

/-- The condition of the query on the stored name is the filter on the
status. -/
theorem Named.passes_iff (h : row.Named) (filter : WorkflowInstanceFilter) :
    row.passes filter = workflowInfoMatches row.info filter := by
  obtain ⟨status, hStatus⟩ := h
  cases filter with
  | workflowDefId workflowDefId => rfl
  | statuses statuses =>
      rw [passes, workflowInfoMatches, info, hStatus, workflowStatusFromName_name]
      change decide (workflowStatusName status ∈ statuses.map workflowStatusName) =
        decide (status ∈ statuses)
      rw [decide_eq_decide, List.mem_map]
      constructor
      · rintro ⟨other, hMem, hSame⟩
        exact workflowStatusName_inj hSame ▸ hMem
      · exact fun hMem => ⟨status, hMem, rfl⟩

/-- The condition of the cursor compares ranks: in a namespace that is the
cursor's. -/
theorem isAfter_iff {ns : Option Namespace} {cursor : WorkflowInfoCursor}
    (hRow : ∀ chosen ∈ ns, row.ns = chosen) (hCursor : ∀ chosen ∈ ns, cursor.ns = chosen) :
    row.isAfter ns cursor = decide (row.rank < cursor.rank) := by
  rw [Bool.eq_iff_iff, decide_eq_true_eq]
  cases ns with
  | none =>
      simp only [isAfter, Bool.or_eq_true, Bool.and_eq_true, decide_eq_true_eq, rank,
        WorkflowInfoCursor.rank, Prod.Lex.toLex_lt_toLex]
  | some ns =>
      simp only [isAfter, Bool.or_eq_true, Bool.and_eq_true, decide_eq_true_eq, rank,
        WorkflowInfoCursor.rank, Prod.Lex.toLex_lt_toLex, hRow ns rfl, hCursor ns rfl, lt_irrefl,
        and_false, or_false]

end WorkflowInfoRow

namespace SqlTables

/-- The summary that a row of the instance table gives. -/
def infoAt (tables : SqlTables) (key : ResourceKey) : Option WorkflowInfo :=
  (tables.workflowInstances.lookup key).bind fun row =>
    (workflowInfoFromRow (tables.infoRow key row)).toOption

/-- The instance rows hold status names, and times that fit their columns. -/
structure StoredRows (tables : SqlTables) : Prop where
  named : ∀ key row, tables.workflowInstances.lookup key = some row →
    ∃ status, row.status = workflowStatusName status
  dated : ∀ key row, tables.workflowInstances.lookup key = some row →
    row.modifiedAtEpochMs < 2 ^ 63

/-- All pages of the query together. -/
def listing (ns : Option Namespace) (filters : List WorkflowInstanceFilter) (tables : SqlTables) :
    List WorkflowInfo :=
  (tables.queriedRows ns filters none).map (·.info)

variable {tables : SqlTables}

/-- No two rows have the same rank: the keys differ, if not the times. -/
theorem infoRows_distinct (tables : SqlTables) :
    tables.infoRows.Pairwise fun left right => left.rank ≠ right.rank := by
  refine List.pairwise_map.mpr ((FiniteMap.toList_distinct tables.workflowInstances).imp ?_)
  intro left right hKeys hRanks
  have hRest := congrArg (fun rank : WorkflowInfoRank => ofLex (ofLex rank).2) hRanks
  obtain ⟨hId, hNs⟩ := Prod.mk.inj hRest
  exact hKeys (congrArg toLex (Prod.ext hNs hId))

/-- The rows of the listing are those of the stored instances. -/
theorem mem_infoRows {row : WorkflowInfoRow} : row ∈ tables.infoRows ↔
    ∃ key stored, tables.workflowInstances.lookup key = some stored ∧
      row = tables.infoRow key stored := by
  rw [infoRows, List.mem_map]
  constructor
  · rintro ⟨⟨key, stored⟩, hEntry, rfl⟩
    exact ⟨key, stored, (FiniteMap.mem_toList _ _).mp hEntry, rfl⟩
  · rintro ⟨key, stored, hStored, rfl⟩
    exact ⟨(key, stored), (FiniteMap.mem_toList _ _).mpr hStored, rfl⟩

/-- Without a cursor the query selects by namespace and filters. -/
theorem mem_queriedRows {ns : Option Namespace} {filters : List WorkflowInstanceFilter}
    {row : WorkflowInfoRow} : row ∈ tables.queriedRows ns filters none ↔
      row ∈ tables.infoRows ∧ (∀ chosen ∈ ns, row.ns = chosen) ∧
        ∀ filter ∈ filters, row.passes filter = true := by
  rw [queriedRows, (List.perm_insertionSort _ _).mem_iff, List.mem_filter]
  simp only [Option.all_none, Bool.and_true, Bool.and_eq_true, List.all_eq_true,
    Option.all_eq_true, decide_eq_true_eq, Option.mem_def]

variable (h : tables.StoredRows)

include h

theorem StoredRows.row_named {row : WorkflowInfoRow} (hRow : row ∈ tables.infoRows) : row.Named := by
  obtain ⟨key, stored, hStored, rfl⟩ := mem_infoRows.mp hRow
  exact h.named key stored hStored

theorem StoredRows.row_dated {row : WorkflowInfoRow} (hRow : row ∈ tables.infoRows) :
    row.modifiedAtEpochMs < 2 ^ 63 := by
  obtain ⟨key, stored, hStored, rfl⟩ := mem_infoRows.mp hRow
  exact h.dated key stored hStored

/-- The listing holds the summaries of the matching rows, newest first. -/
theorem StoredRows.lists (ns : Option Namespace) (filters : List WorkflowInstanceFilter) :
    Lists tables.infoAt ns filters (tables.listing ns filters) where
  complete info := by
    rw [listing, List.mem_map]
    constructor
    · rintro ⟨row, hRow, rfl⟩
      obtain ⟨hStored, hNs, hFilters⟩ := mem_queriedRows.mp hRow
      have hNamed := h.row_named hStored
      refine ⟨?_, hNs, fun filter hMem => ?_⟩
      · obtain ⟨key, stored, hLookup, rfl⟩ := mem_infoRows.mp hStored
        change infoAt tables key = _
        rw [infoAt, hLookup, Option.bind_some, hNamed.read]
        rfl
      · rw [← hNamed.passes_iff]
        exact hFilters filter hMem
    · rintro ⟨hInfo, hNs, hFilters⟩
      obtain ⟨stored, hLookup, hRead⟩ := Option.bind_eq_some_iff.mp hInfo
      have hStored := mem_infoRows.mpr ⟨info.key, stored, hLookup, rfl⟩
      have hNamed := h.row_named hStored
      rw [hNamed.read] at hRead
      have hSame : (tables.infoRow info.key stored).info = info := Option.some.inj hRead
      refine ⟨_, mem_queriedRows.mpr ⟨hStored, fun chosen hChosen => ?_, fun filter hMem => ?_⟩,
        hSame⟩
      · exact hNs chosen hChosen
      · rw [hNamed.passes_iff, hSame]
        exact hFilters filter hMem
  ordered := by
    refine List.pairwise_map.mpr ?_
    exact insertionSort_strict ((infoRows_distinct tables).filter _)

/-- Below an issued cursor the query finds the rows of smaller rank. -/
theorem StoredRows.queriedRows_eq {ns : Option Namespace} {filters : List WorkflowInstanceFilter}
    {cursor : Option WorkflowInfoCursor}
    (hCursor : Issued workflowInfoCursor (tables.listing ns filters) cursor) :
    (tables.queriedRows ns filters cursor).map (·.info) =
      remaining WorkflowInfo.rank WorkflowInfoCursor.rank cursor (tables.listing ns filters) := by
  cases cursor with
  | none => rfl
  | some cursor =>
      obtain ⟨issued, hIssued, rfl⟩ := hCursor cursor rfl
      have hOwn := (((h.lists ns filters).complete issued).mp hIssued).2.1
      have hSplit (row : WorkflowInfoRow) :
          (ns.all (row.ns = ·) && filters.all row.passes &&
            (some (workflowInfoCursor issued)).all (row.isAfter ns)) =
          (decide (row.rank < issued.rank) && (ns.all (row.ns = ·) && filters.all row.passes &&
            (none : Option WorkflowInfoCursor).all (row.isAfter ns))) := by
        rw [Option.all_some, Option.all_none, Bool.and_true, Bool.and_comm]
        by_cases hNs : ∀ chosen ∈ ns, row.ns = chosen
        · rw [row.isAfter_iff hNs hOwn, rank_workflowInfoCursor]
        · have hOther : ns.all (row.ns = ·) = false := by
            rw [← Bool.not_eq_true, Option.all_eq_true]
            exact fun hAll => hNs fun chosen hChosen => of_decide_eq_true (hAll chosen hChosen)
          rw [hOther, Bool.false_and, Bool.and_false, Bool.and_false]
      rw [queriedRows, List.filter_congr fun row _ => hSplit row, ← List.filter_filter,
        insertionSort_filter ((infoRows_distinct tables).filter _), remaining, listing,
        List.filter_map, rank_workflowInfoCursor]
      rfl

/-- The pages of SQLite are those of the listing. -/
theorem StoredRows.pagesOf (ns : Option Namespace) (filters : List WorkflowInstanceFilter) :
    PagesOf (fun ns request filters => SqliteStorage.listWorkflowInfo ns request filters tables)
      (2 ^ 63 - 1) ns filters (tables.listing ns filters) := by
  intro limit cursor hLimit hBound hCursor
  change SqliteStorage.listWorkflowInfo ns ⟨limit, cursor⟩ filters tables = _
  have hRows := h.queriedRows_eq hCursor
  have hNamed : ∀ row ∈ tables.queriedRows ns filters cursor, row.Named := by
    intro row hRow
    rw [queriedRows, (List.perm_insertionSort _ _).mem_iff] at hRow
    exact h.row_named (List.mem_filter.mp hRow).1
  by_cases hNothing : filters.any (·.selectsNothing) = true
  · have hEmpty : tables.listing ns filters = [] := by
      refine List.eq_nil_iff_forall_not_mem.mpr fun info hInfo => ?_
      obtain ⟨filter, hMem, hSelects⟩ := List.any_eq_true.mp hNothing
      have hMatches := (((h.lists ns filters).complete info).mp hInfo).2.2 filter hMem
      cases filter with
      | workflowDefId => cases hSelects
      | statuses statuses =>
          rw [List.isEmpty_iff.mp (show statuses.isEmpty = true from hSelects)] at hMatches
          cases hMatches
    rw [SqliteStorage.listWorkflowInfo, if_pos (by rw [hNothing, Bool.or_true]), hEmpty,
      page_nil]
  · have hCursorBound : (cursor.mapM fun cursor => do
        let modifiedAtEpochMs ← i64FromU64 cursor.modifiedAtEpochMs
        return { cursor with modifiedAtEpochMs := modifiedAtEpochMs }) = .ok cursor := by
      cases cursor with
      | none => rfl
      | some cursor =>
          obtain ⟨info, hInfo, rfl⟩ := hCursor cursor rfl
          obtain ⟨row, hRow, rfl⟩ := List.mem_map.mp hInfo
          have hDated := h.row_dated (mem_queriedRows.mp hRow).1
          rw [Option.mapM_some,
            i64FromU64_of_lt (show (workflowInfoCursor row.info).modifiedAtEpochMs < 2 ^ 63 from
              hDated)]
          rfl
    have hRead : ((tables.queriedRows ns filters cursor).take limit).mapM workflowInfoFromRow =
        .ok ((remaining WorkflowInfo.rank WorkflowInfoCursor.rank cursor
          (tables.listing ns filters)).take limit) := by
      rw [← hRows, ← List.map_take]
      exact mapM_ok_of fun row hRow => (hNamed row (List.mem_of_mem_take hRow)).read
    have hLength : (tables.queriedRows ns filters cursor).length =
        (remaining WorkflowInfo.rank WorkflowInfoCursor.rank cursor
          (tables.listing ns filters)).length := by
      rw [← hRows, List.length_map]
    rw [SqliteStorage.listWorkflowInfo, if_neg (by simpa [hNothing] using hLimit.ne')]
    dsimp only
    rw [hCursorBound, i64FromU64_of_lt (show limit + 1 < 2 ^ 63 by omega)]
    dsimp only [bind, Except.bind]
    rw [List.take_take, Nat.min_eq_left (Nat.le_succ limit), hRead]
    apply congrArg Except.ok
    rw [page]
    refine congrArg _ (if_congr ?_ rfl rfl)
    rw [List.length_take, hLength]
    omega

end SqlTables

end RelayFold
