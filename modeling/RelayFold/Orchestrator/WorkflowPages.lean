import RelayFold.Adapters.InfoQueries
import RelayFold.Library.DelimitedText

/-! Listing the workflows of a namespace by text cursors
(`workflow_service.rs`). -/
namespace RelayFold

open DelimitedText KeysetPages PageEnumeration

def defaultWorkflowListLimit : Nat := 50

def maxWorkflowListLimit : Nat := 100

def clampWorkflowListLimit (limit : Option Nat) : Nat :=
  max 1 (min maxWorkflowListLimit (limit.getD defaultWorkflowListLimit))

/-- Whatever limit a request asks for, a page has between one and a hundred
entries. -/
theorem clampWorkflowListLimit_bounds (limit : Option Nat) :
    0 < clampWorkflowListLimit limit ∧ clampWorkflowListLimit limit ≤ 100 := by
  unfold clampWorkflowListLimit maxWorkflowListLimit
  omega

def encodeWorkflowInfoCursor (cursor : WorkflowInfoCursor) : String :=
  s!"{cursor.ns.value}:{cursor.modifiedAtEpochMs}:{cursor.workflowInstanceId}"

def invalidListCursor : StorageError := .other "invalid workflow list cursor"

def decodeWorkflowInfoCursor (ns : Namespace) (cursor : String) :
    Except StorageError WorkflowInfoCursor :=
  match splitn ':' 3 cursor.toList with
  | [cursorNamespace, modifiedAtEpochMs, workflowInstanceId] =>
      if cursorNamespace ≠ ns.value.toList ∨ workflowInstanceId.isEmpty then
        .error invalidListCursor
      else
        match parseBounded (2 ^ 64) modifiedAtEpochMs with
        | none => .error invalidListCursor
        | some modifiedAtEpochMs =>
            .ok ⟨ns, modifiedAtEpochMs, String.ofList workflowInstanceId⟩
  | _ => .error invalidListCursor

/-! ### What is encoded is decoded in its namespace only -/

theorem Namespace.colon_not_mem (ns : Namespace) : ':' ∉ ns.value.toList := fun hMem =>
  absurd (ns.value_chars ':' hMem) (by decide)

theorem colon_not_mem_toDigits (value : Nat) : ':' ∉ Nat.toDigits 10 value := fun hMem =>
  absurd (isDigit_of_mem_toDigits hMem) (by decide)

/-- Split at its first two colons, an encoded cursor gives namespace, time and
id. The id comes last and may hold colons itself. -/
theorem splitn_encodeWorkflowInfoCursor (cursor : WorkflowInfoCursor) :
    splitn ':' 3 (encodeWorkflowInfoCursor cursor).toList =
      [cursor.ns.value.toList, Nat.toDigits 10 cursor.modifiedAtEpochMs,
        cursor.workflowInstanceId.toList] := by
  have hText : (encodeWorkflowInfoCursor cursor).toList = cursor.ns.value.toList ++ ':' ::
      (Nat.toDigits 10 cursor.modifiedAtEpochMs ++ ':' :: cursor.workflowInstanceId.toList) := by
    simp only [encodeWorkflowInfoCursor, String.toList_append, Nat.toString_eq_repr,
      Nat.toList_repr, List.append_assoc]
    rfl
  rw [hText, splitn_append 1 _ cursor.ns.colon_not_mem,
    splitn_append 0 _ (colon_not_mem_toDigits _), splitn]

/-- A cursor that the service has handed out is read back as it was, in its own
namespace. -/
theorem decode_encodeWorkflowInfoCursor {cursor : WorkflowInfoCursor}
    (hTime : cursor.modifiedAtEpochMs < 2 ^ 64) (hId : cursor.workflowInstanceId ≠ "") :
    decodeWorkflowInfoCursor cursor.ns (encodeWorkflowInfoCursor cursor) = .ok cursor := by
  have hText : cursor.workflowInstanceId.toList.isEmpty = false := by
    rw [List.isEmpty_eq_false_iff]
    exact fun hNil => hId (String.toList_eq_nil_iff.mp hNil)
  rw [decodeWorkflowInfoCursor, splitn_encodeWorkflowInfoCursor]
  dsimp only
  rw [if_neg (by simp [hText]), parseBounded_toDigits hTime]
  dsimp only
  rw [String.ofList_toList]

/-- A cursor of another namespace is refused. -/
theorem decodeWorkflowInfoCursor_other {ns : Namespace} {cursor : WorkflowInfoCursor}
    (h : cursor.ns ≠ ns) :
    decodeWorkflowInfoCursor ns (encodeWorkflowInfoCursor cursor) = .error invalidListCursor := by
  have hValue : cursor.ns.value.toList ≠ ns.value.toList := fun hSame =>
    h (Namespace.value_inj (String.toList_inj.mp hSame))
  rw [decodeWorkflowInfoCursor, splitn_encodeWorkflowInfoCursor]
  dsimp only
  rw [if_pos (.inl hValue)]

/-! ### Pages of the service -/

/-- The filter of an optional status. -/
def statusFilters (status : Option WorkflowStatus) : List WorkflowInstanceFilter :=
  (status.map fun status => [.statuses [status]]).getD []

def listWorkflows (listWorkflowInfo : ReadInfoPage) (ns : Namespace)
    (status : Option WorkflowStatus) (limit : Option Nat) (cursor : Option String) :
    Except StorageError (Page WorkflowInfo String) := do
  let cursor ← cursor.mapM (decodeWorkflowInfoCursor ns)
  let page ← listWorkflowInfo (some ns) ⟨clampWorkflowListLimit limit, cursor⟩ (statusFilters status)
  return ⟨page.items, page.nextCursor.map encodeWorkflowInfoCursor⟩

variable {readPage : ReadInfoPage} {bound : Nat} {listing : List WorkflowInfo}

/-- The text cursors of the service lead through the listing of the
namespace. -/
theorem PagesOf.enumerates_service {ns : Namespace} {status : Option WorkflowStatus}
    (h : PagesOf readPage bound (some ns) (statusFilters status) listing) (hBound : 100 < bound)
    (hOrdered : listing.Pairwise fun left right => right.rank < left.rank)
    (hOwn : ∀ info ∈ listing, info.ns = ns) (hNamed : ∀ info ∈ listing, info.id ≠ "")
    (hDated : ∀ info ∈ listing, info.modifiedAtEpochMs < 2 ^ 64) (limit : Option Nat) :
    Enumerates (listWorkflows readPage ns status limit) none listing := by
  obtain ⟨hLimit, hSmall⟩ := clampWorkflowListLimit_bounds limit
  refine enumerates_keyset encodeWorkflowInfoCursor hOrdered rank_workflowInfoCursor hLimit
    (fun cursor hCursor => ?_) none fun c hNone => by cases hNone
  have hPage := h _ cursor hLimit (by omega) hCursor
  have hDecoded : (cursor.map encodeWorkflowInfoCursor).mapM (decodeWorkflowInfoCursor ns) =
      .ok cursor := by
    cases cursor with
    | none => rfl
    | some cursor =>
        obtain ⟨info, hMem, rfl⟩ := hCursor cursor rfl
        have hDecode : decodeWorkflowInfoCursor (workflowInfoCursor info).ns
            (encodeWorkflowInfoCursor (workflowInfoCursor info)) = .ok (workflowInfoCursor info) :=
          decode_encodeWorkflowInfoCursor (hDated info hMem) (hNamed info hMem)
        rw [show (workflowInfoCursor info).ns = ns from hOwn info hMem] at hDecode
        rw [Option.map_some, Option.mapM_some, hDecode]
        rfl
  rw [listWorkflows, hDecoded]
  change (readPage (some ns) ⟨clampWorkflowListLimit limit, cursor⟩ (statusFilters status) >>= _) = _
  rw [hPage]
  rfl

/-- Every instance shown has an id, as `create_instance_id` gives them, and a
64-bit time. -/
def ShowsInstances (infoAt : ResourceKey → Option WorkflowInfo) : Prop :=
  ∀ key info, infoAt key = some info → info.id ≠ "" ∧ info.modifiedAtEpochMs < 2 ^ 64

/-- Following the cursors from the first page shows every matching instance
once, in order: the text cursors of the service, and the cursors of the store
at every limit it can be asked for. -/
structure EnumeratesListings (readPage : ReadInfoPage) (infoAt : ResourceKey → Option WorkflowInfo) :
    Prop where
  service : ∀ ns status limit, ∃ listing, Lists infoAt (some ns) (statusFilters status) listing ∧
    Enumerates (listWorkflows readPage ns status limit) none listing
  store : ∀ ns filters limit, 0 < limit → limit < 2 ^ 63 - 1 → ∃ listing,
    Lists infoAt ns filters listing ∧
      Enumerates (fun cursor => readPage ns ⟨limit, cursor⟩ filters) none listing

/-- The adapter's pages enumerate the listing, and the service passes them on
with the cursors encoded. -/
theorem enumeratesListings {infoAt : ResourceKey → Option WorkflowInfo}
    (hShown : ShowsInstances infoAt)
    (hPages : ∀ ns filters, ∃ listing, Lists infoAt ns filters listing ∧
      PagesOf readPage (2 ^ 63 - 1) ns filters listing) : EnumeratesListings readPage infoAt where
  service ns status limit := by
    obtain ⟨listing, hLists, hPage⟩ := hPages (some ns) (statusFilters status)
    have hInfo (info : WorkflowInfo) (hMem : info ∈ listing) := (hLists.complete info).mp hMem
    refine ⟨listing, hLists, hPage.enumerates_service (by omega) hLists.ordered
      (fun info hMem => ?_) (fun info hMem => ?_) (fun info hMem => ?_) limit⟩
    · exact (hInfo info hMem).2.1 ns rfl
    · exact (hShown _ info (hInfo info hMem).1).1
    · exact (hShown _ info (hInfo info hMem).1).2
  store ns filters limit hLimit hBound := by
    obtain ⟨listing, hLists, hPage⟩ := hPages ns filters
    exact ⟨listing, hLists, hPage.enumerates hLists.ordered hLimit hBound⟩

/-- Paging through an unchanging store, in memory or in SQLite, shows every
matching instance exactly once, newest first with ties by id and then by
namespace. -/
theorem workflow_listing_enumerates {storage : MemoryStorage} (hKeyed : storage.InfosKeyed)
    (hShown : ShowsInstances fun key => storage.workflowInfos.lookup key) {tables : SqlTables}
    (hStored : tables.StoredRows) (hRowsShown : ShowsInstances tables.infoAt) :
    EnumeratesListings
        (fun ns request filters => .ok (storage.listWorkflowInfo ns request filters))
        (fun key => storage.workflowInfos.lookup key) ∧
      EnumeratesListings
        (fun ns request filters => SqliteStorage.listWorkflowInfo ns request filters tables)
        tables.infoAt :=
  ⟨enumeratesListings hShown fun ns filters =>
      ⟨_, hKeyed.lists ns filters, storage.pagesOf _ ns filters⟩,
    enumeratesListings hRowsShown fun ns filters =>
      ⟨_, hStored.lists ns filters, hStored.pagesOf ns filters⟩⟩

/-- Two instances of one time. -/
def tiedStorage : MemoryStorage :=
  let info (id : String) : WorkflowInfo := ⟨.global, id, "w", some 10, 10, none, .pending, 0, 0⟩
  { MemoryStorage.new with
    workflowInfos := ((∅ : FiniteMap ResourceKey WorkflowInfo).insert (resourceKey .global "w-1")
      (info "w-1")).insert (resourceKey .global "w-2") (info "w-2") }

def tiedTables : SqlTables :=
  let row : WorkflowInstanceRow := ⟨"w", 0, "pending", none, none, 10, 10, none⟩
  { SqlTables.new with
    workflowInstances := ((∅ : FiniteMap ResourceKey WorkflowInstanceRow).insert
      (resourceKey .global "w-1") row).insert (resourceKey .global "w-2") row }

/-- In the sample store every summary lies under its key and has a time that
the cursor can hold. -/
theorem tiedStorage_info {key : ResourceKey} {info : WorkflowInfo}
    (h : tiedStorage.workflowInfos.lookup key = some info) :
    info.key = key ∧ info.id ≠ "" ∧ info.modifiedAtEpochMs < 2 ^ 64 := by
  rw [tiedStorage, FiniteMap.lookup_insert_eq, FiniteMap.lookup_insert_eq] at h
  split at h
  · rename_i hKey
    cases h
    exact ⟨hKey.symm, by decide, by decide⟩
  · split at h
    · rename_i hKey
      cases h
      exact ⟨hKey.symm, by decide, by decide⟩
    · cases h

/-- The same for the rows of the sample tables. -/
theorem tiedTables_row {key : ResourceKey} {row : WorkflowInstanceRow}
    (h : tiedTables.workflowInstances.lookup key = some row) :
    row.status = "pending" ∧ row.modifiedAtEpochMs = 10 ∧ (ofLex key).2 ≠ "" := by
  rw [tiedTables, FiniteMap.lookup_insert_eq, FiniteMap.lookup_insert_eq] at h
  split at h
  · rename_i hKey
    cases h
    exact ⟨rfl, rfl, hKey ▸ by decide⟩
  · split at h
    · rename_i hKey
      cases h
      exact ⟨rfl, rfl, hKey ▸ by decide⟩
    · cases h

/-- Here both stores hold instances of the same modification time, so that the
order of the ids decides. -/
theorem workflow_listing_enumerates_tied :
    EnumeratesListings
        (fun ns request filters => .ok (tiedStorage.listWorkflowInfo ns request filters))
        (fun key => tiedStorage.workflowInfos.lookup key) ∧
      EnumeratesListings
        (fun ns request filters => SqliteStorage.listWorkflowInfo ns request filters tiedTables)
        tiedTables.infoAt := by
  refine workflow_listing_enumerates (fun _ _ h => (tiedStorage_info h).1)
    (fun _ _ h => (tiedStorage_info h).2) ⟨fun _ _ h => ⟨.pending, (tiedTables_row h).1⟩,
      fun _ _ h => (tiedTables_row h).2.1 ▸ by decide⟩ fun key info h => ?_
  obtain ⟨row, hRow, hInfo⟩ := Option.bind_eq_some_iff.mp h
  obtain ⟨hStatus, hTime, hId⟩ := tiedTables_row hRow
  have hRead : workflowInfoFromRow (tiedTables.infoRow key row) =
      .ok (tiedTables.infoRow key row).info := WorkflowInfoRow.Named.read ⟨.pending, hStatus⟩
  rw [hRead] at hInfo
  obtain rfl := Option.some.inj hInfo
  exact ⟨hId, (show row.modifiedAtEpochMs < 2 ^ 64 from hTime ▸ by decide)⟩

end RelayFold
