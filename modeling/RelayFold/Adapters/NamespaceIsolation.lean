import RelayFold.Adapters.StorageOperations
import RelayFold.Library.Noninterference
import RelayFold.Orchestrator.WorkflowPages

/-! Namespaces of the in-memory store do not interfere: what the operations of
one namespace answer does not depend on those of others. -/
namespace RelayFold

open KeysetPages Noninterference

namespace MemoryStorage

/-- Definitions and summaries are stored under their own keys. -/
structure Owned (storage : MemoryStorage) : Prop where
  defs : ∀ ns id stored, storage.workflowDefs.lookup (resourceKey ns id) = some stored →
    stored.definition.id = id
  functions : ∀ ns id definition,
    storage.functionDefs.lookup (resourceKey ns id) = some definition → definition.id = id
  infos : storage.InfosKeyed

/-- Two stores hold the same under the keys of a namespace. -/
structure SameIn (ns : Namespace) (s t : MemoryStorage) : Prop where
  defs : ∀ id, s.workflowDefs.lookup (resourceKey ns id) = t.workflowDefs.lookup (resourceKey ns id)
  functions : ∀ id,
    s.functionDefs.lookup (resourceKey ns id) = t.functionDefs.lookup (resourceKey ns id)
  instances : ∀ id, s.workflowInstances.lookup (resourceKey ns id) =
    t.workflowInstances.lookup (resourceKey ns id)
  events : ∀ id, s.workflowInstanceEvents.lookup (resourceKey ns id) =
    t.workflowInstanceEvents.lookup (resourceKey ns id)
  infos : ∀ id, s.workflowInfos.lookup (resourceKey ns id) =
    t.workflowInfos.lookup (resourceKey ns id)

variable {ns : Namespace} {s t u : MemoryStorage}

theorem SameIn.refl (ns : Namespace) (s : MemoryStorage) : SameIn ns s s :=
  ⟨fun _ => rfl, fun _ => rfl, fun _ => rfl, fun _ => rfl, fun _ => rfl⟩

theorem SameIn.trans (h : SameIn ns s t) (h' : SameIn ns t u) : SameIn ns s u :=
  ⟨fun id => (h.defs id).trans (h'.defs id), fun id => (h.functions id).trans (h'.functions id),
    fun id => (h.instances id).trans (h'.instances id), fun id => (h.events id).trans (h'.events id),
    fun id => (h.infos id).trans (h'.infos id)⟩

theorem Owned.new : Owned MemoryStorage.new where
  defs _ _ _ h := by cases h
  functions _ _ _ h := by cases h
  infos _ _ h := by cases h

/-! ### Listings see their namespace only -/

/-- The values of a namespace are those under its keys. -/
theorem mem_ownValues {β : Type} {m : FiniteMap ResourceKey β} {v : β} :
    v ∈ ownValues ns m ↔ ∃ id, m.lookup (resourceKey ns id) = some v := by
  rw [ownValues, List.mem_map]
  constructor
  · rintro ⟨⟨key, v⟩, hEntry, rfl⟩
    obtain ⟨hMem, hNs⟩ := List.mem_filter.mp hEntry
    have hLookup := (FiniteMap.mem_toList _ _).mp hMem
    rw [decide_eq_true_eq] at hNs
    subst hNs
    exact ⟨(ofLex key).2, hLookup⟩
  · rintro ⟨id, hLookup⟩
    exact ⟨(resourceKey ns id, v),
      List.mem_filter.mpr ⟨(FiniteMap.mem_toList _ _).mpr hLookup, decide_eq_true rfl⟩, rfl⟩

/-- Values that show their ids are pairwise of different ids. -/
theorem ownValues_distinct {β : Type} {m : FiniteMap ResourceKey β} (idOf : β → String)
    (h : ∀ id v, m.lookup (resourceKey ns id) = some v → idOf v = id) :
    (ownValues ns m).Pairwise fun a b => idOf a ≠ idOf b := by
  refine List.pairwise_map.mpr (((FiniteMap.toList_distinct m).filter _).imp_of_mem ?_)
  rintro ⟨key, v⟩ ⟨key', v'⟩ hA hB hKeys hIds
  obtain ⟨hA, hNs⟩ := List.mem_filter.mp hA
  obtain ⟨hB, hNs'⟩ := List.mem_filter.mp hB
  rw [decide_eq_true_eq] at hNs hNs'
  have hId := h (ofLex key).2 v (hNs ▸ (FiniteMap.mem_toList _ _).mp hA)
  have hId' := h (ofLex key').2 v' (hNs' ▸ (FiniteMap.mem_toList _ _).mp hB)
  exact hKeys (congrArg toLex
    (Prod.ext (hNs.trans hNs'.symm) ((hId.symm.trans hIds).trans hId')))

theorem max?_congr {xs ys : List Nat} (h : ∀ a, a ∈ xs ↔ a ∈ ys) : xs.max? = ys.max? := by
  refine Option.ext fun m => ?_
  rw [List.max?_eq_some_iff, List.max?_eq_some_iff]
  exact and_congr (h m) ⟨fun hAll b hMem => hAll b ((h b).mpr hMem),
    fun hAll b hMem => hAll b ((h b).mp hMem)⟩

/-- Stores that are the same in a namespace hold the same summaries of it. -/
theorem SameIn.infoAt (h : SameIn ns s t) {info : WorkflowInfo} (hNs : info.ns = ns) :
    s.workflowInfos.lookup info.key = some info ↔ t.workflowInfos.lookup info.key = some info := by
  rw [WorkflowInfo.key, hNs, h.infos]

/-- Stores that are the same in a namespace agree on when a definition of it
was last run. -/
theorem SameIn.lastInvoked (h : SameIn ns s t) (hOwned : s.Owned) (hOwned' : t.Owned)
    (workflowDefId : String) : s.lastInvoked ns workflowDefId = t.lastInvoked ns workflowDefId := by
  have hMem {storage : MemoryStorage} (hStored : storage.Owned) {info : WorkflowInfo} :
      info ∈ (storage.workflowInfos.toList.map Prod.snd).filter (fun info =>
        info.ns = ns && info.workflowDefId = workflowDefId) ↔
      storage.workflowInfos.lookup info.key = some info ∧ info.ns = ns ∧
        info.workflowDefId = workflowDefId := by
    rw [List.mem_filter, List.mem_map, Bool.and_eq_true, decide_eq_true_eq, decide_eq_true_eq]
    refine and_congr_left fun _ => ⟨?_, fun hInfo => ?_⟩
    · rintro ⟨⟨key, info⟩, hEntry, rfl⟩
      have hInfo := (FiniteMap.mem_toList _ _).mp hEntry
      rwa [hStored.infos _ _ hInfo]
    · exact ⟨(info.key, info), (FiniteMap.mem_toList _ _).mpr hInfo, rfl⟩
  rw [MemoryStorage.lastInvoked, MemoryStorage.lastInvoked]
  refine max?_congr fun created => ?_
  rw [List.mem_filterMap, List.mem_filterMap]
  refine exists_congr fun info => and_congr_left fun _ => ?_
  rw [hMem hOwned, hMem hOwned']
  exact and_congr_left fun ⟨hNs, _⟩ => h.infoAt hNs

/-- They list the same definitions of it. -/
theorem SameIn.listWorkflowDef (h : SameIn ns s t) (hOwned : s.Owned) (hOwned' : t.Owned) :
    s.listWorkflowDef ns = t.listWorkflowDef ns := by
  have hStrict {storage : MemoryStorage} (hStored : storage.Owned) :
      ((ownValues ns storage.workflowDefs).map (storage.defSummary ns)).Pairwise
        fun left right => left.rank ≠ right.rank := by
    refine List.pairwise_map.mpr ((ownValues_distinct (fun stored => stored.definition.id)
      (hStored.defs ns)).imp fun hIds hRanks => hIds ?_)
    exact congrArg (fun rank : Lex (Nat × String) => (ofLex rank).2) hRanks
  rw [MemoryStorage.listWorkflowDef, MemoryStorage.listWorkflowDef]
  refine eq_of_strict (insertionSort_strict (hStrict hOwned))
    (insertionSort_strict (hStrict hOwned')) fun summary => ?_
  rw [(List.perm_insertionSort _ _).mem_iff, (List.perm_insertionSort _ _).mem_iff, List.mem_map,
    List.mem_map]
  refine exists_congr fun stored => and_congr ?_ ?_
  · rw [mem_ownValues, mem_ownValues]
    exact exists_congr fun id => by rw [h.defs]
  · rw [defSummary, defSummary, h.lastInvoked hOwned hOwned']

/-- They list the same functions of it. -/
theorem SameIn.listFunctionDef (h : SameIn ns s t) (hOwned : s.Owned) (hOwned' : t.Owned) :
    s.listFunctionDef ns = t.listFunctionDef ns := by
  let rank (summary : FunctionDefSummary) : Stringᵒᵈ := OrderDual.toDual summary.id
  have hStrict {storage : MemoryStorage} (hStored : storage.Owned) :
      ((ownValues ns storage.functionDefs).map fun definition =>
        (⟨definition.id⟩ : FunctionDefSummary)).Pairwise
          fun left right => rank left ≠ rank right :=
    List.pairwise_map.mpr (ownValues_distinct FunctionDef.id
      (hStored.functions ns))
  rw [MemoryStorage.listFunctionDef, MemoryStorage.listFunctionDef]
  refine @eq_of_strict _ _ _ rank _ _ (insertionSort_strict (hStrict hOwned))
    (insertionSort_strict (hStrict hOwned')) fun summary => ?_
  rw [(List.perm_insertionSort _ _).mem_iff, (List.perm_insertionSort _ _).mem_iff, List.mem_map,
    List.mem_map]
  refine exists_congr fun definition => and_congr_left fun _ => ?_
  rw [mem_ownValues, mem_ownValues]
  exact exists_congr fun id => by rw [h.functions]

theorem SameIn.listWorkflowInfo (h : SameIn ns s t) (hOwned : s.Owned) (hOwned' : t.Owned)
    (page : PageRequest WorkflowInfoCursor) (filters : List WorkflowInstanceFilter) :
    s.listWorkflowInfo (some ns) page filters = t.listWorkflowInfo (some ns) page filters := by
  have hSame : sortedInfos (some ns) filters s = sortedInfos (some ns) filters t := by
    refine eq_of_strict (hOwned.infos.sortedInfos_strict _ _)
      (hOwned'.infos.sortedInfos_strict _ _) fun info => ?_
    rw [hOwned.infos.mem_sortedInfos, hOwned'.infos.mem_sortedInfos, Bool.and_eq_true,
      Option.all_some, decide_eq_true_eq]
    exact and_congr_left fun ⟨hNs, _⟩ => h.infoAt hNs
  rw [listWorkflowInfo_eq_page, listWorkflowInfo_eq_page, hSame]

/-! ### One operation -/

theorem insert_other {β : Type} {m : FiniteMap ResourceKey β} {ns ns' : Namespace} (h : ns' ≠ ns)
    (id id' : String) (v : β) :
    (m.insert (resourceKey ns' id') v).lookup (resourceKey ns id) = m.lookup (resourceKey ns id) := by
  rw [FiniteMap.lookup_insert_eq, if_neg fun hKey => h (resourceKey_inj.mp hKey).1.symm]

theorem insert_same {β : Type} {m m' : FiniteMap ResourceKey β} {ns : Namespace} {v v' : β}
    (h : ∀ id, m.lookup (resourceKey ns id) = m'.lookup (resourceKey ns id)) (hValue : v = v')
    (id id' : String) :
    (m.insert (resourceKey ns id') v).lookup (resourceKey ns id) =
      (m'.insert (resourceKey ns id') v').lookup (resourceKey ns id) := by
  rw [FiniteMap.lookup_insert_eq, FiniteMap.lookup_insert_eq, h, hValue]

/-- An insertion of a value under its own id keeps the ids. -/
theorem insert_ids {β : Type} {m : FiniteMap ResourceKey β} (idOf : β → String)
    (h : ∀ ns id v, m.lookup (resourceKey ns id) = some v → idOf v = id) (ns : Namespace) (v : β) :
    ∀ ns' id v', (m.insert (resourceKey ns (idOf v)) v).lookup (resourceKey ns' id) = some v' →
      idOf v' = id := by
  intro ns' id v' hLookup
  rw [FiniteMap.lookup_insert_eq] at hLookup
  split at hLookup
  · rename_i hKey
    cases hLookup
    exact (resourceKey_inj.mp hKey).2.symm
  · exact h ns' id v' hLookup

/-- No operation stores a value under a key of another namespace. -/
theorem Owned.run (h : s.Owned) (operation : StorageOperation) : (operation.run s).2.Owned := by
  cases operation with
  | getWorkflowDef | listWorkflowDef | getFunctionDef | listFunctionDef | getWorkflowInstance
  | listWorkflowInstanceEvents | listWorkflowInfo => exact h
  | saveWorkflowDef ns definition clock =>
      cases clock with
      | error message => exact h
      | ok now =>
          exact ⟨insert_ids (fun stored : StoredWorkflowDef => stored.definition.id) h.defs ns
            (StoredWorkflowDef.mk definition _), h.functions, h.infos⟩
  | saveFunctionDef ns definition =>
      exact ⟨h.defs, insert_ids FunctionDef.id h.functions ns definition, h.infos⟩
  | deleteFunctionDef ns id =>
      refine ⟨h.defs, fun ns' id' definition hLookup => ?_, h.infos⟩
      change (Finmap.erase _ _).lookup _ = _ at hLookup
      rw [FiniteMap.lookup_erase_eq] at hLookup
      split at hLookup
      · cases hLookup
      · exact h.functions ns' id' definition hLookup
  | saveWorkflowInstance ns expectedVersion events workflow clock =>
      change ((MemoryStorage.saveWorkflowInstance ns expectedVersion events workflow
        clock).run.run s).2.Owned
      rw [saveWorkflowInstance_run]
      split
      · exact h
      · cases clock with
        | error message => exact h
        | ok now =>
            refine ⟨h.defs, h.functions, fun key info hLookup => ?_⟩
            change (Finmap.insert _ _ _).lookup _ = _ at hLookup
            rw [FiniteMap.lookup_insert_eq] at hLookup
            split at hLookup
            · rename_i hKey
              cases hLookup
              exact hKey.symm
            · exact h.infos key info hLookup

/-- An operation of another namespace, or of none, changes nothing under the
keys of this one. -/
theorem SameIn.run_other {operation : StorageOperation} (h : operation.ns? ≠ some ns) :
    SameIn ns (operation.run s).2 s := by
  cases operation with
  | getWorkflowDef | listWorkflowDef | getFunctionDef | listFunctionDef | getWorkflowInstance
  | listWorkflowInstanceEvents | listWorkflowInfo => exact .refl ns s
  | saveWorkflowDef ns' definition clock =>
      have hNs : ns' ≠ ns := fun hSame => h (congrArg some hSame)
      cases clock with
      | error message => exact .refl ns s
      | ok now => exact { SameIn.refl ns s with defs := fun id => insert_other hNs id _ _ }
  | saveFunctionDef ns' definition =>
      have hNs : ns' ≠ ns := fun hSame => h (congrArg some hSame)
      exact { SameIn.refl ns s with functions := fun id => insert_other hNs id _ _ }
  | deleteFunctionDef ns' id' =>
      have hNs : ns' ≠ ns := fun hSame => h (congrArg some hSame)
      refine { SameIn.refl ns s with functions := fun id => ?_ }
      change (Finmap.erase _ _).lookup _ = _
      rw [FiniteMap.lookup_erase_eq, if_neg fun hKey => hNs (resourceKey_inj.mp hKey).1.symm]
  | saveWorkflowInstance ns' expectedVersion events workflow clock =>
      have hNs : ns' ≠ ns := fun hSame => h (congrArg some hSame)
      change SameIn ns ((MemoryStorage.saveWorkflowInstance ns' expectedVersion events workflow
        clock).run.run s).2 s
      rw [saveWorkflowInstance_run]
      split
      · exact .refl ns s
      · cases clock with
        | error message => exact .refl ns s
        | ok now =>
            exact { SameIn.refl ns s with
              instances := fun id => insert_other hNs id _ _
              events := fun id => insert_other hNs id _ _
              infos := fun id => insert_other hNs id _ _ }

/-- An operation of the namespace answers stores alike that hold the same
there, and they go on holding the same. -/
theorem SameIn.run_own (h : SameIn ns s t) (hOwned : s.Owned) (hOwned' : t.Owned)
    {operation : StorageOperation} (hOwn : operation.ns? = some ns) :
    (operation.run s).1 = (operation.run t).1 ∧
      SameIn ns (operation.run s).2 (operation.run t).2 := by
  cases operation with
  | getWorkflowDef ns' id =>
      cases hOwn
      refine ⟨congrArg StorageAnswer.workflowDef ?_, h⟩
      rw [getWorkflowDef, getWorkflowDef, h.defs]
  | listWorkflowDef ns' =>
      cases hOwn
      exact ⟨congrArg StorageAnswer.workflowDefs (h.listWorkflowDef hOwned hOwned'), h⟩
  | getFunctionDef ns' id =>
      cases hOwn
      exact ⟨congrArg StorageAnswer.functionDef (h.functions id), h⟩
  | listFunctionDef ns' =>
      cases hOwn
      exact ⟨congrArg StorageAnswer.functionDefs (h.listFunctionDef hOwned hOwned'), h⟩
  | getWorkflowInstance ns' id =>
      cases hOwn
      exact ⟨congrArg StorageAnswer.workflowInstance (h.instances id), h⟩
  | listWorkflowInstanceEvents ns' id page =>
      cases hOwn
      refine ⟨congrArg StorageAnswer.events ?_, h⟩
      rw [listWorkflowInstanceEvents, listWorkflowInstanceEvents, eventsOf, eventsOf, h.events]
  | listWorkflowInfo ns' page filters =>
      cases hOwn
      exact ⟨congrArg StorageAnswer.infos (h.listWorkflowInfo hOwned hOwned' page filters), h⟩
  | saveWorkflowDef ns' definition clock =>
      cases hOwn
      cases clock with
      | error message => exact ⟨rfl, h⟩
      | ok now =>
          refine ⟨rfl, { h with defs := fun id => insert_same h.defs ?_ id definition.id }⟩
          rw [h.defs]
  | saveFunctionDef ns' definition =>
      cases hOwn
      exact ⟨rfl, { h with functions := fun id => insert_same h.functions rfl id definition.id }⟩
  | deleteFunctionDef ns' id' =>
      cases hOwn
      refine ⟨congrArg (fun stored : Option FunctionDef => StorageAnswer.deleted stored.isSome)
        (h.functions id'), { h with functions := fun id => ?_ }⟩
      change (Finmap.erase _ _).lookup _ = (Finmap.erase _ _).lookup _
      rw [FiniteMap.lookup_erase_eq, FiniteMap.lookup_erase_eq, h.functions]
  | saveWorkflowInstance ns' expectedVersion events workflow clock =>
      cases hOwn
      have hVersion : s.versionAt (resourceKey ns workflow.id) =
          t.versionAt (resourceKey ns workflow.id) := by
        rw [versionAt, versionAt, h.instances]
      have hSummary (now : Nat) : s.summary ns events workflow now =
          t.summary ns events workflow now := by
        rw [summary, summary, h.infos]
      have hEvents : s.eventsOf (resourceKey ns workflow.id) =
          t.eventsOf (resourceKey ns workflow.id) := by
        rw [eventsOf, eventsOf, h.events]
      rw [StorageOperation.run, StorageOperation.run, saveWorkflowInstance_run,
        saveWorkflowInstance_run, hVersion]
      split
      · exact ⟨rfl, h⟩
      · cases clock with
        | error message => exact ⟨rfl, h⟩
        | ok now =>
            exact ⟨rfl, { h with
              instances := fun id => insert_same h.instances rfl id workflow.id
              events := fun id => insert_same h.events (by rw [hEvents]) id workflow.id
              infos := fun id => insert_same h.infos (hSummary now) id workflow.id }⟩

/-- Two stores that the operations of a namespace cannot tell apart. -/
def Indistinguishable (ns : Namespace) (s t : MemoryStorage) : Prop :=
  s.Owned ∧ t.Owned ∧ SameIn ns s t

end MemoryStorage

namespace StorageOperation

/-- The operation carries the namespace. -/
def carries (ns : Namespace) (operation : StorageOperation) : Bool :=
  operation.ns? = some ns

/-- What the operations of a namespace answer in a sequence on a new store. -/
def answersIn (ns : Namespace) (operations : List StorageOperation) : List StorageAnswer :=
  outputs (fun operation storage => run storage operation) (carries ns) .new operations

/-- The operations of the store meet the conditions for noninterference: an
operation of another namespace changes nothing that can be told apart, and one
of the own keeps what could not. -/
theorem unwinding (ns : Namespace) : Unwinding (fun operation storage => run storage operation)
    (carries ns) (MemoryStorage.Indistinguishable ns) where
  answers := fun ⟨hOwned, hOwned', hSame⟩ hOwn =>
    (hSame.run_own hOwned hOwned' (of_decide_eq_true hOwn)).1
  keeps := fun ⟨hOwned, hOwned', hSame⟩ hOwn =>
    ⟨hOwned.run _, hOwned'.run _, (hSame.run_own hOwned hOwned' (of_decide_eq_true hOwn)).2⟩
  ignores := fun ⟨hOwned, hOwned', hSame⟩ hOther =>
    ⟨hOwned.run _, hOwned',
      (MemoryStorage.SameIn.run_other (of_decide_eq_false hOther)).trans hSame⟩

end StorageOperation

/-- How the in-memory store answers `list_workflow_info`. -/
def MemoryStorage.readInfoPage (storage : MemoryStorage) : ReadInfoPage :=
  fun ns page filters => .ok (storage.listWorkflowInfo ns page filters)

/-- A page of a namespace comes with a cursor of that namespace. -/
theorem listWorkflows_cursor {storage : MemoryStorage} {ns : Namespace}
    {status : Option WorkflowStatus} {limit : Option Nat} {cursor : Option String} {text : String}
    {page : Page WorkflowInfo String}
    (hPage : listWorkflows storage.readInfoPage ns status limit cursor = .ok page)
    (hText : page.nextCursor = some text) :
    ∃ issued, issued.ns = ns ∧ text = encodeWorkflowInfoCursor issued := by
  obtain ⟨decoded, _, hPage⟩ := FallibleFold.bind_ok.mp hPage
  cases hPage
  obtain ⟨issued, hIssued, rfl⟩ := Option.map_eq_some_iff.mp hText
  refine ⟨issued, ?_, rfl⟩
  rw [MemoryStorage.listWorkflowInfo_eq_page] at hIssued
  obtain ⟨info, hInfo, rfl⟩ := PageEnumeration.issued_next hIssued issued rfl
  rw [MemoryStorage.sortedInfos, (List.perm_insertionSort _ _).mem_iff,
    MemoryStorage.selectedInfos, List.mem_filter, Bool.and_eq_true, Option.all_some,
    decide_eq_true_eq] at hInfo
  exact hInfo.2.1

/-- What the operations of a namespace answer depends on them only, also where
others use the same ids; and a cursor that was issued in another namespace is
refused in this one. -/
theorem namespaces_do_not_interfere (ns : Namespace) :
    (∀ first second : List StorageOperation,
      first.filter (StorageOperation.carries ns) = second.filter (StorageOperation.carries ns) →
        StorageOperation.answersIn ns first = StorageOperation.answersIn ns second) ∧
      ∀ (storage storage' : MemoryStorage) other status status' limit limit' cursor page text,
        other ≠ ns → listWorkflows storage.readInfoPage other status limit cursor = .ok page →
          page.nextCursor = some text →
            listWorkflows storage'.readInfoPage ns status' limit' (some text) =
              .error invalidListCursor := by
  constructor
  · intro first second hSame
    exact (StorageOperation.unwinding ns).outputs_eq ⟨.new, .new, .refl ns _⟩ hSame
  · intro storage storage' other status status' limit limit' cursor page text hOther hPage hText
    obtain ⟨issued, rfl, rfl⟩ := listWorkflows_cursor hPage hText
    rw [listWorkflows, Option.mapM_some, decodeWorkflowInfoCursor_other hOther]
    rfl

/-- A namespace beside the global one. -/
def tenantNamespace : Namespace :=
  ⟨"550e8400-e29b-41d4-a716-446655440000", .inr (by decide +kernel)⟩

/-- Both namespaces save a function under one id, and this one deletes its
own. -/
def sharedIdOperations : List StorageOperation :=
  [.saveFunctionDef .global ⟨"f", [], "left"⟩, .saveFunctionDef tenantNamespace ⟨"f", [], "right"⟩,
    .deleteFunctionDef .global "f", .getFunctionDef tenantNamespace "f",
    .listFunctionDef tenantNamespace]

def ownIdOperations : List StorageOperation :=
  [.saveFunctionDef tenantNamespace ⟨"f", [], "right"⟩, .getFunctionDef tenantNamespace "f",
    .listFunctionDef tenantNamespace]

/-- The sample store has a first page, whose cursor can be sent to another
namespace. -/
theorem tiedPage_ok :
    (listWorkflows tiedStorage.readInfoPage .global none (some 1) none).toOption.isSome = true := by
  decide +kernel

/-- The first of two pages of the global namespace. -/
def tiedPage : Page WorkflowInfo String :=
  (listWorkflows tiedStorage.readInfoPage .global none (some 1) none).toOption.get tiedPage_ok

/-- Two tenants that use the same ids. The answers are those of the one tenant
alone, and a cursor of the other is refused. -/
theorem namespaces_do_not_interfere_shared :
    StorageOperation.answersIn tenantNamespace sharedIdOperations =
        StorageOperation.answersIn tenantNamespace ownIdOperations ∧
      listWorkflows tiedStorage.readInfoPage tenantNamespace none none
          (some "global-namespace:10:w-2") = .error invalidListCursor := by
  obtain ⟨hAnswers, hCursors⟩ := namespaces_do_not_interfere tenantNamespace
  exact ⟨hAnswers sharedIdOperations ownIdOperations (by rfl),
    hCursors tiedStorage tiedStorage .global none none (some 1) none none tiedPage
      "global-namespace:10:w-2" (by decide +kernel) (FallibleFold.eq_ok_get tiedPage_ok)
      (by decide +kernel)⟩

end RelayFold
