import RelayFold.Adapters.EventPages

/-! All operations of `StoragePort` on the in-memory store, one after the other
(`memory_storage.rs`). -/
namespace RelayFold

structure WorkflowDefSummary where
  id : String
  description : String
  createdAtEpochMs : Nat
  lastInvokedAtEpochMs : Option Nat

structure FunctionDefSummary where
  id : String

/-- The order of definition summaries: creation time, then id. -/
def WorkflowDefSummary.rank (summary : WorkflowDefSummary) : Lex (Nat × String) :=
  toLex (summary.createdAtEpochMs, summary.id)

namespace MemoryStorage

/-- When an instance of the definition was last created in the namespace. -/
def lastInvoked (ns : Namespace) (workflowDefId : String) (storage : MemoryStorage) : Option Nat :=
  let infos := (storage.workflowInfos.toList.map Prod.snd).filter fun info =>
    info.ns = ns && info.workflowDefId = workflowDefId
  (infos.filterMap (·.createdAtEpochMs)).max?

def defSummary (ns : Namespace) (storage : MemoryStorage) (stored : StoredWorkflowDef) :
    WorkflowDefSummary where
  id := stored.definition.id
  description := stored.definition.description
  createdAtEpochMs := stored.createdAtEpochMs
  lastInvokedAtEpochMs := storage.lastInvoked ns stored.definition.id

/-- The values of a map under the keys of a namespace. -/
def ownValues {β : Type} (ns : Namespace) (m : FiniteMap ResourceKey β) : List β :=
  (m.toList.filter fun entry => (ofLex entry.1).1 = ns).map Prod.snd

def listWorkflowDef (ns : Namespace) (storage : MemoryStorage) : List WorkflowDefSummary :=
  ((ownValues ns storage.workflowDefs).map (storage.defSummary ns)).insertionSort
    fun left right => right.rank ≤ left.rank

def listFunctionDef (ns : Namespace) (storage : MemoryStorage) : List FunctionDefSummary :=
  ((ownValues ns storage.functionDefs).map fun definition => ⟨definition.id⟩).insertionSort
    fun left right => left.id ≤ right.id

/-- Removing answers whether there was a definition. -/
def deleteFunctionDef (ns : Namespace) (id : String) (storage : MemoryStorage) :
    Bool × MemoryStorage :=
  let key := resourceKey ns id
  ((storage.functionDefs.lookup key).isSome,
    { storage with functionDefs := storage.functionDefs.erase key })

end MemoryStorage

inductive StorageOperation where
  | saveWorkflowDef (ns : Namespace) (definition : WorkflowDef) (clock : Clock)
  | getWorkflowDef (ns : Namespace) (id : String)
  | listWorkflowDef (ns : Namespace)
  | saveFunctionDef (ns : Namespace) (definition : FunctionDef)
  | getFunctionDef (ns : Namespace) (id : String)
  | listFunctionDef (ns : Namespace)
  | deleteFunctionDef (ns : Namespace) (id : String)
  | getWorkflowInstance (ns : Namespace) (id : String)
  | listWorkflowInstanceEvents (ns : Namespace) (workflowInstanceId : String)
      (page : PageRequest Nat)
  | listWorkflowInfo (ns : Option Namespace) (page : PageRequest WorkflowInfoCursor)
      (filters : List WorkflowInstanceFilter)
  | saveWorkflowInstance (ns : Namespace) (expectedVersion : Nat)
      (events : List WorkflowEventRecord) (workflow : WorkflowInstance) (clock : Clock)

inductive StorageAnswer where
  | saved (result : Except StorageError Unit)
  | workflowDef (definition : Option WorkflowDef)
  | workflowDefs (summaries : List WorkflowDefSummary)
  | functionDef (definition : Option FunctionDef)
  | functionDefs (summaries : List FunctionDefSummary)
  | deleted (wasStored : Bool)
  | workflowInstance (workflow : Option WorkflowInstance)
  | events (page : Page WorkflowEventRecord Nat)
  | infos (page : Page WorkflowInfo WorkflowInfoCursor)

namespace StorageOperation

/-- The namespace an operation carries; internal recovery lists without one. -/
def ns? : StorageOperation → Option Namespace
  | saveWorkflowDef ns _ _ | getWorkflowDef ns _ | listWorkflowDef ns | saveFunctionDef ns _
  | getFunctionDef ns _ | listFunctionDef ns | deleteFunctionDef ns _ | getWorkflowInstance ns _
  | listWorkflowInstanceEvents ns _ _ | saveWorkflowInstance ns _ _ _ _ => some ns
  | listWorkflowInfo ns _ _ => ns

def run (storage : MemoryStorage) : StorageOperation → StorageAnswer × MemoryStorage
  | saveWorkflowDef ns definition clock =>
      ((MemoryStorage.saveWorkflowDef ns definition clock).run.run storage).map .saved id
  | getWorkflowDef ns id => (.workflowDef (storage.getWorkflowDef ns id), storage)
  | listWorkflowDef ns => (.workflowDefs (storage.listWorkflowDef ns), storage)
  | saveFunctionDef ns definition =>
      ((MemoryStorage.saveFunctionDef ns definition).run.run storage).map .saved id
  | getFunctionDef ns id => (.functionDef (storage.getFunctionDef ns id), storage)
  | listFunctionDef ns => (.functionDefs (storage.listFunctionDef ns), storage)
  | deleteFunctionDef ns id => (storage.deleteFunctionDef ns id).map .deleted fun storage => storage
  | getWorkflowInstance ns id => (.workflowInstance (storage.getWorkflowInstance ns id), storage)
  | listWorkflowInstanceEvents ns id page =>
      (.events (storage.listWorkflowInstanceEvents ns id page), storage)
  | listWorkflowInfo ns page filters => (.infos (storage.listWorkflowInfo ns page filters), storage)
  | saveWorkflowInstance ns expectedVersion events workflow clock =>
      ((MemoryStorage.saveWorkflowInstance ns expectedVersion events workflow clock).run.run
        storage).map .saved id

/-- An operation leaves the instances and their summaries alone, or it saves
one instance. -/
theorem run_saves (operation : StorageOperation) (storage : MemoryStorage) :
    ((operation.run storage).2.workflowInstances = storage.workflowInstances ∧
      (operation.run storage).2.workflowInfos = storage.workflowInfos) ∨
    ∃ ns events workflow now, (operation.run storage).2 =
      storage.saved ns events workflow (storage.summary ns events workflow now) := by
  cases operation with
  | getWorkflowDef | listWorkflowDef | getFunctionDef | listFunctionDef | getWorkflowInstance
  | listWorkflowInstanceEvents | listWorkflowInfo | saveFunctionDef | deleteFunctionDef =>
      exact .inl ⟨rfl, rfl⟩
  | saveWorkflowDef ns definition clock => cases clock <;> exact .inl ⟨rfl, rfl⟩
  | saveWorkflowInstance ns expectedVersion events workflow clock =>
      rw [run, MemoryStorage.saveWorkflowInstance_run]
      split
      · exact .inl ⟨rfl, rfl⟩
      · cases clock with
        | error message => exact .inl ⟨rfl, rfl⟩
        | ok now => exact .inr ⟨ns, events, workflow, now, rfl⟩

end StorageOperation

namespace MemoryStorage

/-- The contents a sequence of operations leaves. -/
def reached (operations : List StorageOperation) : MemoryStorage :=
  operations.foldl (fun storage operation => (operation.run storage).2) .new

/-- What an empty store has and every save keeps holds of every content. -/
theorem reached_invariant {P : MemoryStorage → Prop} (hNew : P .new)
    (hSame : ∀ storage storage', P storage →
      storage'.workflowInstances = storage.workflowInstances →
      storage'.workflowInfos = storage.workflowInfos → P storage')
    (hSaved : ∀ storage ns events workflow now, P storage →
      P (storage.saved ns events workflow (storage.summary ns events workflow now)))
    (operations : List StorageOperation) : P (reached operations) := by
  refine (Run.of_foldl (fun storage operation => (StorageOperation.run storage operation).2)
    operations .new).invariant hNew fun storage operation storage' h hStep => ?_
  subst hStep
  rcases operation.run_saves storage with ⟨hInstances, hInfos⟩ | ⟨ns, events, workflow, now, hRun⟩
  · exact hSame _ _ h hInstances hInfos
  · rw [hRun]
    exact hSaved storage ns events workflow now h

/-- Whatever the operations, every stored instance has its summary. -/
theorem Summarized.reached (operations : List StorageOperation) :
    (reached operations).Summarized :=
  reached_invariant .new
    (fun _ _ h hInstances hInfos key => by rw [hInstances, hInfos]; exact h key)
    (fun _ _ events _ _ h => h.saved events ⟨rfl, rfl⟩) operations

/-- Whatever the operations, every instance lies under its own key. -/
theorem Keyed.reached (operations : List StorageOperation) : (reached operations).Keyed :=
  reached_invariant (fun _ _ _ h => by cases h)
    (fun _ _ h hInstances _ ns id workflow hStored => h ns id workflow (hInstances ▸ hStored))
    (fun storage ns events workflow now h => h.saved ns events workflow
      (storage.summary ns events workflow now)) operations

end MemoryStorage

end RelayFold
