import Mathlib.Data.Prod.Lex
import RelayFold.Core.StateManager

/-! The in-memory store (`memory_storage.rs`): instances, their events and
their summaries live in three maps that one commit updates under the commit
lock. -/
namespace RelayFold

/-- A namespace and an id, ordered lexicographically. -/
abbrev ResourceKey := Lex (Namespace × String)

def resourceKey (ns : Namespace) (id : String) : ResourceKey := toLex (ns, id)

/-- Resources of different namespaces never share a key. -/
theorem resourceKey_inj {ns ns' : Namespace} {id id' : String} :
    resourceKey ns id = resourceKey ns' id' ↔ ns = ns' ∧ id = id' := by
  rw [resourceKey, resourceKey, toLex_inj, Prod.mk.injEq]

structure StoredWorkflowDef where
  definition : WorkflowDef
  createdAtEpochMs : Nat

structure MemoryStorage where
  workflowDefs : FiniteMap ResourceKey StoredWorkflowDef
  functionDefs : FiniteMap ResourceKey FunctionDef
  workflowInstances : FiniteMap ResourceKey WorkflowInstance
  workflowInstanceEvents : FiniteMap ResourceKey (List WorkflowEventRecord)
  workflowInfos : FiniteMap ResourceKey WorkflowInfo

def workflowCompletedAt (workflow : WorkflowInstance) (modifiedAtEpochMs : Nat) : Option Nat :=
  if workflow.status = .completed ∨ workflow.status = .failed then some modifiedAtEpochMs
  else none

namespace MemoryStorage

def new : MemoryStorage := ⟨∅, ∅, ∅, ∅, ∅⟩

/-- Saving a definition again keeps the time it was first created. -/
def saveWorkflowDef (ns : Namespace) (definition : WorkflowDef) (clock : Clock) :
    StorageM MemoryStorage Unit := do
  let key := resourceKey ns definition.id
  let now ← unixTimestampMs clock
  modify fun storage => { storage with
    workflowDefs := storage.workflowDefs.insert key
      { definition := definition
        createdAtEpochMs := ((storage.workflowDefs.lookup key).map (·.createdAtEpochMs)).getD now } }

def getWorkflowDef (ns : Namespace) (id : String) (storage : MemoryStorage) :
    Option WorkflowDef :=
  (storage.workflowDefs.lookup (resourceKey ns id)).map (·.definition)

def saveFunctionDef (ns : Namespace) (definition : FunctionDef) : StorageM MemoryStorage Unit :=
  modify fun storage => { storage with
    functionDefs := storage.functionDefs.insert (resourceKey ns definition.id) definition }

def getFunctionDef (ns : Namespace) (id : String) (storage : MemoryStorage) :
    Option FunctionDef :=
  storage.functionDefs.lookup (resourceKey ns id)

def getWorkflowInstance (ns : Namespace) (id : String) (storage : MemoryStorage) :
    Option WorkflowInstance :=
  storage.workflowInstances.lookup (resourceKey ns id)

/-- The stored event list of an instance; an instance without events has
none. -/
def eventsOf (storage : MemoryStorage) (key : ResourceKey) : List WorkflowEventRecord :=
  (storage.workflowInstanceEvents.lookup key).getD []

def saveWorkflowInstance (ns : Namespace) (expectedVersion : Nat)
    (events : List WorkflowEventRecord) (workflow : WorkflowInstance) (clock : Clock) :
    StorageM MemoryStorage Unit := do
  let key := resourceKey ns workflow.id
  let actualVersion := (((← get).workflowInstances.lookup key).map (·.version)).getD 0
  if actualVersion ≠ expectedVersion then
    throw (.workflowVersionConflict workflow.id expectedVersion actualVersion)
  let now ← unixTimestampMs clock
  let createdFromEventsAtEpochMs := (events.head?.map (·.createdTime)).getD now
  let modifiedAtEpochMs := (events.getLast?.map (·.createdTime)).getD createdFromEventsAtEpochMs
  let existingInfo := (← get).workflowInfos.lookup key
  let createdAtEpochMs :=
    (existingInfo.bind (·.createdAtEpochMs)).or (some createdFromEventsAtEpochMs)
  let completedAtEpochMs :=
    (existingInfo.bind (·.completedAtEpochMs)).or (workflowCompletedAt workflow modifiedAtEpochMs)
  let info := WorkflowInfo.fromInstanceWithTimestamps ns workflow createdAtEpochMs
    modifiedAtEpochMs completedAtEpochMs
  modify fun storage => { storage with workflowInfos := storage.workflowInfos.insert key info }
  modify fun storage => { storage with
    workflowInstanceEvents :=
      storage.workflowInstanceEvents.insert key (storage.eventsOf key ++ events) }
  modify fun storage => { storage with
    workflowInstances := storage.workflowInstances.insert key workflow }

def port : StoragePort MemoryStorage where
  getWorkflowInstance ns id := do return getWorkflowInstance ns id (← get)
  saveWorkflowInstance := saveWorkflowInstance

end MemoryStorage

end RelayFold
