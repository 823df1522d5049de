import Mathlib.Data.Finset.Dedup
import Mathlib.Data.Finset.Insert
import RelayFold.Core.Workflow

/-! The in-memory workflow queue (`memory_workflow_queue.rs`): the instances
that are to run, in order and without duplicates, and the instances that run
now. -/
namespace RelayFold

structure WorkflowQueueItem where
  ns : Namespace
  workflowInstanceId : String
deriving DecidableEq

/-- The queue behind its mutex. The set `pendingIds` repeats what the list
holds. -/
structure MemoryWorkflowQueue where
  capacity : Nat
  pending : List WorkflowQueueItem
  pendingIds : Finset WorkflowQueueItem
  activeIds : Finset WorkflowQueueItem
  nodup : pending.Nodup
  ids : pendingIds = pending.toFinset

namespace MemoryWorkflowQueue

variable {queue queue' : MemoryWorkflowQueue} {item other : WorkflowQueueItem}

def new (capacity : Nat) : MemoryWorkflowQueue where
  capacity := max capacity 1
  pending := []
  pendingIds := ∅
  activeIds := ∅
  nodup := .nil
  ids := rfl

theorem mem_pendingIds (queue : MemoryWorkflowQueue) (item : WorkflowQueueItem) :
    item ∈ queue.pendingIds ↔ item ∈ queue.pending := by
  rw [queue.ids, List.mem_toFinset]

def pushBack (queue : MemoryWorkflowQueue) (item : WorkflowQueueItem)
    (hNew : item ∉ queue.pendingIds) : MemoryWorkflowQueue :=
  { queue with
    pending := queue.pending ++ [item]
    pendingIds := insert item queue.pendingIds
    nodup := by
      rw [queue.ids, List.mem_toFinset] at hNew
      exact List.nodup_append.mpr ⟨queue.nodup, List.nodup_singleton item, fun other hOther _ hItem =>
        (ne_of_mem_of_not_mem hOther hNew).trans_eq (List.mem_singleton.mp hItem).symm⟩
    ids := by
      ext other
      simp [queue.ids] }

/-- Take a pending item out of the list and out of the set. -/
def takeOut (queue : MemoryWorkflowQueue) (item : WorkflowQueueItem) : MemoryWorkflowQueue :=
  { queue with
    pending := queue.pending.erase item
    pendingIds := queue.pendingIds.erase item
    nodup := queue.nodup.erase item
    ids := by
      ext other
      simp [queue.ids, queue.nodup.mem_erase_iff] }

/-- An item that is pending is not queued again; with a full queue the caller
waits. -/
def enqueue (queue : MemoryWorkflowQueue) (item : WorkflowQueueItem) :
    Option MemoryWorkflowQueue :=
  if hPending : item ∈ queue.pendingIds then some queue
  else if queue.pending.length < queue.capacity then some (queue.pushBack item hPending)
  else none

/-- The first pending item that is not active becomes active. -/
def dequeue (queue : MemoryWorkflowQueue) : Option (WorkflowQueueItem × MemoryWorkflowQueue) :=
  (queue.pending.find? (· ∉ queue.activeIds)).map fun item =>
    (item, { queue.takeOut item with activeIds := insert item queue.activeIds })

def complete (queue : MemoryWorkflowQueue) (item : WorkflowQueueItem) : MemoryWorkflowQueue :=
  { queue with activeIds := queue.activeIds.erase item }

def remove (queue : MemoryWorkflowQueue) (item : WorkflowQueueItem) :
    Bool × MemoryWorkflowQueue :=
  if item ∈ queue.pending then (true, queue.takeOut item) else (false, queue)

/-- The pending ids of a namespace, the oldest first. -/
def pendingIdsIn (queue : MemoryWorkflowQueue) (ns : Namespace) : List String :=
  (queue.pending.filter (·.ns = ns)).map (·.workflowInstanceId)

/-- Drop what is pending in a namespace; what runs there goes on. -/
def purge (queue : MemoryWorkflowQueue) (ns : Namespace) : List String × MemoryWorkflowQueue :=
  let kept := queue.pending.filter (·.ns ≠ ns)
  (queue.pendingIdsIn ns,
    { queue with
      pending := kept
      pendingIds := kept.toFinset
      nodup := queue.nodup.filter _
      ids := rfl })

theorem mem_pending_takeOut :
    other ∈ (queue.takeOut item).pending ↔ other ≠ item ∧ other ∈ queue.pending :=
  queue.nodup.mem_erase_iff

/-- An item that has been enqueued is pending. -/
theorem enqueue_mem (h : queue.enqueue item = some queue') : item ∈ queue'.pending := by
  unfold enqueue at h
  split at h
  · rename_i hPending
    cases h
    exact (mem_pendingIds _ _).mp hPending
  · split at h <;> cases h
    exact List.mem_append_right _ List.mem_cons_self

/-- An item that was pending is so after another one has been queued. -/
theorem enqueue_keeps (h : queue.enqueue item = some queue') (hOther : other ∈ queue.pending) :
    other ∈ queue'.pending := by
  unfold enqueue at h
  split at h
  · cases h
    exact hOther
  · split at h <;> cases h
    exact List.mem_append_left _ hOther

/-- Queuing starts no work. -/
theorem enqueue_activeIds (h : queue.enqueue item = some queue') :
    queue'.activeIds = queue.activeIds := by
  unfold enqueue at h
  split at h
  · cases h
    rfl
  · split at h <;> cases h
    rfl

/-- Removal takes the item from the queue, if it was there. -/
theorem remove_pending (queue : MemoryWorkflowQueue) (item : WorkflowQueueItem) :
    other ∈ (queue.remove item).2.pending ↔ other ≠ item ∧ other ∈ queue.pending := by
  unfold remove
  split
  · exact mem_pending_takeOut
  · rename_i hAbsent
    exact ⟨fun hOther => ⟨fun hSame => hAbsent (hSame ▸ hOther), hOther⟩, And.right⟩

theorem mem_pending_purge {ns : Namespace} :
    other ∈ (queue.purge ns).2.pending ↔ other ∈ queue.pending ∧ other.ns ≠ ns := by
  change other ∈ queue.pending.filter (·.ns ≠ ns) ↔ _
  simp

theorem remove_activeIds (queue : MemoryWorkflowQueue) (item : WorkflowQueueItem) :
    (queue.remove item).2.activeIds = queue.activeIds := by
  unfold remove
  split <;> rfl

/-- A dequeued item was pending and idle; it is active now, and the others stay
pending. -/
theorem dequeue_some (h : queue.dequeue = some (item, queue')) :
    item ∈ queue.pending ∧ item ∉ queue.activeIds ∧
      queue'.activeIds = insert item queue.activeIds ∧
      ∀ other, other ∈ queue'.pending ↔ other ≠ item ∧ other ∈ queue.pending := by
  obtain ⟨found, hFound, hPair⟩ := Option.map_eq_some_iff.mp h
  cases hPair
  exact ⟨List.mem_of_find?_eq_some hFound, by simpa using List.find?_some hFound, rfl,
    fun _ => mem_pending_takeOut⟩

end MemoryWorkflowQueue

end RelayFold
