import RelayFold.Adapters.MemoryWorkflowQueue
import RelayFold.Library.Runs

/-! The queue under any callers: each operation is one critical section, or
an attempt that has to wait. What waits keeps its place, and no wake-up is
lost. -/
namespace RelayFold

inductive QueueOperation where
  | enqueue (item : WorkflowQueueItem)
  | dequeue
  | complete (item : WorkflowQueueItem)
  | pendingIds (ns : Namespace)
  | remove (item : WorkflowQueueItem)
  | purge (ns : Namespace)
deriving DecidableEq

/-- What a critical section returns to its caller, if the caller need not wait
for another. -/
inductive QueueResult where
  | waits
  | done
  | dequeued (item : WorkflowQueueItem)
  | pending (ids : List String)
  | removed (found : Bool)
  | purged (ids : List String)
deriving DecidableEq

structure QueueEvent where
  operation : QueueOperation
  result : QueueResult
deriving DecidableEq

namespace MemoryWorkflowQueue

def run (queue : MemoryWorkflowQueue) : QueueOperation → QueueResult × MemoryWorkflowQueue
  | .enqueue item =>
      match queue.enqueue item with
      | some queue => (.done, queue)
      | none => (.waits, queue)
  | .dequeue =>
      match queue.dequeue with
      | some (item, queue) => (.dequeued item, queue)
      | none => (.waits, queue)
  | .complete item => (.done, queue.complete item)
  | .pendingIds ns => (.pending (queue.pendingIdsIn ns), queue)
  | .remove item =>
      let (found, queue) := queue.remove item
      (.removed found, queue)
  | .purge ns =>
      let (ids, queue) := queue.purge ns
      (.purged ids, queue)

/-- Runs of the queue; the labels are its history. -/
abbrev Steps : MemoryWorkflowQueue → List QueueEvent → MemoryWorkflowQueue → Prop :=
  Run fun queue event queue' => queue.run event.operation = (event.result, queue')

/-- The history of the operations, in this order, and the queue after them. -/
def runAll (queue : MemoryWorkflowQueue) :
    List QueueOperation → List QueueEvent × MemoryWorkflowQueue
  | [] => ([], queue)
  | operation :: rest =>
      let (result, queue) := queue.run operation
      let (events, queue) := queue.runAll rest
      (⟨operation, result⟩ :: events, queue)

/-- A list of operations, run one after another, is a run of the queue. -/
theorem steps_runAll (queue : MemoryWorkflowQueue) (operations : List QueueOperation) :
    Steps queue (queue.runAll operations).1 (queue.runAll operations).2 := by
  induction operations generalizing queue with
  | nil => exact .nil queue
  | cons operation rest ih => exact (Run.single rfl).trans (ih _)

end MemoryWorkflowQueue

namespace QueueEvent

/-- The enqueue of the item that returned. -/
def enqueued (item : WorkflowQueueItem) : QueueEvent := ⟨.enqueue item, .done⟩

def handedOut (item : WorkflowQueueItem) : QueueEvent := ⟨.dequeue, .dequeued item⟩

/-- The item is taken from those that wait without being handed out. -/
def Withdraws (item : WorkflowQueueItem) (event : QueueEvent) : Prop :=
  event = ⟨.remove item, .removed true⟩ ∨ event.operation = .purge item.ns

instance (item : WorkflowQueueItem) : DecidablePred (Withdraws item) :=
  fun _ => inferInstanceAs (Decidable (_ ∨ _))

/-- Since which event of a history, the latest first, the item has been
waiting. -/
def waitingSince (item : WorkflowQueueItem) : List QueueEvent → Option Nat
  | [] => none
  | event :: earlier =>
      if event = enqueued item then some ((waitingSince item earlier).getD earlier.length)
      else if event = handedOut item ∨ event.Withdraws item then none
      else waitingSince item earlier

/-- Whether the item runs, by a history with the latest event first. -/
def isRunning (item : WorkflowQueueItem) : List QueueEvent → Bool
  | [] => false
  | event :: earlier =>
      if event = handedOut item then true
      else if event.operation = .complete item then false
      else isRunning item earlier

end QueueEvent

namespace MemoryWorkflowQueue

open QueueEvent

variable {queue queue' : MemoryWorkflowQueue} {event : QueueEvent} {item other : WorkflowQueueItem}
  {capacity : Nat} {history : List QueueEvent}

/-- What one critical section does to each item. -/
structure Moved (queue : MemoryWorkflowQueue) (event : QueueEvent)
    (queue' : MemoryWorkflowQueue) : Prop where
  capacity : queue'.capacity = queue.capacity
  bounded : queue.pending.length ≤ queue.capacity → queue'.pending.length ≤ queue'.capacity
  pending : ∀ item, item ∈ queue'.pending ↔ event = enqueued item ∨
    item ∈ queue.pending ∧ ¬(event = handedOut item ∨ event.Withdraws item)
  active : ∀ item, item ∈ queue'.activeIds ↔ event = handedOut item ∨
    item ∈ queue.activeIds ∧ event.operation ≠ .complete item
  order : queue'.pending.Sublist queue.pending ∨ ∃ item, event = enqueued item ∧
    item ∉ queue.pending ∧ queue'.pending = queue.pending ++ [item]

/-- An operation that neither queues nor hands out nor withdraws leaves the
queue as it is. -/
theorem Moved.stays (hEnqueued : ∀ item, event = enqueued item → item ∈ queue.pending)
    (hHanded : ∀ item, event ≠ handedOut item)
    (hWithdrawn : ∀ item ∈ queue.pending, ¬event.Withdraws item)
    (hCompleted : ∀ item ∈ queue.activeIds, event.operation ≠ .complete item) :
    Moved queue event queue := by
  refine ⟨rfl, id, fun item => ?_, fun item => ?_, .inl (List.Sublist.refl _)⟩
  · constructor
    · exact fun h => .inr ⟨h, fun hGone => hGone.elim (hHanded item) (hWithdrawn item h)⟩
    · rintro (h | h)
      · exact hEnqueued item h
      · exact h.1
  · constructor
    · exact fun h => .inr ⟨h, hCompleted item h⟩
    · rintro (h | h)
      · exact absurd h (hHanded item)
      · exact h.1

/-- Every operation moves the queue as its event says. -/
theorem moved_of_run (h : queue.run event.operation = (event.result, queue')) :
    Moved queue event queue' := by
  obtain ⟨operation, result⟩ := event
  cases operation with
  | enqueue item =>
      simp only [run, enqueue] at h
      split at h
      · rename_i found hFound
        cases h
        split at hFound
        · rename_i hPending
          cases hFound
          refine .stays ?_ (by simp [handedOut]) (by simp [Withdraws]) (by simp)
          rintro other hOther
          cases hOther
          exact (mem_pendingIds _ _).mp hPending
        · rename_i hNew
          split at hFound
          · rename_i hRoom
            cases hFound
            rw [mem_pendingIds] at hNew
            refine ⟨rfl, fun _ => ?_, fun other => ?_, fun other => ?_, .inr ⟨item, rfl, hNew, rfl⟩⟩
            · change (queue.pending ++ [item]).length ≤ queue.capacity
              simp only [List.length_append, List.length_singleton]
              omega
            · change other ∈ queue.pending ++ [item] ↔ _
              simp only [List.mem_append, List.mem_singleton, enqueued, handedOut, Withdraws,
                QueueEvent.mk.injEq, QueueOperation.enqueue.injEq, reduceCtorEq, false_and,
                and_true, or_false, not_false_eq_true]
              rw [or_comm, eq_comm]
            · change other ∈ queue.activeIds ↔ _
              simp [handedOut]
          · cases hFound
      · cases h
        exact .stays (by simp [enqueued]) (by simp [handedOut]) (by simp [Withdraws]) (by simp)
  | dequeue =>
      simp only [run] at h
      split at h
      · rename_i item found hFound
        cases h
        obtain ⟨found, _, hPair⟩ := Option.map_eq_some_iff.mp hFound
        obtain ⟨_, _, hActive, hOthers⟩ := dequeue_some hFound
        cases hPair
        refine ⟨rfl, fun hLength => ?_, fun other => ?_, fun other => ?_, .inl List.erase_sublist⟩
        · exact List.erase_sublist.length_le.trans hLength
        · rw [hOthers]
          simp [enqueued, handedOut, Withdraws, and_comm, eq_comm]
        · rw [hActive]
          simp [handedOut, eq_comm]
      · cases h
        exact .stays (by simp [enqueued]) (by simp [handedOut]) (by simp [Withdraws]) (by simp)
  | complete item =>
      cases h
      refine ⟨rfl, id, fun other => ?_, fun other => ?_, .inl (List.Sublist.refl _)⟩
      · change other ∈ queue.pending ↔ _
        simp [enqueued, handedOut, Withdraws]
      · change other ∈ queue.activeIds.erase item ↔ _
        simp [handedOut, and_comm, eq_comm]
  | pendingIds ns =>
      cases h
      exact .stays (by simp [enqueued]) (by simp [handedOut]) (by simp [Withdraws]) (by simp)
  | remove item =>
      simp only [run, remove] at h
      split at h
      · rename_i hPending
        cases h
        refine ⟨rfl, fun hLength => ?_, fun other => ?_, fun other => ?_, .inl List.erase_sublist⟩
        · exact List.erase_sublist.length_le.trans hLength
        · rw [mem_pending_takeOut]
          simp [enqueued, handedOut, Withdraws, and_comm, eq_comm]
        · change other ∈ queue.activeIds ↔ _
          simp [handedOut]
      · rename_i hAbsent
        cases h
        exact .stays (by simp [enqueued]) (by simp [handedOut]) (by simp [Withdraws]) (by simp)
  | purge ns =>
      cases h
      refine ⟨rfl, fun hLength => ?_, fun other => ?_, fun other => ?_, .inl List.filter_sublist⟩
      · exact (List.length_filter_le _ _).trans hLength
      · change other ∈ (queue.purge ns).2.pending ↔ _
        rw [mem_pending_purge]
        simp [enqueued, handedOut, Withdraws, eq_comm]
      · change other ∈ queue.activeIds ↔ _
        simp [handedOut]

/-- The queue against its history, the latest event first. -/
structure Inv (history : List QueueEvent) (queue : MemoryWorkflowQueue) : Prop where
  bounded : queue.pending.length ≤ queue.capacity
  waiting : ∀ item, item ∈ queue.pending ↔ (waitingSince item history).isSome = true
  before : ∀ item since, waitingSince item history = some since → since < history.length
  running : ∀ item, item ∈ queue.activeIds ↔ isRunning item history = true
  inOrder : queue.pending.Pairwise fun a b => ∀ since since',
    waitingSince a history = some since → waitingSince b history = some since' → since < since'

theorem Inv.new (capacity : Nat) : Inv [] (new capacity) := by
  refine ⟨Nat.zero_le _, fun item => ?_, fun _ _ h => (by cases h), fun item => ?_, .nil⟩
  · exact iff_of_false List.not_mem_nil (by simp [waitingSince])
  · exact iff_of_false (Finset.notMem_empty item) (by simp [isRunning])

/-- An item that goes on waiting has been waiting for as long. -/
theorem Moved.waitingSince_eq (h : Moved queue event queue') (hNew : item ∈ queue'.pending)
    {since : Nat} (hSince : waitingSince item history = some since) :
    waitingSince item (event :: history) = some since := by
  unfold waitingSince
  by_cases hEnqueued : event = enqueued item
  · rw [if_pos hEnqueued, hSince]
    rfl
  · rw [if_neg hEnqueued, if_neg (((h.pending item).mp hNew).resolve_left hEnqueued).2, hSince]

/-- One event more: the items in the queue are those of the history that have
not been handed out or withdrawn, in order. -/
theorem Inv.step (h : Inv history queue) (hMoved : Moved queue event queue') :
    Inv (event :: history) queue' := by
  have hWaiting (item : WorkflowQueueItem) :
      item ∈ queue'.pending ↔ (waitingSince item (event :: history)).isSome = true := by
    rw [hMoved.pending, waitingSince]
    split
    · rename_i hEnqueued
      exact iff_of_true (.inl hEnqueued) rfl
    · rename_i hOther
      split
      · rename_i hGone
        exact iff_of_false (fun hStays => (hStays.resolve_left hOther).2 hGone) nofun
      · rename_i hKept
        rw [← h.waiting item]
        exact ⟨fun hStays => (hStays.resolve_left hOther).1, fun hOld => .inr ⟨hOld, hKept⟩⟩
  refine ⟨hMoved.bounded h.bounded, hWaiting, fun item since hSince => ?_, fun item => ?_, ?_⟩
  · rw [List.length_cons]
    rw [waitingSince] at hSince
    split at hSince
    · cases hSince
      cases hOld : waitingSince item history with
      | none => exact Nat.lt_succ_self _
      | some since => exact Nat.lt_succ_of_lt (h.before item since hOld)
    · split at hSince
      · cases hSince
      · exact Nat.lt_succ_of_lt (h.before item since hSince)
  · rw [hMoved.active, isRunning]
    split
    · rename_i hHanded
      exact iff_of_true (.inl hHanded) rfl
    · rename_i hOther
      split
      · rename_i hDone
        exact iff_of_false (fun hStays => (hStays.resolve_left hOther).2 hDone) nofun
      · rename_i hRuns
        rw [← h.running item]
        exact ⟨fun hStays => (hStays.resolve_left hOther).1, fun hOld => .inr ⟨hOld, hRuns⟩⟩
  · have hSame {item : WorkflowQueueItem} (hOld : item ∈ queue.pending)
        (hNew : item ∈ queue'.pending) {since : Nat}
        (hSince : waitingSince item (event :: history) = some since) :
        waitingSince item history = some since := by
      obtain ⟨old, hOldSince⟩ := Option.isSome_iff_exists.mp ((h.waiting item).mp hOld)
      rw [hMoved.waitingSince_eq hNew hOldSince] at hSince
      rw [hOldSince, hSince]
    rcases hMoved.order with hSublist | ⟨item, hEnqueued, hAbsent, hAppend⟩
    · apply (h.inOrder.sublist hSublist).imp_of_mem
      intro a b ha hb hBefore since since' hSince hSince'
      exact hBefore since since' (hSame (hSublist.subset ha) ha hSince)
        (hSame (hSublist.subset hb) hb hSince')
    · rw [hAppend]
      apply List.pairwise_append.mpr
      refine ⟨h.inOrder.imp_of_mem fun {a b} ha hb hBefore since since' hSince hSince' => ?_,
        List.pairwise_singleton _ _, fun a ha b hb since since' hSince hSince' => ?_⟩
      · have hStays {item : WorkflowQueueItem} (hOld : item ∈ queue.pending) :
            item ∈ queue'.pending := hAppend ▸ List.mem_append_left _ hOld
        exact hBefore since since' (hSame ha (hStays ha) hSince) (hSame hb (hStays hb) hSince')
      · obtain rfl := List.mem_singleton.mp hb
        have hNew : waitingSince b history = none := by
          rw [h.waiting] at hAbsent
          exact Option.not_isSome_iff_eq_none.mp hAbsent
        rw [waitingSince, if_pos hEnqueued, hNew] at hSince'
        cases hSince'
        have hOld : a ∈ queue'.pending := hAppend ▸ List.mem_append_left _ ha
        exact h.before a since (hSame ha hOld hSince)

theorem Steps.inv {events : List QueueEvent} (run : Steps (new capacity) events queue) :
    Inv events.reverse queue ∧ queue.capacity = max capacity 1 := by
  induction run with
  | nil => exact ⟨Inv.new capacity, rfl⟩
  | snoc prior last ih =>
      obtain ⟨hInv, hCapacity⟩ := ih
      have hMoved := moved_of_run last
      rw [List.reverse_append]
      exact ⟨hInv.step hMoved, hMoved.capacity.trans hCapacity⟩

/-- The item that is handed out has been waiting longest of those that do not
run. -/
theorem Inv.oldest (h : Inv history queue)
    (hHanded : queue.run .dequeue = (.dequeued item, queue')) :
    item ∉ queue.activeIds ∧ ∃ since, waitingSince item history = some since ∧
      ∀ other since', other ≠ item → other ∉ queue.activeIds →
        waitingSince other history = some since' → since < since' := by
  simp only [run] at hHanded
  split at hHanded
  · rename_i found rest hFound
    cases hHanded
    obtain ⟨first, hFirst, hPair⟩ := Option.map_eq_some_iff.mp hFound
    cases hPair
    obtain ⟨hIdle, earlier, later, hPending, hEarlier⟩ := List.find?_eq_some_iff_append.mp hFirst
    have hMem : item ∈ queue.pending := List.mem_of_find?_eq_some hFirst
    obtain ⟨since, hSince⟩ := Option.isSome_iff_exists.mp ((h.waiting item).mp hMem)
    refine ⟨by simpa using hIdle, since, hSince, fun other since' hOther hOtherIdle hSince' => ?_⟩
    have hOtherMem : other ∈ queue.pending := (h.waiting other).mpr (by rw [hSince']; rfl)
    have hOrder := h.inOrder
    rw [hPending] at hOrder hOtherMem
    rcases List.mem_append.mp hOtherMem with hBefore | hAfter
    · have hActive := hEarlier other hBefore
      exact absurd hOtherIdle (by simpa using hActive)
    · have hLater := List.rel_of_pairwise_cons (List.pairwise_append.mp hOrder).2.1
        ((List.mem_cons.mp hAfter).resolve_left hOther)
      exact hLater since since' hSince hSince'
  · cases hHanded

/-- A dequeue has to wait only while everything that is pending runs; otherwise
it hands out an item. -/
theorem Inv.dequeues {result : QueueResult} (h : Inv history queue)
    (hRun : queue.run .dequeue = (result, queue')) :
    (∃ item, result = .dequeued item) ∨ result = .waits ∧ ∀ item,
      (waitingSince item history).isSome = true → isRunning item history = true := by
  simp only [run] at hRun
  split at hRun
  · rename_i item found _
    cases hRun
    exact .inl ⟨item, rfl⟩
  · rename_i hNone
    cases hRun
    refine .inr ⟨rfl, fun item hWaiting => ?_⟩
    have hFind := Option.map_eq_none_iff.mp hNone
    rw [List.find?_eq_none] at hFind
    have hActive := hFind item ((h.waiting item).mpr hWaiting)
    exact (h.running item).mp (by simpa using hActive)

/-- An item that waits goes on waiting, or it is handed out or withdrawn. -/
theorem Steps.waits {after : List QueueEvent} (run : Steps queue after queue')
    (hWaits : item ∈ queue.pending) :
    item ∈ queue'.pending ∨ handedOut item ∈ after ∨ ∃ event ∈ after, event.Withdraws item := by
  induction run with
  | nil => exact .inl hWaits
  | @snoc middle queue' event after prior last ih =>
      have hAfter : after ⊆ after ++ [event] := List.subset_append_left _ _
      have hLast : event ∈ after ++ [event] := List.mem_append_right _ List.mem_cons_self
      rcases ih with hStill | hHanded | ⟨withdrawal, hMem, hWithdraws⟩
      · by_cases hGone : event = handedOut item ∨ event.Withdraws item
        · rcases hGone with rfl | hWithdraws
          · exact .inr (.inl hLast)
          · exact .inr (.inr ⟨event, hLast, hWithdraws⟩)
        · exact .inl (((moved_of_run last).pending item).mpr (.inr ⟨hStill, hGone⟩))
      · exact .inr (.inl (hAfter hHanded))
      · exact .inr (.inr ⟨withdrawal, hAfter hMem, hWithdraws⟩)

/-- What runs goes on running until it is completed. -/
theorem isRunning_append {earlier : List QueueEvent} (later : List QueueEvent)
    (hRunning : isRunning item earlier = true)
    (hDone : ∀ event ∈ later, event.operation ≠ .complete item) :
    isRunning item (later ++ earlier) = true := by
  induction later with
  | nil => exact hRunning
  | cons event later ih =>
      obtain ⟨hEvent, hLater⟩ := List.forall_mem_cons.mp hDone
      rw [List.cons_append, isRunning, if_neg hEvent, ih hLater]
      simp

/-- What the queue promises of a history, the earliest event first. -/
structure Disciplined (capacity : Nat) (events : List QueueEvent)
    (queue : MemoryWorkflowQueue) : Prop where
  distinct : queue.pending.Nodup
  ids : ∀ item, item ∈ queue.pendingIds ↔ item ∈ queue.pending
  bounded : queue.pending.length ≤ max capacity 1
  /-- The item that is handed out does not run, and has been waiting longest of those that
  do not. -/
  oldest : ∀ before item after, events = before ++ handedOut item :: after →
    isRunning item before.reverse = false ∧ ∃ since, waitingSince item before.reverse = some since ∧
      ∀ other since', other ≠ item → isRunning other before.reverse = false →
        waitingSince other before.reverse = some since' → since < since'
  /-- A dequeue hands out an item, unless everything that waits runs. -/
  served : ∀ before result after, events = before ++ ⟨.dequeue, result⟩ :: after →
    (∃ item, result = .dequeued item) ∨ result = .waits ∧ ∀ item,
      (waitingSince item before.reverse).isSome = true → isRunning item before.reverse = true
  /-- An item is handed out again only after it has been completed. -/
  alternates : ∀ before item between after,
    events = before ++ handedOut item :: (between ++ handedOut item :: after) →
      ∃ event ∈ between, event.operation = .complete item
  /-- An enqueue that has returned is followed by a hand-out, unless the item is withdrawn or
  still waits. -/
  wakes : ∀ before item after, events = before ++ enqueued item :: after →
    item ∈ queue.pending ∨ handedOut item ∈ after ∨ ∃ event ∈ after, event.Withdraws item

/-- The queue keeps its discipline under every interleaving of its callers. -/
theorem Steps.disciplined {events : List QueueEvent} (run : Steps (new capacity) events queue) :
    Disciplined capacity events queue := by
  obtain ⟨hInv, hCapacity⟩ := Steps.inv run
  have hOldest (before : List QueueEvent) (item : WorkflowQueueItem) (after : List QueueEvent)
      (hEvents : events = before ++ handedOut item :: after) :
      isRunning item before.reverse = false ∧ ∃ since,
        waitingSince item before.reverse = some since ∧
        ∀ other since', other ≠ item → isRunning other before.reverse = false →
          waitingSince other before.reverse = some since' → since < since' := by
    rw [hEvents] at run
    obtain ⟨middle, first, rest⟩ := run.of_append
    obtain ⟨next, hHanded, _⟩ := rest.of_cons
    have hMiddle := (Steps.inv first).1
    obtain ⟨hIdle, since, hSince, hOthers⟩ := hMiddle.oldest hHanded
    have hIdleIff (item : WorkflowQueueItem) :
        item ∉ middle.activeIds ↔ isRunning item before.reverse = false := by
      rw [hMiddle.running, Bool.not_eq_true]
    refine ⟨(hIdleIff item).mp hIdle, since, hSince, fun other since' hOther hOtherIdle => ?_⟩
    exact hOthers other since' hOther ((hIdleIff other).mpr hOtherIdle)
  refine ⟨queue.nodup, queue.mem_pendingIds, hCapacity ▸ hInv.bounded, hOldest, ?_, ?_, ?_⟩
  · intro before result after hEvents
    rw [hEvents] at run
    obtain ⟨middle, first, rest⟩ := run.of_append
    obtain ⟨next, hDequeue, _⟩ := rest.of_cons
    exact (Steps.inv first).1.dequeues hDequeue
  · intro before item between after hEvents
    by_contra hNone
    have hSplit : events = (before ++ handedOut item :: between) ++ handedOut item :: after := by
      rw [hEvents, List.append_assoc, List.cons_append]
    have hIdle := (hOldest _ item after hSplit).1
    have hHanded : isRunning item (handedOut item :: before.reverse) = true := by
      rw [isRunning, if_pos rfl]
    have hStill : isRunning item (between.reverse ++ handedOut item :: before.reverse) = true := by
      apply isRunning_append between.reverse hHanded
      intro event hEvent hDone
      exact hNone ⟨event, List.mem_reverse.mp hEvent, hDone⟩
    rw [List.reverse_append, List.reverse_cons, List.append_assoc, List.singleton_append,
      hStill] at hIdle
    cases hIdle
  · intro before item after hEvents
    rw [hEvents] at run
    obtain ⟨middle, _, rest⟩ := run.of_append
    obtain ⟨next, hEnqueued, later⟩ := rest.of_cons
    exact Steps.waits later (((moved_of_run hEnqueued).pending item).mpr (.inl rfl))

/-- A wake-up arrives while the pass it is for runs: a dequeue waits, since
what is pending runs, and a second pass follows the first. -/
theorem Steps.disciplined_active :
    let item : WorkflowQueueItem := ⟨.global, "article"⟩
    let operations := [.enqueue item, .dequeue, .enqueue item, .dequeue, .complete item, .dequeue]
    ((new 1).runAll operations).1 = [enqueued item, handedOut item, enqueued item,
        ⟨.dequeue, .waits⟩, ⟨.complete item, .done⟩, handedOut item] ∧
      Disciplined 1 ((new 1).runAll operations).1 ((new 1).runAll operations).2 ∧
      waitingSince item [enqueued item, handedOut item, enqueued item] = some 2 ∧
      isRunning item [enqueued item, handedOut item, enqueued item] = true :=
  ⟨by decide, Steps.disciplined (steps_runAll _ _), by decide, by decide⟩

end MemoryWorkflowQueue

end RelayFold
