import RelayFold.Library.Runs
import RelayFold.Adapters.TaskDispatcher

/-! The leases of the dispatcher. However its operations follow each other, a
worker and an instance have one lease at most, and a dispatch call gets one
result at most. -/
namespace RelayFold

namespace TaskDispatcher

theorem dash_not_mem_digits (n : Nat) : '-' ∉ Nat.toDigits 10 n := by
  intro h
  have hDigit : '-'.isDigit = true := Nat.isDigit_of_mem_toDigits (by decide) (by decide) h
  exact absurd hDigit (by decide)

/-- A dispatch id as characters: the task, the namespace of the dispatcher, the
number, with dashes in between. -/
theorem dispatchId_toList (dispatchNamespace taskDefId : String) (number : Nat) :
    (dispatchId dispatchNamespace taskDefId number).toList =
      (taskDefId.toList ++ '-' :: dispatchNamespace.toList) ++ '-' :: Nat.toDigits 10 number := by
  simp only [dispatchId, String.toList_append, Nat.toString_eq_repr, Nat.toList_repr]
  simp

theorem dispatchId_inj {dispatchNamespace a b : String} {n m : Nat}
    (h : dispatchId dispatchNamespace a n = dispatchId dispatchNamespace b m) : n = m := by
  have hList := congrArg String.toList h
  simp only [dispatchId_toList] at hList
  have hDigits := (append_cons_inj (dash_not_mem_digits n) (dash_not_mem_digits m) hList).2
  simpa only [Nat.ofDigitChars_ten_toDigits] using congrArg (Nat.ofDigitChars 10 · 0) hDigits

/-- The id of a call that has been made, and that is not pending. -/
def Spent (d : TaskDispatcher) (id : String) : Prop :=
  (∃ taskDefId n, n < d.nextDispatchId ∧ id = dispatchId d.dispatchNamespace taskDefId n) ∧
    ∀ task ∈ d.pendingTasks, task.dispatch.taskId ≠ id

/-- The pending tasks are in the order of their calls, with ids of their
own. -/
structure InOrder (d : TaskDispatcher) : Prop where
  id : ∀ task ∈ d.pendingTasks, task.caller < d.nextDispatchId ∧
    task.dispatch.taskId = dispatchId d.dispatchNamespace task.dispatch.task.id task.caller
  order : d.pendingTasks.Pairwise fun a b => a.caller < b.caller
  leased : ∀ id lease, d.inFlightTasks.lookup id = some lease → d.Spent id

/-- No two leases are held by one worker, or for one instance. -/
structure Exclusive (d : TaskDispatcher) : Prop where
  worker : ∀ id id' lease lease', d.inFlightTasks.lookup id = some lease →
    d.inFlightTasks.lookup id' = some lease' → lease.workerId = lease'.workerId → id = id'
  workflowInstance : ∀ id id' lease lease', d.inFlightTasks.lookup id = some lease →
    d.inFlightTasks.lookup id' = some lease' → lease.ns = lease'.ns →
    lease.workflowInstanceId = lease'.workflowInstanceId → id = id'

/-- What it means that a worker has taken a task. -/
structure Takes (d : TaskDispatcher) (worker : WorkerIdentity) (now : UInt64) (task : PendingTask)
    (d' : TaskDispatcher) : Prop where
  idle : isWorkerInFlight d.inFlightTasks worker.workerId = false
  claimable : d.isClaimable worker task = true
  pending : ∃ before after, d.pendingTasks = before ++ task :: after ∧
    (∀ other ∈ before, d.isClaimable worker other = false) ∧
    d' = { d with
      pendingTasks := before ++ after
      inFlightTasks := d.inFlightTasks.insert task.dispatch.taskId (leaseFor worker now task) }

/-- The worker holds no lease. -/
def Idle (d : TaskDispatcher) (worker : WorkerIdentity) : Prop :=
  ∀ id lease, d.inFlightTasks.lookup id = some lease → lease.workerId ≠ worker.workerId

/-- The worker is on the host that the task is pinned to, if there is one, and
no task of the same instance is leased. -/
structure Eligible (d : TaskDispatcher) (worker : WorkerIdentity) (task : PendingTask) : Prop where
  host : ∀ host, task.constraints.pinnedHostId = some host → worker.hostId = host
  free : ∀ id lease, d.inFlightTasks.lookup id = some lease →
    ¬(lease.ns = task.dispatch.ns ∧ lease.workflowInstanceId = task.dispatch.workflowInstId)

variable {d d' : TaskDispatcher} {worker : WorkerIdentity} {now : UInt64} {task : PendingTask}

theorem isWorkerInFlight_eq_false :
    isWorkerInFlight d.inFlightTasks worker.workerId = false ↔ d.Idle worker := by
  simp only [isWorkerInFlight, Bool.eq_false_iff, ne_eq, FiniteMap.anyValue_iff, decide_eq_true_eq]
  exact ⟨fun h id lease hLease hSame => h ⟨id, lease, hLease, hSame⟩,
    fun h ⟨id, lease, hLease, hSame⟩ => h id lease hLease hSame⟩

/-- An instance is not in flight if no lease belongs to it. -/
theorem isWorkflowInstanceTaskInFlight_eq_false :
    isWorkflowInstanceTaskInFlight d.inFlightTasks task = false ↔
      ∀ id lease, d.inFlightTasks.lookup id = some lease →
        ¬(lease.ns = task.dispatch.ns ∧
          lease.workflowInstanceId = task.dispatch.workflowInstId) := by
  simp only [isWorkflowInstanceTaskInFlight, Bool.eq_false_iff, ne_eq, FiniteMap.anyValue_iff,
    decide_eq_true_eq]
  exact ⟨fun h id lease hLease hSame => h ⟨id, lease, hLease, hSame⟩,
    fun h ⟨id, lease, hLease, hSame⟩ => h id lease hLease hSame⟩

/-- Constraints admit the workers of the pinned host, or all workers if there
is no pin. -/
theorem matchesWorker_iff {constraints : TaskDispatchConstraints} :
    constraints.matchesWorker worker = true ↔
      ∀ host, constraints.pinnedHostId = some host → worker.hostId = host := by
  unfold TaskDispatchConstraints.matchesWorker
  cases constraints.pinnedHostId with
  | none => simp
  | some host => simp [eq_comm]

/-- What the scan of the pending tasks asks is what it means that the worker
may take the task. -/
theorem isClaimable_iff : d.isClaimable worker task = true ↔ d.Eligible worker task := by
  rw [isClaimable, Bool.and_eq_true, matchesWorker_iff, Bool.not_eq_true',
    isWorkflowInstanceTaskInFlight_eq_false]
  exact ⟨fun h => ⟨h.1, h.2⟩, fun h => ⟨h.host, h.free⟩⟩

/-- An idle worker takes a task if there is one that it may take. -/
theorem takeTask_eligible (now : UInt64) (hIdle : d.Idle worker) (hTask : task ∈ d.pendingTasks)
    (hEligible : d.Eligible worker task) :
    ∃ taken d', d.takeTask worker now = .ok (some (taken, d')) := by
  unfold takeTask
  rw [isWorkerInFlight_eq_false.mpr hIdle]
  cases hFound : d.pendingTasks.find? (d.isClaimable worker) with
  | none => exact absurd (isClaimable_iff.mpr hEligible) (List.find?_eq_none.mp hFound task hTask)
  | some taken => exact ⟨taken, _, rfl⟩

/-- A worker without a lease takes the first task it may take. -/
theorem takeTask_ok {taken : Option (PendingTask × TaskDispatcher)}
    (h : d.takeTask worker now = .ok taken) :
    isWorkerInFlight d.inFlightTasks worker.workerId = false ∧
      d.pendingTasks.find? (d.isClaimable worker) = taken.map Prod.fst := by
  unfold takeTask at h
  split at h
  · cases h
  · rename_i hIdle
    refine ⟨Bool.eq_false_iff.mpr hIdle, ?_⟩
    split at h <;> rename_i hFound <;> cases h <;> exact hFound

/-- When a claim hands out a task, it is the oldest that the worker may take,
and it is leased. -/
theorem takeTask_some (h : d.takeTask worker now = .ok (some (task, d'))) :
    d.Takes worker now task d' := by
  unfold takeTask at h
  split at h
  · cases h
  · rename_i hIdle
    split at h
    · cases h
    · rename_i found hFound
      cases h
      obtain ⟨hClaimable, before, after, hPending, hBefore⟩ :=
        List.find?_eq_some_iff_append.mp hFound
      have hOthers : ∀ other ∈ before, d.isClaimable worker other = false := by simpa using hBefore
      refine ⟨by simpa using hIdle, hClaimable, before, after, hPending, hOthers, ?_⟩
      rw [hPending, List.eraseP_append_right _ fun other hOther => by simp [hOthers other hOther],
        List.eraseP_cons_of_pos hClaimable]

theorem Takes.mem (h : d.Takes worker now task d') : task ∈ d.pendingTasks := by
  obtain ⟨before, after, hPending, _⟩ := h.pending
  rw [hPending]
  exact List.mem_append_right _ List.mem_cons_self

theorem Takes.sublist (h : d.Takes worker now task d') :
    d'.pendingTasks.Sublist d.pendingTasks := by
  obtain ⟨before, after, hPending, _, rfl⟩ := h.pending
  rw [hPending]
  exact (List.Sublist.refl before).append (List.sublist_cons_self ..)

theorem Takes.lookup (h : d.Takes worker now task d') (id : String) :
    d'.inFlightTasks.lookup id = if id = task.dispatch.taskId then some (leaseFor worker now task)
      else d.inFlightTasks.lookup id := by
  obtain ⟨before, after, _, _, rfl⟩ := h.pending
  exact FiniteMap.lookup_insert_eq ..

/-- An id that was handed out has been used up: no later dispatch gets it. -/
theorem InOrder.spent_of_take (h : d.InOrder) (hTakes : d.Takes worker now task d') :
    d'.Spent task.dispatch.taskId := by
  obtain ⟨hNumber, hId⟩ := h.id task hTakes.mem
  obtain ⟨before, after, hPending, _, rfl⟩ := hTakes.pending
  refine ⟨⟨_, _, hNumber, hId⟩, fun other hOther hSame => ?_⟩
  have hOrder := h.order
  rw [hPending] at hOrder
  have hNe : other.caller ≠ task.caller := by
    rw [List.pairwise_append, List.pairwise_cons] at hOrder
    rcases List.mem_append.mp hOther with hBefore | hAfter
    · exact (hOrder.2.2 other hBefore task List.mem_cons_self).ne
    · exact (hOrder.2.1.1 other hAfter).ne'
  have hMem : other ∈ d.pendingTasks := by
    rw [hPending]
    exact ((List.Sublist.refl before).append (List.sublist_cons_self ..)).subset hOther
  have hOtherId := (h.id other hMem).2
  rw [hSame, hId] at hOtherId
  exact hNe (dispatchId_inj hOtherId).symm

/-- The first task that a worker may take is the oldest of these. -/
theorem InOrder.oldest (h : d.InOrder) (hTakes : d.Takes worker now task d') :
    ∀ other ∈ d.pendingTasks, d.isClaimable worker other = true → task.caller ≤ other.caller := by
  intro other hOther hClaimable
  obtain ⟨before, after, hPending, hBefore, _⟩ := hTakes.pending
  have hOrder := h.order
  rw [hPending] at hOther hOrder
  rw [List.pairwise_append, List.pairwise_cons] at hOrder
  rcases List.mem_append.mp hOther with hIn | hIn
  · rw [hBefore other hIn] at hClaimable
    cases hClaimable
  · rcases List.mem_cons.mp hIn with rfl | hIn
    · exact Nat.le_refl _
    · exact (hOrder.2.1.1 other hIn).le

/-- The tasks of the other calls go on waiting. -/
theorem InOrder.mem_of_take (h : d.InOrder) (hTakes : d.Takes worker now task d')
    (other : PendingTask) :
    other ∈ d'.pendingTasks ↔ other ∈ d.pendingTasks ∧ other.caller ≠ task.caller := by
  have hOrder := h.order
  obtain ⟨before, after, hPending, _, rfl⟩ := hTakes.pending
  rw [hPending] at hOrder ⊢
  rw [List.pairwise_append, List.pairwise_cons] at hOrder
  rw [List.mem_append, List.mem_append, List.mem_cons]
  constructor
  · rintro (hBefore | hAfter)
    · exact ⟨.inl hBefore, (hOrder.2.2 other hBefore task List.mem_cons_self).ne⟩
    · exact ⟨.inr (.inr hAfter), (hOrder.2.1.1 other hAfter).ne'⟩
  · rintro ⟨hBefore | rfl | hAfter, hOther⟩
    · exact .inl hBefore
    · exact absurd rfl hOther
    · exact .inr hAfter

/-- The dispatcher has made no call since, and holds fewer tasks. -/
structure Shrinks (d d' : TaskDispatcher) : Prop where
  pending : d'.pendingTasks.Sublist d.pendingTasks
  next : d'.nextDispatchId = d.nextDispatchId
  ns : d'.dispatchNamespace = d.dispatchNamespace

theorem Spent.shrinks {id : String} (h : d.Spent id) (hShrinks : d.Shrinks d') : d'.Spent id := by
  unfold Spent
  rw [hShrinks.next, hShrinks.ns]
  exact ⟨h.1, fun task hTask => h.2 task (hShrinks.pending.subset hTask)⟩

theorem Takes.shrinks (h : d.Takes worker now task d') : d.Shrinks d' := by
  refine ⟨h.sublist, ?_, ?_⟩ <;> obtain ⟨_, _, _, _, rfl⟩ := h.pending <;> rfl

/-- The order of the pending tasks and their numbers survives every removal. -/
theorem InOrder.shrinks (h : d.InOrder) (hShrinks : d.Shrinks d')
    (hLeased : ∀ id lease, d'.inFlightTasks.lookup id = some lease → d'.Spent id) :
    d'.InOrder := by
  refine ⟨fun task hTask => ?_, h.order.sublist hShrinks.pending, hLeased⟩
  rw [hShrinks.next, hShrinks.ns]
  exact h.id task (hShrinks.pending.subset hTask)

/-- The order of the pending tasks survives a claim. -/
theorem InOrder.takes (h : d.InOrder) (hTakes : d.Takes worker now task d') : d'.InOrder := by
  refine h.shrinks hTakes.shrinks fun id lease hLease => ?_
  rw [hTakes.lookup] at hLease
  split at hLease
  · rename_i hId
    rw [hId]
    exact h.spent_of_take hTakes
  · exact (h.leased id lease hLease).shrinks hTakes.shrinks

theorem InOrder.fewer (h : d.InOrder) (hShrinks : d.Shrinks d')
    (hFewer : ∀ id lease, d'.inFlightTasks.lookup id = some lease →
      d.inFlightTasks.lookup id = some lease) : d'.InOrder :=
  h.shrinks hShrinks fun id lease hLease => (h.leased id lease (hFewer id lease hLease)).shrinks hShrinks

/-- A new dispatch takes the next number, so no id that is used up comes
back. -/
theorem Spent.enqueueTask {id : String} (h : d.Spent id) (call : DispatchCall) (timeout : Nat) :
    (d.enqueueTask call timeout).Spent id := by
  obtain ⟨⟨taskDefId, n, hNumber, rfl⟩, hPending⟩ := h
  refine ⟨⟨taskDefId, n, Nat.lt_succ_of_lt hNumber, rfl⟩, fun task hTask hSame => ?_⟩
  rcases List.mem_append.mp hTask with hOld | hNew
  · exact hPending task hOld hSame
  · cases List.mem_singleton.mp hNew
    exact absurd (dispatchId_inj hSame) hNumber.ne'

/-- A new dispatch has the largest number, and it is put at the end. -/
theorem InOrder.enqueueTask (h : d.InOrder) (call : DispatchCall) (timeout : Nat) :
    (d.enqueueTask call timeout).InOrder := by
  refine ⟨fun task hTask => ?_, ?_, fun id lease hLease => (h.leased id lease hLease).enqueueTask ..⟩
  · rcases List.mem_append.mp hTask with hOld | hNew
    · exact ⟨Nat.lt_succ_of_lt (h.id task hOld).1, (h.id task hOld).2⟩
    · cases List.mem_singleton.mp hNew
      exact ⟨Nat.lt_succ_self _, rfl⟩
  · refine List.pairwise_append.mpr ⟨h.order, List.pairwise_singleton .., fun task hTask other hNew => ?_⟩
    cases List.mem_singleton.mp hNew
    exact (h.id task hTask).1

/-- Fewer leases are still exclusive. -/
theorem Exclusive.fewer (h : d.Exclusive)
    (hFewer : ∀ id lease, d'.inFlightTasks.lookup id = some lease →
      d.inFlightTasks.lookup id = some lease) : d'.Exclusive :=
  ⟨fun id id' lease lease' hLease hLease' =>
    h.worker id id' lease lease' (hFewer id lease hLease) (hFewer id' lease' hLease'),
   fun id id' lease lease' hLease hLease' =>
    h.workflowInstance id id' lease lease' (hFewer id lease hLease) (hFewer id' lease' hLease')⟩

/-- A worker that takes a task had no lease, and neither had the instance. -/
theorem Takes.free (h : d.Takes worker now task d') {id : String} {lease : DispatchLease}
    (hLease : d.inFlightTasks.lookup id = some lease) :
    lease.workerId ≠ worker.workerId ∧
      ¬(lease.ns = task.dispatch.ns ∧ lease.workflowInstanceId = task.dispatch.workflowInstId) :=
  ⟨isWorkerInFlight_eq_false.mp h.idle id lease hLease,
    (isClaimable_iff.mp h.claimable).free id lease hLease⟩

/-- A claim keeps the leases exclusive, since it is only made for a free worker
and a free instance. -/
theorem Exclusive.takes (h : d.Exclusive) (hTakes : d.Takes worker now task d') :
    d'.Exclusive := by
  constructor
  · intro id id' lease lease' hLease hLease' hSame
    rw [hTakes.lookup] at hLease hLease'
    split at hLease <;> split at hLease'
    · simp_all
    · cases hLease
      exact absurd hSame.symm (hTakes.free hLease').1
    · cases hLease'
      exact absurd hSame (hTakes.free hLease).1
    · exact h.worker id id' lease lease' hLease hLease' hSame
  · intro id id' lease lease' hLease hLease' hNs hSame
    rw [hTakes.lookup] at hLease hLease'
    split at hLease <;> split at hLease'
    · simp_all
    · cases hLease
      exact absurd ⟨hNs.symm, hSame.symm⟩ (hTakes.free hLease').2
    · cases hLease'
      exact absurd ⟨hNs, hSame⟩ (hTakes.free hLease).2
    · exact h.workflowInstance id id' lease lease' hLease hLease' hNs hSame

/-- Ending a lease adds none. -/
theorem removeLease_fewer (d : TaskDispatcher) (taskId : String) (id : String)
    (lease : DispatchLease) (h : (d.removeLease taskId).inFlightTasks.lookup id = some lease) :
    d.inFlightTasks.lookup id = some lease := by
  simp only [removeLease, FiniteMap.lookup_erase_eq] at h
  split at h
  · cases h
  · exact h

end TaskDispatcher

/-- A call of `enqueue_task`: its arguments, and what its two channels have
delivered. -/
structure Caller where
  taskId : String
  call : DispatchCall
  claimed : Bool
  results : List WorkerExecutionResult
  dropped : Bool

/-- The dispatcher and the calls that wait for it, in the order of their
numbers. -/
structure Dispatching where
  dispatcher : TaskDispatcher
  callers : List Caller

inductive DispatchAction where
  | enqueueTask (call : DispatchCall) (timeout : Nat)
  | claimTask (worker : WorkerIdentity) (now : UInt64)
  | completeTaskResult (result : WorkerTaskResult)
  | completeWorkerTask (result : WorkerTaskResult)
  | completeTaskTimeout (taskId : String)
  | cancelPendingTasksForLostHosts (lostHosts : List WorkerHostId)
  | removePendingTask (caller : Nat)

namespace Dispatching

def modifyCaller (s : Dispatching) (caller : Nat) (change : Caller → Caller) : Dispatching :=
  { s with callers := s.callers.modify caller change }

/-- Send through the waiter, if there is one. -/
def sendResult (s : Dispatching) (waiter : Option Nat) (result : WorkerExecutionResult) :
    Dispatching :=
  match waiter with
  | some caller => s.modifyCaller caller fun c => { c with results := c.results ++ [result] }
  | none => s

def enqueueTask (s : Dispatching) (call : DispatchCall) (timeout : Nat) : Dispatching where
  dispatcher := s.dispatcher.enqueueTask call timeout
  callers := s.callers ++ [{ taskId := s.dispatcher.nextTaskId call.taskDef, call := call,
                             claimed := false, results := [], dropped := false }]

def claimTask (s : Dispatching) (worker : WorkerIdentity) (now : UInt64) : Dispatching :=
  match s.dispatcher.takeTask worker now with
  | .ok (some (task, dispatcher)) =>
      modifyCaller { s with dispatcher := dispatcher.insertWaiter task } task.caller
        fun c => { c with claimed := true }
  | _ => s

def completeTaskResult (s : Dispatching) (result : WorkerTaskResult) : Dispatching :=
  let waiter := s.dispatcher.resultWaiters.lookup result.taskId
  let dispatcher := (s.dispatcher.removeWaiter result.taskId).removeLease result.taskId
  sendResult { s with dispatcher := dispatcher } waiter result.result

def completeTaskTimeout (s : Dispatching) (taskId : String) : Dispatching :=
  match s.dispatcher.inFlightTasks.lookup taskId with
  | none => s
  | some lease =>
      let waiter := s.dispatcher.resultWaiters.lookup taskId
      let dispatcher := (s.dispatcher.removeLease taskId).removeWaiter taskId
      sendResult { s with dispatcher := dispatcher } waiter
        (TaskDispatcher.timeoutResult taskId lease)

/-- The senders of the cancelled tasks are dropped. -/
def cancelPendingTasksForLostHosts (s : Dispatching) (lostHosts : List WorkerHostId) :
    Dispatching :=
  let (cancelled, dispatcher) := s.dispatcher.cancelPendingTasksForLostHosts lostHosts
  cancelled.foldl (fun s task => s.modifyCaller task.caller fun c => { c with dropped := true })
    { s with dispatcher := dispatcher }

def step (s : Dispatching) : DispatchAction → Dispatching
  | .enqueueTask call timeout => s.enqueueTask call timeout
  | .claimTask worker now => s.claimTask worker now
  | .completeTaskResult result => s.completeTaskResult result
  | .completeWorkerTask result =>
      match s.dispatcher.workerForActiveDispatch result.taskId with
      | some _ => s.completeTaskResult result
      | none => s
  | .completeTaskTimeout taskId => s.completeTaskTimeout taskId
  | .cancelPendingTasksForLostHosts lostHosts => s.cancelPendingTasksForLostHosts lostHosts
  -- A call whose senders were dropped returns an error, after this.
  | .removePendingTask caller =>
      match s.callers[caller]? with
      | some c =>
          if c.dropped then { s with dispatcher := s.dispatcher.removePendingTask c.taskId } else s
      | none => s

abbrev Steps : Dispatching → List DispatchAction → Dispatching → Prop :=
  Run fun s action s' => s.step action = s'

def new (dispatchNamespace : String) (taskTimeout : Nat) : Dispatching where
  dispatcher := .new dispatchNamespace taskTimeout
  callers := []

/-- The pinned host of a call is the host of the lease. -/
def OnPinnedHost (caller : Caller) (lease : DispatchLease) : Prop :=
  ∀ host, caller.call.constraints.pinnedHostId = some host → lease.hostId = host

/-- What the tables know of the calls. A result can only be sent through a
pending task or a waiter, and each call is behind one of them at most. -/
structure Inv (s : Dispatching) : Prop where
  inOrder : s.dispatcher.InOrder
  exclusive : s.dispatcher.Exclusive
  count : s.callers.length = s.dispatcher.nextDispatchId
  id : ∀ n caller, s.callers[n]? = some caller →
    caller.taskId = TaskDispatcher.dispatchId s.dispatcher.dispatchNamespace caller.call.taskDef.id n
  pending : ∀ task ∈ s.dispatcher.pendingTasks, ∃ caller, s.callers[task.caller]? = some caller ∧
    caller.taskId = task.dispatch.taskId ∧ caller.call.constraints = task.constraints ∧
    caller.results = []
  lease : ∀ id lease, s.dispatcher.inFlightTasks.lookup id = some lease →
    ∃ (n : Nat) (caller : Caller), s.callers[n]? = some caller ∧ caller.taskId = id ∧
      OnPinnedHost caller lease
  waiter : ∀ id n, s.dispatcher.resultWaiters.lookup id = some n →
    s.dispatcher.Spent id ∧ ∃ caller, s.callers[n]? = some caller ∧ caller.taskId = id ∧
      caller.results = []
  results : ∀ caller ∈ s.callers, caller.results.length ≤ 1

variable {s : Dispatching} {caller : Nat} {change : Caller → Caller}

/-- A change of one caller leaves the others. -/
theorem modifyCaller_callers (s : Dispatching) (caller n : Nat) (change : Caller → Caller) :
    (s.modifyCaller caller change).callers[n]? =
      if n = caller then (s.callers[n]?).map change else s.callers[n]? := by
  change (s.callers.modify caller change)[n]? = _
  rw [List.getElem?_modify]
  by_cases h : n = caller
  · subst h
    simp
  · simp [h, Ne.symm h]

/-- A change of the callers that keeps the ids and the arguments of the calls,
and the results of those that still have a sender. -/
theorem Inv.modifyCaller (h : Inv s)
    (hId : ∀ c, (change c).taskId = c.taskId ∧ (change c).call = c.call)
    (hOne : ∀ c, s.callers[caller]? = some c → (change c).results.length ≤ 1)
    (hPending : ∀ task ∈ s.dispatcher.pendingTasks, task.caller = caller →
      ∀ c, s.callers[caller]? = some c → (change c).results = c.results)
    (hWaiter : ∀ id, s.dispatcher.resultWaiters.lookup id = some caller →
      ∀ c, s.callers[caller]? = some c → (change c).results = c.results) :
    Inv (s.modifyCaller caller change) := by
  refine ⟨h.inOrder, h.exclusive, (List.length_modify ..).trans h.count, fun n c' hc' => ?_,
    fun task hTask => ?_, fun id lease hLease => ?_, fun id n hn => ?_, fun c' hc' => ?_⟩
  · rw [modifyCaller_callers] at hc'
    split at hc'
    · obtain ⟨c, hc, rfl⟩ := Option.map_eq_some_iff.mp hc'
      rw [(hId c).1, (hId c).2]
      exact h.id n c hc
    · exact h.id n c' hc'
  · obtain ⟨c, hc, hTaskId, hConstraints, hResults⟩ := h.pending task hTask
    simp only [modifyCaller_callers]
    split
    · rename_i hSame
      refine ⟨change c, by rw [hc]; rfl, (hId c).1.trans hTaskId, ?_, ?_⟩
      · rw [(hId c).2, hConstraints]
      · rw [hPending task hTask hSame c (hSame ▸ hc), hResults]
    · exact ⟨c, hc, hTaskId, hConstraints, hResults⟩
  · obtain ⟨n, c, hc, hTaskId, hPinned⟩ := h.lease id lease hLease
    refine ⟨n, if n = caller then change c else c, ?_, ?_, ?_⟩
    · rw [modifyCaller_callers]
      split <;> simp [hc]
    · split
      · exact (hId c).1.trans hTaskId
      · exact hTaskId
    · unfold OnPinnedHost
      split
      · rw [(hId c).2]
        exact hPinned
      · exact hPinned
  · obtain ⟨hSpent, c, hc, hTaskId, hResults⟩ := h.waiter id n hn
    refine ⟨hSpent, if n = caller then change c else c, ?_, ?_, ?_⟩
    · rw [modifyCaller_callers]
      split <;> simp [hc]
    · split
      · exact (hId c).1.trans hTaskId
      · exact hTaskId
    · split
      · rename_i hSame
        subst hSame
        rw [hWaiter id hn c hc, hResults]
      · exact hResults
  · obtain ⟨n, hn⟩ := List.mem_iff_getElem?.mp hc'
    rw [modifyCaller_callers] at hn
    split at hn
    · obtain ⟨c, hc, rfl⟩ := Option.map_eq_some_iff.mp hn
      rename_i hSame
      exact hOne c (hSame ▸ hc)
    · exact h.results c' (List.mem_of_getElem? hn)

theorem Inv.flag (h : Inv s)
    (hId : ∀ c, (change c).taskId = c.taskId ∧ (change c).call = c.call)
    (hResults : ∀ c, (change c).results = c.results) : Inv (s.modifyCaller caller change) :=
  h.modifyCaller hId (fun c hc => by rw [hResults]; exact h.results c (List.mem_of_getElem? hc))
    (fun _ _ _ c _ => hResults c) (fun _ _ c _ => hResults c)

/-- Tasks, leases and waiters may be removed. -/
theorem Inv.fewer (h : Inv s) {d' : TaskDispatcher} (hShrinks : s.dispatcher.Shrinks d')
    (hLease : ∀ id lease, d'.inFlightTasks.lookup id = some lease →
      s.dispatcher.inFlightTasks.lookup id = some lease)
    (hWaiter : ∀ id n, d'.resultWaiters.lookup id = some n →
      s.dispatcher.resultWaiters.lookup id = some n) : Inv { s with dispatcher := d' } := by
  refine ⟨h.inOrder.fewer hShrinks hLease, h.exclusive.fewer hLease, ?_, ?_,
    fun task hTask => h.pending task (hShrinks.pending.subset hTask),
    fun id lease hIn => h.lease id lease (hLease id lease hIn), fun id n hn => ?_, h.results⟩
  · rw [hShrinks.next]
    exact h.count
  · rw [hShrinks.ns]
    exact h.id
  · obtain ⟨hSpent, hCaller⟩ := h.waiter id n (hWaiter id n hn)
    exact ⟨hSpent.shrinks hShrinks, hCaller⟩

/-- A new dispatch is pending and its caller waits. -/
theorem Inv.enqueueTask (h : Inv s) (call : DispatchCall) (timeout : Nat) :
    Inv (s.enqueueTask call timeout) := by
  have hOld {n : Nat} {c : Caller} (hc : s.callers[n]? = some c) :
      (s.enqueueTask call timeout).callers[n]? = some c :=
    (List.getElem?_append_left (List.getElem?_eq_some_iff.mp hc).1).trans hc
  refine ⟨h.inOrder.enqueueTask call timeout, h.exclusive.fewer fun _ _ hLease => hLease, ?_,
    fun n c hc => ?_,
    fun task hTask => ?_, fun id lease hLease => ?_, fun id n hn => ?_, fun c hc => ?_⟩
  · simp [Dispatching.enqueueTask, TaskDispatcher.enqueueTask, h.count]
  · change (s.callers ++ [_])[n]? = some c at hc
    rw [List.getElem?_append] at hc
    split at hc
    · exact h.id n c hc
    · rename_i hLength
      obtain ⟨hNumber, hCaller⟩ := List.getElem?_eq_some_iff.mp hc
      have hn : n = s.dispatcher.nextDispatchId := by
        rw [← h.count]
        simp only [List.length_singleton] at hNumber
        omega
      simp only [List.getElem_singleton] at hCaller
      rw [hn, ← hCaller]
      rfl
  · rcases List.mem_append.mp hTask with hIn | hNew
    · obtain ⟨c, hc, hCaller⟩ := h.pending task hIn
      exact ⟨c, hOld hc, hCaller⟩
    · cases List.mem_singleton.mp hNew
      let caller : Caller := { taskId := s.dispatcher.nextTaskId call.taskDef, call := call,
                               claimed := false, results := [], dropped := false }
      refine ⟨caller, ?_, rfl, rfl, rfl⟩
      change (s.callers ++ [caller])[s.dispatcher.nextDispatchId]? = _
      rw [← h.count]
      exact List.getElem?_concat_length
  · obtain ⟨n, c, hc, hCaller⟩ := h.lease id lease hLease
    exact ⟨n, c, hOld hc, hCaller⟩
  · obtain ⟨hSpent, c, hc, hCaller⟩ := h.waiter id n hn
    exact ⟨hSpent.enqueueTask call timeout, c, hOld hc, hCaller⟩
  · rcases List.mem_append.mp hc with hIn | hNew
    · exact h.results c hIn
    · cases List.mem_singleton.mp hNew
      exact Nat.zero_le _

/-- A claim moves one task from the pending ones to the leases, with its
waiter. -/
theorem Inv.claimTask (h : Inv s) (worker : WorkerIdentity) (now : UInt64) :
    Inv (s.claimTask worker now) := by
  unfold Dispatching.claimTask
  split
  · rename_i task d' hTake
    have hTakes := TaskDispatcher.takeTask_some hTake
    obtain ⟨c, hc, hTaskId, hConstraints, hResults⟩ := h.pending task hTakes.mem
    have hShrinks : s.dispatcher.Shrinks (d'.insertWaiter task) :=
      ⟨hTakes.shrinks.pending, hTakes.shrinks.next, hTakes.shrinks.ns⟩
    have hLookup (id : String) : (d'.insertWaiter task).inFlightTasks.lookup id = _ :=
      hTakes.lookup id
    refine Inv.flag ⟨?_, ?_, ?_, ?_, fun other hOther => ?_, fun id lease hLease => ?_,
      fun id n hn => ?_, h.results⟩ (fun _ => ⟨rfl, rfl⟩) (fun _ => rfl)
    · exact (h.inOrder.takes hTakes).fewer ⟨List.Sublist.refl _, rfl, rfl⟩ fun _ _ hLease => hLease
    · exact (h.exclusive.takes hTakes).fewer fun _ _ hLease => hLease
    · exact h.count.trans hShrinks.next.symm
    · change ∀ n caller, s.callers[n]? = some caller → caller.taskId =
        TaskDispatcher.dispatchId (d'.insertWaiter task).dispatchNamespace _ n
      rw [hShrinks.ns]
      exact h.id
    · exact h.pending other (hShrinks.pending.subset hOther)
    · change (d'.insertWaiter task).inFlightTasks.lookup id = some lease at hLease
      rw [hLookup] at hLease
      split at hLease
      · rename_i hId
        cases hLease
        refine ⟨task.caller, c, hc, hTaskId.trans hId.symm, fun host hHost => ?_⟩
        have hMatches := (Bool.and_eq_true_iff.mp hTakes.claimable).1
        rw [← hConstraints, TaskDispatchConstraints.matchesWorker, hHost] at hMatches
        exact (of_decide_eq_true hMatches).symm
      · exact h.lease id lease hLease
    · change (d'.insertWaiter task).resultWaiters.lookup id = some n at hn
      have hWaiters : d'.resultWaiters = s.dispatcher.resultWaiters := by
        obtain ⟨_, _, _, _, rfl⟩ := hTakes.pending
        rfl
      rw [TaskDispatcher.insertWaiter, FiniteMap.lookup_insert_eq, hWaiters] at hn
      split at hn
      · rename_i hId
        cases hn
        rw [hId]
        have hSpent := (h.inOrder.spent_of_take hTakes).shrinks ⟨List.Sublist.refl _, rfl, rfl⟩
        exact ⟨hSpent, c, hc, hTaskId, hResults⟩
      · obtain ⟨hSpent, hCaller⟩ := h.waiter id n hn
        exact ⟨hSpent.shrinks hShrinks, hCaller⟩
  · exact h

/-- The waiter of an id is taken out, and a result is sent through it. -/
theorem Inv.sendResult (h : Inv s) {d' : TaskDispatcher} (taskId : String)
    (result : WorkerExecutionResult) (hShrinks : s.dispatcher.Shrinks d')
    (hLease : ∀ id lease, d'.inFlightTasks.lookup id = some lease →
      s.dispatcher.inFlightTasks.lookup id = some lease)
    (hWaiters : d'.resultWaiters = s.dispatcher.resultWaiters.erase taskId) :
    Inv (Dispatching.sendResult { s with dispatcher := d' }
      (s.dispatcher.resultWaiters.lookup taskId) result) := by
  have hWaiter (id : String) (n : Nat) (hn : d'.resultWaiters.lookup id = some n) :
      id ≠ taskId ∧ s.dispatcher.resultWaiters.lookup id = some n := by
    rw [hWaiters, FiniteMap.lookup_erase_eq] at hn
    split at hn
    · cases hn
    · exact ⟨by assumption, hn⟩
  have hFewer := h.fewer hShrinks hLease fun id n hn => (hWaiter id n hn).2
  unfold Dispatching.sendResult
  split
  · rename_i caller hCaller
    obtain ⟨hSpent, c, hc, hTaskId, hResults⟩ := h.waiter taskId caller hCaller
    refine hFewer.modifyCaller (fun _ => ⟨rfl, rfl⟩) (fun c' hc' => ?_)
      (fun task hTask hSame => ?_) (fun id hn => ?_)
    · rw [show c' = c from Option.some.inj (hc'.symm.trans hc), hResults]
      exact Nat.le_refl 1
    · obtain ⟨other, hOther, hOtherId, _⟩ := h.pending task (hShrinks.pending.subset hTask)
      rw [hSame, hc] at hOther
      cases hOther
      exact absurd (hOtherId.symm.trans hTaskId) (hSpent.2 task (hShrinks.pending.subset hTask))
    · obtain ⟨hNe, hOld⟩ := hWaiter id caller hn
      obtain ⟨_, other, hOther, hOtherId, _⟩ := h.waiter id caller hOld
      rw [hc] at hOther
      cases hOther
      exact absurd (hOtherId.symm.trans hTaskId) hNe
  · exact hFewer

/-- A completion ends the lease and answers the waiter, or is ignored if there
is no such lease. -/
theorem Inv.completeTaskResult (h : Inv s) (result : WorkerTaskResult) :
    Inv (s.completeTaskResult result) :=
  h.sendResult result.taskId result.result ⟨List.Sublist.refl _, rfl, rfl⟩
    (TaskDispatcher.removeLease_fewer _ _) rfl

theorem Inv.completeTaskTimeout (h : Inv s) (taskId : String) :
    Inv (s.completeTaskTimeout taskId) := by
  unfold Dispatching.completeTaskTimeout
  split
  · exact h
  · exact h.sendResult taskId _ ⟨List.Sublist.refl _, rfl, rfl⟩
      (TaskDispatcher.removeLease_fewer _ _) rfl

theorem Inv.cancelPendingTasksForLostHosts (h : Inv s) (lostHosts : List WorkerHostId) :
    Inv (s.cancelPendingTasksForLostHosts lostHosts) := by
  refine List.foldlRecOn _ _ ?_ ?_
  · exact h.fewer ⟨List.filter_sublist, rfl, rfl⟩ (fun _ _ hLease => hLease) fun _ _ hn => hn
  · intro s hInv task _
    exact hInv.flag (fun _ => ⟨rfl, rfl⟩) fun _ => rfl

/-- Each operation of the dispatcher keeps the invariant. -/
theorem Inv.step (h : Inv s) (action : DispatchAction) : Inv (s.step action) := by
  cases action with
  | enqueueTask call timeout => exact h.enqueueTask call timeout
  | claimTask worker now => exact h.claimTask worker now
  | completeTaskResult result => exact h.completeTaskResult result
  | completeWorkerTask result =>
      simp only [Dispatching.step]
      split
      · exact h.completeTaskResult result
      · exact h
  | completeTaskTimeout taskId => exact h.completeTaskTimeout taskId
  | cancelPendingTasksForLostHosts lostHosts => exact h.cancelPendingTasksForLostHosts lostHosts
  | removePendingTask caller =>
      simp only [Dispatching.step]
      split
      · split
        · exact h.fewer ⟨List.eraseP_sublist, rfl, rfl⟩ (fun _ _ hLease => hLease) fun _ _ hn => hn
        · exact h
      · exact h

theorem Inv.new (dispatchNamespace : String) (taskTimeout : Nat) :
    Inv (Dispatching.new dispatchNamespace taskTimeout) where
  inOrder := ⟨(fun _ h => nomatch h), List.Pairwise.nil, (fun _ _ h => nomatch h)⟩
  exclusive := ⟨(fun _ _ _ _ h => nomatch h), (fun _ _ _ _ h => nomatch h)⟩
  count := rfl
  id := fun _ _ h => by simp [Dispatching.new] at h
  pending := (fun _ h => nomatch h)
  lease := (fun _ _ h => nomatch h)
  waiter := (fun _ _ h => nomatch h)
  results := (fun _ h => nomatch h)

/-- What the leases and the calls look like at any time. -/
structure LeasesExclusive (s : Dispatching) : Prop where
  worker : ∀ id id' lease lease', s.dispatcher.inFlightTasks.lookup id = some lease →
    s.dispatcher.inFlightTasks.lookup id' = some lease' → lease.workerId = lease'.workerId → id = id'
  workflowInstance : ∀ id id' lease lease', s.dispatcher.inFlightTasks.lookup id = some lease →
    s.dispatcher.inFlightTasks.lookup id' = some lease' → lease.ns = lease'.ns →
    lease.workflowInstanceId = lease'.workflowInstanceId → id = id'
  disjoint : ∀ task ∈ s.dispatcher.pendingTasks,
    s.dispatcher.inFlightTasks.lookup task.dispatch.taskId = none
  pinned : ∀ id lease, s.dispatcher.inFlightTasks.lookup id = some lease →
    ∃ caller ∈ s.callers, caller.taskId = id ∧ OnPinnedHost caller lease
  oneResult : ∀ caller ∈ s.callers, caller.results.length ≤ 1

/-- A claim that takes a task: the oldest one that the worker may take leaves
the pending tasks and is leased to the worker. -/
structure ClaimsOldest (s : Dispatching) (worker : WorkerIdentity) (now : UInt64)
    (task : PendingTask) (s' : Dispatching) : Prop where
  taken : ∃ d', s.dispatcher.takeTask worker now = .ok (some (task, d'))
  pending : task ∈ s.dispatcher.pendingTasks
  eligible : s.dispatcher.Eligible worker task
  oldest : ∀ other ∈ s.dispatcher.pendingTasks, s.dispatcher.Eligible worker other →
    task.caller ≤ other.caller
  leased : ∀ id, s'.dispatcher.inFlightTasks.lookup id =
    if id = task.dispatch.taskId then some (TaskDispatcher.leaseFor worker now task)
    else s.dispatcher.inFlightTasks.lookup id
  remaining : ∀ other, other ∈ s'.dispatcher.pendingTasks ↔
    other ∈ s.dispatcher.pendingTasks ∧ other.caller ≠ task.caller

/-- What the next operation does: a claim takes the oldest task that the worker
may take, if there is one and the worker is idle, and a result or timeout for
an id without a lease and without a waiter changes nothing. -/
structure OperationsLawful (s : Dispatching) : Prop where
  claims : ∀ worker now, s.dispatcher.Idle worker →
    (∃ task ∈ s.dispatcher.pendingTasks, s.dispatcher.Eligible worker task) →
      ∃ task, ClaimsOldest s worker now task (s.step (.claimTask worker now))
  refused : ∀ worker now, (s.dispatcher.Idle worker →
      ∀ task ∈ s.dispatcher.pendingTasks, ¬s.dispatcher.Eligible worker task) →
    s.step (.claimTask worker now) = s
  untracked : ∀ result : WorkerTaskResult,
    s.dispatcher.inFlightTasks.lookup result.taskId = none →
    s.dispatcher.resultWaiters.lookup result.taskId = none →
    s.step (.completeTaskResult result) = s ∧ s.step (.completeWorkerTask result) = s ∧
      s.step (.completeTaskTimeout result.taskId) = s

/-- What the invariant says of the leases: one for each worker and one for each
instance, none of them pending. -/
theorem Inv.leasesExclusive (h : Inv s) : LeasesExclusive s where
  worker := h.exclusive.worker
  workflowInstance := h.exclusive.workflowInstance
  disjoint := fun task hTask => by
    refine Option.eq_none_iff_forall_ne_some.mpr fun lease hLease => ?_
    exact (h.inOrder.leased _ lease hLease).2 task hTask rfl
  pinned := fun id lease hLease => by
    obtain ⟨n, caller, hCaller, hId, hPinned⟩ := h.lease id lease hLease
    exact ⟨caller, List.mem_of_getElem? hCaller, hId, hPinned⟩
  oneResult := h.results

/-- What is handed out is the oldest task that the worker may take. -/
theorem Inv.claimsOldest (h : Inv s) {worker : WorkerIdentity} {now : UInt64} {task : PendingTask}
    {d' : TaskDispatcher} (hTake : s.dispatcher.takeTask worker now = .ok (some (task, d'))) :
    ClaimsOldest s worker now task (s.step (.claimTask worker now)) := by
  have hTakes := TaskDispatcher.takeTask_some hTake
  have hStep : (s.step (.claimTask worker now)).dispatcher = d'.insertWaiter task := by
    simp only [Dispatching.step, Dispatching.claimTask, hTake, Dispatching.modifyCaller]
  refine ⟨⟨d', hTake⟩, hTakes.mem, TaskDispatcher.isClaimable_iff.mp hTakes.claimable,
    fun other hOther hEligible => ?_, fun id => ?_, fun other => ?_⟩
  · exact h.inOrder.oldest hTakes other hOther (TaskDispatcher.isClaimable_iff.mpr hEligible)
  · rw [hStep]
    exact hTakes.lookup id
  · rw [hStep]
    exact h.inOrder.mem_of_take hTakes other

/-- In every such state each operation does what it is to do, for any worker
and any task. -/
theorem Inv.operationsLawful (h : Inv s) : OperationsLawful s where
  claims := fun worker now hIdle ⟨task, hTask, hEligible⟩ => by
    obtain ⟨taken, d', hTake⟩ := TaskDispatcher.takeTask_eligible now hIdle hTask hEligible
    exact ⟨taken, h.claimsOldest hTake⟩
  refused := fun worker now hNone => by
    simp only [Dispatching.step, Dispatching.claimTask]
    split
    · rename_i task d' hTake
      have hTakes := TaskDispatcher.takeTask_some hTake
      exact absurd (TaskDispatcher.isClaimable_iff.mp hTakes.claimable)
        (hNone (TaskDispatcher.isWorkerInFlight_eq_false.mp hTakes.idle) task hTakes.mem)
    · rfl
  untracked := fun result hLease hWaiter => by
    refine ⟨?_, ?_, ?_⟩
    · simp only [Dispatching.step, Dispatching.completeTaskResult, hWaiter,
        TaskDispatcher.removeLease, TaskDispatcher.removeWaiter,
        FiniteMap.erase_of_lookup_none hLease, FiniteMap.erase_of_lookup_none hWaiter]
      rfl
    · simp only [Dispatching.step, TaskDispatcher.workerForActiveDispatch, hLease, Option.map_none]
    · simp only [Dispatching.step, Dispatching.completeTaskTimeout, hLease]

/-- The dispatcher's invariants hold whatever the order of its operations. -/
theorem Steps.leases_exclusive {dispatchNamespace : String} {taskTimeout : Nat}
    {actions : List DispatchAction} (run : Steps (new dispatchNamespace taskTimeout) actions s) :
    LeasesExclusive s ∧ OperationsLawful s := by
  have hInv : Inv s := run.invariant (Inv.new ..) fun s action s' h hStep => hStep ▸ h.step action
  exact ⟨hInv.leasesExclusive, hInv.operationsLawful⟩

/-! Two calls for one instance and a worker on their host. -/

def sampleTaskDef (id : String) (timeoutSecs : UInt64) : TaskDef where
  id := id
  kind := .function (.ref id)
  allowAgentFeedback := false
  control := none
  timeoutSecs := some timeoutSecs
  inputSchemas := []
  outputSchema := none
  workspace := none
  requiredCredentials := []

def sampleCall (taskDefId : String) (timeoutSecs : UInt64) : DispatchCall where
  ns := .global
  workflowInstanceId := "article-1"
  taskDef := sampleTaskDef taskDefId timeoutSecs
  inputs := []
  metadata := { generationIndex := 1, loopContext := none, humanInputProvided := none }
  constraints := { pinnedHostId := some ⟨"host"⟩ }

def sampleWorker : WorkerIdentity := ⟨⟨"worker"⟩, ⟨"host"⟩⟩

/-- The second claim waits until the first task is completed. -/
def claimedInTurn : List DispatchAction :=
  [.enqueueTask (sampleCall "draft" 300) 300000, .enqueueTask (sampleCall "review" 300) 300000,
    .claimTask sampleWorker 0, .claimTask ⟨⟨"other"⟩, ⟨"host"⟩⟩ 0,
    .completeWorkerTask ⟨"draft-1-0", .success .null⟩]

/-- While the first task is leased, the second task of the instance waits;
after the result the first worker takes it. -/
theorem Steps.leases_exclusive_in_turn :
    let start := new "1" 300000
    let leased := (claimedInTurn.take 3).foldl Dispatching.step start
    let ready := claimedInTurn.foldl Dispatching.step start
    let last := ready.step (.claimTask sampleWorker 1)
    (leased.dispatcher.inFlightTasks.lookup "draft-1-0").map (·.workerId) = some ⟨"worker"⟩ ∧
      leased.dispatcher.pendingTasks.map (·.dispatch.taskId) = ["review-1-1"] ∧
      LeasesExclusive leased ∧ (∃ task, ClaimsOldest ready sampleWorker 1 task last) ∧
      (last.dispatcher.inFlightTasks.lookup "review-1-1").map (·.workerId) = some ⟨"worker"⟩ ∧
      LeasesExclusive last := by
  intro start leased ready last
  have hLeased := Steps.leases_exclusive (Run.of_foldl Dispatching.step (claimedInTurn.take 3) start)
  have run := Run.of_foldl Dispatching.step claimedInTurn start
  have hReady := Steps.leases_exclusive run
  have claim : ready.step (.claimTask sampleWorker 1) = last := rfl
  have hLast := Steps.leases_exclusive (run.snoc claim)
  have hWaiting : ready.dispatcher.pendingTasks ≠ [] := by
    rw [ne_eq, ← List.isEmpty_iff]
    decide +kernel
  have hIdle : ready.dispatcher.Idle sampleWorker :=
    TaskDispatcher.isWorkerInFlight_eq_false.mp (by decide +kernel)
  have hClaimable : ∀ task ∈ ready.dispatcher.pendingTasks,
      ready.dispatcher.isClaimable sampleWorker task = true := by decide +kernel
  have hClaims := hReady.2.claims sampleWorker 1 hIdle ⟨_, List.head_mem hWaiting,
    TaskDispatcher.isClaimable_iff.mp (hClaimable _ (List.head_mem hWaiting))⟩
  exact ⟨by decide +kernel, by decide +kernel, hLeased.1, hClaims, by decide +kernel, hLast.1⟩

end Dispatching

end RelayFold
