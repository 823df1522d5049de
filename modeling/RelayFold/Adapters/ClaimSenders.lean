import RelayFold.Adapters.ClaimTables

/-! Who can still answer a dispatch call. A call that waits is behind a pending
task, a claim, a waiter or a completion; so between operations it is pending or
leased. -/
namespace RelayFold

/-- The same calls later: nobody gets an open channel back. -/
structure SameCalls (before after : List Caller) : Prop where
  length : after.length = before.length
  forth : ∀ (n : Nat) (c : Caller), before[n]? = some c → ∃ c', after[n]? = some c' ∧ c'.taskId = c.taskId
  back : ∀ (n : Nat) (c' : Caller), after[n]? = some c' → ∃ c, before[n]? = some c ∧
    c'.taskId = c.taskId ∧ c'.call = c.call ∧ (c'.results = [] → c.results = []) ∧
    (c'.dropped = false → c.dropped = false)

theorem SameCalls.refl (callers : List Caller) : SameCalls callers callers :=
  ⟨rfl, fun _ c hc => ⟨c, hc, rfl⟩, fun _ c hc => ⟨c, hc, rfl, rfl, id, id⟩⟩

/-- A change of one caller's entry that opens no closed channel leaves the
calls the same. -/
theorem SameCalls.modify (s : Dispatching) (caller : Nat) {change : Caller → Caller}
    (hId : ∀ c, (change c).taskId = c.taskId ∧ (change c).call = c.call)
    (hResults : ∀ c, (change c).results = [] → c.results = [])
    (hDropped : ∀ c, (change c).dropped = false → c.dropped = false) :
    SameCalls s.callers (s.modifyCaller caller change).callers := by
  refine ⟨List.length_modify .., fun n c hc => ?_, fun n c' hc' => ?_⟩
  · rw [Dispatching.modifyCaller_callers, hc]
    split
    · exact ⟨change c, rfl, (hId c).1⟩
    · exact ⟨c, rfl, rfl⟩
  · rw [Dispatching.modifyCaller_callers] at hc'
    split at hc'
    · obtain ⟨c, hc, rfl⟩ := Option.map_eq_some_iff.mp hc'
      exact ⟨c, hc, (hId c).1, (hId c).2, hResults c, hDropped c⟩
    · exact ⟨c', hc', rfl, rfl, id, id⟩

/-- Step by step the calls stay the same. -/
theorem SameCalls.trans {a b c : List Caller} (h : SameCalls a b) (h' : SameCalls b c) :
    SameCalls a c := by
  refine ⟨h'.length.trans h.length, fun n x hx => ?_, fun n z hz => ?_⟩
  · obtain ⟨y, hy, hId⟩ := h.forth n x hx
    obtain ⟨z, hz, hId'⟩ := h'.forth n y hy
    exact ⟨z, hz, hId'.trans hId⟩
  · obtain ⟨y, hy, hId', hCall', hResults', hDropped'⟩ := h'.back n z hz
    obtain ⟨x, hx, hId, hCall, hResults, hDropped⟩ := h.back n y hy
    exact ⟨x, hx, hId'.trans hId, hCall'.trans hCall, hResults ∘ hResults', hDropped ∘ hDropped'⟩

theorem SameCalls.sendResult (s : Dispatching) (waiter : Option Nat)
    (result : WorkerExecutionResult) : SameCalls s.callers (s.sendResult waiter result).callers := by
  unfold Dispatching.sendResult
  split
  · exact .modify s _ (fun _ => ⟨rfl, rfl⟩) (fun c h => by simp at h) fun _ h => h
  · exact .refl _

namespace SteppedDispatcher

/-- Where the senders of the call are. -/
def Sender (s : SteppedDispatcher) (n : Nat) (caller : Caller) : Prop :=
  (∃ task ∈ s.dispatcher.pendingTasks, task.caller = n) ∨
    (∃ claim ∈ s.claims, ∃ task, claim.point = .leased task ∧ task.caller = n) ∨
    s.dispatcher.resultWaiters.lookup caller.taskId = some n ∨
    ∃ completion ∈ s.completions, completion.point = .removingLease (some n)

/-- Every call that still waits has its senders somewhere. -/
structure Senders (s : SteppedDispatcher) : Prop where
  count : s.callers.length = s.dispatcher.nextDispatchId
  id : ∀ n caller, s.callers[n]? = some caller →
    caller.taskId = TaskDispatcher.dispatchId s.dispatcher.dispatchNamespace caller.call.taskDef.id n
  pending : ∀ task ∈ s.dispatcher.pendingTasks, ∃ caller, s.callers[task.caller]? = some caller ∧
    caller.taskId = task.dispatch.taskId
  leased : ∀ claim ∈ s.claims, ∀ task, claim.point = .leased task →
    ∃ caller, s.callers[task.caller]? = some caller ∧ caller.taskId = task.dispatch.taskId
  sender : ∀ n caller, s.callers[n]? = some caller → caller.results = [] →
    caller.dropped = false → s.Sender n caller

variable {s s' : SteppedDispatcher} {index : Nat}

/-- No call is made; tasks only leave the list, for a claim or for good. -/
theorem Senders.moves (h : s.Senders) (hCalls : SameCalls s.callers s'.callers)
    (hNext : s'.dispatcher.nextDispatchId = s.dispatcher.nextDispatchId)
    (hNs : s'.dispatcher.dispatchNamespace = s.dispatcher.dispatchNamespace)
    (hPending : s'.dispatcher.pendingTasks ⊆ s.dispatcher.pendingTasks)
    (hLeased : ∀ claim ∈ s'.claims, ∀ task, claim.point = .leased task →
      task ∈ s.dispatcher.pendingTasks ∨ ∃ other ∈ s.claims, other.point = .leased task)
    (hSender : ∀ n c c', s.callers[n]? = some c → s'.callers[n]? = some c' →
      c'.taskId = c.taskId → c'.results = [] → c'.dropped = false → c.dropped = false →
      s.Sender n c → s'.Sender n c') : s'.Senders := by
  have hForth {n : Nat} {taskId : String}
      (hOld : ∃ caller, s.callers[n]? = some caller ∧ caller.taskId = taskId) :
      ∃ caller, s'.callers[n]? = some caller ∧ caller.taskId = taskId := by
    obtain ⟨c, hc, rfl⟩ := hOld
    exact hCalls.forth n c hc
  refine ⟨?_, fun n c' hc' => ?_, fun task hTask => hForth (h.pending task (hPending hTask)),
    fun claim hClaim task hPoint => ?_, fun n c' hc' hResults' hDropped' => ?_⟩
  · rw [hCalls.length, hNext, h.count]
  · obtain ⟨c, hc, hId, hCall, _⟩ := hCalls.back n c' hc'
    rw [hId, hCall, hNs]
    exact h.id n c hc
  · rcases hLeased claim hClaim task hPoint with hTask | ⟨other, hOther, hOtherPoint⟩
    · exact hForth (h.pending task hTask)
    · exact hForth (h.leased other hOther task hOtherPoint)
  · obtain ⟨c, hc, hId, _, hResults, hDropped⟩ := hCalls.back n c' hc'
    exact hSender n c c' hc hc' hId hResults' hDropped' (hDropped hDropped')
      (h.sender n c hc (hResults hResults') (hDropped hDropped'))

theorem Senders.caller_eq (h : s.Senders) {n m : Nat} {c c' : Caller} (hc : s.callers[n]? = some c)
    (hc' : s.callers[m]? = some c') (hSame : c.taskId = c'.taskId) : n = m := by
  rw [h.id n c hc, h.id m c' hc'] at hSame
  exact TaskDispatcher.dispatchId_inj hSame

/-- A claim in progress keeps the sender that it holds, whatever else it
does. -/
theorem Sender.of_claims {n : Nat} {c c' : Caller} {old claim : ClaimCall}
    (h : s.Sender n c) (hSame : c'.taskId = c.taskId) (hClaim : s.claims[index]? = some old)
    (hKeep : (∃ task, old.point = .leased task ∧ task.caller = n) →
      ∃ task, claim.point = .leased task ∧ task.caller = n) :
    (s.setClaim index claim).Sender n c' := by
  rcases h with hPending | hLeased | hWaiter | hCompletion
  · exact .inl hPending
  · exact .inr (.inl (exists_mem_set hClaim hKeep hLeased))
  · exact .inr (.inr (.inl (hSame ▸ hWaiter)))
  · exact .inr (.inr (.inr hCompletion))

theorem Sender.of_completions {n : Nat} {c c' : Caller} {old completion : Completion}
    (h : s.Sender n c) (hSame : c'.taskId = c.taskId)
    (hCompletion : s.completions[index]? = some old)
    (hKeep : old.point = .removingLease (some n) → completion.point = .removingLease (some n)) :
    (s.setCompletion index completion).Sender n c' := by
  rcases h with hPending | hLeased | hWaiter | hHeld
  · exact .inl hPending
  · exact .inr (.inl hLeased)
  · exact .inr (.inr (.inl (hSame ▸ hWaiter)))
  · exact .inr (.inr (.inr (exists_mem_set hCompletion hKeep hHeld)))

/-- A claim moves on without a lease to insert a waiter for. -/
theorem Senders.setClaim (h : s.Senders) {old claim : ClaimCall}
    (hClaim : s.claims[index]? = some old) (hOld : ∀ task, old.point ≠ .leased task)
    (hNew : ∀ task, claim.point ≠ .leased task) : (s.setClaim index claim).Senders := by
  refine h.moves (.refl _) rfl rfl (List.Subset.refl _) (fun other hOther task hPoint => ?_)
    fun n c c' hc hc' hId _ _ _ hSender => ?_
  · rcases List.mem_or_eq_of_mem_set hOther with hOther | rfl
    · exact .inr ⟨other, hOther, hPoint⟩
    · exact absurd hPoint (hNew task)
  · exact hSender.of_claims hId hClaim fun ⟨task, hPoint, _⟩ => absurd hPoint (hOld task)

/-- Taking a task moves its sender from the pending queue to the claim. -/
theorem Senders.takeTask (h : s.Senders) {claim : ClaimCall} {now : UInt64} {task : PendingTask}
    {d' : TaskDispatcher} (hClaim : s.claims[index]? = some claim)
    (hLooking : claim.point = .looking) (hTakes : s.dispatcher.Takes claim.worker now task d') :
    ((s.setDispatcher d').setClaim index
      { claim with taken := some task, point := .leased task }).Senders := by
  have hMem := List.mem_set (List.getElem?_eq_some_iff.mp hClaim).1
    { claim with taken := some task, point := .leased task }
  refine h.moves (.refl _) hTakes.shrinks.next hTakes.shrinks.ns hTakes.shrinks.pending.subset
    (fun other hOther found hPoint => ?_) fun n c c' hc hc' hId _ _ _ hSender => ?_
  · rcases List.mem_or_eq_of_mem_set hOther with hOther | rfl
    · exact .inr ⟨other, hOther, hPoint⟩
    · cases hPoint
      exact .inl hTakes.mem
  · obtain ⟨before, after, hPending, _, rfl⟩ := hTakes.pending
    rcases hSender with ⟨found, hFound, hCaller⟩ | hLeased | hWaiter | hCompletion
    · rw [hPending] at hFound
      by_cases hSame : found = task
      · exact .inr (.inl ⟨_, hMem, task, rfl, hSame ▸ hCaller⟩)
      · refine .inl ⟨found, ?_, hCaller⟩
        rcases List.mem_append.mp hFound with hBefore | hAfter
        · exact List.mem_append_left _ hBefore
        · exact List.mem_append_right _ ((List.mem_cons.mp hAfter).resolve_left hSame)
    · refine .inr (.inl (exists_mem_set hClaim ?_ hLeased))
      rintro ⟨found, hPoint, _⟩
      rw [hLooking] at hPoint
      cases hPoint
    · exact .inr (.inr (.inl (hId ▸ hWaiter)))
    · exact .inr (.inr (.inr hCompletion))

/-- Registering the waiter moves the sender from the claim to the table of
waiters. -/
theorem Senders.insertWaiter (h : s.Senders) {claim : ClaimCall} {task : PendingTask}
    (hClaim : s.claims[index]? = some claim) (hLeased : claim.point = .leased task) :
    ((s.setDispatcher (s.dispatcher.insertWaiter task)).setClaim index
      { claim with point := .notifying task }).Senders := by
  obtain ⟨owner, hOwner, hOwnerId⟩ := h.leased claim (List.mem_of_getElem? hClaim) task hLeased
  have hLookup (id : String) : (s.dispatcher.insertWaiter task).resultWaiters.lookup id =
      if id = task.dispatch.taskId then some task.caller
      else s.dispatcher.resultWaiters.lookup id := FiniteMap.lookup_insert_eq ..
  refine h.moves (.refl _) rfl rfl (List.Subset.refl _) (fun other hOther found hPoint => ?_)
    fun n c c' hc hc' hId _ _ _ hSender => ?_
  · rcases List.mem_or_eq_of_mem_set hOther with hOther | rfl
    · exact .inr ⟨other, hOther, hPoint⟩
    · cases hPoint
  · by_cases hCaller : n = task.caller
    · refine .inr (.inr (.inl ((hLookup _).trans ?_)))
      rw [hCaller, hOwner] at hc
      cases hc
      rw [hId, if_pos hOwnerId, hCaller]
    · rcases hSender with hPending | hOther | hWaiter | hCompletion
      · exact .inl hPending
      · refine .inr (.inl (exists_mem_set hClaim ?_ hOther))
        rintro ⟨found, hPoint, hFound⟩
        rw [hLeased] at hPoint
        cases hPoint
        exact absurd hFound.symm hCaller
      · refine .inr (.inr (.inl ((hLookup _).trans ?_)))
        rw [hId, if_neg]
        · exact hWaiter
        · exact fun hSame => hCaller (h.caller_eq hc hOwner (hSame.trans hOwnerId.symm))
      · exact .inr (.inr (.inr hCompletion))

/-- Channels are used or dropped; whoever loses a sender is not among those
that wait. -/
theorem Senders.callers (h : s.Senders) {dispatching : Dispatching}
    (hCalls : SameCalls s.callers dispatching.callers)
    (hSame : dispatching.dispatcher = s.dispatcher) :
    Senders { s with toDispatching := dispatching } := by
  refine h.moves hCalls (by rw [hSame]) (by rw [hSame]) (by rw [hSame]; exact List.Subset.refl _)
    (fun claim hClaim task hPoint => .inr ⟨claim, hClaim, hPoint⟩)
    fun n c c' hc hc' hId _ _ _ hSender => ?_
  unfold Sender at hSender ⊢
  dsimp only
  rw [hSame, hId]
  exact hSender

theorem sent_dispatcher (s : SteppedDispatcher) (waiter : Option Nat)
    (result : WorkerExecutionResult) : (s.sent waiter result).dispatcher = s.dispatcher :=
  sendResult_dispatcher ..

theorem sent_results (s : SteppedDispatcher) (result : WorkerExecutionResult) {n : Nat} {c : Caller}
    (hc : (s.sent (some n) result).callers[n]? = some c) : c.results ≠ [] := by
  simp only [sent, Dispatching.sendResult, Dispatching.modifyCaller_callers, if_true] at hc
  obtain ⟨_, _, rfl⟩ := Option.map_eq_some_iff.mp hc
  simp

theorem dropSenders_dropped (s : SteppedDispatcher) {n : Nat} {c : Caller}
    (hc : (s.dropSenders (some n)).callers[n]? = some c) : c.dropped = true := by
  simp only [dropSenders, Dispatching.modifyCaller_callers, if_true] at hc
  obtain ⟨_, _, rfl⟩ := Option.map_eq_some_iff.mp hc
  rfl

theorem dropSenders_sameCalls (s : SteppedDispatcher) (caller : Option Nat) :
    SameCalls s.callers (s.dropSenders caller).callers := by
  unfold SteppedDispatcher.dropSenders
  split
  · exact .modify _ _ (fun _ => ⟨rfl, rfl⟩) (fun _ h => h) fun _ h => nomatch h
  · exact .refl _

theorem dropSenders_dispatcher (s : SteppedDispatcher) (caller : Option Nat) :
    (s.dropSenders caller).dispatcher = s.dispatcher := by
  unfold SteppedDispatcher.dropSenders
  split <;> rfl

/-- The waiter of a task is taken out and a result is sent through it. -/
theorem Senders.timeOutWaiter (h : s.Senders) (taskId : String) (result : WorkerExecutionResult) :
    ((s.setDispatcher (s.dispatcher.removeWaiter taskId)).sent
      (s.dispatcher.resultWaiters.lookup taskId) result).Senders := by
  have hDispatcher := sent_dispatcher (s.setDispatcher (s.dispatcher.removeWaiter taskId))
    (s.dispatcher.resultWaiters.lookup taskId) result
  have hCalls := SameCalls.sendResult
    (s.setDispatcher (s.dispatcher.removeWaiter taskId)).toDispatching
    (s.dispatcher.resultWaiters.lookup taskId) result
  refine h.moves hCalls (by rw [hDispatcher]; rfl) (by rw [hDispatcher]; rfl)
    (by rw [hDispatcher]; exact List.Subset.refl _)
    (fun claim hClaim task hPoint => .inr ⟨claim, hClaim, hPoint⟩)
    fun n c c' hc hc' hId hResults _ _ hSender => ?_
  unfold Sender at hSender ⊢
  rw [hDispatcher, hId]
  rcases hSender with hPending | hLeased | hWaiter | hCompletion
  · exact .inl hPending
  · exact .inr (.inl hLeased)
  · refine .inr (.inr (.inl ?_))
    simp only [setDispatcher, TaskDispatcher.removeWaiter, FiniteMap.lookup_erase_eq]
    split
    · rename_i hTask
      rw [hTask] at hWaiter
      rw [hWaiter] at hc'
      exact absurd hResults (sent_results _ result hc')
    · exact hWaiter
  · exact .inr (.inr (.inr hCompletion))

/-- Taking the waiter out of its table moves the sender to the completion. -/
theorem Senders.removeWaiter (h : s.Senders) {completion : Completion}
    (hCompletion : s.completions[index]? = some completion)
    (hPoint : completion.point = .removingWaiter) :
    ((s.setDispatcher (s.dispatcher.removeWaiter completion.result.taskId)).setCompletion index
      { completion with
        point := .removingLease (s.dispatcher.resultWaiters.lookup completion.result.taskId) }
      ).Senders := by
  refine h.moves (.refl _) rfl rfl (List.Subset.refl _)
    (fun claim hClaim task hTask => .inr ⟨claim, hClaim, hTask⟩)
    fun n c c' hc hc' hId _ _ _ hSender => ?_
  unfold Sender at hSender ⊢
  rw [hId]
  rcases hSender with hPending | hLeased | hWaiter | hHeld
  · exact .inl hPending
  · exact .inr (.inl hLeased)
  · by_cases hTask : c.taskId = completion.result.taskId
    · rw [hTask] at hWaiter
      exact .inr (.inr (.inr ⟨_, List.mem_set (List.getElem?_eq_some_iff.mp hCompletion).1 _,
        congrArg CompletionPoint.removingLease hWaiter⟩))
    · refine .inr (.inr (.inl ?_))
      simp only [setCompletion, setDispatcher, TaskDispatcher.removeWaiter,
        FiniteMap.lookup_erase_eq, if_neg hTask]
      exact hWaiter
  · refine .inr (.inr (.inr (exists_mem_set hCompletion ?_ hHeld)))
    intro hOther
    rw [hPoint] at hOther
    cases hOther

/-- A completion that has a waiter in hand uses it, or drops it. -/
theorem Senders.endCompletion (h : s.Senders) {completion : Completion} {waiter : Option Nat}
    {dispatching : Dispatching} (hCompletion : s.completions[index]? = some completion)
    (hPoint : completion.point = .removingLease waiter)
    (hCalls : SameCalls s.callers dispatching.callers)
    (hPending : dispatching.dispatcher.pendingTasks = s.dispatcher.pendingTasks)
    (hWaiters : dispatching.dispatcher.resultWaiters = s.dispatcher.resultWaiters)
    (hNext : dispatching.dispatcher.nextDispatchId = s.dispatcher.nextDispatchId)
    (hNs : dispatching.dispatcher.dispatchNamespace = s.dispatcher.dispatchNamespace)
    (hUsed : ∀ n c, waiter = some n → dispatching.callers[n]? = some c →
      c.results = [] → c.dropped = true) :
    (setCompletion { s with toDispatching := dispatching } index
      { completion with point := .ended }).Senders := by
  refine h.moves hCalls hNext hNs (fun task hTask => hPending ▸ hTask)
    (fun claim hClaim task hTask => .inr ⟨claim, hClaim, hTask⟩)
    fun n c c' hc hc' hId hResults hDropped _ hSender => ?_
  unfold Sender at hSender ⊢
  rw [hId]
  simp only [setCompletion, hPending, hWaiters]
  rcases hSender with hPending | hLeased | hWaiter | hHeld
  · exact .inl hPending
  · exact .inr (.inl hLeased)
  · exact .inr (.inr (.inl hWaiter))
  · refine .inr (.inr (.inr (exists_mem_set hCompletion ?_ hHeld)))
    intro hOwn
    rw [hPoint] at hOwn
    cases hOwn
    rw [hUsed n c' rfl hc' hResults] at hDropped
    cases hDropped

/-- A claim is cut off after its lease: the senders of its task are dropped. -/
theorem Senders.cutClaim (h : s.Senders) {claim : ClaimCall} {task : PendingTask}
    (hClaim : s.claims[index]? = some claim) (hLeased : claim.point = .leased task) :
    ((s.dropSenders (some task.caller)).setClaim index { claim with point := .ended none }).Senders := by
  have hDispatcher := dropSenders_dispatcher s (some task.caller)
  refine h.moves (dropSenders_sameCalls s _) (by rw [← hDispatcher]; rfl) (by rw [← hDispatcher]; rfl)
    (by rw [← hDispatcher]; exact List.Subset.refl _) (fun other hOther found hPoint => ?_)
    fun n c c' hc hc' hId _ hDropped _ hSender => ?_
  · rcases List.mem_or_eq_of_mem_set hOther with hOther | rfl
    · exact .inr ⟨other, hOther, hPoint⟩
    · cases hPoint
  · have hAfter : (s.setClaim index { claim with point := .ended none }).Sender n c' := by
      refine hSender.of_claims hId hClaim ?_
      rintro ⟨found, hPoint, rfl⟩
      rw [hLeased] at hPoint
      cases hPoint
      rw [dropSenders_dropped s hc'] at hDropped
      cases hDropped
    exact hAfter

/-- A new call has its sender in the pending queue. -/
theorem Senders.enqueueTask (h : s.Senders) (call : DispatchCall) (timeout : Nat) :
    Senders { s with toDispatching := s.toDispatching.enqueueTask call timeout } := by
  have hOld {n : Nat} {c : Caller} (hc : s.callers[n]? = some c) :
      (s.toDispatching.enqueueTask call timeout).callers[n]? = some c :=
    (List.getElem?_append_left (List.getElem?_eq_some_iff.mp hc).1).trans hc
  have hNew {n : Nat} {c : Caller}
      (hc : (s.toDispatching.enqueueTask call timeout).callers[n]? = some c) :
      s.callers[n]? = some c ∨ n = s.dispatcher.nextDispatchId ∧
        c.taskId = s.dispatcher.nextTaskId call.taskDef ∧ c.call = call := by
    change (s.callers ++ [_])[n]? = some c at hc
    rw [List.getElem?_append] at hc
    split at hc
    · exact .inl hc
    · obtain ⟨hNumber, rfl⟩ := List.getElem?_eq_some_iff.mp hc
      simp only [List.length_singleton] at hNumber
      refine .inr ⟨?_, ?_, ?_⟩
      · rw [← h.count]
        omega
      · simp
      · simp
  refine ⟨?_, fun n c hc => ?_, fun task hTask => ?_, fun claim hClaim task hPoint => ?_,
    fun n c hc hResults hDropped => ?_⟩
  · simp [Dispatching.enqueueTask, TaskDispatcher.enqueueTask, h.count]
  · rcases hNew hc with hIn | ⟨rfl, hId, rfl⟩
    · exact h.id n c hIn
    · exact hId
  · rcases List.mem_append.mp hTask with hIn | hLast
    · obtain ⟨c, hc, hId⟩ := h.pending task hIn
      exact ⟨c, hOld hc, hId⟩
    · cases List.mem_singleton.mp hLast
      let caller : Caller := { taskId := s.dispatcher.nextTaskId call.taskDef, call := call,
                               claimed := false, results := [], dropped := false }
      refine ⟨caller, ?_, rfl⟩
      change (s.callers ++ [caller])[s.dispatcher.nextDispatchId]? = _
      rw [← h.count]
      exact List.getElem?_concat_length
  · obtain ⟨c, hc, hId⟩ := h.leased claim hClaim task hPoint
    exact ⟨c, hOld hc, hId⟩
  · rcases hNew hc with hIn | ⟨rfl, _, _⟩
    · refine (h.sender n c hIn hResults hDropped).imp_left ?_
      rintro ⟨task, hTask, hCaller⟩
      exact ⟨task, List.mem_append_left _ hTask, hCaller⟩
    · exact .inl ⟨_, List.mem_append_right _ List.mem_cons_self, rfl⟩

/-- Cancelling marks the calls of the cancelled tasks and no others. -/
theorem dropAll_callers (tasks : List PendingTask) (s : Dispatching) :
    let s' := tasks.foldl (fun s task => s.modifyCaller task.caller fun c =>
      { c with dropped := true }) s
    SameCalls s.callers s'.callers ∧ ∀ task ∈ tasks, ∀ c, s'.callers[task.caller]? = some c →
      c.dropped = true := by
  induction tasks generalizing s with
  | nil => exact ⟨.refl _, (fun _ h => nomatch h)⟩
  | cons task tasks ih =>
      have hFirst : SameCalls s.callers
          (s.modifyCaller task.caller fun c => { c with dropped := true }).callers :=
        .modify s _ (fun _ => ⟨rfl, rfl⟩) (fun _ h => h) fun _ h => nomatch h
      obtain ⟨hRest, hMarked⟩ := ih (s.modifyCaller task.caller fun c => { c with dropped := true })
      refine ⟨hFirst.trans hRest, List.forall_mem_cons.mpr ⟨fun c hc => ?_, hMarked⟩⟩
      obtain ⟨c₁, hc₁, _, _, _, hDropped⟩ := hRest.back _ c hc
      rw [Dispatching.modifyCaller_callers, if_pos rfl] at hc₁
      obtain ⟨_, _, rfl⟩ := Option.map_eq_some_iff.mp hc₁
      exact Bool.eq_true_of_not_eq_false fun h => nomatch hDropped h

/-- Tasks of lost hosts are answered as they leave the queue, so no call is
left without a sender. -/
theorem Senders.cancelPendingTasks (h : s.Senders) (lostHosts : List WorkerHostId) :
    Senders { s with
      toDispatching := s.toDispatching.cancelPendingTasksForLostHosts lostHosts } := by
  have hDispatcher := cancelPendingTasks_dispatcher s.toDispatching lostHosts
  obtain ⟨hCalls, hMarked⟩ := dropAll_callers
    (s.dispatcher.cancelPendingTasksForLostHosts lostHosts).1 { s.toDispatching with
      dispatcher := (s.dispatcher.cancelPendingTasksForLostHosts lostHosts).2 }
  refine h.moves hCalls (by rw [hDispatcher]; rfl) (by rw [hDispatcher]; rfl)
    (by rw [hDispatcher]; exact List.filter_subset_self _)
    (fun claim hClaim task hPoint => .inr ⟨claim, hClaim, hPoint⟩)
    fun n c c' hc hc' hId _ hDropped _ hSender => ?_
  unfold Sender at hSender ⊢
  rw [hDispatcher, hId]
  rcases hSender with ⟨task, hTask, rfl⟩ | hOther
  · refine .inl ⟨task, ?_, rfl⟩
    refine List.mem_filter.mpr ⟨hTask, Bool.not_eq_true' _ |>.mpr (Bool.eq_false_iff.mpr fun hLost => ?_)⟩
    rw [hMarked task (List.mem_filter.mpr ⟨hTask, hLost⟩) c' hc'] at hDropped
    cases hDropped
  · exact .inr hOther

/-- A task is only removed from the queue after its caller has gone. -/
theorem Senders.removePendingTask (h : s.Senders) {caller : Nat} {owner : Caller}
    (hOwner : s.callers[caller]? = some owner) (hOwnerDropped : owner.dropped = true) :
    (s.setDispatcher (s.dispatcher.removePendingTask owner.taskId)).Senders := by
  refine h.moves (.refl _) rfl rfl List.eraseP_subset
    (fun claim hClaim task hPoint => .inr ⟨claim, hClaim, hPoint⟩)
    fun n c c' hc hc' hId _ _ hDropped hSender => ?_
  unfold Sender at hSender ⊢
  rw [hId]
  rcases hSender with ⟨task, hTask, rfl⟩ | hOther
  · refine .inl ⟨task, ?_, rfl⟩
    refine (List.mem_eraseP_of_neg ?_).mpr hTask
    intro hSame
    obtain ⟨c₁, hc₁, hTaskId⟩ := h.pending task hTask
    rw [hc] at hc₁
    cases hc₁
    have hNumber := h.caller_eq hc hOwner (hTaskId.trans (of_decide_eq_true hSame))
    rw [hNumber, hOwner] at hc
    cases hc
    rw [hOwnerDropped] at hDropped
    cases hDropped
  · exact .inr hOther

/-- Every step of a claim keeps the senders somewhere; where the claim is cut
off its caller learns of it. -/
theorem Senders.stepClaim (h : s.Senders) {claim : ClaimCall} {action : SteppedAction}
    (hClaim : s.claims[index]? = some claim) (hStep : s.stepClaim index claim action = some s') :
    s'.Senders := by
  unfold SteppedDispatcher.stepClaim at hStep
  split at hStep
  · split at hStep
    · rename_i hPoint
      split at hStep <;> cases hStep
      · exact h.setClaim hClaim (by simp [hPoint]) (by simp)
      · exact h
      · rename_i hTake
        exact h.takeTask hClaim hPoint (TaskDispatcher.takeTask_some hTake)
    · cases hStep
  · split at hStep
    · rename_i hPoint
      cases hStep
      exact h.insertWaiter hClaim hPoint
    · cases hStep
  · split at hStep
    · rename_i task hPoint
      cases hStep
      have hMoved : (s.setClaim index { claim with point := .ended (some task.dispatch) }).Senders :=
        h.setClaim hClaim (by simp [hPoint]) (by simp)
      exact hMoved.callers (.modify _ _ (fun _ => ⟨rfl, rfl⟩) (fun _ h => h) fun _ h => h) rfl
    · cases hStep
  · split at hStep
    · rename_i hPoint
      cases hStep
      exact h.setClaim hClaim (by simp [hPoint]) (by simp)
    · rename_i task hPoint
      cases hStep
      exact h.cutClaim hClaim hPoint
    · cases hStep
  · cases hStep

/-- A completion moves on with no waiter in hand. -/
theorem Senders.setCompletion (h : s.Senders) {old completion : Completion}
    (hCompletion : s.completions[index]? = some old)
    (hOld : ∀ waiter, old.point ≠ .removingLease waiter) :
    (s.setCompletion index completion).Senders :=
  h.moves (.refl _) rfl rfl (List.Subset.refl _)
    (fun claim hClaim _ hPoint => .inr ⟨claim, hClaim, hPoint⟩)
    fun _ _ _ _ _ hId _ _ _ hSender =>
      hSender.of_completions hId hCompletion fun hPoint => absurd hPoint (hOld _)

/-- Every step of a completion does as well. -/
theorem Senders.stepCompletion (h : s.Senders) {completion : Completion} {action : SteppedAction}
    (hCompletion : s.completions[index]? = some completion)
    (hStep : s.stepCompletion index completion action = some s') : s'.Senders := by
  unfold SteppedDispatcher.stepCompletion at hStep
  split at hStep
  · split at hStep
    · rename_i hPoint
      split at hStep <;> cases hStep <;> exact h.setCompletion hCompletion (by simp [hPoint])
    · cases hStep
  · split at hStep
    · rename_i hPoint
      cases hStep
      exact h.removeWaiter hCompletion hPoint
    · cases hStep
  · split at hStep
    · rename_i waiter hPoint
      cases hStep
      let removed := s.setDispatcher (s.dispatcher.removeLease completion.result.taskId)
      have hDispatcher := sendResult_dispatcher removed.toDispatching waiter
        completion.result.result
      refine h.endCompletion hCompletion hPoint
        (SameCalls.sendResult removed.toDispatching waiter completion.result.result)
        (by rw [hDispatcher]; rfl) (by rw [hDispatcher]; rfl) (by rw [hDispatcher]; rfl)
        (by rw [hDispatcher]; rfl) ?_
      rintro n c rfl hc hResults
      exact absurd hResults (sent_results removed _ hc)
    · cases hStep
  · split at hStep
    · rename_i hPoint
      cases hStep
      exact h.setCompletion hCompletion (by simp [hPoint])
    · rename_i hPoint
      cases hStep
      exact h.setCompletion hCompletion (by simp [hPoint])
    · rename_i waiter hPoint
      cases hStep
      have hDispatcher := dropSenders_dispatcher s waiter
      have hDone := h.endCompletion hCompletion hPoint (dropSenders_sameCalls s waiter)
        (congrArg TaskDispatcher.pendingTasks hDispatcher)
        (congrArg TaskDispatcher.resultWaiters hDispatcher)
        (congrArg TaskDispatcher.nextDispatchId hDispatcher)
        (congrArg TaskDispatcher.dispatchNamespace hDispatcher) (by
          rintro n c rfl hc _
          exact dropSenders_dropped s hc)
      have hSame : { s with toDispatching := (s.dropSenders waiter).toDispatching } =
          s.dropSenders waiter := by
        unfold SteppedDispatcher.dropSenders
        split <;> rfl
      rwa [hSame] at hDone
    · cases hStep
  · cases hStep

/-- No step of the dispatcher loses the sender of a call that waits. This part
needs no condition on the steps. -/
theorem Senders.step (h : s.Senders) {action : SteppedAction} (hStep : s.step action = some s') :
    s'.Senders := by
  have hMonitor (s : SteppedDispatcher) (h : s.Senders) (monitor : TimeoutMonitor) :
      Senders { s with monitor := monitor } := ⟨h.count, h.id, h.pending, h.leased, h.sender⟩
  cases action with
  | enqueueTask call timeout =>
      cases hStep
      exact h.enqueueTask call timeout
  | startClaim worker =>
      cases hStep
      refine h.moves (.refl _) rfl rfl (List.Subset.refl _) (fun claim hClaim task hPoint => ?_)
        fun n c c' _ _ hId _ _ _ hSender => ?_
      · rcases List.mem_append.mp hClaim with hOld | hNew
        · exact .inr ⟨claim, hOld, hPoint⟩
        · cases List.mem_singleton.mp hNew
          cases hPoint
      · unfold Sender at hSender ⊢
        rw [hId]
        refine hSender.imp_right (Or.imp_left ?_)
        rintro ⟨claim, hClaim, hPoint⟩
        exact ⟨claim, List.mem_append_left _ hClaim, hPoint⟩
  | startCompletion result =>
      cases hStep
      refine h.moves (.refl _) rfl rfl (List.Subset.refl _)
        (fun claim hClaim _ hPoint => .inr ⟨claim, hClaim, hPoint⟩)
        fun n c c' _ _ hId _ _ _ hSender => ?_
      unfold Sender at hSender ⊢
      rw [hId]
      refine hSender.imp_right (Or.imp_right (Or.imp_right ?_))
      rintro ⟨completion, hCompletion, hPoint⟩
      exact ⟨completion, List.mem_append_left _ hCompletion, hPoint⟩
  | tick now =>
      simp only [SteppedDispatcher.step] at hStep
      split at hStep <;> cases hStep
      exact hMonitor s h _
  | timeOutLease taskId =>
      simp only [SteppedDispatcher.step] at hStep
      split at hStep
      · split at hStep <;> cases hStep
        · exact hMonitor s h _
        · exact ⟨h.count, h.id, h.pending, h.leased, h.sender⟩
      · cases hStep
  | timeOutWaiter =>
      simp only [SteppedDispatcher.step] at hStep
      split at hStep <;> cases hStep
      exact hMonitor _ (h.timeOutWaiter ..) _
  | cancelPendingTasksForLostHosts lostHosts =>
      cases hStep
      exact h.cancelPendingTasks lostHosts
  | removePendingTask caller =>
      cases hStep
      simp only [Dispatching.step]
      split
      · rename_i owner hOwner
        split
        · rename_i hDropped
          exact h.removePendingTask hOwner hDropped
        · exact h
      · exact h
  | takeTask index now | insertWaiter index | notifyCaller index | cutClaim index =>
      obtain ⟨claim, hClaim, hRest⟩ := Option.bind_eq_some_iff.mp hStep
      exact h.stepClaim hClaim hRest
  | checkDispatch index | removeWaiter index | removeLease index | cutCompletion index =>
      obtain ⟨completion, hCompletion, hRest⟩ := Option.bind_eq_some_iff.mp hStep
      exact h.stepCompletion hCompletion hRest

theorem Tables.new (dispatchNamespace : String) (taskTimeout : Nat) :
    (new dispatchNamespace taskTimeout).Tables where
  inOrder := ⟨(fun _ h => nomatch h), List.Pairwise.nil, (fun _ _ h => nomatch h)⟩
  claim := (fun _ h => nomatch h)
  monitor := (fun _ _ h => nomatch h)
  completion := (fun _ h => nomatch h)
  leased := (fun _ h => nomatch h)
  waiting := (fun _ h => nomatch h)

theorem Senders.new (dispatchNamespace : String) (taskTimeout : Nat) :
    (new dispatchNamespace taskTimeout).Senders where
  count := rfl
  id := fun _ _ h => by simp [SteppedDispatcher.new, Dispatching.new] at h
  pending := (fun _ h => nomatch h)
  leased := (fun _ h => nomatch h)
  sender := fun _ _ h => by simp [SteppedDispatcher.new, Dispatching.new] at h

/-- A claim is all or nothing. A call that has ended without a dispatch has
taken no task, and its steps have left the tables as they were; and between
operations an id has a lease exactly if it has a waiter: whoever waits for a
result is still pending or has a lease. -/
structure AllOrNothing (s : SteppedDispatcher) : Prop where
  taken : ∀ claim ∈ s.claims, claim.point = .ended none → claim.taken = none
  untouched : ∀ action s' index claim, s.step action = some s' → action.claim = some index →
    s'.claims[index]? = some claim → claim.taken = none → s'.dispatcher = s.dispatcher
  tables : s.Quiescent → ∀ id, (s.dispatcher.inFlightTasks.lookup id).isSome ↔
    (s.dispatcher.resultWaiters.lookup id).isSome
  answered : s.Quiescent → ∀ caller ∈ s.callers, caller.results = [] → caller.dropped = false →
    (∃ task ∈ s.dispatcher.pendingTasks, task.dispatch.taskId = caller.taskId) ∨
      (s.dispatcher.inFlightTasks.lookup caller.taskId).isSome

/-- Between operations no claim is under way with a task in hand. -/
theorem Quiescent.not_leased (h : s.Quiescent) {claim : ClaimCall} {task : PendingTask}
    (hClaim : claim ∈ s.claims) : claim.point ≠ .leased task := by
  intro hPoint
  have hNot := h.claims claim hClaim
  rw [hPoint] at hNot
  cases hNot

theorem Quiescent.not_removing (h : s.Quiescent) {completion : Completion} {waiter : Option Nat}
    (hCompletion : completion ∈ s.completions) : completion.point ≠ .removingLease waiter := by
  intro hPoint
  have hNot := h.completions completion hCompletion
  rw [hPoint] at hNot
  cases hNot

/-- Between operations the two tables agree: an id has a lease exactly if it
has a waiter. -/
theorem Tables.quiescent (h : s.Tables) (hQuiescent : s.Quiescent) (id : String) :
    (s.dispatcher.inFlightTasks.lookup id).isSome ↔
      (s.dispatcher.resultWaiters.lookup id).isSome := by
  constructor
  · intro hLease
    rcases h.leased id hLease with hWaiter | ⟨claim, hClaim, task, hPoint, _⟩ |
      ⟨completion, hCompletion, ⟨waiter, hPoint⟩, _⟩
    · exact hWaiter
    · exact absurd hPoint (hQuiescent.not_leased hClaim)
    · exact absurd hPoint (hQuiescent.not_removing hCompletion)
  · intro hWaiter
    refine (h.waiting id hWaiter).resolve_right ?_
    rintro ⟨lease, hCurrent⟩
    have hIdle := hQuiescent.monitor
    rw [hCurrent] at hIdle
    cases hIdle

/-- A claim that has taken nothing has changed no table. -/
theorem Tables.untouched (h : s.Tables) {action : SteppedAction} {claim : ClaimCall}
    (hStep : s.step action = some s') (hOwn : action.claim = some index)
    (hAfter : s'.claims[index]? = some claim) (hTaken : claim.taken = none) :
    s'.dispatcher = s.dispatcher := by
  have hSelf {s : SteppedDispatcher} {old : ClaimCall} (hOld : s.claims[index]? = some old)
      (x : ClaimCall) : (s.setClaim index x).claims[index]? = some x :=
    List.getElem?_set_self (List.getElem?_eq_some_iff.mp hOld).1
  cases action with
  | takeTask i now =>
      cases hOwn
      obtain ⟨old, hOld, hRest⟩ := Option.bind_eq_some_iff.mp hStep
      simp only [SteppedDispatcher.stepClaim] at hRest
      split at hRest
      · split at hRest <;> cases hRest
        · rfl
        · rfl
        · have hLast := (hSelf hOld _).symm.trans hAfter
          cases hLast
          cases hTaken
      · cases hRest
  | insertWaiter i =>
      cases hOwn
      obtain ⟨old, hOld, hRest⟩ := Option.bind_eq_some_iff.mp hStep
      have hInv := h.claim old (List.mem_of_getElem? hOld)
      simp only [SteppedDispatcher.stepClaim] at hRest
      split at hRest
      · rename_i task hPoint
        cases hRest
        rw [ClaimInv, hPoint] at hInv
        have hLast := (hSelf hOld _).symm.trans hAfter
        cases hLast
        rw [hInv.1] at hTaken
        cases hTaken
      · cases hRest
  | notifyCaller i =>
      cases hOwn
      obtain ⟨old, hOld, hRest⟩ := Option.bind_eq_some_iff.mp hStep
      simp only [SteppedDispatcher.stepClaim] at hRest
      split at hRest <;> cases hRest
      rfl
  | cutClaim i =>
      cases hOwn
      obtain ⟨old, hOld, hRest⟩ := Option.bind_eq_some_iff.mp hStep
      simp only [SteppedDispatcher.stepClaim] at hRest
      split at hRest <;> cases hRest
      · rfl
      · exact dropSenders_dispatcher ..
  | _ => cases hOwn

/-- With the tables in step and the senders accounted for, an operation has
taken place as a whole or not at all. -/
theorem Senders.allOrNothing (h : s.Senders) (hTables : s.Tables) : s.AllOrNothing where
  taken := fun claim hClaim hEnded => by
    have hInv := hTables.claim claim hClaim
    rwa [ClaimInv, hEnded] at hInv
  untouched := fun _ _ _ _ => hTables.untouched
  tables := hTables.quiescent
  answered := fun hQuiescent caller hCaller hResults hDropped => by
    obtain ⟨n, hn⟩ := List.mem_iff_getElem?.mp hCaller
    rcases h.sender n caller hn hResults hDropped with ⟨task, hTask, rfl⟩ |
      ⟨claim, hClaim, task, hPoint, _⟩ | hWaiter | ⟨completion, hCompletion, hPoint⟩
    · obtain ⟨c, hc, hId⟩ := h.pending task hTask
      rw [hn] at hc
      cases hc
      exact .inl ⟨task, hTask, hId.symm⟩
    · exact absurd hPoint (hQuiescent.not_leased hClaim)
    · refine .inr ((hTables.quiescent hQuiescent _).mpr ?_)
      rw [hWaiter]
      rfl
    · exact absurd hPoint (hQuiescent.not_removing hCompletion)

/-- Claims are all or nothing as long as nothing gets between the lease and the
waiter of a claim, and no completion is cut off with a waiter in hand. -/
theorem UndividedSteps.all_or_nothing {dispatchNamespace : String} {taskTimeout : Nat}
    {actions : List SteppedAction}
    (run : UndividedSteps (new dispatchNamespace taskTimeout) actions s) : s.AllOrNothing := by
  have hSenders : s.Senders := run.invariant (Senders.new ..) fun _ _ _ h hStep => h.step hStep.1
  have hTables : s.Tables := run.invariant (Tables.new ..) fun _ _ _ h hStep =>
    h.step hStep.1 hStep.2
  exact hSenders.allOrNothing hTables

/-! One claim, undisturbed, cut off, and overtaken by its own expiry. -/

def sampleCall (timeoutSecs : UInt64) : DispatchCall := Dispatching.sampleCall "draft" timeoutSecs

/-- The lease of the sample call. -/
def sampleId : String := "draft-1-0"

def sampleStart : SteppedDispatcher := new "1" 300000

def claimed : List SteppedAction :=
  [.enqueueTask (sampleCall 300) 300000, .startClaim Dispatching.sampleWorker, .takeTask 0 0,
    .insertWaiter 0, .notifyCaller 0, .startCompletion ⟨sampleId, .success .null⟩,
    .checkDispatch 0]

/-- The actions that no other operation can disturb. -/
def isUndisturbed (_ : SteppedDispatcher) : SteppedAction → Bool
  | .cutClaim _ | .timeOutLease _ | .removeWaiter _ | .cutCompletion _ => false
  | _ => true

/-- The undisturbed claim goes through, and every action of it meets the
condition. -/
theorem claimed_runs : (claimed.foldlM (fun s action =>
    if isUndisturbed s action then step s action else none) sampleStart).isSome := by
  decide +kernel

/-- After it the task has a lease and a waiter. -/
theorem UndividedSteps.all_or_nothing_claimed :
    ((claimed.foldlM (fun s action => if isUndisturbed s action then step s action else none)
      sampleStart).get claimed_runs).AllOrNothing := by
  refine UndividedSteps.all_or_nothing
    ((Run.of_guarded (Option.some_get claimed_runs).symm).mono ?_)
  rintro s action s' ⟨hStep, hGuard⟩
  refine ⟨hStep, ?_⟩
  cases action <;> trivial

/-- The claim timeout, or a dropped request, cuts the claim off after its
lease. -/
def cutBetween : List SteppedAction :=
  [.enqueueTask (sampleCall 300) 300000, .startClaim Dispatching.sampleWorker, .takeTask 0 0,
    .cutClaim 0]

/-- The run in which the claim is cut off between its two tables is
possible. -/
theorem cutBetween_runs : (cutBetween.foldlM step sampleStart).isSome := by
  decide +kernel

/-- A task that times out at once does so before its waiter is there. -/
def expiredBetween : List SteppedAction :=
  [.enqueueTask (sampleCall 0) 0, .startClaim Dispatching.sampleWorker, .takeTask 0 0, .tick 0,
    .timeOutLease sampleId, .timeOutWaiter, .insertWaiter 0, .notifyCaller 0]

theorem expiredBetween_runs : (expiredBetween.foldlM step sampleStart).isSome := by
  decide +kernel

/-- A claim that is cut off leaves a lease and no pending task; one that is
overtaken by its expiry leaves a waiter without a lease. -/
theorem claim_not_all_or_nothing :
    (∃ s, Steps sampleStart cutBetween s ∧ s.Quiescent ∧
      (s.claims.map fun claim => claim.taken.isSome) = [true] ∧
      s.dispatcher.pendingTasks.length = 0 ∧
      (s.dispatcher.inFlightTasks.lookup sampleId).isSome ∧
      ¬(s.dispatcher.resultWaiters.lookup sampleId).isSome) ∧
    ∃ s, Steps sampleStart expiredBetween s ∧ s.Quiescent ∧
      s.dispatcher.pendingTasks.length = 0 ∧
      ¬(s.dispatcher.inFlightTasks.lookup sampleId).isSome ∧
      (s.dispatcher.resultWaiters.lookup sampleId).isSome ∧
      ∀ caller ∈ s.callers, caller.results.length = 0 ∧ caller.dropped = false := by
  refine ⟨⟨_, Run.of_foldlM (Option.some_get cutBetween_runs).symm, ?_⟩,
    _, Run.of_foldlM (Option.some_get expiredBetween_runs).symm, ?_⟩
  · decide +kernel
  · decide +kernel

end SteppedDispatcher

end RelayFold
