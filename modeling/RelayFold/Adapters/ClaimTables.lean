import RelayFold.Adapters.ClaimSteps

/-! Leases and result waiters of the stepped dispatcher. While nothing gets
between the two insertions of a claim, they differ only for ids that an
operation has in hand. -/
namespace RelayFold

namespace SteppedDispatcher

/-- A completion has taken the waiter of the task and not yet the lease. -/
def Completing (s : SteppedDispatcher) (taskId : String) : Prop :=
  ∃ completion ∈ s.completions, (∃ waiter, completion.point = .removingLease (some waiter)) ∧
    completion.result.taskId = taskId

end SteppedDispatcher

section Lists

variable {α : Type} {l : List α} {i : Nat} {old x : α} {P : α → Prop}

/-- Replacing an element by one that has the property if the old one had it
keeps the existence of such an element. -/
theorem exists_mem_set (hOld : l[i]? = some old) (hKeep : P old → P x) (h : ∃ y ∈ l, P y) :
    ∃ y ∈ l.set i x, P y := by
  obtain ⟨y, hy, hP⟩ := h
  obtain ⟨j, hj⟩ := List.mem_iff_getElem?.mp hy
  by_cases hSame : i = j
  · subst hSame
    rw [hOld] at hj
    cases hj
    exact ⟨x, List.mem_set (List.getElem?_eq_some_iff.mp hOld).1 x, hKeep hP⟩
  · exact ⟨y, List.mem_iff_getElem?.mpr ⟨j, by rw [List.getElem?_set, if_neg hSame, hj]⟩, hP⟩

/-- If the new element lacks the property, the one that has it was there
before. -/
theorem exists_mem_of_set (hx : ¬P x) (h : ∃ y ∈ l.set i x, P y) : ∃ y ∈ l, P y := by
  obtain ⟨y, hy, hP⟩ := h
  rcases List.mem_or_eq_of_mem_set hy with hy | rfl
  · exact ⟨y, hy, hP⟩
  · exact absurd hP hx

/-- A property of all elements survives the replacement of one by another that
has it. -/
theorem forall_mem_set (hAll : ∀ y ∈ l, P y) (hx : P x) : ∀ y ∈ l.set i x, P y := by
  intro y hy
  rcases List.mem_or_eq_of_mem_set hy with hy | rfl
  · exact hAll y hy
  · exact hx

end Lists

namespace SteppedDispatcher

/-- What is known of a claim: without a dispatch it has taken nothing. -/
def ClaimInv (d : TaskDispatcher) (claim : ClaimCall) : Prop :=
  match claim.point with
  | .looking | .ended none => claim.taken = none
  | .leased task => claim.taken = some task ∧
      d.Spent task.dispatch.taskId ∧ (d.inFlightTasks.lookup task.dispatch.taskId).isSome
  | _ => True

def CompletionInv (s : SteppedDispatcher) (completion : Completion) : Prop :=
  let taskId := completion.result.taskId
  match completion.point with
  | .removingWaiter => s.dispatcher.Spent taskId
  | .removingLease _ => s.dispatcher.Spent taskId ∧
      s.dispatcher.resultWaiters.lookup taskId = none ∧ ¬s.BetweenTables taskId
  | _ => True

/-- Leases and waiters differ only for ids that an operation has in hand. -/
structure Tables (s : SteppedDispatcher) : Prop where
  inOrder : s.dispatcher.InOrder
  claim : ∀ claim ∈ s.claims, ClaimInv s.dispatcher claim
  monitor : ∀ id lease, s.monitor.current = some (id, lease) →
    s.dispatcher.Spent id ∧ s.dispatcher.inFlightTasks.lookup id = none
  completion : ∀ completion ∈ s.completions, s.CompletionInv completion
  leased : ∀ id, (s.dispatcher.inFlightTasks.lookup id).isSome →
    (s.dispatcher.resultWaiters.lookup id).isSome ∨ s.BetweenTables id ∨ s.Completing id
  waiting : ∀ id, (s.dispatcher.resultWaiters.lookup id).isSome →
    (s.dispatcher.inFlightTasks.lookup id).isSome ∨ ∃ lease, s.monitor.current = some (id, lease)

variable {s s' : SteppedDispatcher} {index : Nat}

/-- The tables of leases and waiters stay, and so do the spent ids. -/
theorem Tables.setDispatching (h : s.Tables) {dispatching : Dispatching}
    (hInOrder : dispatching.dispatcher.InOrder)
    (hSpent : ∀ id, s.dispatcher.Spent id → dispatching.dispatcher.Spent id)
    (hLeases : dispatching.dispatcher.inFlightTasks = s.dispatcher.inFlightTasks)
    (hWaiters : dispatching.dispatcher.resultWaiters = s.dispatcher.resultWaiters) :
    Tables { s with toDispatching := dispatching } := by
  refine ⟨hInOrder, fun claim hClaim => ?_, fun id lease hCurrent => ?_,
    fun completion hCompletion => ?_, ?_, ?_⟩
  · have hInv := h.claim claim hClaim
    unfold ClaimInv at hInv ⊢
    split at hInv
    · exact hInv
    · exact hInv
    · exact ⟨hInv.1, hSpent _ hInv.2.1, hLeases ▸ hInv.2.2⟩
    · trivial
  · obtain ⟨hId, hNone⟩ := h.monitor id lease hCurrent
    exact ⟨hSpent id hId, hLeases ▸ hNone⟩
  · have hInv := h.completion completion hCompletion
    unfold CompletionInv at hInv ⊢
    dsimp only at hInv ⊢
    split at hInv
    · exact hSpent _ hInv
    · exact ⟨hSpent _ hInv.1, hWaiters ▸ hInv.2.1, hInv.2.2⟩
    · trivial
  · change ∀ id, (dispatching.dispatcher.inFlightTasks.lookup id).isSome →
      (dispatching.dispatcher.resultWaiters.lookup id).isSome ∨ _
    rw [hLeases, hWaiters]
    exact h.leased
  · change ∀ id, (dispatching.dispatcher.resultWaiters.lookup id).isSome →
      (dispatching.dispatcher.inFlightTasks.lookup id).isSome ∨ _
    rw [hLeases, hWaiters]
    exact h.waiting

/-- A claim moves on outside the window between its lease and its waiter. -/
theorem Tables.setClaim (h : s.Tables) {claim claim' : ClaimCall}
    (hClaim : s.claims[index]? = some claim) (hOld : ∀ task, claim.point ≠ .leased task)
    (hNew : ∀ task, claim'.point ≠ .leased task) (hInv : ClaimInv s.dispatcher claim') :
    (s.setClaim index claim').Tables := by
  refine ⟨h.inOrder, forall_mem_set h.claim hInv, h.monitor, fun completion hCompletion => ?_,
    fun id hLease => ?_, h.waiting⟩
  · have hInv := h.completion completion hCompletion
    unfold CompletionInv at hInv ⊢
    dsimp only at hInv ⊢
    split at hInv
    · exact hInv
    · exact ⟨hInv.1, hInv.2.1, fun hBetween => hInv.2.2
        (exists_mem_of_set (fun ⟨task, hTask, _⟩ => hNew task hTask) hBetween)⟩
    · trivial
  · rcases h.leased id hLease with hWaiter | hBetween | hCompleting
    · exact .inl hWaiter
    · exact .inr (.inl (exists_mem_set hClaim (fun ⟨task, hTask, _⟩ => absurd hTask (hOld task))
        hBetween))
    · exact .inr (.inr hCompleting)

/-- Taking a task makes its lease; from here to the next step the id is between
the tables. -/
theorem Tables.takeTask (h : s.Tables) {claim : ClaimCall} {now : UInt64} {task : PendingTask}
    {d' : TaskDispatcher} (hClaim : s.claims[index]? = some claim)
    (hLooking : claim.point = .looking) (hTakes : s.dispatcher.Takes claim.worker now task d') :
    ((s.setDispatcher d').setClaim index
      { claim with taken := some task, point := .leased task }).Tables := by
  have hSpent {id : String} (hId : s.dispatcher.Spent id) : d'.Spent id := hId.shrinks hTakes.shrinks
  have hNe {id : String} (hId : s.dispatcher.Spent id) : id ≠ task.dispatch.taskId :=
    (hId.2 task hTakes.mem).symm
  have hOther {id : String} (hId : id ≠ task.dispatch.taskId) :
      d'.inFlightTasks.lookup id = s.dispatcher.inFlightTasks.lookup id := by
    rw [hTakes.lookup, if_neg hId]
  have hSelf : (d'.inFlightTasks.lookup task.dispatch.taskId).isSome := by
    rw [hTakes.lookup, if_pos rfl]
    rfl
  have hStays {id : String} (hLease : (s.dispatcher.inFlightTasks.lookup id).isSome) :
      (d'.inFlightTasks.lookup id).isSome := by
    rw [hTakes.lookup]
    split
    · rfl
    · exact hLease
  have hWaiters : d'.resultWaiters = s.dispatcher.resultWaiters := by
    obtain ⟨_, _, _, _, rfl⟩ := hTakes.pending
    rfl
  refine ⟨h.inOrder.takes hTakes, forall_mem_set (fun other hOther => ?_) ?_,
    fun id lease hCurrent => ?_, fun completion hCompletion => ?_, fun id hLease => ?_,
    fun id hWaiter => ?_⟩
  · have hInv := h.claim other hOther
    unfold ClaimInv at hInv ⊢
    split at hInv
    · exact hInv
    · exact hInv
    · exact ⟨hInv.1, hSpent hInv.2.1, hStays hInv.2.2⟩
    · trivial
  · exact ⟨rfl, h.inOrder.spent_of_take hTakes, hSelf⟩
  · obtain ⟨hId, hNone⟩ := h.monitor id lease hCurrent
    exact ⟨hSpent hId, (hOther (hNe hId)).trans hNone⟩
  · have hInv := h.completion completion hCompletion
    unfold CompletionInv at hInv ⊢
    dsimp only at hInv ⊢
    split at hInv
    · exact hSpent hInv
    · refine ⟨hSpent hInv.1, hWaiters ▸ hInv.2.1, fun hBetween => hInv.2.2 ?_⟩
      refine exists_mem_of_set ?_ hBetween
      rintro ⟨other, hPoint, hId⟩
      cases hPoint
      exact hNe hInv.1 hId.symm
    · trivial
  · change (d'.resultWaiters.lookup id).isSome ∨ _
    rw [hWaiters]
    by_cases hId : id = task.dispatch.taskId
    · exact .inr (.inl ⟨_, List.mem_set (List.getElem?_eq_some_iff.mp hClaim).1 _, task, rfl,
        hId.symm⟩)
    · change (d'.inFlightTasks.lookup id).isSome at hLease
      rw [hOther hId] at hLease
      rcases h.leased id hLease with hWaiter | hBetween | hCompleting
      · exact .inl hWaiter
      · refine .inr (.inl (exists_mem_set hClaim ?_ hBetween))
        rintro ⟨other, hPoint, _⟩
        rw [hLooking] at hPoint
        cases hPoint
      · exact .inr (.inr hCompleting)
  · change (d'.resultWaiters.lookup id).isSome at hWaiter
    rw [hWaiters] at hWaiter
    exact (h.waiting id hWaiter).imp_left hStays

/-- The waiter that the claim registers next brings the tables into step
again. -/
theorem Tables.insertWaiter (h : s.Tables) {claim : ClaimCall} {task : PendingTask}
    (hClaim : s.claims[index]? = some claim) (hLeased : claim.point = .leased task) :
    ((s.setDispatcher (s.dispatcher.insertWaiter task)).setClaim index
      { claim with point := .notifying task }).Tables := by
  have hMem := List.mem_of_getElem? hClaim
  have hLookup (id : String) : (s.dispatcher.insertWaiter task).resultWaiters.lookup id =
      if id = task.dispatch.taskId then some task.caller
      else s.dispatcher.resultWaiters.lookup id := FiniteMap.lookup_insert_eq ..
  refine ⟨h.inOrder.fewer ⟨List.Sublist.refl _, rfl, rfl⟩ fun _ _ hLease => hLease,
    forall_mem_set h.claim trivial, h.monitor, fun completion hCompletion => ?_,
    fun id hLease => ?_, fun id hWaiter => ?_⟩
  · have hInv := h.completion completion hCompletion
    unfold CompletionInv at hInv ⊢
    dsimp only at hInv ⊢
    split at hInv
    · exact hInv
    · refine ⟨hInv.1, ?_, fun hBetween => hInv.2.2 (exists_mem_of_set (fun ⟨_, hPoint, _⟩ =>
        nomatch hPoint) hBetween)⟩
      change (s.dispatcher.insertWaiter task).resultWaiters.lookup _ = none
      rw [hLookup, if_neg]
      · exact hInv.2.1
      · exact fun hId => hInv.2.2 ⟨claim, hMem, task, hLeased, hId.symm⟩
    · trivial
  · change ((s.dispatcher.insertWaiter task).resultWaiters.lookup id).isSome ∨ _
    rw [hLookup]
    by_cases hId : id = task.dispatch.taskId
    · rw [if_pos hId]
      exact .inl rfl
    · rw [if_neg hId]
      rcases h.leased id hLease with hWaiter | hBetween | hCompleting
      · exact .inl hWaiter
      · refine .inr (.inl (exists_mem_set hClaim ?_ hBetween))
        rintro ⟨other, hPoint, hOther⟩
        rw [hLeased] at hPoint
        cases hPoint
        exact absurd hOther.symm hId
      · exact .inr (.inr hCompleting)
  · change ((s.dispatcher.insertWaiter task).resultWaiters.lookup id).isSome at hWaiter
    rw [hLookup] at hWaiter
    split at hWaiter
    · rename_i hId
      have hInv := h.claim claim hMem
      rw [ClaimInv, hLeased] at hInv
      exact .inl (hId ▸ hInv.2.2)
    · exact h.waiting id hWaiter

/-- A completion moves on before it has taken the waiter, or ends. -/
theorem Tables.setCompletion (h : s.Tables) {completion completion' : Completion}
    (hCompletion : s.completions[index]? = some completion)
    (hOld : ∀ waiter, completion.point ≠ .removingLease (some waiter))
    (hInv : s.CompletionInv completion') :
    (s.setCompletion index completion').Tables := by
  refine ⟨h.inOrder, h.claim, h.monitor, forall_mem_set h.completion hInv, fun id hLease => ?_,
    h.waiting⟩
  rcases h.leased id hLease with hWaiter | hBetween | hCompleting
  · exact .inl hWaiter
  · exact .inr (.inl hBetween)
  · exact .inr (.inr (exists_mem_set hCompletion (fun ⟨⟨waiter, hPoint⟩, _⟩ =>
      absurd hPoint (hOld waiter)) hCompleting))

/-- A completion takes the waiter. One that finds none comes after another that
has taken it. -/
theorem Tables.removeWaiter (h : s.Tables) {completion : Completion} {waiter : Option Nat}
    (hCompletion : s.completions[index]? = some completion)
    (hPoint : completion.point = .removingWaiter)
    (hWaiter : s.dispatcher.resultWaiters.lookup completion.result.taskId = waiter)
    (hUndivided : ¬s.BetweenTables completion.result.taskId) :
    ((s.setDispatcher (s.dispatcher.removeWaiter completion.result.taskId)).setCompletion index
      { completion with point := .removingLease waiter }).Tables := by
  have hInv := h.completion completion (List.mem_of_getElem? hCompletion)
  rw [CompletionInv, hPoint] at hInv
  have hLookup (id : String) :
      (s.dispatcher.removeWaiter completion.result.taskId).resultWaiters.lookup id =
        if id = completion.result.taskId then none else s.dispatcher.resultWaiters.lookup id :=
    FiniteMap.lookup_erase_eq ..
  refine ⟨h.inOrder.fewer ⟨List.Sublist.refl _, rfl, rfl⟩ fun _ _ hLease => hLease, h.claim,
    h.monitor, forall_mem_set (fun other hOther => ?_) ?_, fun id hLease => ?_,
    fun id hWaiter => ?_⟩
  · have hInv := h.completion other hOther
    unfold CompletionInv at hInv ⊢
    dsimp only at hInv ⊢
    split at hInv
    · exact hInv
    · refine ⟨hInv.1, ?_, hInv.2.2⟩
      change (s.dispatcher.removeWaiter _).resultWaiters.lookup _ = none
      rw [hLookup]
      split
      · rfl
      · exact hInv.2.1
    · trivial
  · refine ⟨hInv, ?_, hUndivided⟩
    change (s.dispatcher.removeWaiter _).resultWaiters.lookup _ = none
    rw [hLookup, if_pos rfl]
  · change ((s.dispatcher.removeWaiter _).resultWaiters.lookup id).isSome ∨ _
    rw [hLookup]
    have hStays (hCompleting : s.Completing id) :
        ∃ other ∈ s.completions.set index { completion with point := .removingLease waiter },
          (∃ waiter, other.point = .removingLease (some waiter)) ∧ other.result.taskId = id := by
      refine exists_mem_set hCompletion (fun ⟨⟨_, hOther⟩, _⟩ => ?_) hCompleting
      rw [hPoint] at hOther
      cases hOther
    by_cases hId : id = completion.result.taskId
    · subst hId
      refine .inr (.inr ?_)
      cases waiter with
      | some caller =>
          exact ⟨_, List.mem_set (List.getElem?_eq_some_iff.mp hCompletion).1 _, ⟨caller, rfl⟩, rfl⟩
      | none =>
          rcases h.leased _ hLease with hSome | hBetween | hCompleting
          · rw [hWaiter] at hSome
            cases hSome
          · exact absurd hBetween hUndivided
          · exact hStays hCompleting
    · rw [if_neg hId]
      rcases h.leased id hLease with hWaiter | hBetween | hCompleting
      · exact .inl hWaiter
      · exact .inr (.inl hBetween)
      · exact .inr (.inr (hStays hCompleting))
  · change ((s.dispatcher.removeWaiter _).resultWaiters.lookup id).isSome at hWaiter
    rw [hLookup] at hWaiter
    split at hWaiter
    · cases hWaiter
    · exact h.waiting id hWaiter

/-- A lease that no claim is about to use is removed. -/
theorem Tables.claim_removeLease (h : s.Tables) {taskId : String} (hUndivided : ¬s.BetweenTables taskId) :
    ∀ claim ∈ s.claims, ClaimInv (s.dispatcher.removeLease taskId) claim := by
  intro claim hClaim
  have hInv := h.claim claim hClaim
  unfold ClaimInv at hInv ⊢
  split at hInv
  · exact hInv
  · exact hInv
  · rename_i task hPoint
    refine ⟨hInv.1, hInv.2.1, ?_⟩
    simp only [TaskDispatcher.removeLease, FiniteMap.lookup_erase_eq]
    rw [if_neg fun hId => hUndivided ⟨claim, hClaim, task, hPoint, hId⟩]
    exact hInv.2.2
  · trivial

/-- A completion removes the lease after the waiter, and then the id is out of
both tables. -/
theorem Tables.removeLease (h : s.Tables) {completion : Completion} {waiter : Option Nat}
    (hCompletion : s.completions[index]? = some completion)
    (hPoint : completion.point = .removingLease waiter) :
    ((s.setDispatcher (s.dispatcher.removeLease completion.result.taskId)).setCompletion index
      { completion with point := .ended }).Tables := by
  have hInv := h.completion completion (List.mem_of_getElem? hCompletion)
  rw [CompletionInv, hPoint] at hInv
  obtain ⟨_, hNoWaiter, hUndivided⟩ := hInv
  have hLookup (id : String) :
      (s.dispatcher.removeLease completion.result.taskId).inFlightTasks.lookup id =
        if id = completion.result.taskId then none else s.dispatcher.inFlightTasks.lookup id :=
    FiniteMap.lookup_erase_eq ..
  refine ⟨h.inOrder.fewer ⟨List.Sublist.refl _, rfl, rfl⟩ (TaskDispatcher.removeLease_fewer _ _),
    h.claim_removeLease hUndivided, fun id lease hCurrent => ?_, forall_mem_set h.completion trivial,
    fun id hLease => ?_, fun id hWaiter => ?_⟩
  · obtain ⟨hId, hNone⟩ := h.monitor id lease hCurrent
    refine ⟨hId, (hLookup id).trans ?_⟩
    rw [hNone, ite_self]
  · change ((s.dispatcher.removeLease _).inFlightTasks.lookup id).isSome at hLease
    rw [hLookup] at hLease
    split at hLease
    · cases hLease
    · rename_i hId
      rcases h.leased id hLease with hWaiter | hBetween | hCompleting
      · exact .inl hWaiter
      · exact .inr (.inl hBetween)
      · exact .inr (.inr (exists_mem_set hCompletion (fun ⟨_, hOther⟩ => absurd hOther.symm hId)
          hCompleting))
  · change ((s.dispatcher.removeLease _).inFlightTasks.lookup id).isSome ∨ _
    rw [hLookup, if_neg]
    · exact h.waiting id hWaiter
    · rintro rfl
      change (s.dispatcher.resultWaiters.lookup _).isSome at hWaiter
      rw [hNoWaiter] at hWaiter
      cases hWaiter

/-- The monitor removes the lease of an id that no claim has in hand. -/
theorem Tables.timeOutLease (h : s.Tables) {taskId : String} {lease : DispatchLease}
    (rest : List String) (hLease : s.dispatcher.inFlightTasks.lookup taskId = some lease)
    (hIdle : s.monitor.current = none) (hUndivided : ¬s.BetweenTables taskId) :
    Tables { s.setDispatcher (s.dispatcher.removeLease taskId) with
      monitor := ⟨rest, some (taskId, lease)⟩ } := by
  have hLookup (id : String) : (s.dispatcher.removeLease taskId).inFlightTasks.lookup id =
      if id = taskId then none else s.dispatcher.inFlightTasks.lookup id :=
    FiniteMap.lookup_erase_eq ..
  refine ⟨h.inOrder.fewer ⟨List.Sublist.refl _, rfl, rfl⟩ (TaskDispatcher.removeLease_fewer _ _),
    h.claim_removeLease hUndivided, fun id found hCurrent => ?_, h.completion, fun id hIn => ?_,
    fun id hWaiter => ?_⟩
  · cases hCurrent
    exact ⟨h.inOrder.leased taskId lease hLease, (hLookup taskId).trans (if_pos rfl)⟩
  · change ((s.dispatcher.removeLease _).inFlightTasks.lookup id).isSome at hIn
    rw [hLookup] at hIn
    split at hIn
    · cases hIn
    · exact h.leased id hIn
  · change ((s.dispatcher.removeLease _).inFlightTasks.lookup id).isSome ∨ _
    rw [hLookup]
    by_cases hId : id = taskId
    · exact .inr ⟨lease, by rw [hId]⟩
    · rw [if_neg hId]
      refine .inl ((h.waiting id hWaiter).resolve_right ?_)
      rintro ⟨found, hCurrent⟩
      rw [hIdle] at hCurrent
      cases hCurrent

/-- And the waiter after it. -/
theorem Tables.timeOutWaiter (h : s.Tables) {taskId : String} {lease : DispatchLease}
    (hCurrent : s.monitor.current = some (taskId, lease)) :
    Tables { s.setDispatcher (s.dispatcher.removeWaiter taskId) with
      monitor := ⟨s.monitor.timedOutTaskIds, none⟩ } := by
  have hLookup (id : String) : (s.dispatcher.removeWaiter taskId).resultWaiters.lookup id =
      if id = taskId then none else s.dispatcher.resultWaiters.lookup id :=
    FiniteMap.lookup_erase_eq ..
  refine ⟨h.inOrder.fewer ⟨List.Sublist.refl _, rfl, rfl⟩ fun _ _ hLease => hLease, h.claim,
    (fun _ _ hNone => nomatch hNone), fun completion hCompletion => ?_, fun id hLease => ?_,
    fun id hWaiter => ?_⟩
  · have hInv := h.completion completion hCompletion
    unfold CompletionInv at hInv ⊢
    dsimp only at hInv ⊢
    split at hInv
    · exact hInv
    · refine ⟨hInv.1, (hLookup _).trans ?_, hInv.2.2⟩
      rw [hInv.2.1, ite_self]
    · trivial
  · change ((s.dispatcher.removeWaiter _).resultWaiters.lookup id).isSome ∨ _
    rw [hLookup, if_neg]
    · exact h.leased id hLease
    · rintro rfl
      change (s.dispatcher.inFlightTasks.lookup _).isSome at hLease
      rw [(h.monitor _ _ hCurrent).2] at hLease
      cases hLease
  · change ((s.dispatcher.removeWaiter _).resultWaiters.lookup id).isSome at hWaiter
    rw [hLookup] at hWaiter
    split at hWaiter
    · cases hWaiter
    · rename_i hId
      refine .inl ((h.waiting id hWaiter).resolve_right ?_)
      rintro ⟨found, hOther⟩
      rw [hCurrent] at hOther
      cases hOther
      exact hId rfl

theorem sendResult_dispatcher (s : Dispatching) (waiter : Option Nat)
    (result : WorkerExecutionResult) : (s.sendResult waiter result).dispatcher = s.dispatcher := by
  unfold Dispatching.sendResult
  split <;> rfl

theorem Tables.callers (h : s.Tables) {dispatching : Dispatching}
    (hSame : dispatching.dispatcher = s.dispatcher) :
    Tables { s with toDispatching := dispatching } := by
  refine h.setDispatching ?_ ?_ ?_ ?_ <;> rw [hSame]
  · exact h.inOrder
  · exact fun _ hId => hId

/-- Cancelling the tasks of lost hosts changes the pending queue alone. -/
theorem cancelPendingTasks_dispatcher (s : Dispatching) (lostHosts : List WorkerHostId) :
    (s.cancelPendingTasksForLostHosts lostHosts).dispatcher =
      (s.dispatcher.cancelPendingTasksForLostHosts lostHosts).2 :=
  List.foldlRecOn (motive := fun s' : Dispatching => s'.dispatcher =
    (s.dispatcher.cancelPendingTasksForLostHosts lostHosts).2) _ _ rfl fun _ h _ _ => h

/-- A claim keeps the tables in step, if it is not cut off between them. -/
theorem Tables.stepClaim (h : s.Tables) {claim : ClaimCall} {action : SteppedAction}
    (hClaim : s.claims[index]? = some claim) (hStep : s.stepClaim index claim action = some s')
    (hUndivided : ∀ i, action = .cutClaim i → ∀ task, claim.point ≠ .leased task) : s'.Tables := by
  have hInv := h.claim claim (List.mem_of_getElem? hClaim)
  unfold ClaimInv at hInv
  unfold SteppedDispatcher.stepClaim at hStep
  split at hStep
  · split at hStep
    · rename_i hPoint
      simp only [hPoint] at hInv
      split at hStep <;> cases hStep
      · exact h.setClaim hClaim (by simp [hPoint]) (by simp) hInv
      · exact h
      · rename_i hTake
        exact h.takeTask hClaim hPoint (TaskDispatcher.takeTask_some hTake)
    · cases hStep
  · split at hStep
    · rename_i hPoint
      cases hStep
      exact h.insertWaiter hClaim hPoint
    · cases hStep
  · split at hStep
    · rename_i task hPoint
      cases hStep
      have hEnded : ClaimInv s.dispatcher { claim with point := .ended (some task.dispatch) } :=
        trivial
      exact (h.setClaim hClaim (by simp [hPoint]) (by simp) hEnded).callers rfl
    · cases hStep
  · rename_i i
    split at hStep
    · rename_i hPoint
      simp only [hPoint] at hInv
      cases hStep
      exact h.setClaim hClaim (by simp [hPoint]) (by simp) hInv
    · rename_i task hPoint
      exact absurd hPoint (hUndivided i rfl task)
    · cases hStep
  · cases hStep

/-- A completion does, if it is not cut off with a waiter in hand and removes
none that is just being registered. -/
theorem Tables.stepCompletion (h : s.Tables) {completion : Completion} {action : SteppedAction}
    (hCompletion : s.completions[index]? = some completion)
    (hStep : s.stepCompletion index completion action = some s')
    (hCut : ∀ i, action = .cutCompletion i →
      ∀ waiter, completion.point ≠ .removingLease (some waiter))
    (hUndivided : ∀ i, action = .removeWaiter i → ¬s.BetweenTables completion.result.taskId) :
    s'.Tables := by
  have hInv := h.completion completion (List.mem_of_getElem? hCompletion)
  unfold CompletionInv at hInv
  unfold SteppedDispatcher.stepCompletion at hStep
  split at hStep
  · split at hStep
    · rename_i hPoint
      split at hStep <;> cases hStep
      · rename_i hWorker
        obtain ⟨lease, hLease, _⟩ := Option.map_eq_some_iff.mp hWorker
        exact h.setCompletion hCompletion (by simp [hPoint]) (h.inOrder.leased _ lease hLease)
      · exact h.setCompletion hCompletion (by simp [hPoint]) trivial
    · cases hStep
  · rename_i i
    split at hStep
    · rename_i hPoint
      cases hStep
      exact h.removeWaiter hCompletion hPoint rfl (hUndivided i rfl)
    · cases hStep
  · split at hStep
    · rename_i hPoint
      cases hStep
      exact (h.removeLease hCompletion hPoint).callers (sendResult_dispatcher ..)
    · cases hStep
  · rename_i i
    split at hStep
    · rename_i hPoint
      cases hStep
      exact h.setCompletion hCompletion (by simp [hPoint]) trivial
    · rename_i hPoint
      cases hStep
      exact h.setCompletion hCompletion (by simp [hPoint]) trivial
    · rename_i waiter hPoint
      cases waiter with
      | some caller => exact absurd hPoint (hCut i rfl caller)
      | none =>
          cases hStep
          exact h.setCompletion hCompletion (by simp [hPoint]) trivial
    · cases hStep
  · cases hStep

/-- A claim that starts has nothing in hand, so no id comes between the
tables. -/
theorem Tables.startClaim (h : s.Tables) (worker : WorkerIdentity) : Tables { s with
    claims := s.claims ++ [{ worker := worker, taken := none, point := .looking }] } := by
  refine ⟨h.inOrder, List.forall_mem_append.mpr ⟨h.claim, by simp [ClaimInv]⟩, h.monitor,
    fun completion hCompletion => ?_, fun id hLease => ?_, h.waiting⟩
  · have hInv := h.completion completion hCompletion
    unfold CompletionInv at hInv ⊢
    dsimp only at hInv ⊢
    split at hInv
    · exact hInv
    · refine ⟨hInv.1, hInv.2.1, fun ⟨claim, hMem, task, hPoint, hId⟩ => ?_⟩
      rcases List.mem_append.mp hMem with hMem | hNew
      · exact hInv.2.2 ⟨claim, hMem, task, hPoint, hId⟩
      · cases List.mem_singleton.mp hNew
        cases hPoint
    · trivial
  · refine (h.leased id hLease).imp_right (Or.imp_left ?_)
    rintro ⟨claim, hMem, hTask⟩
    exact ⟨claim, List.mem_append_left _ hMem, hTask⟩

/-- A completion that starts has touched no table. -/
theorem Tables.startCompletion (h : s.Tables) (result : WorkerTaskResult) : Tables { s with
    completions := s.completions ++ [{ result := result, point := .checking }] } := by
  refine ⟨h.inOrder, h.claim, h.monitor,
    List.forall_mem_append.mpr ⟨h.completion, by simp [CompletionInv]⟩, fun id hLease => ?_,
    h.waiting⟩
  refine (h.leased id hLease).imp_right (Or.imp_right ?_)
  rintro ⟨completion, hMem, hPoint⟩
  exact ⟨completion, List.mem_append_left _ hMem, hPoint⟩

/-- A monitor that has no lease in hand may list any ids. -/
theorem Tables.setTimedOut (h : s.Tables) (hIdle : s.monitor.current = none)
    (timedOutTaskIds : List String) : Tables { s with monitor := ⟨timedOutTaskIds, none⟩ } := by
  refine ⟨h.inOrder, h.claim, (fun _ _ hNone => by cases hNone), h.completion, h.leased,
    fun id hWaiter => .inl ((h.waiting id hWaiter).resolve_right ?_)⟩
  rintro ⟨lease, hCurrent⟩
  rw [hIdle] at hCurrent
  cases hCurrent

/-- The tasks of lost hosts are cancelled while they are pending, so they are
in neither table. -/
theorem Tables.cancelPendingTasks (h : s.Tables) (lostHosts : List WorkerHostId) : Tables { s with
    toDispatching := s.toDispatching.cancelPendingTasksForLostHosts lostHosts } := by
  have hDispatcher := cancelPendingTasks_dispatcher s.toDispatching lostHosts
  have hShrinks : s.dispatcher.Shrinks
      (s.toDispatching.cancelPendingTasksForLostHosts lostHosts).dispatcher := by
    rw [hDispatcher]
    exact ⟨List.filter_sublist, rfl, rfl⟩
  have hLeases : (s.toDispatching.cancelPendingTasksForLostHosts lostHosts).dispatcher.inFlightTasks =
      s.dispatcher.inFlightTasks := by
    rw [hDispatcher]
    rfl
  refine h.setDispatching ?_ (fun _ hId => hId.shrinks hShrinks) hLeases ?_
  · exact h.inOrder.fewer hShrinks fun id lease hLease => hLeases ▸ hLease
  · rw [hDispatcher]
    rfl

/-- The same holds for the pending task of a caller that has given up. -/
theorem Tables.removePendingTask (h : s.Tables) (caller : Nat) : Tables { s with
    toDispatching := s.toDispatching.step (.removePendingTask caller) } := by
  simp only [Dispatching.step]
  split
  · split
    · have hShrinks (id : String) : s.dispatcher.Shrinks (s.dispatcher.removePendingTask id) :=
        ⟨List.eraseP_sublist, rfl, rfl⟩
      exact h.setDispatching (h.inOrder.fewer (hShrinks _) fun _ _ hLease => hLease)
        (fun _ hId => hId.shrinks (hShrinks _)) rfl rfl
    · exact h
  · exact h

/-- Every step that divides no operation keeps the tables in step. -/
theorem Tables.step (h : s.Tables) {action : SteppedAction} (hStep : s.step action = some s')
    (hUndivided : s.Undivided action) : s'.Tables := by
  cases action with
  | enqueueTask call timeout =>
      cases hStep
      exact h.setDispatching (h.inOrder.enqueueTask call timeout)
        (fun _ hId => hId.enqueueTask call timeout) rfl rfl
  | startClaim worker =>
      cases hStep
      exact h.startClaim worker
  | startCompletion result =>
      cases hStep
      exact h.startCompletion result
  | tick now =>
      simp only [SteppedDispatcher.step] at hStep
      split at hStep <;> cases hStep
      rename_i hIdle
      exact h.setTimedOut (Option.isNone_iff_eq_none.mp hIdle.2) _
  | timeOutLease taskId =>
      simp only [SteppedDispatcher.step] at hStep
      split at hStep
      · rename_i hListed
        have hIdle := Option.isNone_iff_eq_none.mp hListed.2
        split at hStep <;> cases hStep
        · exact h.setTimedOut hIdle _
        · rename_i lease hLease
          exact h.timeOutLease _ hLease hIdle hUndivided
      · cases hStep
  | timeOutWaiter =>
      simp only [SteppedDispatcher.step] at hStep
      split at hStep <;> cases hStep
      rename_i taskId lease hCurrent
      exact (h.timeOutWaiter hCurrent).callers (sendResult_dispatcher ..)
  | cancelPendingTasksForLostHosts lostHosts =>
      cases hStep
      exact h.cancelPendingTasks lostHosts
  | removePendingTask caller =>
      cases hStep
      exact h.removePendingTask caller
  | takeTask index now =>
      obtain ⟨claim, hClaim, hRest⟩ := Option.bind_eq_some_iff.mp hStep
      exact h.stepClaim hClaim hRest fun _ hAction => by cases hAction
  | insertWaiter index =>
      obtain ⟨claim, hClaim, hRest⟩ := Option.bind_eq_some_iff.mp hStep
      exact h.stepClaim hClaim hRest fun _ hAction => by cases hAction
  | notifyCaller index =>
      obtain ⟨claim, hClaim, hRest⟩ := Option.bind_eq_some_iff.mp hStep
      exact h.stepClaim hClaim hRest fun _ hAction => by cases hAction
  | cutClaim index =>
      obtain ⟨claim, hClaim, hRest⟩ := Option.bind_eq_some_iff.mp hStep
      exact h.stepClaim hClaim hRest fun _ _ => hUndivided claim hClaim
  | checkDispatch index =>
      obtain ⟨completion, hCompletion, hRest⟩ := Option.bind_eq_some_iff.mp hStep
      exact h.stepCompletion hCompletion hRest (fun _ hAction => by cases hAction)
        fun _ hAction => by cases hAction
  | removeWaiter index =>
      obtain ⟨completion, hCompletion, hRest⟩ := Option.bind_eq_some_iff.mp hStep
      exact h.stepCompletion hCompletion hRest (fun _ hAction => by cases hAction)
        fun _ _ => hUndivided completion hCompletion
  | removeLease index =>
      obtain ⟨completion, hCompletion, hRest⟩ := Option.bind_eq_some_iff.mp hStep
      exact h.stepCompletion hCompletion hRest (fun _ hAction => by cases hAction)
        fun _ hAction => by cases hAction
  | cutCompletion index =>
      obtain ⟨completion, hCompletion, hRest⟩ := Option.bind_eq_some_iff.mp hStep
      exact h.stepCompletion hCompletion hRest (fun _ _ => hUndivided completion hCompletion)
        fun _ hAction => by cases hAction

end SteppedDispatcher

end RelayFold
