import RelayFold.Adapters.ClaimSenders
import RelayFold.Library.WakeUps

/-! How claims wait for tasks (`task_dispatcher.rs`): an enqueued task notifies
one of the claims that wait, and the end of a lease notifies none. -/
namespace RelayFold

open WakeUps

/-- The stepped dispatcher with its notification cell; the parties of the cell
are the claims. -/
structure NotifiedDispatcher where
  tables : SteppedDispatcher
  taskAvailable : Notify

/-- A claim looks for a task, polls the cell if there is none, and goes on when
it is woken. The call of `notify_one` that follows an enqueued task is a step
of its own. -/
inductive NotifiedAction where
  | enqueueTask (call : DispatchCall) (timeout : Nat)
  | notifyOne (claim : Option Nat)
  | startClaim (worker : WorkerIdentity)
  | look (index : Nat) (now : UInt64)
  | poll (index : Nat)
  | resume (index : Nat)
  | cutClaim (index : Nat) (claim : Option Nat)
  | tables (action : SteppedAction)

/-- The steps that neither put a task into the list nor belong to the search of
a claim. -/
def SteppedAction.isOther : SteppedAction → Bool
  | enqueueTask .. | startClaim _ | takeTask .. | cutClaim _ => false
  | _ => true

namespace NotifiedDispatcher

/-- The claim has found no task. -/
def isLooking (tables : SteppedDispatcher) (index : Nat) : Bool :=
  tables.claims[index]?.any fun claim => match claim.point with
    | .looking => true
    | _ => false

def step (s : NotifiedDispatcher) : NotifiedAction → Option NotifiedDispatcher
  | .enqueueTask call timeout => do
      let tables ← s.tables.step (.enqueueTask call timeout)
      return ⟨tables, s.taskAvailable.announce⟩
  | .notifyOne claim => do
      let taskAvailable ← s.taskAvailable.settle claim
      return { s with taskAvailable := taskAvailable }
  | .startClaim worker => do
      let tables ← s.tables.step (.startClaim worker)
      return ⟨tables, s.taskAvailable.join⟩
  | .look index now =>
      match s.taskAvailable.parties[index]? with
      | some (.looking _) => do
          let tables ← s.tables.step (.takeTask index now)
          return ⟨tables, s.taskAvailable.moveTo index
            (if isLooking tables index then .unpolled else .left)⟩
      | _ => none
  | .poll index => do
      let taskAvailable ← s.taskAvailable.poll index
      return { s with taskAvailable := taskAvailable }
  | .resume index => do
      let taskAvailable ← s.taskAvailable.resume index
      return { s with taskAvailable := taskAvailable }
  | .cutClaim index claim => do
      let tables ← s.tables.step (.cutClaim index)
      let taskAvailable ← s.taskAvailable.drop index claim
      return ⟨tables, taskAvailable⟩
  | .tables action =>
      if action.isOther then do
        let tables ← s.tables.step action
        return { s with tables := tables }
      else none

abbrev Steps : NotifiedDispatcher → List NotifiedAction → NotifiedDispatcher → Prop :=
  Run fun s action s' => s.step action = some s'

def new (dispatchNamespace : String) (taskTimeout : Nat) : NotifiedDispatcher :=
  ⟨.new dispatchNamespace taskTimeout, .new⟩

end NotifiedDispatcher

/-- The lease keeps the task from the worker: it is the worker's, or for the
task's instance. -/
def DispatchLease.Holds (lease : DispatchLease) (worker : WorkerIdentity) (task : PendingTask) :
    Prop :=
  lease.workerId = worker.workerId ∨
    lease.ns = task.dispatch.ns ∧ lease.workflowInstanceId = task.dispatch.workflowInstId

namespace TaskDispatcher

/-- The worker has no lease and may take the task. -/
def CanTake (d : TaskDispatcher) (worker : WorkerIdentity) (task : PendingTask) : Prop :=
  isWorkerInFlight d.inFlightTasks worker.workerId = false ∧ d.isClaimable worker task = true

/-- A worker can take a task if the task's constraints admit it and no lease
keeps the worker or the instance busy. -/
theorem canTake_iff {d : TaskDispatcher} {worker : WorkerIdentity} {task : PendingTask} :
    d.CanTake worker task ↔ task.constraints.matchesWorker worker = true ∧
      ∀ id lease, d.inFlightTasks.lookup id = some lease → ¬lease.Holds worker task := by
  simp only [CanTake, isClaimable, isWorkerInFlight, isWorkflowInstanceTaskInFlight,
    Bool.and_eq_true, Bool.not_eq_true', Bool.eq_false_iff, ne_eq, FiniteMap.anyValue_iff,
    decide_eq_true_eq, DispatchLease.Holds]
  constructor
  · rintro ⟨hWorker, hMatches, hInstance⟩
    refine ⟨hMatches, fun id lease hLease hHolds => ?_⟩
    rcases hHolds with hSame | hSame
    · exact hWorker ⟨id, lease, hLease, hSame⟩
    · exact hInstance ⟨id, lease, hLease, hSame⟩
  · rintro ⟨hMatches, hFree⟩
    refine ⟨?_, hMatches, ?_⟩
    · rintro ⟨id, lease, hLease, hSame⟩
      exact hFree id lease hLease (.inl hSame)
    · rintro ⟨id, lease, hLease, hSame⟩
      exact hFree id lease hLease (.inr hSame)

/-- The worker of that number has a task it could take. -/
def HasWork (d : TaskDispatcher) (workers : List WorkerIdentity) (index : Nat) : Prop :=
  ∃ worker task, workers[index]? = some worker ∧ task ∈ d.pendingTasks ∧ d.CanTake worker task

variable {d d' : TaskDispatcher} {workers : List WorkerIdentity} {index : Nat}

/-- With fewer tasks and no fewer leases there is no new work. -/
theorem HasWork.of_fewer (hPending : d'.pendingTasks ⊆ d.pendingTasks)
    (hLeases : ∀ id lease, d.inFlightTasks.lookup id = some lease →
      d'.inFlightTasks.lookup id = some lease)
    (h : d'.HasWork workers index) : d.HasWork workers index := by
  obtain ⟨worker, task, hWorker, hTask, hTake⟩ := h
  obtain ⟨hMatches, hFree⟩ := canTake_iff.mp hTake
  exact ⟨worker, task, hWorker, hPending hTask, canTake_iff.mpr ⟨hMatches,
    fun id lease hLease => hFree id lease (hLeases id lease hLease)⟩⟩

/-- A task that is taken had no lease. -/
theorem Takes.leases (h : d.InOrder) {worker : WorkerIdentity} {now : UInt64} {task : PendingTask}
    (hTakes : d.Takes worker now task d') {id : String} {lease : DispatchLease}
    (hLease : d.inFlightTasks.lookup id = some lease) :
    d'.inFlightTasks.lookup id = some lease := by
  rw [hTakes.lookup, if_neg, hLease]
  rintro rfl
  exact (h.leased _ lease hLease).2 task hTakes.mem rfl

end TaskDispatcher

namespace SteppedDispatcher

variable {s s' : SteppedDispatcher} {index : Nat}

def workers (s : SteppedDispatcher) : List WorkerIdentity := s.claims.map (·.worker)

/-- A claim that goes on keeps its worker. -/
theorem workers_setClaim {claim claim' : ClaimCall} (hClaim : s.claims[index]? = some claim)
    (hSame : claim'.worker = claim.worker) : (s.setClaim index claim').workers = s.workers := by
  refine List.ext_getElem? fun i => ?_
  change ((s.claims.set index claim').map _)[i]? = (s.claims.map _)[i]?
  rw [List.getElem?_map, List.getElem?_map, List.getElem?_set]
  split
  · rename_i hIndex
    subst hIndex
    rw [if_pos (List.getElem?_eq_some_iff.mp hClaim).1, hClaim, Option.map_some, Option.map_some,
      hSame]
  · rfl

theorem workers_dropSenders (s : SteppedDispatcher) (caller : Option Nat) :
    (s.dropSenders caller).workers = s.workers := by
  unfold SteppedDispatcher.dropSenders
  split <;> rfl

/-- What a search for a task does: it takes one, or it leaves the dispatcher
alone. -/
theorem step_takeTask {now : UInt64} (h : s.step (.takeTask index now) = some s') :
    ∃ claim, s.claims[index]? = some claim ∧ claim.point = .looking ∧ s'.workers = s.workers ∧
      ((∃ task d', s.dispatcher.takeTask claim.worker now = .ok (some (task, d')) ∧
          s'.dispatcher = d' ∧ s'.claims[index]?.map (·.point) = some (.leased task)) ∨
        (s.dispatcher.takeTask claim.worker now = .ok none ∧ s' = s) ∨
        ((∃ error, s.dispatcher.takeTask claim.worker now = .error error) ∧
          s'.dispatcher = s.dispatcher ∧ s'.claims[index]?.map (·.point) = some (.ended none))) := by
  obtain ⟨claim, hClaim, hStep⟩ := Option.bind_eq_some_iff.mp h
  have hLength := (List.getElem?_eq_some_iff.mp hClaim).1
  refine ⟨claim, hClaim, ?_⟩
  simp only [stepClaim] at hStep
  split at hStep
  · rename_i hLooking
    refine ⟨hLooking, ?_⟩
    split at hStep
    · rename_i error hTake
      cases hStep
      refine ⟨workers_setClaim hClaim rfl, .inr (.inr ⟨⟨error, hTake⟩, rfl, ?_⟩)⟩
      simp [setClaim, hLength]
    · rename_i hTake
      cases hStep
      exact ⟨rfl, .inr (.inl ⟨hTake, rfl⟩)⟩
    · rename_i task d' hTake
      cases hStep
      refine ⟨workers_setClaim hClaim rfl, .inl ⟨task, d', hTake, rfl, ?_⟩⟩
      simp [setClaim, setDispatcher, hLength]
  · cases hStep

/-- A claim that is cut off leaves the other workers and the tables as they
are. -/
theorem step_cutClaim (h : s.step (.cutClaim index) = some s') :
    s'.workers = s.workers ∧ s'.dispatcher = s.dispatcher := by
  obtain ⟨claim, hClaim, hStep⟩ := Option.bind_eq_some_iff.mp h
  simp only [stepClaim] at hStep
  split at hStep
  · cases hStep
    exact ⟨workers_setClaim hClaim rfl, rfl⟩
  · cases hStep
    exact ⟨workers_setClaim hClaim rfl, rfl⟩
  · cases hStep

/-- The step removes the lease of the task. -/
def EndsLease (s : SteppedDispatcher) (action : SteppedAction) (taskId : String) : Prop :=
  action = .timeOutLease taskId ∨ ∃ index completion, action = .removeLease index ∧
    s.completions[index]? = some completion ∧ completion.result.taskId = taskId

/-- The other steps make no task and no claim, and keep the leases or end
one. -/
structure Other (s : SteppedDispatcher) (action : SteppedAction) (s' : SteppedDispatcher) : Prop where
  workers : s'.workers = s.workers
  shrinks : s.dispatcher.Shrinks s'.dispatcher
  leases : s'.dispatcher.inFlightTasks = s.dispatcher.inFlightTasks ∨
    ∃ taskId, s.EndsLease action taskId ∧
      s'.dispatcher.inFlightTasks = s.dispatcher.inFlightTasks.erase taskId

/-- The operations that neither claim nor enqueue add no claim and no task, and
end one lease at most. -/
theorem step_other {action : SteppedAction} (hOther : action.isOther = true)
    (h : s.step action = some s') : s.Other action s' := by
  have hTables {s' : SteppedDispatcher} (d : TaskDispatcher) (hDispatcher : s'.dispatcher = d)
      (hWorkers : s'.workers = s.workers) (hShrinks : s.dispatcher.Shrinks d)
      (hLeases : d.inFlightTasks = s.dispatcher.inFlightTasks) : s.Other action s' :=
    ⟨hWorkers, hDispatcher ▸ hShrinks, .inl (hDispatcher ▸ hLeases)⟩
  have hRefl {d : TaskDispatcher} : d.Shrinks d := ⟨.refl _, rfl, rfl⟩
  cases action with
  | enqueueTask _ _ | startClaim _ | takeTask _ _ | cutClaim _ => cases hOther
  | startCompletion result =>
      cases h
      exact hTables _ rfl rfl hRefl rfl
  | tick now =>
      simp only [step] at h
      split at h <;> cases h
      exact hTables _ rfl rfl hRefl rfl
  | timeOutLease taskId =>
      simp only [step] at h
      split at h
      · split at h <;> cases h
        · exact hTables _ rfl rfl hRefl rfl
        · exact ⟨rfl, ⟨.refl _, rfl, rfl⟩, .inr ⟨taskId, .inl rfl, rfl⟩⟩
      · cases h
  | timeOutWaiter =>
      simp only [step] at h
      split at h <;> cases h
      rename_i taskId lease _
      exact hTables (s.dispatcher.removeWaiter taskId) (sent_dispatcher ..) rfl ⟨.refl _, rfl, rfl⟩
        rfl
  | cancelPendingTasksForLostHosts lostHosts =>
      cases h
      exact hTables _ (cancelPendingTasks_dispatcher ..) rfl ⟨List.filter_sublist, rfl, rfl⟩ rfl
  | removePendingTask caller =>
      cases h
      unfold Dispatching.step
      dsimp only
      split
      · split
        · exact hTables _ rfl rfl ⟨List.eraseP_sublist, rfl, rfl⟩ rfl
        · exact hTables _ rfl rfl hRefl rfl
      · exact hTables _ rfl rfl hRefl rfl
  | insertWaiter index | notifyCaller index =>
      obtain ⟨claim, hClaim, hStep⟩ := Option.bind_eq_some_iff.mp h
      simp only [stepClaim] at hStep
      split at hStep <;> cases hStep
      exact hTables _ rfl (workers_setClaim hClaim rfl) ⟨.refl _, rfl, rfl⟩ rfl
  | checkDispatch index =>
      obtain ⟨completion, _, hStep⟩ := Option.bind_eq_some_iff.mp h
      simp only [stepCompletion] at hStep
      split at hStep
      · split at hStep <;> cases hStep <;> exact hTables _ rfl rfl hRefl rfl
      · cases hStep
  | removeWaiter index =>
      obtain ⟨completion, _, hStep⟩ := Option.bind_eq_some_iff.mp h
      simp only [stepCompletion] at hStep
      split at hStep <;> cases hStep
      exact hTables _ rfl rfl ⟨.refl _, rfl, rfl⟩ rfl
  | removeLease index =>
      obtain ⟨completion, hCompletion, hStep⟩ := Option.bind_eq_some_iff.mp h
      simp only [stepCompletion] at hStep
      split at hStep <;> cases hStep
      rename_i waiter _
      have hEnds : s.EndsLease (.removeLease index) completion.result.taskId :=
        .inr ⟨index, completion, rfl, hCompletion, rfl⟩
      refine ⟨rfl, ?_, .inr ⟨_, hEnds, ?_⟩⟩
      · change s.dispatcher.Shrinks (SteppedDispatcher.sent _ _ _).dispatcher
        rw [sent_dispatcher]
        exact ⟨.refl _, rfl, rfl⟩
      · exact congrArg (·.inFlightTasks) (sent_dispatcher ..)
  | cutCompletion index =>
      obtain ⟨completion, _, hStep⟩ := Option.bind_eq_some_iff.mp h
      simp only [stepCompletion] at hStep
      split at hStep <;> cases hStep
      · exact hTables _ rfl rfl hRefl rfl
      · exact hTables _ rfl rfl hRefl rfl
      · exact hTables _ (dropSenders_dispatcher ..) (workers_dropSenders ..) hRefl rfl

end SteppedDispatcher

namespace NotifiedDispatcher

/-- The claim has a worker that could take a pending task. -/
def HasWork (s : NotifiedDispatcher) (index : Nat) : Prop :=
  s.tables.dispatcher.HasWork s.tables.workers index

/-- A claim waits, a pending task is claimable by it, and no notification is on
its way. -/
def LostWakeUp (s : NotifiedDispatcher) : Prop :=
  ∃ index : Nat, s.taskAvailable.parties[index]? = some .waiting ∧ s.HasWork index ∧
    ¬s.taskAvailable.Outstanding

/-- No other claim that has found no task loses by the step.
- A claim that acts on the only notification looks for a task: a task that another such claim could
  take is kept from it by the lease the claim then inserts.
- A claim that acts on the only notification is cut: no other such claim could take a task.
- A lease ends without a notification: a task for such a claim is kept from it by another lease. -/
def Attends (s : NotifiedDispatcher) : NotifiedAction → Prop
  | .look index now => s.taskAvailable.ActsAlone index →
      ∀ claimer, s.tables.workers[index]? = some claimer →
      ∀ i worker task, i ≠ index → s.taskAvailable.Parked i → s.tables.workers[i]? = some worker →
        task ∈ s.tables.dispatcher.pendingTasks → s.tables.dispatcher.CanTake worker task →
        ∃ taken, s.tables.dispatcher.pendingTasks.find? (s.tables.dispatcher.isClaimable claimer) =
            some taken ∧ s.tables.dispatcher.CanTake claimer taken ∧
          (TaskDispatcher.leaseFor claimer now taken).Holds worker task
  | .cutClaim index _ => s.taskAvailable.ActsAlone index →
      ∀ i, i ≠ index → s.taskAvailable.Parked i → ¬s.HasWork i
  | .tables action => ∀ taskId, s.tables.EndsLease action taskId → ¬s.taskAvailable.Outstanding →
      ∀ i worker task, s.taskAvailable.Parked i → s.tables.workers[i]? = some worker →
        task ∈ s.tables.dispatcher.pendingTasks → task.constraints.matchesWorker worker = true →
        ∃ id lease, id ≠ taskId ∧ s.tables.dispatcher.inFlightTasks.lookup id = some lease ∧
          lease.Holds worker task
  | _ => True

/-- While a claim that has found no task could take one, a notification is on
its way. -/
structure Inv (s : NotifiedDispatcher) : Prop where
  inOrder : s.tables.dispatcher.InOrder
  parties : s.taskAvailable.parties.length = s.tables.workers.length
  attended : s.taskAvailable.Attended s.HasWork

variable {s s' : NotifiedDispatcher}

theorem Inv.new (dispatchNamespace : String) (taskTimeout : Nat) :
    (new dispatchNamespace taskTimeout).Inv where
  inOrder := (SteppedDispatcher.Tables.new dispatchNamespace taskTimeout).inOrder
  parties := rfl
  attended := .new

/-- Whether a claim is looking for a task can be read off its point. -/
theorem isLooking_of_point {tables : SteppedDispatcher} {index : Nat} {point : ClaimPoint}
    (h : tables.claims[index]?.map (·.point) = some point) :
    isLooking tables index = true ↔ point = .looking := by
  obtain ⟨claim, hClaim, rfl⟩ := Option.map_eq_some_iff.mp h
  unfold isLooking
  rw [hClaim, Option.any_some]
  cases claim.point <;> simp

theorem not_parked_of_moveTo {n : Notify} {index : Nat} {old : WaitPoint}
    (hOld : n.parties[index]? = some old) : ¬(n.moveTo index .left).Parked index := by
  unfold Notify.Parked
  rw [Notify.moveTo_self hOld]
  rintro (h | h) <;> cases h

/-- A claim that finds nothing begins to wait with the tables as it has just
seen them. -/
theorem Inv.look (h : s.Inv) {index : Nat} {now : UInt64} (hAttends : s.Attends (.look index now))
    (hStep : s.step (.look index now) = some s') : s'.Inv := by
  simp only [step] at hStep
  split at hStep
  · rename_i notified hParty
    obtain ⟨tables, hTables, hRest⟩ := Option.bind_eq_some_iff.mp hStep
    cases hRest
    have hWoken : s.taskAvailable.parties[index]? ≠ some .woken := by
      rw [hParty]
      intro hFalse
      cases hFalse
    obtain ⟨claim, hClaim, hLooking, hWorkers, hCases⟩ := SteppedDispatcher.step_takeTask hTables
    have hClaimer : s.tables.workers[index]? = some claim.worker := by
      rw [SteppedDispatcher.workers, List.getElem?_map, hClaim]
      rfl
    have hLength : (s.taskAvailable.moveTo index
        (if isLooking tables index then .unpolled else .left)).parties.length =
          tables.workers.length := by
      rw [Notify.length_moveTo, h.parties, hWorkers]
    rcases hCases with ⟨taken, d', hTake, hDispatcher, hPoint⟩ | ⟨hTake, rfl⟩ |
      ⟨⟨error, hTake⟩, hDispatcher, hPoint⟩
    · have hTakes := TaskDispatcher.takeTask_some hTake
      have hFound := (TaskDispatcher.takeTask_ok hTake).2
      have hLeft : isLooking tables index ≠ true := fun hLook => by
        cases (isLooking_of_point hPoint).mp hLook
      rw [if_neg hLeft] at hLength ⊢
      have hFewer (i : Nat) (hWork : tables.dispatcher.HasWork tables.workers i) : s.HasWork i := by
        rw [hWorkers, hDispatcher] at hWork
        exact hWork.of_fewer hTakes.sublist.subset fun id lease hLease =>
          hTakes.leases h.inOrder hLease
      refine ⟨by rw [hDispatcher]; exact h.inOrder.takes hTakes, hLength, ?_⟩
      refine (h.attended.mono fun i _ => hFewer i).moveTo hWoken
        (fun hParked => absurd hParked (not_parked_of_moveTo hParty))
        fun hAlone i hNe hParked hWork => ?_
      obtain ⟨worker, task, hWorker, hTask, hTakeable⟩ := hWork
      rw [hWorkers] at hWorker
      rw [hDispatcher] at hTask hTakeable
      obtain ⟨hMatches, hFree⟩ := TaskDispatcher.canTake_iff.mp hTakeable
      have hBefore : s.tables.dispatcher.CanTake worker task :=
        TaskDispatcher.canTake_iff.mpr ⟨hMatches, fun id lease hLease =>
          hFree id lease (hTakes.leases h.inOrder hLease)⟩
      obtain ⟨first, hFirst, _, hHolds⟩ := hAttends hAlone claim.worker hClaimer i worker task hNe
        hParked hWorker (hTakes.sublist.subset hTask) hBefore
      cases hFound.symm.trans hFirst
      refine hFree taken.dispatch.taskId _ ?_ hHolds
      rw [hTakes.lookup, if_pos rfl]
    · obtain ⟨hIdle, hFound⟩ := TaskDispatcher.takeTask_ok hTake
      have hLook : isLooking s.tables index = true :=
        (isLooking_of_point (congrArg (Option.map (·.point)) hClaim)).mpr hLooking
      rw [if_pos hLook] at hLength ⊢
      refine ⟨h.inOrder, hLength, h.attended.moveTo hWoken (fun _ => .inr ?_) ?_⟩
      · rintro ⟨worker, task, hWorker, hTask, _, hClaimable⟩
        cases hClaimer.symm.trans hWorker
        exact List.find?_eq_none.mp hFound task hTask hClaimable
      · rintro hAlone i hNe hParked ⟨worker, task, hWorker, hTask, hTakeable⟩
        obtain ⟨first, hFirst, _⟩ := hAttends hAlone claim.worker hClaimer i worker task hNe hParked
          hWorker hTask hTakeable
        cases hFound.symm.trans hFirst
    · have hLeft : isLooking tables index ≠ true := fun hLook => by
        cases (isLooking_of_point hPoint).mp hLook
      rw [if_neg hLeft] at hLength ⊢
      have hWork : HasWork ⟨tables, s.taskAvailable⟩ = s.HasWork := by
        funext i
        simp only [HasWork, hWorkers, hDispatcher]
      refine ⟨by rw [hDispatcher]; exact h.inOrder, hLength, ?_⟩
      change Notify.Attended _ (HasWork ⟨tables, s.taskAvailable⟩)
      rw [hWork]
      refine h.attended.moveTo hWoken
        (fun hParked => absurd hParked (not_parked_of_moveTo hParty)) ?_
      rintro hAlone i hNe hParked ⟨worker, task, hWorker, hTask, hTakeable⟩
      obtain ⟨first, _, ⟨hIdle, _⟩, _⟩ := hAttends hAlone claim.worker hClaimer i worker task hNe
        hParked hWorker hTask hTakeable
      unfold TaskDispatcher.takeTask at hTake
      rw [hIdle] at hTake
      simp only [Bool.false_eq_true, if_false] at hTake
      split at hTake <;> cases hTake
  · cases hStep

theorem Inv.setTaskAvailable (h : s.Inv) {taskAvailable : Notify}
    (hLength : taskAvailable.parties.length = s.taskAvailable.parties.length)
    (hAttended : taskAvailable.Attended s.HasWork) :
    Inv { s with taskAvailable := taskAvailable } :=
  ⟨h.inOrder, hLength.trans h.parties, hAttended⟩

/-- A claim that begins is looking, so it waits for nothing yet. -/
theorem Inv.startClaim (h : s.Inv) {worker : WorkerIdentity}
    (hStep : s.step (.startClaim worker) = some s') : s'.Inv := by
  cases hStep
  have hWorkers : SteppedDispatcher.workers { s.tables with claims := s.tables.claims ++
      [{ worker := worker, taken := none, point := .looking }] } = s.tables.workers ++ [worker] :=
    List.map_append
  refine ⟨h.inOrder, ?_, h.attended.join ?_⟩
  · rw [Notify.length_join, h.parties, hWorkers, List.length_append]
    rfl
  · rintro i hParked ⟨owner, task, hOwner, hTask, hTake⟩
    refine ⟨owner, task, ?_, hTask, hTake⟩
    have hLength : i < s.tables.workers.length := by
      rw [← h.parties]
      rcases hParked with hPoint | hPoint <;> exact (List.getElem?_eq_some_iff.mp hPoint).1
    rwa [hWorkers, List.getElem?_append_left hLength] at hOwner

/-- A claim that is cut off passes its notification on, or it was not the only
one to act on it. -/
theorem Inv.cutClaim (h : s.Inv) {index : Nat} {claim : Option Nat}
    (hAttends : s.Attends (.cutClaim index claim))
    (hStep : s.step (.cutClaim index claim) = some s') : s'.Inv := by
  obtain ⟨tables, hTables, hRest⟩ := Option.bind_eq_some_iff.mp hStep
  obtain ⟨taskAvailable, hDrop, hRest⟩ := Option.bind_eq_some_iff.mp hRest
  cases hRest
  obtain ⟨hWorkers, hDispatcher⟩ := SteppedDispatcher.step_cutClaim hTables
  refine ⟨by rw [hDispatcher]; exact h.inOrder, ?_, ?_⟩
  · rw [Notify.length_drop hDrop, h.parties, hWorkers]
  · unfold HasWork
    rw [hWorkers, hDispatcher]
    exact h.attended.drop hDrop hAttends

/-- What happens to the tables leaves every parked claim without work, or a
notification is under way. -/
theorem Inv.tables (h : s.Inv) {action : SteppedAction} (hAttends : s.Attends (.tables action))
    (hStep : s.step (.tables action) = some s') : s'.Inv := by
  simp only [step] at hStep
  split at hStep
  · rename_i hOther
    obtain ⟨tables, hTables, hRest⟩ := Option.bind_eq_some_iff.mp hStep
    cases hRest
    obtain ⟨hWorkers, hShrinks, hLeases⟩ := SteppedDispatcher.step_other hOther hTables
    have hFewer (id : String) (lease : DispatchLease)
        (hLease : tables.dispatcher.inFlightTasks.lookup id = some lease) :
        s.tables.dispatcher.inFlightTasks.lookup id = some lease := by
      rcases hLeases with hSame | ⟨taskId, _, hErase⟩
      · rwa [hSame] at hLease
      · rw [hErase, FiniteMap.lookup_erase_eq] at hLease
        split at hLease
        · cases hLease
        · exact hLease
    refine ⟨h.inOrder.fewer hShrinks hFewer, h.parties.trans (by rw [hWorkers]), ?_⟩
    change s.taskAvailable.Attended fun i => tables.dispatcher.HasWork tables.workers i
    rw [hWorkers]
    rcases hLeases with hSame | ⟨taskId, hEnds, hErase⟩
    · exact h.attended.mono fun i _ hWork => hWork.of_fewer hShrinks.pending.subset
        fun id lease hLease => by rwa [hSame]
    · rintro i hParked ⟨worker, task, hWorker, hTask, hTake⟩
      by_contra hOutstanding
      obtain ⟨hMatches, hFree⟩ := TaskDispatcher.canTake_iff.mp hTake
      obtain ⟨id, lease, hNe, hLease, hHolds⟩ := hAttends taskId hEnds hOutstanding i worker task
        hParked hWorker (hShrinks.pending.subset hTask) hMatches
      refine hFree id lease ?_ hHolds
      rw [hErase, FiniteMap.lookup_erase_eq, if_neg hNe, hLease]
  · cases hStep

/-- Every step that attends to the parked claims keeps the invariant. -/
theorem Inv.step (h : s.Inv) {action : NotifiedAction} (hAttends : s.Attends action)
    (hStep : s.step action = some s') : s'.Inv := by
  cases action with
  | enqueueTask call timeout =>
      cases hStep
      exact ⟨h.inOrder.enqueueTask call timeout, h.parties,
        (Notify.announce_outstanding _).attended⟩
  | notifyOne claim =>
      obtain ⟨taskAvailable, hSettle, hRest⟩ := Option.bind_eq_some_iff.mp hStep
      cases hRest
      exact h.setTaskAvailable (Notify.length_settle hSettle)
        (Notify.settle_outstanding hSettle).attended
  | startClaim worker => exact h.startClaim hStep
  | look index now => exact h.look hAttends hStep
  | poll index =>
      obtain ⟨taskAvailable, hPoll, hRest⟩ := Option.bind_eq_some_iff.mp hStep
      cases hRest
      exact h.setTaskAvailable (Notify.length_poll hPoll) (h.attended.poll hPoll)
  | resume index =>
      obtain ⟨taskAvailable, hResume, hRest⟩ := Option.bind_eq_some_iff.mp hStep
      cases hRest
      exact h.setTaskAvailable (Notify.length_resume hResume)
        (Notify.resume_outstanding hResume).attended
  | cutClaim index claim => exact h.cutClaim hAttends hStep
  | tables action => exact h.tables hAttends hStep

/-- Under the invariant no claim waits for a task that it could take with no
notification left to come. -/
theorem Inv.not_lostWakeUp (h : s.Inv) : ¬s.LostWakeUp := fun ⟨index, hWaiting, hWork, hNone⟩ =>
  hNone (h.attended index (.inr hWaiting) hWork)

abbrev AttendingSteps : NotifiedDispatcher → List NotifiedAction → NotifiedDispatcher → Prop :=
  Run fun s action s' => s.step action = some s' ∧ s.Attends action

/-- However enqueued tasks, claims, completions, timeouts and cancellations
interleave: if no step is taken from a claim that has found no task and no
longer gets a notification, none loses its wake-up. -/
theorem AttendingSteps.no_lost_wake_up {dispatchNamespace : String} {taskTimeout : Nat}
    {actions : List NotifiedAction}
    (run : AttendingSteps (new dispatchNamespace taskTimeout) actions s) : ¬s.LostWakeUp :=
  (run.invariant (P := Inv) (.new dispatchNamespace taskTimeout) fun _ _ _ h hStep =>
    h.step hStep.2 hStep.1).not_lostWakeUp

/-! A wake-up that reaches a claim that can use it, and two that are lost. -/

def homeWorker : WorkerIdentity := ⟨⟨"home-worker"⟩, ⟨"home"⟩⟩

def awayWorker : WorkerIdentity := ⟨⟨"away-worker"⟩, ⟨"away"⟩⟩

/-- A call whose task is pinned to the host of the home worker. -/
def pinnedCall : DispatchCall :=
  { Dispatching.sampleCall "draft" 300 with constraints := ⟨some homeWorker.hostId⟩ }

/-- A call for the same instance that any worker may take. -/
def unpinnedCall : DispatchCall :=
  { Dispatching.sampleCall "review" 300 with constraints := ⟨none⟩ }

def noClaimParked (s : NotifiedDispatcher) (_ : NotifiedAction) : Bool :=
  s.taskAvailable.parties.all fun point => point ≠ .unpolled ∧ point ≠ .waiting

def attendsCheck (s : NotifiedDispatcher) (action : NotifiedAction) : Bool :=
  match action with
  | .look _ _ | .cutClaim _ _ | .tables _ => noClaimParked s action
  | _ => true

/-- A sufficient condition for attending that can be evaluated. -/
theorem attends_of_check {action : NotifiedAction} (h : attendsCheck s action = true) :
    s.Attends action := by
  have hNone (h : noClaimParked s action = true) (i : Nat) : ¬s.taskAvailable.Parked i := by
    intro hParked
    have hAll := List.all_eq_true.mp h
    rcases hParked with hPoint | hPoint <;>
    · have hNe := hAll _ (List.mem_iff_getElem?.mpr ⟨i, hPoint⟩)
      simp at hNe
  cases action with
  | enqueueTask _ _ | notifyOne _ | startClaim _ | poll _ | resume _ => trivial
  | look index now => exact fun _ _ _ i _ _ _ hParked => absurd hParked (hNone h i)
  | cutClaim index claim => exact fun _ i _ hParked => absurd hParked (hNone h i)
  | tables action => exact fun _ _ _ i _ _ hParked => absurd hParked (hNone h i)

/-- The claim waits, is woken by the enqueued task and takes it. -/
def wokenActions : List NotifiedAction :=
  [.startClaim homeWorker, .look 0 0, .poll 0, .enqueueTask pinnedCall 300000, .notifyOne (some 0),
    .resume 0, .look 0 0, .tables (.insertWaiter 0), .tables (.notifyCaller 0)]

theorem wokenActions_runs : (wokenActions.foldlM (fun s action =>
    if attendsCheck s action then step s action else none) (new "1" 300000)).isSome := by
  decide +kernel

/-- At the end of the sample run nobody waits for a task that was announced to
no one. -/
theorem AttendingSteps.no_lost_wake_up_woken :
    ¬((wokenActions.foldlM (fun s action => if attendsCheck s action then step s action else none)
      (new "1" 300000)).get wokenActions_runs).LostWakeUp :=
  AttendingSteps.no_lost_wake_up ((Run.of_guarded (Option.some_get wokenActions_runs).symm).mono
    fun _ _ _ h => ⟨h.1, attends_of_check h.2⟩)

/-- Two claims wait, and the task of the second wakes the first, which waits
again. -/
def wrongClaimWoken : List NotifiedAction :=
  [.startClaim awayWorker, .look 0 0, .poll 0, .startClaim homeWorker, .look 1 0, .poll 1,
    .enqueueTask pinnedCall 300000, .notifyOne (some 0), .resume 0, .look 0 0, .poll 0]

theorem wrongClaimWoken_runs :
    (wrongClaimWoken.foldlM step (new "1" 300000)).isSome := by
  decide +kernel

/-- Two tasks of one instance: the second waits for the lease of the first,
whose end wakes nobody. -/
def freedByCompletion : List NotifiedAction :=
  [.enqueueTask pinnedCall 300000, .notifyOne none, .startClaim homeWorker, .look 0 0,
    .tables (.insertWaiter 0), .tables (.notifyCaller 0), .enqueueTask unpinnedCall 300000,
    .notifyOne none, .startClaim awayWorker, .look 1 0, .poll 1, .look 1 0, .poll 1,
    .tables (.startCompletion ⟨"draft-1-0", .success .null⟩), .tables (.checkDispatch 0),
    .tables (.removeWaiter 0), .tables (.removeLease 0)]

/-- A completion frees a worker whose claim waits, without a notification. -/
theorem freedByCompletion_runs :
    (freedByCompletion.foldlM step (new "1" 300000)).isSome := by
  decide +kernel

instance (d : TaskDispatcher) (worker : WorkerIdentity) (task : PendingTask) :
    Decidable (d.CanTake worker task) := inferInstanceAs (Decidable (_ ∧ _))

theorem lostWakeUp_of_check (index : Nat) (worker : WorkerIdentity)
    (hWaiting : s.taskAvailable.parties[index]? = some .waiting)
    (hWorker : s.tables.workers[index]? = some worker)
    (hTask : ∃ task ∈ s.tables.dispatcher.pendingTasks, s.tables.dispatcher.CanTake worker task)
    (hNone : ¬s.taskAvailable.Outstanding) : s.LostWakeUp :=
  ⟨index, hWaiting, hTask.elim fun task hTask => ⟨worker, task, hWorker, hTask⟩, hNone⟩

/-- A notification that reaches a claim on the wrong host is used up, and
the end of a lease gives none: in both runs a claim waits for a task it
could take. -/
theorem wake_up_lost :
    (∃ s, Steps (new "1" 300000) wrongClaimWoken s ∧ s.LostWakeUp) ∧
    ∃ s, Steps (new "1" 300000) freedByCompletion s ∧ s.LostWakeUp := by
  refine ⟨⟨_, Run.of_foldlM (Option.some_get wrongClaimWoken_runs).symm, ?_⟩,
    _, Run.of_foldlM (Option.some_get freedByCompletion_runs).symm, ?_⟩
  · exact lostWakeUp_of_check 1 homeWorker (by decide +kernel) (by decide +kernel)
      (by decide +kernel) (by decide +kernel)
  · exact lostWakeUp_of_check 1 awayWorker (by decide +kernel) (by decide +kernel)
      (by decide +kernel) (by decide +kernel)

end NotifiedDispatcher

end RelayFold
