import RelayFold.Adapters.DispatcherLeases

/-! The dispatcher with a claim, a completion and the timeout monitor in single
steps: each takes one lock after the other, and a request may be dropped while
it waits for one. -/
namespace RelayFold

/-- Where a call of `claim_task` is. It waits for a task, then for the lock of
the waiters. -/
inductive ClaimPoint where
  | looking
  | leased (task : PendingTask)
  | notifying (task : PendingTask)
  | ended (dispatch : Option TaskDispatch)

/-- The claim has inserted its lease and has not finished. -/
def ClaimPoint.isBetween : ClaimPoint → Bool
  | leased _ | notifying _ => true
  | _ => false

/-- A call of `claim_task`, with the task whose lease it has inserted. -/
structure ClaimCall where
  worker : WorkerIdentity
  taken : Option PendingTask
  point : ClaimPoint

/-- The expired leases that the monitor has listed, and the one it has
removed. -/
structure TimeoutMonitor where
  timedOutTaskIds : List String
  current : Option (String × DispatchLease)

inductive CompletionPoint where
  | checking
  | removingWaiter
  | removingLease (waiter : Option Nat)
  | ended

def CompletionPoint.isBetween : CompletionPoint → Bool
  | removingLease _ => true
  | _ => false

/-- A call of `complete_worker_task`. -/
structure Completion where
  result : WorkerTaskResult
  point : CompletionPoint

structure SteppedDispatcher extends Dispatching where
  claims : List ClaimCall
  monitor : TimeoutMonitor
  completions : List Completion

inductive SteppedAction where
  | enqueueTask (call : DispatchCall) (timeout : Nat)
  | startClaim (worker : WorkerIdentity)
  | takeTask (index : Nat) (now : UInt64)
  | insertWaiter (index : Nat)
  | notifyCaller (index : Nat)
  | cutClaim (index : Nat)
  | tick (now : UInt64)
  | timeOutLease (taskId : String)
  | timeOutWaiter
  | startCompletion (result : WorkerTaskResult)
  | checkDispatch (index : Nat)
  | removeWaiter (index : Nat)
  | removeLease (index : Nat)
  | cutCompletion (index : Nat)
  | cancelPendingTasksForLostHosts (lostHosts : List WorkerHostId)
  | removePendingTask (caller : Nat)

/-- The call of `claim_task` whose step it is. -/
def SteppedAction.claim : SteppedAction → Option Nat
  | takeTask index _ | insertWaiter index | notifyCaller index | cutClaim index => some index
  | _ => none

namespace SteppedDispatcher

def setClaim (s : SteppedDispatcher) (index : Nat) (claim : ClaimCall) : SteppedDispatcher :=
  { s with claims := s.claims.set index claim }

def setCompletion (s : SteppedDispatcher) (index : Nat) (completion : Completion) :
    SteppedDispatcher :=
  { s with completions := s.completions.set index completion }

def setDispatcher (s : SteppedDispatcher) (dispatcher : TaskDispatcher) : SteppedDispatcher :=
  { s with dispatcher := dispatcher }

/-- The senders of the call are dropped. -/
def dropSenders (s : SteppedDispatcher) (caller : Option Nat) : SteppedDispatcher :=
  match caller with
  | some caller => { s with toDispatching :=
      s.toDispatching.modifyCaller caller fun c => { c with dropped := true } }
  | none => s

def sent (s : SteppedDispatcher) (waiter : Option Nat) (result : WorkerExecutionResult) :
    SteppedDispatcher :=
  { s with toDispatching := s.toDispatching.sendResult waiter result }

def stepClaim (s : SteppedDispatcher) (index : Nat) (claim : ClaimCall) :
    SteppedAction → Option SteppedDispatcher
  | .takeTask _ now =>
      match claim.point with
      | .looking =>
          match s.dispatcher.takeTask claim.worker now with
          | .error _ => some (s.setClaim index { claim with point := .ended none })
          | .ok none => some s
          | .ok (some (task, dispatcher)) => some ((s.setDispatcher dispatcher).setClaim index
              { claim with taken := some task, point := .leased task })
      | _ => none
  | .insertWaiter _ =>
      match claim.point with
      | .leased task => some ((s.setDispatcher (s.dispatcher.insertWaiter task)).setClaim index
          { claim with point := .notifying task })
      | _ => none
  | .notifyCaller _ =>
      match claim.point with
      | .notifying task =>
          let dispatching := s.toDispatching.modifyCaller task.caller fun c =>
            { c with claimed := true }
          some ({ s with toDispatching := dispatching }.setClaim index
            { claim with point := .ended (some task.dispatch) })
      | _ => none
  -- The claim timeout or a dropped request. Between the last two steps there is no await.
  | .cutClaim _ =>
      match claim.point with
      | .looking => some (s.setClaim index { claim with point := .ended none })
      | .leased task => some ((s.dropSenders (some task.caller)).setClaim index
          { claim with point := .ended none })
      | _ => none
  | _ => none

def stepCompletion (s : SteppedDispatcher) (index : Nat) (completion : Completion) :
    SteppedAction → Option SteppedDispatcher
  | .checkDispatch _ =>
      match completion.point with
      | .checking =>
          match s.dispatcher.workerForActiveDispatch completion.result.taskId with
          | some _ => some (s.setCompletion index { completion with point := .removingWaiter })
          | none => some (s.setCompletion index { completion with point := .ended })
      | _ => none
  | .removeWaiter _ =>
      match completion.point with
      | .removingWaiter =>
          let taskId := completion.result.taskId
          let waiter := s.dispatcher.resultWaiters.lookup taskId
          some ((s.setDispatcher (s.dispatcher.removeWaiter taskId)).setCompletion index
            { completion with point := .removingLease waiter })
      | _ => none
  | .removeLease _ =>
      match completion.point with
      | .removingLease waiter =>
          let dispatcher := s.dispatcher.removeLease completion.result.taskId
          some (((s.setDispatcher dispatcher).sent waiter completion.result.result).setCompletion
            index { completion with point := .ended })
      | _ => none
  | .cutCompletion _ =>
      match completion.point with
      | .checking | .removingWaiter =>
          some (s.setCompletion index { completion with point := .ended })
      | .removingLease waiter => some ((s.dropSenders waiter).setCompletion index
          { completion with point := .ended })
      | .ended => none
  | _ => none

def step (s : SteppedDispatcher) : SteppedAction → Option SteppedDispatcher
  | .enqueueTask call timeout =>
      some { s with toDispatching := s.toDispatching.enqueueTask call timeout }
  | .startClaim worker =>
      some { s with claims := s.claims ++ [{ worker := worker, taken := none, point := .looking }] }
  | .startCompletion result =>
      some { s with completions := s.completions ++ [{ result := result, point := .checking }] }
  | .tick now =>
      if s.monitor.timedOutTaskIds = [] ∧ s.monitor.current.isNone then
        some { s with monitor := ⟨s.dispatcher.timedOutTaskIds now, none⟩ }
      else none
  | .timeOutLease taskId =>
      if taskId ∈ s.monitor.timedOutTaskIds ∧ s.monitor.current.isNone then
        let rest := s.monitor.timedOutTaskIds.erase taskId
        match s.dispatcher.inFlightTasks.lookup taskId with
        | none => some { s with monitor := ⟨rest, none⟩ }
        | some lease => some { s.setDispatcher (s.dispatcher.removeLease taskId) with
            monitor := ⟨rest, some (taskId, lease)⟩ }
      else none
  | .timeOutWaiter =>
      match s.monitor.current with
      | some (taskId, lease) =>
          let waiter := s.dispatcher.resultWaiters.lookup taskId
          some { (s.setDispatcher (s.dispatcher.removeWaiter taskId)).sent waiter
              (TaskDispatcher.timeoutResult taskId lease) with
            monitor := ⟨s.monitor.timedOutTaskIds, none⟩ }
      | none => none
  | .cancelPendingTasksForLostHosts lostHosts => some { s with
      toDispatching := s.toDispatching.cancelPendingTasksForLostHosts lostHosts }
  | .removePendingTask caller => some { s with
      toDispatching := s.toDispatching.step (.removePendingTask caller) }
  | .takeTask index now => do s.stepClaim index (← s.claims[index]?) (.takeTask index now)
  | .insertWaiter index => do s.stepClaim index (← s.claims[index]?) (.insertWaiter index)
  | .notifyCaller index => do s.stepClaim index (← s.claims[index]?) (.notifyCaller index)
  | .cutClaim index => do s.stepClaim index (← s.claims[index]?) (.cutClaim index)
  | .checkDispatch index => do
      s.stepCompletion index (← s.completions[index]?) (.checkDispatch index)
  | .removeWaiter index => do
      s.stepCompletion index (← s.completions[index]?) (.removeWaiter index)
  | .removeLease index => do
      s.stepCompletion index (← s.completions[index]?) (.removeLease index)
  | .cutCompletion index => do
      s.stepCompletion index (← s.completions[index]?) (.cutCompletion index)

abbrev Steps : SteppedDispatcher → List SteppedAction → SteppedDispatcher → Prop :=
  Run fun s action s' => s.step action = some s'

def new (dispatchNamespace : String) (taskTimeout : Nat) : SteppedDispatcher where
  toDispatching := Dispatching.new dispatchNamespace taskTimeout
  claims := []
  monitor := ⟨[], none⟩
  completions := []

/-- A claim of the task has inserted the lease and not yet the waiter. -/
def BetweenTables (s : SteppedDispatcher) (taskId : String) : Prop :=
  ∃ claim ∈ s.claims, ∃ task, claim.point = .leased task ∧ task.dispatch.taskId = taskId

/-- The step does not get between a claim's lease and its waiter, and does not
cut off a completion that has taken the waiter. -/
def Undivided (s : SteppedDispatcher) : SteppedAction → Prop
  | .cutClaim index => ∀ claim, s.claims[index]? = some claim → ∀ task, claim.point ≠ .leased task
  | .timeOutLease taskId => ¬s.BetweenTables taskId
  | .removeWaiter index => ∀ completion, s.completions[index]? = some completion →
      ¬s.BetweenTables completion.result.taskId
  | .cutCompletion index => ∀ completion, s.completions[index]? = some completion →
      ∀ waiter, completion.point ≠ .removingLease (some waiter)
  | _ => True

abbrev UndividedSteps : SteppedDispatcher → List SteppedAction → SteppedDispatcher → Prop :=
  Run fun s action s' => s.step action = some s' ∧ s.Undivided action

/-- No operation is between its steps. -/
structure Quiescent (s : SteppedDispatcher) : Prop where
  claims : ∀ claim ∈ s.claims, claim.point.isBetween = false
  monitor : s.monitor.current.isNone
  completions : ∀ completion ∈ s.completions, completion.point.isBetween = false

instance (s : SteppedDispatcher) : Decidable s.Quiescent :=
  decidable_of_iff ((∀ claim ∈ s.claims, claim.point.isBetween = false) ∧
    s.monitor.current.isNone ∧ ∀ completion ∈ s.completions, completion.point.isBetween = false)
    ⟨fun h => ⟨h.1, h.2.1, h.2.2⟩, fun h => ⟨h.claims, h.monitor, h.completions⟩⟩

end SteppedDispatcher

end RelayFold
