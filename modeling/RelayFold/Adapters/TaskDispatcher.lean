import RelayFold.Core.AttemptIds
import RelayFold.Core.Worker
import RelayFold.Engine.TaskResults

/-! The task dispatcher (`task_dispatcher.rs`): dispatched tasks wait in a
list, workers claim them under leases, and the results go back to the
dispatch calls. The functions are the sections that hold the locks of the
three tables. -/
namespace RelayFold

inductive WorkerExecutionResult where
  | success (output : Json)
  | inputNeeded (description : String)
  | failure (reason : String)

structure WorkerTaskResult where
  taskId : String
  result : WorkerExecutionResult

structure TaskDispatch where
  ns : Namespace
  workflowInstId : String
  taskId : String
  task : TaskDef
  inputs : List Json
  executionMetadata : ExecutionMetadata
  humanInputProvided : Option String

/-- A task that waits for a worker. The senders `result_tx` and `claimed_tx` go
to the dispatch call of number `caller`. Timeouts are in milliseconds. -/
structure PendingTask where
  dispatch : TaskDispatch
  constraints : TaskDispatchConstraints
  caller : Nat
  timeout : Nat

/-- The three tables, each behind its own mutex. A result waiter is the number
of the dispatch call that holds the receiver. -/
structure TaskDispatcher where
  pendingTasks : List PendingTask
  inFlightTasks : FiniteMap String DispatchLease
  resultWaiters : FiniteMap String Nat
  dispatchNamespace : String
  nextDispatchId : Nat
  taskTimeout : Nat

/-- The text of a `Duration` of whole milliseconds. -/
def durationDebug (millis : Nat) : String :=
  let secs := millis / 1000
  let fraction := (((toString (1000 + millis % 1000)).toList.drop 1).reverse.dropWhile
    (· = '0')).reverse
  if millis = 0 then "0ns"
  else if secs = 0 then s!"{millis}ms"
  else if fraction.isEmpty then s!"{secs}s"
  else toString secs ++ "." ++ String.ofList fraction ++ "s"

namespace TaskDispatcher

def new (dispatchNamespace : String) (taskTimeout : Nat) : TaskDispatcher where
  pendingTasks := []
  inFlightTasks := ∅
  resultWaiters := ∅
  dispatchNamespace := dispatchNamespace
  nextDispatchId := 0
  taskTimeout := taskTimeout

/-- `format!("{}-{}-{}", task.id, dispatch_namespace, next_dispatch_id)`. -/
def dispatchId (dispatchNamespace taskDefId : String) (number : Nat) : String :=
  taskDefId ++ "-" ++ dispatchNamespace ++ "-" ++ toString number

/-- The id of the next call. -/
def nextTaskId (d : TaskDispatcher) (task : TaskDef) : String :=
  dispatchId d.dispatchNamespace task.id d.nextDispatchId

/-- `enqueue_task` up to where it waits to be claimed. -/
def enqueueTask (d : TaskDispatcher) (call : DispatchCall) (timeout : Nat) : TaskDispatcher :=
  let dispatch : TaskDispatch := {
    ns := call.ns
    workflowInstId := call.workflowInstanceId
    taskId := d.nextTaskId call.taskDef
    task := call.taskDef
    inputs := call.inputs
    executionMetadata := call.metadata
    humanInputProvided := call.metadata.humanInputProvided }
  { d with
    nextDispatchId := d.nextDispatchId + 1
    pendingTasks := d.pendingTasks ++
      [{ dispatch := dispatch, constraints := call.constraints, caller := d.nextDispatchId,
         timeout := timeout }] }

def dispatchTask (d : TaskDispatcher) (call : DispatchCall) : TaskDispatcher :=
  let timeout := (call.taskDef.timeoutSecs.map fun secs => secs.toNat * 1000).getD d.taskTimeout
  d.enqueueTask call timeout

def isWorkflowInstanceTaskInFlight (inFlightTasks : FiniteMap String DispatchLease)
    (task : PendingTask) : Bool :=
  inFlightTasks.anyValue fun lease =>
    lease.ns = task.dispatch.ns ∧ lease.workflowInstanceId = task.dispatch.workflowInstId

def isWorkerInFlight (leases : FiniteMap String DispatchLease) (workerId : WorkerId) : Bool :=
  leases.anyValue fun lease => lease.workerId = workerId

/-- The worker may take the task now. -/
def isClaimable (d : TaskDispatcher) (worker : WorkerIdentity) (task : PendingTask) : Bool :=
  task.constraints.matchesWorker worker &&
    !isWorkflowInstanceTaskInFlight d.inFlightTasks task

def leaseFor (worker : WorkerIdentity) (now : UInt64) (task : PendingTask) : DispatchLease where
  dispatchId := task.dispatch.taskId
  ns := task.dispatch.ns
  workflowInstanceId := task.dispatch.workflowInstId
  taskAttemptId := makeTaskAttemptId task.dispatch.task.id
    task.dispatch.executionMetadata.generationIndex
  workerId := worker.workerId
  hostId := worker.hostId
  claimedAtEpochMs := now
  expiresAtEpochMs := now + UInt64.ofNat task.timeout

/-- The section of `claim_task` under the locks of leases and pending tasks.
Without a task for the worker the call waits and tries again. -/
def takeTask (d : TaskDispatcher) (worker : WorkerIdentity) (now : UInt64) :
    Except String (Option (PendingTask × TaskDispatcher)) :=
  if isWorkerInFlight d.inFlightTasks worker.workerId then .error "Worker has active lease"
  else
    match d.pendingTasks.find? (d.isClaimable worker) with
    | none => .ok none
    | some task => .ok <| some (task, { d with
        pendingTasks := d.pendingTasks.eraseP (d.isClaimable worker)
        inFlightTasks := d.inFlightTasks.insert task.dispatch.taskId (leaseFor worker now task) })

def insertWaiter (d : TaskDispatcher) (task : PendingTask) : TaskDispatcher :=
  { d with resultWaiters := d.resultWaiters.insert task.dispatch.taskId task.caller }

def removeWaiter (d : TaskDispatcher) (taskId : String) : TaskDispatcher :=
  { d with resultWaiters := d.resultWaiters.erase taskId }

def removeLease (d : TaskDispatcher) (taskId : String) : TaskDispatcher :=
  { d with inFlightTasks := d.inFlightTasks.erase taskId }

def workerForActiveDispatch (d : TaskDispatcher) (taskId : String) : Option WorkerId :=
  (d.inFlightTasks.lookup taskId).map (·.workerId)

/-- The pending tasks that are cancelled, and the dispatcher without them. -/
def cancelPendingTasksForLostHosts (d : TaskDispatcher) (lostHosts : List WorkerHostId) :
    List PendingTask × TaskDispatcher :=
  let pinnedHostLost (task : PendingTask) : Bool :=
    task.constraints.pinnedHostId.any (· ∈ lostHosts)
  (d.pendingTasks.filter pinnedHostLost,
    { d with pendingTasks := d.pendingTasks.filter fun task => !pinnedHostLost task })

/-- The leases that the timeout monitor finds expired. -/
def timedOutTaskIds (d : TaskDispatcher) (now : UInt64) : List String :=
  (d.inFlightTasks.toList.filter fun entry => entry.2.isExpiredAt now).map Prod.fst

def timeoutResult (taskId : String) (lease : DispatchLease) : WorkerExecutionResult :=
  let timeout := durationDebug (lease.expiresAtEpochMs - lease.claimedAtEpochMs).toNat
  .failure s!"task {taskId} timed out after {timeout}"

def removePendingTask (d : TaskDispatcher) (taskId : String) : TaskDispatcher :=
  { d with pendingTasks := d.pendingTasks.eraseP fun task => task.dispatch.taskId = taskId }

end TaskDispatcher

end RelayFold
