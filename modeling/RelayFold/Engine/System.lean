import RelayFold.Library.Runs
import RelayFold.Core.EventReplay
import RelayFold.Engine.Pass

/-! One instance and everyone who writes it: engine passes, the workflow
service, host loss and startup recovery (`workflow_service.rs`,
`orchestrator.rs`). -/
namespace RelayFold

open WorkflowStateManager WorkflowEngine

namespace WorkflowService

/-- The attempt a request means: an attempt id, or the latest attempt of a task
id. -/
def resolveTaskAttemptId (workflow : WorkflowInstance) (requestedTaskId : String)
    (requestedGeneration : Option UInt32) : Except String String :=
  let normalizedTaskId := toAsciiLowercase requestedTaskId
  match requestedGeneration with
  | some generation =>
      if generation = 0 then .error "generation must be positive"
      else .ok (makeTaskAttemptId normalizedTaskId generation.toNat)
  | none =>
      if (workflow.tasks.lookup requestedTaskId).isSome then .ok requestedTaskId
      else if normalizedTaskId ≠ requestedTaskId ∧
          (workflow.tasks.lookup normalizedTaskId).isSome then .ok normalizedTaskId
      else
        match latestMaterializedAttemptId workflow normalizedTaskId with
        | some taskAttemptId => .ok taskAttemptId
        | none => .error s!"task {requestedTaskId} not found"

def loadRetryableTask (workflow : WorkflowInstance) (taskId : String) : Except String String :=
  let id := workflow.id
  if workflow.status ≠ .failed then .error s!"workflow instance {id} is not failed"
  else do
    let taskAttemptId ← resolveTaskAttemptId workflow taskId none
    match workflow.tasks.lookup taskAttemptId with
    | none => .error s!"task {taskId} not found"
    | some task =>
        if task.status ≠ .failed then .error s!"task {taskId} is not failed"
        else .ok taskAttemptId

/-- The attempt that waits for the input, if a continuation of it may be
created. -/
def loadWaitingTask (definitions : String → Option WorkflowDef) (workflow : WorkflowInstance)
    (taskId : String) : Except String (String × String) :=
  let id := workflow.id
  if workflow.status ≠ .inputNeeded then
    .error s!"workflow instance {id} is not waiting for input"
  else do
    let taskAttemptId ← resolveTaskAttemptId workflow taskId none
    match workflow.tasks.lookup taskAttemptId with
    | none => .error s!"task {taskId} not found"
    | some task =>
        if !task.status.isInputNeeded then .error s!"task {taskId} is not waiting for input"
        else
          let defId := workflow.workflowDefId
          match definitions defId with
          | none => .error s!"workflow definition {defId} not found"
          | some definition =>
              let taskDefId := task.taskDefId
              match definition.findTask taskDefId with
              | none => .error s!"task definition {taskDefId} not found"
              | some taskDef =>
                  if !taskDef.kind.isAgent then .error s!"task {taskId} is not an Agent task"
                  else
                    let next :=
                      makeTaskAttemptId taskDefId (continuationGeneration task.generationIndex)
                    if (workflow.tasks.lookup next).isSome then
                      .error s!"task {taskId} already has a materialized continuation attempt"
                    else .ok (taskAttemptId, next)

end WorkflowService

open WorkflowService

/-- The requests that write an instance with one commit. -/
inductive Request where
  | pauseWorkflow
  | resumeWorkflow
  | submitHumanInput (taskId : String) (submittedInput : Json)
  | retryTask (taskId : String)
  | forceRetryTask (taskId : String) (targetHostId : WorkerHostId)
  | failPinnedToLostHosts (lostHosts : List WorkerHostId)

/-- What a request commits on the snapshot it has read: nothing, a batch, or it
fails. -/
def Request.batch (definitions : String → Option WorkflowDef) (workflow : WorkflowInstance) :
    Request → Except String (Option (List WorkflowInstanceEvent))
  | pauseWorkflow =>
      let id := workflow.id
      match workflow.status with
      | .pending | .running => .ok (some [.workflowStatusChanged .paused])
      | .paused => .ok none
      | _ => .error s!"workflow instance {id} cannot be paused from its current status"
  | resumeWorkflow =>
      let id := workflow.id
      if workflow.status ≠ .paused then .error s!"workflow instance {id} is not paused"
      else .ok (some [.workflowStatusChanged .pending])
  | submitHumanInput taskId submittedInput => do
      let (taskAttemptId, next) ← loadWaitingTask definitions workflow taskId
      return some [.humanInputSubmitted taskAttemptId next submittedInput]
  | retryTask taskId => do
      let taskAttemptId ← loadRetryableTask workflow taskId
      return some [.taskRetryRequested taskAttemptId]
  | forceRetryTask taskId targetHostId => do
      let taskAttemptId ← loadRetryableTask workflow taskId
      let previousHostId := workflow.pinnedWorkerHost
      return some [.taskForceRetryRequested taskAttemptId previousHostId targetHostId
        (previousHostId ≠ some targetHostId)]
  | failPinnedToLostHosts lostHosts =>
      match workflow.pinnedWorkerHost with
      | none => .ok none
      | some pinnedHost =>
          if workflow.status = .completed ∨ workflow.status = .failed ∨ pinnedHost ∉ lostHosts then
            .ok none
          else .ok (some [.workflowStatusChanged .failed])

/-- `synchronize_startup_tasks` for one instance: what it commits for a
snapshot that was listed as runnable and then read. -/
def startupRecovery (listed seen : WorkflowInstance) : Option (List WorkflowInstanceEvent) :=
  let taskAttemptIds :=
    (seen.tasks.toList.filter fun entry => entry.2.status = .running).map Prod.fst
  if (listed.status = .pending ∨ listed.status = .running) ∧
      (seen.status = .running ∨ taskAttemptIds ≠ []) then
    some [.startupRecoveryApplied taskAttemptIds]
  else none

/-- The stored snapshot, the snapshots before it (the latest first), and the
pass of the instance, of which the queue allows one at a time. -/
structure System where
  stored : WorkflowInstance
  past : List WorkflowInstance
  pass : PassState

/-- What happens next. A writer acts on a snapshot it read earlier, named by
its age. -/
inductive Action where
  | startPass (order : LoopSlices)
  | passStep
  | answer (result : Answer)
  | crash
  | request (request : Request) (seen : Nat)
  | recover (listed seen current : Nat)

namespace PassState

def inFlight : PassState → Bool
  | idle | finished _ => false
  | _ => true

end PassState

namespace System

def snapshots (s : System) : List WorkflowInstance := s.stored :: s.past

/-- The store after an accepted commit. -/
def saved (s : System) (updated : WorkflowInstance) : System :=
  { s with stored := updated, past := s.stored :: s.past }

/-- A refused commit changes nothing. -/
def commit (s : System) (base : WorkflowInstance) (events : List WorkflowInstanceEvent) : System :=
  match commitOn s.stored base events with
  | .ok updated => s.saved updated
  | .error _ => s

def setPass (s : System) (pass : PassState) : System := { s with pass := pass }

def step (env : EngineEnv) (s : System) : Action → Option System
  | .startPass order => if s.pass.inFlight then none else some (s.setPass (.loading order))
  | .passStep =>
      match s.pass.step env s.stored with
      | (pass, none) => some (s.setPass pass)
      | (pass, some updated) => some ((s.saved updated).setPass pass)
  | .answer result => (s.pass.answer env result).map s.setPass
  | .crash => some (s.setPass .idle)
  | .request request seen => do
      let snapshot ← s.snapshots[seen]?
      match request.batch env.definitions snapshot with
      | .ok (some events) => some (s.commit snapshot events)
      | _ => some s
  | .recover listed seen current => do
      let listed ← s.snapshots[listed]?
      let seen ← s.snapshots[seen]?
      let current ← s.snapshots[current]?
      -- Recovery runs before the queue is served.
      if s.pass.inFlight then none
      else
        match startupRecovery listed seen with
        | some events => some (s.commit current events)
        | none => some s

/-- Runs of the system, from any state. -/
abbrev Steps (env : EngineEnv) : System → List Action → System → Prop :=
  Run fun s action s' => step env s action = some s'

/-- A new instance after its first commit. -/
def created (id workflowDefId : String) (pinnedWorkerHost : WorkerHostId) (input : Option Json) :
    System where
  stored := (WorkflowInstance.created id workflowDefId pinnedWorkerHost input).withVersion 1
  past := []
  pass := .idle

end System

end RelayFold
