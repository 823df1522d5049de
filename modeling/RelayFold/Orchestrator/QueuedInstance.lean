import RelayFold.Adapters.MemoryWorkflowQueue
import RelayFold.Engine.System

/-! An instance together with the queue that serves it: pause and resume
requests, each a commit followed by a queue operation, and the consumer of the
queue (`orchestrator.rs`). -/
namespace RelayFold

open WorkflowStateManager

/-- The requests that write the store first and the queue afterwards. -/
inductive QueueRequest where
  | pauseWorkflowInstance
  | resumeWorkflowInstance
deriving DecidableEq

/-- The store commit of the request. -/
def QueueRequest.request : QueueRequest → Request
  | pauseWorkflowInstance => .pauseWorkflow
  | resumeWorkflowInstance => .resumeWorkflow

/-- The instance, the queue, and the requests whose queue operation is still to
come. -/
structure QueuedInstance where
  item : WorkflowQueueItem
  system : System
  queue : MemoryWorkflowQueue
  unfinished : List QueueRequest

/-- What happens next. Other instances share the queue. -/
inductive QueueAction where
  | commit (request : QueueRequest) (seen : Nat)
  | finish (request : QueueRequest)
  | dequeue (order : LoopSlices)
  | passStep
  | answer (result : Answer)
  | complete
  | enqueueOther (item : WorkflowQueueItem)
  | removeOther (item : WorkflowQueueItem)
  | completeOther (item : WorkflowQueueItem)

namespace QueuedInstance

/-- The first half of a request. A request that fails does not touch the
queue. -/
def commit (env : EngineEnv) (s : QueuedInstance) (request : QueueRequest)
    (snapshot : WorkflowInstance) : QueuedInstance :=
  match request.request.batch env.definitions snapshot with
  | .error _ => s
  | .ok none => { s with unfinished := request :: s.unfinished }
  | .ok (some events) =>
      match commitOn s.system.stored snapshot events with
      | .error _ => s
      | .ok updated =>
          { s with system := s.system.saved updated, unfinished := request :: s.unfinished }

/-- The second half: a pause takes the instance out of the queue, a resume puts
it in. -/
def finish (s : QueuedInstance) (request : QueueRequest) : Option QueuedInstance :=
  if request ∈ s.unfinished then
    let unfinished := s.unfinished.erase request
    match request with
    | .pauseWorkflowInstance =>
        some { s with queue := (s.queue.remove s.item).2, unfinished := unfinished }
    | .resumeWorkflowInstance =>
        (s.queue.enqueue s.item).map fun queue =>
          { s with queue := queue, unfinished := unfinished }
  else none

def step (env : EngineEnv) (s : QueuedInstance) : QueueAction → Option QueuedInstance
  | .commit request seen => do
      let snapshot ← s.system.snapshots[seen]?
      return s.commit env request snapshot
  | .finish request => s.finish request
  | .dequeue order => do
      let (item, queue) ← s.queue.dequeue
      if item = s.item then
        return { s with queue := queue, system := s.system.setPass (.loading order) }
      else return { s with queue := queue }
  | .passStep => do
      let system ← s.system.step env .passStep
      return { s with system := system }
  | .answer result => do
      let system ← s.system.step env (.answer result)
      return { s with system := system }
  -- The consumer completes the item when the pass has returned; a panic keeps it active.
  | .complete =>
      match s.system.pass with
      | .finished .ok | .finished (.error _) =>
          some { s with queue := s.queue.complete s.item, system := s.system.setPass .idle }
      | _ => none
  | .enqueueOther item =>
      if item = s.item then none
      else (s.queue.enqueue item).map fun queue => { s with queue := queue }
  | .removeOther item =>
      if item = s.item then none else some { s with queue := (s.queue.remove item).2 }
  | .completeOther item =>
      if item = s.item then none else some { s with queue := s.queue.complete item }

abbrev Steps (env : EngineEnv) : QueuedInstance → List QueueAction → QueuedInstance → Prop :=
  Run fun s action s' => step env s action = some s'

/-- A new instance that has been enqueued. -/
def created (ns : Namespace) (id workflowDefId : String) (pinnedWorkerHost : WorkerHostId)
    (input : Option Json) (queue : MemoryWorkflowQueue) : QueuedInstance where
  item := ⟨ns, id⟩
  system := System.created id workflowDefId pinnedWorkerHost input
  queue := queue
  unfinished := []

end QueuedInstance

end RelayFold
