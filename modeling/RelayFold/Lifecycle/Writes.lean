import RelayFold.Engine.ResultEvents
import RelayFold.Engine.System

/-! The life of an instance as the sequence of its commits. Each commit is
allowed by the snapshot it replaces; who made it, and on which snapshot it was
decided, is left out. -/
namespace RelayFold

open WorkflowEngine WorkflowService

/-- The stored snapshot, and the attempts that a pass found ready in its last
iteration. -/
structure Lifecycle where
  stored : WorkflowInstance
  plan : List String

/-- Who commits. -/
inductive Writer where
  | pass
  | pause
  | resume
  | hostLost
  | humanInput
  | retry
  | recovery
deriving DecidableEq

/-- The batches that may be committed, each with its writer and the plan that
remains. -/
inductive Write (ext : Externals) (definition : WorkflowDef) (l : Lifecycle) :
    Writer → List WorkflowInstanceEvent → List String → Prop
  | begin (hStatus : l.stored.status = .pending ∨ l.stored.status = .running) :
      Write ext definition l .pass [.workflowStatusChanged .running] []
  | initialTasks (hStatus : l.stored.status = .running) (hEmpty : l.stored.tasks.isEmpty = true) :
      Write ext definition l .pass (initialTaskEvents l.stored definition) []
  | initialGenerations {loopSlices : LoopSlices} (hStatus : l.stored.status = .running)
      (hTasks : ∀ taskDef ∈ definition.tasks,
        (l.stored.tasks.lookup (makeTaskAttemptId taskDef.id 1)).isSome)
      (hSlices : loopSlices.Perm (computeLoopSlices definition)) :
      Write ext definition l .pass
        (materializeEligibleInitialGenerationEvents l.stored definition loopSlices) []
  | start {taskAttemptId : String} {task : TaskInstance} (hStatus : l.stored.status = .running)
      (hPlan : taskAttemptId ∈ l.plan) (hTask : l.stored.tasks.lookup taskAttemptId = some task)
      (hPending : task.status = .pending) :
      Write ext definition l .pass [.taskStatusChanged taskAttemptId .running] l.plan
  | inputFailure {loopSlices : LoopSlices} {started : StartedTask} {error : String}
      (hStatus : l.stored.status = .running)
      (hSlices : loopSlices.Perm (computeLoopSlices definition))
      (hStarted : startedTask l.stored definition loopSlices started.taskAttemptId = some started)
      (hRunning : started.task.status = .running)
      (hInvalid : validateInputs ext started.taskDef started.inputs.values = .error error) :
      Write ext definition l .pass (failureEvents started.taskAttemptId started.inputs) l.plan
  | result {loopSlices : LoopSlices} {started : StartedTask} {answer : Answer}
      {result : ResultCommit} (hStatus : l.stored.status = .running ∨ l.stored.status = .paused)
      (hSlices : loopSlices.Perm (computeLoopSlices definition))
      (hStarted : startedTask l.stored definition loopSlices started.taskAttemptId = some started)
      (hRunning : started.task.status = .running)
      (hResult : Recorded ext l.stored definition loopSlices started.taskAttemptId
        started.taskDef started.inputs answer result) :
      Write ext definition l .pass result.events l.plan
  | complete (hStatus : l.stored.status = .running ∨ l.stored.status = .paused)
      (hAll : workflowAllCompleted l.stored definition = true) :
      Write ext definition l .pass [.workflowStatusChanged .completed] l.plan
  | pause (hStatus : l.stored.status = .pending ∨ l.stored.status = .running) :
      Write ext definition l .pause [.workflowStatusChanged .paused] l.plan
  | resume (hStatus : l.stored.status = .paused) :
      Write ext definition l .resume [.workflowStatusChanged .pending] l.plan
  | hostLost (hStatus : l.stored.status ≠ .completed ∧ l.stored.status ≠ .failed) :
      Write ext definition l .hostLost [.workflowStatusChanged .failed] l.plan
  | humanInput {taskAttemptId : String} {submittedInput : Json} {task : TaskInstance}
      {taskDef : TaskDef} (hStatus : l.stored.status = .inputNeeded)
      (hTask : l.stored.tasks.lookup taskAttemptId = some task)
      (hWaiting : task.status.isInputNeeded = true)
      (hDef : definition.findTask task.taskDefId = some taskDef)
      (hAgent : taskDef.kind.isAgent = true) :
      Write ext definition l .humanInput [.humanInputSubmitted taskAttemptId
        (makeTaskAttemptId task.taskDefId (continuationGeneration task.generationIndex))
        submittedInput] []
  | retry {taskAttemptId : String} :
      Write ext definition l .retry [.taskRetryRequested taskAttemptId] []
  | forceRetry {taskAttemptId : String} {previous : Option WorkerHostId} {target : WorkerHostId}
      {lost : Bool} :
      Write ext definition l .retry [.taskForceRetryRequested taskAttemptId previous target lost] []
  | recover (taskAttemptIds : List String) :
      Write ext definition l .recovery [.startupRecoveryApplied taskAttemptIds] []

namespace Lifecycle

/-- No verifier has a generation to start. -/
def GenerationsStarted (definition : WorkflowDef) (loopSlices : LoopSlices)
    (workflow : WorkflowInstance) : Prop :=
  ∀ entry ∈ loopSlices, eligibleStart workflow definition loopSlices entry.1 entry.2 = none

/-- A commit, or a pass that looks for ready attempts. -/
inductive Step (ext : Externals) (definition : WorkflowDef) :
    Lifecycle → Writer → Lifecycle → Prop
  | write {l : Lifecycle} {writer : Writer} {events : List WorkflowInstanceEvent}
      {plan : List String} {reduced : WorkflowInstance}
      (hWrite : Write ext definition l writer events plan)
      (hReduce : reduceWorkflowInstanceEvents (some l.stored) events = .ok reduced) :
      Step ext definition l writer ⟨reduced.withVersion (l.stored.version + events.length), plan⟩
  | schedule {l : Lifecycle} {loopSlices : LoopSlices} {ready : List String}
      (hStatus : l.stored.status = .running)
      (hSlices : loopSlices.Perm (computeLoopSlices definition))
      (hStarted : GenerationsStarted definition loopSlices l.stored)
      (hReady : tasksToRun l.stored definition loopSlices = some ready) :
      Step ext definition l .pass ⟨l.stored, ready⟩

abbrev Steps (ext : Externals) (definition : WorkflowDef) :
    Lifecycle → List Writer → Lifecycle → Prop :=
  Run (Step ext definition)

/-- A new instance after its first commit. -/
def created (id workflowDefId : String) (pinnedWorkerHost : WorkerHostId) (input : Option Json) :
    Lifecycle :=
  ⟨(System.created id workflowDefId pinnedWorkerHost input).stored, []⟩

end Lifecycle

end RelayFold
