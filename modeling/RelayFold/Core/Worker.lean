import RelayFold.Core.Task
import RelayFold.Core.Workflow

/-! Workers and the leases they hold (`worker.rs`). Times are milliseconds
since the epoch. -/
namespace RelayFold

structure WorkerId where
  value : String
deriving DecidableEq

structure WorkerIdentity where
  workerId : WorkerId
  hostId : WorkerHostId
deriving DecidableEq

def TaskDispatchConstraints.matchesWorker (constraints : TaskDispatchConstraints)
    (worker : WorkerIdentity) : Bool :=
  match constraints.pinnedHostId with
  | some hostId => hostId = worker.hostId
  | none => true

structure WorkerHeartbeatState where
  identity : WorkerIdentity
  lastHeartbeatAtEpochMs : UInt64
  nextHeartbeatDueEpochMs : UInt64
  deregisterAfterEpochMs : UInt64
  missedHeartbeat : Bool

structure DispatchLease where
  dispatchId : String
  ns : Namespace
  workflowInstanceId : String
  taskAttemptId : String
  workerId : WorkerId
  hostId : WorkerHostId
  claimedAtEpochMs : UInt64
  expiresAtEpochMs : UInt64

def DispatchLease.isExpiredAt (lease : DispatchLease) (nowEpochMs : UInt64) : Bool :=
  lease.expiresAtEpochMs ≤ nowEpochMs

end RelayFold
