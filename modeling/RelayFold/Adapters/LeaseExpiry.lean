import RelayFold.Core.NormalizedDefs
import RelayFold.Adapters.ClaimTables

/-! When the leases of dispatched tasks expire. -/
namespace RelayFold

/-- The lease ends when the timeout has elapsed, the timeout monitor does not
end it before, and the monitor can subtract the two times. -/
structure DispatchLease.ExpiresAfter (lease : DispatchLease) (timeoutSecs : UInt64) : Prop where
  exactly : lease.expiresAtEpochMs.toNat = lease.claimedAtEpochMs.toNat + 1000 * timeoutSecs.toNat
  notBefore : ∀ (d : TaskDispatcher) taskId now, d.inFlightTasks.lookup taskId = some lease →
    taskId ∈ d.timedOutTaskIds now →
    lease.claimedAtEpochMs.toNat + 1000 * timeoutSecs.toNat ≤ now.toNat
  subtracts : lease.claimedAtEpochMs ≤ lease.expiresAtEpochMs

namespace TaskDispatcher

variable {d d' : TaskDispatcher} {worker : WorkerIdentity} {now : UInt64} {task : PendingTask}
  {taskId : String} {lease : DispatchLease}

/-- The monitor reports a lease from the moment of its expiry on. -/
theorem mem_timedOutTaskIds (hLease : d.inFlightTasks.lookup taskId = some lease) :
    taskId ∈ d.timedOutTaskIds now ↔ lease.expiresAtEpochMs ≤ now := by
  unfold timedOutTaskIds DispatchLease.isExpiredAt
  rw [List.mem_map]
  constructor
  · rintro ⟨⟨id, other⟩, hMem, rfl⟩
    rw [List.mem_filter, FiniteMap.mem_toList, hLease] at hMem
    cases hMem.1
    exact of_decide_eq_true hMem.2
  · intro hExpired
    refine ⟨(taskId, lease), ?_, rfl⟩
    rw [List.mem_filter, FiniteMap.mem_toList]
    exact ⟨hLease, decide_eq_true hExpired⟩

/-- A lease expires the timeout of its task after the claim, counted in 64
bits. -/
theorem leaseFor_expires {timeoutSecs : UInt64} (hTimeout : task.timeout = timeoutSecs.toNat * 1000) :
    (leaseFor worker now task).expiresAtEpochMs.toNat =
      (now.toNat + 1000 * timeoutSecs.toNat) % 2 ^ 64 := by
  show (now + UInt64.ofNat task.timeout).toNat = _
  rw [UInt64.toNat_add, UInt64.toNat_ofNat', hTimeout, Nat.add_mod_mod, Nat.mul_comm]

/-- The end of a lease is the sum of its times if the sum is a 64-bit number,
and too early otherwise. -/
theorem leaseFor_expiresAfter {timeoutSecs : UInt64}
    (hTimeout : task.timeout = timeoutSecs.toNat * 1000) :
    (leaseFor worker now task).ExpiresAfter timeoutSecs ↔
      now.toNat + 1000 * timeoutSecs.toNat < 2 ^ 64 := by
  have hExpires := @leaseFor_expires worker now task timeoutSecs hTimeout
  have hClaimed : (leaseFor worker now task).claimedAtEpochMs = now := rfl
  constructor
  · intro h
    have hSum := h.exactly
    rw [hClaimed] at hSum
    rw [← hSum]
    exact (leaseFor worker now task).expiresAtEpochMs.toNat_lt
  · intro hFits
    rw [Nat.mod_eq_of_lt hFits] at hExpires
    refine ⟨hExpires, fun d taskId later hLease hTimedOut => ?_, ?_⟩
    · rw [hClaimed, ← hExpires]
      exact UInt64.le_iff_toNat_le.mp ((mem_timedOutTaskIds hLease).mp hTimedOut)
    · rw [hClaimed, UInt64.le_iff_toNat_le, hExpires]
      exact Nat.le_add_right _ _

/-- A pending task waits with the timeout of its definition. -/
def TimedByTasks (d : TaskDispatcher) : Prop :=
  ∀ task ∈ d.pendingTasks, ∀ timeoutSecs, task.dispatch.task.timeoutSecs = some timeoutSecs →
    task.timeout = timeoutSecs.toNat * 1000

theorem TimedByTasks.fewer (h : d.TimedByTasks) (hFewer : d'.pendingTasks ⊆ d.pendingTasks) :
    d'.TimedByTasks :=
  fun task hTask => h task (hFewer hTask)

/-- A dispatch gives the pending task the timeout of its definition, in
milliseconds. -/
theorem TimedByTasks.dispatchTask (h : d.TimedByTasks) (call : DispatchCall) :
    (d.dispatchTask call).TimedByTasks := by
  intro task hTask timeoutSecs hTimeout
  rcases List.mem_append.mp hTask with hOld | hNew
  · exact h task hOld timeoutSecs hTimeout
  · cases List.mem_singleton.mp hNew
    have hSecs : call.taskDef.timeoutSecs = some timeoutSecs := hTimeout
    show (call.taskDef.timeoutSecs.map fun secs => secs.toNat * 1000).getD d.taskTimeout = _
    rw [hSecs]
    rfl

end TaskDispatcher

namespace Dispatching

open TaskDispatcher

variable {s s' : Dispatching}

/-- Tasks are enqueued by `dispatch_task`. -/
def DispatchesTasks (s : Dispatching) (action : DispatchAction) : Prop :=
  ∀ call timeout, action = .enqueueTask call timeout →
    s.dispatcher.enqueueTask call timeout = s.dispatcher.dispatchTask call

/-- Runs of the dispatcher that serves the engine. -/
abbrev ServingSteps : Dispatching → List DispatchAction → Dispatching → Prop :=
  Run fun s action s' => s.step action = s' ∧ DispatchesTasks s action

theorem timedByTasks_completeTaskResult (h : s.dispatcher.TimedByTasks) (result : WorkerTaskResult) :
    (s.completeTaskResult result).dispatcher.TimedByTasks := by
  unfold Dispatching.completeTaskResult
  rw [SteppedDispatcher.sendResult_dispatcher]
  exact h.fewer (List.Subset.refl _)

/-- No step changes the timeout of a pending task. -/
theorem timedByTasks_step (h : s.dispatcher.TimedByTasks) {action : DispatchAction}
    (hDispatches : DispatchesTasks s action) : (s.step action).dispatcher.TimedByTasks := by
  cases action with
  | enqueueTask call timeout =>
      show (s.dispatcher.enqueueTask call timeout).TimedByTasks
      rw [hDispatches call timeout rfl]
      exact h.dispatchTask call
  | claimTask worker now =>
      simp only [Dispatching.step, Dispatching.claimTask]
      split
      · rename_i task d' hTake
        exact h.fewer (takeTask_some hTake).sublist.subset
      · exact h
  | completeTaskResult result =>
      exact timedByTasks_completeTaskResult h result
  | completeWorkerTask result =>
      simp only [Dispatching.step]
      split
      · exact timedByTasks_completeTaskResult h result
      · exact h
  | completeTaskTimeout taskId =>
      simp only [Dispatching.step, Dispatching.completeTaskTimeout]
      split
      · exact h
      · rw [SteppedDispatcher.sendResult_dispatcher]
        exact h.fewer (List.Subset.refl _)
  | cancelPendingTasksForLostHosts lostHosts =>
      simp only [Dispatching.step]
      rw [SteppedDispatcher.cancelPendingTasks_dispatcher]
      exact h.fewer List.filter_sublist.subset
  | removePendingTask caller =>
      simp only [Dispatching.step]
      split
      · split
        · exact h.fewer List.eraseP_sublist.subset
        · exact h
      · exact h

theorem ServingSteps.timedByTasks {dispatchNamespace : String} {taskTimeout : Nat}
    {actions : List DispatchAction}
    (run : ServingSteps (new dispatchNamespace taskTimeout) actions s) :
    s.dispatcher.TimedByTasks := by
  refine run.invariant (P := fun s => s.dispatcher.TimedByTasks) (fun _ hTask => ?_) ?_
  · cases hTask
  · rintro s action s' h ⟨rfl, hDispatches⟩
    exact timedByTasks_step h hDispatches

/-- The lease of a claim ends when the timeout of the task has elapsed, exactly
if that time is a 64-bit number of milliseconds. -/
theorem ServingSteps.lease_expires_on_time {dispatchNamespace : String} {taskTimeout : Nat}
    {actions : List DispatchAction} {worker : WorkerIdentity} {now timeoutSecs : UInt64}
    {task : PendingTask} {d' : TaskDispatcher}
    (run : ServingSteps (new dispatchNamespace taskTimeout) actions s)
    (hTake : s.dispatcher.takeTask worker now = .ok (some (task, d')))
    (hTimeout : task.dispatch.task.timeoutSecs = some timeoutSecs) :
    ∃ lease, d'.inFlightTasks.lookup task.dispatch.taskId = some lease ∧
      lease.claimedAtEpochMs = now ∧
      (lease.ExpiresAfter timeoutSecs ↔ now.toNat + 1000 * timeoutSecs.toNat < 2 ^ 64) := by
  have hTakes := takeTask_some hTake
  have hTask := run.timedByTasks task hTakes.mem timeoutSecs hTimeout
  exact ⟨_, by rw [hTakes.lookup, if_pos rfl], rfl, leaseFor_expiresAfter hTask⟩

/-! A task of five minutes, and one of half a billion years. -/

def timedDefinition (timeoutSecs : UInt64) : WorkflowDef where
  id := "timed"
  exampleInput := none
  description := ""
  tasks := [sampleTaskDef "draft" timeoutSecs]
  dataBindings := []

/-- 2 ^ 64 milliseconds and a few more. -/
def endlessSecs : UInt64 := 18446744073709552

/-- Validation bounds no timeout, so the definition with the endless one is
accepted. -/
theorem timedDefinition_accepted : (validateAndNormalizeWorkflowDef
    (timedDefinition endlessSecs)).toOption.isSome := by
  decide +kernel

/-- The only task is dispatched. -/
def timedCall (timeoutSecs : UInt64) : DispatchCall :=
  sampleCall "draft" timeoutSecs

def timedStart (timeoutSecs : UInt64) : Dispatching :=
  (new "1" 300000).step (.enqueueTask (timedCall timeoutSecs) (timeoutSecs.toNat * 1000))

/-- The sample task is dispatched with the timeout that its definition
gives. -/
theorem timedStart_serves (timeoutSecs : UInt64) : ServingSteps (new "1" 300000)
    [.enqueueTask (timedCall timeoutSecs) (timeoutSecs.toNat * 1000)] (timedStart timeoutSecs) := by
  refine Run.single ⟨rfl, fun call timeout hSame => ?_⟩
  cases hSame
  rfl

def timedTask (timeoutSecs : UInt64) : PendingTask where
  dispatch := {
    ns := .global
    workflowInstId := "article-1"
    taskId := "draft-1-0"
    task := sampleTaskDef "draft" timeoutSecs
    inputs := []
    executionMetadata := (timedCall timeoutSecs).metadata
    humanInputProvided := none }
  constraints := (timedCall timeoutSecs).constraints
  caller := 0
  timeout := timeoutSecs.toNat * 1000

theorem timedStart_takes (timeoutSecs now : UInt64) : ∃ d',
    (timedStart timeoutSecs).dispatcher.takeTask sampleWorker now =
      .ok (some (timedTask timeoutSecs, d')) := by
  exact ⟨_, rfl⟩

/-- A lease of five minutes. -/
theorem ServingSteps.lease_expires_on_time_minutes : ∃ lease : DispatchLease,
    lease.claimedAtEpochMs = 1000 ∧ lease.ExpiresAfter 300 := by
  obtain ⟨d', hTake⟩ := timedStart_takes 300 1000
  obtain ⟨lease, _, hClaimed, hExpires⟩ :=
    ServingSteps.lease_expires_on_time (timedStart_serves 300) hTake rfl
  exact ⟨lease, hClaimed, hExpires.mpr (by decide)⟩

/-- The lease of an accepted task of half a billion years is over after 384
milliseconds. -/
theorem endless_lease_expires : ∃ s d' lease,
    validateAndNormalizeWorkflowDef (timedDefinition endlessSecs) =
      .ok (timedDefinition endlessSecs) ∧
    (timedTask endlessSecs).dispatch.task ∈ (timedDefinition endlessSecs).tasks ∧
    (timedTask endlessSecs).dispatch.task.timeoutSecs = some endlessSecs ∧
    ServingSteps (new "1" 300000)
      [.enqueueTask (timedCall endlessSecs) (endlessSecs.toNat * 1000)] s ∧
    s.dispatcher.takeTask sampleWorker 0 = .ok (some (timedTask endlessSecs, d')) ∧
    d'.inFlightTasks.lookup "draft-1-0" = some lease ∧ lease.claimedAtEpochMs = 0 ∧
    "draft-1-0" ∈ d'.timedOutTaskIds 384 ∧ ¬lease.ExpiresAfter endlessSecs := by
  obtain ⟨d', hTake⟩ := timedStart_takes endlessSecs 0
  have hAccepted := FallibleFold.eq_ok_get timedDefinition_accepted
  have hSame : (timedDefinition endlessSecs).normalized = timedDefinition endlessSecs := by
    have hTask : (sampleTaskDef "draft" endlessSecs).renamed =
        { sampleTaskDef "draft" endlessSecs with id := toAsciiLowercase "draft" } := rfl
    have hDraft : toAsciiLowercase "draft" = "draft" := by decide
    have hTimed : toAsciiLowercase "timed" = "timed" := by decide
    simp only [WorkflowDef.normalized, timedDefinition, List.map_cons, List.map_nil, hTask, hDraft,
      hTimed]
    rfl
  rw [(validateAndNormalizeWorkflowDef_eq hAccepted).1, hSame] at hAccepted
  have hTakes := takeTask_some hTake
  have hLease : d'.inFlightTasks.lookup "draft-1-0" =
      some (leaseFor sampleWorker 0 (timedTask endlessSecs)) := by
    rw [hTakes.lookup]
    rfl
  refine ⟨timedStart endlessSecs, d', _, hAccepted, List.mem_singleton.mpr rfl, rfl,
    timedStart_serves endlessSecs, hTake, hLease, rfl, ?_, fun hExpires => ?_⟩
  · exact (mem_timedOutTaskIds hLease).mpr (by decide +kernel)
  · exact absurd ((leaseFor_expiresAfter rfl).mp hExpires) (by decide)

end Dispatching

end RelayFold
