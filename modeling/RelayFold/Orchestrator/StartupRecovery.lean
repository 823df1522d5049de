import RelayFold.Core.EventEffects
import RelayFold.Engine.System
import RelayFold.Adapters.MemoryWorkflowQueue
import RelayFold.Orchestrator.Discovery

/-! Startup recovery (`orchestrator.rs`): after a crash the runnable workflows
are reset and queued again. Nothing else runs yet. -/
namespace RelayFold

open MemoryStorage WorkflowStateManager FallibleFold

namespace WorkflowInstance

/-- The attempts left Running by a previous process. -/
def runningAttemptIds (workflow : WorkflowInstance) : List String :=
  (workflow.tasks.toList.filter fun entry => entry.2.status = .running).map Prod.fst

/-- A dispatch of the instance may have been under way. -/
def InFlight (workflow : WorkflowInstance) : Prop :=
  workflow.status = .running ∨
    ∃ id task, workflow.tasks.lookup id = some task ∧ task.status = .running

end WorkflowInstance

/-- What recovery commits on an instance. -/
def recoveryBatch (workflow : WorkflowInstance) : Option (List WorkflowInstanceEvent) :=
  if workflow.status = .running ∨ workflow.runningAttemptIds ≠ [] then
    some [.startupRecoveryApplied workflow.runningAttemptIds]
  else none

/-- Recover one listed instance: it is read, and the commit reads it again. -/
def recoverInstance (info : WorkflowInfo) (clocks : Clock × Clock) (storage : MemoryStorage) :
    Except StorageError Bool × MemoryStorage :=
  match storage.getWorkflowInstance info.ns info.id with
  | none => (.ok false, storage)
  | some workflow =>
      match recoveryBatch workflow with
      | none => (.ok false, storage)
      | some events =>
          match (commitEvents port info.ns info.id events clocks.1 clocks.2).run.run storage with
          | (.ok _, storage) => (.ok true, storage)
          | (.error error, storage) => (.error error, storage)

/-- The loop over the runnable instances, with the clock readings of each
recovery. -/
def recoverInstances (clocks : Nat → Clock × Clock) :
    List WorkflowInfo → Nat → MemoryStorage → Except StorageError Nat × MemoryStorage
  | [], recovered, storage => (.ok recovered, storage)
  | info :: rest, recovered, storage =>
      match recoverInstance info (clocks recovered) storage with
      | (.error error, storage) => (.error error, storage)
      | (.ok true, storage) => recoverInstances clocks rest (recovered + 1) storage
      | (.ok false, storage) => recoverInstances clocks rest recovered storage

def synchronizeStartupTasks (clocks : Nat → Clock × Clock) (storage : MemoryStorage) :
    Option (Except StorageError Nat × MemoryStorage) :=
  (listNonterminalWorkflowInfo none storage).map fun discovery =>
    recoverInstances clocks discovery.runnable 0 storage

/-- Queue every runnable instance; with a full queue the call waits. -/
def enqueueActiveWorkflowInstances (storage : MemoryStorage) (queue : MemoryWorkflowQueue) :
    Option (Nat × MemoryWorkflowQueue) := do
  let discovery ← listNonterminalWorkflowInfo none storage
  let queue ← discovery.runnable.foldlM (fun queue info => queue.enqueue ⟨info.ns, info.id⟩) queue
  return (discovery.runnable.length, queue)

/-- What the runs of one instance commit for its recovery is what the call
commits for an instance that it lists as runnable. -/
theorem startupRecovery_eq (listed seen : WorkflowInstance) :
    startupRecovery listed seen = if listed.status.isRunnable then recoveryBatch seen else none := by
  simp only [startupRecovery, recoveryBatch, WorkflowInstance.runningAttemptIds, ite_and]
  exact if_congr WorkflowStatus.isRunnable_iff.symm rfl rfl

/-- The attempts that recovery looks for are the running ones of the
snapshot. -/
theorem mem_runningAttemptIds {workflow : WorkflowInstance} {id : String} :
    id ∈ workflow.runningAttemptIds ↔
      ∃ task, workflow.tasks.lookup id = some task ∧ task.status = .running := by
  simp [WorkflowInstance.runningAttemptIds]

/-- There is nothing to commit for an instance without a running attempt or a
running status. -/
theorem recoveryBatch_eq_none {workflow : WorkflowInstance} :
    recoveryBatch workflow = none ↔ ¬workflow.InFlight := by
  rw [recoveryBatch, ite_eq_right_iff]
  simp only [reduceCtorEq, imp_false, WorkflowInstance.InFlight]
  refine not_congr (or_congr_right ?_)
  simp only [ne_eq, List.eq_nil_iff_forall_not_mem, mem_runningAttemptIds, not_forall, not_not]

/-- An instance before and after its recovery. -/
structure Recovered (before after : WorkflowInstance) : Prop where
  idle : ¬before.InFlight → after = before
  task : ∀ id, after.tasks.lookup id = (before.tasks.lookup id).map TaskInstance.recovered
  status : after.status = if before.status = .running then .pending else before.status

namespace Recovered

variable {before after : WorkflowInstance}

theorem recovered_of_ne {task : TaskInstance} (h : task.status ≠ .running) :
    task.recovered = task := if_neg h

theorem recovered_status (task : TaskInstance) : task.recovered.status ≠ .running := by
  unfold TaskInstance.recovered
  split
  · exact fun h => nomatch h
  · assumption

/-- An instance with nothing in flight counts as recovered as it is. -/
theorem of_idle (h : ¬before.InFlight) : Recovered before before where
  idle _ := rfl
  task id := by
    cases hTask : before.tasks.lookup id with
    | none => rfl
    | some task =>
        rw [Option.map_some, recovered_of_ne fun hRunning => h (.inr ⟨id, task, hTask, hRunning⟩)]
  status := by rw [if_neg fun hRunning => h (.inl hRunning)]

/-- What has been recovered is not in flight any more. -/
theorem not_inFlight (h : Recovered before after) : ¬after.InFlight := by
  rintro (hStatus | ⟨id, task, hTask, hRunning⟩)
  · rw [h.status] at hStatus
    split at hStatus
    · cases hStatus
    · contradiction
  · rw [h.task] at hTask
    obtain ⟨old, _, rfl⟩ := Option.map_eq_some_iff.mp hTask
    exact recovered_status old hRunning

theorem again (h : Recovered before after) {later : WorkflowInstance}
    (hLater : Recovered after later) : later = after := hLater.idle h.not_inFlight

/-- Recovering a second time changes nothing, which covers an instance that two
pages list. -/
theorem rel_again {first second third : Option WorkflowInstance}
    (h : Option.Rel Recovered first second) (hLater : Option.Rel Recovered second third) :
    third = second := by
  cases h with
  | none =>
      cases hLater
      rfl
  | some h =>
      cases hLater with
      | some hLater => rw [h.again hLater]

/-- The committed batch recovers the instance. -/
theorem of_batch {events : List WorkflowInstanceEvent} {reduced : WorkflowInstance}
    (hBatch : recoveryBatch before = some events)
    (hReduce : reduceWorkflowInstanceEvents (some before) events = .ok reduced) (version : Nat) :
    Recovered before (reduced.withVersion version) := by
  have hInFlight : before.InFlight := by
    by_contra hIdle
    rw [recoveryBatch_eq_none.mpr hIdle] at hBatch
    cases hBatch
  unfold recoveryBatch at hBatch
  split at hBatch
  · cases hBatch
    have effected := reduceWorkflowInstanceEvents_effected hReduce
    refine ⟨fun hIdle => absurd hInFlight hIdle, fun id => ?_, effected.status⟩
    have hTask := effected.task (by simp [WorkflowInstanceEvent.isLocal]) id
    simp only [List.foldl_cons, List.foldl_nil, WorkflowInstanceEvent.taskEffect,
      mem_runningAttemptIds] at hTask
    refine hTask.trans ?_
    split
    · rfl
    · rename_i hIdle
      cases hOld : before.tasks.lookup id with
      | none => rfl
      | some task =>
          rw [Option.map_some, recovered_of_ne fun hRunning => hIdle ⟨task, hOld, hRunning⟩]
  · cases hBatch

end Recovered

/-- The instances under the given keys have been recovered, the others are as
they were. -/
structure RecoveredStore (keys : List ResourceKey) (before after : MemoryStorage) : Prop where
  summarized : after.Summarized
  keyed : after.Keyed
  listed : ∀ key ∈ keys, Option.Rel Recovered (before.workflowInstances.lookup key)
    (after.workflowInstances.lookup key)
  others : ∀ key ∉ keys, after.workflowInstances.lookup key = before.workflowInstances.lookup key

section

variable {storage storage' : MemoryStorage}

theorem RecoveredStore.nil (hSummarized : storage.Summarized) (hKeyed : storage.Keyed) :
    RecoveredStore [] storage storage :=
  ⟨hSummarized, hKeyed, fun _ h => (nomatch h), fun _ _ => rfl⟩

/-- A key whose instance needs no recovery is recovered by leaving the store
alone. -/
theorem RecoveredStore.unchanged (hSummarized : storage.Summarized) (hKeyed : storage.Keyed)
    {key : ResourceKey}
    (hIdle : ∀ workflow, storage.workflowInstances.lookup key = some workflow →
      ¬workflow.InFlight) : RecoveredStore [key] storage storage where
  summarized := hSummarized
  keyed := hKeyed
  listed key hKey := by
    cases List.mem_singleton.mp hKey
    cases hStored : storage.workflowInstances.lookup key with
    | none => exact .none
    | some workflow => exact .some (.of_idle (hIdle workflow hStored))
  others _ _ := rfl

/-- Recovering one key and then others is recovering all of them. -/
theorem RecoveredStore.cons {middle : MemoryStorage} {key : ResourceKey} {keys : List ResourceKey}
    (first : RecoveredStore [key] storage middle) (rest : RecoveredStore keys middle storage') :
    RecoveredStore (key :: keys) storage storage' where
  summarized := rest.summarized
  keyed := rest.keyed
  listed key' hKey := by
    by_cases hFirst : key' = key
    · have hRecovered := first.listed key' (List.mem_singleton.mpr hFirst)
      by_cases hRest : key' ∈ keys
      · have hAgain := rest.listed key' hRest
        rwa [Recovered.rel_again hRecovered hAgain]
      · rw [rest.others key' hRest]
        exact hRecovered
    · have hRest := (List.mem_cons.mp hKey).resolve_left hFirst
      rw [← first.others key' fun h => hFirst (List.mem_singleton.mp h)]
      exact rest.listed key' hRest
  others key' hKey := by
    obtain ⟨hFirst, hRest⟩ := not_or.mp fun h => hKey (List.mem_cons.mpr h)
    rw [rest.others key' hRest, first.others key' fun h => hFirst (List.mem_singleton.mp h)]

/-- Without other writers the commit finds the instance that was read. -/
theorem commitEvents_run (ns : Namespace) (id : String) (events : List WorkflowInstanceEvent)
    (clock storageClock : Clock) (storage : MemoryStorage) :
    (commitEvents port ns id events clock storageClock).run.run storage =
      (commitEventsForCurrent port ns (storage.getWorkflowInstance ns id) events clock
        storageClock).run.run storage := rfl

/-- A listed summary leads to the recovery of its instance, or to nothing if
there is none to make. -/
theorem recoverInstance_ok {info : WorkflowInfo} {clocks : Clock × Clock} {recovered : Bool}
    (hSummarized : storage.Summarized) (hKeyed : storage.Keyed)
    (hRun : recoverInstance info clocks storage = (.ok recovered, storage')) :
    RecoveredStore [info.key] storage storage' := by
  unfold recoverInstance at hRun
  cases hStored : storage.getWorkflowInstance info.ns info.id with
  | none =>
      rw [hStored] at hRun
      cases hRun
      exact .unchanged hSummarized hKeyed fun workflow h => by
        rw [show storage.workflowInstances.lookup info.key = none from hStored] at h
        cases h
  | some workflow =>
      rw [hStored] at hRun
      dsimp only at hRun
      cases hBatch : recoveryBatch workflow with
      | none =>
          rw [hBatch] at hRun
          cases hRun
          exact .unchanged hSummarized hKeyed fun stored h => by
            cases h.symm.trans hStored
            exact recoveryBatch_eq_none.mp hBatch
      | some events =>
          rw [hBatch] at hRun
          dsimp only at hRun
          rw [commitEvents_run, hStored] at hRun
          rcases commitEventsForCurrent_cases info.ns (some workflow) events clocks.1 clocks.2
            storage with ⟨error, hCommit⟩ | ⟨updated, storage', hCommit, hAccepted⟩
          · rw [hCommit] at hRun
            cases hRun
          · rw [hCommit] at hRun
            cases hRun
            obtain ⟨reduced, hReduce, hUpdated⟩ := hAccepted.reduced
            have hId : updated.id = info.id :=
              hAccepted.id_eq.trans (hKeyed _ _ _ hStored)
            have hLookup := hAccepted.lookup
            rw [hId] at hLookup
            refine ⟨hSummarized.commit hAccepted hCommit, hKeyed.commit hAccepted, ?_, ?_⟩
            · intro key hKey
              cases List.mem_singleton.mp hKey
              rw [hLookup, WorkflowInfo.key, if_pos rfl]
              rw [show storage.workflowInstances.lookup (resourceKey info.ns info.id) =
                some workflow from hStored, hUpdated]
              exact .some (Recovered.of_batch hBatch hReduce _)
            · intro key hKey
              rw [hLookup]
              exact if_neg fun h => hKey (List.mem_singleton.mpr h)

/-- By induction over the listing, every instance of it has been recovered. -/
theorem recoverInstances_ok {clocks : Nat → Clock × Clock} {infos : List WorkflowInfo}
    {recovered result : Nat} (hSummarized : storage.Summarized) (hKeyed : storage.Keyed)
    (hRun : recoverInstances clocks infos recovered storage = (.ok result, storage')) :
    RecoveredStore (infos.map (·.key)) storage storage' := by
  induction infos generalizing recovered storage with
  | nil =>
      cases hRun
      exact .nil hSummarized hKeyed
  | cons info rest ih =>
      unfold recoverInstances at hRun
      split at hRun
      · cases hRun
      · rename_i middle hFirst
        have first := recoverInstance_ok hSummarized hKeyed hFirst
        exact first.cons (ih first.summarized first.keyed hRun)
      · rename_i middle hFirst
        have first := recoverInstance_ok hSummarized hKeyed hFirst
        exact first.cons (ih first.summarized first.keyed hRun)

/-- Queuing a list of instances puts each of them into the queue and drops
nothing that was there. -/
theorem enqueueAll_mem {infos : List WorkflowInfo} {queue queue' : MemoryWorkflowQueue}
    (h : infos.foldlM (fun queue info => queue.enqueue ⟨info.ns, info.id⟩) queue = some queue') :
    (∀ item ∈ queue.pending, item ∈ queue'.pending) ∧
      ∀ info ∈ infos, ⟨info.ns, info.id⟩ ∈ queue'.pending := by
  induction infos generalizing queue with
  | nil =>
      cases h
      exact ⟨fun _ hItem => hItem, fun _ hInfo => nomatch hInfo⟩
  | cons first rest ih =>
      rw [List.foldlM_cons] at h
      obtain ⟨middle, hFirst, hRest⟩ := Option.bind_eq_some_iff.mp h
      obtain ⟨hKeeps, hMem⟩ := ih hRest
      refine ⟨fun item hItem => hKeeps item (MemoryWorkflowQueue.enqueue_keeps hFirst hItem),
        fun info hInfo => ?_⟩
      rcases List.mem_cons.mp hInfo with rfl | hInfo
      · exact hKeeps _ (MemoryWorkflowQueue.enqueue_mem hFirst)
      · exact hMem info hInfo

/-- Every runnable instance ends up in the queue. -/
theorem enqueueActiveWorkflowInstances_mem {queue queue' : MemoryWorkflowQueue} {count : Nat}
    (hSummarized : storage.Summarized)
    (hRun : enqueueActiveWorkflowInstances storage queue = some (count, queue')) {ns : Namespace}
    {id : String} {workflow : WorkflowInstance}
    (hStored : storage.workflowInstances.lookup (resourceKey ns id) = some workflow)
    (hRunnable : workflow.status.isRunnable = true) : ⟨ns, id⟩ ∈ queue'.pending := by
  obtain ⟨discovery, hFound, hRun⟩ := Option.bind_eq_some_iff.mp hRun
  obtain ⟨last, hQueue, hRun⟩ := Option.bind_eq_some_iff.mp hRun
  cases hRun
  obtain ⟨info, hInfo, hKey, hStatus⟩ := hSummarized.info hStored
  have hMem : info ∈ discovery.runnable :=
    (mem_runnable hSummarized hFound).mpr ⟨hKey ▸ hInfo, hStatus ▸ hRunnable⟩
  have hItem : (⟨ns, id⟩ : WorkflowQueueItem) = ⟨info.ns, info.id⟩ := by
    obtain ⟨hNs, hId⟩ := Prod.mk.inj (congrArg ofLex hKey)
    rw [hNs, hId]
  rw [hItem]
  exact (enqueueAll_mem hQueue).2 info hMem

/-- What recovery is to achieve, from the store at the crash to the store and
the queue that the orchestrator starts with. -/
structure RecoveryComplete (before after : MemoryStorage) (queue : MemoryWorkflowQueue) :
    Prop where
  noneRunning : ∀ key workflow id task, after.workflowInstances.lookup key = some workflow →
    isTerminalWorkflowStatus workflow.status = false → workflow.tasks.lookup id = some task →
      task.status ≠ .running
  queuedOnce : ∀ ns id workflow,
    after.workflowInstances.lookup (resourceKey ns id) = some workflow →
      workflow.status = .pending ∨ workflow.status = .running →
        queue.pending.count ⟨ns, id⟩ = 1
  instances : ∀ key workflow, before.workflowInstances.lookup key = some workflow →
    ¬workflow.InFlight → after.workflowInstances.lookup key = some workflow
  attempts : ∀ key workflow id task, before.workflowInstances.lookup key = some workflow →
    workflow.tasks.lookup id = some task → task.status ≠ .running →
      ∃ workflow', after.workflowInstances.lookup key = some workflow' ∧
        workflow'.tasks.lookup id = some task

/-- No paused or waiting instance has an attempt in flight. -/
def BlockedAtRest (storage : MemoryStorage) : Prop :=
  ∀ key workflow id task, storage.workflowInstances.lookup key = some workflow →
    workflow.status.isBlocked = true → workflow.tasks.lookup id = some task →
      task.status ≠ .running

/-- The keys of the runnable summaries are those of the runnable instances. -/
theorem mem_runnable_keys (hSummarized : storage.Summarized) {found : StartupWorkflowDiscovery}
    (hFound : listNonterminalWorkflowInfo none storage = some found) {key : ResourceKey}
    {workflow : WorkflowInstance}
    (hStored : storage.workflowInstances.lookup key = some workflow) :
    key ∈ found.runnable.map (·.key) ↔ workflow.status.isRunnable = true := by
  obtain ⟨info, hInfo, hKey, hStatus⟩ := hSummarized.info hStored
  rw [List.mem_map]
  constructor
  · rintro ⟨other, hMem, rfl⟩
    obtain ⟨hOther, hRunnable⟩ := (mem_runnable hSummarized hFound).mp hMem
    rw [hOther] at hInfo
    cases hInfo
    rwa [← hStatus]
  · intro hRunnable
    exact ⟨info, (mem_runnable hSummarized hFound).mpr ⟨hKey ▸ hInfo, hStatus ▸ hRunnable⟩, hKey⟩

namespace RecoveredStore

variable {keys : List ResourceKey} {key : ResourceKey} {workflow : WorkflowInstance}

/-- A recovered store still holds each instance, in its recovered form. -/
theorem recovered (h : RecoveredStore keys storage storage') (hKey : key ∈ keys)
    (hStored : storage.workflowInstances.lookup key = some workflow) :
    ∃ workflow', storage'.workflowInstances.lookup key = some workflow' ∧
      Recovered workflow workflow' := by
  have hRel := h.listed key hKey
  rw [hStored] at hRel
  generalize storage'.workflowInstances.lookup key = stored at hRel
  cases hRel with
  | some hRecovered => exact ⟨_, rfl, hRecovered⟩

/-- An instance that was not in flight at the crash is as it was. -/
theorem instance_unchanged (h : RecoveredStore keys storage storage')
    (hStored : storage.workflowInstances.lookup key = some workflow) (hIdle : ¬workflow.InFlight) :
    storage'.workflowInstances.lookup key = some workflow := by
  by_cases hKey : key ∈ keys
  · obtain ⟨workflow', hStored', hRecovered⟩ := h.recovered hKey hStored
    rwa [hRecovered.idle hIdle] at hStored'
  · rwa [h.others key hKey]

/-- So is every attempt that was not running, in whatever instance. -/
theorem attempt_unchanged (h : RecoveredStore keys storage storage')
    (hStored : storage.workflowInstances.lookup key = some workflow) {id : String}
    {task : TaskInstance} (hTask : workflow.tasks.lookup id = some task)
    (hIdle : task.status ≠ .running) :
    ∃ workflow', storage'.workflowInstances.lookup key = some workflow' ∧
      workflow'.tasks.lookup id = some task := by
  by_cases hKey : key ∈ keys
  · obtain ⟨workflow', hStored', hRecovered⟩ := h.recovered hKey hStored
    refine ⟨workflow', hStored', ?_⟩
    rw [hRecovered.task, hTask, Option.map_some, Recovered.recovered_of_ne hIdle]
  · exact ⟨workflow, by rwa [h.others key hKey], hTask⟩

end RecoveredStore

end

/-- From every store that clients can have left behind, recovery is complete
exactly when no paused or waiting instance had an attempt in flight: only
runnable instances are recovered. -/
theorem recovery_complete_iff {clients : StorageClients} {actions : List StorageClients.Action}
    (hReached : Run (fun clients action clients' => clients.step action = some clients')
      StorageClients.initial actions clients)
    {clocks : Nat → Clock × Clock} {recovered : Nat} {storage' : MemoryStorage}
    (hSync : synchronizeStartupTasks clocks clients.storage = some (.ok recovered, storage'))
    {queue queue' : MemoryWorkflowQueue} {count : Nat}
    (hQueue : enqueueActiveWorkflowInstances storage' queue = some (count, queue')) :
    RecoveryComplete clients.storage storage' queue' ↔ BlockedAtRest clients.storage := by
  have hSummarized := StorageClients.reachable_summarized hReached
  have hInv : clients.Inv := hReached.invariant StorageClients.Inv.init
    fun _ action _ h hStep => h.step action hStep
  obtain ⟨found, hFound, hRun⟩ := Option.map_eq_some_iff.mp hSync
  have hStore := recoverInstances_ok hSummarized hInv.keyed hRun
  constructor
  · intro hComplete key workflow id task hStored hBlocked hTask
    have hKey : key ∉ found.runnable.map (·.key) := by
      rw [mem_runnable_keys hSummarized hFound hStored]
      intro hRunnable
      revert hBlocked hRunnable
      cases workflow.status <;> decide
    exact hComplete.noneRunning key workflow id task (by rwa [hStore.others key hKey])
      (isTerminalWorkflowStatus_eq_false.mpr (.inr hBlocked)) hTask
  · intro hAtRest
    refine ⟨?_, ?_, fun key workflow => hStore.instance_unchanged,
      fun key workflow id task hStored => hStore.attempt_unchanged hStored⟩
    · intro key workflow' id task hStored' hActive hTask hRunning
      by_cases hKey : key ∈ found.runnable.map (·.key)
      · have hRel := hStore.listed key hKey
        rw [hStored'] at hRel
        generalize clients.storage.workflowInstances.lookup key = stored at hRel
        cases hRel with
        | some hRecovered => exact hRecovered.not_inFlight (.inr ⟨id, task, hTask, hRunning⟩)
      · rw [hStore.others key hKey] at hStored'
        refine hAtRest key workflow' id task hStored' ?_ hTask hRunning
        have hNotRunnable := (mem_runnable_keys hSummarized hFound hStored').not.mp hKey
        exact (isTerminalWorkflowStatus_eq_false.mp hActive).resolve_left hNotRunnable
    · intro ns id workflow hStored hStatus
      have hMem := enqueueActiveWorkflowInstances_mem hStore.summarized hQueue hStored
        (WorkflowStatus.isRunnable_iff.mpr hStatus)
      exact List.count_eq_one_of_mem queue'.nodup hMem

instance (storage : MemoryStorage) : Decidable (BlockedAtRest storage) :=
  decidable_of_iff
    (storage.workflowInstances.toList.all fun entry => !entry.2.status.isBlocked ||
      entry.2.tasks.toList.all fun attempt => attempt.2.status ≠ .running) (by
    simp only [List.all_eq_true, FiniteMap.mem_toList, Bool.or_eq_true, Bool.not_eq_true',
      decide_eq_true_eq, Prod.forall, ← Bool.not_eq_true, ← imp_iff_not_or]
    exact ⟨fun h key workflow id task hStored hBlocked => h key workflow hStored hBlocked id task,
      fun h key workflow hStored hBlocked id task => h key workflow id task hStored hBlocked⟩)

/-! An orchestrator that crashes while a task of its only workflow runs. -/

/-- A store at the crash, and what the next orchestrator makes of it. -/
structure StartedUp where
  crashed : StorageClients
  recovered : Nat
  storage : MemoryStorage
  count : Nat
  queue : MemoryWorkflowQueue

def sampleClocks (_ : Nat) : Clock × Clock := (.ok 100, .ok 101)

def startUp (actions : List StorageClients.Action) : Option StartedUp := do
  let crashed ← actions.foldlM StorageClients.step StorageClients.initial
  match synchronizeStartupTasks sampleClocks crashed.storage with
  | some (.ok recovered, storage) =>
      (enqueueActiveWorkflowInstances storage (.new 8)).map fun result =>
        ⟨crashed, recovered, storage, result.1, result.2⟩
  | _ => none

/-- The three parts of a start: the store at the crash, the recovery, the
queue. -/
theorem startUp_ok {actions : List StorageClients.Action} {s : StartedUp}
    (h : startUp actions = some s) :
    actions.foldlM StorageClients.step StorageClients.initial = some s.crashed ∧
      synchronizeStartupTasks sampleClocks s.crashed.storage = some (.ok s.recovered, s.storage) ∧
      enqueueActiveWorkflowInstances s.storage (.new 8) = some (s.count, s.queue) := by
  obtain ⟨crashed, hCrashed, h⟩ := Option.bind_eq_some_iff.mp h
  split at h
  · rename_i hSync
    obtain ⟨result, hQueue, rfl⟩ := Option.map_eq_some_iff.mp h
    exact ⟨hCrashed, hSync, hQueue⟩
  · cases h

/-- The commits of a request and of the pass that it starts, up to the first
dispatch. -/
def dispatchedActions : List StorageClients.Action :=
  [.read .global "w-1",
    .commit 0 [.workflowCreated (.created "w-1" "article" ⟨"host"⟩ none)] (.ok 10) (.ok 10),
    .commit 0 [.workflowStatusChanged .running] (.ok 20) (.ok 20),
    .commit 0 [.taskMaterialized "draft[1]" (.fresh "draft" 1)] (.ok 21) (.ok 21),
    .commit 0 [.taskStatusChanged "draft[1]" .running] (.ok 22) (.ok 22)]

/-- A start after a crash with one attempt in flight goes through. -/
theorem dispatchedActions_started : (startUp dispatchedActions).isSome := by
  decide +kernel

def dispatchedStart : StartedUp := (startUp dispatchedActions).get dispatchedActions_started

/-- The running draft is pending again and its workflow is queued. -/
theorem recovery_complete_dispatched :
    RecoveryComplete dispatchedStart.crashed.storage dispatchedStart.storage
      dispatchedStart.queue := by
  obtain ⟨hCrashed, hSync, hQueue⟩ := startUp_ok (s := dispatchedStart) (Option.some_get _).symm
  exact (recovery_complete_iff (Run.of_foldlM hCrashed) hSync hQueue).mpr (by decide +kernel)

/-- The same, and a pause request before the crash. -/
def pausedActions : List StorageClients.Action :=
  dispatchedActions ++ [.commit 0 [.workflowStatusChanged .paused] (.ok 30) (.ok 30)]

theorem pausedActions_started : (startUp pausedActions).isSome := by
  decide +kernel

def pausedStart : StartedUp := (startUp pausedActions).get pausedActions_started

def pausedKey : ResourceKey := resourceKey .global "w-1"

theorem pausedWorkflow_stored :
    (pausedStart.storage.workflowInstances.lookup pausedKey).isSome := by
  decide +kernel

def pausedWorkflow : WorkflowInstance :=
  (pausedStart.storage.workflowInstances.lookup pausedKey).get pausedWorkflow_stored

theorem pausedDraft_stored : (pausedWorkflow.tasks.lookup "draft[1]").isSome := by
  decide +kernel

/-- The two calls of the start-up return after the crash, and the draft of the
paused workflow is still Running. -/
theorem paused_attempt_stays_running :
    Run (fun clients action clients' => StorageClients.step clients action = some clients')
        StorageClients.initial pausedActions pausedStart.crashed ∧
      synchronizeStartupTasks sampleClocks pausedStart.crashed.storage =
        some (.ok pausedStart.recovered, pausedStart.storage) ∧
      enqueueActiveWorkflowInstances pausedStart.storage (.new 8) =
        some (pausedStart.count, pausedStart.queue) ∧
      ¬RecoveryComplete pausedStart.crashed.storage pausedStart.storage pausedStart.queue := by
  obtain ⟨hCrashed, hSync, hQueue⟩ := startUp_ok (s := pausedStart) (Option.some_get _).symm
  refine ⟨Run.of_foldlM hCrashed, hSync, hQueue, fun hComplete => ?_⟩
  exact hComplete.noneRunning pausedKey pausedWorkflow "draft[1]" _ (Option.some_get _).symm
    (by decide +kernel) (Option.some_get pausedDraft_stored).symm (by decide +kernel)

end RelayFold
