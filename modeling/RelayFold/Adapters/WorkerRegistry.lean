import RelayFold.Library.FiniteMap
import RelayFold.Library.Runs
import RelayFold.Core.Worker

/-! The worker registry (`worker_registry.rs`): who has sent a heartbeat, and
which hosts are lost. A host is reported as lost only by the liveness update of
the loss monitor. -/
namespace RelayFold

structure WorkerHeartbeatPolicy where
  heartbeatIntervalMs : UInt64
  missedHeartbeatThreshold : UInt32

structure WorkerState where
  identity : WorkerIdentity
  heartbeat : WorkerHeartbeatState

structure WorkerRegistry where
  workers : FiniteMap String WorkerState
  policy : WorkerHeartbeatPolicy
  nextHostSelection : Nat

namespace WorkerRegistry

def new (policy : WorkerHeartbeatPolicy) : WorkerRegistry where
  workers := ∅
  policy := policy
  nextHostSelection := 0

/-- The hosts in the order of their ids, each once. -/
def sortedHosts (hosts : List WorkerHostId) : List WorkerHostId :=
  (hosts.insertionSort fun left right => left.value ≤ right.value).dedup

def hosts (workers : FiniteMap String WorkerState) : List WorkerHostId :=
  workers.toList.map fun entry => entry.2.identity.hostId

def heartbeatState (registry : WorkerRegistry) (identity : WorkerIdentity) (nowEpochMs : UInt64) :
    WorkerHeartbeatState :=
  let intervalMs := registry.policy.heartbeatIntervalMs
  let threshold := UInt64.ofNat (max registry.policy.missedHeartbeatThreshold.toNat 1)
  { identity := identity
    lastHeartbeatAtEpochMs := nowEpochMs
    nextHeartbeatDueEpochMs := nowEpochMs + intervalMs
    deregisterAfterEpochMs := nowEpochMs + intervalMs * threshold
    missedHeartbeat := false }

/-- A registration is a heartbeat. A known worker id takes the new identity. -/
def tickWorkerHeartbeat (registry : WorkerRegistry) (identity : WorkerIdentity) (now : UInt64) :
    WorkerRegistry :=
  let worker : WorkerState :=
    { identity := identity, heartbeat := registry.heartbeatState identity now }
  { registry with workers := registry.workers.insert identity.workerId.value worker }

def WorkerState.isDeregisteredAt (worker : WorkerState) (now : UInt64) : Bool :=
  worker.heartbeat.deregisterAfterEpochMs ≤ now

def WorkerState.markMissed (now : UInt64) (worker : WorkerState) : WorkerState :=
  { worker with
    heartbeat := { worker.heartbeat with
      missedHeartbeat := worker.heartbeat.nextHeartbeatDueEpochMs ≤ now } }

/-- Deregister the workers that are overdue. A host is lost when its last
worker is deregistered here. -/
def updateWorkerLiveness (registry : WorkerRegistry) (now : UInt64) :
    List WorkerHostId × WorkerRegistry :=
  let deregistered := registry.workers.retain (WorkerState.isDeregisteredAt · now)
  let workers := (registry.workers.retain (!WorkerState.isDeregisteredAt · now)).mapValues
    (WorkerState.markMissed now)
  (sortedHosts ((hosts deregistered).filter fun host => host ∉ hosts workers),
    { registry with workers := workers })

def eligibleHosts (registry : WorkerRegistry) : List WorkerHostId :=
  sortedHosts (hosts (registry.workers.retain fun worker => !worker.heartbeat.missedHeartbeat))

/-- The lost hosts of this liveness update are not used. -/
def selectEligibleHost (registry : WorkerRegistry) (now : UInt64) :
    Option WorkerHostId × WorkerRegistry :=
  let registry := (registry.updateWorkerLiveness now).2
  let eligibleHosts := registry.eligibleHosts
  if eligibleHosts.isEmpty then (none, registry)
  else (eligibleHosts[registry.nextHostSelection % eligibleHosts.length]?,
    { registry with nextHostSelection := registry.nextHostSelection + 1 })

/-- The current host if it is eligible, or else another one. -/
def selectForceRetryHost (registry : WorkerRegistry) (currentHost : Option WorkerHostId)
    (now : UInt64) : Option WorkerHostId × WorkerRegistry :=
  let registry := (registry.updateWorkerLiveness now).2
  let eligibleHosts := registry.eligibleHosts
  match currentHost with
  | some current =>
      if current ∈ eligibleHosts then (some current, registry)
      else (eligibleHosts.find? fun host => some host ≠ currentHost, registry)
  | none => (eligibleHosts.find? fun host => some host ≠ currentHost, registry)

end WorkerRegistry

inductive RegistryAction where
  | tickWorkerHeartbeat (identity : WorkerIdentity) (now : UInt64)
  | selectEligibleHost (now : UInt64)
  | selectForceRetryHost (currentHost : Option WorkerHostId) (now : UInt64)
  | monitorTick (now : UInt64)

/-- A tick of the loss monitor. -/
def RegistryAction.isMonitorTick : RegistryAction → Bool
  | monitorTick _ => true
  | _ => false

/-- The host the action registers a worker for. -/
def RegistryAction.registers : RegistryAction → Option WorkerHostId
  | tickWorkerHeartbeat identity _ => some identity.hostId
  | _ => none

namespace WorkerRegistry

def step (registry : WorkerRegistry) : RegistryAction → WorkerRegistry
  | .tickWorkerHeartbeat identity now => registry.tickWorkerHeartbeat identity now
  | .selectEligibleHost now => (registry.selectEligibleHost now).2
  | .selectForceRetryHost currentHost now => (registry.selectForceRetryHost currentHost now).2
  | .monitorTick now => (registry.updateWorkerLiveness now).2

/-- The lost hosts that the action hands on. -/
def reported (registry : WorkerRegistry) : RegistryAction → List WorkerHostId
  | .monitorTick now => (registry.updateWorkerLiveness now).1
  | _ => []

abbrev Steps : WorkerRegistry → List RegistryAction → WorkerRegistry → Prop :=
  Run fun registry action registry' => registry.step action = registry'

def HasWorker (registry : WorkerRegistry) (host : WorkerHostId) : Prop :=
  ∃ id worker, registry.workers.lookup id = some worker ∧ worker.identity.hostId = host

/-- A host that the action has lost is reported: by the action itself, or by an
action of `later` with no registration for the host before it. Nothing is owed
once a worker registers for the host again first. -/
inductive ReportedFrom (registry : WorkerRegistry) (action : RegistryAction)
    (later : List RegistryAction) (host : WorkerHostId) : Prop
  | now (hReported : host ∈ registry.reported action)
  | later {before after : List RegistryAction} {tick : RegistryAction} {last : WorkerRegistry}
      (hLater : later = before ++ tick :: after) (run : Steps (registry.step action) before last)
      (hOther : ∀ other ∈ before, other.registers ≠ some host)
      (hReported : host ∈ last.reported tick)
  | registeredAgain {other : RegistryAction} (hMem : other ∈ later)
      (hRegisters : other.registers = some host)

variable {registry registry' : WorkerRegistry} {host : WorkerHostId} {now : UInt64}

theorem mem_sortedHosts {hosts : List WorkerHostId} : host ∈ sortedHosts hosts ↔ host ∈ hosts := by
  rw [sortedHosts, List.mem_dedup]
  exact (List.perm_insertionSort _ hosts).mem_iff

theorem mem_hosts {workers : FiniteMap String WorkerState} :
    host ∈ hosts workers ↔
      ∃ id worker, workers.lookup id = some worker ∧ worker.identity.hostId = host := by
  simp only [hosts, List.mem_map, FiniteMap.mem_toList, Prod.exists]

theorem hasWorker_iff : registry.HasWorker host ↔ host ∈ hosts registry.workers := mem_hosts.symm

/-- A liveness update keeps the workers that are not overdue, on their
hosts. -/
theorem updateWorkerLiveness_lookup (registry : WorkerRegistry) (now : UInt64) (id : String) :
    (registry.updateWorkerLiveness now).2.workers.lookup id =
      ((registry.workers.lookup id).filter (!WorkerState.isDeregisteredAt · now)).map
        (WorkerState.markMissed now) := by
  change (FiniteMap.mapValues _ _).lookup id = _
  rw [FiniteMap.lookup_mapValues, FiniteMap.lookup_retain]

theorem HasWorker.of_update (h : (registry.updateWorkerLiveness now).2.HasWorker host) :
    registry.HasWorker host := by
  obtain ⟨id, worker, hWorker, hHost⟩ := h
  rw [updateWorkerLiveness_lookup] at hWorker
  obtain ⟨old, hOld, rfl⟩ := Option.map_eq_some_iff.mp hWorker
  exact ⟨id, old, (Option.filter_eq_some_iff.mp hOld).1, hHost⟩

/-- A liveness update loses exactly the hosts whose last worker it
deregisters. -/
theorem mem_lostHosts : host ∈ (registry.updateWorkerLiveness now).1 ↔
    registry.HasWorker host ∧ ¬(registry.updateWorkerLiveness now).2.HasWorker host := by
  change host ∈ sortedHosts _ ↔ _
  rw [mem_sortedHosts, List.mem_filter, decide_eq_true_eq, hasWorker_iff]
  constructor
  · rintro ⟨hDeregistered, hGone⟩
    obtain ⟨id, worker, hWorker, hHost⟩ := mem_hosts.mp hDeregistered
    rw [FiniteMap.lookup_retain] at hWorker
    exact ⟨mem_hosts.mpr ⟨id, worker, (Option.filter_eq_some_iff.mp hWorker).1, hHost⟩, fun h =>
      hGone (mem_hosts.mpr h)⟩
  · rintro ⟨hHad, hGone⟩
    obtain ⟨id, worker, hWorker, hHost⟩ := mem_hosts.mp hHad
    refine ⟨mem_hosts.mpr ⟨id, worker, ?_, hHost⟩, fun h => hGone (mem_hosts.mp h)⟩
    rw [FiniteMap.lookup_retain, hWorker, Option.filter_some, if_pos]
    refine Bool.eq_true_of_not_eq_false fun hAlive => hGone ⟨id, WorkerState.markMissed now worker, ?_, hHost⟩
    rw [updateWorkerLiveness_lookup, hWorker, Option.filter_some, if_pos (by simp [hAlive])]
    rfl

/-- Selecting a host updates the liveness on the way, and its report of lost
hosts is dropped. -/
theorem selectEligibleHost_workers (registry : WorkerRegistry) (now : UInt64) :
    (registry.selectEligibleHost now).2.workers = (registry.updateWorkerLiveness now).2.workers := by
  unfold selectEligibleHost
  dsimp only
  split <;> rfl

/-- The selection for a forced retry does the same. -/
theorem selectForceRetryHost_workers (registry : WorkerRegistry)
    (currentHost : Option WorkerHostId) (now : UInt64) :
    (registry.selectForceRetryHost currentHost now).2.workers =
      (registry.updateWorkerLiveness now).2.workers := by
  unfold selectForceRetryHost
  dsimp only
  split
  · split <;> rfl
  · rfl

/-- Without a registration a host gets no worker. -/
theorem HasWorker.of_step {action : RegistryAction} (h : (registry.step action).HasWorker host)
    (hOther : action.registers ≠ some host) : registry.HasWorker host := by
  cases action with
  | tickWorkerHeartbeat identity now =>
      obtain ⟨id, worker, hWorker, hHost⟩ := h
      simp only [step, WorkerRegistry.tickWorkerHeartbeat, FiniteMap.lookup_insert_eq] at hWorker
      split at hWorker
      · cases hWorker
        exact absurd (congrArg some hHost) hOther
      · exact ⟨id, worker, hWorker, hHost⟩
  | selectEligibleHost now =>
      obtain ⟨id, worker, hWorker, hHost⟩ := h
      rw [step, selectEligibleHost_workers] at hWorker
      exact HasWorker.of_update ⟨id, worker, hWorker, hHost⟩
  | selectForceRetryHost currentHost now =>
      obtain ⟨id, worker, hWorker, hHost⟩ := h
      rw [step, selectForceRetryHost_workers] at hWorker
      exact HasWorker.of_update ⟨id, worker, hWorker, hHost⟩
  | monitorTick now => exact HasWorker.of_update h

/-- A host without a worker is reported by nobody until a worker registers for
it. -/
theorem Steps.not_reported {later : List RegistryAction} (run : Steps registry later registry')
    (hNone : ¬registry.HasWorker host) (hOther : ∀ action ∈ later, action.registers ≠ some host)
    (tick : RegistryAction) : host ∉ registry'.reported tick := by
  have hStill : ¬registry'.HasWorker host := by
    induction run with
    | nil => exact hNone
    | snoc prior last ih =>
        obtain ⟨hPrior, hLast⟩ := List.forall_mem_append.mp hOther
        cases last
        exact fun h => ih hPrior (h.of_step (hLast _ List.mem_cons_self))
  cases tick with
  | monitorTick now => exact fun h => hStill (mem_lostHosts.mp h).1
  | _ => exact (fun h => nomatch h)

/-- A host that is lost without the loss monitor is never reported, however
many ticks follow. -/
theorem not_reportedFrom {action : RegistryAction} {later : List RegistryAction}
    (hGone : ¬(registry.step action).HasWorker host) (hSilent : action.isMonitorTick = false)
    (hOther : ∀ other ∈ later, other.registers ≠ some host) :
    ¬registry.ReportedFrom action later host := by
  intro h
  cases h with
  | now hReported =>
      cases action with
      | monitorTick now => cases hSilent
      | _ => cases hReported
  | later hLater run hBefore hReported => exact run.not_reported hGone hBefore _ hReported
  | registeredAgain hMem hRegisters => exact hOther _ hMem hRegisters

/-- A host that loses its last worker is reported, or gets a worker again
first, exactly if the loss monitor takes its last worker or a worker registers
for it again. -/
theorem loss_reported_iff {action : RegistryAction} {later : List RegistryAction}
    (hHad : registry.HasWorker host) (hGone : ¬(registry.step action).HasWorker host) :
    registry.ReportedFrom action later host ↔
      action.isMonitorTick = true ∨ ∃ other ∈ later, other.registers = some host := by
  constructor
  · intro hReported
    by_contra hNeither
    obtain ⟨hSilent, hOther⟩ := not_or.mp hNeither
    exact not_reportedFrom hGone (Bool.eq_false_of_not_eq_true hSilent)
      (fun other hMem hRegisters => hOther ⟨other, hMem, hRegisters⟩) hReported
  · rintro (hTick | ⟨other, hMem, hRegisters⟩)
    · cases action with
      | monitorTick now => exact .now (mem_lostHosts.mpr ⟨hHad, hGone⟩)
      | _ => cases hTick
    · exact .registeredAgain hMem hRegisters

/-- The registry after a sequence of actions. -/
def after (policy : WorkerHeartbeatPolicy) (actions : List RegistryAction) : WorkerRegistry :=
  actions.foldl step (new policy)

/-- In the sequence a host loses its last worker by `action`, after the actions
of `prior` and before those of `later`. -/
structure HostLoss (policy : WorkerHeartbeatPolicy) (actions prior : List RegistryAction)
    (action : RegistryAction) (later : List RegistryAction) (host : WorkerHostId) : Prop where
  within : actions = prior ++ action :: later
  had : (after policy prior).HasWorker host
  gone : ¬((after policy prior).step action).HasWorker host

/-- In a sequence of registrations, heartbeats, host selections and ticks every
host loss is reported, unless a worker registers for the host again first,
exactly if each of them is found by a tick of the loss monitor or followed by a
registration for the host. -/
theorem losses_reported_iff (policy : WorkerHeartbeatPolicy) (actions : List RegistryAction) :
    (∀ prior action later host, HostLoss policy actions prior action later host →
      (after policy prior).ReportedFrom action later host) ↔
    ∀ prior action later host, HostLoss policy actions prior action later host →
      action.isMonitorTick = true ∨ ∃ other ∈ later, other.registers = some host := by
  constructor
  · intro hReported prior action later host hLoss
    exact (loss_reported_iff hLoss.had hLoss.gone).mp (hReported prior action later host hLoss)
  · intro hCondition prior action later host hLoss
    exact (loss_reported_iff hLoss.had hLoss.gone).mpr (hCondition prior action later host hLoss)

instance (registry : WorkerRegistry) (host : WorkerHostId) : Decidable (registry.HasWorker host) :=
  decidable_of_iff _ hasWorker_iff.symm

/-! Two ways to lose a host unnoticed: a host selection finds its worker
overdue, or the worker moves to another host. The ticks that follow do not
report it. -/

def defaultPolicy : WorkerHeartbeatPolicy :=
  { heartbeatIntervalMs := 5000, missedHeartbeatThreshold := 3 }

def registered : List RegistryAction := [.tickWorkerHeartbeat ⟨⟨"worker"⟩, ⟨"host"⟩⟩ 0]

def moved : RegistryAction := .tickWorkerHeartbeat ⟨⟨"worker"⟩, ⟨"other"⟩⟩ 1

def ticks : List RegistryAction := [.monitorTick 16000, .monitorTick 32000]

theorem ticks_silent : ∀ other ∈ ticks, other.registers ≠ some ⟨"host"⟩ := by
  decide

/-- A selection deregisters the last worker of the host, and so does a worker
that moves; neither loss is reported by any tick that follows. -/
theorem selection_hides_loss :
    (HostLoss defaultPolicy (registered ++ .selectEligibleHost 15000 :: ticks) registered
        (.selectEligibleHost 15000) ticks ⟨"host"⟩ ∧
      ¬(after defaultPolicy registered).ReportedFrom (.selectEligibleHost 15000) ticks ⟨"host"⟩) ∧
    HostLoss defaultPolicy (registered ++ moved :: ticks) registered moved ticks ⟨"host"⟩ ∧
      ¬(after defaultPolicy registered).ReportedFrom moved ticks ⟨"host"⟩ := by
  have hSelected : ¬((after defaultPolicy registered).step (.selectEligibleHost 15000)).HasWorker
      ⟨"host"⟩ := by decide +kernel
  have hMoved : ¬((after defaultPolicy registered).step moved).HasWorker ⟨"host"⟩ := by
    decide +kernel
  have hHad : (after defaultPolicy registered).HasWorker ⟨"host"⟩ := by decide +kernel
  exact ⟨⟨⟨rfl, hHad, hSelected⟩, not_reportedFrom hSelected rfl ticks_silent⟩,
    ⟨rfl, hHad, hMoved⟩, not_reportedFrom hMoved rfl ticks_silent⟩

end WorkerRegistry

end RelayFold
