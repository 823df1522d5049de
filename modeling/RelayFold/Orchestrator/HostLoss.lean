import RelayFold.Engine.System
import RelayFold.Adapters.MemoryWorkflowQueue
import RelayFold.Orchestrator.Discovery

/-! Failing the workflows that are pinned to lost hosts (`orchestrator.rs`):
one call lists the unfinished workflows, then reads each and commits on what it
read, while other parties commit to the same store. -/
namespace RelayFold

open MemoryStorage WorkflowStateManager KeysetPages

namespace StorageClients

variable {clients clients' : StorageClients}

/-- The clients after a commit of one of them. -/
def recorded (clients : StorageClients) (ns : Namespace) (current : Option WorkflowInstance)
    (outcome : Except StorageError WorkflowInstance × MemoryStorage) : StorageClients :=
  match outcome with
  | (.error _, storage) => { clients with storage := storage }
  | (.ok updated, storage) =>
      { storage := storage
        held := (ns, some updated) :: clients.held
        committed := (resourceKey ns updated.id, (current.map (·.version)).getD 0) ::
          clients.committed }

/-- Clients never forget a snapshot that they have read. -/
theorem held_mono {action : Action} (hStep : clients.step action = some clients')
    {snapshot : Namespace × Option WorkflowInstance} (hHeld : snapshot ∈ clients.held) :
    snapshot ∈ clients'.held := by
  cases action with
  | read ns id =>
      cases hStep
      exact List.mem_cons_of_mem _ hHeld
  | commit index events clock storageClock =>
      simp only [StorageClients.step] at hStep
      obtain ⟨_, _, hStep⟩ := Option.bind_eq_some_iff.mp hStep
      split at hStep
      · cases hStep
        exact hHeld
      · cases hStep
        exact List.mem_cons_of_mem _ hHeld

/-- Whatever a commit of the call comes to, the store stays consistent with its
logs. -/
theorem Inv.recorded (h : Inv clients) {ns : Namespace} {current : Option WorkflowInstance}
    (hHeld : (ns, current) ∈ clients.held) (events : List WorkflowInstanceEvent)
    (clock storageClock : Clock) :
    Inv (clients.recorded ns current ((commitEventsForCurrent port ns current events clock
      storageClock).run.run clients.storage)) := by
  rcases commitEventsForCurrent_cases ns current events clock storageClock clients.storage with
    ⟨error, hRun⟩ | ⟨updated, storage', hRun, hAccepted⟩
  · rw [hRun]
    exact h
  · rw [hRun]
    exact h.accepted hHeld hAccepted

/-- And the summaries stay in step. -/
theorem summarized_recorded (h : clients.storage.Summarized) (ns : Namespace)
    (current : Option WorkflowInstance) (events : List WorkflowInstanceEvent)
    (clock storageClock : Clock) :
    (clients.recorded ns current ((commitEventsForCurrent port ns current events clock
      storageClock).run.run clients.storage)).storage.Summarized := by
  rcases commitEventsForCurrent_cases ns current events clock storageClock clients.storage with
    ⟨error, hRun⟩ | ⟨updated, storage', hRun, hAccepted⟩
  · rw [hRun]
    exact h
  · rw [hRun]
    exact h.commit hAccepted hRun

end StorageClients

/-- Where the call is. -/
inductive ReconcilePhase where
  | listing (cursor : Option WorkflowInfoCursor) (found : StartupWorkflowDiscovery)
  | next (remaining : List WorkflowInfo) (failed : Nat)
  | committing (info : WorkflowInfo) (workflow : WorkflowInstance)
      (remaining : List WorkflowInfo) (failed : Nat)
  | removing (info : WorkflowInfo) (remaining : List WorkflowInfo) (failed : Nat)
  | returned (result : Except StorageError Nat)

/-- The call, the store with all its clients, and the queue. -/
structure Reconciliation where
  clients : StorageClients
  queue : MemoryWorkflowQueue
  phase : ReconcilePhase

/-- The call takes its next step, or another party uses the store or the
queue. -/
inductive ReconcileAction where
  | call (clock storageClock : Clock)
  | client (action : StorageClients.Action)
  | useQueue (queue : MemoryWorkflowQueue)

namespace Reconciliation

abbrev storage (s : Reconciliation) : MemoryStorage := s.clients.storage

/-- Without lost hosts the call returns at once. -/
def start (lostHosts : List WorkerHostId) (clients : StorageClients)
    (queue : MemoryWorkflowQueue) : Reconciliation where
  clients := clients
  queue := queue
  phase := if lostHosts.isEmpty then .returned (.ok 0) else .listing none ⟨[], []⟩

/-- The instance that was read is to be failed. -/
def toBeFailed (lostHosts : List WorkerHostId) (workflow : WorkflowInstance) : Bool :=
  workflow.pinnedWorkerHost.any (· ∈ lostHosts) && !isTerminalWorkflowStatus workflow.status

/-- One instance's part of the call as a request of its system. -/
theorem failPinnedToLostHosts_batch (definitions : String → Option WorkflowDef)
    (lostHosts : List WorkerHostId) (workflow : WorkflowInstance) :
    (Request.failPinnedToLostHosts lostHosts).batch definitions workflow =
      .ok (if toBeFailed lostHosts workflow then some [.workflowStatusChanged .failed]
        else none) := by
  unfold Request.batch toBeFailed
  rcases Option.eq_none_or_eq_some workflow.pinnedWorkerHost with hPin | ⟨host, hPin⟩
  · simp only [hPin, Option.any_none, Bool.false_and, Bool.false_eq_true, if_false]
  · simp only [hPin, Option.any_some]
    by_cases hSkip : workflow.status = .completed ∨ workflow.status = .failed ∨ host ∉ lostHosts
    · rw [if_pos hSkip, if_neg]
      rcases hSkip with hSkip | hSkip | hSkip <;> simp [isTerminalWorkflowStatus, hSkip]
    · rw [if_neg hSkip, if_pos]
      obtain ⟨hCompleted, hRest⟩ := not_or.mp hSkip
      obtain ⟨hFailed, hLost⟩ := not_or.mp hRest
      simp [isTerminalWorkflowStatus, hCompleted, hFailed, not_not.mp hLost]

/-- Read one listed instance. -/
def visit (lostHosts : List WorkerHostId) (s : Reconciliation) (info : WorkflowInfo)
    (remaining : List WorkflowInfo) (failed : Nat) : Reconciliation :=
  let found := s.storage.getWorkflowInstance info.ns info.id
  { s with
    clients := { s.clients with held := (info.ns, found) :: s.clients.held }
    phase :=
      match found with
      | none => .next remaining failed
      | some workflow =>
          if toBeFailed lostHosts workflow then .committing info workflow remaining failed
          else .next remaining failed }

/-- A failed commit ends the call. -/
def commit (s : Reconciliation) (info : WorkflowInfo) (workflow : WorkflowInstance)
    (remaining : List WorkflowInfo) (failed : Nat) (clock storageClock : Clock) :
    Reconciliation :=
  let outcome := (commitEventsForInstance port info.ns workflow
    [.workflowStatusChanged .failed] clock storageClock).run.run s.storage
  { s with
    clients := s.clients.recorded info.ns (some workflow) outcome
    phase :=
      match outcome.1 with
      | .ok _ => .removing info remaining failed
      | .error error => .returned (.error error) }

def callStep (lostHosts : List WorkerHostId) (s : Reconciliation) (clock storageClock : Clock) :
    Option Reconciliation :=
  match s.phase with
  | .listing cursor found =>
      let page := discoveryPage none s.storage cursor
      let found := found.extend page.items
      some { s with
        phase :=
          match page.nextCursor with
          | some cursor => .listing (some cursor) found
          | none => .next (found.runnable ++ found.blocked) 0 }
  | .next [] failed => some { s with phase := .returned (.ok failed) }
  | .next (info :: remaining) failed => some (s.visit lostHosts info remaining failed)
  | .committing info workflow remaining failed =>
      some (s.commit info workflow remaining failed clock storageClock)
  | .removing info remaining failed =>
      some { s with
        queue := (s.queue.remove ⟨info.ns, info.id⟩).2
        phase := .next remaining (failed + 1) }
  | .returned _ => none

def step (lostHosts : List WorkerHostId) (s : Reconciliation) :
    ReconcileAction → Option Reconciliation
  | .call clock storageClock => s.callStep lostHosts clock storageClock
  | .client action => (s.clients.step action).map fun clients => { s with clients := clients }
  | .useQueue queue => some { s with queue := queue }

/-- The snapshot the call commits on was read from the store, and it is to be
failed. -/
structure Inv (lostHosts : List WorkerHostId) (s : Reconciliation) : Prop where
  clients : s.clients.Inv
  summarized : s.storage.Summarized
  reading : ∀ info workflow remaining failed,
    s.phase = .committing info workflow remaining failed →
      (info.ns, some workflow) ∈ s.clients.held ∧ workflow.id = info.id ∧
        toBeFailed lostHosts workflow = true

variable {lostHosts : List WorkerHostId} {s s' : Reconciliation}

/-- Before the first page is read, nothing is about to be committed. -/
theorem Inv.start {clients : StorageClients} (hClients : clients.Inv)
    (hSummarized : clients.storage.Summarized) (queue : MemoryWorkflowQueue) :
    Inv lostHosts (start lostHosts clients queue) where
  clients := hClients
  summarized := hSummarized
  reading info workflow remaining failed hPhase := by
    unfold Reconciliation.start at hPhase
    dsimp only at hPhase
    split at hPhase <;> cases hPhase

/-- What the call commits next was read from the store in this very visit. -/
theorem Inv.visit (h : Inv lostHosts s) (info : WorkflowInfo) (remaining : List WorkflowInfo)
    (failed : Nat) : Inv lostHosts (s.visit lostHosts info remaining failed) where
  clients := h.clients.read info.ns info.id
  summarized := h.summarized
  reading info' workflow remaining' failed' hPhase := by
    unfold Reconciliation.visit at hPhase ⊢
    dsimp only at hPhase ⊢
    split at hPhase
    · cases hPhase
    · rename_i found hFound
      split at hPhase
      · rename_i hFail
        cases hPhase
        rw [hFound]
        exact ⟨List.mem_cons_self, h.clients.keyed _ _ _ hFound, hFail⟩
      · cases hPhase

/-- Steps of the call, of other clients and of the queue keep the invariant. -/
theorem Inv.step (h : Inv lostHosts s) (action : ReconcileAction)
    (hStep : Reconciliation.step lostHosts s action = some s') : Inv lostHosts s' := by
  cases action with
  | client action =>
      obtain ⟨clients, hClients, rfl⟩ := Option.map_eq_some_iff.mp hStep
      exact ⟨h.clients.step action hClients, StorageClients.summarized_step h.summarized action hClients,
        fun info workflow remaining failed hPhase =>
          have ⟨hHeld, hRest⟩ := h.reading info workflow remaining failed hPhase
          ⟨StorageClients.held_mono hClients hHeld, hRest⟩⟩
  | useQueue queue =>
      cases hStep
      exact ⟨h.clients, h.summarized, h.reading⟩
  | call clock storageClock =>
      simp only [Reconciliation.step, callStep] at hStep
      split at hStep
      · rename_i cursor found hPhase
        cases hStep
        refine ⟨h.clients, h.summarized, fun info workflow remaining failed hNext => ?_⟩
        dsimp only at hNext
        split at hNext <;> cases hNext
      · cases hStep
        exact ⟨h.clients, h.summarized, fun _ _ _ _ hNext => nomatch hNext⟩
      · cases hStep
        exact h.visit ..
      · rename_i info workflow remaining failed hPhase
        obtain ⟨hHeld, -, -⟩ := h.reading _ _ _ _ hPhase
        cases hStep
        refine ⟨h.clients.recorded hHeld .., StorageClients.summarized_recorded h.summarized _ _ _ _ _,
          fun _ _ _ _ hNext => ?_⟩
        unfold commit at hNext
        dsimp only at hNext
        split at hNext <;> cases hNext
      · cases hStep
        exact ⟨h.clients, h.summarized, fun _ _ _ _ hNext => nomatch hNext⟩
      · cases hStep

section Commit

variable {info : WorkflowInfo} {workflow : WorkflowInstance} {remaining : List WorkflowInfo}
  {failed : Nat}

/-- The call's commit is refused, or it fails the very snapshot that was
read. -/
theorem Inv.commit_cases (h : Inv lostHosts s)
    (hPhase : s.phase = .committing info workflow remaining failed) (clock storageClock : Clock) :
    ((∃ error, (s.commit info workflow remaining failed clock storageClock).phase =
        .returned (.error error)) ∧
      (s.commit info workflow remaining failed clock storageClock).storage = s.storage) ∨
    ((s.commit info workflow remaining failed clock storageClock).phase =
        .removing info remaining failed ∧
      s.storage.workflowInstances.lookup info.key = some workflow ∧
      ∃ updated, updated.status = .failed ∧ ∀ key,
        (s.commit info workflow remaining failed clock
          storageClock).storage.workflowInstances.lookup key =
          if key = info.key then some updated else s.storage.workflowInstances.lookup key) := by
  obtain ⟨hHeld, hId, -⟩ := h.reading _ _ _ _ hPhase
  unfold commit commitEventsForInstance Reconciliation.storage
  rcases commitEventsForCurrent_cases info.ns (some workflow) [.workflowStatusChanged .failed]
    clock storageClock s.clients.storage with
    ⟨error, hRun⟩ | ⟨updated, storage', hRun, hAccepted⟩
  · rw [hRun]
    exact .inl ⟨⟨error, rfl⟩, rfl⟩
  · rw [hRun]
    have hKey : resourceKey info.ns updated.id = info.key := by
      rw [hAccepted.id_eq, hId, WorkflowInfo.key]
    have hStored := h.clients.base_stored hHeld hAccepted
    have hLookup := hAccepted.lookup
    rw [hKey] at hStored hLookup
    refine .inr ⟨rfl, hStored, updated, ?_, hLookup⟩
    obtain ⟨reduced, hReduce, rfl⟩ := hAccepted.reduced
    cases hReduce
    rfl

/-- On an unchanged instance, with clocks that can be read, the commit is
accepted. -/
theorem Inv.commit_accepted (h : Inv lostHosts s)
    (hPhase : s.phase = .committing info workflow remaining failed)
    (hVersion : s.storage.versionAt info.key = workflow.version) (now storageNow : Nat) :
    (s.commit info workflow remaining failed (.ok now) (.ok storageNow)).phase =
      .removing info remaining failed := by
  obtain ⟨-, hId, -⟩ := h.reading _ _ _ _ hPhase
  have hKey : resourceKey info.ns workflow.id = info.key := by rw [hId, WorkflowInfo.key]
  have hReduce : reduceWorkflowInstanceEvents (some workflow) [.workflowStatusChanged .failed] =
      .ok { workflow with status := .failed } := rfl
  obtain ⟨updated, storage', hRun⟩ := commitEventsForCurrent_accepts (List.cons_ne_nil _ _)
    hReduce (hKey ▸ hVersion) now storageNow
  unfold commit commitEventsForInstance Reconciliation.storage
  rw [hRun]

end Commit

/-- The call leaves alone every instance that is unpinned or pinned to another
host. -/
theorem Inv.call_keeps_others (h : Inv lostHosts s) {clock storageClock : Clock}
    (hStep : Reconciliation.step lostHosts s (.call clock storageClock) = some s')
    {key : ResourceKey} {workflow : WorkflowInstance}
    (hStored : s.storage.workflowInstances.lookup key = some workflow)
    (hOther : workflow.pinnedWorkerHost.any (· ∈ lostHosts) = false) :
    s'.storage.workflowInstances.lookup key = some workflow := by
  simp only [Reconciliation.step, callStep] at hStep
  split at hStep
  · cases hStep
    exact hStored
  · cases hStep
    exact hStored
  · cases hStep
    exact hStored
  · rename_i info seen remaining failed hPhase
    cases hStep
    rcases h.commit_cases hPhase clock storageClock with ⟨-, hSame⟩ | ⟨-, hSeen, updated, -, hLookup⟩
    · rwa [hSame]
    · rw [hLookup, if_neg]
      · exact hStored
      · rintro rfl
        rw [hSeen] at hStored
        cases hStored
        obtain ⟨-, -, hFail⟩ := h.reading _ _ _ _ hPhase
        rw [toBeFailed, hOther] at hFail
        cases hFail
  · cases hStep
    exact hStored
  · cases hStep

/-- Non-terminal and pinned to a lost host. -/
def exposed (lostHosts : List WorkerHostId) (storage : MemoryStorage) (key : ResourceKey) : Bool :=
  (storage.workflowInstances.lookup key).any (toBeFailed lostHosts)

def failedAt (storage : MemoryStorage) (key : ResourceKey) : Bool :=
  (storage.workflowInstances.lookup key).any (·.status = .failed)

/-- The summary of the instance lies after the cursor. -/
def awaits (cursor : WorkflowInfoCursor) (storage : MemoryStorage) (key : ResourceKey) : Bool :=
  (storage.workflowInfos.lookup key).any (isAfterCursor · cursor)

/-- No other party ends, repins or retries the workflow. -/
def keepsExposed (lostHosts : List WorkerHostId) (key : ResourceKey) (s : Reconciliation)
    (action : ReconcileAction) (s' : Reconciliation) : Bool :=
  match action with
  | .client _ =>
      (!exposed lostHosts s.storage key || exposed lostHosts s'.storage key) &&
        (!failedAt s.storage key || failedAt s'.storage key)
  | _ => true

/-- No other party commits to the instance that the call has read, or moves the
summary of the workflow ahead of the pages still to be read; and the call can
read the clock. -/
def undisturbed (key : ResourceKey) (s : Reconciliation) (action : ReconcileAction)
    (s' : Reconciliation) : Bool :=
  match action, s.phase with
  | .client _, .committing info _ _ _ =>
      s'.storage.versionAt info.key = s.storage.versionAt info.key
  | .client _, .listing (some cursor) _ =>
      !awaits cursor s.storage key || awaits cursor s'.storage key
  | .call clock storageClock, .committing .. => clock.isOk && storageClock.isOk
  | _, _ => true

/-- Where the workflow is while the call goes on. -/
def Reached (lostHosts : List WorkerHostId) (key : ResourceKey) (s : Reconciliation) : Prop :=
  let waits (infos : List WorkflowInfo) : Prop :=
    exposed lostHosts s.storage key = true ∧ key ∈ infos.map (·.key)
  let failed : Prop := failedAt s.storage key = true
  match s.phase with
  | .listing cursor found =>
      exposed lostHosts s.storage key = true ∧
        (key ∈ (found.runnable ++ found.blocked).map (·.key) ∨
          ∀ c ∈ cursor, awaits c s.storage key = true)
  | .next remaining _ => failed ∨ waits remaining
  | .committing info workflow remaining _ =>
      s.storage.versionAt info.key = workflow.version ∧ (failed ∨ waits (info :: remaining))
  | .removing _ remaining _ => failed ∨ waits remaining
  | .returned _ => failed

variable {key : ResourceKey}

/-- Another client may do what it likes, except take the workflow out of reach
or disturb the commit that is under way. -/
theorem Reached.client (h : Reached lostHosts key s) {action : StorageClients.Action}
    (hStep : Reconciliation.step lostHosts s (.client action) = some s')
    (hKeeps : keepsExposed lostHosts key s (.client action) s' = true)
    (hUndisturbed : undisturbed key s (.client action) s' = true) :
    Reached lostHosts key s' := by
  obtain ⟨clients, hClients, rfl⟩ := Option.map_eq_some_iff.mp hStep
  simp only [keepsExposed, Bool.and_eq_true, Bool.or_eq_true, Bool.not_eq_true'] at hKeeps
  have hExposed (hOld : exposed lostHosts s.storage key = true) :=
    hKeeps.1.resolve_left (Bool.not_eq_false _ ▸ hOld)
  have hFailed (hOld : failedAt s.storage key = true) :=
    hKeeps.2.resolve_left (Bool.not_eq_false _ ▸ hOld)
  unfold Reached at h ⊢
  unfold undisturbed at hUndisturbed
  dsimp only at h hUndisturbed ⊢
  cases hPhase : s.phase with
  | listing cursor found =>
      rw [hPhase] at h hUndisturbed
      refine ⟨hExposed h.1, h.2.imp_right fun hAwaits c hCursor => ?_⟩
      cases hCursor
      dsimp only at hUndisturbed
      rw [Bool.or_eq_true, Bool.not_eq_true'] at hUndisturbed
      exact hUndisturbed.resolve_left (Bool.not_eq_false _ ▸ hAwaits c rfl)
  | next remaining failed =>
      rw [hPhase] at h
      exact h.imp hFailed (And.imp_left hExposed)
  | committing info workflow remaining failed =>
      rw [hPhase] at h hUndisturbed
      exact ⟨(of_decide_eq_true hUndisturbed).trans h.1, h.2.imp hFailed (And.imp_left hExposed)⟩
  | removing info remaining failed =>
      rw [hPhase] at h
      exact h.imp hFailed (And.imp_left hExposed)
  | returned result =>
      rw [hPhase] at h
      exact hFailed h

/-- An exposed instance that the next page is to show is on it or after it. -/
theorem Inv.discovered (h : Inv lostHosts s) {cursor : Option WorkflowInfoCursor}
    (hExposed : exposed lostHosts s.storage key = true)
    (hAwaits : ∀ c ∈ cursor, awaits c s.storage key = true) (found : StartupWorkflowDiscovery) :
    (∃ info, info.key = key ∧
      info ∈ (found.extend (discoveryPage none s.storage cursor).items).runnable ++
        (found.extend (discoveryPage none s.storage cursor).items).blocked) ∨
      ∃ next, (discoveryPage none s.storage cursor).nextCursor = some next ∧
        awaits next s.storage key = true := by
  obtain ⟨workflow, hStored, hFail⟩ := (Option.any_eq_true _ _).mp hExposed
  rw [toBeFailed, Bool.and_eq_true, Bool.not_eq_true'] at hFail
  obtain ⟨info, hInfo, hKey, hStatus⟩ := h.summarized.info hStored
  have hActive : isTerminalWorkflowStatus info.status = false := hStatus ▸ hFail.2
  have hMem : info ∈ sortedInfos none allNonterminalWorkflowFilter s.storage := by
    rw [h.summarized.mem_sortedInfos, matches_allNonterminal, hKey, hActive]
    exact ⟨hInfo, rfl⟩
  have hLeft : info ∈ remaining WorkflowInfo.rank WorkflowInfoCursor.rank cursor
      (sortedInfos none allNonterminalWorkflowFilter s.storage) := by
    refine mem_remaining.mpr ⟨hMem, fun c hCursor => (isAfterCursor_iff info c).mp ?_⟩
    have hAfter := hAwaits c hCursor
    rwa [awaits, hInfo, Option.any_some] at hAfter
  rw [discoveryPage_eq]
  rcases mem_page_or_remaining (h.summarized.sortedInfos_strict none _) rank_workflowInfoCursor
    (Nat.succ_pos 99) hLeft with hItem | ⟨next, hNext, hLater⟩
  · refine .inl ⟨info, hKey, ?_⟩
    simp only [StartupWorkflowDiscovery.extend, List.mem_append, List.mem_filter]
    exact (isTerminalWorkflowStatus_eq_false.mp hActive).imp (fun hRunnable => .inr ⟨hItem, hRunnable⟩)
      fun hBlocked => .inr ⟨hItem, hBlocked⟩
  · refine .inr ⟨next, hNext, ?_⟩
    rw [awaits, hInfo, Option.any_some, isAfterCursor_iff]
    exact (mem_remaining.mp hLater).2 next rfl

/-- Reading an instance passes over the workflow only if it is not to be
failed. -/
theorem Reached.visit {info : WorkflowInfo} {remaining : List WorkflowInfo}
    (h : failedAt s.storage key = true ∨
      exposed lostHosts s.storage key = true ∧ key ∈ (info :: remaining).map (·.key))
    (failed : Nat) : Reached lostHosts key (s.visit lostHosts info remaining failed) := by
  have hPass (hKeep : ∀ workflow, s.storage.getWorkflowInstance info.ns info.id = some workflow →
      toBeFailed lostHosts workflow = false) : failedAt s.storage key = true ∨
        exposed lostHosts s.storage key = true ∧ key ∈ remaining.map (·.key) := by
    refine h.imp_right fun ⟨hExposed, hMem⟩ => ⟨hExposed, ?_⟩
    rcases List.mem_cons.mp hMem with rfl | hMem
    · obtain ⟨workflow, hStored, hFail⟩ := (Option.any_eq_true _ _).mp hExposed
      rw [hKeep workflow hStored] at hFail
      cases hFail
    · exact hMem
  unfold Reached Reconciliation.visit
  dsimp only
  cases hFound : s.storage.getWorkflowInstance info.ns info.id with
  | none => exact hPass fun workflow hSome => nomatch hFound.symm.trans hSome
  | some workflow =>
      dsimp only
      cases hFail : toBeFailed lostHosts workflow with
      | false =>
          refine hPass fun stored hSome => ?_
          cases hFound.symm.trans hSome
          exact hFail
      | true =>
          refine ⟨?_, h⟩
          rw [versionAt, show s.storage.workflowInstances.lookup info.key = some workflow from hFound]
          rfl

/-- The commit fails the instance it was read for and leaves the others
alone. -/
theorem Reached.commit (hInv : Inv lostHosts s) {info : WorkflowInfo}
    {workflow : WorkflowInstance} {remaining : List WorkflowInfo} {failed : Nat}
    (hPhase : s.phase = .committing info workflow remaining failed)
    (h : s.storage.versionAt info.key = workflow.version ∧ (failedAt s.storage key = true ∨
      exposed lostHosts s.storage key = true ∧ key ∈ (info :: remaining).map (·.key)))
    {clock storageClock : Clock} (hClock : clock.isOk = true) (hStorageClock : storageClock.isOk = true) :
    Reached lostHosts key (s.commit info workflow remaining failed clock storageClock) := by
  cases clock with
  | error message => cases hClock
  | ok now =>
      cases storageClock with
      | error message => cases hStorageClock
      | ok storageNow =>
          have hAccepted := hInv.commit_accepted hPhase h.1 now storageNow
          rcases hInv.commit_cases hPhase (.ok now) (.ok storageNow) with
            ⟨⟨error, hError⟩, -⟩ | ⟨-, -, updated, hUpdated, hLookup⟩
          · rw [hAccepted] at hError
            cases hError
          · unfold Reached
            dsimp only
            rw [hAccepted]
            dsimp only
            rw [failedAt, exposed, hLookup]
            by_cases hKey : key = info.key
            · rw [if_pos hKey, Option.any_some, hUpdated]
              exact .inl rfl
            · rw [if_neg hKey]
              refine h.2.imp_right fun ⟨hExposed, hMem⟩ => ⟨hExposed, ?_⟩
              exact (List.mem_cons.mp hMem).resolve_left hKey

/-- Each step of the call brings the workflow closer to being failed, or leaves
it among what is still to come. -/
theorem Reached.call (hInv : Inv lostHosts s) (h : Reached lostHosts key s)
    {clock storageClock : Clock}
    (hStep : Reconciliation.step lostHosts s (.call clock storageClock) = some s')
    (hUndisturbed : undisturbed key s (.call clock storageClock) s' = true) :
    Reached lostHosts key s' := by
  simp only [Reconciliation.step, callStep] at hStep
  unfold Reached at h
  dsimp only at h
  split at hStep
  · rename_i cursor found hPhase
    rw [hPhase] at h
    cases hStep
    obtain ⟨hExposed, hListed⟩ := h
    have hWaits : key ∈ ((found.extend (discoveryPage none s.storage cursor).items).runnable ++
        (found.extend (discoveryPage none s.storage cursor).items).blocked).map (·.key) ∨
          ∃ next, (discoveryPage none s.storage cursor).nextCursor = some next ∧
            awaits next s.storage key = true := by
      rcases hListed with hFound | hAwaits
      · exact .inl (found.mem_extend_of_mem _ hFound)
      · refine (hInv.discovered hExposed hAwaits found).imp_left ?_
        rintro ⟨info, hKey, hMem⟩
        exact List.mem_map.mpr ⟨info, hMem, hKey⟩
    unfold Reached
    dsimp only
    cases hNext : (discoveryPage none s.storage cursor).nextCursor with
    | none =>
        refine .inr ⟨hExposed, hWaits.resolve_right ?_⟩
        rintro ⟨next, hSome, -⟩
        rw [hNext] at hSome
        cases hSome
    | some next =>
        refine ⟨hExposed, hWaits.imp_right ?_⟩
        rintro ⟨other, hSome, hAwaits⟩ c hCursor
        rw [hNext] at hSome
        cases hSome
        cases hCursor
        exact hAwaits
  · rename_i failed hPhase
    rw [hPhase] at h
    cases hStep
    exact h.resolve_right fun hWaits => nomatch hWaits.2
  · rename_i info remaining failed hPhase
    rw [hPhase] at h
    cases hStep
    exact Reached.visit h failed
  · rename_i info workflow remaining failed hPhase
    rw [hPhase] at h
    cases hStep
    simp only [undisturbed, hPhase, Bool.and_eq_true] at hUndisturbed
    exact Reached.commit hInv hPhase h hUndisturbed.1 hUndisturbed.2
  · rename_i info remaining failed hPhase
    rw [hPhase] at h
    cases hStep
    exact h
  · cases hStep

/-- What holds of the workflow in every state of the call. -/
structure Safe (lostHosts : List WorkerHostId) (key : ResourceKey) (s : Reconciliation) : Prop where
  inv : Inv lostHosts s
  reached : Reached lostHosts key s

/-- At the start the workflow is exposed and still to be listed. -/
theorem Safe.start {clients : StorageClients} (hClients : clients.Inv)
    (hSummarized : clients.storage.Summarized) (queue : MemoryWorkflowQueue)
    (hExposed : exposed lostHosts clients.storage key = true) :
    Safe lostHosts key (start lostHosts clients queue) where
  inv := .start hClients hSummarized queue
  reached := by
    have hLost : lostHosts.isEmpty = false := by
      obtain ⟨workflow, _, hFail⟩ := (Option.any_eq_true _ _).mp hExposed
      cases lostHosts with
      | nil =>
          unfold toBeFailed at hFail
          cases hPin : workflow.pinnedWorkerHost <;> rw [hPin] at hFail <;> cases hFail
      | cons host rest => rfl
    unfold Reached Reconciliation.start
    dsimp only
    rw [hLost]
    exact ⟨hExposed, .inr fun _ hCursor => nomatch hCursor⟩

/-- Under the conditions on other clients, every step keeps the workflow in
reach. -/
theorem Safe.step (h : Safe lostHosts key s) (action : ReconcileAction)
    (hStep : Reconciliation.step lostHosts s action = some s')
    (hKeeps : keepsExposed lostHosts key s action s' = true)
    (hUndisturbed : undisturbed key s action s' = true) : Safe lostHosts key s' := by
  refine ⟨h.inv.step action hStep, ?_⟩
  cases action with
  | client action => exact h.reached.client hStep hKeeps hUndisturbed
  | call clock storageClock => exact h.reached.call h.inv hStep hUndisturbed
  | useQueue queue =>
      cases hStep
      exact h.reached

/-- Calls in which nobody else ends, repins or retries the workflow. -/
abbrev ExposedSteps (lostHosts : List WorkerHostId) (key : ResourceKey) :
    Reconciliation → List ReconcileAction → Reconciliation → Prop :=
  Run fun s action s' => step lostHosts s action = some s' ∧
    keepsExposed lostHosts key s action s' = true

/-- In every interleaving without a disturbing commit, an instance that stays
pinned to a lost host is Failed when the call has returned; what is unpinned or
pinned elsewhere no step of the call changes. -/
theorem lost_hosts_reconciled {clients : StorageClients} {before : List StorageClients.Action}
    (hReached : Run (fun clients action clients' => clients.step action = some clients')
      StorageClients.initial before clients)
    {queue : MemoryWorkflowQueue} {actions : List ReconcileAction}
    (hRun : Run (fun s action s' => step lostHosts s action = some s' ∧
      (keepsExposed lostHosts key s action s' && undisturbed key s action s') = true)
      (start lostHosts clients queue) actions s) :
    (exposed lostHosts clients.storage key = true → ∀ result, s.phase = .returned result →
      failedAt s.storage key = true) ∧
    ∀ clock storageClock s', step lostHosts s (.call clock storageClock) = some s' →
      ∀ other workflow, s.storage.workflowInstances.lookup other = some workflow →
        workflow.pinnedWorkerHost.any (· ∈ lostHosts) = false →
          s'.storage.workflowInstances.lookup other = some workflow := by
  have hClients : clients.Inv := hReached.invariant StorageClients.Inv.init
    fun _ action _ h hStep => h.step action hStep
  have hSummarized := StorageClients.reachable_summarized hReached
  constructor
  · intro hExposed result hReturned
    have hSafe : Safe lostHosts key s := by
      refine hRun.invariant (.start hClients hSummarized queue hExposed) ?_
      rintro s action s' h ⟨hStep, hGood⟩
      rw [Bool.and_eq_true] at hGood
      exact h.step action hStep hGood.1 hGood.2
    have hAt := hSafe.reached
    unfold Reached at hAt
    dsimp only at hAt
    rwa [hReturned] at hAt
  · intro clock storageClock s' hStep other workflow hStored hOther
    have hInv : Inv lostHosts s := hRun.invariant (.start hClients hSummarized queue)
      fun _ action _ h hStep => h.step action hStep.1
    exact hInv.call_keeps_others hStep hStored hOther

def result (s : Reconciliation) : Option (Except StorageError Nat) :=
  match s.phase with
  | .returned result => some result
  | _ => none

/-- A call that has a result has returned. -/
theorem phase_of_result {result : Except StorageError Nat} (h : s.result = some result) :
    s.phase = .returned result := by
  unfold Reconciliation.result at h
  split at h
  · rename_i hPhase
    cases h
    exact hPhase
  · cases h

/-! Two workflows are pinned to the host that is lost. -/

def sampleHost : WorkerHostId := ⟨"host"⟩

def sampleKey (id : String) : ResourceKey := resourceKey .global id

def twoCreated : List StorageClients.Action :=
  [.read .global "w-1",
    .commit 0 [.workflowCreated (.created "w-1" "article" sampleHost none)] (.ok 10) (.ok 10),
    .read .global "w-2",
    .commit 0 [.workflowCreated (.created "w-2" "article" sampleHost none)] (.ok 20) (.ok 20)]

theorem twoCreated_run :
    (twoCreated.foldlM StorageClients.step StorageClients.initial).isSome := by
  decide +kernel

def twoClients : StorageClients :=
  (twoCreated.foldlM StorageClients.step StorageClients.initial).get twoCreated_run

def sampleStart : Reconciliation := start [sampleHost] twoClients (.new 8)

/-- The call runs while a client reads. -/
def quietCall : List ReconcileAction :=
  List.replicate 3 (.call (.ok 40) (.ok 40)) ++
    [.client (.read .global "w-1")] ++
    List.replicate 5 (.call (.ok 41) (.ok 41))

theorem quietCall_run :
    (quietCall.foldlM (fun s action => (step [sampleHost] s action).filter fun s' =>
      keepsExposed [sampleHost] (sampleKey "w-1") s action s' &&
        undisturbed (sampleKey "w-1") s action s') sampleStart).isSome := by
  decide +kernel

theorem quietCall_returned :
    (((quietCall.foldlM (fun s action => (step [sampleHost] s action).filter fun s' =>
      keepsExposed [sampleHost] (sampleKey "w-1") s action s' &&
        undisturbed (sampleKey "w-1") s action s') sampleStart).get quietCall_run).result).isSome := by
  decide +kernel

/-- The call reaches both workflows. -/
theorem lost_hosts_reconciled_quiet :
    ∃ s, Run (fun s action s' => step [sampleHost] s action = some s') sampleStart quietCall s ∧
      failedAt s.storage (sampleKey "w-1") = true := by
  have hRun := Run.of_checked (Option.some_get quietCall_run).symm
  refine ⟨_, hRun.mono fun _ _ _ hStep => hStep.1, ?_⟩
  exact (lost_hosts_reconciled (Run.of_foldlM (Option.some_get twoCreated_run).symm) hRun).1
    (by decide +kernel) _ (phase_of_result (Option.some_get quietCall_returned).symm)

/-- A pause request commits between the call's read of a workflow and its
commit. -/
def conflictingCall : List ReconcileAction :=
  List.replicate 2 (.call (.ok 40) (.ok 40)) ++
    [.client (.commit 0 [.workflowStatusChanged .paused] (.ok 41) (.ok 41)),
      .call (.ok 42) (.ok 42)]

/-- In the other sample a client commits between the read of the call and its
commit. -/
theorem conflictingCall_run :
    (conflictingCall.foldlM (fun s action => (step [sampleHost] s action).filter
      (keepsExposed [sampleHost] (sampleKey "w-1") s action)) sampleStart).isSome := by
  decide +kernel

def conflicted : Reconciliation :=
  (conflictingCall.foldlM (fun s action => (step [sampleHost] s action).filter
    (keepsExposed [sampleHost] (sampleKey "w-1") s action)) sampleStart).get conflictingCall_run

/-- The conflict ends the call, and the other workflow, which nobody wrote,
stays Pending. -/
theorem conflict_leaves_others :
    Run (fun clients action clients' => StorageClients.step clients action = some clients')
        StorageClients.initial twoCreated twoClients ∧
      ExposedSteps [sampleHost] (sampleKey "w-1") sampleStart conflictingCall conflicted ∧
      conflicted.result.any (fun result => !result.isOk) = true ∧
      exposed [sampleHost] twoClients.storage (sampleKey "w-1") = true ∧
      failedAt conflicted.storage (sampleKey "w-1") = false := by
  refine ⟨Run.of_foldlM (Option.some_get twoCreated_run).symm,
    Run.of_checked (Option.some_get conflictingCall_run).symm, ?_, ?_, ?_⟩
  · decide +kernel
  · decide +kernel
  · decide +kernel

end Reconciliation

end RelayFold
