import Mathlib.Data.Finset.Dedup
import RelayFold.Adapters.StorageOperations
import RelayFold.Adapters.WorkerRegistry

/-! The cron scheduler (`scheduler.rs`): each evaluation of its configuration
starts the workflows that are due, or that were to run once on startup. The
cron expressions are those of a library. -/
namespace RelayFold

open WorkflowStateManager

structure SchedulerEntry where
  ns : Namespace
  workflowDefId : String
  cron : String
  runOnStartup : Bool
  input : Option Json

structure ScheduleKey where
  ns : Namespace
  workflowDefId : String
deriving DecidableEq

def SchedulerEntry.key (entry : SchedulerEntry) : ScheduleKey := ⟨entry.ns, entry.workflowDefId⟩

/-- The cron library: parsing an expression, and matching it with a time. -/
structure CronLibrary (Cron : Type) where
  fromStr : String → Except String Cron
  isTimeMatching : Cron → Nat → Except String Bool

/-- `split_whitespace().count()`. -/
def fieldCount (text : String) : Nat :=
  ((text.toList.splitOnP isWhitespace).filter (· ≠ [])).length

section

variable {Cron : Type} (library : CronLibrary Cron)

def parseCronExpr (cronExpr : String) : Except String Cron :=
  if fieldCount cronExpr ≠ 5 then .error "cron expression must contain exactly five fields"
  else
    match library.fromStr cronExpr with
    | .ok cron => .ok cron
    | .error _ => .error s!"invalid cron expression: {cronExpr}"

/-- The entries after those whose keys are taken. -/
def validateEntries (taken : List ScheduleKey) : List SchedulerEntry → Except String Unit
  | [] => .ok ()
  | entry :: rest =>
      if entry.key ∈ taken then .error "scheduler configuration contains duplicate workflows"
      else do
        let _ ← parseCronExpr library entry.cron
        validateEntries (entry.key :: taken) rest

def validateSchedulerConfig (scheduler : List SchedulerEntry) : Except String Unit :=
  validateEntries library [] scheduler

end

/-- A time in nanoseconds, at the start of its minute. -/
def normalizeToMinute (time : Nat) : Nat := time - time % 60000000000

/-- Every instance has a summary with its definition and its status. -/
def MemoryStorage.Described (storage : MemoryStorage) : Prop :=
  ∀ ns id workflow, storage.workflowInstances.lookup (resourceKey ns id) = some workflow →
    ∃ info, storage.workflowInfos.lookup (resourceKey ns id) = some info ∧ info.ns = ns ∧
      info.workflowDefId = workflow.workflowDefId ∧ info.status = workflow.status

namespace MemoryStorage.Described

/-- Every content the storage operations leave describes its instances. -/
theorem reached (operations : List StorageOperation) : (reached operations).Described := by
  refine reached_invariant (fun _ _ _ h => by cases h) ?_ ?_ operations
  · intro storage storage' h hInstances hInfos ns id workflow hStored
    rw [hInfos]
    exact h ns id workflow (hInstances ▸ hStored)
  · intro storage ns events workflow now h ns' id stored hStored
    change (Finmap.insert _ _ _).lookup _ = _ at hStored
    change ∃ info, (Finmap.insert _ _ _).lookup _ = _ ∧ _
    rw [FiniteMap.lookup_insert_eq] at hStored ⊢
    split at hStored
    · rename_i hKey
      cases hStored
      rw [if_pos hKey]
      exact ⟨_, rfl, (Prod.mk.inj hKey).1.symm, rfl, rfl⟩
    · rename_i hKey
      rw [if_neg hKey]
      exact h ns' id stored hStored

end MemoryStorage.Described

/-- What one entry meets: the registry that is asked for a host, and the store
as it is at the check for active instances (which the storage may fail), when
the definition is read, and when the new instance is read and saved. Others may
change the store in between. -/
structure EntryWorld where
  registry : WorkerRegistry
  now : UInt64
  atCheck : MemoryStorage
  described : atCheck.Described
  checkError : Option String
  atDefinition : MemoryStorage
  atRead : MemoryStorage
  atSave : MemoryStorage
  idClock : Clock
  clock : Clock
  storageClock : Clock

def activeFilters (workflowDefId : String) : List WorkflowInstanceFilter :=
  [.workflowDefId workflowDefId, .statuses [.pending, .running, .paused, .inputNeeded]]

def hasActiveWorkflowInstanceForDef (world : EntryWorld) (ns : Namespace) (workflowDefId : String) :
    Except String Bool :=
  match world.checkError with
  | some message => .error message
  | none =>
      .ok !(world.atCheck.listWorkflowInfo (some ns) ⟨1, none⟩
        (activeFilters workflowDefId)).items.isEmpty

/-- A check that fails counts the workflow as running. -/
def EntryWorld.isWorkflowPending (world : EntryWorld) (key : ScheduleKey) : Bool :=
  match hasActiveWorkflowInstanceForDef world key.ns key.workflowDefId with
  | .ok result => result
  | .error _ => true

def createWorkflowInstanceForDef (world : EntryWorld) (ns : Namespace) (workflowDefId : String)
    (pinnedWorkerHost : WorkerHostId) (input : Option Json) : Except StorageError String := do
  if (world.atDefinition.getWorkflowDef ns workflowDefId).isNone then
    throw (.other s!"workflow definition {workflowDefId} not found")
  match world.idClock with
  | .error message => throw (.other message)
  | .ok timestampNanos =>
      let instanceId := createInstanceId workflowDefId timestampNanos
      let workflow := WorkflowInstance.created instanceId workflowDefId pinnedWorkerHost input
      let current := world.atRead.getWorkflowInstance ns instanceId
      let (result, _) := (commitEventsForCurrent MemoryStorage.port ns current
        [.workflowCreated workflow] world.clock world.storageClock).run.run world.atSave
      let _ ← result
      return instanceId

/-- An instance that was created and handed to the queue. -/
structure StartedInstance where
  key : ScheduleKey
  instanceId : String
  byStartup : Bool
  checked : MemoryStorage

inductive EntryOutcome where
  | panicked
  | stopped
  | continued (pendingStartupEntries : Finset ScheduleKey) (started : Option StartedInstance)

section

variable {Cron : Type} (library : CronLibrary Cron)

/-- One entry of a valid configuration. Without a host the whole evaluation
stops. -/
def evaluateEntry (time : Nat) (schedule : SchedulerEntry) (world : EntryWorld)
    (pendingStartupEntries : Finset ScheduleKey) : EntryOutcome :=
  match parseCronExpr library schedule.cron with
  | .error _ => .panicked
  | .ok cron =>
      match library.isTimeMatching cron (normalizeToMinute time) with
      | .error _ => .stopped
      | .ok isMatch =>
          let startupEntryPending := decide (schedule.key ∈ pendingStartupEntries)
          if isMatch || startupEntryPending then
            match (world.registry.selectEligibleHost world.now).1 with
            | none => .stopped
            | some host =>
                if world.isWorkflowPending schedule.key then
                  .continued (pendingStartupEntries.erase schedule.key) none
                else
                  match createWorkflowInstanceForDef world schedule.ns schedule.workflowDefId host
                      schedule.input with
                  | .error _ => .continued pendingStartupEntries none
                  | .ok instanceId =>
                      .continued (pendingStartupEntries.erase schedule.key)
                        (some ⟨schedule.key, instanceId, startupEntryPending, world.atCheck⟩)
          else .continued pendingStartupEntries none

/-- The entries in order, with what is started; none where the code panics. -/
def evaluateEntries (time : Nat) : List (SchedulerEntry × EntryWorld) → Finset ScheduleKey →
    Option (Finset ScheduleKey × List StartedInstance)
  | [], pendingStartupEntries => some (pendingStartupEntries, [])
  | (schedule, world) :: rest, pendingStartupEntries =>
      match evaluateEntry library time schedule world pendingStartupEntries with
      | .panicked => none
      | .stopped => some (pendingStartupEntries, [])
      | .continued pendingStartupEntries started =>
          (evaluateEntries time rest pendingStartupEntries).map fun (pending, later) =>
            (pending, started.toList ++ later)

/-- A call of the scheduler. -/
structure SchedulerCall where
  time : Nat
  scheduler : List (SchedulerEntry × EntryWorld)

def SchedulerCall.config (call : SchedulerCall) : List SchedulerEntry :=
  call.scheduler.map Prod.fst

def startupEntries (config : List SchedulerEntry) : Finset ScheduleKey :=
  ((config.filter (·.runOnStartup)).map (·.key)).toFinset

/-- The first valid configuration fixes what is to run on startup. -/
def evaluateSchedulerConfig (call : SchedulerCall)
    (pendingStartupEntries : Option (Finset ScheduleKey)) :
    Option (Option (Finset ScheduleKey) × List StartedInstance) :=
  match validateSchedulerConfig library call.config with
  | .error _ => some (pendingStartupEntries, [])
  | .ok () =>
      let pending := pendingStartupEntries.getD (startupEntries call.config)
      (evaluateEntries library call.time call.scheduler pending).map fun (pending, started) =>
        (some pending, started)

/-- Calls one after the other, with what each of them starts. -/
def evaluateCalls : List SchedulerCall → Option (Finset ScheduleKey) →
    Option (Option (Finset ScheduleKey) × List (List StartedInstance))
  | [], pendingStartupEntries => some (pendingStartupEntries, [])
  | call :: rest, pendingStartupEntries => do
      let (pending, started) ← evaluateSchedulerConfig library call pendingStartupEntries
      let (pending, later) ← evaluateCalls rest pending
      return (pending, started :: later)

end

/-! ### The check -/

/-- No instance of the definition is at work or blocked. -/
def NoActiveInstance (key : ScheduleKey) (storage : MemoryStorage) : Prop :=
  ∀ id workflow, storage.workflowInstances.lookup (resourceKey key.ns id) = some workflow →
    workflow.workflowDefId = key.workflowDefId → workflow.status = .completed ∨ workflow.status = .failed

/-- The filters of the check ask for the instances of the definition that are
neither completed nor failed. -/
theorem matches_activeFilters {info : WorkflowInfo} {workflowDefId : String} :
    (activeFilters workflowDefId).all (workflowInfoMatches info) = true ↔
      info.workflowDefId = workflowDefId ∧ ¬(info.status = .completed ∨ info.status = .failed) := by
  simp only [activeFilters, List.all_cons, List.all_nil, Bool.and_true, Bool.and_eq_true,
    workflowInfoMatches, decide_eq_true_eq]
  refine and_congr_right fun _ => ?_
  cases info.status <;> decide

/-- A check that succeeds finds every active instance. -/
theorem EntryWorld.noActiveInstance {world : EntryWorld} {key : ScheduleKey}
    (h : world.isWorkflowPending key = false) : NoActiveInstance key world.atCheck := by
  intro id workflow hStored hDef
  obtain ⟨info, hInfo, hNs, hInfoDef, hStatus⟩ := world.described key.ns id workflow hStored
  have hEmpty : MemoryStorage.sortedInfos (some key.ns) (activeFilters key.workflowDefId)
      world.atCheck = [] := by
    unfold EntryWorld.isWorkflowPending hasActiveWorkflowInstanceForDef at h
    cases hError : world.checkError with
    | some message =>
        rw [hError] at h
        cases h
    | none =>
        simp only [hError, Bool.not_eq_false', List.isEmpty_iff,
          MemoryStorage.listWorkflowInfo_eq_page] at h
        exact (List.take_eq_nil_iff.mp h).resolve_left (by decide)
  by_contra hActive
  have hMem : info ∈ MemoryStorage.sortedInfos (some key.ns) (activeFilters key.workflowDefId)
      world.atCheck := by
    rw [MemoryStorage.sortedInfos, (List.perm_insertionSort _ _).mem_iff,
      MemoryStorage.selectedInfos, List.mem_filter, Bool.and_eq_true, matches_activeFilters]
    refine ⟨List.mem_map.mpr ⟨(_, info), (FiniteMap.mem_toList _ _).mpr hInfo, rfl⟩, ?_, ?_, ?_⟩
    · rw [Option.all_some, hNs, decide_eq_true_eq]
    · rw [hInfoDef, hDef]
    · rw [hStatus]
      exact hActive
  rw [hEmpty] at hMem
  exact absurd hMem List.not_mem_nil

/-! ### Entries -/

section

variable {Cron : Type} {library : CronLibrary Cron} {time : Nat} {schedule : SchedulerEntry}
  {world : EntryWorld} {pending pending' : Finset ScheduleKey}

/-- A host is chosen for the entry. -/
def EntryWorld.HasHost (world : EntryWorld) : Prop :=
  (world.registry.selectEligibleHost world.now).1.isSome = true

/-- What an entry does when the evaluation goes on. -/
inductive EntryEffect (schedule : SchedulerEntry) (world : EntryWorld)
    (pending : Finset ScheduleKey) : Finset ScheduleKey → Option StartedInstance → Prop where
  | idle : EntryEffect schedule world pending pending none
  | alreadyActive (hHost : world.HasHost)
      (hActive : world.isWorkflowPending schedule.key = true) :
      EntryEffect schedule world pending (pending.erase schedule.key) none
  | started (hHost : world.HasHost)
      (hInactive : world.isWorkflowPending schedule.key = false) (instanceId : String) :
      EntryEffect schedule world pending (pending.erase schedule.key)
        (some ⟨schedule.key, instanceId, decide (schedule.key ∈ pending), world.atCheck⟩)

/-- An entry that lets the evaluation go on has done one of three things:
nothing, found an active instance, or started one. -/
theorem evaluateEntry_continued {started : Option StartedInstance}
    (h : evaluateEntry library time schedule world pending = .continued pending' started) :
    EntryEffect schedule world pending pending' started := by
  unfold evaluateEntry at h
  split at h
  · cases h
  · split at h
    · cases h
    · dsimp only at h
      split at h
      · split at h
        · cases h
        · rename_i host hHost
          have hSome : world.HasHost := by
            rw [EntryWorld.HasHost, hHost]
            rfl
          split at h
          · rename_i hActive
            cases h
            exact .alreadyActive hSome hActive
          · rename_i hInactive
            split at h
            · cases h
              exact .idle
            · cases h
              exact .started hSome (Bool.not_eq_true _ ▸ hInactive) _
      · cases h
        exact .idle

/-- How often the startup trigger of a key led to an instance. -/
def startupCount (key : ScheduleKey) (started : List StartedInstance) : Nat :=
  started.countP fun one => one.key = key && one.byStartup

/-- What the entries do to the pending startup entries, and what they start. -/
structure EntriesEffect (scheduler : List (SchedulerEntry × EntryWorld))
    (pending pending' : Finset ScheduleKey) (started : List StartedInstance) : Prop where
  inactive : ∀ one ∈ started, NoActiveInstance one.key one.checked
  keys : List.Sublist (started.map (·.key)) (scheduler.map fun entry => entry.1.key)
  counted : ∀ key, startupCount key started + (if key ∈ pending' then 1 else 0) ≤
    if key ∈ pending then 1 else 0
  consumed : ∀ key ∈ pending, key ∉ pending' → ∃ entry ∈ scheduler, entry.1.key = key ∧
    entry.2.HasHost ∧ (entry.2.isWorkflowPending key = true ∨
      ∃ one ∈ started, one.key = key ∧ one.byStartup = true)

/-- An evaluation that stops at once has started nothing and used up
nothing. -/
theorem EntriesEffect.stopped (scheduler : List (SchedulerEntry × EntryWorld))
    (pending : Finset ScheduleKey) : EntriesEffect scheduler pending pending [] where
  inactive _ h := absurd h List.not_mem_nil
  keys := List.nil_sublist _
  counted _ := (Nat.zero_add _).le
  consumed _ h hNot := absurd h hNot

/-- One entry before others. -/
theorem EntriesEffect.cons {scheduler : List (SchedulerEntry × EntryWorld)}
    {middle : Finset ScheduleKey} {first : Option StartedInstance} {later : List StartedInstance}
    (hEffect : EntryEffect schedule world pending middle first)
    (h : EntriesEffect scheduler middle pending' later) :
    EntriesEffect ((schedule, world) :: scheduler) pending pending' (first.toList ++ later) := by
  have hErased (key : ScheduleKey) : (if key ∈ pending.erase schedule.key then 1 else 0) =
      if key = schedule.key then 0 else if key ∈ pending then 1 else 0 := by
    by_cases hKey : key = schedule.key
    · simp [hKey]
    · simp [hKey]
  have hLater (key : ScheduleKey) (hKey : key ∈ middle) (hNot : key ∉ pending') :
      ∃ entry ∈ (schedule, world) :: scheduler, entry.1.key = key ∧ entry.2.HasHost ∧
        (entry.2.isWorkflowPending key = true ∨
          ∃ one ∈ first.toList ++ later, one.key = key ∧ one.byStartup = true) := by
    obtain ⟨entry, hMem, hSame, hHost, hCause⟩ := h.consumed key hKey hNot
    refine ⟨entry, List.mem_cons_of_mem _ hMem, hSame, hHost, hCause.imp_right ?_⟩
    exact fun ⟨one, hOne, hBy⟩ => ⟨one, List.mem_append_right _ hOne, hBy⟩
  cases hEffect with
  | idle => exact ⟨h.inactive, h.keys.cons _, h.counted, hLater⟩
  | alreadyActive hHost hActive =>
      refine ⟨h.inactive, h.keys.cons _, fun key => ?_, fun key hKey hNot => ?_⟩
      · have hCounted := h.counted key
        rw [hErased] at hCounted
        refine hCounted.trans ?_
        split
        · exact Nat.zero_le _
        · exact le_rfl
      · by_cases hSame : key = schedule.key
        · subst hSame
          exact ⟨_, List.mem_cons_self, rfl, hHost, .inl hActive⟩
        · exact hLater key (Finset.mem_erase.mpr ⟨hSame, hKey⟩) hNot
  | started hHost hInactive instanceId =>
      let one : StartedInstance :=
        ⟨schedule.key, instanceId, decide (schedule.key ∈ pending), world.atCheck⟩
      refine ⟨?_, h.keys.cons_cons _, fun key => ?_, fun key hKey hNot => ?_⟩
      · exact List.forall_mem_cons.mpr
          ⟨world.noActiveInstance hInactive, h.inactive⟩
      · have hCounted := h.counted key
        have hFirst : startupCount key (one :: later) = startupCount key later +
            if schedule.key = key ∧ schedule.key ∈ pending then 1 else 0 := by
          rw [startupCount, List.countP_cons]
          simp [one, startupCount]
        change startupCount key (one :: later) + _ ≤ _
        rw [hErased] at hCounted
        rw [hFirst]
        by_cases hSame : key = schedule.key
        · subst hSame
          rw [if_pos rfl] at hCounted
          simp only [true_and]
          omega
        · rw [if_neg hSame] at hCounted
          rw [if_neg fun hBoth => hSame hBoth.1.symm]
          exact hCounted
      · by_cases hSame : key = schedule.key
        · subst hSame
          exact ⟨_, List.mem_cons_self, rfl, hHost,
            .inr ⟨one, List.mem_cons_self, rfl, decide_eq_true hKey⟩⟩
        · exact hLater key (Finset.mem_erase.mpr ⟨hSame, hKey⟩) hNot

/-- By induction over the entries, what a whole evaluation has started and
which startup entries it has used up. -/
theorem evaluateEntries_effect {scheduler : List (SchedulerEntry × EntryWorld)}
    {started : List StartedInstance}
    (h : evaluateEntries library time scheduler pending = some (pending', started)) :
    EntriesEffect scheduler pending pending' started := by
  induction scheduler generalizing pending pending' started with
  | nil =>
      cases h
      exact .stopped [] _
  | cons entry rest ih =>
      obtain ⟨schedule, world⟩ := entry
      unfold evaluateEntries at h
      split at h
      · cases h
      · cases h
        exact .stopped _ _
      · rename_i middle first hEntry
        obtain ⟨⟨_, later⟩, hRest, hSame⟩ := Option.map_eq_some_iff.mp h
        cases hSame
        exact (ih hRest).cons (evaluateEntry_continued hEntry)

/-! ### Valid configurations -/

/-- In a valid configuration the keys of the entries differ and every schedule
can be parsed. -/
theorem validateEntries_ok {taken : List ScheduleKey} {scheduler : List SchedulerEntry}
    (h : validateEntries library taken scheduler = .ok ()) :
    (scheduler.map (·.key)).Nodup ∧ (∀ key ∈ taken, key ∉ scheduler.map (·.key)) ∧
      ∀ entry ∈ scheduler, ∃ cron, parseCronExpr library entry.cron = .ok cron := by
  induction scheduler generalizing taken with
  | nil => exact ⟨.nil, fun _ _ => List.not_mem_nil, fun _ hNone => absurd hNone List.not_mem_nil⟩
  | cons entry rest ih =>
      unfold validateEntries at h
      split at h
      · cases h
      · rename_i hFresh
        obtain ⟨cron, hCron, hRest⟩ := FallibleFold.bind_ok.mp h
        obtain ⟨hNodup, hTaken, hParsed⟩ := ih hRest
        rw [List.forall_mem_cons] at hTaken
        refine ⟨List.nodup_cons.mpr ⟨hTaken.1, hNodup⟩, fun key hKey hMem => ?_,
          List.forall_mem_cons.mpr ⟨⟨cron, hCron⟩, hParsed⟩⟩
        rcases List.mem_cons.mp hMem with rfl | hLater
        · exact hFresh hKey
        · exact hTaken.2 key hKey hLater

/-- After validation no expression fails to parse, so nothing panics. -/
theorem evaluateEntries_isSome {scheduler : List (SchedulerEntry × EntryWorld)}
    (h : ∀ entry ∈ scheduler, ∃ cron, parseCronExpr library entry.1.cron = .ok cron)
    (pending : Finset ScheduleKey) :
    (evaluateEntries library time scheduler pending).isSome = true := by
  induction scheduler generalizing pending with
  | nil => rfl
  | cons entry rest ih =>
      obtain ⟨schedule, world⟩ := entry
      rw [List.forall_mem_cons] at h
      obtain ⟨⟨cron, hCron⟩, hRest⟩ := h
      unfold evaluateEntries
      split
      · rename_i hPanicked
        unfold evaluateEntry at hPanicked
        dsimp only at hCron
        rw [hCron] at hPanicked
        dsimp only at hPanicked
        split at hPanicked
        · cases hPanicked
        · split at hPanicked
          · split at hPanicked
            · cases hPanicked
            · split at hPanicked
              · cases hPanicked
              · split at hPanicked <;> cases hPanicked
          · cases hPanicked
      · rfl
      · rw [Option.isSome_map]
        exact ih hRest _

/-! ### Calls -/

/-- How many instances the startup trigger of a key may still lead to. -/
def allowance (key : ScheduleKey) : Option (Finset ScheduleKey) → Nat
  | none => 1
  | some pending => if key ∈ pending then 1 else 0

/-- The startup triggers a call works with: a first valid configuration brings
them. -/
def startupPending (call : SchedulerCall) (pendingStartupEntries : Option (Finset ScheduleKey)) :
    Finset ScheduleKey :=
  pendingStartupEntries.getD (startupEntries call.config)

variable (library) in
/-- What a call does: nothing at all where the configuration is not valid. -/
inductive CallEffect (call : SchedulerCall) (before : Option (Finset ScheduleKey)) :
    Option (Finset ScheduleKey) → List StartedInstance → Prop where
  | refused {message : String}
      (hInvalid : validateSchedulerConfig library call.config = .error message) :
      CallEffect call before before []
  | evaluated {pending' : Finset ScheduleKey} {started : List StartedInstance}
      (hValid : validateSchedulerConfig library call.config = .ok ())
      (hEntries : EntriesEffect call.scheduler (startupPending call before) pending' started) :
      CallEffect call before (some pending') started

variable {call : SchedulerCall} {before after : Option (Finset ScheduleKey)}
  {started : List StartedInstance}

/-- Either the configuration is refused, and nothing is touched, or the entries
are evaluated. -/
theorem evaluateSchedulerConfig_effect
    (h : evaluateSchedulerConfig library call before = some (after, started)) :
    CallEffect library call before after started := by
  unfold evaluateSchedulerConfig at h
  split at h
  · rename_i hInvalid
    cases h
    exact .refused hInvalid
  · rename_i hValid
    obtain ⟨⟨pending', later⟩, hEntries, hSame⟩ := Option.map_eq_some_iff.mp h
    cases hSame
    exact .evaluated hValid (evaluateEntries_effect hEntries)

/-- No call of the scheduler gets stuck, whatever its configuration and its
world. -/
theorem evaluateSchedulerConfig_isSome (library : CronLibrary Cron) (call : SchedulerCall)
    (before : Option (Finset ScheduleKey)) :
    (evaluateSchedulerConfig library call before).isSome = true := by
  unfold evaluateSchedulerConfig
  split
  · rfl
  · rename_i hValid
    rw [Option.isSome_map]
    refine evaluateEntries_isSome (fun entry hEntry => ?_) _
    exact (validateEntries_ok hValid).2.2 entry.1 (List.mem_map_of_mem hEntry)

/-- What a call starts had no active instance when it was checked. -/
theorem CallEffect.inactive (h : CallEffect library call before after started) :
    ∀ one ∈ started, NoActiveInstance one.key one.checked := by
  cases h with
  | refused => exact fun _ hNone => absurd hNone List.not_mem_nil
  | evaluated _ hEntries => exact hEntries.inactive

/-- A call starts at most one instance for each key. -/
theorem CallEffect.keys_nodup (h : CallEffect library call before after started) :
    (started.map (·.key)).Nodup := by
  cases h with
  | refused => exact .nil
  | evaluated hValid hEntries =>
      have hKeys := (validateEntries_ok hValid).1
      rw [SchedulerCall.config, List.map_map] at hKeys
      exact hEntries.keys.nodup hKeys

/-- A startup trigger that has led to an instance is not there for the next
call. -/
theorem CallEffect.counted (h : CallEffect library call before after started) (key : ScheduleKey) :
    startupCount key started + allowance key after ≤ allowance key before := by
  cases h with
  | refused => exact (Nat.zero_add _).le
  | evaluated hValid hEntries =>
      refine (hEntries.counted key).trans ?_
      cases before with
      | none =>
          rw [allowance]
          split <;> omega
      | some pending => exact le_rfl

/-- A trigger is used up only where its entry got a host and counts as running,
or was started. -/
theorem CallEffect.consumed (h : CallEffect library call before after started) {key : ScheduleKey}
    (hPending : key ∈ startupPending call before) (hUsed : ∀ left ∈ after, key ∉ left)
    (hFixed : after.isSome = true) :
    validateSchedulerConfig library call.config = .ok () ∧
      ∃ entry ∈ call.scheduler, entry.1.key = key ∧ entry.2.HasHost ∧
        (entry.2.isWorkflowPending key = true ∨
          ∃ one ∈ started, one.key = key ∧ one.byStartup = true) := by
  cases h with
  | refused hInvalid =>
      cases before with
      | none => cases hFixed
      | some pending => exact absurd hPending (hUsed pending rfl)
  | evaluated hValid hEntries => exact ⟨hValid, hEntries.consumed key hPending (hUsed _ rfl)⟩

/-- What holds over a sequence of calls. -/
theorem evaluateCalls_effect (library : CronLibrary Cron) (calls : List SchedulerCall)
    (before : Option (Finset ScheduleKey)) :
    ∃ after made, evaluateCalls library calls before = some (after, made) ∧
      (∀ started ∈ made, (started.map (·.key)).Nodup ∧
        ∀ one ∈ started, NoActiveInstance one.key one.checked) ∧
      ∀ key, startupCount key made.flatten + allowance key after ≤ allowance key before := by
  induction calls generalizing before with
  | nil =>
      exact ⟨before, [], rfl, fun _ hNone => absurd hNone List.not_mem_nil,
        fun _ => (Nat.zero_add _).le⟩
  | cons call rest ih =>
      obtain ⟨⟨middle, started⟩, hCall⟩ :=
        Option.isSome_iff_exists.mp (evaluateSchedulerConfig_isSome library call before)
      obtain ⟨after, made, hRest, hMade, hCounted⟩ := ih middle
      have hEffect := evaluateSchedulerConfig_effect hCall
      refine ⟨after, started :: made, ?_, List.forall_mem_cons.mpr
        ⟨⟨hEffect.keys_nodup, hEffect.inactive⟩, hMade⟩, fun key => ?_⟩
      · simp only [evaluateCalls, hCall, hRest, Option.bind_eq_bind, Option.bind_some, Option.pure_def]
      · have hFirst := hEffect.counted key
        have hLater := hCounted key
        rw [startupCount] at hFirst hLater
        rw [startupCount, List.flatten_cons, List.countP_append]
        omega

/-- Whatever the configurations, the times, the workers and the progress of
workflows: no evaluation panics; none starts a definition that has an active
instance at its check, or one definition twice; over all of them the startup
trigger of a key starts at most one instance; and a call uses up a trigger only
when it is valid and found a host for the entry. -/
theorem scheduler_never_overlaps_or_repeats (library : CronLibrary Cron)
    (calls : List SchedulerCall) :
    (∃ after made, evaluateCalls library calls none = some (after, made) ∧
      (∀ started ∈ made, (started.map (·.key)).Nodup ∧
        ∀ one ∈ started, NoActiveInstance one.key one.checked) ∧
      ∀ key, startupCount key made.flatten ≤ 1) ∧
    ∀ call before, ∃ after started,
      evaluateSchedulerConfig library call before = some (after, started) ∧
        (validateSchedulerConfig library call.config ≠ .ok () → after = before ∧ started = []) ∧
        ∀ key ∈ startupPending call before, (∀ left ∈ after, key ∉ left) → after.isSome = true →
          ∃ entry ∈ call.scheduler, entry.1.key = key ∧ entry.2.HasHost ∧
            (entry.2.isWorkflowPending key = true ∨
              ∃ one ∈ started, one.key = key ∧ one.byStartup = true) := by
  constructor
  · obtain ⟨after, made, hRun, hMade, hCounted⟩ := evaluateCalls_effect library calls none
    refine ⟨after, made, hRun, hMade, fun key => ?_⟩
    exact (Nat.le_add_right _ _).trans (hCounted key)
  · intro call before
    obtain ⟨⟨after, started⟩, hCall⟩ :=
      Option.isSome_iff_exists.mp (evaluateSchedulerConfig_isSome library call before)
    have hEffect := evaluateSchedulerConfig_effect hCall
    refine ⟨after, started, hCall, fun hInvalid => ?_, fun key hKey hUsed hFixed =>
      (hEffect.consumed hKey hUsed hFixed).2⟩
    cases hEffect with
    | refused => exact ⟨rfl, rfl⟩
    | evaluated hValid => exact absurd hValid hInvalid

end

/-- A library whose expressions match at no time. -/
def neverMatching : CronLibrary Unit where
  fromStr _ := .ok ()
  isTimeMatching _ _ := .ok false

def startupWorld : EntryWorld where
  registry := (WorkerRegistry.new ⟨1000, 3⟩).tickWorkerHeartbeat ⟨⟨"worker-1"⟩, ⟨"host-1"⟩⟩ 0
  now := 1
  atCheck := .new
  described := .reached []
  checkError := none
  atDefinition := (StorageOperation.run .new
    (.saveWorkflowDef .global ⟨"workflow", none, "", [], []⟩ (.ok 1))).2
  atRead := .new
  atSave := .new
  idClock := .ok 1
  clock := .ok 2
  storageClock := .ok 3

/-- One entry that is to run on startup. -/
def startupCall : SchedulerCall where
  time := 0
  scheduler := [(⟨.global, "workflow", "0 0 1 1 *", true, none⟩, startupWorld)]

/-- The first call starts it, and a second one does not. -/
example : ((evaluateCalls neverMatching [startupCall, startupCall] none).map fun run =>
    run.2.map fun started => started.map (·.instanceId)) = some [["workflow-1"], []] := by
  decide +kernel

/-- Two calls with an entry that is to run at startup: the second one does not
start it again. -/
theorem scheduler_never_overlaps_or_repeats_startup :
    ∃ after made, evaluateCalls neverMatching [startupCall, startupCall] none = some (after, made) ∧
      (∀ started ∈ made, (started.map (·.key)).Nodup ∧
        ∀ one ∈ started, NoActiveInstance one.key one.checked) ∧
      ∀ key, startupCount key made.flatten ≤ 1 :=
  (scheduler_never_overlaps_or_repeats neverMatching [startupCall, startupCall]).1

end RelayFold
