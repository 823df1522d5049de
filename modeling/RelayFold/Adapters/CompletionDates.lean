import Mathlib.Data.List.Chain
import RelayFold.Adapters.CommitHistories

/-! The completion time of a summary against the history of its instance: the
first time it ended is carried forward, also after a retry. -/
namespace RelayFold

open MirroredClients

/-- The commit leaves the instance completed or failed. -/
def CommitRecord.ends (commit : CommitRecord) : Prop :=
  commit.updated.status = .completed ∨ commit.updated.status = .failed

instance (commit : CommitRecord) : Decidable commit.ends :=
  inferInstanceAs (Decidable (_ ∨ _))

/-- A completion time that matches the commits on an instance: it is present
when the last one ends it, and then is the time of the commit that last moved
it into an ended status. -/
structure MatchesHistory (commits : List CommitRecord) (completedAt : Option Nat) : Prop where
  present : completedAt.isSome = true ↔ ∃ last ∈ commits.getLast?, last.ends
  latest : ∀ time ∈ completedAt, ∃ before entry after, commits = before ++ entry :: after ∧
    (∀ last ∈ before.getLast?, ¬last.ends) ∧ entry.ends ∧ (∀ commit ∈ after, commit.ends) ∧
      time = entry.time

/-- No commit takes an ended instance back to work. -/
def NeverReopened (commits : List CommitRecord) : Prop :=
  commits.IsChain fun commit next => commit.ends → next.ends

instance (commits : List CommitRecord) : Decidable (NeverReopened commits) :=
  inferInstanceAs (Decidable (commits.IsChain fun commit next => commit.ends → next.ends))

/-- A save keeps the completion that the row has, and otherwise dates one by
its own time if it ends the instance. -/
theorem savedDates_completed {existing : Option RowDates} {commit : CommitRecord}
    (h : commit.events ≠ []) :
    (savedDates existing commit.records commit.updated commit.time).completedAtEpochMs =
      (existing.bind (·.completedAtEpochMs)).or (if commit.ends then some commit.time else none) := by
  have hModified : (commit.records.getLast?.map (·.createdTime)).getD
      ((commit.records.head?.map (·.createdTime)).getD commit.time) = commit.time := by
    rw [CommitRecord.records, List.getLast?_map, List.getLast?_eq_some_getLast h]
    rfl
  rw [savedDates]
  dsimp only
  rw [hModified]
  rfl

/-- The stored completion time is that of the first commit that ended the
instance. -/
theorem datesAfter_completed (commits : List CommitRecord)
    (h : ∀ commit ∈ commits, commit.events ≠ []) :
    (datesAfter commits).bind (·.completedAtEpochMs) =
      (commits.find? fun commit => commit.ends).map (·.time) := by
  induction commits using List.reverseRecOn with
  | nil => rfl
  | append_singleton commits commit ih =>
      rw [List.forall_mem_append, List.forall_mem_singleton] at h
      rw [datesAfter_append, Option.bind_some, savedDates_completed h.2, ih h.1, List.find?_append]
      cases commits.find? (fun commit => decide commit.ends) with
      | some first => rfl
      | none =>
          by_cases hEnds : commit.ends
          · simp [hEnds]
          · simp [hEnds]

/-- Once an instance that is never reopened has ended, every later commit keeps
it so. -/
theorem NeverReopened.ends_after {entry : CommitRecord} {after : List CommitRecord}
    (h : NeverReopened (entry :: after)) (hEntry : entry.ends) : ∀ commit ∈ after, commit.ends := by
  induction after generalizing entry with
  | nil => exact fun _ hNone => absurd hNone List.not_mem_nil
  | cons next after ih =>
      obtain ⟨hNext, hRest⟩ := List.isChain_cons_cons.mp h
      exact List.forall_mem_cons.mpr ⟨hNext hEntry, ih hRest (hNext hEntry)⟩

/-- As long as no commit goes on after a final one, the first commit that ends
the instance dates its completion. -/
theorem NeverReopened.matchesHistory {commits : List CommitRecord} (h : NeverReopened commits) :
    MatchesHistory commits ((commits.find? fun commit => commit.ends).map (·.time)) := by
  cases hFirst : commits.find? fun commit => decide commit.ends with
  | none =>
      rw [List.find?_eq_none] at hFirst
      constructor
      · rw [Option.map_none]
        constructor
        · intro hSome
          cases hSome
        · rintro ⟨last, hLast, hEnds⟩
          exact absurd (decide_eq_true hEnds) (hFirst last (List.mem_of_getLast? hLast))
      · intro time hTime
        cases hTime
  | some entry =>
      obtain ⟨hEntry, before, after, rfl, hBefore⟩ := List.find?_eq_some_iff_append.mp hFirst
      have hEnds : entry.ends := of_decide_eq_true hEntry
      have hAfter := NeverReopened.ends_after (List.IsChain.right_of_append h) hEnds
      constructor
      · refine ⟨fun _ => ?_, fun _ => rfl⟩
        have hLast : (before ++ entry :: after).getLast? = (entry :: after).getLast? := by
          rw [List.getLast?_append_of_ne_nil _ (List.cons_ne_nil entry after)]
        rw [hLast, List.getLast?_eq_some_getLast (List.cons_ne_nil entry after)]
        refine ⟨_, rfl, ?_⟩
        rcases List.mem_cons.mp (List.getLast_mem (List.cons_ne_nil entry after)) with hSame | hMem
        · rw [hSame]
          exact hEnds
        · exact hAfter _ hMem
      · intro time hTime
        cases hTime
        refine ⟨before, entry, after, rfl, fun last hLast hLastEnds => ?_, hEnds, hAfter, rfl⟩
        simpa [hLastEnds] using hBefore last (List.mem_of_getLast? hLast)

namespace MirroredClients

/-- The completion time that the in-memory summary of an instance shows. -/
def memoryCompletedAt (stores : MirroredClients) (key : ResourceKey) : Option Nat :=
  (stores.clients.storage.workflowInfos.lookup key).bind (·.completedAtEpochMs)

/-- The completion time in the row of an instance. -/
def sqlCompletedAt (stores : MirroredClients) (key : ResourceKey) : Option Nat :=
  (stores.tables.workflowInstances.lookup key).bind (·.completedAtEpochMs)

/-- In both stores the completion time of an instance matches its history. -/
def CompletionDated (p : MirroredClients × List CommitRecord) (key : ResourceKey) : Prop :=
  MatchesHistory (commitsOn p.2 key) (p.1.memoryCompletedAt key) ∧
    p.1.sqlCompletedAt key = p.1.memoryCompletedAt key

variable {port : StoragePort SqlTables} {stores : MirroredClients} {history : List CommitRecord}

/-- Both stores keep the time of the first end, whatever happens later. -/
theorem Recorded.completedAt (h : Recorded stores history) (key : ResourceKey) :
    stores.memoryCompletedAt key = ((commitsOn history key).find? fun commit => commit.ends).map
        (·.time) ∧
      stores.sqlCompletedAt key = stores.memoryCompletedAt key := by
  have hNonempty : ∀ commit ∈ commitsOn history key, commit.events ≠ [] := fun commit hMem =>
    h.nonempty commit (List.mem_of_mem_filter hMem)
  have hFirst := datesAfter_completed (commitsOn history key) hNonempty
  have hMemory : stores.memoryCompletedAt key =
      (datesAfter (commitsOn history key)).bind (·.completedAtEpochMs) := by
    have hShown := h.infos key
    rw [memoryCompletedAt]
    cases hInfo : stores.clients.storage.workflowInfos.lookup key with
    | none => rw [← h.info_dates, hInfo]; rfl
    | some info =>
        rw [hInfo, Option.map_some, eq_comm, Option.map_eq_some_iff] at hShown
        obtain ⟨last, hLast, hPair⟩ := hShown
        have hSome := datesAfter_isSome (List.ne_nil_of_mem (List.mem_of_getLast? hLast))
        have hDates : datesAfter (commitsOn history key) = info.dates := (Prod.mk.inj hPair).2
        rw [hDates, WorkflowInfo.dates, Option.isSome_map] at hSome
        obtain ⟨created, hCreated⟩ := Option.isSome_iff_exists.mp hSome
        rw [hDates, WorkflowInfo.dates, hCreated]
        rfl
  have hSql : stores.sqlCompletedAt key =
      (datesAfter (commitsOn history key)).bind (·.completedAtEpochMs) := by
    rw [← h.row_dates, sqlCompletedAt, Option.bind_map]
    rfl
  exact ⟨hMemory.trans hFirst, hSql.trans hMemory.symm⟩

theorem Steps.prefix {p q : MirroredClients × List CommitRecord}
    {actions : List StorageClients.Action} (run : Steps port p actions q) : p.2 <+: q.2 := by
  induction run with
  | nil => exact List.prefix_rfl
  | snoc prior last ih => exact ih.trans ⟨_, last.2.symm⟩

/-- A commit after which the completion times match takes no ended instance
back. -/
theorem CompletionDated.neverReopened {commit : CommitRecord} {key : ResourceKey}
    (h : Recorded stores (history ++ [commit]))
    (hDated : CompletionDated (stores, history ++ [commit]) key)
    (hPrior : NeverReopened (commitsOn history key)) :
    NeverReopened (commitsOn (history ++ [commit]) key) := by
  have hCompleted := (h.completedAt key).1
  have hPresent := hDated.1.present
  dsimp only at hPresent
  rw [hCompleted, Option.isSome_map, commitsOn_append] at hPresent
  rw [commitsOn_append]
  split
  · rename_i hKey
    rw [if_pos hKey] at hPresent
    refine hPrior.append (List.isChain_singleton commit) fun last hLast next hNext hEnds => ?_
    obtain rfl : commit = next := by simpa using hNext
    have hFound : ((commitsOn history key ++ [commit]).find?
        fun commit => decide commit.ends).isSome = true := by
      rw [List.find?_isSome]
      exact ⟨last, List.mem_append_left _ (List.mem_of_getLast? hLast), decide_eq_true hEnds⟩
    obtain ⟨ending, hEnding, hIsEnd⟩ := hPresent.mp hFound
    rw [List.getLast?_append, List.getLast?_singleton, Option.some_or] at hEnding
    cases hEnding
    exact hIsEnd
  · exact hPrior

/-- If the date is right in every state of a run, no ended instance has been
reopened in it. -/
theorem Steps.neverReopened (hPort : port = SqliteStorage.port ∨ port = MySqlStorage.port)
    {actions : List StorageClients.Action} {last : MirroredClients × List CommitRecord}
    (run : Steps port (initial, []) actions last) (key : ResourceKey)
    (hDated : ∀ earlier later p, actions = earlier ++ later →
      Steps port (initial, []) earlier p → Steps port p later last → CompletionDated p key) :
    NeverReopened (commitsOn last.2 key) := by
  induction run with
  | nil => exact List.isChain_nil
  | @snoc middle last action actions prior hStep ih =>
      have hPrior : NeverReopened (commitsOn middle.2 key) :=
        ih fun earlier later p hSplit hEarlier hLater =>
          hDated earlier (later ++ [action]) p (by rw [hSplit, List.append_assoc]) hEarlier
            (.snoc hLater hStep)
      have hRun : Steps port (initial, []) (actions ++ [action]) last := .snoc prior hStep
      have hLast : CompletionDated last key := hDated _ [] last (List.append_nil _).symm hRun (.nil _)
      obtain ⟨stores, history⟩ := last
      have hHistory : history = middle.2 ++ (middle.1.acceptedCommit action).toList := hStep.2
      have hRecorded : Recorded stores history := hRun.recorded hPort
      cases hCommit : middle.1.acceptedCommit action with
      | none =>
          rw [hCommit, Option.toList_none, List.append_nil] at hHistory
          rw [hHistory]
          exact hPrior
      | some commit =>
          rw [hCommit, Option.toList_some] at hHistory
          subst hHistory
          exact hLast.neverReopened hRecorded hPrior

/-- In all states of a run the completion time of an instance matches its
history in both stores, exactly when no commit of the run took that instance
back to work after it had ended. -/
theorem Steps.completion_dated_iff (hPort : port = SqliteStorage.port ∨ port = MySqlStorage.port)
    {actions : List StorageClients.Action}
    (run : Steps port (initial, []) actions (stores, history)) (key : ResourceKey) :
    (∀ earlier later p, actions = earlier ++ later → Steps port (initial, []) earlier p →
        Steps port p later (stores, history) → CompletionDated p key) ↔
      NeverReopened (commitsOn history key) := by
  constructor
  · exact run.neverReopened hPort key
  · intro hNever earlier later p _ hEarlier hLater
    have hCompleted := (hEarlier.recorded hPort).completedAt key
    refine ⟨?_, hCompleted.2⟩
    rw [hCompleted.1]
    have hPrefix : commitsOn p.2 key <+: commitsOn history key := hLater.prefix.filter _
    have hShorter := List.IsChain.prefix hNever hPrefix
    exact NeverReopened.matchesHistory hShorter

/-- An instance whose only attempt fails. -/
def failedActions : List StorageClients.Action :=
  [.read .global "w-1",
    .commit 0 [.workflowCreated (.created "w-1" "w" ⟨"host"⟩ none)] (.ok 10) (.ok 11),
    .commit 0 [.taskMaterialized "a[1]" (.fresh "a" 1), .taskStatusChanged "a[1]" .failed,
      .workflowStatusChanged .failed] (.ok 20) (.ok 21)]

/-- The failed attempt is retried. -/
def retriedActions : List StorageClients.Action :=
  failedActions ++ [.commit 0 [.taskRetryRequested "a[1]"] (.ok 30) (.ok 31)]

theorem failedActions_runs : (runActions SqliteStorage.port failedActions).isSome = true := by rfl

theorem retriedActions_runs : (runActions SqliteStorage.port retriedActions).isSome = true := by rfl

def failed : MirroredClients × List CommitRecord :=
  (runActions SqliteStorage.port failedActions).get failedActions_runs

def retried : MirroredClients × List CommitRecord :=
  (runActions SqliteStorage.port retriedActions).get retriedActions_runs

theorem failed_run : Steps SqliteStorage.port (initial, []) failedActions failed :=
  Run.of_traced (Option.some_get failedActions_runs).symm

theorem retried_run : Steps SqliteStorage.port (initial, []) retriedActions retried :=
  Run.of_traced (Option.some_get retriedActions_runs).symm

/-- Left alone, it is dated by its failure. -/
theorem Steps.completion_dated_iff_failed :
    CompletionDated failed (resourceKey .global "w-1") :=
  (Steps.completion_dated_iff (.inl rfl) failed_run (resourceKey .global "w-1")).mpr
    (by decide +kernel) failedActions [] failed (List.append_nil _).symm failed_run (.nil _)

/-- A retried instance is pending with the completion time of its failure. -/
theorem retried_completion_kept :
    ¬∀ (actions : List StorageClients.Action) (p : MirroredClients × List CommitRecord),
      Steps SqliteStorage.port (initial, []) actions p → ∀ key, CompletionDated p key := by
  intro hClaim
  have hDated := hClaim _ _ retried_run (resourceKey .global "w-1")
  have hKept : (retried.1.memoryCompletedAt (resourceKey .global "w-1")).isSome = true := by
    decide +kernel
  obtain ⟨last, hLast, hEnds⟩ := hDated.1.present.mp hKept
  have hPending : ∀ last ∈ (commitsOn retried.2 (resourceKey .global "w-1")).getLast?,
      ¬last.ends := by decide +kernel
  exact hPending last hLast hEnds

end MirroredClients

end RelayFold
