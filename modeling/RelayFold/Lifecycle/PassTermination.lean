import Mathlib.Algebra.Order.BigOperators.Group.List
import Mathlib.Algebra.GroupWithZero.Nat
import RelayFold.Lifecycle.Commits

/-! A pass ends: every commit of its main loop uses up attempts that may still
be created, that wait or that run, or verifiers that have no state. -/
namespace RelayFold

open WorkflowEngine WorkflowStateManager FallibleFold

/-- The largest iteration limit of a definition. -/
def iterationBudget (definition : WorkflowDef) : Nat :=
  (definition.tasks.filterMap taskVerifier).foldr
    (fun verifier bound => max verifier.maxIterations.toNat bound) 1

def TaskStatus.work : TaskStatus → Nat
  | pending => 2
  | running => 1
  | _ => 0

/-- The work that an attempt still is for the engine, which may have to create
it first. -/
def attemptWork : Option TaskInstance → Nat
  | none => 3
  | some task => task.status.work

def stateWork (state : Option VerifierGenerationState) : Nat :=
  if state.isSome then 0 else 1

/-- The work left in the attempts of a list and in the verifiers. -/
def workLeft (ids : List String) (definition : WorkflowDef) (workflow : WorkflowInstance) : Nat :=
  (ids.map fun id => attemptWork (workflow.tasks.lookup id)).sum +
    (definition.taskIds.map fun taskId => stateWork (workflow.verifierStates.lookup taskId)).sum

/-- The list has all attempts of the snapshot, and all that the engine may
create. -/
structure Covers (ids : List String) (definition : WorkflowDef) (workflow : WorkflowInstance) :
    Prop where
  created : ∀ taskId ∈ definition.taskIds, ∀ generation, 1 ≤ generation →
    generation ≤ iterationBudget definition → makeTaskAttemptId taskId generation ∈ ids
  stored : ∀ id task, workflow.tasks.lookup id = some task → id ∈ ids

theorem one_le_iterationBudget (definition : WorkflowDef) : 1 ≤ iterationBudget definition := by
  unfold iterationBudget
  induction definition.tasks.filterMap taskVerifier with
  | nil => exact Nat.le_refl 1
  | cons verifier rest ih => exact Nat.le_trans ih (Nat.le_max_right ..)

theorem le_iterationBudget {definition : WorkflowDef} {task : TaskDef}
    {verifier : VerifierControlConfig} (hTask : task ∈ definition.tasks)
    (hVerifier : taskVerifier task = some verifier) :
    verifier.maxIterations.toNat ≤ iterationBudget definition := by
  have hMem : verifier ∈ definition.tasks.filterMap taskVerifier :=
    List.mem_filterMap.mpr ⟨task, hTask, hVerifier⟩
  unfold iterationBudget
  generalize definition.tasks.filterMap taskVerifier = verifiers at hMem
  induction verifiers with
  | nil => cases hMem
  | cons first rest ih =>
      rcases List.mem_cons.mp hMem with rfl | hMem
      · exact Nat.le_max_left ..
      · exact Nat.le_trans (ih hMem) (Nat.le_max_right ..)

/-- A list that covers a snapshot. -/
def coveringIds (definition : WorkflowDef) (workflow : WorkflowInstance) : List String :=
  workflow.tasks.toList.map Prod.fst ++ definition.taskIds.flatMap fun taskId =>
    (List.range (iterationBudget definition + 1)).map (makeTaskAttemptId taskId)

theorem coveringIds_covers (definition : WorkflowDef) (workflow : WorkflowInstance) :
    Covers (coveringIds definition workflow) definition workflow := by
  constructor
  · intro taskId hTask generation _ hBudget
    refine List.mem_append_right _ (List.mem_flatMap.mpr ⟨taskId, hTask, ?_⟩)
    exact List.mem_map_of_mem (List.mem_range.mpr (Nat.lt_succ_of_le hBudget))
  · intro id task hTask
    exact List.mem_append_left _
      (List.mem_map.mpr ⟨(id, task), (FiniteMap.mem_toList ..).mpr hTask, rfl⟩)

section Commit

variable {definition : WorkflowDef} {ids : List String} {before after : WorkflowInstance}

theorem StatusMove.work_le {before after : TaskStatus} (h : StatusMove .pass before after) :
    after.work ≤ before.work := by
  cases h with
  | refl => exact Nat.le_refl _
  | start | skip => decide
  | answer hAnswered =>
      cases after with
      | pending | running | skipped => cases hAnswered
      | completed | failed | inputNeeded _ => exact Nat.zero_le _

theorem TaskStatus.work_of_isAnswered {status : TaskStatus} (h : status.isAnswered = true) :
    status.work = 0 := by
  cases status with
  | pending | running | skipped => cases h
  | completed | failed | inputNeeded _ => rfl

theorem AttemptsAfter.attemptWork_le (h : AttemptsAfter .pass before after) (id : String) :
    attemptWork (after.tasks.lookup id) ≤ attemptWork (before.tasks.lookup id) := by
  cases hBefore : before.tasks.lookup id with
  | some a =>
      obtain ⟨b, hAfter, hMoves⟩ := h.kept id a hBefore
      rw [hAfter]
      exact hMoves.status.work_le
  | none =>
      cases hAfter : after.tasks.lookup id with
      | none => exact Nat.le_refl _
      | some b =>
          change b.status.work ≤ 3
          rw [(h.fresh id b hBefore hAfter).1]
          decide

theorem stateWork_le (hStates : ∀ taskId, (before.verifierStates.lookup taskId).isSome = true →
      (after.verifierStates.lookup taskId).isSome = true) (taskId : String) :
    stateWork (after.verifierStates.lookup taskId) ≤
      stateWork (before.verifierStates.lookup taskId) := by
  unfold stateWork
  split
  · exact Nat.zero_le _
  · rename_i hNone
    rw [if_neg fun hSome => hNone (hStates taskId hSome)]

/-- One attempt less to be done, and none more. -/
theorem workLeft_lt_of_attempt {id : String} (hId : id ∈ ids)
    (hAfter : AttemptsAfter .pass before after)
    (hStates : ∀ taskId, (before.verifierStates.lookup taskId).isSome = true →
      (after.verifierStates.lookup taskId).isSome = true)
    (hLess : attemptWork (after.tasks.lookup id) < attemptWork (before.tasks.lookup id)) :
    workLeft ids definition after < workLeft ids definition before :=
  Nat.add_lt_add_of_lt_of_le
    (List.sum_lt_sum _ _ (fun id _ => hAfter.attemptWork_le id) ⟨id, hId, hLess⟩)
    (List.sum_le_sum fun taskId _ => stateWork_le hStates taskId)

/-- One verifier more has a state. -/
theorem workLeft_lt_of_state {verifierId : String} (hId : verifierId ∈ definition.taskIds)
    (hAfter : AttemptsAfter .pass before after)
    (hStates : ∀ taskId, (before.verifierStates.lookup taskId).isSome = true →
      (after.verifierStates.lookup taskId).isSome = true)
    (hNone : before.verifierStates.lookup verifierId = none)
    (hSome : (after.verifierStates.lookup verifierId).isSome = true) :
    workLeft ids definition after < workLeft ids definition before := by
  refine Nat.add_lt_add_of_le_of_lt (List.sum_le_sum fun id _ => hAfter.attemptWork_le id)
    (List.sum_lt_sum _ _ (fun taskId _ => stateWork_le hStates taskId) ⟨verifierId, hId, ?_⟩)
  rw [hNone, stateWork, if_pos hSome]
  decide

end Commit

section Pass

variable {ext : Externals} {definition : WorkflowDef} {ids : List String} {l : Lifecycle}
  {events : List WorkflowInstanceEvent} {plan : List String} {reduced : WorkflowInstance}

/-- A batch of a pass that is more than a change of the status uses up work. -/
theorem Write.workLeft_lt (hWrite : Write ext definition l .pass events plan)
    (hReduce : reduceWorkflowInstanceEvents (some l.stored) events = .ok reduced)
    (hWork : ∀ status, events ≠ [.workflowStatusChanged status]) (hEvents : events ≠ [])
    (hCovers : Covers ids definition l.stored) :
    workLeft ids definition reduced < workLeft ids definition l.stored := by
  have hAfter := hWrite.attemptsAfter hReduce
  have hStates : ∀ taskId, (l.stored.verifierStates.lookup taskId).isSome = true →
      (reduced.verifierStates.lookup taskId).isSome = true :=
    fun _ => foldlM_keepsState hReduce
  have hAnswered {id : String} {task : TaskInstance} (hTask : l.stored.tasks.lookup id = some task)
      (hRunning : task.status = .running)
      (hResult : ResultAfter events l.stored reduced id) :
      workLeft ids definition reduced < workLeft ids definition l.stored := by
    obtain ⟨b, hb, _, _, _, hStatus, _⟩ := hResult.answered task hTask hRunning
    refine workLeft_lt_of_attempt (hCovers.stored id task hTask) hAfter hStates ?_
    rw [hb, hTask, attemptWork, attemptWork, TaskStatus.work_of_isAnswered hStatus, hRunning]
    decide
  cases hWrite with
  | begin _ | complete _ _ => exact absurd rfl (hWork _)
  | initialTasks _ hEmpty =>
      obtain ⟨taskDef, hTask⟩ := List.exists_mem_of_ne_nil definition.tasks
        (fun hNone => hEvents (by rw [initialTaskEvents, hNone]; rfl))
      have hNone := (FiniteMap.isEmpty_iff _).mp hEmpty (makeTaskAttemptId taskDef.id 1)
      have hSome := initialTaskEvents_initialized (reduceWorkflowInstanceEvents_effected hReduce)
        taskDef hTask
      obtain ⟨b, hb⟩ := Option.isSome_iff_exists.mp hSome
      refine workLeft_lt_of_attempt (hCovers.created _ (List.mem_map_of_mem hTask) 1 (Nat.le_refl 1)
        (one_le_iterationBudget definition)) hAfter hStates ?_
      rw [hNone, hb]
      change b.status.work < 3
      rw [(hAfter.fresh _ b hNone hb).1]
      decide
  | @initialGenerations loopSlices _ hTasks hSlices =>
      have hExisting : ∀ entry ∈ loopSlices, ∀ taskId ∈ entry.2,
          (l.stored.tasks.lookup (makeTaskAttemptId taskId 1)).isSome :=
        fun entry hEntry taskId hMem =>
          TasksInitialized.isSome hTasks (slice_subset_taskIds (hSlices.mem_iff.mp hEntry) taskId hMem)
      have hGenerations := initialGenerations_after hTasks hSlices hReduce
      obtain ⟨event, hEvent⟩ := List.exists_mem_of_ne_nil _ hEvents
      obtain ⟨⟨verifierId, slice⟩, hEntry, start, hStart, rfl⟩ :=
        (materializeEligible_events hExisting [] []).1 event hEvent
      obtain ⟨taskDef, hTask, _, _, hId, _⟩ := mem_computeLoopSlices.mp (hSlices.mem_iff.mp hEntry)
      have hNone : l.stored.verifierStates.lookup verifierId = none := by
        cases hState : l.stored.verifierStates.lookup verifierId with
        | none => rfl
        | some state =>
            rw [eligibleStart_none_of_state (by rw [hState]; rfl)] at hStart
            cases hStart
      exact workLeft_lt_of_state (hId ▸ List.mem_map_of_mem hTask) hAfter hStates hNone
        (hGenerations.eligible _ hEntry (by rw [hStart]; rfl))
  | @start id task _ _ hTask hPending =>
      refine workLeft_lt_of_attempt (hCovers.stored id task hTask) hAfter hStates ?_
      rw [taskMut_lookup (reduce_single hReduce) id, if_pos rfl, hTask]
      change TaskStatus.work .running < task.status.work
      rw [hPending]
      decide
  | inputFailure _ _ hStarted hRunning _ =>
      obtain ⟨_, hTask, _⟩ := startedTask_eq hStarted
      exact hAnswered hTask hRunning ((failureEvents_result _).after hReduce (by rw [hTask]; rfl)
        ⟨.failed, rfl, by simp [failureEvents, failTaskEvents]⟩)
  | result _ _ hStarted hRunning hResult =>
      obtain ⟨_, hTask, _⟩ := startedTask_eq hStarted
      exact hAnswered hTask hRunning
        (hResult.result.after hReduce (by rw [hTask]; rfl) hResult.answers)

/-- What a pass creates is in the list. -/
theorem WriteEffect.covers (hDef : WellFormedDef definition)
    (hEffect : WriteEffect definition l reduced .pass) (hCovers : Covers ids definition l.stored) :
    Covers ids definition reduced := by
  refine ⟨hCovers.created, fun id b hb => ?_⟩
  cases hBefore : l.stored.tasks.lookup id with
  | some a => exact hCovers.stored id a hBefore
  | none =>
      cases hEffect with
      | status _ hTasks _ =>
          rw [hTasks, hBefore] at hb
          cases hb
      | initialTasks _ hTasks _ _ =>
          obtain ⟨taskDef, hTask, rfl, _⟩ := hTasks id b hb
          exact hCovers.created _ (List.mem_map_of_mem hTask) 1 (Nat.le_refl 1)
            (one_le_iterationBudget definition)
      | initialGenerations _ _ hAfter =>
          rw [hAfter.tasks, hBefore] at hb
          cases hb
      | start _ hTask _ hTasks _ =>
          rw [hTasks] at hb
          split at hb
          · rename_i hKey
            rw [← hKey, hBefore] at hTask
            cases hTask
          · rw [hBefore] at hb
            cases hb
      | result hSlices hTask hFound _ _ hOutcome _ =>
          obtain ⟨verifier, hVerifier, hBelow, taskDefId, hMem, rfl, _⟩ :=
            hOutcome.materialized hTask hBefore hb
          have hSlice := hDef.verdict_slice hSlices hFound (by rw [hVerifier]; rfl)
          refine hCovers.created taskDefId (slice_subset_taskIds hSlice taskDefId hMem) _
            (Nat.succ_pos _) ?_
          exact Nat.le_trans hBelow (le_iterationBudget (findTask_some hFound).1 hVerifier)

end Pass

/-! ### The rank of a pass -/

/-- How far a point is from the commit that it leads to. -/
def PassPoint.rank : PassPoint → Nat
  | commitRunning => 5
  | commitInitialTasks | commitGenerations _ | checkPaused .. => 4
  | commitStart .. | resolveFunction .. => 3
  | awaitAnswer .. => 2
  | readCurrent .. => 1
  | _ => 0

/-- An upper bound of the moves that a pass has left. -/
def PassState.rank (ids : List String) (definition : WorkflowDef) (stored : WorkflowInstance) :
    PassState → Nat
  | idle | finished _ => 0
  | loading _ => 8 * workLeft ids definition stored + 8
  | loadingDef _ workflow => 8 * workLeft ids definition workflow + 7
  | active pass => 8 * workLeft ids definition pass.workflow + pass.point.rank + 1

/-- The attempt that is about to be dispatched. -/
def PassPoint.resolving : PassPoint → Option String
  | resolveFunction started _ => some started.taskAttemptId
  | _ => none

/-- The pass has ended, or it goes on with a snapshot: it is not at its first
commit, and it is about to dispatch nothing else than the given attempt. -/
def PassState.GoesOnWith (workflow : WorkflowInstance) (next : Option String) : PassState → Prop
  | finished _ => True
  | active pass => pass.workflow = workflow ∧ pass.point.rank ≤ 4 ∧
      (pass.point.resolving = none ∨ pass.point.resolving = next)
  | _ => False

section Points

variable {pass : ActivePass} {workflow : WorkflowInstance}

theorem PassState.GoesOnWith.rank_le {ids : List String} {definition : WorkflowDef}
    {stored : WorkflowInstance} {state : PassState} {next : Option String}
    (h : state.GoesOnWith workflow next) :
    state.rank ids definition stored ≤ 8 * workLeft ids definition workflow + 5 := by
  cases state with
  | finished _ => exact Nat.zero_le _
  | active pass =>
      obtain ⟨rfl, hRank, _⟩ := h
      change 8 * _ + pass.point.rank + 1 ≤ _
      omega
  | idle | loading _ | loadingDef _ _ => cases h

theorem leaveLoop_goesOn : (pass.leaveLoop workflow).GoesOnWith workflow none := by
  unfold ActivePass.leaveLoop
  split
  · exact ⟨rfl, Nat.zero_le _, .inl rfl⟩
  · trivial

theorem nextTask_goesOn {atEnd : PassState} (hEnd : atEnd.GoesOnWith workflow none)
    (ids : List String) : (pass.nextTask workflow atEnd ids).GoesOnWith workflow none := by
  induction ids with
  | nil => exact hEnd
  | cons id rest ih =>
      unfold ActivePass.nextTask
      split
      · trivial
      · split
        · exact ih
        · exact ⟨rfl, Nat.le_refl _, .inl rfl⟩

theorem startTasks_goesOn {atEnd : PassState} (hEnd : atEnd.GoesOnWith workflow none) :
    (pass.startTasks workflow atEnd).GoesOnWith workflow none := by
  unfold ActivePass.startTasks
  split
  · trivial
  · exact nextTask_goesOn hEnd _

theorem enterLoop_goesOn : (pass.enterLoop workflow).GoesOnWith workflow none := by
  unfold ActivePass.enterLoop
  dsimp only
  split
  · exact startTasks_goesOn leaveLoop_goesOn
  · exact ⟨rfl, Nat.le_refl _, .inl rfl⟩

theorem initializeTasks_goesOn : (pass.initializeTasks workflow).GoesOnWith workflow none := by
  unfold ActivePass.initializeTasks
  split
  · exact ⟨rfl, Nat.le_refl _, .inl rfl⟩
  · exact enterLoop_goesOn

theorem prepareDispatch_goesOn {ext : Externals} {id : String} {rest : List String} :
    (pass.prepareDispatch ext workflow id rest).GoesOnWith workflow (some id) := by
  unfold ActivePass.prepareDispatch
  split
  · trivial
  · split
    · exact ⟨rfl, Nat.zero_le _, .inl rfl⟩
    · rename_i hStarted _ _
      have hId := (startedTask_eq hStarted).1
      exact ⟨rfl, Nat.le_succ 3, .inr (congrArg some hId)⟩

theorem afterResult_goesOn {result : ResultCommit} {rest : List String} :
    (pass.afterResult result rest workflow).GoesOnWith workflow none := by
  unfold ActivePass.afterResult
  split
  · trivial
  · split
    · split
      · exact ⟨rfl, Nat.zero_le _, .inl rfl⟩
      · trivial
    · split
      · trivial
      · exact nextTask_goesOn enterLoop_goesOn rest

theorem answered_rank {ext : Externals} {ids : List String} {definition : WorkflowDef}
    {stored : WorkflowInstance} {started : StartedTask} {rest : List String} {answer : Answer} :
    (pass.answered ext started rest answer).rank ids definition stored ≤
      8 * workLeft ids definition pass.workflow + 2 := by
  unfold ActivePass.answered
  split
  · exact Nat.zero_le _
  · exact Nat.le_refl _

theorem dispatch_rank {env : EngineEnv} {ids : List String} {definition : WorkflowDef}
    {stored : WorkflowInstance} {started : StartedTask} {rest : List String} :
    (pass.dispatch env started rest).rank ids definition stored ≤
      8 * workLeft ids definition pass.workflow + 3 := by
  unfold ActivePass.dispatch
  split
  · exact Nat.le_trans answered_rank (Nat.le_succ _)
  · split
    · exact Nat.zero_le _
    · exact Nat.le_refl _

end Points

def ActivePass.isAwaiting (pass : ActivePass) : Bool :=
  match pass.point with
  | .awaitAnswer .. => true
  | _ => false

/-- What takes the pass further: its next operation, or the answer that it
waits for. -/
def System.nextMove (s : System) (result : Answer) : Action :=
  match s.pass with
  | .active pass => if pass.isAwaiting then .answer result else .passStep
  | _ => .passStep

/-- The system after the next move of its pass. -/
def System.move (env : EngineEnv) (s : System) (result : Answer) : System :=
  (s.step env (s.nextMove result)).getD s

section Move

variable {env : EngineEnv} {definition : WorkflowDef} {ids : List String} {s s' : System}
  {l : Lifecycle}

/-- A commit of a pass is refused, which ends the pass, or it is on the stored
snapshot. -/
theorem HistoryInv.commit_cases (h : HistoryInv env definition s) {base : WorkflowInstance}
    (hHeld : base ∈ s.snapshots) (events : List WorkflowInstanceEvent)
    (next : WorkflowInstance → PassState) :
    (∃ message, ActivePass.commit s.stored base events next =
      (.finished (.error message), none)) ∨
    base = s.stored ∧ events ≠ [] ∧ ∃ reduced,
      reduceWorkflowInstanceEvents (some s.stored) events = .ok reduced ∧
      ActivePass.commit s.stored base events next =
        (next (reduced.withVersion (s.stored.version + events.length)),
          some (reduced.withVersion (s.stored.version + events.length))) := by
  unfold ActivePass.commit
  cases hCommit : commitOn s.stored base events with
  | error error => exact .inl ⟨_, rfl⟩
  | ok updated =>
      obtain ⟨hEvents, hVersion, reduced, hReduce, rfl⟩ := commitOn_ok hCommit
      obtain rfl := h.eq_stored hHeld hVersion
      exact .inr ⟨rfl, hEvents, reduced, hReduce, rfl⟩

/-- The work left after a commit, and the rank of the pass. -/
inductive CommitMove (ids : List String) (definition : WorkflowDef) (s : System)
    (base : WorkflowInstance) (bound : Nat) (s' : System) : Prop
  | refused (hStored : s'.stored = s.stored) (hRank : s'.pass.rank ids definition s'.stored = 0)
  | accepted (hBase : base = s.stored) (hCovers : Covers ids definition s'.stored)
      (hRank : s'.pass.rank ids definition s'.stored ≤ bound)

theorem Refines.commitMove (hDef : WellFormedDef definition) {plan : List String}
    (h : Refines env definition s ⟨s.stored, plan⟩) (hCovers : Covers ids definition s.stored)
    {base : WorkflowInstance} {events : List WorkflowInstanceEvent}
    {next : WorkflowInstance → PassState} (hHeld : base ∈ s.snapshots)
    (hWrite : base = s.stored → ∃ plan', Write env.ext definition ⟨s.stored, plan⟩ .pass events plan')
    {resolving : Option String}
    (hNext : ∀ workflow, (next workflow).GoesOnWith workflow resolving)
    (hWork : ∀ status, events ≠ [.workflowStatusChanged status]) :
    CommitMove ids definition s base (8 * workLeft ids definition s.stored)
      (s.advance (ActivePass.commit s.stored base events next)) := by
  rcases h.history.commit_cases hHeld events next with
    ⟨message, hCommit⟩ | ⟨rfl, hEvents, reduced, hReduce, hCommit⟩
  · rw [hCommit]
    exact .refused rfl rfl
  · rw [hCommit]
    obtain ⟨plan', hAllowed⟩ := hWrite rfl
    have hLess := hAllowed.workLeft_lt hReduce hWork hEvents hCovers
    have hKept := (hAllowed.effect hReduce).covers hDef hCovers
    refine .accepted rfl ⟨hKept.created, hKept.stored⟩ ?_
    refine Nat.le_trans (hNext _).rank_le ?_
    change 8 * workLeft ids definition reduced + 5 ≤ 8 * workLeft ids definition s.stored
    change workLeft ids definition reduced < workLeft ids definition s.stored at hLess
    omega

/-- A change of the status leaves the work as it is. -/
theorem HistoryInv.statusMove (h : HistoryInv env definition s)
    (hCovers : Covers ids definition s.stored) {base : WorkflowInstance} {status : WorkflowStatus}
    {next : WorkflowInstance → PassState} {more : Nat} (hHeld : base ∈ s.snapshots)
    (hNext : ∀ workflow, (next workflow).rank ids definition workflow ≤
      8 * workLeft ids definition workflow + more) :
    CommitMove ids definition s base (8 * workLeft ids definition s.stored + more)
      (s.advance (ActivePass.commit s.stored base [.workflowStatusChanged status] next)) := by
  rcases h.commit_cases hHeld [.workflowStatusChanged status] next with
    ⟨message, hCommit⟩ | ⟨rfl, _, reduced, hReduce, hCommit⟩
  · rw [hCommit]
    exact .refused rfl rfl
  · rw [hCommit]
    cases reduce_single hReduce
    exact .accepted rfl ⟨hCovers.created, hCovers.stored⟩ (hNext _)

theorem workLeft_of_sameWork {a b : WorkflowInstance} (h : SameWork a b) :
    workLeft ids definition b = workLeft ids definition a := by
  rw [h]
  rfl

/-- The first attempts are no change of the status, nor are the first
generations. -/
theorem initialTaskEvents_ne_status (workflow : WorkflowInstance) (status : WorkflowStatus) :
    initialTaskEvents workflow definition ≠ [.workflowStatusChanged status] := by
  intro hEvents
  have hMem : WorkflowInstanceEvent.workflowStatusChanged status ∈
      initialTaskEvents workflow definition := by
    rw [hEvents]
    exact List.mem_singleton.mpr rfl
  simp [initialTaskEvents] at hMem

theorem initialGenerationEvents_ne_status {workflow : WorkflowInstance} {loopSlices : LoopSlices}
    (hTasks : TasksInitialized definition workflow)
    (hSlices : loopSlices.Perm (computeLoopSlices definition)) (status : WorkflowStatus) :
    materializeEligibleInitialGenerationEvents workflow definition loopSlices ≠
      [.workflowStatusChanged status] := by
  intro hEvents
  have hExisting : ∀ entry ∈ loopSlices, ∀ taskId ∈ entry.2,
      (workflow.tasks.lookup (makeTaskAttemptId taskId 1)).isSome :=
    fun entry hEntry taskId hMem =>
      hTasks.isSome (slice_subset_taskIds (hSlices.mem_iff.mp hEntry) taskId hMem)
  obtain ⟨_, _, _, _, hSame⟩ := (materializeEligible_events hExisting [] []).1
    (.workflowStatusChanged status) (hEvents ▸ List.mem_singleton.mpr rfl)
  cases hSame

/-- A recorded result answers its attempt, beside what it does to the
status. -/
theorem WorkflowEngine.Recorded.events_ne_status {ext : Externals} {workflow : WorkflowInstance}
    {loopSlices : LoopSlices} {id : String} {taskDef : TaskDef} {inputs : ResolvedTaskInputs}
    {answer : Answer} {result : ResultCommit}
    (h : Recorded ext workflow definition loopSlices id taskDef inputs answer result)
    (status : WorkflowStatus) : result.events ≠ [.workflowStatusChanged status] := by
  intro hEvents
  obtain ⟨answered, _, hMem⟩ := h.answers
  rw [hEvents] at hMem
  cases List.mem_singleton.mp hMem

/-- A commit that is more than a change of the status lowers the rank of the
pass: the work that is left pays for the way to the next commit. -/
theorem Refines.batchMove (hDef : WellFormedDef definition) {plan : List String}
    (h : Refines env definition s ⟨s.stored, plan⟩) (hCovers : Covers ids definition s.stored)
    {pass : ActivePass} (hInv : ActiveInv env.ext definition plan s pass)
    {base : WorkflowInstance} {events : List WorkflowInstanceEvent}
    (hBatch : pass.batch = some (base, events)) {next : WorkflowInstance → PassState}
    {resolving : Option String}
    (hNext : ∀ workflow, (next workflow).GoesOnWith workflow resolving)
    (hWork : ∀ status, events ≠ [.workflowStatusChanged status]) :
    CommitMove ids definition s base (8 * workLeft ids definition s.stored)
      (s.advance (ActivePass.commit s.stored base events next)) :=
  h.commitMove hDef hCovers (hInv.batch_held hBatch)
    (fun hBase => ⟨_, hInv.allowed hBatch hBase⟩) hNext hWork

/-- After a commit on a snapshot with as much work left, the rank is lower than
at its point. -/
theorem CommitMove.lower {base workflow : WorkflowInstance} {bound rank : Nat}
    (h : CommitMove ids definition s base bound s') (hCovers : Covers ids definition s.stored)
    (hBound : base = s.stored → bound < 8 * workLeft ids definition workflow + rank + 1) :
    Covers ids definition s'.stored ∧ s'.pass.rank ids definition s'.stored <
      8 * workLeft ids definition workflow + rank + 1 := by
  cases h with
  | refused hStored hRank =>
      rw [hRank, hStored]
      exact ⟨hCovers, Nat.succ_pos _⟩
  | accepted hBase hKept hRank => exact ⟨hKept, Nat.lt_of_le_of_lt hRank (hBound hBase)⟩

/-- The next operation of a pass that waits for no answer. -/
theorem Refines.activeMove (hDef : WellFormedDef definition) {plan : List String}
    (h : Refines env definition s ⟨s.stored, plan⟩) (hCovers : Covers ids definition s.stored)
    {pass : ActivePass} (hInv : ActiveInv env.ext definition plan s pass)
    (hWaits : pass.isAwaiting = false) :
    Covers ids definition (s.advance (pass.step env s.stored)).stored ∧
      (s.advance (pass.step env s.stored)).pass.rank ids definition
          (s.advance (pass.step env s.stored)).stored <
        8 * workLeft ids definition pass.workflow + pass.point.rank + 1 := by
  have hPoint := hInv.point
  have hOnHeld {rank : Nat} (hBase : pass.workflow = s.stored) :
      8 * workLeft ids definition s.stored <
        8 * workLeft ids definition pass.workflow + rank + 1 := by
    rw [hBase]
    omega
  have hBatchMove {base : WorkflowInstance} {events : List WorkflowInstanceEvent}
      (hBatch : pass.batch = some (base, events)) {next : WorkflowInstance → PassState}
      {resolving : Option String}
      (hNext : ∀ workflow, (next workflow).GoesOnWith workflow resolving)
      (hWork : ∀ status, events ≠ [.workflowStatusChanged status]) :=
    h.batchMove hDef hCovers hInv hBatch hNext hWork
  unfold ActivePass.step
  unfold PointInv at hPoint
  unfold ActivePass.batch at hBatchMove
  cases hCase : pass.point with
  | commitRunning =>
      simp only [hCase] at hPoint ⊢
      have hNext (workflow : WorkflowInstance) :
          (pass.initializeTasks workflow).rank ids definition workflow ≤
            8 * workLeft ids definition workflow + 5 := initializeTasks_goesOn.rank_le
      refine (h.history.statusMove hCovers hInv.held hNext).lower hCovers fun hBase => ?_
      rw [hBase]
      exact Nat.lt_succ_self _
  | commitPauseCompleted | commitCompleted =>
      simp only [hCase] at hPoint ⊢
      have hEnds (workflow : WorkflowInstance) :
          (PassState.finished .ok).rank ids definition workflow ≤
            8 * workLeft ids definition workflow + 0 := Nat.zero_le _
      exact (h.history.statusMove hCovers hInv.held hEnds).lower hCovers hOnHeld
  | commitInitialTasks =>
      simp only [hCase, hInv.loaded] at hBatchMove ⊢
      exact (hBatchMove rfl (fun _ => enterLoop_goesOn)
        (initialTaskEvents_ne_status _)).lower hCovers hOnHeld
  | commitGenerations events =>
      simp only [hCase] at hPoint hBatchMove ⊢
      obtain ⟨_, _, hTasks, rfl⟩ := hPoint
      exact (hBatchMove rfl (fun _ => startTasks_goesOn enterLoop_goesOn)
        (initialGenerationEvents_ne_status hTasks hInv.slices)).lower hCovers hOnHeld
  | checkPaused id rest =>
      dsimp only
      split
      · exact ⟨hCovers, Nat.succ_pos _⟩
      · exact ⟨hCovers, Nat.lt_succ_self _⟩
  | commitStart id rest =>
      simp only [hCase] at hBatchMove ⊢
      exact (hBatchMove rfl (fun _ => prepareDispatch_goesOn) nofun).lower hCovers hOnHeld
  | commitInputFailure started error =>
      simp only [hCase] at hBatchMove ⊢
      have hEnds (workflow : WorkflowInstance) :
          (PassState.finished (.error error)).GoesOnWith workflow none := trivial
      exact (hBatchMove rfl hEnds nofun).lower hCovers hOnHeld
  | resolveFunction started rest =>
      refine ⟨hCovers, Nat.lt_of_le_of_lt dispatch_rank ?_⟩
      exact Nat.lt_succ_self _
  | awaitAnswer started call rest =>
      rw [ActivePass.isAwaiting, hCase] at hWaits
      cases hWaits
  | readCurrent started answer result rest =>
      dsimp only
      exact ⟨hCovers, Nat.lt_succ_self _⟩
  | commitResult started answer result base rest =>
      simp only [hCase] at hPoint hBatchMove ⊢
      obtain ⟨_, hWorking, _, _, hResult, _⟩ := hPoint
      refine (hBatchMove rfl (fun _ => afterResult_goesOn)
        (hWorking.recorded hResult).events_ne_status).lower hCovers fun _ => ?_
      rw [workLeft_of_sameWork hWorking.same]
      omega

theorem ActivePass.isAwaiting_iff {pass : ActivePass} : pass.isAwaiting = true ↔
    ∃ started call rest, pass.point = .awaitAnswer started call rest := by
  unfold ActivePass.isAwaiting
  split
  · rename_i started call rest hPoint
    exact ⟨fun _ => ⟨started, call, rest, hPoint⟩, fun _ => rfl⟩
  · rename_i hOther
    refine ⟨fun h => (by cases h), ?_⟩
    rintro ⟨started, call, rest, hPoint⟩
    exact absurd hPoint (hOther started call rest)

/-- A pass in flight always has a next move. -/
theorem System.move_step (env : EngineEnv) (s : System) (result : Answer) :
    s.step env (s.nextMove result) = some (s.move env result) := by
  have hSome : (s.step env (s.nextMove result)).isSome = true := by
    unfold System.nextMove
    split
    · rename_i pass hPass
      split
      · rename_i hWaits
        obtain ⟨started, call, rest, hPoint⟩ := ActivePass.isAwaiting_iff.mp hWaits
        simp only [System.step, hPass, PassState.answer, hPoint]
        rfl
      · rw [System.step_passStep]
        rfl
    · rw [System.step_passStep]
      rfl
  obtain ⟨s', hStep⟩ := Option.isSome_iff_exists.mp hSome
  rw [System.move, hStep]
  rfl

/-- Every move of a pass in flight lowers its rank. -/
theorem Refines.move_lt (hDef : WellFormedDef definition) (h : Refines env definition s l)
    (hCovers : Covers ids definition s.stored) (hFlight : s.pass.inFlight = true)
    (result : Answer) : Covers ids definition (s.move env result).stored ∧
      (s.move env result).pass.rank ids definition (s.move env result).stored <
        s.pass.rank ids definition s.stored := by
  have hMove := System.move_step env s result
  obtain ⟨stored, plan⟩ := l
  obtain rfl : stored = s.stored := h.stored
  have hInv := h.pass
  unfold System.nextMove at hMove
  cases hPass : s.pass with
  | idle | finished _ =>
      rw [hPass] at hFlight
      cases hFlight
  | loading order =>
      rw [hPass] at hMove
      dsimp only at hMove
      rw [System.step_passStep, hPass] at hMove
      rw [← Option.some.inj hMove]
      refine ⟨hCovers, ?_⟩
      change (PassState.loaded order (some s.stored)).rank ids definition s.stored <
        8 * workLeft ids definition s.stored + 8
      unfold PassState.loaded
      dsimp only
      split
      all_goals first
        | exact Nat.lt_succ_self _
        | exact Nat.succ_pos _
  | loadingDef order workflow =>
      rw [hPass] at hMove
      dsimp only at hMove
      rw [System.step_passStep, hPass] at hMove
      rw [← Option.some.inj hMove]
      refine ⟨hCovers, ?_⟩
      change (PassState.loadedDef order workflow (env.definitions workflow.workflowDefId)).rank ids
        definition s.stored < 8 * workLeft ids definition workflow + 7
      unfold PassState.loadedDef
      split
      · exact Nat.succ_pos _
      · exact Nat.lt_succ_self _
  | active pass =>
      rw [hPass] at hMove hInv
      dsimp only at hMove
      cases hWaits : pass.isAwaiting with
      | false =>
          rw [hWaits, if_neg Bool.false_ne_true, System.step_passStep, hPass] at hMove
          rw [← Option.some.inj hMove]
          exact h.activeMove hDef hCovers hInv hWaits
      | true =>
          obtain ⟨started, call, rest, hPoint⟩ := ActivePass.isAwaiting_iff.mp hWaits
          rw [hWaits, if_pos rfl] at hMove
          simp only [System.step, hPass, PassState.answer, hPoint, Option.map_some] at hMove
          rw [← Option.some.inj hMove]
          refine ⟨hCovers, Nat.lt_of_le_of_lt answered_rank ?_⟩
          change _ < 8 * workLeft ids definition pass.workflow + pass.point.rank + 1
          rw [hPoint]
          exact Nat.lt_succ_self _

/-- Every long enough sequence of answers brings a pass to its end. -/
theorem Refines.ends (hDef : WellFormedDef definition) (h : Refines env definition s l) :
    ∃ bound, ∀ answers : List Answer, bound < answers.length →
      (answers.foldl (System.move env) s).pass.inFlight = false := by
  refine ⟨s.pass.rank (coveringIds definition s.stored) definition s.stored, fun answers hLong => ?_⟩
  refine @Run.foldl_ends _ _ s (System.move env) (fun s' => s'.pass.inFlight)
    (fun s' => (∃ l, Refines env definition s' l) ∧
      Covers (coveringIds definition s.stored) definition s'.stored)
    (fun s' => s'.pass.rank (coveringIds definition s.stored) definition s'.stored)
    (fun s' result hState hFlight => ?_) (fun s' result hRests => ?_) answers
    ⟨⟨l, h⟩, coveringIds_covers ..⟩ hLong
  · obtain ⟨⟨l', hRefines⟩, hCovers⟩ := hState
    obtain ⟨⟨l'', _, _, _, hRefines'⟩, _⟩ := hRefines.step (System.move_step env s' result)
    obtain ⟨hKept, hLower⟩ := hRefines.move_lt hDef hCovers hFlight result
    exact ⟨⟨⟨l'', hRefines'⟩, hKept⟩, hLower⟩
  · have hMove := System.move_step env s' result
    unfold System.nextMove at hMove
    cases hPass : s'.pass with
    | idle | finished _ =>
        rw [hPass] at hMove
        dsimp only at hMove
        rw [System.step_passStep, hPass] at hMove
        rw [← Option.some.inj hMove]
        rfl
    | loading _ | loadingDef _ _ | active _ =>
        rw [hPass] at hRests
        cases hRests

end Move

end RelayFold
