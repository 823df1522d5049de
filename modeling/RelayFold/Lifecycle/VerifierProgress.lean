import RelayFold.Lifecycle.Decisions
import RelayFold.Lifecycle.VerifierAnswers

/-! A verifier whose state runs can still be answered, unless an early exit
halts its slice. -/
namespace RelayFold

open WorkflowEngine WorkflowStateManager WorkflowService FallibleFold

/-- Generations are 32-bit numbers. -/
def GenerationsBounded (workflow : WorkflowInstance) : Prop :=
  ∀ id task, workflow.tasks.lookup id = some task → task.generationIndex < 2 ^ 32

/-- Whoever has exited has been answered. -/
def ExitsAnswered (workflow : WorkflowInstance) : Prop :=
  ∀ id task, workflow.tasks.lookup id = some task → task.earlyExit = true →
    task.status = .completed ∨ task.status = .failed

/-- An attempt of the slice is skipped for good, or it has exited for good. -/
def IsHalted (workflow : WorkflowInstance) (slice : List String) : Prop :=
  ∃ id task, workflow.tasks.lookup id = some task ∧ task.taskDefId ∈ slice ∧
    (task.status = .skipped ∨ task.status = .completed ∧ task.earlyExit = true)

/-- An attempt of the task may still be answered, or it waits for input. -/
def MayAnswer (workflow : WorkflowInstance) (taskId : String) : Prop :=
  ∃ id task, IsAttempt workflow taskId id task ∧
    (task.status.isOpen = true ∨ IsUnanswered workflow id task)

/-- What every commit keeps of the verifiers that run. -/
structure ProgressInv (definition : WorkflowDef) (workflow : WorkflowInstance) : Prop where
  bounded : GenerationsBounded workflow
  exits : ExitsAnswered workflow
  ordered : ∀ verifierId slice, (verifierId, slice) ∈ computeLoopSlices definition →
    SingleFile workflow verifierId ∨ WaitsAtLimit workflow verifierId
  running : ∀ verifierId slice, (verifierId, slice) ∈ computeLoopSlices definition →
    ∀ state, workflow.verifierStates.lookup verifierId = some state → state.status = .running →
    IsHalted workflow slice ∨ MayAnswer workflow verifierId
  ofVerifiers : OfVerifiers definition workflow

section Attempts

variable {workflow before after : WorkflowInstance} {taskId id : String} {slice : List String}
  {writer : Writer} {definition : WorkflowDef} {reduced : WorkflowInstance} {l : Lifecycle}

theorem IsHalted.interrupted (h : IsHalted workflow slice) :
    sliceInterruptedByExit workflow slice = true := by
  obtain ⟨id, task, hTask, hMem, hHalts⟩ := h
  refine sliceInterruptedByExit_iff.mpr ⟨id, task, hTask, hMem, ?_⟩
  rcases hHalts with hSkipped | ⟨_, hExits⟩
  · exact .inl hSkipped
  · exact .inr hExits

theorem IsHalted.of_attemptsAfter (h : IsHalted before slice)
    (hAfter : AttemptsAfter writer before after) : IsHalted after slice := by
  obtain ⟨id, a, ha, hMem, hHalts⟩ := h
  obtain ⟨b, hb, hMoves⟩ := hAfter.kept id a ha
  have hSettled : a.status.isSettled = true := by
    rcases hHalts with hSkipped | ⟨hCompleted, _⟩
    · rw [hSkipped]
      rfl
    · rw [hCompleted]
      rfl
  rw [hMoves.settled hSettled] at hb
  exact ⟨id, _, hb, hMem, hHalts⟩

theorem WaitsAtLimit.of_attemptsAfter (h : WaitsAtLimit before taskId)
    (hAfter : AttemptsAfter writer before after) : WaitsAtLimit after taskId := by
  obtain ⟨id, a, ha, hWaiting, hLimit⟩ := h
  obtain ⟨b, hb, hMoves⟩ := hAfter.kept id a ha.found
  have hSettled : a.status.isSettled = true := by
    cases hStatus : a.status with
    | inputNeeded _ => rfl
    | _ =>
        rw [hStatus] at hWaiting
        cases hWaiting
  rw [hMoves.settled hSettled] at hb
  exact ⟨id, _, ⟨hb, ha.taskDefId⟩, hWaiting, hLimit⟩

/-- There is no generation after the last one. -/
theorem WaitsAtLimit.mayAnswer (h : WaitsAtLimit workflow taskId)
    (hBounded : GenerationsBounded workflow) (hKeyed : Keyed workflow) :
    MayAnswer workflow taskId := by
  obtain ⟨id, task, hTask, hWaiting, hLimit⟩ := h
  refine ⟨id, task, hTask, .inr ⟨hTask.found, hWaiting, ?_⟩⟩
  cases hNext : workflow.tasks.lookup
      (makeTaskAttemptId task.taskDefId (task.generationIndex + 1)) with
  | none => rfl
  | some next =>
      have hName := (makeTaskAttemptId_inj.mp (hKeyed _ next hNext)).2
      have hLt := hBounded _ next hNext
      omega

theorem WriteEffect.bounded (h : WriteEffect definition l reduced writer)
    (hOld : GenerationsBounded l.stored) : GenerationsBounded reduced := by
  intro key b hb
  cases h with
  | status _ hTasks _ =>
      rw [hTasks] at hb
      exact hOld key b hb
  | initialTasks _ hTasks _ _ =>
      obtain ⟨_, _, _, rfl⟩ := hTasks key b hb
      show 1 < 2 ^ 32
      omega
  | initialGenerations _ _ hAfter =>
      rw [hAfter.tasks] at hb
      exact hOld key b hb
  | @start id task _ hTask _ hTasks _ =>
      rw [hTasks] at hb
      split at hb
      · cases hb
        exact hOld id task hTask
      · exact hOld key b hb
  | @result ext loopSlices started answer result hSlices hTask hFound hRunning _ hOutcome =>
      obtain ⟨exit, hFrame⟩ := hOutcome.frame hTask
      cases ha : l.stored.tasks.lookup key with
      | none =>
          obtain ⟨verifier, _, hBelow, _, _, _, rfl⟩ := hOutcome.materialized hTask ha hb
          have hLimit := verifier.maxIterations.toNat_lt
          show started.task.generationIndex + 1 < 2 ^ 32
          omega
      | some a =>
          by_cases hKey : key = started.taskAttemptId
          · subst hKey
            obtain ⟨own, hOwn, _, hGeneration⟩ := hFrame.own a ha
            rw [hb] at hOwn
            cases hOwn
            rw [hGeneration]
            exact hOld _ a ha
          · obtain ⟨mark, hAfter⟩ := hFrame.kept key a hKey ha
            rw [hb] at hAfter
            cases hAfter
            have hSame := (Turns.afterExit (a := a) exit mark).names.2
            rw [hSame]
            exact hOld key a ha
  | humanInput _ _ _ hTasks _ =>
      rw [hTasks] at hb
      split at hb
      · cases hb
        exact Nat.mod_lt _ (by omega)
      · exact hOld key b hb
  | @retry id task hTask _ hTasks _ =>
      rw [hTasks] at hb
      split at hb
      · cases hb
        exact hOld id task hTask
      · exact hOld key b hb
  | recover hTasks _ =>
      rw [hTasks] at hb
      split at hb
      · obtain ⟨a, ha, rfl⟩ := Option.map_eq_some_iff.mp hb
        unfold TaskInstance.recovered
        split <;> exact hOld key a ha
      · exact hOld key b hb

theorem WriteEffect.exitsAnswered (h : WriteEffect definition l reduced writer)
    (hOld : ExitsAnswered l.stored) : ExitsAnswered reduced := by
  intro key b hb hExits
  cases h with
  | status _ hTasks _ =>
      rw [hTasks] at hb
      exact hOld key b hb hExits
  | initialTasks _ hTasks _ _ =>
      obtain ⟨_, _, _, rfl⟩ := hTasks key b hb
      cases hExits
  | initialGenerations _ _ hAfter =>
      rw [hAfter.tasks] at hb
      exact hOld key b hb hExits
  | @start id task _ hTask hPending hTasks _ =>
      rw [hTasks] at hb
      split at hb
      · cases hb
        have hStatus := hOld id task hTask hExits
        rw [hPending] at hStatus
        rcases hStatus with hStatus | hStatus <;> cases hStatus
      · exact hOld key b hb hExits
  | @result ext loopSlices started answer result hSlices hTask hFound hRunning _ hOutcome =>
      by_cases hKey : key = started.taskAttemptId
      · subst hKey
        have hNoExit : started.task.earlyExit = false := by
          rw [← Bool.not_eq_true]
          intro hExited
          have hStatus := hOld _ _ hTask hExited
          rw [hRunning] at hStatus
          rcases hStatus with hStatus | hStatus <;> cases hStatus
        cases hOutcome with
        | stopped hEffect _ hAnswered _ _ _ =>
            rw [hEffect.own] at hb
            cases hb
            rcases hAnswered.exits hExits with hFailed | hExited
            · exact .inr hFailed
            · rw [hNoExit] at hExited
              cases hExited
        | plain _ _ _ hEffect _ =>
            rw [hEffect.own] at hb
            cases hb
            exact .inl rfl
        | judged _ _ _ _ _ hCompletion hVerdict _ =>
            cases hVerdict with
            | complete _ _ hEffect | interrupted _ _ _ hEffect | rerun _ _ _ _ hEffect
            | exhausted _ _ _ _ _ hEffect =>
                rw [hEffect.own, hCompletion.own] at hb
                cases hb
                exact .inl rfl
            | failed _ _ _ _ _ _ hEffect =>
                rw [hEffect.own, hCompletion.own] at hb
                cases hb
                exact .inr rfl
      · cases ha : l.stored.tasks.lookup key with
        | none =>
            obtain ⟨_, _, _, _, _, _, rfl⟩ := hOutcome.materialized hTask ha hb
            cases hExits
        | some a =>
            obtain ⟨exit, hFrame⟩ := hOutcome.frame hTask
            obtain ⟨mark, hAfter⟩ := hFrame.kept key a hKey ha
            rw [hb] at hAfter
            cases hAfter
            have hStatus := hOld key a ha ((a.afterExit_earlyExit exit).symm.trans hExits)
            rcases hStatus with hStatus | hStatus
            · left
              rw [TaskInstance.afterExit_of_ne_pending (by rw [hStatus]; nofun)]
              exact hStatus
            · right
              rw [TaskInstance.afterExit_of_ne_pending (by rw [hStatus]; nofun)]
              exact hStatus
  | humanInput _ _ _ hTasks _ =>
      rw [hTasks] at hb
      split at hb
      · cases hb
        cases hExits
      · exact hOld key b hb hExits
  | retry _ _ hTasks _ =>
      rw [hTasks] at hb
      split at hb
      · cases hb
        cases hExits
      · exact hOld key b hb hExits
  | recover hTasks _ =>
      rw [hTasks] at hb
      split at hb
      · obtain ⟨a, ha, rfl⟩ := Option.map_eq_some_iff.mp hb
        unfold TaskInstance.recovered at hExits ⊢
        split at hExits
        · rename_i hRunning
          have hStatus := hOld key a ha hExits
          rw [hRunning] at hStatus
          rcases hStatus with hStatus | hStatus <;> cases hStatus
        · rename_i hRunning
          rw [if_neg hRunning]
          exact hOld key a ha hExits
      · exact hOld key b hb hExits

theorem MayAnswer.of_open {task : TaskInstance} (hTask : IsAttempt workflow taskId id task)
    (hOpen : task.status.isOpen = true) : MayAnswer workflow taskId :=
  ⟨id, task, hTask, .inl hOpen⟩

/-- A commit that answers no attempt of the task lets it be answered, or skips
it. -/
theorem MayAnswer.of_unanswered (h : MayAnswer before taskId)
    (hAttempts : Unanswered before after taskId) (hKeyed : Keyed after) (hMem : taskId ∈ slice) :
    IsHalted after slice ∨ MayAnswer after taskId := by
  obtain ⟨id, a, ha, hWaits⟩ := h
  obtain ⟨b, hb, hTurns⟩ := hAttempts.attempt_kept ha
  rcases hWaits with hOpen | hUnanswered
  · cases hTurns with
    | same _ _ hStatus _ => exact .inr (.of_open hb (by rwa [hStatus]))
    | moved _ _ _ _ hNew =>
        rcases hNew with hNew | hNew | hNew
        · exact .inr (.of_open hb (by rw [hNew]; rfl))
        · exact .inr (.of_open hb (by rw [hNew]; rfl))
        · exact .inl ⟨id, b, hb.found, hb.taskDefId ▸ hMem, .inl hNew⟩
  · refine .inr ⟨id, b, hb, .inr ⟨hb.found, hTurns.isInputNeeded ▸ hUnanswered.waiting, ?_⟩⟩
    rw [hTurns.names.1, hTurns.names.2]
    cases hNext : after.tasks.lookup
        (makeTaskAttemptId a.taskDefId (a.generationIndex + 1)) with
    | none => rfl
    | some next =>
        have hDefId := (makeTaskAttemptId_inj.mp (hKeyed _ next hNext)).1
        obtain ⟨old, hOld, _⟩ := hAttempts.origin _ next ⟨hNext, hDefId.symm.trans ha.taskDefId⟩
        rw [hUnanswered.free] at hOld
        cases hOld

/-- A running attempt that is the latest has no successor. -/
theorem SingleFile.free {task : TaskInstance} (h : SingleFile before taskId)
    (hKeyed : Keyed before) (hTask : IsAttempt before taskId id task)
    (hRunning : task.status = .running) :
    before.tasks.lookup (makeTaskAttemptId taskId (task.generationIndex + 1)) = none := by
  cases hNext : before.tasks.lookup (makeTaskAttemptId taskId (task.generationIndex + 1)) with
  | none => rfl
  | some next =>
      obtain ⟨hDefId, hGeneration⟩ := makeTaskAttemptId_inj.mp (hKeyed _ next hNext)
      have hLe := h.opened id task hTask (by rw [hRunning]; rfl) _ next ⟨hNext, hDefId.symm⟩
      omega

end Attempts

section Step

variable {definition : WorkflowDef} {before after : WorkflowInstance} {verifierId : String}
  {slice : List String} {writer : Writer}

/-- What the answer of a verifier leaves of it. -/
theorem ProgressInv.answered {ext : Externals} {loopSlices : LoopSlices} {id : String}
    {task : TaskInstance} {taskDef : TaskDef} {inputs : ResolvedTaskInputs} {answer : Answer}
    {result : ResultCommit} (h : ProgressInv definition before) (hDef : WellFormedDef definition)
    (hSlice : (verifierId, slice) ∈ computeLoopSlices definition)
    (hSlices : loopSlices.Perm (computeLoopSlices definition)) (hKeyed : Keyed before)
    (hNoneFailed : NoneFailed before) (hSingle : SingleFile before verifierId)
    (hTask : IsAttempt before verifierId id task) (hRunning : task.status = .running)
    (hFound : definition.findTask verifierId = some taskDef)
    (hOutcome : Outcome ext before after loopSlices id task taskDef inputs answer result)
    {state : VerifierGenerationState} (hState : after.verifierStates.lookup verifierId = some state)
    (hRuns : state.status = .running) : IsHalted after slice ∨ MayAnswer after verifierId := by
  have hId := (findTask_some hFound).2
  have hFree := hSingle.free hKeyed hTask hRunning
  have hNextKey : makeTaskAttemptId verifierId (task.generationIndex + 1) ≠ id := by
    rintro rfl
    rw [hTask.found] at hFree
    cases hFree
  cases hOutcome with
  | @stopped own _ hEffect hStatus hAnswered _ _ _ =>
      have hOwn : IsAttempt after verifierId id own :=
        ⟨hEffect.own, hAnswered.taskDefId.trans hTask.taskDefId⟩
      rcases hStatus with hFailed | hWaiting
      · exact .inr (.of_open hOwn (by rw [hFailed]; rfl))
      · refine .inr ⟨id, own, hOwn, .inr ⟨hEffect.own, hWaiting, ?_⟩⟩
        rw [hOwn.taskDefId, hAnswered.generationIndex, hEffect.kept _ hNextKey, hFree]
        rfl
  | plain hPlain _ _ _ _ =>
      obtain ⟨found, verifier, hSame, hVerifier, _⟩ := hDef.slice_verifier hSlice
      rw [hFound] at hSame
      cases hSame
      rw [hVerifier] at hPlain
      cases hPlain
  | @judged schema exit output verifier decided middle old message _ _ _ _ _ hCompletion hVerdict _ =>
      rw [hId, lookup_slice hDef hSlices hSlice, Option.getD_some] at hVerdict
      cases hVerdict with
      | complete _ _ hEffect | exhausted _ _ _ _ _ hEffect =>
          have hAfter := hEffect.state
          rw [hId, hState] at hAfter
          cases hAfter
          cases hRuns
      | failed _ _ _ _ _ _ hEffect =>
          have hOwn := hEffect.own
          rw [hCompletion.own] at hOwn
          exact .inr (.of_open ⟨hOwn, hTask.taskDefId⟩ rfl)
      | rerun _ _ _ _ hEffect =>
          have hMiddle := hCompletion.kept _ hNextKey
          rw [hFree] at hMiddle
          rcases hEffect.new _ hMiddle with ⟨taskDefId, _, hKey, hFresh⟩ | ⟨hNot, _⟩
          · rw [← (makeTaskAttemptId_inj.mp hKey).1] at hFresh
            exact .inr (.of_open ⟨hFresh, rfl⟩ rfl)
          · exact absurd (List.mem_map_of_mem (hDef.verifier_mem hSlice)) hNot
      | interrupted _ _ hInterrupted hEffect =>
          obtain ⟨key, b, hb, hMem, hHalts⟩ := sliceInterruptedByExit_iff.mp hInterrupted
          by_cases hKey : key = id
          · have hOwn := hEffect.own
            rw [← hKey, hb] at hOwn
            rw [hKey, hCompletion.own] at hb
            cases hb
            refine .inl ⟨key, _, hOwn, hMem, .inr ⟨rfl, ?_⟩⟩
            rcases hHalts with hSkipped | hExits
            · cases hSkipped
            · exact hExits
          · refine .inl ⟨key, _, hEffect.kept key b hKey hb, hMem, ?_⟩
            rcases hHalts with hSkipped | hExits
            · exact .inl hSkipped
            · rw [hCompletion.kept key hKey] at hb
              obtain ⟨a, ha, rfl⟩ := Option.map_eq_some_iff.mp hb
              have hStatus := h.exits key a ha ((a.afterExit_earlyExit _).symm.trans hExits)
              rcases hStatus with hCompleted | hFailed
              · right
                rw [TaskInstance.afterExit_of_completed hCompleted] at hExits ⊢
                exact ⟨hCompleted, hExits⟩
              · exact absurd hFailed (hNoneFailed key a ha)

/-- Every commit keeps a verifier that runs able to be answered, or its slice
halts. -/
theorem ProgressInv.seenBy (h : ProgressInv definition before) (hDef : WellFormedDef definition)
    (hSlice : (verifierId, slice) ∈ computeLoopSlices definition) (hSound : Sound definition before)
    (hUnstarted : before.verifierStates.lookup verifierId = none → Unstarted before slice)
    (hSeen : SeenBy definition before after verifierId writer)
    (hAfter : AttemptsAfter writer before after) (hBounded : GenerationsBounded after)
    {state : VerifierGenerationState} (hState : after.verifierStates.lookup verifierId = some state)
    (hRuns : state.status = .running) : IsHalted after slice ∨ MayAnswer after verifierId := by
  have hMem := hDef.verifier_mem hSlice
  have hKeyed : Keyed after := hAfter.key hSound.key
  cases hSeen with
  | unanswered hAttempts hSame =>
      rw [hSame] at hState
      rcases h.running verifierId slice hSlice state hState hRuns with hHalted | hMay
      · exact .inl (hHalted.of_attemptsAfter hAfter)
      · exact hMay.of_unanswered hAttempts hKeyed hMem
  | initialized hEmpty _ hSame =>
      rw [hSame] at hState
      rcases h.running verifierId slice hSlice state hState hRuns with hHalted | hMay
      · obtain ⟨id, task, hTask, _⟩ := hHalted
        rw [hEmpty] at hTask
        cases hTask
      · obtain ⟨id, task, hTask, _⟩ := hMay
        have hFound := hTask.found
        rw [hEmpty] at hFound
        cases hFound
  | started hTasks hInitialized hNotSkipped hNone _ =>
      obtain ⟨verifierTask, _, hFound, _⟩ := hDef.slice_verifier hSlice
      obtain ⟨task, hTask⟩ := Option.isSome_iff_exists.mp
        (hInitialized.isSome (findTask_mem_taskIds hFound))
      have hDefId := (makeTaskAttemptId_inj.mp (hSound.key _ task hTask)).1
      have hPending : task.status = .pending := by
        rcases (hUnstarted hNone).status hTask (hDefId ▸ hMem) with hPending | hSkipped
        · exact hPending
        · exact absurd hSkipped (hNotSkipped _ task ⟨hTask, hDefId.symm⟩)
      exact .inr (.of_open ⟨by rw [hTasks, hTask], hDefId.symm⟩ (by rw [hPending]; rfl))
  | @retried id task _ hTask _ hTasks _ =>
      have hReset : IsAttempt after verifierId id task.resetForRetry :=
        ⟨by rw [hTasks, if_pos rfl], hTask.taskDefId⟩
      exact .inr (.of_open hReset rfl)
  | continued _ _ _ _ hTasks _ =>
      exact .inr (.of_open ⟨by rw [hTasks, if_pos rfl], rfl⟩ rfl)
  | answered hTask hRunning hFound hSlices hOutcome hStatus =>
      have hNotFailed : before.status ≠ .failed := by
        intro hFailed
        rw [hFailed] at hStatus
        rcases hStatus with hStatus | hStatus <;> cases hStatus
      rcases h.ordered verifierId slice hSlice with hSingle | hLimit
      · exact h.answered hDef hSlice hSlices hSound.key (hSound.failedOnce.noneFailed hNotFailed)
          hSingle hTask hRunning hFound hOutcome hState hRuns
      · exact .inr ((hLimit.of_attemptsAfter hAfter).mayAnswer hBounded hKeyed)

variable {env : EngineEnv} {start s : System} {action : Action} {actions : List Action}
  {events : List WorkflowInstanceEvent} {reduced : WorkflowInstance}

theorem ProgressInv.commit (h : ProgressInv definition s.stored) (hDef : WellFormedDef definition)
    (hTracked : Tracked env definition s) (hCommit : Commit env definition s reduced action events)
    (hReduce : reduceWorkflowInstanceEvents (some s.stored) events = .ok reduced) :
    ProgressInv definition reduced := by
  obtain ⟨l, hRefines, hStarts⟩ := hTracked
  obtain ⟨plan, hEffect⟩ := hCommit.effect hReduce
  have hAfter := hCommit.attemptsAfter hReduce
  have hBounded := hEffect.bounded h.bounded
  refine ⟨hBounded, hEffect.exitsAnswered h.exits, fun verifierId slice hSlice => ?_,
    fun verifierId slice hSlice state hState hRuns => ?_, hEffect.ofVerifiers h.ofVerifiers⟩
  · rcases h.ordered verifierId slice hSlice with hSingle | hLimit
    · rcases hSingle.seenBy hDef hSlice hRefines.sound.key (hEffect.seenBy hDef hSlice) with
        hAgain | hLimit
      · exact .inl hAgain
      · exact .inr (hLimit.of_attemptsAfter hAfter)
    · exact .inr (hLimit.of_attemptsAfter hAfter)
  · have hUnstarted := hStarts.unstarted verifierId slice hSlice
    rw [hRefines.stored] at hUnstarted
    exact h.seenBy hDef hSlice hRefines.sound hUnstarted (hEffect.seenBy hDef hSlice) hAfter
      hBounded hState hRuns

theorem SingleFile.of_empty {workflow : WorkflowInstance} {taskId : String}
    (hEmpty : ∀ id, workflow.tasks.lookup id = none) : SingleFile workflow taskId := by
  refine ⟨fun id task hTask => ?_, fun id task hTask => ?_⟩
  · have hFound := hTask.found
    rw [hEmpty] at hFound
    cases hFound
  · have hFound := hTask.found
    rw [hEmpty] at hFound
    cases hFound

theorem ProgressInv.created (definition : WorkflowDef) (id workflowDefId : String)
    (pinnedWorkerHost : WorkerHostId) (input : Option Json) :
    ProgressInv definition (System.created id workflowDefId pinnedWorkerHost input).stored :=
  ⟨fun _ _ hTask => (by cases hTask), fun _ _ hTask => (by cases hTask),
    fun _ _ _ => .inl (.of_empty fun _ => rfl), fun _ _ _ _ hState => (by cases hState),
    fun _ _ hState => by cases hState⟩

theorem ProgressInv.withVersion (h : ProgressInv definition before) (version : Nat) :
    ProgressInv definition (before.withVersion version) := by
  have hLatest {taskId : String} {generation : Nat} (hOld : IsLatest before taskId generation) :
      IsLatest (before.withVersion version) taskId generation :=
    fun id task hTask => hOld id task ⟨hTask.found, hTask.taskDefId⟩
  refine ⟨h.bounded, h.exits, fun verifierId slice hSlice => ?_,
    fun verifierId slice hSlice state hState hRuns => ?_, h.ofVerifiers⟩
  · rcases h.ordered verifierId slice hSlice with hSingle | ⟨id, task, hTask, hLimit⟩
    · refine .inl ⟨fun id task hTask hOpen =>
        hLatest (hSingle.opened id task ⟨hTask.found, hTask.taskDefId⟩ hOpen),
        fun id task hTask hWaiting => ?_⟩
      rcases hSingle.waiting id task ⟨hTask.found, hTask.taskDefId⟩ hWaiting with
        hLast | ⟨nextId, next, hNext, hSucc⟩
      · exact .inl (hLatest hLast)
      · exact .inr ⟨nextId, next, ⟨hNext.found, hNext.taskDefId⟩, hSucc⟩
    · exact .inr ⟨id, task, ⟨hTask.found, hTask.taskDefId⟩, hLimit⟩
  · rcases h.running verifierId slice hSlice state hState hRuns with
      hHalted | ⟨id, task, hTask, hMay⟩
    · exact .inl hHalted
    · refine .inr ⟨id, task, ⟨hTask.found, hTask.taskDefId⟩, hMay.imp_right fun hUnanswered => ?_⟩
      exact ⟨hUnanswered.found, hUnanswered.waiting, hUnanswered.free⟩

theorem System.Steps.progressInv (hDef : WellFormedDef definition)
    (run : System.Steps env start actions s) (hTracked : Tracked env definition start)
    (hStart : ProgressInv definition start.stored) :
    Tracked env definition s ∧ ProgressInv definition s.stored := by
  have hRun : System.StepsMeeting env (fun _ _ => True) start actions s :=
    run.mono fun _ _ _ hStep => ⟨hStep, trivial⟩
  exact hRun.keeps hDef hTracked hStart
    (fun _ _ _ _ hState h _ hCommit hReduce => h.commit hDef hState hCommit hReduce)
    fun _ version h => h.withVersion version

end Step

end RelayFold
