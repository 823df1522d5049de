import RelayFold.Lifecycle.Commits

/-! The attempts of a verifier come one after the other: while one of them may
still be answered, there is no later one. -/
namespace RelayFold

open WorkflowEngine WorkflowService FallibleFold

/-- The attempt may still be answered. -/
def TaskStatus.isOpen : TaskStatus → Bool
  | pending | running | failed => true
  | _ => false

/-- An attempt that waits for input is not open: no pass will start it
again. -/
theorem TaskStatus.isOpen_of_isInputNeeded {status : TaskStatus}
    (h : status.isInputNeeded = true) : status.isOpen = false := by
  cases status with
  | inputNeeded _ => rfl
  | _ => cases h

/-- An attempt of a task. -/
structure IsAttempt (workflow : WorkflowInstance) (taskId id : String) (task : TaskInstance) :
    Prop where
  found : workflow.tasks.lookup id = some task
  taskDefId : task.taskDefId = taskId

/-- No attempt of the task has a later generation. -/
def IsLatest (workflow : WorkflowInstance) (taskId : String) (generation : Nat) : Prop :=
  ∀ id task, IsAttempt workflow taskId id task → task.generationIndex ≤ generation

/-- An attempt that may still be answered is the latest of its task, and so is
one that waits for input unless its continuation exists. -/
structure SingleFile (workflow : WorkflowInstance) (taskId : String) : Prop where
  opened : ∀ id task, IsAttempt workflow taskId id task → task.status.isOpen = true →
    IsLatest workflow taskId task.generationIndex
  waiting : ∀ id task, IsAttempt workflow taskId id task → task.status.isInputNeeded = true →
    IsLatest workflow taskId task.generationIndex ∨
      ∃ id next, IsAttempt workflow taskId id next ∧
        next.generationIndex = task.generationIndex + 1

/-- What becomes of an attempt that is not answered. -/
inductive Turns : TaskInstance → TaskInstance → Prop
  | same {a b : TaskInstance} (hTask : b.taskDefId = a.taskDefId)
      (hGeneration : b.generationIndex = a.generationIndex) (hStatus : b.status = a.status)
      (hMetadata : b.verifierMetadata = a.verifierMetadata) : Turns a b
  | moved {a b : TaskInstance} (hTask : b.taskDefId = a.taskDefId)
      (hGeneration : b.generationIndex = a.generationIndex)
      (hMetadata : b.verifierMetadata = a.verifierMetadata)
      (hOld : a.status = .pending ∨ a.status = .running)
      (hNew : b.status = .pending ∨ b.status = .running ∨ b.status = .skipped) : Turns a b

/-- The attempts of a task after a commit that neither answers nor retries one
and that creates none. -/
structure Unanswered (before after : WorkflowInstance) (taskId : String) : Prop where
  kept : ∀ id a, IsAttempt before taskId id a → ∃ b, after.tasks.lookup id = some b ∧ Turns a b
  origin : ∀ id b, IsAttempt after taskId id b →
    ∃ a, before.tasks.lookup id = some a ∧ Turns a b

section Turns

variable {a b : TaskInstance} {before after : WorkflowInstance} {taskId id : String}

theorem Turns.refl (a : TaskInstance) : Turns a a := .same rfl rfl rfl rfl

theorem Turns.names (h : Turns a b) :
    b.taskDefId = a.taskDefId ∧ b.generationIndex = a.generationIndex := by
  cases h with
  | same hTask hGeneration _ _ => exact ⟨hTask, hGeneration⟩
  | moved hTask hGeneration _ _ _ => exact ⟨hTask, hGeneration⟩

theorem Turns.isOpen (h : Turns a b) (hOpen : b.status.isOpen = true) : a.status.isOpen = true := by
  cases h with
  | same _ _ hStatus _ => rwa [← hStatus]
  | moved _ _ _ hOld _ =>
      rcases hOld with hOld | hOld
      · rw [hOld]
        rfl
      · rw [hOld]
        rfl

theorem Turns.isInputNeeded (h : Turns a b) :
    b.status.isInputNeeded = a.status.isInputNeeded := by
  cases h with
  | same _ _ hStatus _ => rw [hStatus]
  | moved _ _ _ hOld hNew =>
      rcases hOld with hOld | hOld <;> rcases hNew with hNew | hNew | hNew <;> rw [hOld, hNew] <;> rfl

/-- An early exit, with whatever mark, turns an attempt in this sense. -/
theorem Turns.afterExit (exit : Bool) (mark : Option TaskSatisfactionStatus) :
    Turns a ((a.afterExit exit).marked mark) := by
  unfold TaskInstance.afterExit
  split
  · rename_i h
    exact .moved rfl rfl rfl (.inl h.2) (.inr (.inr rfl))
  · exact .same rfl rfl rfl rfl

theorem Unanswered.of_same (h : after.tasks = before.tasks) : Unanswered before after taskId := by
  refine ⟨fun id a ha => ⟨a, ?_, .refl a⟩, fun id b hb => ⟨b, ?_, .refl b⟩⟩
  · rw [h]
    exact ha.found
  · rw [← h]
    exact hb.found

/-- Where nobody has answered, an attempt after the step was one before it. -/
theorem Unanswered.attempt (h : Unanswered before after taskId) {b : TaskInstance}
    (hb : IsAttempt after taskId id b) : ∃ a, IsAttempt before taskId id a ∧ Turns a b := by
  obtain ⟨a, ha, hTurns⟩ := h.origin id b hb
  exact ⟨a, ⟨ha, hTurns.names.1.symm.trans hb.taskDefId⟩, hTurns⟩

theorem Unanswered.attempt_kept (h : Unanswered before after taskId) {a : TaskInstance}
    (ha : IsAttempt before taskId id a) : ∃ b, IsAttempt after taskId id b ∧ Turns a b := by
  obtain ⟨b, hb, hTurns⟩ := h.kept id a ha
  exact ⟨b, ⟨hb, hTurns.names.1.trans ha.taskDefId⟩, hTurns⟩

/-- Where nobody has answered for a task, its latest generation is the same
before and after the step, since its attempts are matched in both
directions. -/
theorem Unanswered.isLatest (h : Unanswered before after taskId) {generation : Nat} :
    IsLatest after taskId generation ↔ IsLatest before taskId generation := by
  constructor
  · intro hLatest id a ha
    obtain ⟨b, hb, hTurns⟩ := h.attempt_kept ha
    rw [← hTurns.names.2]
    exact hLatest id b hb
  · intro hLatest id b hb
    obtain ⟨a, ha, hTurns⟩ := h.attempt hb
    rw [hTurns.names.2]
    exact hLatest id a ha

/-- A step without an answer keeps the attempts in single file: at most the
latest one is open or waits. -/
theorem SingleFile.of_unanswered (h : SingleFile before taskId)
    (hAfter : Unanswered before after taskId) : SingleFile after taskId := by
  constructor
  · intro id b hb hOpen
    obtain ⟨a, ha, hTurns⟩ := hAfter.attempt hb
    rw [hAfter.isLatest, hTurns.names.2]
    exact h.opened id a ha (hTurns.isOpen hOpen)
  · intro id b hb hWaiting
    obtain ⟨a, ha, hTurns⟩ := hAfter.attempt hb
    rw [hAfter.isLatest, hTurns.names.2]
    rw [hTurns.isInputNeeded] at hWaiting
    rcases h.waiting id a ha hWaiting with hLatest | ⟨nextId, next, hNext, hGeneration⟩
    · exact .inl hLatest
    · obtain ⟨next', hNext', hTurns'⟩ := hAfter.attempt_kept hNext
      exact .inr ⟨nextId, next', hNext', hTurns'.names.2.trans hGeneration⟩

end Turns

/-- The attempts of a task after one of them was answered; a rerun adds the
next generation. -/
structure AnsweredAttempts (before after : WorkflowInstance) (taskId id : String)
    (task own : TaskInstance) (rerun : Prop) : Prop where
  attempt : IsAttempt after taskId id own
  generation : own.generationIndex = task.generationIndex
  kept : ∀ key a, key ≠ id → IsAttempt before taskId key a →
    ∃ b, after.tasks.lookup key = some b ∧ Turns a b
  origin : ∀ key b, key ≠ id → IsAttempt after taskId key b →
    (∃ a, before.tasks.lookup key = some a ∧ Turns a b) ∨
    rerun ∧ b = .fresh taskId (task.generationIndex + 1)
  added : rerun → (∃ a, IsAttempt before taskId
      (makeTaskAttemptId taskId (task.generationIndex + 1)) a) ∨
    IsAttempt after taskId (makeTaskAttemptId taskId (task.generationIndex + 1))
      (.fresh taskId (task.generationIndex + 1))

/-- Attempts are stored under their names. -/
def Keyed (workflow : WorkflowInstance) : Prop :=
  ∀ id task, workflow.tasks.lookup id = some task →
    id = makeTaskAttemptId task.taskDefId task.generationIndex

section SingleFile

variable {before after : WorkflowInstance} {taskId id : String} {task own : TaskInstance}

theorem Keyed.eq_of_generation (h : Keyed before) {id' : String} {task' : TaskInstance}
    (hTask : IsAttempt before taskId id task) (hTask' : IsAttempt before taskId id' task')
    (hSame : task'.generationIndex = task.generationIndex) : id' = id := by
  rw [h id task hTask.found, h id' task' hTask'.found, hTask.taskDefId, hTask'.taskDefId, hSame]

/-- There is one latest attempt. -/
theorem Keyed.eq_of_latest (h : Keyed before) {id' : String} {task' : TaskInstance}
    (hTask : IsAttempt before taskId id task) (hTask' : IsAttempt before taskId id' task')
    (hLatest : IsLatest before taskId task.generationIndex)
    (hLatest' : IsLatest before taskId task'.generationIndex) : id' = id := by
  have hLe := hLatest id' task' hTask'
  have hGe := hLatest' id task hTask
  exact h.eq_of_generation hTask hTask' (by omega)

/-- An answer to the latest attempt may bring the next generation, which is
then the latest one. -/
theorem AnsweredAttempts.isLatest {rerun : Prop}
    (h : AnsweredAttempts before after taskId id task own rerun)
    (hTask : IsAttempt before taskId id task)
    (hLatest : IsLatest before taskId task.generationIndex) :
    IsLatest after taskId (task.generationIndex + 1) ∧
      (¬rerun → IsLatest after taskId task.generationIndex) := by
  have hOld (key : String) (b : TaskInstance) (hb : IsAttempt after taskId key b) :
      b.generationIndex ≤ task.generationIndex ∨
        rerun ∧ b.generationIndex = task.generationIndex + 1 := by
    by_cases hKey : key = id
    · subst hKey
      have hSame := h.attempt.found
      rw [hb.found] at hSame
      cases hSame
      exact .inl (Nat.le_of_eq h.generation)
    · rcases h.origin key b hKey hb with ⟨a, ha, hTurns⟩ | ⟨hRerun, rfl⟩
      · left
        rw [hTurns.names.2]
        exact hLatest key a ⟨ha, hTurns.names.1.symm.trans hb.taskDefId⟩
      · exact .inr ⟨hRerun, rfl⟩
  constructor
  · intro key b hb
    rcases hOld key b hb with hLe | ⟨_, hSame⟩ <;> omega
  · intro hNot key b hb
    rcases hOld key b hb with hLe | ⟨hRerun, _⟩
    · exact hLe
    · exact absurd hRerun hNot

/-- The attempts of a task stay in single file when its running one is
answered: the new generation is open only if the old one is closed by the same
commit. -/
theorem SingleFile.of_answered {rerun : Prop} (h : SingleFile before taskId) (hKeyed : Keyed before)
    (hAfter : AnsweredAttempts before after taskId id task own rerun)
    (hTask : IsAttempt before taskId id task) (hRunning : task.status = .running)
    (hOwn : own.status.isOpen = true ∨ own.status.isInputNeeded = true → ¬rerun) :
    SingleFile after taskId := by
  have hLatest := h.opened id task hTask (by rw [hRunning]; rfl)
  obtain ⟨hNext, hSame⟩ := hAfter.isLatest hTask hLatest
  have hSelf {b : TaskInstance} (hb : IsAttempt after taskId id b) : b = own := by
    have hOwn := hAfter.attempt.found
    rw [hb.found] at hOwn
    exact Option.some.inj hOwn
  constructor
  · intro key b hb hOpen
    by_cases hKey : key = id
    · subst hKey
      obtain rfl := hSelf hb
      rw [hAfter.generation]
      exact hSame (hOwn (.inl hOpen))
    · rcases hAfter.origin key b hKey hb with ⟨a, ha, hTurns⟩ | ⟨_, rfl⟩
      · have hAttempt : IsAttempt before taskId key a :=
          ⟨ha, hTurns.names.1.symm.trans hb.taskDefId⟩
        have hOld := h.opened key a hAttempt (hTurns.isOpen hOpen)
        exact absurd (hKeyed.eq_of_latest hTask hAttempt hLatest hOld) hKey
      · exact hNext
  · intro key b hb hWaiting
    by_cases hKey : key = id
    · subst hKey
      obtain rfl := hSelf hb
      rw [hAfter.generation]
      exact .inl (hSame (hOwn (.inr hWaiting)))
    · rcases hAfter.origin key b hKey hb with ⟨a, ha, hTurns⟩ | ⟨_, rfl⟩
      · have hAttempt : IsAttempt before taskId key a :=
          ⟨ha, hTurns.names.1.symm.trans hb.taskDefId⟩
        rw [hTurns.isInputNeeded] at hWaiting
        rcases h.waiting key a hAttempt hWaiting with hOld | ⟨nextId, next, hNextAttempt, hGeneration⟩
        · exact absurd (hKeyed.eq_of_latest hTask hAttempt hLatest hOld) hKey
        · right
          rw [hTurns.names.2]
          by_cases hId : nextId = id
          · subst hId
            have hFound := hNextAttempt.found
            rw [hTask.found] at hFound
            cases hFound
            exact ⟨nextId, own, hAfter.attempt, hAfter.generation.trans hGeneration⟩
          · obtain ⟨next', hFound, hTurns'⟩ := hAfter.kept nextId next hId hNextAttempt
            exact ⟨nextId, next', ⟨hFound, hTurns'.names.1.trans hNextAttempt.taskDefId⟩,
              hTurns'.names.2.trans hGeneration⟩
      · cases hWaiting

/-- A retry opens a failed attempt again. In single file nothing later than it
exists, so it is still the only open one. -/
theorem SingleFile.of_retried (h : SingleFile before taskId)
    (hTask : IsAttempt before taskId id task) (hFailed : task.status = .failed)
    (hTasks : ∀ key, after.tasks.lookup key =
      if key = id then some task.resetForRetry else before.tasks.lookup key) :
    SingleFile after taskId := by
  have hOrigin {key : String} {b : TaskInstance} (hb : IsAttempt after taskId key b) :
      ∃ a, IsAttempt before taskId key a ∧ b.generationIndex = a.generationIndex ∧
        (b.status.isOpen = true → a.status.isOpen = true) ∧
        (b.status.isInputNeeded = true → a.status.isInputNeeded = true) := by
    have hFound := hb.found
    rw [hTasks] at hFound
    split at hFound
    · rename_i hKey
      cases hFound
      rw [hKey]
      exact ⟨task, hTask, rfl, fun _ => by rw [hFailed]; rfl, nofun⟩
    · exact ⟨b, ⟨hFound, hb.taskDefId⟩, rfl, fun h => h, fun h => h⟩
  have hKept {key : String} {a : TaskInstance} (ha : IsAttempt before taskId key a) :
      ∃ b, IsAttempt after taskId key b ∧ b.generationIndex = a.generationIndex := by
    by_cases hKey : key = id
    · subst hKey
      have hSame := ha.found
      rw [hTask.found] at hSame
      cases hSame
      exact ⟨task.resetForRetry, ⟨by rw [hTasks, if_pos rfl], ha.taskDefId⟩, rfl⟩
    · exact ⟨a, ⟨by rw [hTasks, if_neg hKey, ha.found], ha.taskDefId⟩, rfl⟩
  have hLatest {generation : Nat} (hOld : IsLatest before taskId generation) :
      IsLatest after taskId generation := by
    intro key b hb
    obtain ⟨a, ha, hGeneration, _⟩ := hOrigin hb
    rw [hGeneration]
    exact hOld key a ha
  constructor
  · intro key b hb hOpen
    obtain ⟨a, ha, hGeneration, hOld, _⟩ := hOrigin hb
    rw [hGeneration]
    exact hLatest (h.opened key a ha (hOld hOpen))
  · intro key b hb hWaiting
    obtain ⟨a, ha, hGeneration, _, hOld⟩ := hOrigin hb
    rw [hGeneration]
    rcases h.waiting key a ha (hOld hWaiting) with hLast | ⟨nextId, next, hNext, hSucc⟩
    · exact .inl (hLatest hLast)
    · obtain ⟨next', hNext', hSame⟩ := hKept hNext
      exact .inr ⟨nextId, next', hNext', hSame.trans hSucc⟩

/-- The attempts of a task after a continuation with the next generation. -/
structure ContinuedAttempts (before after : WorkflowInstance) (taskId : String)
    (task : TaskInstance) (submittedInput : Json) : Prop where
  added : IsAttempt after taskId (makeTaskAttemptId taskId (task.generationIndex + 1))
    (continuationTask taskId (task.generationIndex + 1) submittedInput)
  kept : ∀ key a, before.tasks.lookup key = some a → after.tasks.lookup key = some a
  origin : ∀ key b, after.tasks.lookup key = some b → before.tasks.lookup key = some b ∨
    b = continuationTask taskId (task.generationIndex + 1) submittedInput

/-- A submission closes the waiting attempt and opens its successor. -/
theorem SingleFile.of_continued {submittedInput : Json} (h : SingleFile before taskId)
    (hKeyed : Keyed before)
    (hAfter : ContinuedAttempts before after taskId task submittedInput)
    (hTask : IsAttempt before taskId id task) (hLatest : IsLatest before taskId task.generationIndex)
    (hWaiting : task.status.isInputNeeded = true) : SingleFile after taskId := by
  have hNext : IsLatest after taskId (task.generationIndex + 1) := by
    intro key b hb
    rcases hAfter.origin key b hb.found with hOld | rfl
    · have hLe := hLatest key b ⟨hOld, hb.taskDefId⟩
      omega
    · exact Nat.le_refl _
  constructor
  · intro key b hb hOpen
    rcases hAfter.origin key b hb.found with hOld | rfl
    · have hAttempt : IsAttempt before taskId key b := ⟨hOld, hb.taskDefId⟩
      have hSame := hKeyed.eq_of_latest hTask hAttempt hLatest (h.opened key b hAttempt hOpen)
      subst hSame
      rw [hTask.found] at hOld
      cases hOld
      rw [TaskStatus.isOpen_of_isInputNeeded hWaiting] at hOpen
      cases hOpen
    · exact hNext
  · intro key b hb hStill
    rcases hAfter.origin key b hb.found with hOld | rfl
    · have hAttempt : IsAttempt before taskId key b := ⟨hOld, hb.taskDefId⟩
      rcases h.waiting key b hAttempt hStill with hLast | ⟨nextId, next, hFound, hGeneration⟩
      · have hSame := hKeyed.eq_of_latest hTask hAttempt hLatest hLast
        subst hSame
        rw [hTask.found] at hOld
        cases hOld
        exact .inr ⟨_, _, hAfter.added, rfl⟩
      · exact .inr ⟨nextId, next, ⟨hAfter.kept _ _ hFound.found, hFound.taskDefId⟩, hGeneration⟩
    · cases hStill

end SingleFile

/-- A commit, as the attempts and the state of one verifier see it. -/
inductive SeenBy (definition : WorkflowDef) (before after : WorkflowInstance) (verifierId : String)
    (writer : Writer) : Prop
  | unanswered (hAttempts : Unanswered before after verifierId)
      (hState : after.verifierStates.lookup verifierId = before.verifierStates.lookup verifierId)
  | initialized (hEmpty : ∀ id, before.tasks.lookup id = none)
      (hAttempts : ∀ id task, IsAttempt after verifierId id task →
        task.generationIndex = 1 ∧ task.status = .pending ∧ task.verifierMetadata = none)
      (hState : after.verifierStates.lookup verifierId = before.verifierStates.lookup verifierId)
  | started {start : String} (hTasks : after.tasks = before.tasks)
      (hInitialized : TasksInitialized definition before)
      (hRuns : ∀ id task, IsAttempt before verifierId id task → task.status ≠ .skipped)
      (hNone : before.verifierStates.lookup verifierId = none)
      (hState : after.verifierStates.lookup verifierId =
        some (initialVerifierState verifierId start))
  | retried {id : String} {task : TaskInstance} (hWriter : writer = .retry)
      (hTask : IsAttempt before verifierId id task) (hFailed : task.status = .failed)
      (hTasks : ∀ key, after.tasks.lookup key =
        if key = id then some task.resetForRetry else before.tasks.lookup key)
      (hState : after.verifierStates.lookup verifierId = before.verifierStates.lookup verifierId)
  | continued {id : String} {task : TaskInstance} {submittedInput : Json}
      (hWriter : writer = .humanInput) (hTask : IsAttempt before verifierId id task)
      (hWaiting : task.status.isInputNeeded = true)
      (hNew : before.tasks.lookup (makeTaskAttemptId verifierId
        (continuationGeneration task.generationIndex)) = none)
      (hTasks : ∀ key, after.tasks.lookup key = if key = makeTaskAttemptId verifierId
          (continuationGeneration task.generationIndex)
        then some (continuationTask verifierId (continuationGeneration task.generationIndex)
          submittedInput)
        else before.tasks.lookup key)
      (hState : after.verifierStates.lookup verifierId = before.verifierStates.lookup verifierId)
  | answered {ext : Externals} {id : String} {task : TaskInstance} {taskDef : TaskDef}
      {loopSlices : LoopSlices}
      {inputs : ResolvedTaskInputs} {answer : Answer} {result : ResultCommit}
      (hTask : IsAttempt before verifierId id task) (hRunning : task.status = .running)
      (hFound : definition.findTask verifierId = some taskDef)
      (hSlices : loopSlices.Perm (computeLoopSlices definition))
      (hOutcome : Outcome ext before after loopSlices id task taskDef inputs answer result)
      (hStatus : before.status = .running ∨ before.status = .paused)

section SeenBy

variable {definition : WorkflowDef} {workflow reduced : WorkflowInstance} {verifierId id : String}
  {task : TaskInstance} {taskDef : TaskDef} {slice : List String}

/-- A change of listed attempts that turns each of them answers none. -/
theorem Unanswered.of_lookup (ids : List String) (change : TaskInstance → TaskInstance)
    (h : ∀ key, reduced.tasks.lookup key = if key ∈ ids
      then (workflow.tasks.lookup key).map change else workflow.tasks.lookup key)
    (hChange : ∀ key ∈ ids, ∀ a, workflow.tasks.lookup key = some a → Turns a (change a)) :
    Unanswered workflow reduced verifierId := by
  refine ⟨fun key a ha => ?_, fun key b hb => ?_⟩
  · rw [h, ha.found]
    by_cases hKey : key ∈ ids
    · exact ⟨change a, if_pos hKey, hChange key hKey a ha.found⟩
    · exact ⟨a, if_neg hKey, .refl a⟩
  · have hFound := hb.found
    rw [h] at hFound
    split at hFound
    · rename_i hKey
      obtain ⟨a, ha, rfl⟩ := Option.map_eq_some_iff.mp hFound
      exact ⟨a, ha, hChange key hKey a ha⟩
    · exact ⟨b, hFound, .refl b⟩

/-- The result of another task. -/
theorem Unanswered.of_frame {other : List String} {exit : Bool}
    (h : OutcomeFrame workflow reduced id taskDef other exit)
    (hTask : workflow.tasks.lookup id = some task) (hOther : task.taskDefId ≠ verifierId)
    (hOutside : (taskVerifier taskDef).isSome = true → verifierId ∉ other) :
    Unanswered workflow reduced verifierId := by
  refine ⟨fun key a ha => ?_, fun key b hb => ?_⟩
  · have hKey : key ≠ id := by
      rintro rfl
      rw [ha.found] at hTask
      cases hTask
      exact hOther ha.taskDefId
    obtain ⟨mark, hKept⟩ := h.kept key a hKey ha.found
    exact ⟨_, hKept, .afterExit exit mark⟩
  · have hKey : key ≠ id := by
      rintro rfl
      obtain ⟨own, hOwn, hDef, _⟩ := h.own task hTask
      rw [hb.found] at hOwn
      cases hOwn
      exact hOther (hDef.symm.trans hb.taskDefId)
    cases hOld : workflow.tasks.lookup key with
    | some a =>
        obtain ⟨mark, hKept⟩ := h.kept key a hKey hOld
        rw [hb.found] at hKept
        cases hKept
        exact ⟨a, rfl, .afterExit exit mark⟩
    | none =>
        obtain ⟨hVerifier, _, taskDefId, hMem, generation, _, rfl⟩ := h.new key b hOld hb.found
        exact absurd (hb.taskDefId ▸ hMem) (hOutside hVerifier)

/-- How a verifier sees a commit. -/
theorem WriteEffect.seenBy (hDef : WellFormedDef definition) {l : Lifecycle} {writer : Writer}
    (h : WriteEffect definition l reduced writer)
    (hSlice : (verifierId, slice) ∈ computeLoopSlices definition) :
    SeenBy definition l.stored reduced verifierId writer := by
  cases h with
  | status _ hTasks hStates => exact .unanswered (.of_same hTasks) (hStates verifierId)
  | initialTasks hEmpty hTasks _ hStates =>
      refine .initialized hEmpty (fun id task hTask => ?_) (hStates verifierId)
      obtain ⟨taskDef, _, _, rfl⟩ := hTasks id task hTask.found
      exact ⟨rfl, rfl, rfl⟩
  | initialGenerations hInitialized hSlices hAfter =>
      cases hBefore : l.stored.verifierStates.lookup verifierId with
      | some state =>
          exact .unanswered (.of_same hAfter.tasks) (by rw [hBefore, hAfter.kept _ _ hBefore])
      | none =>
          cases hState : reduced.verifierStates.lookup verifierId with
          | none => exact .unanswered (.of_same hAfter.tasks) (by rw [hBefore, hState])
          | some state =>
              obtain ⟨found, start, hFound, hStart, rfl⟩ := hAfter.started _ _ hBefore hState
              have hMem := hDef.verifier_mem (hSlices.mem_iff.mp hFound)
              refine .started hAfter.tasks hInitialized (fun id task hTask hSkipped => ?_) hBefore
                hState
              have hInterrupted : sliceInterruptedByExit l.stored found = true := by
                rw [sliceInterruptedByExit, FiniteMap.anyValue_iff]
                exact ⟨id, task, hTask.found, by simp [hTask.taskDefId, hMem, hSkipped]⟩
              unfold eligibleStart at hStart
              rw [if_pos (by rw [hInterrupted]; rfl)] at hStart
              cases hStart
  | @start started task _ hTask hPending hTasks hStates =>
      refine .unanswered (.of_lookup [started] ({ · with status := .running })
        (fun key => ?_) fun key hKey a ha => ?_) (hStates verifierId)
      · rw [hTasks]
        simp only [List.mem_singleton]
        split
        · rename_i hKey
          rw [hKey, hTask]
          rfl
        · rfl
      · rw [List.mem_singleton.mp hKey, hTask] at ha
        cases ha
        exact .moved rfl rfl rfl (.inl hPending) (.inr (.inl rfl))
  | @result ext loopSlices started answer result hSlices hTask hFound hRunning _ hOutcome hStatus =>
      have hId := (findTask_some hFound).2
      by_cases hOwn : started.task.taskDefId = verifierId
      · exact .answered ⟨hTask, hOwn⟩ hRunning (hOwn ▸ hFound) hSlices hOutcome hStatus
      · obtain ⟨exit, hFrame⟩ := hOutcome.frame hTask
        have hOther : verifierId ≠ started.taskDef.id := fun hSame => hOwn (hId.symm.trans hSame.symm)
        refine .unanswered (.of_frame hFrame hTask hOwn fun hVerifier hMem => ?_)
          (hFrame.states verifierId (.inl hOther))
        have hVerdict := hDef.verdict_slice hSlices hFound hVerifier
        have hSame := hDef.slices_disjoint _ hVerdict _ hSlice verifierId hMem
          (hDef.verifier_mem hSlice)
        exact hOther (Prod.mk.inj hSame).1.symm
  | @humanInput id submittedInput task hTask hWaiting hNew hTasks hStates =>
      by_cases hOwn : task.taskDefId = verifierId
      · rw [hOwn] at hNew hTasks
        exact .continued rfl ⟨hTask, hOwn⟩ hWaiting hNew hTasks (hStates verifierId)
      · refine .unanswered ⟨fun key a ha => ⟨a, ?_, .refl a⟩, fun key b hb => ⟨b, ?_, .refl b⟩⟩
          (hStates verifierId)
        · rw [hTasks, if_neg, ha.found]
          rintro rfl
          rw [ha.found] at hNew
          cases hNew
        · have hFound := hb.found
          rw [hTasks] at hFound
          split at hFound
          · cases hFound
            exact absurd hb.taskDefId hOwn
          · exact hFound
  | @retry id task hTask hFailed hTasks hStates =>
      by_cases hOwn : task.taskDefId = verifierId
      · exact .retried rfl ⟨hTask, hOwn⟩ hFailed hTasks (hStates verifierId)
      · have hKey {key : String} {a : TaskInstance} (ha : IsAttempt l.stored verifierId key a) :
            key ≠ id := by
          rintro rfl
          rw [ha.found] at hTask
          cases hTask
          exact hOwn ha.taskDefId
        refine .unanswered ⟨fun key a ha => ⟨a, ?_, .refl a⟩, fun key b hb => ⟨b, ?_, .refl b⟩⟩
          (hStates verifierId)
        · rw [hTasks, if_neg (hKey ha), ha.found]
        · have hFound := hb.found
          rw [hTasks] at hFound
          split at hFound
          · cases hFound
            exact absurd hb.taskDefId hOwn
          · exact hFound
  | recover hTasks hStates =>
      refine .unanswered (.of_lookup _ _ hTasks fun key _ a _ => ?_) (hStates verifierId)
      unfold TaskInstance.recovered
      split
      · rename_i hRunning
        exact .moved rfl rfl rfl (.inr hRunning) (.inl rfl)
      · exact .refl a

end SeenBy

end RelayFold
