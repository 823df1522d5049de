import RelayFold.Lifecycle.Explanations

/-! The verifier states of a calm workflow are determined by the attempts of
their verifiers. -/
namespace RelayFold

open WorkflowEngine FallibleFold

section VerdictState

variable {verifier : VerifierControlConfig} {generation : Nat} {decided : VerifierExecutionResult}
  {state : VerifierGenerationState}

theorem verdictState_names :
    (verdictState verifier generation decided state).verifierTaskId = state.verifierTaskId ∧
      (verdictState verifier generation decided state).rerunStartTaskId = state.rerunStartTaskId := by
  unfold verdictState
  split
  · exact ⟨rfl, rfl⟩
  · dsimp only
    split <;> exact ⟨rfl, rfl⟩

theorem verdictState_exitReason : (verdictState verifier generation decided state).exitReason =
    statusExitReason (verdictState verifier generation decided state).status := by
  unfold verdictState
  split
  · rfl
  · dsimp only
    split <;> rfl

theorem verdictState_latest : (verdictState verifier generation decided state).latestGeneration =
    if (verdictMetadata verifier generation decided).status = .rejected then generation + 1
    else state.latestGeneration := by
  unfold verdictState verdictMetadata
  split
  · rfl
  · dsimp only
    split <;> rfl

theorem verdictState_entries {entry : VerifierFeedbackEntry}
    (h : entry ∈ (verdictState verifier generation decided state).feedbackHistory) :
    entry ∈ state.feedbackHistory ∨ entry.generationIndex = generation ∧
      (verdictMetadata verifier generation decided).feedback = some entry.feedback ∧
      (verdictMetadata verifier generation decided).verifierOutput = some entry.verifierOutput := by
  have hGained (h : entry ∈ (withFeedback state generation (decided.feedback.getD "")
      decided.output).feedbackHistory) : entry ∈ state.feedbackHistory ∨
        entry = ⟨generation, decided.feedback.getD "", decided.output⟩ :=
    (List.mem_append.mp h).imp_right List.mem_singleton.mp
  unfold verdictState at h
  unfold verdictMetadata
  split at h
  · exact .inl h
  · dsimp only at h ⊢
    split at h
    · rename_i hBelow
      refine (hGained h).imp_right ?_
      rintro rfl
      rw [if_pos hBelow]
      exact ⟨rfl, rfl, rfl⟩
    · rename_i hLimit
      refine (hGained h).imp_right ?_
      rintro rfl
      rw [if_neg hLimit]
      exact ⟨rfl, rfl, rfl⟩

end VerdictState

section Commit

variable {answers : Answers} {definition : WorkflowDef} {input : Option Json} {l : Lifecycle}
  {writer : Writer} {ext : Externals} {events : List WorkflowInstanceEvent} {planned plan : List String}
  {reduced : WorkflowInstance} {verifierId : String} {slice : List String}
  {state : VerifierGenerationState}

theorem RecordsEntry.write {entry : VerifierFeedbackEntry}
    (h : RecordsEntry l.stored verifierId entry)
    (hWrite : Write ext definition ⟨l.stored, planned⟩ writer events plan)
    (hReduce : reduceWorkflowInstanceEvents (some l.stored) events = .ok reduced) :
    RecordsEntry reduced verifierId entry := by
  obtain ⟨judge, metadata, hJudge, hCompleted, hMetadata, hRest⟩ := h
  obtain ⟨after, hAfter, hKept⟩ := hWrite.completed_kept hReduce hJudge hCompleted
  refine ⟨after, metadata, hAfter, ?_, ?_, hRest⟩
  · rw [hKept]
    exact hCompleted
  · rw [hKept]
    exact hMetadata

theorem HasAttempt.write {taskId : String} {generation : Nat}
    (h : HasAttempt l.stored taskId generation)
    (hWrite : Write ext definition ⟨l.stored, planned⟩ writer events plan)
    (hReduce : reduceWorkflowInstanceEvents (some l.stored) events = .ok reduced) :
    HasAttempt reduced taskId generation := by
  obtain ⟨a, ha⟩ := Option.isSome_iff_exists.mp h
  obtain ⟨b, hb, _⟩ := (hWrite.attemptsAfter hReduce).kept _ a ha
  exact .of_lookup hb

/-- A state that the commit leaves alone, while the verifier gets no new
attempt. -/
theorem StateHolds.write (h : StateHolds definition l.stored verifierId state)
    (hWrite : Write ext definition ⟨l.stored, planned⟩ writer events plan)
    (hReduce : reduceWorkflowInstanceEvents (some l.stored) events = .ok reduced)
    (hKeys : ∀ generation, HasAttempt reduced verifierId generation →
      HasAttempt l.stored verifierId generation) : StateHolds definition reduced verifierId state :=
  ⟨h.verifierTaskId, h.rerunStart, h.exitReason, h.attempted.write hWrite hReduce,
    fun generation hAttempt => h.latest generation (hKeys generation hAttempt),
    fun entry hEntry => (h.entries entry hEntry).write hWrite hReduce⟩

/-- A decision that creates nothing, in terms of the attempts of one task. -/
theorem DecisionEffect.attempts_before {before after : WorkflowInstance} {id taskId : String}
    {task own : TaskInstance} {exit : Bool} {mark : String → Option TaskSatisfactionStatus}
    (h : DecisionEffect before after id own exit mark NothingNew)
    (hTask : before.tasks.lookup id = some task) (generation : Nat)
    (hAttempt : HasAttempt after taskId generation) : HasAttempt before taskId generation := by
  rw [HasAttempt, h.keys hTask] at hAttempt
  exact hAttempt

/-- The first state of a verifier. -/
theorem StateHolds.first (hDef : WellFormedDef definition) (h : CalmState definition input l)
    (hWrite : Write ext definition ⟨l.stored, planned⟩ writer events plan)
    (hReduce : reduceWorkflowInstanceEvents (some l.stored) events = .ok reduced)
    (hVerdicts : VerdictsInv definition reduced) (hUnrecorded : Unrecorded definition l.stored reduced)
    (hSlice : (verifierId, slice) ∈ computeLoopSlices definition)
    (hNone : l.stored.verifierStates.lookup verifierId = none)
    (hState : reduced.verifierStates.lookup verifierId = some state) {taskDef : TaskDef}
    {verifier : VerifierControlConfig} (hFound : definition.findTask verifierId = some taskDef)
    (hVerifier : taskVerifier taskDef = some verifier)
    (hInitial : state = initialVerifierState verifierId (verifierRerunStartTaskId verifier verifierId)) :
    StateHolds definition reduced verifierId state := by
  subst hInitial
  refine ⟨rfl, ⟨taskDef, verifier, hFound, hVerifier, rfl⟩, rfl, ?_, fun generation hAttempt => ?_,
    fun entry hEntry => (by cases hEntry)⟩
  · obtain ⟨id, task, hTask⟩ := ((hVerdicts.verifiers verifierId slice hSlice).agrees _ hState).present
    exact ((hWrite.sound hReduce h.sound).initialized
      (FiniteMap.isEmpty_eq_false_of_lookup _ hTask.found)).isSome (findTask_mem_taskIds hFound)
  · obtain ⟨b, hb⟩ := Option.isSome_iff_exists.mp hAttempt
    cases hOld : l.stored.tasks.lookup (makeTaskAttemptId verifierId generation) with
    | none =>
        obtain ⟨initial, _, hKey, _⟩ := hUnrecorded.new _ b hOld hb
        exact Nat.le_of_eq (makeTaskAttemptId_inj.mp hKey).2
    | some a =>
        by_contra hLater
        obtain ⟨judge, hJudge, hCompleted⟩ := h.completed_below hDef hSlice (hDef.verifier_mem hSlice)
          (.of_lookup hOld) (hDef.verifier_mem hSlice) (Nat.le_refl 1) (Nat.not_le.mp hLater)
        have hMem : judge.taskDefId ∈ slice := by
          rw [← (makeTaskAttemptId_inj.mp (h.sound.key _ judge hJudge)).1]
          exact hDef.verifier_mem hSlice
        rcases (h.starts.unstarted verifierId slice hSlice hNone).status hJudge hMem with
          hStatus | hStatus <;> rw [hCompleted] at hStatus <;> cases hStatus

/-- The state of a verifier after its verdict. -/
theorem StateHolds.verdict {id : String} {task completed : TaskInstance}
    {verifier : VerifierControlConfig} {decided : VerifierExecutionResult}
    (h : StateHolds definition l.stored verifierId state)
    (hWrite : Write ext definition ⟨l.stored, planned⟩ writer events plan)
    (hReduce : reduceWorkflowInstanceEvents (some l.stored) events = .ok reduced)
    (hTask : IsAttempt l.stored verifierId id task) (hKeyed : Keyed l.stored)
    (hLatest : IsLatest l.stored verifierId task.generationIndex) (hMem : verifierId ∈ slice)
    (hCompleted : completed.status = .completed)
    (hVerdict : CalmVerdict l.stored reduced slice id task.generationIndex completed
      (verdictMetadata verifier task.generationIndex decided)) :
    StateHolds definition reduced verifierId
      (verdictState verifier task.generationIndex decided state) := by
  have hId : id = makeTaskAttemptId verifierId task.generationIndex := by
    rw [← hTask.taskDefId]
    exact hKeyed id task hTask.found
  have hBelow {generation : Nat} (hAttempt : HasAttempt l.stored verifierId generation) :
      generation ≤ task.generationIndex := by
    obtain ⟨a, ha⟩ := Option.isSome_iff_exists.mp hAttempt
    obtain ⟨hDefId, hGeneration⟩ := makeTaskAttemptId_inj.mp (hKeyed _ a ha)
    rw [hGeneration]
    exact hLatest _ a ⟨ha, hDefId.symm⟩
  have hEntries {mark : Option TaskSatisfactionStatus} (hOwn : reduced.tasks.lookup id =
      some (judged (verdictMetadata verifier task.generationIndex decided) mark completed))
      (entry : VerifierFeedbackEntry)
      (hEntry : entry ∈ (verdictState verifier task.generationIndex decided state).feedbackHistory) :
      RecordsEntry reduced verifierId entry := by
    rcases verdictState_entries hEntry with hOld | ⟨hGeneration, hFeedback, hOutput⟩
    · exact (h.entries entry hOld).write hWrite hReduce
    · rw [hId, ← hGeneration] at hOwn
      exact ⟨_, _, hOwn, hCompleted, by rw [hGeneration]; rfl, hFeedback, hOutput⟩
  have hNames := @verdictState_names verifier task.generationIndex decided state
  obtain ⟨taskDef, config, hFound, hConfig, hStart⟩ := h.rerunStart
  refine ⟨hNames.1.trans h.verifierTaskId, ⟨taskDef, config, hFound, hConfig, hNames.2.trans hStart⟩,
    verdictState_exitReason, ?_, fun generation hAttempt => ?_, ?_⟩
  · rw [verdictState_latest]
    cases hVerdict with
    | accepted hStatus hEffect =>
        rw [if_neg hStatus]
        exact h.attempted.write hWrite hReduce
    | rejected hStatus hEffect =>
        rw [if_pos hStatus]
        exact (hEffect.keys_fresh hTask.found _).mpr (.inr (List.mem_map_of_mem hMem))
  · rw [verdictState_latest]
    cases hVerdict with
    | accepted hStatus hEffect =>
        rw [if_neg hStatus]
        exact h.latest generation (hEffect.attempts_before hTask.found generation hAttempt)
    | rejected hStatus hEffect =>
        rw [if_pos hStatus]
        rcases (hEffect.keys_fresh hTask.found _).mp hAttempt with hOld | hNew
        · exact Nat.le_succ_of_le (hBelow hOld)
        · obtain ⟨other, _, hName⟩ := List.mem_map.mp hNew
          exact Nat.le_of_eq (makeTaskAttemptId_inj.mp hName).2.symm
  · cases hVerdict with
    | accepted _ hEffect => exact hEntries hEffect.own
    | rejected _ hEffect => exact hEntries hEffect.own

/-- Every commit keeps the verifier states that have not failed as their
attempts tell. -/
theorem Settles.states_commit (hDef : WellFormedDef definition) (h : CalmState definition input l)
    (hSettles : Settles answers definition l.stored)
    (hWrite : Write ext definition ⟨l.stored, planned⟩ writer events plan)
    (hReduce : reduceWorkflowInstanceEvents (some l.stored) events = .ok reduced)
    (hVerdicts : VerdictsInv definition reduced)
    (hCommit : CalmCommit answers ext definition l.stored reduced)
    (hState : reduced.verifierStates.lookup verifierId = some state) (hKeeps : ¬state.IsLost) :
    StateHolds definition reduced verifierId state := by
  obtain ⟨slice, hSlice⟩ := hVerdicts.ofVerifiers verifierId state hState
  have hSame (hOld : l.stored.verifierStates.lookup verifierId = some state)
      (hKeys : ∀ generation, HasAttempt reduced verifierId generation →
        HasAttempt l.stored verifierId generation) : StateHolds definition reduced verifierId state :=
    (hSettles.states verifierId state hOld hKeeps).write hWrite hReduce hKeys
  cases hCommit with
  | unrecorded hUnrecorded =>
      rcases hUnrecorded.states verifierId state hState with hOld |
        ⟨hNone, taskDef, verifier, hFound, hVerifier, hInitial⟩
      · refine hSame hOld fun generation hAttempt => ?_
        obtain ⟨id, task, hTask⟩ := ((h.verdicts.verifiers verifierId slice hSlice).agrees _ hOld).present
        have hInitialized := h.sound.initialized (FiniteMap.isEmpty_eq_false_of_lookup _ hTask.found)
        obtain ⟨b, hb⟩ := Option.isSome_iff_exists.mp hAttempt
        cases hBefore : l.stored.tasks.lookup (makeTaskAttemptId verifierId generation) with
        | some a => exact .of_lookup hBefore
        | none =>
            obtain ⟨taskDef, hMem, hKey, _⟩ := hUnrecorded.new _ b hBefore hb
            have hSome := hInitialized taskDef hMem
            rw [← hKey, hBefore] at hSome
            cases hSome
      · exact .first hDef h hWrite hReduce hVerdicts hUnrecorded hSlice hNone hState hFound hVerifier
          hInitial
  | @answered loopSlices id task taskDef inputs answer _ hSlices hTask hFound hRunning _ _ hOutcome =>
      cases hOutcome with
      | failed hEffect _ _ _ _ hStates =>
          rcases hStates verifierId state hState with hOld | hLost
          · exact hSame hOld (hEffect.attempts_before hTask)
          · exact absurd hLost hKeeps
      | plain _ hEffect hStates _ =>
          exact hSame (hStates verifierId ▸ hState) (hEffect.attempts_before hTask)
      | @judged schema output verifier decided before hVerifier _ hVerdict hBefore hAfter hOthers _ =>
          have hOwnSlice := hDef.verdict_slice hSlices hFound (by rw [hVerifier]; rfl)
          have hId := (findTask_some hFound).2
          by_cases hOwn : verifierId = taskDef.id
          · subst hOwn
            rw [hAfter] at hState
            cases hState
            have hAttempt : IsAttempt l.stored taskDef.id id task := ⟨hTask, hId.symm⟩
            obtain ⟨_, running, _, _, hFoundState, hStatus, _, hLatest⟩ := h.undecided hDef hOwnSlice hTask
              (hId ▸ hDef.verifier_mem hOwnSlice) hRunning
            rw [hBefore] at hFoundState
            cases hFoundState
            refine (hSettles.states _ before hBefore fun hLost => ?_).verdict hWrite hReduce hAttempt
              h.sound.key hLatest (hDef.verifier_mem hOwnSlice) rfl hVerdict
            rcases hLost with hLost | hLost <;> rw [hStatus] at hLost <;> cases hLost
          · rw [hOthers verifierId hOwn] at hState
            refine hSame hState fun generation hAttempt => ?_
            cases hVerdict with
            | accepted _ hEffect => exact hEffect.attempts_before hTask generation hAttempt
            | rejected _ hEffect =>
                rcases (hEffect.keys_fresh hTask _).mp hAttempt with hOld | hNew
                · exact hOld
                · obtain ⟨other, hMem, hName⟩ := List.mem_map.mp hNew
                  obtain ⟨rfl, _⟩ := makeTaskAttemptId_inj.mp hName
                  exact absurd (Prod.mk.inj (hDef.slices_disjoint _ hSlice _ hOwnSlice other
                    (hDef.verifier_mem hSlice) hMem)).1 hOwn

end Commit

end RelayFold
