import RelayFold.Lifecycle.RootInputs
import RelayFold.Lifecycle.VerifierAnswers

/-! A verifier state tells what the latest attempt of the verifier has decided,
as long as no verifier is retried once it has given its verdict. -/
namespace RelayFold

open WorkflowEngine WorkflowService FallibleFold

/-- The state selects the attempt, which has completed with the metadata of
that status. -/
structure Selects (state : VerifierGenerationState) (task : TaskInstance)
    (status : VerifierAttemptStatus) : Prop where
  completed : task.status = .completed
  metadata : task.verifierMetadata.map (·.status) = some status
  selected : state.selectedGeneration = some task.generationIndex

/-- What the state of a verifier is, by its latest attempt. -/
structure Reflects (state : VerifierGenerationState) (task : TaskInstance) : Prop where
  accepted : state.status = .accepted ↔ Selects state task .accepted
  exhaustedAccepted : state.status = .exhaustedAccepted ↔ Selects state task .exhaustedAccepted
  idle : task.status ≠ .completed → task.status ≠ .failed → state.status = .running
  failed : task.status = .failed → task.verifierMetadata.bind (·.decision) = some .continue →
    state.status ≠ .running

/-- The state of a verifier agrees with the attempts. -/
structure HistoryAgrees (workflow : WorkflowInstance) (verifierId : String)
    (state : VerifierGenerationState) : Prop where
  present : ∃ id task, IsAttempt workflow verifierId id task
  latest : ∀ id task, IsAttempt workflow verifierId id task →
    IsLatest workflow verifierId task.generationIndex → Reflects state task
  increasing : (state.feedbackHistory.map (·.generationIndex)).Pairwise (· < ·)
  continued : ∀ generation, generation ∈ state.feedbackHistory.map (·.generationIndex) ↔
    ∃ id task, IsAttempt workflow verifierId id task ∧ task.generationIndex = generation ∧
      task.verifierMetadata.bind (·.decision) = some .continue

/-- What every commit keeps of a verifier. -/
structure VerifierInv (workflow : WorkflowInstance) (verifierId : String) : Prop where
  undecided : ∀ id task, IsAttempt workflow verifierId id task →
    task.status = .pending ∨ task.status = .running → task.verifierMetadata = none
  singleFile : SingleFile workflow verifierId
  agrees : ∀ state, workflow.verifierStates.lookup verifierId = some state →
    HistoryAgrees workflow verifierId state

section Reflects

variable {state after : VerifierGenerationState} {a b : TaskInstance}

/-- A state that runs reflects every attempt that has not completed, nor failed
with a decision. -/
theorem Reflects.of_running (hStatus : state.status = .running) (hCompleted : b.status ≠ .completed)
    (hFailed : b.status = .failed → b.verifierMetadata.bind (·.decision) ≠ some .continue) :
    Reflects state b := by
  refine ⟨?_, ?_, fun _ _ => hStatus, fun h hDecision => absurd hDecision (hFailed h)⟩
  · rw [hStatus]
    exact ⟨nofun, fun h => absurd h.completed hCompleted⟩
  · rw [hStatus]
    exact ⟨nofun, fun h => absurd h.completed hCompleted⟩

theorem Reflects.of_turns (h : Reflects state a) (hTurns : Turns a b) : Reflects state b := by
  cases hTurns with
  | same _ hGeneration hStatus hMetadata =>
      have hSelects (status : VerifierAttemptStatus) :
          Selects state b status ↔ Selects state a status := by
        constructor
        · intro hb
          exact ⟨hStatus ▸ hb.completed, hMetadata ▸ hb.metadata, hGeneration ▸ hb.selected⟩
        · intro ha
          exact ⟨hStatus ▸ ha.completed, hMetadata ▸ ha.metadata, hGeneration ▸ ha.selected⟩
      refine ⟨h.accepted.trans (hSelects _).symm, h.exhaustedAccepted.trans (hSelects _).symm, ?_, ?_⟩
      · rw [hStatus]
        exact h.idle
      · rw [hStatus, hMetadata]
        exact h.failed
  | moved _ _ _ hOld hNew =>
      refine .of_running ?_ ?_ ?_
      · apply h.idle
        · rcases hOld with hOld | hOld <;> rw [hOld] <;> nofun
        · rcases hOld with hOld | hOld <;> rw [hOld] <;> nofun
      · rcases hNew with hNew | hNew | hNew <;> rw [hNew] <;> nofun
      · rcases hNew with hNew | hNew | hNew <;> rw [hNew] <;> nofun

end Reflects

section Step

variable {definition : WorkflowDef} {before after : WorkflowInstance} {verifierId id : String}
  {task own : TaskInstance} {state state' : VerifierGenerationState} {writer : Writer}

theorem Turns.metadata {a b : TaskInstance} (h : Turns a b) :
    b.verifierMetadata = a.verifierMetadata := by
  cases h with
  | same _ _ _ hMetadata => exact hMetadata
  | moved _ _ hMetadata _ _ => exact hMetadata

theorem HistoryAgrees.of_unanswered (h : HistoryAgrees before verifierId state)
    (hAfter : Unanswered before after verifierId) : HistoryAgrees after verifierId state := by
  refine ⟨?_, fun id b hb hLatest => ?_, h.increasing, fun generation => ?_⟩
  · obtain ⟨id, a, ha⟩ := h.present
    obtain ⟨b, hb, _⟩ := hAfter.attempt_kept ha
    exact ⟨id, b, hb⟩
  · obtain ⟨a, ha, hTurns⟩ := hAfter.attempt hb
    rw [hAfter.isLatest, hTurns.names.2] at hLatest
    exact (h.latest id a ha hLatest).of_turns hTurns
  · rw [h.continued]
    constructor
    · rintro ⟨id, a, ha, hGeneration, hDecision⟩
      obtain ⟨b, hb, hTurns⟩ := hAfter.attempt_kept ha
      exact ⟨id, b, hb, hTurns.names.2.trans hGeneration, by rw [hTurns.metadata, hDecision]⟩
    · rintro ⟨id, b, hb, hGeneration, hDecision⟩
      obtain ⟨a, ha, hTurns⟩ := hAfter.attempt hb
      exact ⟨id, a, ha, hTurns.names.2.symm.trans hGeneration, by rw [← hTurns.metadata, hDecision]⟩

theorem VerifierInv.of_unanswered (h : VerifierInv before verifierId)
    (hAfter : Unanswered before after verifierId)
    (hState : after.verifierStates.lookup verifierId = before.verifierStates.lookup verifierId) :
    VerifierInv after verifierId := by
  refine ⟨fun id b hb hOpen => ?_, h.singleFile.of_unanswered hAfter, fun state hFound => ?_⟩
  · obtain ⟨a, ha, hTurns⟩ := hAfter.attempt hb
    rw [hTurns.metadata]
    apply h.undecided id a ha
    cases hTurns with
    | same _ _ hStatus _ => rwa [hStatus] at hOpen
    | moved _ _ _ hOld _ => exact hOld
  · rw [hState] at hFound
    exact (h.agrees state hFound).of_unanswered hAfter

/-- A retry of an attempt whose verifier has not decided. -/
theorem VerifierInv.of_retried (h : VerifierInv before verifierId)
    (hTask : IsAttempt before verifierId id task) (hFailed : task.status = .failed)
    (hTasks : ∀ key, after.tasks.lookup key =
      if key = id then some task.resetForRetry else before.tasks.lookup key)
    (hState : after.verifierStates.lookup verifierId = before.verifierStates.lookup verifierId)
    (hRunning : ∀ state, before.verifierStates.lookup verifierId = some state →
      state.status = .running) : VerifierInv after verifierId := by
  have hLatest := h.singleFile.opened id task hTask (by rw [hFailed]; rfl)
  have hSelf : IsAttempt after verifierId id task.resetForRetry :=
    ⟨by rw [hTasks, if_pos rfl], hTask.taskDefId⟩
  have hOther {key : String} (hKey : key ≠ id) {a : TaskInstance} :
      IsAttempt after verifierId key a ↔ IsAttempt before verifierId key a := by
    constructor
    · intro ha
      have hFound := ha.found
      rw [hTasks, if_neg hKey] at hFound
      exact ⟨hFound, ha.taskDefId⟩
    · intro ha
      exact ⟨by rw [hTasks, if_neg hKey, ha.found], ha.taskDefId⟩
  have hReset {b : TaskInstance} (hb : IsAttempt after verifierId id b) : b = task.resetForRetry := by
    have hFound := hb.found
    rw [hSelf.found] at hFound
    exact (Option.some.inj hFound).symm
  have hLatestIff {generation : Nat} (hGiven : IsLatest after verifierId generation) :
      IsLatest before verifierId generation := by
    intro key a ha
    by_cases hKey : key = id
    · subst hKey
      have hSame := ha.found
      rw [hTask.found] at hSame
      cases hSame
      show task.resetForRetry.generationIndex ≤ generation
      exact hGiven key _ hSelf
    · exact hGiven key a ((hOther hKey).mpr ha)
  refine ⟨fun key b hb hOpen => ?_, h.singleFile.of_retried hTask hFailed hTasks,
    fun state hFound => ?_⟩
  · by_cases hKey : key = id
    · subst hKey
      rw [hReset hb]
      rfl
    · exact h.undecided key b ((hOther hKey).mp hb) hOpen
  · rw [hState] at hFound
    have hRuns := hRunning state hFound
    have hOld := h.agrees state hFound
    have hUndecided : task.verifierMetadata.bind (·.decision) ≠ some .continue := fun hDecision =>
      (hOld.latest id task hTask hLatest).failed hFailed hDecision hRuns
    refine ⟨⟨id, _, hSelf⟩, fun key b hb hLast => ?_, hOld.increasing, fun generation => ?_⟩
    · by_cases hKey : key = id
      · subst hKey
        rw [hReset hb]
        exact .of_running hRuns nofun nofun
      · exact hOld.latest key b ((hOther hKey).mp hb) (hLatestIff hLast)
    · rw [hOld.continued]
      constructor
      · rintro ⟨key, a, ha, hGeneration, hDecision⟩
        have hKey : key ≠ id := by
          rintro rfl
          have hSame := ha.found
          rw [hTask.found] at hSame
          cases hSame
          exact hUndecided hDecision
        exact ⟨key, a, (hOther hKey).mpr ha, hGeneration, hDecision⟩
      · rintro ⟨key, b, hb, hGeneration, hDecision⟩
        have hKey : key ≠ id := by
          rintro rfl
          rw [hReset hb] at hDecision
          cases hDecision
        exact ⟨key, b, (hOther hKey).mp hb, hGeneration, hDecision⟩

/-! ### Answers -/

/-- The attempts that have decided to go on, after an answer. -/
theorem AnsweredAttempts.continued_iff {rerun : Prop}
    (h : AnsweredAttempts before after verifierId id task own rerun)
    (hTask : IsAttempt before verifierId id task) (hUndecided : task.verifierMetadata = none)
    (generation : Nat) :
    (∃ key b, IsAttempt after verifierId key b ∧ b.generationIndex = generation ∧
      b.verifierMetadata.bind (·.decision) = some .continue) ↔
    (∃ key a, IsAttempt before verifierId key a ∧ a.generationIndex = generation ∧
      a.verifierMetadata.bind (·.decision) = some .continue) ∨
    task.generationIndex = generation ∧ own.verifierMetadata.bind (·.decision) = some .continue := by
  constructor
  · rintro ⟨key, b, hb, hGeneration, hDecision⟩
    by_cases hKey : key = id
    · subst hKey
      have hSame := h.attempt.found
      rw [hb.found] at hSame
      cases hSame
      exact .inr ⟨h.generation.symm.trans hGeneration, hDecision⟩
    · rcases h.origin key b hKey hb with ⟨a, ha, hTurns⟩ | ⟨_, rfl⟩
      · refine .inl ⟨key, a, ⟨ha, hTurns.names.1.symm.trans hb.taskDefId⟩, ?_, ?_⟩
        · exact hTurns.names.2.symm.trans hGeneration
        · rw [← hTurns.metadata, hDecision]
      · cases hDecision
  · rintro (⟨key, a, ha, hGeneration, hDecision⟩ | ⟨hGeneration, hDecision⟩)
    · have hKey : key ≠ id := by
        rintro rfl
        have hSame := ha.found
        rw [hTask.found] at hSame
        cases hSame
        rw [hUndecided] at hDecision
        cases hDecision
      obtain ⟨b, hb, hTurns⟩ := h.kept key a hKey ha
      refine ⟨key, b, ⟨hb, hTurns.names.1.trans ha.taskDefId⟩, ?_, ?_⟩
      · exact hTurns.names.2.trans hGeneration
      · rw [hTurns.metadata, hDecision]
    · exact ⟨id, own, h.attempt, h.generation.trans hGeneration, hDecision⟩

/-- The latest attempt after an answer: the answered one, or the next
generation. -/
theorem AnsweredAttempts.latest {rerun : Prop}
    (h : AnsweredAttempts before after verifierId id task own rerun) (hKeyed : Keyed before)
    (hTask : IsAttempt before verifierId id task)
    (hLatest : IsLatest before verifierId task.generationIndex) {key : String} {b : TaskInstance}
    (hb : IsAttempt after verifierId key b) (hLast : IsLatest after verifierId b.generationIndex) :
    ¬rerun ∧ b = own ∨ rerun ∧ b = .fresh verifierId (task.generationIndex + 1) := by
  have hAtLeast := hLast id own h.attempt
  rw [h.generation] at hAtLeast
  by_cases hRerun : rerun
  · right
    refine ⟨hRerun, ?_⟩
    have hNext : task.generationIndex + 1 ≤ b.generationIndex := by
      rcases h.added hRerun with ⟨a, ha⟩ | hFresh
      · have hLe := hLatest _ a ha
        have hName := hKeyed _ a ha.found
        have hSame := (makeTaskAttemptId_inj.mp hName).2
        omega
      · exact hLast _ _ hFresh
    by_cases hKey : key = id
    · subst hKey
      have hSame := h.attempt.found
      rw [hb.found] at hSame
      cases hSame
      rw [h.generation] at hNext
      omega
    · rcases h.origin key b hKey hb with ⟨a, ha, hTurns⟩ | ⟨_, hFresh⟩
      · have hLe := hLatest key a ⟨ha, hTurns.names.1.symm.trans hb.taskDefId⟩
        rw [← hTurns.names.2] at hLe
        omega
      · exact hFresh
  · left
    refine ⟨hRerun, ?_⟩
    by_cases hKey : key = id
    · subst hKey
      have hSame := h.attempt.found
      rw [hb.found] at hSame
      exact Option.some.inj hSame
    · rcases h.origin key b hKey hb with ⟨a, ha, hTurns⟩ | ⟨hYes, _⟩
      · have hAttempt : IsAttempt before verifierId key a :=
          ⟨ha, hTurns.names.1.symm.trans hb.taskDefId⟩
        have hLe := hLatest key a hAttempt
        rw [← hTurns.names.2] at hLe
        refine absurd (hKeyed.eq_of_generation hTask hAttempt ?_) hKey
        rw [← hTurns.names.2]
        omega
      · exact absurd hYes hRerun

/-- One more generation of feedback. -/
theorem HistoryAgrees.history (h : HistoryAgrees before verifierId state) (hKeyed : Keyed before)
    (hTask : IsAttempt before verifierId id task)
    (hLatest : IsLatest before verifierId task.generationIndex)
    (hUndecided : task.verifierMetadata = none) {rerun : Prop}
    (hAfter : AnsweredAttempts before after verifierId id task own rerun)
    (hHistory : state'.feedbackHistory = state.feedbackHistory ∧
        own.verifierMetadata.bind (·.decision) ≠ some .continue ∨
      GainsFeedback state state' task.generationIndex ∧
        own.verifierMetadata.bind (·.decision) = some .continue) :
    (state'.feedbackHistory.map (·.generationIndex)).Pairwise (· < ·) ∧
      ∀ generation, generation ∈ state'.feedbackHistory.map (·.generationIndex) ↔
        ∃ id task, IsAttempt after verifierId id task ∧ task.generationIndex = generation ∧
          task.verifierMetadata.bind (·.decision) = some .continue := by
  rcases hHistory with ⟨hSame, hNot⟩ | ⟨⟨entry, hEntry, hGain⟩, hDecision⟩
  · rw [hSame]
    refine ⟨h.increasing, fun generation => ?_⟩
    rw [hAfter.continued_iff hTask hUndecided, h.continued]
    exact (or_iff_left fun hOwn => hNot hOwn.2).symm
  · rw [hGain, List.map_append, List.map_singleton, hEntry]
    refine ⟨List.pairwise_append.mpr ⟨h.increasing, List.pairwise_singleton _ _, ?_⟩,
      fun generation => ?_⟩
    · intro earlier hEarlier last hLast
      rw [List.mem_singleton.mp hLast]
      obtain ⟨key, a, ha, rfl, hDecided⟩ := (h.continued earlier).mp hEarlier
      have hLe := hLatest key a ha
      have hNe : a.generationIndex ≠ task.generationIndex := by
        intro hSame
        have hKey := hKeyed.eq_of_generation hTask ha hSame
        subst hKey
        have hFound := ha.found
        rw [hTask.found] at hFound
        cases hFound
        rw [hUndecided] at hDecided
        cases hDecided
      omega
    · rw [hAfter.continued_iff hTask hUndecided, List.mem_append, h.continued, List.mem_singleton]
      refine or_congr_right ⟨fun hGeneration => ⟨hGeneration.symm, hDecision⟩, fun hOwn => hOwn.1.symm⟩

theorem AnsweredAttempts.undecided {rerun : Prop} (h : VerifierInv before verifierId)
    (hAfter : AnsweredAttempts before after verifierId id task own rerun)
    (hOwn : ¬(own.status = .pending ∨ own.status = .running)) (key : String) (b : TaskInstance)
    (hb : IsAttempt after verifierId key b) (hOpen : b.status = .pending ∨ b.status = .running) :
    b.verifierMetadata = none := by
  by_cases hKey : key = id
  · subst hKey
    have hSame := hAfter.attempt.found
    rw [hb.found] at hSame
    cases hSame
    exact absurd hOpen hOwn
  · rcases hAfter.origin key b hKey hb with ⟨a, ha, hTurns⟩ | ⟨_, rfl⟩
    · rw [hTurns.metadata]
      apply h.undecided key a ⟨ha, hTurns.names.1.symm.trans hb.taskDefId⟩
      cases hTurns with
      | same _ _ hStatus _ => rwa [hStatus] at hOpen
      | moved _ _ _ hOld _ => exact hOld
    · rfl

/-- The decided state reflects what comes after the answer. -/
theorem Decided.reflects {verifier : VerifierControlConfig} {rerun : Prop} {b : TaskInstance}
    (h : Decided verifier task own state state' rerun)
    (hGeneration : own.generationIndex = task.generationIndex)
    (hRunning : state.status = .running)
    (hLatest : ¬rerun ∧ b = own ∨ rerun ∧ b = .fresh verifierId (task.generationIndex + 1)) :
    Reflects state' b := by
  have hNotSelected (status : VerifierAttemptStatus) {metadata : VerifierAttemptMetadata}
      (hMetadata : own.verifierMetadata = some metadata) (hOther : metadata.status ≠ status) :
      ¬Selects state' own status := by
    intro hSelects
    have hRecorded := hSelects.metadata
    rw [hMetadata] at hRecorded
    exact hOther (Option.some.inj hRecorded)
  cases h with
  | complete hOwn hMetadata hRecorded _ hStatus hSelected _ =>
      obtain ⟨_, rfl⟩ | ⟨hNot, _⟩ := hLatest
      · have hNot := hNotSelected .exhaustedAccepted hMetadata (by rw [hRecorded]; nofun)
        refine ⟨iff_of_true hStatus ⟨hOwn, by rw [hMetadata, Option.map_some, hRecorded], ?_⟩,
          iff_of_false (by rw [hStatus]; nofun) hNot, fun h => absurd hOwn h, ?_⟩
        · rw [hSelected, hGeneration]
        · intro hFailed
          rw [hOwn] at hFailed
          cases hFailed
      · exact absurd hNot not_false
  | interrupted hOwn hMetadata hRecorded _ hStatus _ =>
      obtain ⟨_, rfl⟩ | ⟨hNot, _⟩ := hLatest
      · rw [hRunning] at hStatus
        have hNot := hNotSelected .accepted hMetadata (by rw [hRecorded]; nofun)
        have hNot' := hNotSelected .exhaustedAccepted hMetadata (by rw [hRecorded]; nofun)
        refine ⟨iff_of_false (by rw [hStatus]; nofun) hNot,
          iff_of_false (by rw [hStatus]; nofun) hNot', fun h => absurd hOwn h, fun hFailed => ?_⟩
        rw [hOwn] at hFailed
        cases hFailed
      · exact absurd hNot not_false
  | exhausted hOwn hMetadata hRecorded _ hStatus hSelected _ =>
      obtain ⟨_, rfl⟩ | ⟨hNot, _⟩ := hLatest
      · have hNot := hNotSelected .accepted hMetadata (by rw [hRecorded]; nofun)
        refine ⟨iff_of_false (by rw [hStatus]; nofun) hNot,
          iff_of_true hStatus ⟨hOwn, by rw [hMetadata, Option.map_some, hRecorded], ?_⟩,
          fun h => absurd hOwn h, fun hFailed => ?_⟩
        · rw [hSelected, hGeneration]
        · rw [hOwn] at hFailed
          cases hFailed
      · exact absurd hNot not_false
  | failed hOwn _ _ hStatus _ =>
      obtain ⟨_, rfl⟩ | ⟨hNot, _⟩ := hLatest
      · have hNot (status : VerifierAttemptStatus) : ¬Selects state' b status := by
          intro hSelects
          have hCompleted := hSelects.completed
          rw [hOwn] at hCompleted
          cases hCompleted
        refine ⟨iff_of_false ?_ (hNot _), iff_of_false ?_ (hNot _), fun _ h => absurd hOwn h, ?_⟩
        · rcases hStatus with hStatus | hStatus <;> rw [hStatus] <;> nofun
        · rcases hStatus with hStatus | hStatus <;> rw [hStatus] <;> nofun
        · intro _ _
          rcases hStatus with hStatus | hStatus <;> rw [hStatus] <;> nofun
      · exact absurd hNot not_false
  | rerun _ _ _ _ _ hStatus _ =>
      obtain ⟨hNot, _⟩ | ⟨_, rfl⟩ := hLatest
      · exact absurd trivial hNot
      · exact .of_running hStatus nofun nofun

/-- What a decision does to the history. -/
theorem Decided.history {verifier : VerifierControlConfig} {rerun : Prop}
    (h : Decided verifier task own state state' rerun) :
    state'.feedbackHistory = state.feedbackHistory ∧
        own.verifierMetadata.bind (·.decision) ≠ some .continue ∨
      GainsFeedback state state' task.generationIndex ∧
        own.verifierMetadata.bind (·.decision) = some .continue := by
  cases h with
  | complete _ hMetadata _ hDecision _ _ hHistory =>
      refine .inl ⟨hHistory, ?_⟩
      rw [hMetadata, Option.bind_some, hDecision]
      nofun
  | interrupted _ hMetadata _ hDecision _ hHistory | rerun _ hMetadata _ hDecision _ _ hHistory
  | exhausted _ hMetadata _ hDecision _ _ hHistory | failed _ hMetadata hDecision _ hHistory =>
      refine .inr ⟨hHistory, ?_⟩
      rw [hMetadata, Option.bind_some, hDecision]

/-- An answer of the verifier itself. -/
theorem VerifierInv.of_answer (h : VerifierInv before verifierId) (hKeyed : Keyed before)
    (hAnswer : VerifierAnswer definition before after verifierId id task)
    (hTask : IsAttempt before verifierId id task) (hRunning : task.status = .running) :
    VerifierInv after verifierId := by
  have hLatest := h.singleFile.opened id task hTask (by rw [hRunning]; rfl)
  have hUndecided := h.undecided id task hTask (.inr hRunning)
  have hState {state : VerifierGenerationState}
      (hFound : before.verifierStates.lookup verifierId = some state) : state.status = .running :=
    ((h.agrees state hFound).latest id task hTask hLatest).idle (by rw [hRunning]; nofun)
      (by rw [hRunning]; nofun)
  cases hAnswer with
  | @stopped own hAttempts hStatus hMetadata hSame =>
      have hOwnUndecided : own.verifierMetadata.bind (·.decision) ≠ some .continue := by
        rcases hMetadata with hMetadata | hMetadata
        · rw [hMetadata, hUndecided]
          nofun
        · rw [hMetadata]
          nofun
      have hNotOpen : ¬(own.status = .pending ∨ own.status = .running) := by
        rintro (hOpen | hOpen) <;> rw [hOpen] at hStatus <;> simp [TaskStatus.isInputNeeded] at hStatus
      have hNotCompleted : own.status ≠ .completed := by
        intro hCompleted
        rw [hCompleted] at hStatus
        simp [TaskStatus.isInputNeeded] at hStatus
      refine ⟨hAttempts.undecided h hNotOpen, h.singleFile.of_answered hKeyed hAttempts hTask hRunning
        fun _ => not_false, fun state hFound => ?_⟩
      rw [hSame] at hFound
      have hOld := h.agrees state hFound
      obtain ⟨hIncreasing, hContinued⟩ := hOld.history hKeyed hTask hLatest hUndecided hAttempts
        (.inl ⟨rfl, hOwnUndecided⟩)
      refine ⟨⟨id, own, hAttempts.attempt⟩, fun key b hb hLast => ?_, hIncreasing, hContinued⟩
      rcases hAttempts.latest hKeyed hTask hLatest hb hLast with ⟨_, rfl⟩ | ⟨hNo, _⟩
      · exact .of_running (hState hFound) hNotCompleted fun _ => hOwnUndecided
      · exact hNo.elim
  | @decided own taskDef verifier state state' rerun hAttempts _ _ hBefore hAfter hDecided =>
      have hNotOpen : ¬(own.status = .pending ∨ own.status = .running) := by
        rcases hDecided.own_status with hOwn | ⟨_, hOwn⟩ <;> rw [hOwn] <;> simp
      refine ⟨hAttempts.undecided h hNotOpen, h.singleFile.of_answered hKeyed hAttempts hTask hRunning
        fun hOpen => ?_, fun found hFound => ?_⟩
      · rcases hDecided.own_status with hOwn | ⟨hNo, _⟩
        · rw [hOwn] at hOpen
          simp [TaskStatus.isOpen, TaskStatus.isInputNeeded] at hOpen
        · exact hNo
      · rw [hAfter] at hFound
        cases hFound
        have hOld := h.agrees state hBefore
        obtain ⟨hIncreasing, hContinued⟩ := hOld.history hKeyed hTask hLatest hUndecided hAttempts
          hDecided.history
        refine ⟨⟨id, own, hAttempts.attempt⟩, fun key b hb hLast => ?_, hIncreasing, hContinued⟩
        exact hDecided.reflects hAttempts.generation (hState hBefore)
          (hAttempts.latest hKeyed hTask hLatest hb hLast)

/-! ### Other commits -/

theorem VerifierInv.of_continued {submittedInput : Json} (h : VerifierInv before verifierId)
    (hKeyed : Keyed before)
    (hAfter : ContinuedAttempts before after verifierId task submittedInput)
    (hState : after.verifierStates.lookup verifierId = before.verifierStates.lookup verifierId)
    (hTask : IsAttempt before verifierId id task)
    (hLatest : IsLatest before verifierId task.generationIndex)
    (hWaiting : task.status.isInputNeeded = true) : VerifierInv after verifierId := by
  refine ⟨fun key b hb hOpen => ?_,
    h.singleFile.of_continued hKeyed hAfter hTask hLatest hWaiting, fun state hFound => ?_⟩
  · rcases hAfter.origin key b hb.found with hOld | rfl
    · exact h.undecided key b ⟨hOld, hb.taskDefId⟩ hOpen
    · rfl
  · rw [hState] at hFound
    have hOld := h.agrees state hFound
    have hRunning : state.status = .running := by
      apply (hOld.latest id task hTask hLatest).idle
      · intro hStatus
        rw [hStatus] at hWaiting
        cases hWaiting
      · intro hStatus
        rw [hStatus] at hWaiting
        cases hWaiting
    refine ⟨⟨_, _, hAfter.added⟩, fun key b hb hLast => ?_, hOld.increasing, fun generation => ?_⟩
    · have hNext := hLast _ _ hAfter.added
      rcases hAfter.origin key b hb.found with hOldTask | rfl
      · have hLe := hLatest key b ⟨hOldTask, hb.taskDefId⟩
        simp only [continuationTask, TaskInstance.fresh] at hNext
        omega
      · exact .of_running hRunning (fun h => by cases h) (fun h => by cases h)
    · rw [hOld.continued]
      constructor
      · rintro ⟨key, a, ha, hGeneration, hDecision⟩
        exact ⟨key, a, ⟨hAfter.kept key a ha.found, ha.taskDefId⟩, hGeneration, hDecision⟩
      · rintro ⟨key, b, hb, hGeneration, hDecision⟩
        rcases hAfter.origin key b hb.found with hOldTask | rfl
        · exact ⟨key, b, ⟨hOldTask, hb.taskDefId⟩, hGeneration, hDecision⟩
        · cases hDecision

/-- A verifier that starts has decided nothing. -/
theorem VerifierInv.of_started {start : String} (h : VerifierInv before verifierId)
    (hTasks : after.tasks = before.tasks)
    (hState : after.verifierStates.lookup verifierId = some (initialVerifierState verifierId start))
    (hPresent : ∃ id task, IsAttempt before verifierId id task)
    (hPending : ∀ id task, IsAttempt before verifierId id task → task.status = .pending) :
    VerifierInv after verifierId := by
  have hAttempt {key : String} {b : TaskInstance} :
      IsAttempt after verifierId key b ↔ IsAttempt before verifierId key b := by
    constructor
    · exact fun hb => ⟨hTasks ▸ hb.found, hb.taskDefId⟩
    · exact fun hb => ⟨hTasks ▸ hb.found, hb.taskDefId⟩
  refine ⟨fun key b hb hOpen => h.undecided key b (hAttempt.mp hb) hOpen,
    h.singleFile.of_unanswered (.of_same hTasks), fun state hFound => ?_⟩
  rw [hState] at hFound
  cases hFound
  obtain ⟨id, task, hTask⟩ := hPresent
  refine ⟨⟨id, task, hAttempt.mpr hTask⟩, fun key b hb _ => ?_, List.Pairwise.nil, fun generation => ?_⟩
  · have hStatus := hPending key b (hAttempt.mp hb)
    exact .of_running rfl (by rw [hStatus]; nofun) (by rw [hStatus]; nofun)
  · refine iff_of_false List.not_mem_nil ?_
    rintro ⟨key, b, hb, _, hDecision⟩
    rw [h.undecided key b (hAttempt.mp hb) (.inl (hPending key b (hAttempt.mp hb)))] at hDecision
    cases hDecision

theorem VerifierInv.of_initialized (h : VerifierInv before verifierId)
    (hEmpty : ∀ id, before.tasks.lookup id = none)
    (hAttempts : ∀ id task, IsAttempt after verifierId id task →
      task.generationIndex = 1 ∧ task.status = .pending ∧ task.verifierMetadata = none)
    (hState : after.verifierStates.lookup verifierId = before.verifierStates.lookup verifierId) :
    VerifierInv after verifierId := by
  refine ⟨fun id task hTask _ => (hAttempts id task hTask).2.2, ⟨fun id task hTask _ => ?_,
    fun id task hTask hWaiting => ?_⟩, fun state hFound => ?_⟩
  · intro key b hb
    rw [(hAttempts id task hTask).1, (hAttempts key b hb).1]
  · rw [(hAttempts id task hTask).2.1] at hWaiting
    cases hWaiting
  · rw [hState] at hFound
    obtain ⟨id, task, hTask⟩ := (h.agrees state hFound).present
    have hFound := hTask.found
    rw [hEmpty] at hFound
    cases hFound

/-- What a commit must meet for the state of the verifier to follow: an attempt
that is retried has not been decided, and one that is continued has a next
generation. -/
structure KeepsTurns (before after : WorkflowInstance) (verifierId : String) (writer : Writer) :
    Prop where
  retried : writer = .retry → ∀ id task, IsAttempt before verifierId id task →
    task.status = .failed → ∀ state, before.verifierStates.lookup verifierId = some state →
    state.status = .running
  continued : writer = .humanInput → ∀ id task, IsAttempt before verifierId id task →
    task.status.isInputNeeded = true → before.tasks.lookup (makeTaskAttemptId verifierId
      (continuationGeneration task.generationIndex)) = none →
    (after.tasks.lookup (makeTaskAttemptId verifierId
      (continuationGeneration task.generationIndex))).isSome = true →
    continuationGeneration task.generationIndex = task.generationIndex + 1

theorem VerifierInv.step (hDef : WellFormedDef definition) {slice : List String}
    (hSlice : (verifierId, slice) ∈ computeLoopSlices definition)
    (h : VerifierInv before verifierId) (hKeyed : Keyed before)
    (hSeen : SeenBy definition before after verifierId writer)
    (hUnstarted : before.verifierStates.lookup verifierId = none →
      ∀ id task, IsAttempt before verifierId id task →
        task.status = .pending ∨ task.status = .skipped)
    (hMeets : KeepsTurns before after verifierId writer) : VerifierInv after verifierId := by
  cases hSeen with
  | unanswered hAttempts hState => exact h.of_unanswered hAttempts hState
  | initialized hEmpty hAttempts hState => exact h.of_initialized hEmpty hAttempts hState
  | started hTasks hInitialized hRuns hNone hState =>
      refine h.of_started hTasks hState ?_ fun id task hTask => ?_
      · obtain ⟨verifierTask, _, hFound, _⟩ := hDef.slice_verifier hSlice
        obtain ⟨task, hTask⟩ := Option.isSome_iff_exists.mp
          (hInitialized.isSome (findTask_mem_taskIds hFound))
        exact ⟨_, task, hTask, (makeTaskAttemptId_inj.mp (hKeyed _ task hTask)).1.symm⟩
      · rcases hUnstarted hNone id task hTask with hPending | hSkipped
        · exact hPending
        · exact absurd hSkipped (hRuns id task hTask)
  | retried hWriter hTask hFailed hTasks hState =>
      exact h.of_retried hTask hFailed hTasks hState (hMeets.retried hWriter _ _ hTask hFailed)
  | @continued id task submittedInput hWriter hTask hWaiting hNew hTasks hState =>
      have hNext := hMeets.continued hWriter _ _ hTask hWaiting hNew
        (by rw [hTasks, if_pos rfl]; rfl)
      have hLatest := h.singleFile.latest_of_new hKeyed hTask hWaiting (hNext ▸ hNew)
      exact h.of_continued hKeyed (.of_lookup hNext hNew hTasks) hState hTask hLatest hWaiting
  | answered hTask hRunning hFound hSlices hOutcome =>
      exact h.of_answer hKeyed (hOutcome.verifierAnswer hDef hSlice hSlices hTask hFound hKeyed)
        hTask hRunning

end Step

/-- An accepted retry finds the verifier state of its attempt running, and
an accepted continuation of a verifier attempt leaves its generation a
successor. -/
def KeepsVerdicts (env : EngineEnv) (definition : WorkflowDef) (s : System) : Action → Prop
  | .request (.retryTask taskId) seen | .request (.forceRetryTask taskId _) seen =>
      s.snapshots[seen]? = some s.stored → ∀ id task state,
        loadRetryableTask s.stored taskId = .ok id → s.stored.tasks.lookup id = some task →
        s.stored.verifierStates.lookup task.taskDefId = some state → state.status = .running
  | .request (.submitHumanInput taskId _) seen =>
      s.snapshots[seen]? = some s.stored → ∀ id next task,
        loadWaitingTask env.definitions s.stored taskId = .ok (id, next) →
        s.stored.tasks.lookup id = some task →
        ((computeLoopSlices definition).lookup task.taskDefId).isSome = true →
        task.generationIndex + 1 < 2 ^ 32
  | _ => True

def Action.isRequest : Action → Bool
  | .request .. => true
  | _ => false

theorem keepsVerdicts_of_isRequest {env : EngineEnv} {definition : WorkflowDef} {s : System}
    {action : Action} (h : action.isRequest = false) : KeepsVerdicts env definition s action := by
  cases action with
  | request => cases h
  | _ => trivial

section Commit

variable {env : EngineEnv} {definition : WorkflowDef} {s : System} {reduced : WorkflowInstance}
  {action : Action} {events : List WorkflowInstanceEvent} {verifierId : String}

theorem Commit.retried (hCommit : Commit env definition s reduced action events)
    (hSound : Sound definition s.stored) (hMeets : KeepsVerdicts env definition s action)
    (hWriter : action.writer = .retry) {id : String} {task : TaskInstance}
    (hTask : IsAttempt s.stored verifierId id task) (hFailed : task.status = .failed)
    {state : VerifierGenerationState}
    (hState : s.stored.verifierStates.lookup verifierId = some state) : state.status = .running := by
  have hOnly {taskId failedId : String} (hLoad : loadRetryableTask s.stored taskId = .ok failedId) :
      failedId = id := by
    obtain ⟨_, found, hFound, hFoundFailed⟩ := loadRetryableTask_ok hLoad
    exact hSound.failedOnce.unique _ _ _ _ hFound hTask.found hFoundFailed hFailed
  rw [← hTask.taskDefId] at hState
  cases hCommit with
  | result => cases hWriter
  | quiet _ _ hRequest =>
      cases action with
      | request request seen =>
          obtain ⟨hSeen, hBatch⟩ := hRequest request seen rfl
          cases request with
          | retryTask taskId | forceRetryTask taskId _ =>
              obtain ⟨failedId, hLoad, _⟩ := bind_ok.mp hBatch
              obtain rfl := hOnly hLoad
              exact hMeets hSeen _ _ _ hLoad hTask.found hState
          | _ => cases hWriter
      | _ => cases hWriter

theorem Commit.continued (hCommit : Commit env definition s reduced action events)
    (hReduce : reduceWorkflowInstanceEvents (some s.stored) events = .ok reduced)
    (hKeyed : Keyed s.stored) {slice : List String}
    (hSlice : (verifierId, slice) ∈ computeLoopSlices definition)
    (hInv : SingleFile s.stored verifierId) (hMeets : KeepsVerdicts env definition s action)
    (hWriter : action.writer = .humanInput) {id : String} {task : TaskInstance}
    (hTask : IsAttempt s.stored verifierId id task)
    (hNew : s.stored.tasks.lookup (makeTaskAttemptId verifierId
      (continuationGeneration task.generationIndex)) = none)
    (hAdded : (reduced.tasks.lookup (makeTaskAttemptId verifierId
      (continuationGeneration task.generationIndex))).isSome = true) :
    continuationGeneration task.generationIndex = task.generationIndex + 1 := by
  obtain ⟨taskId, _, seen, waitingId, found, rfl, hSeen, hSubmission⟩ :=
    hCommit.submission hReduce hWriter
  have hFree := hSubmission.free
  rw [hSubmission.tasks] at hAdded
  split at hAdded
  · rename_i hSame
    obtain ⟨hTaskDef, hGeneration⟩ := makeTaskAttemptId_inj.mp hSame
    have hAttempt : IsAttempt s.stored verifierId waitingId found :=
      ⟨hSubmission.found, hTaskDef.symm⟩
    have hLt : found.generationIndex + 1 < 2 ^ 32 := by
      apply hMeets hSeen _ _ _ hSubmission.loaded hSubmission.found
      rw [← hTaskDef]
      exact List.lookup_isSome_iff.mpr ⟨_, hSlice, beq_self_eq_true _⟩
    have hSucc := continuationGeneration_of_lt hLt
    rw [hSucc, ← hTaskDef] at hFree
    have hLatest := hInv.latest_of_new hKeyed hAttempt hSubmission.waiting hFree
    have hLe := hLatest id task hTask
    exact continuationGeneration_of_lt (by omega)
  · rw [hNew] at hAdded
    cases hAdded

end Commit

/-- The verifier's latest attempt has completed with that status, and the state
selects it. -/
def LatestSelected (workflow : WorkflowInstance) (verifierId : String)
    (state : VerifierGenerationState) (status : VerifierAttemptStatus) : Prop :=
  ∃ id task, latestMaterializedAttemptId workflow verifierId = some id ∧
    workflow.tasks.lookup id = some task ∧ Selects state task status

/-- A verifier state agrees with the attempts of its verifier. -/
structure StateAgrees (workflow : WorkflowInstance) (verifierId : String)
    (state : VerifierGenerationState) : Prop where
  accepted : state.status = .accepted ↔ LatestSelected workflow verifierId state .accepted
  exhaustedAccepted : state.status = .exhaustedAccepted ↔
    LatestSelected workflow verifierId state .exhaustedAccepted
  running : ∀ id task, latestMaterializedAttemptId workflow verifierId = some id →
    workflow.tasks.lookup id = some task → task.status = .pending ∨ task.status = .running →
    state.status = .running
  increasing : (state.feedbackHistory.map (·.generationIndex)).Pairwise (· < ·)
  continued : ∀ generation, generation ∈ state.feedbackHistory.map (·.generationIndex) ↔
    ∃ id task, workflow.tasks.lookup id = some task ∧ task.taskDefId = verifierId ∧
      task.generationIndex = generation ∧
      task.verifierMetadata.bind (·.decision) = some .continue

theorem HistoryAgrees.stateAgrees {workflow : WorkflowInstance} {verifierId : String}
    {state : VerifierGenerationState} (h : HistoryAgrees workflow verifierId state) :
    StateAgrees workflow verifierId state := by
  have hReflects {id : String} {task : TaskInstance}
      (hLatest : latestMaterializedAttemptId workflow verifierId = some id)
      (hTask : workflow.tasks.lookup id = some task) : Reflects state task := by
    obtain ⟨found, hFound, hDef, hMax⟩ := latestMaterializedAttemptId_some hLatest
    rw [hTask] at hFound
    cases hFound
    exact h.latest id task ⟨hTask, hDef⟩ fun key other hOther => hMax key other hOther.found
      hOther.taskDefId
  obtain ⟨id, task, hLatest, hTask⟩ : ∃ id task,
      latestMaterializedAttemptId workflow verifierId = some id ∧
        workflow.tasks.lookup id = some task := by
    cases hLatest : latestMaterializedAttemptId workflow verifierId with
    | none =>
        obtain ⟨id, task, hTask⟩ := h.present
        have hNone := FiniteMap.maxKeyBy_none.mp hLatest id task hTask.found
        simp [hTask.taskDefId] at hNone
    | some id =>
        obtain ⟨task, hTask, _⟩ := latestMaterializedAttemptId_some hLatest
        exact ⟨id, task, rfl, hTask⟩
  have hSelected (status : VerifierAttemptStatus) :
      Selects state task status ↔ LatestSelected workflow verifierId state status := by
    constructor
    · exact fun hSelects => ⟨id, task, hLatest, hTask, hSelects⟩
    · rintro ⟨other, found, hOther, hFound, hSelects⟩
      rw [hLatest] at hOther
      cases hOther
      rw [hTask] at hFound
      cases hFound
      exact hSelects
  have hOwn := hReflects hLatest hTask
  refine ⟨hOwn.accepted.trans (hSelected _), hOwn.exhaustedAccepted.trans (hSelected _),
    fun other found hOther hFound hOpen => ?_, h.increasing, fun generation => ?_⟩
  · apply (hReflects hOther hFound).idle
    · rcases hOpen with hOpen | hOpen <;> rw [hOpen] <;> nofun
    · rcases hOpen with hOpen | hOpen <;> rw [hOpen] <;> nofun
  · rw [h.continued]
    constructor
    · rintro ⟨key, attempt, ⟨hFound, hDef⟩, hRest⟩
      exact ⟨key, attempt, hFound, hDef, hRest⟩
    · rintro ⟨key, attempt, hFound, hDef, hRest⟩
      exact ⟨key, attempt, ⟨hFound, hDef⟩, hRest⟩

/-- What every commit keeps of all the verifiers. -/
structure VerdictsInv (definition : WorkflowDef) (workflow : WorkflowInstance) : Prop where
  ofVerifiers : OfVerifiers definition workflow
  verifiers : ∀ verifierId slice, (verifierId, slice) ∈ computeLoopSlices definition →
    VerifierInv workflow verifierId

theorem VerdictsInv.created (definition : WorkflowDef) (id workflowDefId : String)
    (pinnedWorkerHost : WorkerHostId) (input : Option Json) :
    VerdictsInv definition (System.created id workflowDefId pinnedWorkerHost input).stored := by
  have hNoTask {verifierId id' : String} {task : TaskInstance}
      (h : IsAttempt (System.created id workflowDefId pinnedWorkerHost input).stored verifierId id'
        task) : False := by
    cases h.found
  refine ⟨fun _ _ hFound => (by cases hFound), fun verifierId slice _ => ⟨fun _ _ hTask => ?_,
    ⟨fun _ _ hTask => ?_, fun _ _ hTask => ?_⟩, fun _ hFound => (by cases hFound)⟩⟩
  · exact (hNoTask hTask).elim
  · exact (hNoTask hTask).elim
  · exact (hNoTask hTask).elim

theorem VerdictsInv.commit {env : EngineEnv} {definition : WorkflowDef} {s : System}
    {action : Action} {events : List WorkflowInstanceEvent} {reduced : WorkflowInstance}
    (hDef : WellFormedDef definition) (hTracked : Tracked env definition s)
    (hInv : VerdictsInv definition s.stored) (hMeets : KeepsVerdicts env definition s action)
    (hCommit : Commit env definition s reduced action events)
    (hReduce : reduceWorkflowInstanceEvents (some s.stored) events = .ok reduced) :
    VerdictsInv definition reduced := by
  obtain ⟨l, hRefines, hStarts⟩ := hTracked
  obtain ⟨plan, hEffect⟩ := hCommit.effect hReduce
  have hSound := hRefines.sound
  refine ⟨hEffect.ofVerifiers hInv.ofVerifiers, fun verifierId slice hSlice => ?_⟩
  have hOld := hInv.verifiers verifierId slice hSlice
  apply hOld.step hDef hSlice hSound.key (hEffect.seenBy hDef hSlice)
  · intro hNone id task hTask
    have hLookup : l.stored.tasks.lookup id = some task := by
      rw [hRefines.stored]
      exact hTask.found
    rw [← hRefines.stored] at hNone
    exact (hStarts.unstarted verifierId slice hSlice hNone).status hLookup
      (hTask.taskDefId ▸ hDef.verifier_mem hSlice)
  · constructor
    · intro hWriter id task hTask hFailed state hFound
      exact hCommit.retried hSound hMeets hWriter hTask hFailed hFound
    · intro hWriter id task hTask _ hNew hAdded
      exact hCommit.continued hReduce hSound.key hSlice hOld.singleFile hMeets hWriter hTask hNew
        hAdded

theorem VerdictsInv.withVersion {definition : WorkflowDef} {workflow : WorkflowInstance}
    (h : VerdictsInv definition workflow) (version : Nat) :
    VerdictsInv definition (workflow.withVersion version) :=
  ⟨h.ofVerifiers, fun verifierId slice hSlice =>
    (h.verifiers verifierId slice hSlice).of_unanswered (.of_same rfl) rfl⟩

theorem System.StepsMeeting.keepsVerdicts {env : EngineEnv} {definition : WorkflowDef}
    {start s : System} {actions : List Action} (hDef : WellFormedDef definition)
    (run : System.StepsMeeting env (KeepsVerdicts env definition) start actions s)
    (hTracked : Tracked env definition start) (hStart : VerdictsInv definition start.stored) :
    Tracked env definition s ∧ VerdictsInv definition s.stored :=
  run.keeps hDef hTracked hStart
    (fun _ _ _ _ hState hInv hMeets hCommit hReduce => hInv.commit hDef hState hMeets hCommit hReduce)
    (fun _ version h => h.withVersion version)

/-- In runs that retry no verifier after its verdict, and that continue no
verifier attempt of the last generation, every verifier state agrees with the
attempts. -/
theorem System.Steps.verifier_states_agree {env : EngineEnv} {submitted definition : WorkflowDef}
    {id workflowDefId : String} {pinnedWorkerHost : WorkerHostId} {input : Option Json}
    {actions : List Action} {s : System}
    (hAccepted : validateAndNormalizeWorkflowDef submitted = .ok definition)
    (hDefinition : env.definitions workflowDefId = some definition)
    (run : System.StepsMeeting env (KeepsVerdicts env definition)
      (System.created id workflowDefId pinnedWorkerHost input) actions s)
    {verifierId : String} {state : VerifierGenerationState}
    (hState : s.stored.verifierStates.lookup verifierId = some state) :
    StateAgrees s.stored verifierId state := by
  have hDef := validateAndNormalizeWorkflowDef_ok hAccepted
  obtain ⟨_, hVerifiers, hAll⟩ := run.keepsVerdicts hDef
    (.created pinnedWorkerHost input hDefinition) (.created ..)
  obtain ⟨slice, hSlice⟩ := hVerifiers verifierId state hState
  exact ((hAll verifierId slice hSlice).agrees state hState).stateAgrees

/-! The sample article, with a review that has one iteration. -/

def strictSubmitted : WorkflowDef :=
  { sampleSubmitted with tasks := [sampleTask "draft" none,
      sampleTask "review" (some
        { maxIterations := 1, onExhaustedContinue := false, rerunFromTaskId := some "draft" }),
      sampleTask "publish" none] }

theorem strictSubmitted_accepted :
    (validateAndNormalizeWorkflowDef strictSubmitted).toOption.isSome := by
  decide +kernel

def strictDefinition : WorkflowDef :=
  (validateAndNormalizeWorkflowDef strictSubmitted).toOption.get strictSubmitted_accepted

def strictEnv : EngineEnv :=
  { sampleEnv with definitions := fun id => if id = "article" then some strictDefinition else none }

/-- The only review rejects the draft. -/
def reviewExhausted : List Action :=
  startDraft ++ [.answer (.ok (.success (.object []))), .passStep, .passStep, .passStep, .passStep,
    .passStep, .passStep, .answer reviewAnswer, .passStep, .passStep]

/-- The state of the review, with the status of its latest attempt. -/
def reviewState (s : System) : Option (VerifierGenerationState × TaskStatus) := do
  let state ← s.stored.verifierStates.lookup "review"
  let latest ← latestMaterializedAttemptId s.stored "review"
  let task ← s.stored.tasks.lookup latest
  return (state, task.status)

theorem reviewState_agrees {s : System} {found : VerifierGenerationState × TaskStatus}
    (h : reviewState s = some found) : ∃ state,
      s.stored.verifierStates.lookup "review" = some state ∧
      (StateAgrees s.stored "review" state → found.2 = .pending → found.1.status = .running) := by
  obtain ⟨state, hState, h⟩ := Option.bind_eq_some_iff.mp h
  obtain ⟨latest, hLatest, h⟩ := Option.bind_eq_some_iff.mp h
  obtain ⟨task, hTask, h⟩ := Option.bind_eq_some_iff.mp h
  cases h
  exact ⟨state, hState, fun hAgrees hPending => hAgrees.running _ _ hLatest hTask (.inl hPending)⟩

theorem reviewExhausted_runs :
    ((reviewExhausted.foldlM (System.step strictEnv) sampleStart).bind reviewState).isSome := by
  decide +kernel

theorem reviewRetried_runs :
    (((reviewExhausted ++ [Action.request (.retryTask "review") 0]).foldlM (System.step strictEnv)
      sampleStart).bind reviewState).isSome := by
  decide +kernel

/-- The review rejects the draft for good, in a run without requests. -/
theorem System.StepsMeeting.verifier_states_agree_exhausted : ∃ s state,
    System.StepsMeeting strictEnv (KeepsVerdicts strictEnv strictDefinition) sampleStart
      reviewExhausted s ∧ s.stored.verifierStates.lookup "review" = some state ∧
      StateAgrees s.stored "review" state := by
  obtain ⟨s, hRun, hFound⟩ := Option.bind_eq_some_iff.mp (Option.some_get reviewExhausted_runs).symm
  obtain ⟨state, hState, _⟩ := reviewState_agrees hFound
  have hRequests : ∀ action ∈ reviewExhausted, action.isRequest = false := by decide +kernel
  have run : System.StepsMeeting strictEnv (KeepsVerdicts strictEnv strictDefinition) sampleStart
      reviewExhausted s :=
    ((Run.of_foldlM hRun).labelled hRequests).mono fun s action s' hStep =>
      ⟨hStep.1, keepsVerdicts_of_isRequest hStep.2⟩
  have hAccepted : validateAndNormalizeWorkflowDef strictSubmitted = .ok strictDefinition :=
    eq_ok_get strictSubmitted_accepted
  have hDefinition : strictEnv.definitions "article" = some strictDefinition := rfl
  exact ⟨s, state, run, hState,
    System.Steps.verifier_states_agree hAccepted hDefinition run hState⟩

/-- A retry of the exhausted review leaves its state exhausted while the
attempt is pending. -/
theorem retried_review_disagrees : ∃ s state,
    System.Steps strictEnv sampleStart (reviewExhausted ++ [.request (.retryTask "review") 0]) s ∧
      s.stored.verifierStates.lookup "review" = some state ∧
      ¬StateAgrees s.stored "review" state := by
  obtain ⟨s, hRun, hFound⟩ := Option.bind_eq_some_iff.mp (Option.some_get reviewRetried_runs).symm
  obtain ⟨state, hState, hAgrees⟩ := reviewState_agrees hFound
  refine ⟨s, state, Run.of_foldlM hRun, hState, fun h => ?_⟩
  have hRunning := hAgrees h (by decide +kernel)
  revert hRunning
  decide +kernel

end RelayFold
