import RelayFold.Lifecycle.SourceOrder

/-! The generations of a slice that gets no human input: its tasks are numbered
in step, a generation follows only on the rejection of the one before, and it
consumes its own attempts. -/
namespace RelayFold

open WorkflowEngine FallibleFold EdgeList

/-- There is an attempt of the task in this generation. -/
def HasAttempt (workflow : WorkflowInstance) (taskId : String) (generation : Nat) : Prop :=
  (workflow.tasks.lookup (makeTaskAttemptId taskId generation)).isSome = true

/-- No attempt of the slice carries human input. -/
def WithoutInput (workflow : WorkflowInstance) (slice : List String) : Prop :=
  ∀ id task, workflow.tasks.lookup id = some task → task.taskDefId ∈ slice → task.humanInput = none

/-- A verifier attempt that has completed with a rejection. -/
def HasRejected (judge : TaskInstance) : Prop :=
  judge.status = .completed ∧ ∃ metadata, judge.verifierMetadata = some metadata ∧
    metadata.status = .rejected

/-- The tasks of a slice have attempts of the same generations, numbered from
one, and each generation but the last has been rejected. -/
structure InStep (workflow : WorkflowInstance) (verifierId : String) (slice : List String) : Prop where
  aligned : ∀ taskId ∈ slice, ∀ generation,
    HasAttempt workflow taskId generation ↔ HasAttempt workflow verifierId generation
  numbered : ¬HasAttempt workflow verifierId 0
  rejected : ∀ generation, HasAttempt workflow verifierId (generation + 2) →
    ∃ judge, workflow.tasks.lookup (makeTaskAttemptId verifierId (generation + 1)) = some judge ∧
      HasRejected judge

/-- Which attempts of a slice a commit adds: none, the first generation, or the
generation after one that it rejects. -/
inductive SliceKeys (before after : WorkflowInstance) (verifierId : String) (slice : List String) :
    Prop
  | same (hKeys : ∀ taskId ∈ slice, ∀ generation,
      HasAttempt after taskId generation ↔ HasAttempt before taskId generation)
  | first (hKeys : ∀ taskId ∈ slice, ∀ generation, HasAttempt after taskId generation ↔ generation = 1)
  | next {generation : Nat} {own : TaskInstance} (hJudge : HasAttempt before verifierId generation)
      (hOwn : after.tasks.lookup (makeTaskAttemptId verifierId generation) = some own)
      (hRejected : HasRejected own)
      (hKeys : ∀ taskId ∈ slice, ∀ other, HasAttempt after taskId other ↔
        HasAttempt before taskId other ∨ other = generation + 1)

section InStep

variable {workflow before after : WorkflowInstance} {verifierId taskId : String}
  {slice : List String} {generation : Nat} {judge : TaskInstance}

theorem HasAttempt.of_lookup {task : TaskInstance}
    (h : workflow.tasks.lookup (makeTaskAttemptId taskId generation) = some task) :
    HasAttempt workflow taskId generation := by
  rw [HasAttempt, h]
  rfl

theorem HasAttempt.of_keyed (hKeyed : Keyed workflow) {id : String} {task : TaskInstance}
    (h : workflow.tasks.lookup id = some task) :
    HasAttempt workflow task.taskDefId task.generationIndex :=
  .of_lookup (hKeyed id task h ▸ h)

/-- The generations before one that exists have been rejected. -/
theorem InStep.rejected_below (h : InStep workflow verifierId slice)
    (hAttempt : HasAttempt workflow verifierId generation) {earlier : Nat} (hFirst : 1 ≤ earlier)
    (hBelow : earlier < generation) :
    ∃ judge, workflow.tasks.lookup (makeTaskAttemptId verifierId earlier) = some judge ∧
      HasRejected judge := by
  induction generation with
  | zero => exact absurd hBelow (Nat.not_lt_zero _)
  | succ last ih =>
      obtain ⟨before, rfl⟩ : ∃ before, last = before + 1 := ⟨last - 1, by omega⟩
      obtain ⟨judge, hJudge, hRejected⟩ := h.rejected before hAttempt
      by_cases hLast : earlier = before + 1
      · rw [hLast]
        exact ⟨judge, hJudge, hRejected⟩
      · exact ih (.of_lookup hJudge) (by omega)

/-- The accepted generation is the last one. -/
theorem InStep.accepted_last (h : InStep workflow verifierId slice)
    (hJudge : workflow.tasks.lookup (makeTaskAttemptId verifierId generation) = some judge)
    (hAccepted : HasAccepted judge) {other : Nat} (hOther : HasAttempt workflow verifierId other) :
    other ≤ generation := by
  by_contra hLater
  have hFirst : 1 ≤ generation := by
    rcases Nat.eq_zero_or_pos generation with rfl | hPos
    · exact absurd (HasAttempt.of_lookup hJudge) h.numbered
    · exact hPos
  obtain ⟨found, hFound, _, metadata, hMetadata, hRejected⟩ :=
    h.rejected_below hOther hFirst (Nat.not_le.mp hLater)
  rw [hJudge] at hFound
  cases hFound
  obtain ⟨_, metadata', hMetadata', hStatus⟩ := hAccepted
  rw [hMetadata] at hMetadata'
  cases hMetadata'
  rw [hRejected] at hStatus
  rcases hStatus with hStatus | hStatus <;> cases hStatus

/-- A commit keeps the tasks of a slice in step. -/
theorem InStep.of_sliceKeys (h : InStep before verifierId slice) (hVerifier : verifierId ∈ slice)
    (hKept : ∀ key a, before.tasks.lookup key = some a → HasRejected a →
      ∃ b, after.tasks.lookup key = some b ∧ HasRejected b)
    (hKeys : SliceKeys before after verifierId slice) : InStep after verifierId slice := by
  have hOld {generation : Nat} (hAttempt : HasAttempt before verifierId (generation + 2)) :
      ∃ judge, after.tasks.lookup (makeTaskAttemptId verifierId (generation + 1)) = some judge ∧
        HasRejected judge := by
    obtain ⟨judge, hJudge, hRejected⟩ := h.rejected generation hAttempt
    exact hKept _ judge hJudge hRejected
  cases hKeys with
  | same hKeys =>
      refine ⟨fun taskId hMem generation => ?_, ?_, fun generation hAttempt => ?_⟩
      · rw [hKeys taskId hMem, hKeys verifierId hVerifier]
        exact h.aligned taskId hMem generation
      · rw [hKeys verifierId hVerifier]
        exact h.numbered
      · exact hOld ((hKeys verifierId hVerifier _).mp hAttempt)
  | first hKeys =>
      refine ⟨fun taskId hMem generation => ?_, fun hZero => ?_, fun generation hAttempt => ?_⟩
      · rw [hKeys taskId hMem, hKeys verifierId hVerifier]
      · cases (hKeys verifierId hVerifier 0).mp hZero
      · have hOne := (hKeys verifierId hVerifier _).mp hAttempt
        omega
  | @next judged own hJudge hOwn hRejected hKeys =>
      refine ⟨fun taskId hMem generation => ?_, fun hZero => ?_, fun generation hAttempt => ?_⟩
      · rw [hKeys taskId hMem, hKeys verifierId hVerifier, h.aligned taskId hMem]
      · rcases (hKeys verifierId hVerifier 0).mp hZero with hZero | hZero
        · exact h.numbered hZero
        · cases hZero
      · rcases (hKeys verifierId hVerifier _).mp hAttempt with hBefore | hNew
        · exact hOld hBefore
        · obtain rfl : generation + 1 = judged := by omega
          exact ⟨own, hOwn, hRejected⟩

end InStep

section Keys

variable {definition : WorkflowDef} {before after : WorkflowInstance} {id verifierId : String}
  {task own : TaskInstance} {exit : Bool} {mark : String → Option TaskSatisfactionStatus}
  {slice : List String}

/-- A decision that creates nothing leaves the same attempts. -/
theorem DecisionEffect.keys (h : DecisionEffect before after id own exit mark NothingNew)
    (hTask : before.tasks.lookup id = some task) (key : String) :
    (after.tasks.lookup key).isSome = (before.tasks.lookup key).isSome := by
  by_cases hKey : key = id
  · rw [hKey, h.own, hTask]
    rfl
  · cases ha : before.tasks.lookup key with
    | none => rw [show after.tasks.lookup key = none from h.new key ha]
    | some a =>
        rw [h.kept key a hKey ha]
        rfl

/-- A decision that creates a generation adds its attempts. -/
theorem DecisionEffect.keys_fresh {generation : Nat}
    (h : DecisionEffect before after id own exit mark (FreshAt slice generation))
    (hTask : before.tasks.lookup id = some task) (key : String) :
    (after.tasks.lookup key).isSome = true ↔ (before.tasks.lookup key).isSome = true ∨
      key ∈ slice.map (makeTaskAttemptId · generation) := by
  by_cases hKey : key = id
  · rw [hKey, h.own, hTask]
    exact iff_of_true rfl (.inl rfl)
  · cases ha : before.tasks.lookup key with
    | none =>
        rcases h.new key ha with ⟨taskId, hMem, hName, hFound⟩ | ⟨hNot, hNone⟩
        · rw [hFound]
          exact iff_of_true rfl (.inr (hName ▸ List.mem_map_of_mem hMem))
        · rw [hNone]
          exact iff_of_false Bool.false_ne_true fun hOr => hOr.elim Bool.false_ne_true hNot
    | some a =>
        rw [h.kept key a hKey ha]
        exact iff_of_true rfl (.inl rfl)

/-- What an answer adds to the attempts of a slice. -/
theorem WorkflowEngine.Outcome.sliceKeys {ext : Externals} {loopSlices : LoopSlices}
    {taskDef : TaskDef} {inputs : ResolvedTaskInputs} {answer : Answer} {result : ResultCommit}
    (hDef : WellFormedDef definition) (hSlices : loopSlices.Perm (computeLoopSlices definition))
    (hKeyed : Keyed before) (hTask : before.tasks.lookup id = some task)
    (hFound : definition.findTask task.taskDefId = some taskDef)
    (hSlice : (verifierId, slice) ∈ computeLoopSlices definition)
    (h : Outcome ext before after loopSlices id task taskDef inputs answer result) :
    SliceKeys before after verifierId slice := by
  have hId := (findTask_some hFound).2
  have hSame {own : TaskInstance} {exit : Bool} {mark : String → Option TaskSatisfactionStatus}
      (hEffect : DecisionEffect before after id own exit mark NothingNew) :
      SliceKeys before after verifierId slice :=
    .same fun taskId _ generation => by rw [HasAttempt, hEffect.keys hTask, HasAttempt]
  cases h with
  | stopped hEffect _ _ _ _ _ => exact hSame (hEffect.decision hTask)
  | plain _ _ _ hEffect _ => exact hSame (hEffect.decision hTask)
  | judged hVerifier _ _ _ _ hCompletion hVerdict _ =>
      have hOwn := hDef.verdict_slice hSlices hFound (by rw [hVerifier]; rfl)
      cases hVerdict with
      | complete _ _ hEffect | interrupted _ _ _ hEffect | exhausted _ _ _ _ _ hEffect
      | failed _ _ _ _ _ _ hEffect => exact hSame (hEffect.decision hCompletion hTask)
      | rerun _ _ _ _ hEffect =>
          have hDecision := hEffect.decision hCompletion hTask
          have hKeys (taskId : String) (generation : Nat) : HasAttempt after taskId generation ↔
              HasAttempt before taskId generation ∨
                taskId ∈ (loopSlices.lookup taskDef.id).getD [taskDef.id] ∧
                  generation = task.generationIndex + 1 := by
            refine (hDecision.keys_fresh hTask _).trans (or_congr_right ?_)
            constructor
            · intro hMem
              obtain ⟨other, hOther, hName⟩ := List.mem_map.mp hMem
              obtain ⟨rfl, rfl⟩ := makeTaskAttemptId_inj.mp hName
              exact ⟨hOther, rfl⟩
            · rintro ⟨hMem, rfl⟩
              exact List.mem_map_of_mem hMem
          by_cases hVerifierId : taskDef.id = verifierId
          · rw [hVerifierId] at hOwn
            rw [hVerifierId, hDef.slice_unique hSlice hOwn] at hKeys
            have hName := hKeyed id task hTask
            rw [← hId, hVerifierId] at hName
            have hFoundOwn := hDecision.own
            rw [hName] at hTask hFoundOwn
            exact .next (.of_lookup hTask) hFoundOwn ⟨rfl, _, rfl, rfl⟩ fun taskId hMem generation =>
              (hKeys taskId generation).trans (or_congr_right (and_iff_right hMem))
          · refine .same fun taskId hMem generation => (hKeys taskId generation).trans ?_
            refine or_iff_left fun hOther => hVerifierId ?_
            exact (Prod.mk.inj (hDef.slices_disjoint _ hOwn _ hSlice taskId hOther.1 hMem)).1

/-- What a commit adds to the attempts of a slice without human input. -/
theorem WriteEffect.sliceKeys {l : Lifecycle} {reduced : WorkflowInstance} {writer : Writer}
    (hDef : WellFormedDef definition) (h : WriteEffect definition l reduced writer)
    (hKeyed : Keyed l.stored) (hSlice : (verifierId, slice) ∈ computeLoopSlices definition)
    (hInput : WithoutInput reduced slice) : SliceKeys l.stored reduced verifierId slice := by
  have hSame (hKeys : ∀ key, (reduced.tasks.lookup key).isSome = (l.stored.tasks.lookup key).isSome) :
      SliceKeys l.stored reduced verifierId slice :=
    .same fun taskId _ generation => by rw [HasAttempt, hKeys, HasAttempt]
  cases h with
  | status _ hTasks _ => exact hSame fun key => by rw [hTasks]
  | initialTasks hEmpty hTasks hInitialized _ =>
      refine .first fun taskId hMem generation => ⟨fun hAttempt => ?_, ?_⟩
      · obtain ⟨b, hb⟩ := Option.isSome_iff_exists.mp hAttempt
        obtain ⟨taskDef, _, hName, _⟩ := hTasks _ b hb
        exact (makeTaskAttemptId_inj.mp hName).2
      · rintro rfl
        exact hInitialized.isSome (slice_subset_taskIds hSlice taskId hMem)
  | initialGenerations _ _ hAfter => exact hSame fun key => by rw [hAfter.tasks]
  | start _ hTask _ hTasks _ =>
      refine hSame fun key => ?_
      rw [hTasks]
      split
      · rename_i hKey
        rw [hKey, hTask]
        rfl
      · rfl
  | result hSlices hTask hFound _ _ hOutcome _ =>
      exact hOutcome.sliceKeys hDef hSlices hKeyed hTask hFound hSlice
  | @humanInput id submittedInput task hTask _ _ hTasks _ =>
      refine .same fun taskId hMem generation => ?_
      rw [HasAttempt, hTasks]
      split
      · rename_i hName
        obtain ⟨rfl, _⟩ := makeTaskAttemptId_inj.mp hName
        have hNone := hInput _ _ ((hTasks _).trans (if_pos rfl)) hMem
        cases hNone
      · rfl
  | retry hTask _ hTasks _ =>
      refine hSame fun key => ?_
      rw [hTasks]
      split
      · rename_i hKey
        rw [hKey, hTask]
        rfl
      · rfl
  | recover hTasks _ =>
      refine hSame fun key => ?_
      rw [hTasks]
      split
      · rw [Option.isSome_map]
      · rfl

end Keys

/-! ### The selected generation -/

/-- The state of the verifier tells which generation is accepted. -/
def Selected (workflow : WorkflowInstance) (verifierId : String) : Prop :=
  ∀ generation judge, workflow.tasks.lookup (makeTaskAttemptId verifierId generation) = some judge →
    HasAccepted judge → ∃ state, workflow.verifierStates.lookup verifierId = some state ∧
      state.selectedGeneration = some generation ∧
      (state.status = .accepted ∨ state.status = .exhaustedAccepted)

section Selected

variable {definition : WorkflowDef} {before after : WorkflowInstance} {id verifierId : String}
  {task : TaskInstance} {slice : List String} {generation : Nat} {judge : TaskInstance}

/-- Nothing of a slice runs beside an accepted verifier attempt. -/
theorem InStep.accepted_settled (h : InStep before verifierId slice) (hKeyed : Keyed before)
    (hTask : IsAttempt before verifierId id task) (hRunning : task.status = .running)
    (hJudge : before.tasks.lookup (makeTaskAttemptId verifierId generation) = some judge)
    (hAccepted : HasAccepted judge) : False := by
  have hAttempt := HasAttempt.of_keyed hKeyed hTask.found
  rw [hTask.taskDefId] at hAttempt
  have hName := hKeyed id task hTask.found
  rw [hTask.taskDefId] at hName
  have hSettled {found : TaskInstance}
      (hFound : before.tasks.lookup (makeTaskAttemptId verifierId task.generationIndex) = some found)
      (hCompleted : found.status = .completed) : False := by
    rw [← hName, hTask.found] at hFound
    cases hFound
    rw [hRunning] at hCompleted
    cases hCompleted
  rcases Nat.lt_or_eq_of_le (h.accepted_last hJudge hAccepted hAttempt) with hBelow | hSame
  · have hFirst : 1 ≤ task.generationIndex := by
      rcases Nat.eq_zero_or_pos task.generationIndex with hZero | hPos
      · exact absurd (hZero ▸ hAttempt) h.numbered
      · exact hPos
    obtain ⟨found, hFound, hCompleted, _⟩ := h.rejected_below (.of_lookup hJudge) hFirst hBelow
    exact hSettled hFound hCompleted
  · rw [← hSame] at hJudge
    exact hSettled hJudge hAccepted.1

theorem HasAccepted.of_afterExit {a : TaskInstance} {exit : Bool}
    {mark : Option TaskSatisfactionStatus} (h : HasAccepted ((a.afterExit exit).marked mark)) :
    HasAccepted a := by
  have hCompleted : a.status = .completed := TaskInstance.afterExit_completed.mp h.1
  rw [TaskInstance.afterExit_of_ne_pending (by rw [hCompleted]; intro hFalse; cases hFalse)] at h
  exact h

section Decision

variable {own : TaskInstance} {exit : Bool} {mark : String → Option TaskSatisfactionStatus}
  {created : String → Option TaskInstance → Prop}
  (h : DecisionEffect before after id own exit mark created)
  (hNew : ∀ key found, created key (some found) → found.status = .pending)
include h hNew

/-- Another attempt that is accepted after a decision was accepted before. -/
theorem DecisionEffect.accepted_before {key : String} (hKey : key ≠ id)
    (hJudge : after.tasks.lookup key = some judge) (hAccepted : HasAccepted judge) :
    ∃ a, before.tasks.lookup key = some a ∧ HasAccepted a := by
  cases ha : before.tasks.lookup key with
  | none =>
      have hCreated := h.new key ha
      rw [hJudge] at hCreated
      have hPending := hNew key judge hCreated
      rw [hAccepted.1] at hPending
      cases hPending
  | some a =>
      have hKept := h.kept key a hKey ha
      rw [hJudge] at hKept
      cases hKept
      exact ⟨a, rfl, hAccepted.of_afterExit⟩

/-- A decision of which the verifier state does not learn accepts no attempt of
the verifier. -/
theorem DecisionEffect.selected (hSelected : Selected before verifierId)
    (hStates : after.verifierStates.lookup verifierId = before.verifierStates.lookup verifierId)
    (hOwn : ∀ generation, makeTaskAttemptId verifierId generation = id → ¬HasAccepted own) :
    Selected after verifierId := by
  intro generation judge hJudge hAccepted
  rw [hStates]
  by_cases hKey : makeTaskAttemptId verifierId generation = id
  · rw [hKey, h.own] at hJudge
    cases hJudge
    exact absurd hAccepted (hOwn generation hKey)
  · obtain ⟨a, ha, hOld⟩ := h.accepted_before hNew hKey hJudge hAccepted
    exact hSelected generation a ha hOld

end Decision

/-- A verdict that accepts selects its generation. -/
theorem WorkflowEngine.Verdict.selects {middle next : WorkflowInstance} {verifierTask : TaskDef}
    {verifier : VerifierControlConfig} {state : VerifierGenerationState}
    {result : VerifierExecutionResult} {message : Option String}
    (h : Verdict middle next verifierTask verifier slice id generation state result message) :
    ∃ own mark created after, VerdictEffect middle next id verifierTask.id own mark created after ∧
      (∀ key found, created key (some found) → found.status = .pending) ∧
      ∀ task, HasAccepted (own task) → after.selectedGeneration = some generation ∧
        (after.status = .accepted ∨ after.status = .exhaustedAccepted) := by
  have hNothing (key : String) (found : TaskInstance) (hNone : NothingNew key (some found)) :
      found.status = .pending := by
    cases hNone
  have hRejects {metadata : VerifierAttemptMetadata} {own : TaskInstance} {P : Prop}
      (hMetadata : own.verifierMetadata = some metadata) (hStatus : metadata.status = .rejected)
      (hAccepted : HasAccepted own) : P := by
    obtain ⟨_, found, hFound, hEither⟩ := hAccepted
    rw [hMetadata] at hFound
    cases hFound
    rw [hStatus] at hEither
    rcases hEither with hFalse | hFalse <;> cases hFalse
  cases h with
  | complete _ _ hEffect => exact ⟨_, _, _, _, hEffect, hNothing, fun _ _ => ⟨rfl, .inl rfl⟩⟩
  | exhausted _ _ _ _ _ hEffect => exact ⟨_, _, _, _, hEffect, hNothing, fun _ _ => ⟨rfl, .inr rfl⟩⟩
  | interrupted _ _ _ hEffect =>
      exact ⟨_, _, _, _, hEffect, hNothing, fun _ hAccepted => hRejects rfl rfl hAccepted⟩
  | rerun _ _ _ _ hEffect =>
      refine ⟨_, _, _, _, hEffect, fun key found hNew => ?_,
        fun _ hAccepted => hRejects rfl rfl hAccepted⟩
      rcases hNew with ⟨_, _, _, hFresh⟩ | ⟨_, hNone⟩
      · cases hFresh
        rfl
      · cases hNone
  | failed _ _ _ _ _ _ hEffect =>
      refine ⟨_, _, _, _, hEffect, hNothing, fun _ hAccepted => ?_⟩
      cases hAccepted.1

/-- An answer keeps the verifier state in agreement with the accepted
attempt. -/
theorem WorkflowEngine.Outcome.selected {ext : Externals} {loopSlices : LoopSlices}
    {taskDef : TaskDef} {inputs : ResolvedTaskInputs} {answer : Answer} {result : ResultCommit}
    (hDef : WellFormedDef definition) (hKeyed : Keyed before)
    (hTask : before.tasks.lookup id = some task) (hRunning : task.status = .running)
    (hFound : definition.findTask task.taskDefId = some taskDef)
    (hSlice : (verifierId, slice) ∈ computeLoopSlices definition)
    (hInStep : InStep before verifierId slice) (hSelected : Selected before verifierId)
    (h : Outcome ext before after loopSlices id task taskDef inputs answer result) :
    Selected after verifierId := by
  have hId := (findTask_some hFound).2
  have hName {generation : Nat} (hKey : makeTaskAttemptId verifierId generation = id) :
      verifierId = task.taskDefId ∧ generation = task.generationIndex :=
    makeTaskAttemptId_inj.mp (hKey.trans (hKeyed id task hTask))
  have hNothing (key : String) (found : TaskInstance) (hNone : NothingNew key (some found)) :
      found.status = .pending := by
    cases hNone
  cases h with
  | stopped hEffect hStatus _ _ _ _ =>
      refine (hEffect.decision hTask).selected hNothing hSelected (hEffect.verifierStates _)
        fun _ _ hAccepted => ?_
      rcases hStatus with hOther | hOther <;> rw [hAccepted.1] at hOther <;> cases hOther
  | plain hPlain _ _ hEffect _ =>
      refine (hEffect.decision hTask).selected hNothing hSelected (hEffect.verifierStates _)
        fun _ hKey _ => ?_
      obtain ⟨found, verifier, hSame, hVerifier, _⟩ := hDef.slice_verifier hSlice
      rw [(hName hKey).1, hFound] at hSame
      cases hSame
      rw [hPlain] at hVerifier
      cases hVerifier
  | judged _ _ _ _ _ hCompletion hVerdict _ =>
      obtain ⟨_, _, _, state, hEffect, hNew, hSelects⟩ := hVerdict.selects
      have hDecision := hEffect.decision hCompletion hTask
      by_cases hVerifierId : taskDef.id = verifierId
      · intro generation judge hJudge hAccepted
        by_cases hKey : makeTaskAttemptId verifierId generation = id
        · rw [hKey, hDecision.own] at hJudge
          cases hJudge
          rw [(hName hKey).2]
          exact ⟨state, hVerifierId ▸ hEffect.state, hSelects _ hAccepted⟩
        · -- The verifier that answers has accepted nothing before.
          obtain ⟨a, ha, hOld⟩ := hDecision.accepted_before hNew hKey hJudge hAccepted
          exact (hInStep.accepted_settled hKeyed ⟨hTask, hId.symm.trans hVerifierId⟩ hRunning ha
            hOld).elim
      · refine hDecision.selected hNew hSelected ?_ fun generation hKey _ => ?_
        · rw [hEffect.states verifierId (Ne.symm hVerifierId), hCompletion.verifierStates]
        · exact hVerifierId (hId.trans (hName hKey).1.symm)

/-- Every commit keeps the verifier state in agreement with the accepted
attempt. -/
theorem WriteEffect.selected {l : Lifecycle} {reduced : WorkflowInstance} {writer : Writer}
    (hDef : WellFormedDef definition) (h : WriteEffect definition l reduced writer)
    (hKeyed : Keyed l.stored) (hSlice : (verifierId, slice) ∈ computeLoopSlices definition)
    (hInStep : InStep l.stored verifierId slice) (hSelected : Selected l.stored verifierId) :
    Selected reduced verifierId := by
  have hKept (hStates : ∀ state, l.stored.verifierStates.lookup verifierId = some state →
        reduced.verifierStates.lookup verifierId = some state)
      (hJudges : ∀ key judge, reduced.tasks.lookup key = some judge → HasAccepted judge →
        l.stored.tasks.lookup key = some judge) : Selected reduced verifierId := by
    intro generation judge hJudge hAccepted
    obtain ⟨state, hState, hRest⟩ :=
      hSelected generation judge (hJudges _ judge hJudge hAccepted) hAccepted
    exact ⟨state, hStates state hState, hRest⟩
  have hSame (hStates : SameStates l.stored reduced) (state : VerifierGenerationState)
      (hState : l.stored.verifierStates.lookup verifierId = some state) :
      reduced.verifierStates.lookup verifierId = some state :=
    (hStates verifierId).trans hState
  cases h with
  | status _ hTasks hStates => exact hKept (hSame hStates) fun _ _ hJudge _ => hTasks ▸ hJudge
  | initialTasks _ hTasks _ hStates =>
      refine hKept (hSame hStates) fun key judge hJudge hAccepted => ?_
      obtain ⟨_, _, _, rfl⟩ := hTasks key judge hJudge
      cases hAccepted.1
  | initialGenerations _ _ hAfter =>
      exact hKept (hAfter.kept verifierId) fun _ _ hJudge _ => hAfter.tasks ▸ hJudge
  | start _ _ _ hTasks hStates | humanInput _ _ _ hTasks hStates | retry _ _ hTasks hStates =>
      refine hKept (hSame hStates) fun key judge hJudge hAccepted => ?_
      rw [hTasks] at hJudge
      split at hJudge
      · cases hJudge
        cases hAccepted.1
      · exact hJudge
  | result _ hTask hFound hRunning _ hOutcome _ =>
      exact hOutcome.selected hDef hKeyed hTask hRunning hFound hSlice hInStep hSelected
  | recover hTasks hStates =>
      refine hKept (hSame hStates) fun key judge hJudge hAccepted => ?_
      rw [hTasks] at hJudge
      split at hJudge
      · obtain ⟨a, ha, rfl⟩ := Option.map_eq_some_iff.mp hJudge
        have hStatus := hAccepted.1
        unfold TaskInstance.recovered at hStatus ⊢
        split at hStatus
        · cases hStatus
        · rename_i hOther
          rw [if_neg hOther]
          exact ha
      · exact hJudge

end Selected

/-! ### Each generation consumes its own -/

/-- The sources of the task in its slice have completed in this generation. -/
def OwnSources (definition : WorkflowDef) (workflow : WorkflowInstance) (slice : List String)
    (taskId : String) (generation : Nat) : Prop :=
  ∀ source ∈ slice, (source, taskId) ∈ definition.edges →
    ∃ a, workflow.tasks.lookup (makeTaskAttemptId source generation) = some a ∧ a.status = .completed

/-- What every run keeps of a slice without human input. -/
structure SliceInv (definition : WorkflowDef) (l : Lifecycle) (verifierId : String)
    (slice : List String) : Prop where
  inStep : InStep l.stored verifierId slice
  selected : Selected l.stored verifierId
  begun : ∀ id task, l.stored.tasks.lookup id = some task → task.taskDefId ∈ slice →
    task.status.hasBegun = true →
      OwnSources definition l.stored slice task.taskDefId task.generationIndex
  planned : ∀ id ∈ l.plan, ∃ task, l.stored.tasks.lookup id = some task ∧
    (task.taskDefId ∈ slice →
      OwnSources definition l.stored slice task.taskDefId task.generationIndex)

section Step

variable {definition : WorkflowDef} {l l' : Lifecycle} {writer : Writer} {ext : Externals}
  {events : List WorkflowInstanceEvent} {plan : List String} {reduced : WorkflowInstance}
  {verifierId taskId : String} {slice : List String} {generation : Nat}

theorem OwnSources.write (h : OwnSources definition l.stored slice taskId generation)
    (hWrite : Write ext definition l writer events plan)
    (hReduce : reduceWorkflowInstanceEvents (some l.stored) events = .ok reduced) :
    OwnSources definition reduced slice taskId generation := by
  intro source hMem hEdge
  obtain ⟨a, ha, hCompleted⟩ := h source hMem hEdge
  obtain ⟨b, hb, hKept⟩ := hWrite.completed_kept hReduce ha hCompleted
  refine ⟨b, hb, ?_⟩
  rw [hKept]
  exact hCompleted

theorem WithoutInput.before {before after : WorkflowInstance} (hAfter : AttemptsAfter writer before after)
    (h : WithoutInput after slice) : WithoutInput before slice := by
  intro id a ha hMem
  obtain ⟨b, hb, hMoves⟩ := hAfter.kept id a ha
  rw [← hMoves.humanInput]
  exact h id b hb (hMoves.taskDefId ▸ hMem)

/-- A generation whose verifier attempt has begun has completed, but for that
attempt. -/
theorem SliceInv.completed_before (hDef : WellFormedDef definition) (hKeyed : Keyed l.stored)
    (hSlice : (verifierId, slice) ∈ computeLoopSlices definition)
    (h : SliceInv definition l verifierId slice) {judge : TaskInstance}
    (hJudge : l.stored.tasks.lookup (makeTaskAttemptId verifierId generation) = some judge)
    (hBegun : judge.status.hasBegun = true) (hMem : taskId ∈ slice) : taskId = verifierId ∨
    ∃ a, l.stored.tasks.lookup (makeTaskAttemptId taskId generation) = some a ∧
      a.status = .completed := by
  let HasCompletedIn (taskId : String) : Prop := taskId = verifierId ∨ ∃ a,
    l.stored.tasks.lookup (makeTaskAttemptId taskId generation) = some a ∧ a.status = .completed
  have hVerifier : HasCompletedIn verifierId := .inl rfl
  refine hDef.slice_path hSlice hVerifier (fun source target hSource hTarget hEdge hNext => ?_) hMem
  obtain ⟨a, ha, hStarted⟩ : ∃ a, l.stored.tasks.lookup (makeTaskAttemptId target generation) =
      some a ∧ a.status.hasBegun = true := by
    rcases hNext with rfl | ⟨a, ha, hCompleted⟩
    · exact ⟨judge, hJudge, hBegun⟩
    · exact ⟨a, ha, by rw [hCompleted]; rfl⟩
  obtain ⟨hDefId, hGeneration⟩ := makeTaskAttemptId_inj.mp (hKeyed _ a ha)
  have hSources := h.begun _ a ha (hDefId ▸ hTarget) hStarted
  rw [← hDefId, ← hGeneration] at hSources
  exact .inr (hSources source hSource hEdge)

/-- A generation whose verifier attempt has completed has completed. -/
theorem SliceInv.completed_with (hDef : WellFormedDef definition) (hKeyed : Keyed l.stored)
    (hSlice : (verifierId, slice) ∈ computeLoopSlices definition)
    (h : SliceInv definition l verifierId slice) {judge : TaskInstance}
    (hJudge : l.stored.tasks.lookup (makeTaskAttemptId verifierId generation) = some judge)
    (hJudged : judge.status = .completed) (hMem : taskId ∈ slice) :
    ∃ a, l.stored.tasks.lookup (makeTaskAttemptId taskId generation) = some a ∧
      a.status = .completed := by
  rcases h.completed_before hDef hKeyed hSlice hJudge (by rw [hJudged]; rfl) hMem with rfl | hOther
  · exact ⟨judge, hJudge, hJudged⟩
  · exact hOther

/-- A generation that another one follows has completed. -/
theorem SliceInv.completed_below (hDef : WellFormedDef definition) (hKeyed : Keyed l.stored)
    (hSlice : (verifierId, slice) ∈ computeLoopSlices definition)
    (h : SliceInv definition l verifierId slice) {later : Nat}
    (hLater : HasAttempt l.stored verifierId later) (hFirst : 1 ≤ generation)
    (hBelow : generation < later) (hMem : taskId ∈ slice) :
    ∃ a, l.stored.tasks.lookup (makeTaskAttemptId taskId generation) = some a ∧
      a.status = .completed := by
  obtain ⟨judge, hJudge, hRejected⟩ := h.inStep.rejected_below hLater hFirst hBelow
  exact h.completed_with hDef hKeyed hSlice hJudge hRejected.1 hMem

/-- An attempt of a slice that has not completed is of the last generation. -/
theorem SliceInv.last_of_uncompleted (hDef : WellFormedDef definition) (hKeyed : Keyed l.stored)
    (hSlice : (verifierId, slice) ∈ computeLoopSlices definition)
    (h : SliceInv definition l verifierId slice) {id : String} {task : TaskInstance}
    (hTask : l.stored.tasks.lookup id = some task) (hMem : task.taskDefId ∈ slice)
    (hOpen : task.status ≠ .completed) {later : Nat}
    (hLater : HasAttempt l.stored verifierId later) : later ≤ task.generationIndex := by
  by_contra hBelow
  have hAttempt := (h.inStep.aligned _ hMem _).mp (.of_keyed hKeyed hTask)
  have hFirst : 1 ≤ task.generationIndex := by
    rcases Nat.eq_zero_or_pos task.generationIndex with hZero | hPos
    · exact absurd (hZero ▸ hAttempt) h.inStep.numbered
    · exact hPos
  obtain ⟨a, ha, hCompleted⟩ := h.completed_below hDef hKeyed hSlice hLater hFirst
    (Nat.not_le.mp hBelow) hMem
  rw [← hKeyed id task hTask, hTask] at ha
  cases ha
  exact hOpen hCompleted

/-- The latest attempt of a source is of the generation of the attempt that
consumes it. -/
theorem SliceInv.latest_source (hDef : WellFormedDef definition) (hKeyed : Keyed l.stored)
    (hSlice : (verifierId, slice) ∈ computeLoopSlices definition)
    (h : SliceInv definition l verifierId slice) {id sourceId source : String} {task : TaskInstance}
    (hTask : l.stored.tasks.lookup id = some task) (hMem : task.taskDefId ∈ slice)
    (hOpen : task.status ≠ .completed) (hSource : source ∈ slice)
    (hLatest : latestMaterializedAttemptId l.stored source = some sourceId) :
    sourceId = makeTaskAttemptId source task.generationIndex := by
  obtain ⟨found, hFound, rfl, hMax⟩ := latestMaterializedAttemptId_some hLatest
  have hVerifier := (h.inStep.aligned _ hSource _).mp (.of_keyed hKeyed hFound)
  have hUpper := h.last_of_uncompleted hDef hKeyed hSlice hTask hMem hOpen hVerifier
  have hOwn := (h.inStep.aligned _ hSource _).mpr
    ((h.inStep.aligned _ hMem _).mp (.of_keyed hKeyed hTask))
  obtain ⟨own, hOwnTask⟩ := Option.isSome_iff_exists.mp hOwn
  obtain ⟨hDefId, hGeneration⟩ := makeTaskAttemptId_inj.mp (hKeyed _ own hOwnTask)
  have hLower := hMax _ own hOwnTask hDefId.symm
  rw [← hGeneration] at hLower
  rw [hKeyed sourceId found hFound, Nat.le_antisymm hUpper hLower]

/-- What can run finds the sources of its own generation completed. -/
theorem SliceInv.ownSources_of_canRun (hDef : WellFormedDef definition) (hKeyed : Keyed l.stored)
    {loopSlices : LoopSlices} (hSlices : loopSlices.Perm (computeLoopSlices definition))
    (hSlice : (verifierId, slice) ∈ computeLoopSlices definition)
    (h : SliceInv definition l verifierId slice) {id : String} {task : TaskInstance}
    (hTask : l.stored.tasks.lookup id = some task) (hMem : task.taskDefId ∈ slice)
    (hOpen : task.status ≠ .completed)
    (hRun : canRun l.stored definition loopSlices task = true) :
    OwnSources definition l.stored slice task.taskDefId task.generationIndex := by
  intro source hSource hEdge
  obtain ⟨taskDef, hFound, hInputs⟩ := (Option.any_eq_true _ _).mp hRun
  obtain ⟨binding, hBinding, rfl⟩ := edge_binding hEdge
  rw [← (findTask_some hFound).2] at hBinding
  obtain ⟨entry, hEntry⟩ := resolveBinding_of_resolveInputs hInputs hBinding
  obtain ⟨sourceId, found, hId, hFoundTask, hCompleted, _⟩ := resolveBinding_some.mp hEntry
  rw [resolveSourceAttemptId_inside (sliceOf_eq hDef hSlices hSlice hMem) hSource] at hId
  rw [h.latest_source hDef hKeyed hSlice hTask hMem hOpen hSource hId] at hFoundTask
  exact ⟨found, hFoundTask, hCompleted⟩

/-- Every step keeps what is known of a slice without human input. -/
theorem SliceInv.step (hDef : WellFormedDef definition) (hSound : Sound definition l.stored)
    (hSlice : (verifierId, slice) ∈ computeLoopSlices definition)
    (h : WithoutInput l.stored slice → SliceInv definition l verifierId slice)
    (hStep : Lifecycle.Step ext definition l writer l') (hInput : WithoutInput l'.stored slice) :
    SliceInv definition l' verifierId slice := by
  cases hStep with
  | @write _ events plan reduced hWrite hReduce =>
      have hEffect := hWrite.effect hReduce
      have hAfter := hWrite.attemptsAfter hReduce
      have hReduced : WithoutInput reduced slice := hInput
      have hInv := h (hReduced.before hAfter)
      have hInStep := hInv.inStep.of_sliceKeys (hDef.verifier_mem hSlice)
        (fun key a ha hRejected => by
          obtain ⟨b, hb, hKept⟩ := hWrite.completed_kept hReduce ha hRejected.1
          exact ⟨b, hb, hKept ▸ hRejected⟩) (hEffect.sliceKeys hDef hSound.key hSlice hReduced)
      have hSelected := hEffect.selected hDef hSound.key hSlice hInv.inStep hInv.selected
      have hSources {taskId : String} {generation : Nat}
          (h : OwnSources definition l.stored slice taskId generation) : OwnSources definition
            (reduced.withVersion (l.stored.version + events.length)) slice taskId generation := by
        have hReduced := h.write hWrite hReduce
        exact hReduced
      refine ⟨⟨hInStep.aligned, hInStep.numbered, hInStep.rejected⟩, hSelected,
        fun id b hb hMem hBegun => ?_, fun id hMem => ?_⟩
      · have hFound : reduced.tasks.lookup id = some b := hb
        obtain ⟨a, ha, hDefId, hOrigin⟩ := hEffect.begun_origin hAfter hFound hBegun
        obtain ⟨b', hb', hMoves⟩ := hAfter.kept id a ha
        rw [hFound] at hb'
        cases hb'
        rw [hMoves.taskDefId] at hMem ⊢
        rw [hMoves.generationIndex]
        apply hSources
        rcases hOrigin with hOld | hPlanned
        · exact hInv.begun id a ha hMem hOld
        · obtain ⟨planned, hPlannedTask, hOwn⟩ := hInv.planned id hPlanned
          rw [ha] at hPlannedTask
          cases hPlannedTask
          exact hOwn hMem
      · obtain ⟨a, ha, hOwn⟩ := hInv.planned id (hWrite.plan_subset hMem)
        obtain ⟨b, hb, hMoves⟩ := hAfter.kept id a ha
        refine ⟨b, hb, fun hSliceMem => ?_⟩
        rw [hMoves.taskDefId] at hSliceMem ⊢
        rw [hMoves.generationIndex]
        exact hSources (hOwn hSliceMem)
  | @schedule loopSlices ready _ hSlices _ hReady =>
      have hInv := h hInput
      refine ⟨hInv.inStep, hInv.selected, hInv.begun, fun id hMem => ?_⟩
      obtain ⟨task, hTask, hPending, hRun⟩ := mem_tasksToRun hReady hMem
      refine ⟨task, hTask, fun hSliceMem => hInv.ownSources_of_canRun hDef hSound.key hSlices hSlice
        hTask hSliceMem ?_ hRun⟩
      rw [hPending]
      intro hFalse
      cases hFalse

end Step

/-- What every run keeps of the slices without human input. -/
def Generational (definition : WorkflowDef) (l : Lifecycle) : Prop :=
  ∀ verifierId slice, (verifierId, slice) ∈ computeLoopSlices definition →
    WithoutInput l.stored slice → SliceInv definition l verifierId slice

theorem Generational.created (definition : WorkflowDef) (id workflowDefId : String)
    (pinnedWorkerHost : WorkerHostId) (input : Option Json) :
    Generational definition (Lifecycle.created id workflowDefId pinnedWorkerHost input) := by
  intro verifierId slice _ _
  have hNone (key : String) : (Lifecycle.created id workflowDefId pinnedWorkerHost
      input).stored.tasks.lookup key = none := rfl
  have hNever (taskId : String) (generation : Nat) : ¬HasAttempt (Lifecycle.created id workflowDefId
      pinnedWorkerHost input).stored taskId generation := by
    rw [HasAttempt, hNone]
    exact Bool.false_ne_true
  refine ⟨⟨fun taskId _ generation => ?_, hNever _ _, fun generation hAttempt => ?_⟩,
    fun generation judge hJudge _ => ?_, fun key task hTask _ _ => ?_, fun key hMem => ?_⟩
  · exact iff_of_false (hNever _ _) (hNever _ _)
  · exact absurd hAttempt (hNever _ _)
  · rw [hNone] at hJudge
    cases hJudge
  · rw [hNone] at hTask
    cases hTask
  · cases hMem

theorem Generational.step {definition : WorkflowDef} {l l' : Lifecycle} {writer : Writer}
    {ext : Externals} (hDef : WellFormedDef definition) (hSound : Sound definition l.stored)
    (h : Generational definition l) (hStep : Lifecycle.Step ext definition l writer l') :
    Generational definition l' :=
  fun _ _ hSlice hInput => SliceInv.step hDef hSound hSlice (h _ _ hSlice) hStep hInput

end RelayFold
