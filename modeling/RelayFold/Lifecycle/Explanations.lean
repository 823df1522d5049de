import RelayFold.Lifecycle.CalmAttempts

/-! Every completed attempt is explained by the function of the answers: its
output is what the function gives for the inputs that it has recorded and for
the context of its generation. -/
namespace RelayFold

open WorkflowEngine FallibleFold

/-- The feedback of the verifier attempt of one generation. -/
def generationFeedback (workflow : WorkflowInstance) (verifierId : String) (generation : Nat) :
    String :=
  (((workflow.tasks.lookup (makeTaskAttemptId verifierId generation)).bind
    (·.verifierMetadata)).bind (·.feedback)).getD ""

/-- The loop context of an attempt, from the attempts of the generations before
it. -/
def generationContext (workflow : WorkflowInstance) (definition : WorkflowDef) (taskId : String)
    (generation : Nat) : Option LoopExecutionContext := do
  let (verifierId, _) ← sliceOf (computeLoopSlices definition) taskId
  let verifierTask ← definition.findTask verifierId
  let verifier ← taskVerifier verifierTask
  return {
    generation := generation
    maxIterations := verifier.maxIterations
    feedbackHistory := (List.range' 1 (generation - 1)).map fun earlier =>
      ⟨earlier, generationFeedback workflow verifierId earlier⟩
    previousOutput :=
      if generation ≤ 1 then none
      else (workflow.tasks.lookup (makeTaskAttemptId taskId (generation - 1))).bind (·.outputData) }

/-- The two snapshots hold the same attempt, but for its satisfaction. -/
def Agree (one two : WorkflowInstance) (key : String) : Prop :=
  ∃ a b, one.tasks.lookup key = some a ∧ two.tasks.lookup key = some b ∧
    b = { a with satisfactionStatus := b.satisfactionStatus }

section Agree

variable {one two : WorkflowInstance} {definition : WorkflowDef} {key taskId : String}
  {generation : Nat}

theorem Agree.metadata (h : Agree one two key) :
    (two.tasks.lookup key).bind (·.verifierMetadata) =
      (one.tasks.lookup key).bind (·.verifierMetadata) := by
  obtain ⟨a, b, ha, hb, hSame⟩ := h
  rw [ha, hb, hSame]
  rfl

theorem Agree.outputData (h : Agree one two key) :
    (two.tasks.lookup key).bind (·.outputData) = (one.tasks.lookup key).bind (·.outputData) := by
  obtain ⟨a, b, ha, hb, hSame⟩ := h
  rw [ha, hb, hSame]
  rfl

/-- The generations before this one are the same in two snapshots. -/
def AgreeBelow (definition : WorkflowDef) (one two : WorkflowInstance) (taskId : String)
    (generation : Nat) : Prop :=
  ∀ verifierId slice, (verifierId, slice) ∈ computeLoopSlices definition → taskId ∈ slice →
    ∀ other ∈ slice, ∀ earlier, 1 ≤ earlier → earlier < generation →
      Agree one two (makeTaskAttemptId other earlier)

/-- The context of a generation is determined by the generations before it. -/
theorem generationContext_congr (hDef : WellFormedDef definition)
    (h : AgreeBelow definition one two taskId generation) :
    generationContext two definition taskId generation =
      generationContext one definition taskId generation := by
  unfold generationContext
  cases hSlice : sliceOf (computeLoopSlices definition) taskId with
  | none => rfl
  | some entry =>
      obtain ⟨verifierId, slice⟩ := entry
      obtain ⟨hEntry, hMem⟩ := sliceOf_mem hSlice
      have hHistory : ((List.range' 1 (generation - 1)).map fun earlier =>
            LoopFeedbackEntry.mk earlier (generationFeedback two verifierId earlier)) =
          (List.range' 1 (generation - 1)).map fun earlier =>
            LoopFeedbackEntry.mk earlier (generationFeedback one verifierId earlier) := by
        refine List.map_congr_left fun earlier hEarlier => ?_
        obtain ⟨hOne, hBelow⟩ := List.mem_range'_1.mp hEarlier
        have hAgree := h verifierId slice hEntry hMem verifierId (hDef.verifier_mem hEntry) earlier hOne
          (by omega)
        unfold generationFeedback
        rw [hAgree.metadata]
      have hPrevious (hLow : ¬generation ≤ 1) :=
        (h verifierId slice hEntry hMem taskId hMem (generation - 1) (by omega) (by omega)).outputData
      simp only [Option.bind_eq_bind, Option.bind_some, hHistory]
      split
      · rfl
      · rename_i hLow
        rw [hPrevious hLow]

end Agree

/-- The entry of the feedback history that a completed verifier attempt stands
behind. -/
def RecordsEntry (workflow : WorkflowInstance) (verifierId : String) (entry : VerifierFeedbackEntry) :
    Prop :=
  ∃ judge metadata, workflow.tasks.lookup (makeTaskAttemptId verifierId entry.generationIndex) =
    some judge ∧ judge.status = .completed ∧ judge.verifierMetadata = some metadata ∧
    metadata.feedback = some entry.feedback ∧ metadata.verifierOutput = some entry.verifierOutput

/-- The exit reason that goes with a status of a verifier that has not
failed. -/
def statusExitReason : VerifierStateStatus → Option String
  | .accepted => some "complete"
  | .exhaustedAccepted => some "max_iterations_exhausted"
  | _ => none

/-- What the state of a verifier is, by its attempts. -/
structure StateHolds (definition : WorkflowDef) (workflow : WorkflowInstance) (verifierId : String)
    (state : VerifierGenerationState) : Prop where
  verifierTaskId : state.verifierTaskId = verifierId
  rerunStart : ∃ taskDef verifier, definition.findTask verifierId = some taskDef ∧
    taskVerifier taskDef = some verifier ∧
    state.rerunStartTaskId = verifierRerunStartTaskId verifier verifierId
  exitReason : state.exitReason = statusExitReason state.status
  attempted : HasAttempt workflow verifierId state.latestGeneration
  latest : ∀ generation, HasAttempt workflow verifierId generation →
    generation ≤ state.latestGeneration
  entries : ∀ entry ∈ state.feedbackHistory, RecordsEntry workflow verifierId entry

/-- The marks of a generation whose verifier attempt has completed: satisfied,
unless it has been rejected. -/
def Marked (definition : WorkflowDef) (workflow : WorkflowInstance) : Prop :=
  ∀ verifierId slice, (verifierId, slice) ∈ computeLoopSlices definition →
    ∀ generation judge metadata,
      workflow.tasks.lookup (makeTaskAttemptId verifierId generation) = some judge →
      judge.status = .completed → judge.verifierMetadata = some metadata →
      ∀ taskId ∈ slice, ∀ a, workflow.tasks.lookup (makeTaskAttemptId taskId generation) = some a →
        a.satisfactionStatus = if metadata.status = .rejected then .unsatisfied else .satisfied

/-- What every calm run keeps, beside what is known of its attempts. -/
structure Settles (answers : Answers) (definition : WorkflowDef) (workflow : WorkflowInstance) :
    Prop where
  explained : ∀ id a, workflow.tasks.lookup id = some a → a.status = .completed →
    Explained answers definition
      (generationContext workflow definition a.taskDefId a.generationIndex) a
  outside : ∀ id a, workflow.tasks.lookup id = some a → a.status = .completed →
    (∀ entry ∈ computeLoopSlices definition, a.taskDefId ∉ entry.2) →
      a.satisfactionStatus = .satisfied
  marked : Marked definition workflow
  states : ∀ verifierId state, workflow.verifierStates.lookup verifierId = some state →
    ¬state.IsLost → StateHolds definition workflow verifierId state

/-- What is known of the snapshots of a calm run before its answers are looked
at. -/
structure CalmState (definition : WorkflowDef) (input : Option Json) (l : Lifecycle) : Prop where
  sound : Sound definition l.stored
  starts : SliceStarts definition l
  fed : Fed definition l
  generational : Generational definition l
  recorded : RecordedInputs definition l.stored
  verdicts : VerdictsInv definition l.stored
  attempts : CalmAttempts definition input l.stored

section CalmState

variable {answers : Answers} {definition : WorkflowDef} {input : Option Json} {l : Lifecycle}
  {verifierId taskId id : String} {slice : List String} {generation : Nat} {task : TaskInstance}

theorem CalmState.sliceInv (h : CalmState definition input l)
    (hSlice : (verifierId, slice) ∈ computeLoopSlices definition) :
    SliceInv definition l verifierId slice :=
  h.generational verifierId slice hSlice (h.attempts.calm.withoutInput slice)

/-- Every attempt of a slice is of a generation from one on, whose verifier
attempt exists. -/
theorem CalmState.numbered (h : CalmState definition input l)
    (hSlice : (verifierId, slice) ∈ computeLoopSlices definition) (hMem : taskId ∈ slice)
    (hAttempt : HasAttempt l.stored taskId generation) :
    1 ≤ generation ∧ HasAttempt l.stored verifierId generation := by
  have hInStep := (h.sliceInv hSlice).inStep
  have hJudge := (hInStep.aligned taskId hMem generation).mp hAttempt
  refine ⟨?_, hJudge⟩
  rcases Nat.eq_zero_or_pos generation with rfl | hPos
  · exact absurd hJudge hInStep.numbered
  · exact hPos

/-- The generations before an attempt have completed. -/
theorem CalmState.completed_below (h : CalmState definition input l) (hDef : WellFormedDef definition)
    (hSlice : (verifierId, slice) ∈ computeLoopSlices definition) (hMem : taskId ∈ slice)
    (hAttempt : HasAttempt l.stored taskId generation) {other : String} (hOther : other ∈ slice)
    {earlier : Nat} (hFirst : 1 ≤ earlier) (hBelow : earlier < generation) :
    ∃ a, l.stored.tasks.lookup (makeTaskAttemptId other earlier) = some a ∧
      a.status = .completed :=
  (h.sliceInv hSlice).completed_below hDef h.sound.key hSlice (h.numbered hSlice hMem hAttempt).2 hFirst
    hBelow hOther

/-- While an attempt runs, the verifier of its slice has not decided on its
generation. -/
theorem CalmState.undecided (h : CalmState definition input l) (hDef : WellFormedDef definition)
    (hSlice : (verifierId, slice) ∈ computeLoopSlices definition)
    (hTask : l.stored.tasks.lookup id = some task) (hMem : task.taskDefId ∈ slice)
    (hRunning : task.status = .running) : ∃ judge state,
      l.stored.tasks.lookup (makeTaskAttemptId verifierId task.generationIndex) = some judge ∧
      (judge.status = .pending ∨ judge.status = .running) ∧
      l.stored.verifierStates.lookup verifierId = some state ∧ state.status = .running ∧
      HistoryAgrees l.stored verifierId state ∧ IsLatest l.stored verifierId task.generationIndex := by
  have hInv := h.sliceInv hSlice
  have hAttempt := HasAttempt.of_keyed h.sound.key hTask
  obtain ⟨judge, hJudge⟩ := Option.isSome_iff_exists.mp (h.numbered hSlice hMem hAttempt).2
  obtain ⟨state, hState⟩ := Option.isSome_iff_exists.mp
    (h.starts.state_isSome hSlice hTask hMem hRunning)
  have hOpen : judge.status = .pending ∨ judge.status = .running := by
    cases hBegun : judge.status.hasBegun with
    | true =>
        rcases hInv.completed_before hDef h.sound.key hSlice hJudge hBegun hMem with hSame |
          ⟨a, ha, hCompleted⟩
        · rw [← hSame, ← h.sound.key id task hTask, hTask] at hJudge
          cases hJudge
          exact .inr hRunning
        · rw [← h.sound.key id task hTask, hTask] at ha
          cases ha
          rw [hRunning] at hCompleted
          cases hCompleted
    | false =>
        have hCalm := h.attempts.calm _ judge hJudge
        cases hStatus : judge.status with
        | pending => exact .inl rfl
        | skipped => exact absurd hStatus hCalm.skipped
        | _ =>
            rw [hStatus] at hBegun
            cases hBegun
  have hLatest : IsLatest l.stored verifierId task.generationIndex := by
    intro key other hOther
    have hLater := HasAttempt.of_keyed h.sound.key hOther.found
    rw [hOther.taskDefId] at hLater
    refine hInv.last_of_uncompleted hDef h.sound.key hSlice hTask hMem ?_ hLater
    rw [hRunning]
    intro hFalse
    cases hFalse
  obtain ⟨hJudgeDef, hJudgeGeneration⟩ := makeTaskAttemptId_inj.mp (h.sound.key _ judge hJudge)
  have hAgrees := (h.verdicts.verifiers verifierId slice hSlice).agrees state hState
  refine ⟨judge, state, hJudge, hOpen, hState, ?_, hAgrees, hLatest⟩
  apply (hAgrees.latest _ judge ⟨hJudge, hJudgeDef.symm⟩ (hJudgeGeneration ▸ hLatest)).idle
  · rcases hOpen with hOpen | hOpen <;> rw [hOpen] <;> intro hFalse <;> cases hFalse
  · rcases hOpen with hOpen | hOpen <;> rw [hOpen] <;> intro hFalse <;> cases hFalse

/-- A rejected generation has been rejected by a continue decision. -/
theorem verdictMetadata_rejected {verifier : VerifierControlConfig}
    {decided : VerifierExecutionResult}
    (h : (verdictMetadata verifier generation decided).status = .rejected) :
    (verdictMetadata verifier generation decided).decision = some .continue := by
  unfold verdictMetadata at h ⊢
  split
  · rename_i hDecision
    rw [hDecision] at h
    cases h
  · split <;> rfl

theorem Explained.rejected {context : Option LoopExecutionContext} {metadata : VerifierAttemptMetadata}
    (h : Explained answers definition context task) (hMetadata : task.verifierMetadata = some metadata)
    (hRejected : metadata.status = .rejected) : metadata.decision = some .continue := by
  obtain ⟨taskDef, _, output, _, _, _, _, hRecorded⟩ := h
  rw [hMetadata] at hRecorded
  obtain ⟨verifier, _, hRest⟩ := Option.bind_eq_some_iff.mp hRecorded.symm
  obtain ⟨decided, _, hSame⟩ := Option.bind_eq_some_iff.mp hRest
  cases hSame
  exact verdictMetadata_rejected hRejected

/-- The feedback history holds one entry for each earlier generation. -/
theorem CalmState.history (h : CalmState definition input l) (hDef : WellFormedDef definition)
    (hSettles : Settles answers definition l.stored)
    (hSlice : (verifierId, slice) ∈ computeLoopSlices definition)
    (hTask : l.stored.tasks.lookup id = some task) (hMem : task.taskDefId ∈ slice)
    (hRunning : task.status = .running) : ∃ state,
      l.stored.verifierStates.lookup verifierId = some state ∧
      state.feedbackHistory.map (·.generationIndex) = List.range' 1 (task.generationIndex - 1) ∧
      StateHolds definition l.stored verifierId state := by
  obtain ⟨judge, state, hJudge, hOpen, hState, hStatus, hAgrees, hLatest⟩ :=
    h.undecided hDef hSlice hTask hMem hRunning
  have hInStep := (h.sliceInv hSlice).inStep
  have hHolds := hSettles.states verifierId state hState fun hLost => by
    rcases hLost with hLost | hLost <;> rw [hStatus] at hLost <;> cases hLost
  refine ⟨state, hState, hAgrees.increasing.eq_of_mem_iff (List.pairwise_lt_range' 1) fun earlier => ?_,
    hHolds⟩
  rw [List.mem_range'_1]
  constructor
  · intro hEntry
    obtain ⟨entry, hMemEntry, rfl⟩ := List.mem_map.mp hEntry
    obtain ⟨found, _, hFound, hCompleted, _⟩ := hHolds.entries entry hMemEntry
    obtain ⟨hDefId, hGeneration⟩ := makeTaskAttemptId_inj.mp (h.sound.key _ found hFound)
    have hUpper := hLatest _ found ⟨hFound, hDefId.symm⟩
    have hLower := (h.numbered hSlice (hDef.verifier_mem hSlice) (.of_lookup hFound)).1
    rw [← hGeneration] at hUpper
    have hNe : entry.generationIndex ≠ task.generationIndex := by
      intro hSame
      rw [hSame, hJudge] at hFound
      cases hFound
      rw [hCompleted] at hOpen
      rcases hOpen with hOpen | hOpen <;> cases hOpen
    omega
  · rintro ⟨hFirst, hBelow⟩
    obtain ⟨found, hFound, hCompleted, metadata, hMetadata, hRejected⟩ :=
      hInStep.rejected_below (.of_lookup hJudge) hFirst (by omega)
    obtain ⟨hDefId, hGeneration⟩ := makeTaskAttemptId_inj.mp (h.sound.key _ found hFound)
    refine (hAgrees.continued earlier).mpr ⟨_, found, ⟨hFound, hDefId.symm⟩, hGeneration.symm, ?_⟩
    rw [hMetadata]
    exact (hSettles.explained _ found hFound hCompleted).rejected hMetadata hRejected

/-- The feedback of a generation is what the verdict of its attempt has
recorded. -/
theorem RecordsEntry.feedback {workflow : WorkflowInstance} {entry : VerifierFeedbackEntry}
    (h : RecordsEntry workflow verifierId entry) :
    generationFeedback workflow verifierId entry.generationIndex = entry.feedback := by
  obtain ⟨judge, metadata, hJudge, _, hMetadata, hFeedback, _⟩ := h
  unfold generationFeedback
  rw [hJudge, Option.bind_some, hMetadata, Option.bind_some, hFeedback]
  rfl

/-- The context that an attempt is dispatched with is that of its
generation. -/
theorem CalmState.context (h : CalmState definition input l) (hDef : WellFormedDef definition)
    (hSettles : Settles answers definition l.stored) (hTask : l.stored.tasks.lookup id = some task)
    (hRunning : task.status = .running) : loopExecutionContext l.stored definition task =
      generationContext l.stored definition task.taskDefId task.generationIndex := by
  unfold loopExecutionContext generationContext
  cases hOf : sliceOf (computeLoopSlices definition) task.taskDefId with
  | none => rfl
  | some entry =>
      obtain ⟨verifierId, slice⟩ := entry
      obtain ⟨hSlice, hMem⟩ := sliceOf_mem hOf
      obtain ⟨state, hState, hGenerations, hHolds⟩ :=
        h.history hDef hSettles hSlice hTask hMem hRunning
      have hHistory : state.feedbackHistory.map (fun entry =>
            LoopFeedbackEntry.mk entry.generationIndex entry.feedback) =
          (List.range' 1 (task.generationIndex - 1)).map fun earlier =>
            LoopFeedbackEntry.mk earlier (generationFeedback l.stored verifierId earlier) := by
        rw [← hGenerations, List.map_map]
        refine List.map_congr_left fun entry hEntry => ?_
        rw [Function.comp_apply, (hHolds.entries entry hEntry).feedback]
      have hFirst := (h.numbered hSlice hMem (.of_keyed h.sound.key hTask)).1
      have hPrevious : (if task.generationIndex = 0 then none else (l.stored.tasks.lookup
            (makeTaskAttemptId task.taskDefId (task.generationIndex - 1))).bind (·.outputData)) =
          if task.generationIndex ≤ 1 then none else (l.stored.tasks.lookup
            (makeTaskAttemptId task.taskDefId (task.generationIndex - 1))).bind (·.outputData) := by
        rw [if_neg (Nat.ne_of_gt hFirst)]
        split
        · rename_i hOne
          have hNone : l.stored.tasks.lookup (makeTaskAttemptId task.taskDefId 0) = none := by
            rw [← Option.not_isSome_iff_eq_none]
            intro hZero
            exact absurd (h.numbered hSlice hMem hZero).1 (Nat.not_succ_le_zero 0)
          rw [Nat.sub_eq_zero_of_le hOne, hNone]
          rfl
        · rfl
      simp only [Option.bind_eq_bind, Option.bind_some, hState, Option.map_some, Option.getD_some,
        hHistory, hPrevious]

end CalmState

section Commit

variable {answers : Answers} {definition : WorkflowDef} {input : Option Json} {l : Lifecycle}
  {writer : Writer} {ext : Externals} {events : List WorkflowInstanceEvent} {planned plan : List String}
  {reduced : WorkflowInstance} {verifierId taskId id : String} {slice : List String}
  {generation : Nat} {a b : TaskInstance}

/-- A commit keeps the generations before an attempt. -/
theorem CalmState.agreeBelow (h : CalmState definition input l) (hDef : WellFormedDef definition)
    (hWrite : Write ext definition ⟨l.stored, planned⟩ writer events plan)
    (hReduce : reduceWorkflowInstanceEvents (some l.stored) events = .ok reduced)
    (hAttempt : HasAttempt l.stored taskId generation) :
    AgreeBelow definition l.stored reduced taskId generation := by
  intro verifierId slice hSlice hMem other hOther earlier hFirst hBelow
  obtain ⟨a, ha, hCompleted⟩ := h.completed_below hDef hSlice hMem hAttempt hOther hFirst hBelow
  obtain ⟨b, hb, hKept⟩ := hWrite.completed_kept hReduce ha hCompleted
  exact ⟨a, b, ha, hb, hKept⟩

/-- What is completed after a commit was completed before, or the commit has
completed it. -/
theorem CalmChange.completed_origin {key : String} (h : CalmChange answers definition l.stored key b)
    (hCompleted : b.status = .completed) :
    (∃ a, l.stored.tasks.lookup key = some a ∧ a.status = .completed) ∨
      ∃ a, l.stored.tasks.lookup key = some a ∧ a.status = .running ∧
        CompletedAs answers definition l.stored a b := by
  cases h with
  | unrecorded ha hTask =>
      cases hTask with
      | same => exact .inl ⟨b, ha, hCompleted⟩
      | started | retried | recovered => cases hCompleted
  | first _ hb =>
      subst hb
      cases hCompleted
  | fresh _ _ _ _ _ hb =>
      subst hb
      cases hCompleted
  | @marked a _ ha hb _ =>
      subst hb
      exact .inl ⟨a, ha, hCompleted⟩
  | failed _ _ hStatus _ _ =>
      rw [hStatus] at hCompleted
      cases hCompleted
  | completed ha hRunning hOwn => exact .inr ⟨_, ha, hRunning, hOwn⟩

/-- A mark that is set on an attempt does not change how its output is
explained. -/
theorem Explained.of_kept {context : Option LoopExecutionContext}
    (h : Explained answers definition context a)
    (hKept : b = { a with satisfactionStatus := b.satisfactionStatus }) :
    Explained answers definition context b := by
  rw [hKept]
  exact h

/-- Every commit keeps what is completed explained, and what it completes is
explained. -/
theorem Settles.explained_commit (hDef : WellFormedDef definition) (h : CalmState definition input l)
    (hSettles : Settles answers definition l.stored)
    (hWrite : Write ext definition ⟨l.stored, planned⟩ writer events plan)
    (hReduce : reduceWorkflowInstanceEvents (some l.stored) events = .ok reduced)
    (hCommit : CalmCommit answers ext definition l.stored reduced)
    (hb : reduced.tasks.lookup id = some b) (hCompleted : b.status = .completed) :
    Explained answers definition
      (generationContext reduced definition b.taskDefId b.generationIndex) b := by
  have hContext {a : TaskInstance} (ha : l.stored.tasks.lookup id = some a)
      (hDefId : b.taskDefId = a.taskDefId) (hGeneration : b.generationIndex = a.generationIndex) :
      generationContext reduced definition b.taskDefId b.generationIndex =
        generationContext l.stored definition a.taskDefId a.generationIndex := by
    rw [hDefId, hGeneration]
    exact generationContext_congr hDef
      (h.agreeBelow hDef hWrite hReduce (.of_keyed h.sound.key ha))
  rcases (hCommit.change hDef hb).completed_origin hCompleted with ⟨a, ha, hOld⟩ |
    ⟨a, ha, hRunning, hOwn⟩
  · obtain ⟨b', hb', hKept⟩ := hWrite.completed_kept hReduce ha hOld
    rw [hb] at hb'
    cases hb'
    have hNames : b.taskDefId = a.taskDefId ∧ b.generationIndex = a.generationIndex := by
      rw [hKept]
      exact ⟨rfl, rfl⟩
    rw [hContext ha hNames.1 hNames.2]
    exact (hSettles.explained id a ha hOld).of_kept hKept
  · rw [hContext ha hOwn.taskDefId hOwn.generationIndex, ← h.context hDef hSettles ha hRunning]
    have hBlank := h.attempts.blank id a ha (.inr hRunning)
    exact hOwn.explained hBlank.1 hBlank.2

/-- A completed attempt outside every slice is explained by the answers, from
the commit on that has completed it. -/
theorem Settles.outside_commit (hDef : WellFormedDef definition) (h : CalmState definition input l)
    (hSettles : Settles answers definition l.stored)
    (hWrite : Write ext definition ⟨l.stored, planned⟩ writer events plan)
    (hReduce : reduceWorkflowInstanceEvents (some l.stored) events = .ok reduced)
    (hCommit : CalmCommit answers ext definition l.stored reduced)
    (hb : reduced.tasks.lookup id = some b) (hCompleted : b.status = .completed)
    (hOutside : ∀ entry ∈ computeLoopSlices definition, b.taskDefId ∉ entry.2) :
    b.satisfactionStatus = .satisfied := by
  rcases (hCommit.change hDef hb).completed_origin hCompleted with ⟨a, ha, hOld⟩ |
    ⟨a, ha, _, hOwn⟩
  · obtain ⟨b', hb', hKept⟩ := hWrite.completed_kept hReduce ha hOld
    rw [hb] at hb'
    cases hb'
    have hDefId : b.taskDefId = a.taskDefId := by rw [hKept]
    rw [hDefId] at hOutside
    have hSatisfied := hSettles.outside id a ha hOld hOutside
    rw [hWrite.satisfied_kept hDef hReduce h.sound.key h.fed.earned ha hOld hSatisfied] at hb
    cases hb
    exact hSatisfied
  · rw [hOwn.taskDefId] at hOutside
    exact hOwn.outside hOutside

/-- The mark of an attempt whose key is among those of the generation. -/
theorem marked_sliceMark {satisfaction : TaskSatisfactionStatus} (hMem : taskId ∈ slice) :
    (a.marked (sliceMark slice generation satisfaction
      (makeTaskAttemptId taskId generation))).satisfactionStatus = satisfaction := by
  unfold sliceMark
  rw [if_pos (List.mem_map_of_mem hMem)]
  rfl

/-- A verdict marks its generation. -/
theorem CalmVerdict.marks {before after : WorkflowInstance} {completed : TaskInstance}
    {metadata : VerifierAttemptMetadata}
    (h : CalmVerdict before after slice id generation completed metadata) (hMem : taskId ∈ slice)
    (hFree : before.tasks.lookup (makeTaskAttemptId taskId generation) ≠ none)
    (ha : after.tasks.lookup (makeTaskAttemptId taskId generation) = some a) :
    a.satisfactionStatus = if metadata.status = .rejected then .unsatisfied else .satisfied := by
  obtain ⟨old, hOld⟩ := Option.ne_none_iff_exists'.mp hFree
  have hMarks {satisfaction : TaskSatisfactionStatus}
      {created : String → Option TaskInstance → Prop}
      (hEffect : DecisionEffect before after id
        (judged metadata (sliceMark slice generation satisfaction id) completed) false
        (sliceMark slice generation satisfaction) created) : a.satisfactionStatus = satisfaction := by
    by_cases hKey : makeTaskAttemptId taskId generation = id
    · rw [hKey, hEffect.own] at ha
      cases ha
      rw [← hKey]
      exact marked_sliceMark hMem
    · rw [hEffect.kept _ old hKey hOld] at ha
      cases ha
      exact marked_sliceMark hMem
  cases h with
  | accepted hStatus hEffect => rw [if_neg hStatus, hMarks hEffect]
  | rejected hStatus hEffect => rw [if_pos hStatus, hMarks hEffect]

/-- What a commit that completes a verifier attempt has done. -/
theorem CalmCommit.verdict (hDef : WellFormedDef definition) (hKeyed : Keyed l.stored)
    (hSlice : (verifierId, slice) ∈ computeLoopSlices definition)
    (h : CalmCommit answers ext definition l.stored reduced) {judge own : TaskInstance}
    (hJudge : l.stored.tasks.lookup (makeTaskAttemptId verifierId generation) = some judge)
    (hRunning : judge.status = .running)
    (hOwn : reduced.tasks.lookup (makeTaskAttemptId verifierId generation) = some own)
    (hCompleted : own.status = .completed) : ∃ completed metadata,
      CalmVerdict l.stored reduced slice (makeTaskAttemptId verifierId generation) generation completed
        metadata ∧ own.verifierMetadata = some metadata := by
  cases h with
  | unrecorded h =>
      obtain ⟨b, hb, hTask⟩ := h.kept _ judge hJudge
      rw [hOwn] at hb
      cases hb
      cases hTask with
      | same =>
          rw [hRunning] at hCompleted
          cases hCompleted
      | started | retried | recovered => cases hCompleted
  | @answered loopSlices id task taskDef inputs answer _ hSlices hTask hFound _ _ _ hOutcome =>
      have hKey {own' : TaskInstance} {mark : String → Option TaskSatisfactionStatus}
          {created : String → Option TaskInstance → Prop}
          (hEffect : DecisionEffect l.stored reduced id own' false mark created) :
          makeTaskAttemptId verifierId generation = id := by
        by_contra hOther
        have hKept := hEffect.kept _ judge hOther hJudge
        rw [hOwn, TaskInstance.afterExit_false] at hKept
        cases hKept
        rw [show judge.status = .completed from hCompleted] at hRunning
        cases hRunning
      have hNames {own' : TaskInstance} {mark : String → Option TaskSatisfactionStatus}
          {created : String → Option TaskInstance → Prop}
          (hEffect : DecisionEffect l.stored reduced id own' false mark created) :
          taskDef.id = verifierId ∧ task.generationIndex = generation ∧ own = own' := by
        have hSame := hKey hEffect
        obtain ⟨hDefId, hGeneration⟩ := makeTaskAttemptId_inj.mp (hSame.trans (hKeyed id task hTask))
        rw [hSame, hEffect.own] at hOwn
        cases hOwn
        exact ⟨(findTask_some hFound).2.trans hDefId.symm, hGeneration.symm, rfl⟩
      cases hOutcome with
      | failed hEffect _ hStatus _ _ _ =>
          obtain ⟨_, _, rfl⟩ := hNames hEffect
          rw [hCompleted] at hStatus
          cases hStatus
      | plain hPlain hEffect _ _ =>
          obtain ⟨hId, _, _⟩ := hNames hEffect
          obtain ⟨found, verifier, hVerifierTask, hVerifier, _⟩ := hDef.slice_verifier hSlice
          rw [← hId, (findTask_some hFound).2, hFound] at hVerifierTask
          cases hVerifierTask
          rw [hPlain] at hVerifier
          cases hVerifier
      | judged hVerifier _ hVerdict _ _ _ _ =>
          have hOwnSlice := hDef.verdict_slice hSlices hFound (by rw [hVerifier]; rfl)
          have hEffects := hVerdict
          cases hEffects with
          | accepted _ hEffect | rejected _ hEffect =>
              have hSame := hKey hEffect
              obtain ⟨rfl, rfl, rfl⟩ := hNames hEffect
              rw [hDef.slice_unique hSlice hOwnSlice] at hVerdict
              rw [hSame]
              exact ⟨_, _, hVerdict, rfl⟩

/-- No attempt of a generation that has been rejected is satisfied after a
commit. -/
theorem CalmState.not_satisfied (hDef : WellFormedDef definition) (h : CalmState definition input l)
    (hWrite : Write ext definition ⟨l.stored, planned⟩ writer events plan)
    (hReduce : reduceWorkflowInstanceEvents (some l.stored) events = .ok reduced)
    (hSlice : (verifierId, slice) ∈ computeLoopSlices definition) {judge : TaskInstance}
    {metadata : VerifierAttemptMetadata}
    (hJudge : reduced.tasks.lookup (makeTaskAttemptId verifierId generation) = some judge)
    (hMetadata : judge.verifierMetadata = some metadata) (hRejected : metadata.status = .rejected)
    (hMem : taskId ∈ slice)
    (hb : reduced.tasks.lookup (makeTaskAttemptId taskId generation) = some b) :
    b.satisfactionStatus ≠ .satisfied := by
  intro hSatisfied
  have hEarned := Earned.write (l := ⟨l.stored, planned⟩) hDef h.fed.earned h.sound hWrite hReduce
  obtain ⟨hDefId, hGeneration⟩ :=
    makeTaskAttemptId_inj.mp ((hWrite.sound hReduce h.sound).key _ b hb)
  obtain ⟨found, hFound, _, recorded, hRecorded, hAccepted⟩ :=
    hEarned _ _ hSlice _ b hb (hDefId ▸ hMem) hSatisfied
  rw [← hGeneration, hJudge] at hFound
  cases hFound
  rw [hMetadata] at hRecorded
  cases hRecorded
  rw [hRejected] at hAccepted
  rcases hAccepted with hAccepted | hAccepted <;> cases hAccepted

/-- A completed attempt that is unsatisfied stays so, unless it is
satisfied. -/
theorem CalmChange.unsatisfied {key : String} (h : CalmChange answers definition l.stored key b)
    (ha : l.stored.tasks.lookup key = some a) (hOld : a.status = .completed)
    (hMark : a.satisfactionStatus = .unsatisfied) (hCompleted : b.status = .completed)
    (hNot : b.satisfactionStatus ≠ .satisfied) : b.satisfactionStatus = .unsatisfied := by
  cases h with
  | unrecorded ha' hTask =>
      rw [ha] at ha'
      cases ha'
      cases hTask with
      | same => exact hMark
      | started | retried | recovered => cases hCompleted
  | first _ hInitial =>
      subst hInitial
      cases hCompleted
  | fresh _ _ _ hNone _ _ =>
      rw [ha] at hNone
      cases hNone
  | marked ha' hMarked hMarks =>
      rw [ha] at ha'
      cases ha'
      rw [hMarked] at hNot ⊢
      rcases hMarks with rfl | rfl | rfl
      · exact hMark
      · rfl
      · exact absurd rfl hNot
  | failed _ _ hFailed _ _ =>
      rw [hCompleted] at hFailed
      cases hFailed
  | completed ha' hRunning _ =>
      rw [ha] at ha'
      cases ha'
      rw [hOld] at hRunning
      cases hRunning

/-- Every commit keeps the marks of the generations that have been judged. -/
theorem Settles.marked_commit (hDef : WellFormedDef definition) (h : CalmState definition input l)
    (hSettles : Settles answers definition l.stored)
    (hWrite : Write ext definition ⟨l.stored, planned⟩ writer events plan)
    (hReduce : reduceWorkflowInstanceEvents (some l.stored) events = .ok reduced)
    (hCommit : CalmCommit answers ext definition l.stored reduced) : Marked definition reduced := by
  intro verifierId slice hSlice generation judge metadata hJudge hJudged hMetadata taskId hMem b hb
  rcases (hCommit.change hDef hJudge).completed_origin hJudged with ⟨old, hOld, hOldJudged⟩ |
    ⟨old, hOld, hRunning, _⟩
  · obtain ⟨judge', hJudge', hKept⟩ := hWrite.completed_kept hReduce hOld hOldJudged
    rw [hJudge] at hJudge'
    cases hJudge'
    have hOldMetadata : old.verifierMetadata = some metadata := by
      rw [← hMetadata, hKept]
    obtain ⟨a, ha, hCompleted⟩ :=
      (h.sliceInv hSlice).completed_with hDef h.sound.key hSlice hOld hOldJudged hMem
    have hMark := hSettles.marked _ _ hSlice _ old metadata hOld hOldJudged hOldMetadata _ hMem a ha
    by_cases hRejected : metadata.status = .rejected
    · rw [if_pos hRejected] at hMark ⊢
      obtain ⟨b', hb', hKeptTask⟩ := hWrite.completed_kept hReduce ha hCompleted
      rw [hb] at hb'
      cases hb'
      refine (hCommit.change hDef hb).unsatisfied ha hCompleted hMark ?_
        (h.not_satisfied hDef hWrite hReduce hSlice hJudge hMetadata hRejected hMem hb)
      rw [hKeptTask]
      exact hCompleted
    · rw [if_neg hRejected] at hMark ⊢
      rw [hWrite.satisfied_kept hDef hReduce h.sound.key h.fed.earned ha hCompleted hMark] at hb
      cases hb
      exact hMark
  · obtain ⟨completed, recorded, hVerdict, hRecorded⟩ :=
      hCommit.verdict hDef h.sound.key hSlice hOld hRunning hJudge hJudged
    rw [hMetadata] at hRecorded
    cases hRecorded
    refine hVerdict.marks hMem (fun hNone => ?_) hb
    have hAligned := ((h.sliceInv hSlice).inStep.aligned taskId hMem generation).mpr (.of_lookup hOld)
    rw [HasAttempt, hNone] at hAligned
    cases hAligned

end Commit

end RelayFold
