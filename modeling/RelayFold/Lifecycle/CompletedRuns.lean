import RelayFold.Lifecycle.Agreement
import RelayFold.Lifecycle.ExitCompletion
import RelayFold.Lifecycle.PassOutcomes

/-! A calm workflow that has completed is determined by its definition, its
input and the answers. -/
namespace RelayFold

open WorkflowEngine FallibleFold

/-- Every task has an attempt, every attempt has completed, and every verifier
has accepted. -/
structure AllDone (definition : WorkflowDef) (workflow : WorkflowInstance) : Prop where
  present : TasksInitialized definition workflow
  completed : ∀ id a, workflow.tasks.lookup id = some a → a.status = .completed
  accepted : ∀ verifierId state, workflow.verifierStates.lookup verifierId = some state →
    state.status = .accepted ∨ state.status = .exhaustedAccepted

section Done

variable {definition : WorkflowDef} {input : Option Json} {l : Lifecycle} {writer : Writer}
  {ext : Externals} {events : List WorkflowInstanceEvent} {planned plan : List String}
  {workflow reduced : WorkflowInstance}

/-- Whether all tasks are done depends on attempts and verifier states only. -/
theorem AllDone.congr (h : AllDone definition workflow)
    (hTasks : ∀ key, reduced.tasks.lookup key = workflow.tasks.lookup key)
    (hStates : SameStates workflow reduced) : AllDone definition reduced := by
  refine ⟨fun taskDef hMem => ?_, fun id a ha => h.completed id a (hTasks id ▸ ha),
    fun verifierId state hState => h.accepted verifierId state (hStates verifierId ▸ hState)⟩
  rw [hTasks]
  exact h.present taskDef hMem

/-- When the engine finds a calm workflow completed, everything is done. -/
theorem CalmState.allDone (hDef : WellFormedDef definition) (h : CalmState definition input l)
    (hKnown : KnownTasks definition l.stored)
    (hAll : workflowAllCompleted l.stored definition = true) : AllDone definition l.stored := by
  obtain ⟨hTasks, hStates⟩ := workflowAllCompleted_iff.mp hAll
  have hLatest {taskDef : TaskDef} (hMem : taskDef ∈ definition.tasks) : ∃ id task,
      IsAttempt l.stored taskDef.id id task ∧ IsLatest l.stored taskDef.id task.generationIndex ∧
      task.status = .completed := by
    obtain ⟨id, task, hId, hTask, hStatus⟩ := hTasks taskDef hMem
    obtain ⟨found, hFound, hDefId, hMax⟩ := latestMaterializedAttemptId_some hId
    rw [hTask] at hFound
    cases hFound
    exact ⟨id, task, ⟨hTask, hDefId⟩,
      fun key other hOther => hMax key other hOther.found hOther.taskDefId,
      hStatus.resolve_right (h.attempts.calm id task hTask).skipped⟩
  refine ⟨fun taskDef hMem => ?_, fun id a ha => ?_, fun verifierId state hState => ?_⟩
  · obtain ⟨id, task, hTask, _⟩ := hLatest hMem
    exact h.sound.initialized (FiniteMap.isEmpty_eq_false_of_lookup _ hTask.found) taskDef hMem
  · obtain ⟨taskDef, hFound⟩ := hKnown.findTask ha
    obtain ⟨hMem, hId⟩ := findTask_some hFound
    obtain ⟨last, task, hTask, hLast, hCompleted⟩ := hLatest hMem
    have hDefId := hTask.taskDefId.trans hId
    have hKey := h.sound.key id a ha
    rcases Nat.eq_or_lt_of_le (hLast id a ⟨ha, hId.symm⟩) with hSame | hBelow
    · rw [hKey, ← hDefId, hSame, ← h.sound.key last task hTask.found, hTask.found] at ha
      cases ha
      exact hCompleted
    · by_cases hInside : ∃ entry ∈ computeLoopSlices definition, a.taskDefId ∈ entry.2
      · obtain ⟨⟨verifierId, slice⟩, hSlice, hOwn⟩ := hInside
        obtain ⟨found, hEarlier, hDone⟩ := h.completed_below hDef hSlice (hDefId ▸ hOwn)
          (.of_keyed h.sound.key hTask.found) hOwn
          (h.numbered hSlice hOwn (.of_keyed h.sound.key ha)).1 hBelow
        rw [← hKey, ha] at hEarlier
        cases hEarlier
        exact hDone
      · have hAlone (entry) (hEntry : entry ∈ computeLoopSlices definition) : a.taskDefId ∉ entry.2 :=
          fun hOwn => hInside ⟨entry, hEntry, hOwn⟩
        rw [h.attempts.single id a ha hAlone,
          h.attempts.single last task hTask.found (hDefId ▸ hAlone)] at hBelow
        exact absurd hBelow (Nat.lt_irrefl 1)
  · rcases hStates verifierId state hState with hStatus | hStatus | ⟨_, slice, _, hInterrupted⟩
    · exact .inl hStatus
    · exact .inr hStatus
    · obtain ⟨id, task, hTask, _, hSkipped | hExits⟩ := sliceInterruptedByExit_iff.mp hInterrupted
      · exact absurd hSkipped (h.attempts.calm id task hTask).skipped
      · rw [(h.attempts.calm id task hTask).exits] at hExits
        cases hExits

/-- A workflow is completed by a pass that finds everything completed, and a
recovery leaves it so. -/
theorem Write.completes (hWrite : Write ext definition l writer events plan)
    (hReduce : reduceWorkflowInstanceEvents (some l.stored) events = .ok reduced)
    (hCompleted : reduced.status = .completed) :
    (workflowAllCompleted l.stored definition = true ∧
      (∀ key, reduced.tasks.lookup key = l.stored.tasks.lookup key) ∧ SameStates l.stored reduced) ∨
    (l.stored.status = .completed ∧ writer = .recovery) := by
  have hEffect := reduceWorkflowInstanceEvents_effected hReduce
  have hWorking (hStatus : l.stored.status = .running ∨ l.stored.status = .paused)
      (hKept : reduced.status = l.stored.status) : False := by
    rw [hKept] at hCompleted
    rcases hStatus with hStatus | hStatus <;> rw [hCompleted] at hStatus <;> cases hStatus
  rw [hEffect.status] at hCompleted
  cases hWrite with
  | begin _ | pause _ | resume _ | hostLost _ | humanInput _ _ _ _ _ | retry | forceRetry =>
      cases hCompleted
  | complete _ hAll =>
      cases reduce_single hReduce
      exact .inl ⟨hAll, fun _ => rfl, fun _ => rfl⟩
  | initialTasks hStatus _ =>
      refine (hWorking (.inl hStatus) ?_).elim
      rw [hEffect.status, foldl_statusEffect_of_work (by simp [initialTaskEvents,
        WorkflowInstanceEvent.isWork])]
  | initialGenerations hStatus hTasks hSlices =>
      exact (hWorking (.inl hStatus) (initialGenerations_after hTasks hSlices hReduce).status).elim
  | start hStatus _ _ _ => exact (hWorking (.inl hStatus) hEffect.status).elim
  | inputFailure _ _ _ _ _ =>
      rw [(@failureEvents_result l.stored _ _).status_eq (by simp [failureEvents, failTaskEvents])]
        at hCompleted
      cases hCompleted
  | @result loopSlices started answer result hStatus _ _ _ hResult =>
      by_cases hNext : result.next = .checkPause none
      · refine (hWorking hStatus ?_).elim
        rw [hEffect.status, foldl_statusEffect_of_work (hResult.goesOn hNext).1]
      · rw [hResult.result.status_eq (hResult.ends hNext)] at hCompleted
        cases hResult <;> cases hCompleted
  | recover _ =>
      refine .inr ⟨?_, rfl⟩
      simp only [List.foldl_cons, List.foldl_nil, WorkflowInstanceEvent.statusEffect] at hCompleted
      split at hCompleted
      · cases hCompleted
      · exact hCompleted

/-- Once a workflow is completed, everything stays done. -/
theorem AllDone.write (hDef : WellFormedDef definition) (h : CalmState definition input l)
    (hKnown : KnownTasks definition l.stored)
    (hDone : l.stored.status = .completed → AllDone definition l.stored)
    (hWrite : Write ext definition ⟨l.stored, planned⟩ writer events plan)
    (hReduce : reduceWorkflowInstanceEvents (some l.stored) events = .ok reduced)
    (hCompleted : reduced.status = .completed) : AllDone definition reduced := by
  rcases hWrite.completes hReduce hCompleted with ⟨hAll, hTasks, hStates⟩ | ⟨hOld, rfl⟩
  · exact (h.allDone hDef hKnown hAll).congr hTasks hStates
  · have hBefore := hDone hOld
    cases hWrite.effect hReduce with
    | status _ hTasks hStates => exact hBefore.congr (fun key => by rw [hTasks]) hStates
    | recover hTasks hStates =>
        refine hBefore.congr (fun key => ?_) hStates
        rw [hTasks]
        split
        · cases ha : l.stored.tasks.lookup key with
          | none => rfl
          | some a =>
              have hSettled : a.status ≠ .running := by
                rw [hBefore.completed key a ha]
                intro hFalse
                cases hFalse
              rw [Option.map_some, TaskInstance.recovered, if_neg hSettled]
        · rfl

end Done

/-- A calm workflow that has completed. -/
structure CalmEnd (answers : Answers) (definition : WorkflowDef) (input : Option Json)
    (l : Lifecycle) : Prop where
  state : CalmState definition input l
  settles : Settles answers definition l.stored
  known : KnownTasks definition l.stored
  done : AllDone definition l.stored

section End

variable {answers : Answers} {definition : WorkflowDef} {input : Option Json} {l r : Lifecycle}
  {verifierId taskId key : String} {slice : List String} {generation : Nat} {a c : TaskInstance}
  {state : VerifierGenerationState}

/-- At a calm end an attempt under its id is an attempt of that task and that
generation. -/
theorem CalmEnd.isAttempt (h : CalmEnd answers definition input l)
    (ha : l.stored.tasks.lookup (makeTaskAttemptId taskId generation) = some a) :
    IsAttempt l.stored taskId (makeTaskAttemptId taskId generation) a ∧
      a.generationIndex = generation := by
  obtain ⟨hDefId, hGeneration⟩ := makeTaskAttemptId_inj.mp (h.state.sound.key _ a ha)
  exact ⟨⟨ha, hDefId.symm⟩, hGeneration.symm⟩

/-- Every verifier has a state. -/
theorem CalmEnd.state_isSome (hDef : WellFormedDef definition) (h : CalmEnd answers definition input l)
    (hSlice : (verifierId, slice) ∈ computeLoopSlices definition) :
    ∃ state, l.stored.verifierStates.lookup verifierId = some state := by
  obtain ⟨found, _, hFound, _⟩ := hDef.slice_verifier hSlice
  obtain ⟨hMem, hId⟩ := findTask_some hFound
  obtain ⟨a, ha⟩ := Option.isSome_iff_exists.mp (h.done.present found hMem)
  rw [hId] at ha
  cases hState : l.stored.verifierStates.lookup verifierId with
  | some state => exact ⟨state, rfl⟩
  | none =>
      have hOwn : a.taskDefId ∈ slice := (h.isAttempt ha).1.taskDefId ▸ hDef.verifier_mem hSlice
      have hCompleted := h.done.completed _ a ha
      rcases (h.state.starts.unstarted _ _ hSlice hState).status ha hOwn with hStatus | hStatus <;>
        rw [hCompleted] at hStatus <;> cases hStatus

/-- The states of the verifiers at the end are explained by the attempts of the
verifiers. -/
theorem CalmEnd.holds (h : CalmEnd answers definition input l)
    (hState : l.stored.verifierStates.lookup verifierId = some state) :
    StateHolds definition l.stored verifierId state := by
  refine h.settles.states verifierId state hState fun hLost => ?_
  rcases h.done.accepted verifierId state hState with hStatus | hStatus <;>
    rcases hLost with hLost | hLost <;> rw [hStatus] at hLost <;> cases hLost

/-- The state of a verifier selects its last attempt, which bears its
status. -/
theorem CalmEnd.selects (h : CalmEnd answers definition input l)
    (hSlice : (verifierId, slice) ∈ computeLoopSlices definition)
    (hState : l.stored.verifierStates.lookup verifierId = some state) : ∃ judge,
      l.stored.tasks.lookup (makeTaskAttemptId verifierId state.latestGeneration) = some judge ∧
      (state.status = .accepted ∧ Selects state judge .accepted ∨
        state.status = .exhaustedAccepted ∧ Selects state judge .exhaustedAccepted) := by
  have hHolds := h.holds hState
  obtain ⟨judge, hJudge⟩ := Option.isSome_iff_exists.mp hHolds.attempted
  obtain ⟨hAttempt, hGeneration⟩ := h.isAttempt hJudge
  have hReflects : Reflects state judge := by
    refine ((h.state.verdicts.verifiers _ _ hSlice).agrees state hState).latest _ judge hAttempt
      fun id task hTask => ?_
    rw [hGeneration]
    refine hHolds.latest _ ?_
    rw [← hTask.taskDefId]
    exact .of_keyed h.state.sound.key hTask.found
  refine ⟨judge, hJudge, ?_⟩
  rcases h.done.accepted verifierId state hState with hStatus | hStatus
  · exact .inl ⟨hStatus, hReflects.accepted.mp hStatus⟩
  · exact .inr ⟨hStatus, hReflects.exhaustedAccepted.mp hStatus⟩

/-- An attempt that a state selects carries a verdict of the matching
status. -/
theorem Selects.metadata_some {status : VerifierAttemptStatus} (h : Selects state a status) :
    ∃ metadata, a.verifierMetadata = some metadata ∧ metadata.status = status :=
  Option.map_eq_some_iff.mp h.metadata

/-- At the end the last generation of every slice has been accepted by its
verifier. -/
theorem CalmEnd.last_accepted (h : CalmEnd answers definition input l)
    (hSlice : (verifierId, slice) ∈ computeLoopSlices definition)
    (hState : l.stored.verifierStates.lookup verifierId = some state) : ∃ judge,
      l.stored.tasks.lookup (makeTaskAttemptId verifierId state.latestGeneration) = some judge ∧
      HasAccepted judge := by
  obtain ⟨judge, hJudge, ⟨_, hSelects⟩ | ⟨_, hSelects⟩⟩ := h.selects hSlice hState
  · obtain ⟨metadata, hMetadata, hStatus⟩ := hSelects.metadata_some
    exact ⟨judge, hJudge, hSelects.completed, metadata, hMetadata, .inl hStatus⟩
  · obtain ⟨metadata, hMetadata, hStatus⟩ := hSelects.metadata_some
    exact ⟨judge, hJudge, hSelects.completed, metadata, hMetadata, .inr hStatus⟩

/-- The verifier has an attempt of every generation up to the one that its
state selects. -/
theorem CalmEnd.attempts (h : CalmEnd answers definition input l)
    (hSlice : (verifierId, slice) ∈ computeLoopSlices definition)
    (hState : l.stored.verifierStates.lookup verifierId = some state) (hFirst : 1 ≤ generation)
    (hLast : generation ≤ state.latestGeneration) :
    ∃ judge metadata, l.stored.tasks.lookup (makeTaskAttemptId verifierId generation) = some judge ∧
      judge.verifierMetadata = some metadata := by
  obtain ⟨judge, hJudge, _, metadata, hMetadata, _⟩ := h.last_accepted hSlice hState
  rcases Nat.eq_or_lt_of_le hLast with rfl | hBelow
  · exact ⟨judge, metadata, hJudge, hMetadata⟩
  · obtain ⟨found, hFound, _, recorded, hRecorded, _⟩ :=
      (h.state.sliceInv hSlice).inStep.rejected_below (.of_lookup hJudge) hFirst hBelow
    exact ⟨found, recorded, hFound, hRecorded⟩

/-- Both runs end with the same last generation. -/
theorem Matches.same_last (hDef : WellFormedDef definition) (hMatches : Matches l.stored r.stored)
    (hl : CalmEnd answers definition input l) (hr : CalmEnd answers definition input r)
    (hSlice : (verifierId, slice) ∈ computeLoopSlices definition) {other : VerifierGenerationState}
    (hState : l.stored.verifierStates.lookup verifierId = some state)
    (hOther : r.stored.verifierStates.lookup verifierId = some other) :
    other.latestGeneration = state.latestGeneration := by
  obtain ⟨judge, hJudge, hAccepted⟩ := hl.last_accepted hSlice hState
  obtain ⟨judge', hJudge', hAccepted'⟩ := hr.last_accepted hSlice hOther
  have hMem := hDef.verifier_mem hSlice
  exact Nat.le_antisymm
    (hMatches.last_accepted hr.state hl.state hSlice hMem hJudge hAccepted (.of_lookup hJudge'))
    (hMatches.symm.last_accepted hl.state hr.state hSlice hMem hJudge' hAccepted' (.of_lookup hJudge))

/-- What one run has ended with, the other has too. -/
theorem Matches.task_kept (hDef : WellFormedDef definition) (hMatches : Matches l.stored r.stored)
    (hl : CalmEnd answers definition input l) (hr : CalmEnd answers definition input r)
    (ha : l.stored.tasks.lookup key = some a) : r.stored.tasks.lookup key = some a := by
  have hKey := hl.state.sound.key key a ha
  have hCompleted := hl.done.completed key a ha
  by_cases hInside : ∃ entry ∈ computeLoopSlices definition, a.taskDefId ∈ entry.2
  · obtain ⟨⟨verifierId, slice⟩, hSlice, hMem⟩ := hInside
    obtain ⟨state, hState⟩ := hl.state_isSome hDef hSlice
    obtain ⟨other, hOther⟩ := hr.state_isSome hDef hSlice
    obtain ⟨hFirst, hJudged⟩ := hl.state.numbered hSlice hMem (.of_keyed hl.state.sound.key ha)
    have hLast := (hl.holds hState).latest _ hJudged
    obtain ⟨judge, metadata, hJudge, hMetadata⟩ := hl.attempts hSlice hState hFirst hLast
    obtain ⟨judge', metadata', hJudge', hMetadata'⟩ := hr.attempts hSlice hOther hFirst
      (hMatches.same_last hDef hl hr hSlice hState hOther ▸ hLast)
    have hJudgeDone := hl.done.completed _ judge hJudge
    have hJudgeDone' := hr.done.completed _ judge' hJudge'
    have hSame : metadata' = metadata := by
      rw [hMatches _ judge judge' hJudge hJudge' hJudgeDone hJudgeDone'] at hMetadata'
      exact Option.some.inj (hMetadata'.symm.trans hMetadata)
    obtain ⟨c, hc⟩ := Option.isSome_iff_exists.mp
      (((hr.state.sliceInv hSlice).inStep.aligned _ hMem _).mpr (.of_lookup hJudge'))
    have hMark := hl.settles.marked _ _ hSlice _ judge metadata hJudge hJudgeDone hMetadata _ hMem a
      (hKey ▸ ha)
    have hMark' := hr.settles.marked _ _ hSlice _ judge' metadata' hJudge' hJudgeDone' hMetadata' _
      hMem c hc
    rw [← hKey] at hc
    rw [hc, hMatches key a c ha hc hCompleted (hr.done.completed key c hc), hMark', hSame, ← hMark]
  · have hAlone (entry) (hEntry : entry ∈ computeLoopSlices definition) : a.taskDefId ∉ entry.2 :=
      fun hMem => hInside ⟨entry, hEntry, hMem⟩
    obtain ⟨taskDef, hFound⟩ := hl.known.findTask ha
    obtain ⟨hMem, hId⟩ := findTask_some hFound
    obtain ⟨c, hc⟩ := Option.isSome_iff_exists.mp (hr.done.present taskDef hMem)
    rw [hId, ← hl.state.attempts.single key a ha hAlone, ← hKey] at hc
    have hDone := hr.done.completed key c hc
    have hKept := hMatches key a c ha hc hCompleted hDone
    have hDefId : c.taskDefId = a.taskDefId := by rw [hKept]
    rw [hc, hKept, hr.settles.outside key c hc hDone (hDefId ▸ hAlone),
      ← hl.settles.outside key a ha hCompleted hAlone]

theorem Matches.tasks_eq (hDef : WellFormedDef definition) (hMatches : Matches l.stored r.stored)
    (hl : CalmEnd answers definition input l) (hr : CalmEnd answers definition input r) :
    r.stored.tasks = l.stored.tasks :=
  FiniteMap.eq_of_lookup_kept (fun _ _ ha => hMatches.task_kept hDef hl hr ha)
    fun _ _ hc => hMatches.symm.task_kept hDef hr hl hc

/-- The attempts settle the feedback history of a verifier. -/
theorem RecordsEntry.unique {one two : VerifierFeedbackEntry} {workflow : WorkflowInstance}
    (h : RecordsEntry workflow verifierId one) (h' : RecordsEntry workflow verifierId two)
    (hGeneration : two.generationIndex = one.generationIndex) : two = one := by
  obtain ⟨judge, metadata, hJudge, _, hMetadata, hFeedback, hOutput⟩ := h
  obtain ⟨judge', metadata', hJudge', _, hMetadata', hFeedback', hOutput'⟩ := h'
  rw [hGeneration, hJudge] at hJudge'
  cases hJudge'
  rw [hMetadata] at hMetadata'
  cases hMetadata'
  rw [hFeedback] at hFeedback'
  rw [hOutput] at hOutput'
  cases one
  cases two
  cases hGeneration
  cases hFeedback'
  cases hOutput'
  rfl

/-- The feedback of a state is determined by the verdicts of the attempts and
the generations that it covers. -/
theorem feedbackHistory_unique {workflow : WorkflowInstance} {xs ys : List VerifierFeedbackEntry}
    (hxs : ∀ entry ∈ xs, RecordsEntry workflow verifierId entry)
    (hys : ∀ entry ∈ ys, RecordsEntry workflow verifierId entry)
    (hGenerations : ys.map (·.generationIndex) = xs.map (·.generationIndex)) : ys = xs := by
  induction xs generalizing ys with
  | nil => exact List.map_eq_nil_iff.mp hGenerations
  | cons x xs ih =>
      cases ys with
      | nil => cases hGenerations
      | cons y ys =>
          obtain ⟨hFirst, hRest⟩ := List.cons.inj hGenerations
          rw [(hxs x List.mem_cons_self).unique (hys y List.mem_cons_self) hFirst,
            ih (fun entry hEntry => hxs entry (List.mem_cons_of_mem x hEntry))
              (fun entry hEntry => hys entry (List.mem_cons_of_mem y hEntry)) hRest]

/-- The history of a verifier is settled by the attempts. -/
theorem StateHolds.same_history {other : VerifierGenerationState}
    (hTasks : r.stored.tasks = l.stored.tasks) (h : StateHolds definition l.stored verifierId state)
    (hAgrees : HistoryAgrees l.stored verifierId state)
    (h' : StateHolds definition r.stored verifierId other)
    (hAgrees' : HistoryAgrees r.stored verifierId other) :
    other.feedbackHistory = state.feedbackHistory := by
  refine feedbackHistory_unique h.entries (fun entry hEntry => ?_)
    (hAgrees'.increasing.eq_of_mem_iff hAgrees.increasing fun generation => ?_)
  · have hRecords := h'.entries entry hEntry
    rwa [RecordsEntry, hTasks] at hRecords
  · rw [hAgrees'.continued, hAgrees.continued]
    constructor
    · rintro ⟨id, task, hTask, hRest⟩
      exact ⟨id, task, ⟨hTasks ▸ hTask.found, hTask.taskDefId⟩, hRest⟩
    · rintro ⟨id, task, hTask, hRest⟩
      exact ⟨id, task, ⟨hTasks ▸ hTask.found, hTask.taskDefId⟩, hRest⟩

/-- Two states of the same verifier rerun from the same task, the one in the
definition. -/
theorem StateHolds.same_start {other : VerifierGenerationState} {one two : WorkflowInstance}
    (h : StateHolds definition one verifierId state)
    (h' : StateHolds definition two verifierId other) :
    other.rerunStartTaskId = state.rerunStartTaskId := by
  obtain ⟨taskDef, verifier, hFound, hVerifier, hStart⟩ := h.rerunStart
  obtain ⟨taskDef', verifier', hFound', hVerifier', hStart'⟩ := h'.rerunStart
  rw [hFound] at hFound'
  cases hFound'
  rw [hVerifier] at hVerifier'
  cases hVerifier'
  rw [hStart, hStart']

/-- The state that a verifier has ended with in one run, it has in the other
too. -/
theorem Matches.state_kept (hDef : WellFormedDef definition) (hMatches : Matches l.stored r.stored)
    (hl : CalmEnd answers definition input l) (hr : CalmEnd answers definition input r)
    (hState : l.stored.verifierStates.lookup verifierId = some state) :
    r.stored.verifierStates.lookup verifierId = some state := by
  obtain ⟨slice, hSlice⟩ := hl.state.verdicts.ofVerifiers verifierId state hState
  obtain ⟨other, hOther⟩ := hr.state_isSome hDef hSlice
  have hTasks := hMatches.tasks_eq hDef hl hr
  have hLast := hMatches.same_last hDef hl hr hSlice hState hOther
  have hHolds := hl.holds hState
  have hHolds' := hr.holds hOther
  obtain ⟨judge, hJudge, hSelects⟩ := hl.selects hSlice hState
  obtain ⟨judge', hJudge', hSelects'⟩ := hr.selects hSlice hOther
  rw [hTasks, hLast, hJudge] at hJudge'
  cases hJudge'
  have hStatus : other.status = state.status ∧ other.selectedGeneration = state.selectedGeneration := by
    rcases hSelects with ⟨hOwn, hSelects⟩ | ⟨hOwn, hSelects⟩ <;>
      rcases hSelects' with ⟨hOwn', hSelects'⟩ | ⟨hOwn', hSelects'⟩
    · exact ⟨hOwn'.trans hOwn.symm, hSelects'.selected.trans hSelects.selected.symm⟩
    · cases hSelects.metadata.symm.trans hSelects'.metadata
    · cases hSelects.metadata.symm.trans hSelects'.metadata
    · exact ⟨hOwn'.trans hOwn.symm, hSelects'.selected.trans hSelects.selected.symm⟩
  have hHistory := hHolds.same_history hTasks
    ((hl.state.verdicts.verifiers _ _ hSlice).agrees state hState) hHolds'
    ((hr.state.verdicts.verifiers _ _ hSlice).agrees other hOther)
  have hStart := hHolds.same_start hHolds'
  have hName := hHolds'.verifierTaskId.trans hHolds.verifierTaskId.symm
  have hExit : other.exitReason = state.exitReason := by
    rw [hHolds'.exitReason, hHolds.exitReason, hStatus.1]
  rw [hOther]
  cases other
  cases state
  simp only at hName hStart hLast hStatus hHistory hExit
  rw [hName, hStart, hLast, hStatus.1, hStatus.2, hHistory, hExit]

theorem Matches.verifierStates_eq (hDef : WellFormedDef definition)
    (hMatches : Matches l.stored r.stored) (hl : CalmEnd answers definition input l)
    (hr : CalmEnd answers definition input r) :
    r.stored.verifierStates = l.stored.verifierStates :=
  FiniteMap.eq_of_lookup_kept (fun _ _ hState => hMatches.state_kept hDef hl hr hState)
    fun _ _ hOther => hMatches.symm.state_kept hDef hr hl hOther

end End

end RelayFold
