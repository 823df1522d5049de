import RelayFold.Lifecycle.Decisions

/-! What has been accepted stays accepted: a completed and satisfied attempt
never changes again, so a consumer outside its slice keeps the source that it
was given. -/
namespace RelayFold

open WorkflowEngine FallibleFold

namespace WorkflowEngine

section Marks

variable {workflow : WorkflowInstance} {key id : String} {mark : TaskSatisfactionStatus}

/-- A decision marks its own attempt, and attempts of its generation of the
slice. -/
theorem decisionTransition_marks {verifierTask : TaskDef} {verifier : VerifierControlConfig}
    {slice : List String} {generation : Nat} {state : VerifierGenerationState} {taskOutput : Json}
    {decided : VerifierExecutionResult}
    (h : .taskSatisfactionChanged key mark ∈ (decisionTransition workflow verifierTask verifier slice
      id generation state taskOutput decided).events) :
    key = id ∨ key ∈ slice.map (makeTaskAttemptId · generation) := by
  have hSlice {satisfaction : TaskSatisfactionStatus}
      (hMem : .taskSatisfactionChanged key mark ∈
        sliceSatisfactionEvents workflow slice generation satisfaction) :
      key ∈ slice.map (makeTaskAttemptId · generation) := by
    rw [sliceSatisfactionEvents_eq] at hMem
    obtain ⟨other, hOther, hSame⟩ := List.mem_map.mp hMem
    cases hSame
    exact (List.mem_filter.mp hOther).1
  have hCreated : .taskSatisfactionChanged key mark ∉
      (materializeGenerationEvents workflow slice (generation + 1) []).1 := by
    intro hMem
    cases hRuns : sliceInterruptedByExit workflow slice with
    | true => simp [materializeGenerationEvents, hRuns] at hMem
    | false =>
        rw [materializeGenerationEvents_eq hRuns] at hMem
        obtain ⟨_, _, hSame⟩ := List.mem_map.mp hMem
        cases hSame
  unfold decisionTransition continueTransition acceptEvents rerunEvents failVerifierEvents at h
  simp only at h
  repeat' split at h
  all_goals simp only [List.mem_append, List.mem_cons, List.not_mem_nil, reduceCtorEq, false_or,
    or_false, WorkflowInstanceEvent.taskSatisfactionChanged.injEq] at h
  all_goals grind

variable {ext : Externals} {definition : WorkflowDef} {loopSlices : LoopSlices} {taskDef : TaskDef}
  {inputs : ResolvedTaskInputs} {task : TaskInstance}

theorem completionEvents_marks {schema : Option JsonSchema} {output : Json} {exit : Option String}
    (h : .taskSatisfactionChanged key mark ∈
      completionEvents loopSlices id taskDef inputs schema output ++
        (if exit.isSome then earlyExitEvents workflow id else [])) :
    key = id ∨ ∃ other, workflow.tasks.lookup key = some other ∧ other.status = .pending := by
  rcases List.mem_append.mp h with h | h
  · left
    simp only [completionEvents, inputEvents, List.mem_append, List.mem_cons, List.not_mem_nil,
      reduceCtorEq, or_false, false_or] at h
    rcases h with h | h
    · split at h
      · cases h
      · exact (WorkflowInstanceEvent.taskSatisfactionChanged.inj (List.mem_singleton.mp h)).1
    · split at h
      · cases List.mem_singleton.mp h
      · cases h
  · split at h
    · rcases List.mem_cons.mp h with h | h
      · cases h
      · obtain ⟨entry, hEntry, h⟩ := List.mem_flatMap.mp h
        obtain ⟨hFound, hPending⟩ := List.mem_filter.mp hEntry
        simp only [List.mem_cons, List.not_mem_nil, reduceCtorEq, or_false, false_or,
          WorkflowInstanceEvent.taskSatisfactionChanged.injEq] at h
        obtain ⟨rfl, _⟩ := h
        exact .inr ⟨entry.2, (FiniteMap.mem_toList ..).mp hFound, by simpa using hPending⟩
    · cases h

/-- Recording an answer marks the answered attempt, pending attempts, and
attempts of the generation that a verifier judges. -/
theorem Recorded.marks {answer : Answer} {result : ResultCommit}
    (hRecorded : Recorded ext workflow definition loopSlices id taskDef inputs answer result)
    (hTask : workflow.tasks.lookup id = some task) (hRunning : task.status = .running)
    (hId : task.taskDefId = taskDef.id)
    (h : .taskSatisfactionChanged key mark ∈ result.events) :
    key = id ∨ (∃ other, workflow.tasks.lookup key = some other ∧ other.status = .pending) ∨
      (taskVerifier taskDef).isSome = true ∧
        key ∈ ((loopSlices.lookup taskDef.id).getD [taskDef.id]).map
          (makeTaskAttemptId · task.generationIndex) := by
  have hOwn {events : List WorkflowInstanceEvent} (hMem : .taskSatisfactionChanged key mark ∈ events)
      (hEvents : ∀ event ∈ events, ∀ other satisfaction,
        event = .taskSatisfactionChanged other satisfaction → other = id) : key = id :=
    hEvents _ hMem key mark rfl
  cases hRecorded with
  | inputNeeded _ =>
      exact .inl (hOwn h (by simp [inputNeededEvents, inputEvents]))
  | failure _ | badOutput _ _ =>
      exact .inl (hOwn h (by simp +contextual [failureEvents, inputEvents, failTaskEvents]))
  | dispatchError _ =>
      exact .inl (hOwn h (by simp [dispatchErrorEvents, inputEvents]))
  | @badExit output schema error _ _ _ =>
      rcases List.mem_append.mp h with h | h
      · rcases @completionEvents_marks workflow key id mark _ _ _ _ _ none
          (List.mem_append_left _ h) with hKey | hPending
        · exact .inl hKey
        · exact .inr (.inl hPending)
      · exact .inl (hOwn h (by simp +contextual [failTaskEvents]))
  | completed _ _ _ hResult =>
      cases hResult with
      | plain _ => exact (completionEvents_marks h).imp_right .inl
      | invalid _ _ =>
          rcases List.mem_append.mp h with h | h
          · exact (completionEvents_marks h).imp_right .inl
          · exact .inl (hOwn h (by simp +contextual [invalidVerifierEvents]))
      | decided hVerifier _ hMiddle hTransition =>
          rcases List.mem_append.mp h with h | h
          · exact (completionEvents_marks h).imp_right .inl
          · obtain ⟨attempt, verifierTask, _, state, hAttempt, _, _, _, rfl⟩ :=
              verifierResultTransition_ok hTransition
            rw [(completion_effect hTask hRunning hMiddle).own] at hAttempt
            cases hAttempt
            rcases decisionTransition_marks h with hKey | hKey
            · exact .inl hKey
            · refine .inr (.inr ⟨by rw [hVerifier]; rfl, ?_⟩)
              rw [← hId]
              exact hKey

end Marks

end WorkflowEngine

/-- A batch that takes no mark back leaves a satisfied attempt satisfied. -/
theorem ResultEvents.keepsSatisfied {workflow : WorkflowInstance} {key id : String}
    {task : TaskInstance} {final : WorkflowStatus}
    {events : List WorkflowInstanceEvent}
    {current next : WorkflowInstance} (hEvents : ResultEvents workflow id final events)
    (hReduce : events.foldlM applyWorkflowInstanceEvent current = .ok next)
    (hMarks : ∀ mark, .taskSatisfactionChanged key mark ∈ events → mark = .satisfied)
    (hTask : current.tasks.lookup key = some task)
    (hSatisfied : task.satisfactionStatus = .satisfied) :
    ∃ after, next.tasks.lookup key = some after ∧ after.satisfactionStatus = .satisfied := by
  induction events generalizing current task with
  | nil =>
      cases hReduce
      exact ⟨task, hTask, hSatisfied⟩
  | cons event events ih =>
      obtain ⟨middle, hApply, hRest⟩ := foldlM_cons_ok.mp hReduce
      have hFirst := hEvents.all event List.mem_cons_self
      have hLookup := (applyWorkflowInstanceEvent_effected hApply).task
      have hKept : ∃ after, middle.tasks.lookup key = some after ∧
          after.satisfactionStatus = .satisfied := by
        cases hFirst with
        | satisfaction other mark =>
            rw [hLookup rfl key, hTask]
            simp only [WorkflowInstanceEvent.taskEffect]
            split
            · rename_i hKey
              subst hKey
              exact ⟨_, rfl, hMarks mark List.mem_cons_self⟩
            · exact ⟨task, rfl, hSatisfied⟩
        | materialized taskDefId generation =>
            rw [hLookup rfl key, hTask]
            simp only [WorkflowInstanceEvent.taskEffect]
            split
            · rename_i hKey
              subst hKey
              simp only [applyWorkflowInstanceEvent, hTask] at hApply
              cases hApply
            · exact ⟨task, rfl, hSatisfied⟩
        | verifierUpserted _ _ | feedback _ _ | verifierStatus _ _ _ _ | workflowStatus =>
            rw [hLookup rfl key, hTask]
            exact ⟨task, rfl, hSatisfied⟩
        | input _ | mapping _ | answered _ | output _ | earlyExit | metadata _ | skipped _ _ =>
            rw [hLookup rfl key, hTask]
            simp only [WorkflowInstanceEvent.taskEffect]
            split
            · exact ⟨_, rfl, hSatisfied⟩
            · exact ⟨task, rfl, hSatisfied⟩
      obtain ⟨after, hAfter, hStill⟩ := hKept
      exact ih ⟨fun event hMem => hEvents.all event (List.mem_cons_of_mem _ hMem)⟩ hRest
        (fun mark hMem => hMarks mark (List.mem_cons_of_mem _ hMem)) hAfter hStill

/-- A verifier attempt that has completed with an acceptance, its own or that
of its limit. -/
def HasAccepted (judge : TaskInstance) : Prop :=
  judge.status = .completed ∧ ∃ metadata, judge.verifierMetadata = some metadata ∧
    (metadata.status = .accepted ∨ metadata.status = .exhaustedAccepted)

/-- A satisfied attempt of a slice belongs to a generation that the verifier
has accepted. -/
def Earned (definition : WorkflowDef) (workflow : WorkflowInstance) : Prop :=
  ∀ verifierId slice, (verifierId, slice) ∈ computeLoopSlices definition →
    ∀ id task, workflow.tasks.lookup id = some task → task.taskDefId ∈ slice →
      task.satisfactionStatus = .satisfied →
        ∃ judge, workflow.tasks.lookup (makeTaskAttemptId verifierId task.generationIndex) =
          some judge ∧ HasAccepted judge

section Commit

variable {definition : WorkflowDef} {l : Lifecycle} {writer : Writer} {reduced : WorkflowInstance}
  {ext : Externals} {events : List WorkflowInstanceEvent} {plan : List String}

/-- A completed attempt keeps all but its satisfaction. -/
theorem Write.completed_kept (hWrite : Write ext definition l writer events plan)
    (hReduce : reduceWorkflowInstanceEvents (some l.stored) events = .ok reduced) {id : String}
    {a : TaskInstance} (hTask : l.stored.tasks.lookup id = some a) (hCompleted : a.status = .completed) :
    ∃ b, reduced.tasks.lookup id = some b ∧
      b = { a with satisfactionStatus := b.satisfactionStatus } := by
  obtain ⟨b, hb, hMoves⟩ := (hWrite.attemptsAfter hReduce).kept id a hTask
  exact ⟨b, hb, hMoves.settled (by rw [hCompleted]; rfl)⟩

/-- An answer takes no mark back: the attempts that it marks are not completed,
or belong to a generation whose verifier attempt is the one that runs. -/
theorem Earned.recorded_kept (hEarned : Earned definition l.stored) (hDef : WellFormedDef definition)
    (hKeyed : Keyed l.stored) {loopSlices : LoopSlices} {started : StartedTask} {answer : Answer}
    {result : ResultCommit} (hSlices : loopSlices.Perm (computeLoopSlices definition))
    (hStarted : startedTask l.stored definition loopSlices started.taskAttemptId = some started)
    (hRunning : started.task.status = .running)
    (hResult : Recorded ext l.stored definition loopSlices started.taskAttemptId started.taskDef
      started.inputs answer result)
    (hReduce : reduceWorkflowInstanceEvents (some l.stored) result.events = .ok reduced) {id : String}
    {a : TaskInstance} (hTask : l.stored.tasks.lookup id = some a) (hCompleted : a.status = .completed)
    (hSatisfied : a.satisfactionStatus = .satisfied) :
    ∃ b, reduced.tasks.lookup id = some b ∧ b.satisfactionStatus = .satisfied := by
  obtain ⟨_, hOwn, hFound, _⟩ := startedTask_eq hStarted
  have hId : started.task.taskDefId = started.taskDef.id := (findTask_some hFound).2.symm
  refine hResult.result.keepsSatisfied hReduce (fun mark hMark => ?_) hTask hSatisfied
  rcases hResult.marks hOwn hRunning hId hMark with rfl | ⟨other, hOther, hPending⟩ |
    ⟨hVerifier, hKey⟩
  · rw [hTask] at hOwn
    cases hOwn
    rw [hRunning] at hCompleted
    cases hCompleted
  · rw [hTask] at hOther
    cases hOther
    rw [hPending] at hCompleted
    cases hCompleted
  · have hSlice := hDef.verdict_slice hSlices hFound hVerifier
    obtain ⟨taskDefId, hMem, hName⟩ := List.mem_map.mp hKey
    obtain ⟨hDefId, hGeneration⟩ := makeTaskAttemptId_inj.mp (hName.trans (hKeyed id a hTask))
    obtain ⟨judge, hJudge, hJudged⟩ :=
      hEarned _ _ hSlice id a hTask (hDefId ▸ hMem) hSatisfied
    rw [← hGeneration, ← hId, ← hKeyed _ _ hOwn, hOwn] at hJudge
    cases hJudge
    rw [HasAccepted, hRunning] at hJudged
    cases hJudged.1

/-- No commit takes back what has been accepted. -/
theorem Write.satisfied_kept (hDef : WellFormedDef definition)
    (hWrite : Write ext definition l writer events plan)
    (hReduce : reduceWorkflowInstanceEvents (some l.stored) events = .ok reduced)
    (hKeyed : Keyed l.stored) (hEarned : Earned definition l.stored) {id : String} {a : TaskInstance}
    (hTask : l.stored.tasks.lookup id = some a) (hCompleted : a.status = .completed)
    (hSatisfied : a.satisfactionStatus = .satisfied) : reduced.tasks.lookup id = some a := by
  obtain ⟨b, hb, hKept⟩ := hWrite.completed_kept hReduce hTask hCompleted
  suffices hMark : ∃ c, reduced.tasks.lookup id = some c ∧ c.satisfactionStatus = .satisfied by
    obtain ⟨c, hc, hMark⟩ := hMark
    rw [hb] at hc
    cases hc
    rw [hb, hKept, hMark, ← hSatisfied]
  have hEffect := hWrite.effect hReduce
  cases hWrite with
  | result _ hSlices hStarted hRunning hResult =>
      exact hEarned.recorded_kept hDef hKeyed hSlices hStarted hRunning hResult hReduce hTask
        hCompleted hSatisfied
  | @inputFailure loopSlices started error _ hSlices hStarted hRunning _ =>
      -- A failed input check is recorded like an answer that says so.
      have hResult : Recorded ext l.stored definition loopSlices started.taskAttemptId
          started.taskDef started.inputs (.ok (.failure error)) _ := .failure error
      exact hEarned.recorded_kept hDef hKeyed hSlices hStarted hRunning hResult hReduce hTask
        hCompleted hSatisfied
  | initialTasks _ hEmpty =>
      rw [(FiniteMap.isEmpty_iff _).mp hEmpty id] at hTask
      cases hTask
  | initialGenerations _ hTasks hSlices =>
      rw [(initialGenerations_after hTasks hSlices hReduce).tasks]
      exact ⟨a, hTask, hSatisfied⟩
  | begin _ | complete _ _ | pause _ | resume _ | hostLost _ =>
      cases reduce_single hReduce
      exact ⟨a, hTask, hSatisfied⟩
  | start _ _ _ _ =>
      rw [taskMut_lookup (reduce_single hReduce) id, hTask]
      split
      · exact ⟨_, rfl, hSatisfied⟩
      · exact ⟨a, rfl, hSatisfied⟩
  | humanInput _ _ _ _ _ =>
      cases hEffect with
      | status _ hTasks _ =>
          rw [hTasks]
          exact ⟨a, hTask, hSatisfied⟩
      | humanInput _ _ hNew hTasks _ =>
          rw [hTasks]
          split
          · rename_i hKey
            rw [← hKey, hTask] at hNew
            cases hNew
          · exact ⟨a, hTask, hSatisfied⟩
  | retry | forceRetry =>
      cases hEffect with
      | status _ hTasks _ =>
          rw [hTasks]
          exact ⟨a, hTask, hSatisfied⟩
      | retry hOther hFailed hTasks _ =>
          rw [hTasks]
          split
          · rename_i hKey
            rw [← hKey, hTask] at hOther
            cases hOther
            rw [hCompleted] at hFailed
            cases hFailed
          · exact ⟨a, hTask, hSatisfied⟩
  | recover _ =>
      cases hEffect with
      | status _ hTasks _ =>
          rw [hTasks]
          exact ⟨a, hTask, hSatisfied⟩
      | recover hTasks _ =>
          rw [hTasks, hTask]
          split
          · refine ⟨_, rfl, ?_⟩
            rw [TaskInstance.recovered]
            split <;> exact hSatisfied
          · exact ⟨a, rfl, hSatisfied⟩

end Commit

/-! ### How an attempt comes to be satisfied -/

/-- A satisfied attempt has been satisfied before, or it is of no slice, or its
generation of the slice has just been accepted. -/
inductive SatisfiedFrom (definition : WorkflowDef) (before after : WorkflowInstance) (id : String)
    (b : TaskInstance) : Prop
  | before {a : TaskInstance} (hFound : before.tasks.lookup id = some a)
      (hDefId : b.taskDefId = a.taskDefId) (hGeneration : b.generationIndex = a.generationIndex)
      (hSatisfied : a.satisfactionStatus = .satisfied)
  | outside (hOutside : ∀ verifierId slice, (verifierId, slice) ∈ computeLoopSlices definition →
      b.taskDefId ∉ slice)
  | accepted {verifierId : String} {slice : List String} {judge : TaskInstance}
      (hSlice : (verifierId, slice) ∈ computeLoopSlices definition) (hMem : b.taskDefId ∈ slice)
      (hJudge : after.tasks.lookup (makeTaskAttemptId verifierId b.generationIndex) = some judge)
      (hAccepted : HasAccepted judge)

section Origin

variable {definition : WorkflowDef} {l : Lifecycle} {writer : Writer}
  {before reduced : WorkflowInstance} {ext : Externals} {id : String} {b : TaskInstance}

/-- A decision satisfies its own attempt, or attempts that it marks. -/
theorem DecisionEffect.satisfiedFrom {own : TaskInstance} {exit : Bool}
    {mark : String → Option TaskSatisfactionStatus} {created : String → Option TaskInstance → Prop}
    {key : String} (h : DecisionEffect before reduced id own exit mark created)
    (hb : reduced.tasks.lookup key = some b) (hSatisfied : b.satisfactionStatus = .satisfied)
    (hOwn : own.satisfactionStatus = .satisfied → SatisfiedFrom definition before reduced id own)
    (hMark : mark key = some .satisfied → SatisfiedFrom definition before reduced key b)
    (hNew : ∀ c, created key (some c) → c.satisfactionStatus ≠ .satisfied) :
    SatisfiedFrom definition before reduced key b := by
  by_cases hKey : key = id
  · rw [hKey, h.own] at hb
    cases hb
    rw [hKey]
    exact hOwn hSatisfied
  · cases ha : before.tasks.lookup key with
    | none =>
        have hCreated := h.new key ha
        rw [hb] at hCreated
        exact absurd hSatisfied (hNew b hCreated)
    | some a =>
        rw [h.kept key a hKey ha] at hb
        cases hb
        cases hMarked : mark key with
        | none =>
            rw [hMarked] at hSatisfied
            exact .before ha (a.afterExit_taskDefId exit) (a.afterExit_generationIndex exit)
              (TaskInstance.afterExit_satisfied hSatisfied)
        | some found =>
            rw [hMarked] at hSatisfied
            obtain rfl : found = .satisfied := hSatisfied
            rw [← hMarked]
            exact hMark hMarked

/-- An acceptance satisfies the attempts of its own generation of its slice. -/
theorem DecisionEffect.satisfiedFrom_accepted {task own : TaskInstance} {exit : Bool}
    {slice : List String} {key : String}
    (h : DecisionEffect before reduced id own exit
      (sliceMark slice task.generationIndex .satisfied) NothingNew)
    (hKeyed : Keyed before) (hKeyed' : Keyed reduced)
    (hSlice : (task.taskDefId, slice) ∈ computeLoopSlices definition)
    (hVerifier : task.taskDefId ∈ slice) (hTask : before.tasks.lookup id = some task)
    (hNames : own.taskDefId = task.taskDefId ∧ own.generationIndex = task.generationIndex)
    (hAccepted : HasAccepted own) (hb : reduced.tasks.lookup key = some b)
    (hSatisfied : b.satisfactionStatus = .satisfied) :
    SatisfiedFrom definition before reduced key b := by
  have hOwn := h.own
  rw [hKeyed id task hTask] at hOwn
  refine h.satisfiedFrom hb hSatisfied (fun _ => ?_) (fun hMarked => ?_) fun c hNone => by
    cases hNone
  · exact .accepted hSlice (hNames.1 ▸ hVerifier) (hNames.2 ▸ hOwn) hAccepted
  · obtain ⟨_, taskId, hMem, hKey⟩ := sliceMark_some hMarked
    obtain ⟨hDefId, hGeneration⟩ := makeTaskAttemptId_inj.mp (hKey.symm.trans (hKeyed' key b hb))
    exact .accepted hSlice (hDefId ▸ hMem) (hGeneration ▸ hOwn) hAccepted

/-- The verdict of a completed attempt satisfies its own generation of its
slice only. -/
theorem WorkflowEngine.Outcome.satisfiedFrom {answer : Answer} {result : ResultCommit}
    {loopSlices : LoopSlices} {task : TaskInstance} {taskDef : TaskDef} {inputs : ResolvedTaskInputs}
    {key : String} (hDef : WellFormedDef definition)
    (hSlices : loopSlices.Perm (computeLoopSlices definition))
    (h : Outcome ext before reduced loopSlices id task taskDef inputs answer result)
    (hTask : before.tasks.lookup id = some task) (hKeyed : Keyed before) (hKeyed' : Keyed reduced)
    (hFound : definition.findTask task.taskDefId = some taskDef)
    (hb : reduced.tasks.lookup key = some b) (hSatisfied : b.satisfactionStatus = .satisfied) :
    SatisfiedFrom definition before reduced key b := by
  have hId := (findTask_some hFound).2
  have hNothing (c : TaskInstance) (hNone : NothingNew key (some c)) :
      c.satisfactionStatus ≠ .satisfied := by
    cases hNone
  have hNoMark (hNone : none = some TaskSatisfactionStatus.satisfied) :
      SatisfiedFrom definition before reduced key b := by
    cases hNone
  -- A rejection leaves its own attempt unsatisfied.
  have hRejected {slice : List String} {own : TaskInstance} (hMem : task.taskDefId ∈ slice)
      (hOwn : (own.marked (sliceMark slice task.generationIndex .unsatisfied id)).satisfactionStatus =
        .satisfied) : SatisfiedFrom definition before reduced id
          (own.marked (sliceMark slice task.generationIndex .unsatisfied id)) := by
    rw [hKeyed.sliceMark ⟨hTask, rfl⟩ hMem, if_pos rfl] at hOwn
    cases hOwn
  cases h with
  | @stopped own exit hEffect _ hAnswered hSatisfaction _ _ =>
      refine (hEffect.decision hTask).satisfiedFrom hb hSatisfied (fun hOwn => ?_) hNoMark hNothing
      rcases hSatisfaction with hSame | hSame
      · rw [hSame] at hOwn
        cases hOwn
      · exact .before hTask hAnswered.taskDefId hAnswered.generationIndex (hSame.symm.trans hOwn)
  | plain _ _ _ hEffect _ =>
      refine (hEffect.decision hTask).satisfiedFrom hb hSatisfied (fun hOwn => ?_) hNoMark hNothing
      by_cases hIn : isTaskInLoopSlice loopSlices taskDef.id = true
      · rw [completedTask, if_pos hIn] at hOwn
        exact .before hTask rfl rfl hOwn
      · refine .outside fun verifierId slice hSlice hMem => hIn ?_
        exact isTaskInLoopSlice_iff.mpr ⟨_, hSlices.mem_iff.mpr hSlice, hId ▸ hMem⟩
  | @judged schema exit output verifier decided middle state message hVerifier _ _ _ _ hCompletion
      hVerdict _ =>
      have hSlice := hDef.verdict_slice hSlices hFound (by rw [hVerifier]; rfl)
      rw [hId] at hVerdict hSlice
      have hMem := hDef.verifier_mem hSlice
      cases hVerdict with
      | complete _ _ hEffect =>
          exact (hEffect.decision hCompletion hTask).satisfiedFrom_accepted hKeyed hKeyed' hSlice hMem
            hTask ⟨rfl, rfl⟩ ⟨rfl, _, rfl, .inl rfl⟩ hb hSatisfied
      | exhausted _ _ _ _ _ hEffect =>
          exact (hEffect.decision hCompletion hTask).satisfiedFrom_accepted hKeyed hKeyed' hSlice hMem
            hTask ⟨rfl, rfl⟩ ⟨rfl, _, rfl, .inr rfl⟩ hb hSatisfied
      | interrupted _ _ _ hEffect =>
          exact (hEffect.decision hCompletion hTask).satisfiedFrom hb hSatisfied
            (hRejected hMem) (fun hMark => by cases (sliceMark_some hMark).1) hNothing
      | rerun _ _ _ _ hEffect =>
          refine (hEffect.decision hCompletion hTask).satisfiedFrom hb hSatisfied
            (hRejected hMem) (fun hMark => by cases (sliceMark_some hMark).1) fun c hNew => ?_
          rcases hNew with ⟨_, _, _, hFresh⟩ | ⟨_, hNone⟩
          · cases hFresh
            intro hFalse
            cases hFalse
          · cases hNone
      | failed _ hMark _ _ _ _ hEffect =>
          refine (hEffect.decision hCompletion hTask).satisfiedFrom hb hSatisfied (fun hOwn => ?_)
            (fun hSome => ?_) hNothing
          · cases hOwn
          · rcases hMark key with hNone | hUnsat
            · rw [hNone] at hSome
              cases hSome
            · rw [hUnsat] at hSome
              cases hSome

/-- How a commit leaves an attempt satisfied. -/
theorem WriteEffect.satisfiedFrom (hDef : WellFormedDef definition)
    (h : WriteEffect definition l reduced writer) (hKeyed : Keyed l.stored)
    (hKeyed' : Keyed reduced) (hb : reduced.tasks.lookup id = some b)
    (hSatisfied : b.satisfactionStatus = .satisfied) :
    SatisfiedFrom definition l.stored reduced id b := by
  have hSame (ha : l.stored.tasks.lookup id = some b) :
      SatisfiedFrom definition l.stored reduced id b :=
    .before ha rfl rfl hSatisfied
  cases h with
  | status _ hTasks _ => exact hSame (hTasks ▸ hb)
  | initialTasks _ hTasks _ _ =>
      obtain ⟨_, _, _, rfl⟩ := hTasks id b hb
      cases hSatisfied
  | initialGenerations _ _ hAfter => exact hSame (hAfter.tasks ▸ hb)
  | start _ hTask _ hTasks _ =>
      rw [hTasks] at hb
      split at hb
      · rename_i hKey
        cases hb
        rw [hKey]
        exact .before hTask rfl rfl hSatisfied
      · exact hSame hb
  | result hSlices hTask hFound _ _ hOutcome _ =>
      exact hOutcome.satisfiedFrom hDef hSlices hTask hKeyed hKeyed' hFound hb hSatisfied
  | humanInput _ _ _ hTasks _ =>
      rw [hTasks] at hb
      split at hb
      · cases hb
        cases hSatisfied
      · exact hSame hb
  | retry _ _ hTasks _ =>
      rw [hTasks] at hb
      split at hb
      · cases hb
        cases hSatisfied
      · exact hSame hb
  | recover hTasks _ =>
      rw [hTasks] at hb
      split at hb
      · obtain ⟨a, ha, rfl⟩ := Option.map_eq_some_iff.mp hb
        refine .before ha ?_ ?_ ?_
        · unfold TaskInstance.recovered
          split <;> rfl
        · unfold TaskInstance.recovered
          split <;> rfl
        · unfold TaskInstance.recovered at hSatisfied
          split at hSatisfied <;> exact hSatisfied
      · exact hSame hb

/-- Every commit keeps what is satisfied earned. -/
theorem Earned.write {events : List WorkflowInstanceEvent} {plan : List String}
    (hDef : WellFormedDef definition) (h : Earned definition l.stored)
    (hSound : Sound definition l.stored) (hWrite : Write ext definition l writer events plan)
    (hReduce : reduceWorkflowInstanceEvents (some l.stored) events = .ok reduced) :
    Earned definition reduced := by
  intro verifierId slice hSlice id b hb hMem hSatisfied
  have hKeyed' := (hWrite.sound hReduce hSound).key
  have hFrom := (hWrite.effect hReduce).satisfiedFrom hDef hSound.key hKeyed' hb hSatisfied
  cases hFrom with
  | before ha hDefId hGeneration hOld =>
      obtain ⟨judge, hJudge, hAccepted⟩ := h _ _ hSlice id _ ha (hDefId ▸ hMem) hOld
      obtain ⟨after, hAfter, hKept⟩ := hWrite.completed_kept hReduce hJudge hAccepted.1
      rw [hGeneration]
      refine ⟨after, hAfter, ?_⟩
      rw [hKept]
      exact hAccepted
  | outside hOutside => exact absurd hMem (hOutside _ _ hSlice)
  | accepted hSlice' hMem' hJudge hAccepted =>
      have hSame := hDef.slices_disjoint _ hSlice' _ hSlice _ hMem' hMem
      obtain rfl := (Prod.mk.inj hSame).1
      exact ⟨_, hJudge, hAccepted⟩

end Origin

section Run

variable {ext : Externals} {definition : WorkflowDef} {l l' : Lifecycle} {writers : List Writer}

theorem Earned.created (definition : WorkflowDef) (id workflowDefId : String)
    (pinnedWorkerHost : WorkerHostId) (input : Option Json) :
    Earned definition (Lifecycle.created id workflowDefId pinnedWorkerHost input).stored := by
  intro _ _ _ key task hTask
  cases (show (∅ : FiniteMap String TaskInstance).lookup key = none from rfl).symm.trans hTask

theorem Lifecycle.Steps.earned (hDef : WellFormedDef definition)
    (run : Lifecycle.Steps ext definition l writers l') (hSound : Sound definition l.stored)
    (hStart : Earned definition l.stored) : Earned definition l'.stored :=
  run.keeps hSound hStart
    (fun _ _ _ _ _ hSound h hWrite hReduce => h.write hDef hSound hWrite hReduce) fun _ _ h => h

/-- Every run keeps a completed and satisfied attempt. -/
theorem Lifecycle.Steps.satisfied_kept (hDef : WellFormedDef definition)
    (run : Lifecycle.Steps ext definition l writers l') (hSound : Sound definition l.stored)
    (hStart : Earned definition l.stored) {id : String} {task : TaskInstance}
    (hTask : l.stored.tasks.lookup id = some task) (hCompleted : task.status = .completed)
    (hSatisfied : task.satisfactionStatus = .satisfied) :
    l'.stored.tasks.lookup id = some task := by
  refine (@Lifecycle.Steps.keeps _ _ _ _ _ (fun workflow => Earned definition workflow ∧
    workflow.tasks.lookup id = some task) run hSound ⟨hStart, hTask⟩ ?_ fun _ _ h => h).2
  intro l writer events plan reduced hSound h hWrite hReduce
  exact ⟨h.1.write hDef hSound hWrite hReduce,
    hWrite.satisfied_kept hDef hReduce hSound.key h.1 h.2 hCompleted hSatisfied⟩

end Run

/-- In every run an attempt of a slice is satisfied only in a generation that
the verifier of the slice has accepted, and a completed attempt that is
satisfied stays, to its last field, what it is, whatever requests, failures,
reruns and restarts follow. -/
theorem System.Steps.satisfaction_final {env : EngineEnv} {submitted definition : WorkflowDef}
    {id workflowDefId : String} {pinnedWorkerHost : WorkerHostId} {input : Option Json}
    {earlier later : List Action} {s s' : System}
    (hAccepted : validateAndNormalizeWorkflowDef submitted = .ok definition)
    (hDefinition : env.definitions workflowDefId = some definition)
    (run : System.Steps env (System.created id workflowDefId pinnedWorkerHost input) earlier s)
    (rest : System.Steps env s later s') :
    Earned definition s.stored ∧
    ∀ key task, s.stored.tasks.lookup key = some task → task.status = .completed →
      task.satisfactionStatus = .satisfied → s'.stored.tasks.lookup key = some task := by
  have hDef := validateAndNormalizeWorkflowDef_ok hAccepted
  obtain ⟨l, writers, steps, hRefines⟩ := run.refines hDefinition
  have hEarned := steps.earned hDef (.created ..) (.created definition id workflowDefId
    pinnedWorkerHost input)
  obtain ⟨l', writers', steps', hRefines'⟩ : ∃ l' writers', Lifecycle.Steps env.ext definition l
      writers' l' ∧ Refines env definition s' l' := by
    refine Run.simulate (R := Refines env definition) (fun t action t' m h hStep => ?_) rest hRefines
    obtain ⟨⟨m', writers, steps, _, h'⟩, _⟩ := h.step hStep
    exact ⟨m', writers, steps, h'⟩
  have hSound : Sound definition l.stored := hRefines.stored ▸ hRefines.sound
  rw [← hRefines.stored, ← hRefines'.stored]
  exact ⟨hEarned, fun key task hTask hCompleted hSatisfied =>
    steps'.satisfied_kept hDef hSound hEarned hTask hCompleted hSatisfied⟩

/-- The first review accepts the draft, and the pass goes on to its end. -/
theorem acceptedReview_runs :
    ((((firstReview completes ++ passSteps 1).foldlM (System.step chainEnv) chainStart).filter
      fun s => (s.stored.tasks.lookup "draft[1]").any fun task =>
        task.status = .completed && task.satisfactionStatus = .satisfied).bind fun s =>
          (passSteps 6).foldlM (System.step chainEnv) s).isSome := by
  decide +kernel

/-- The accepted draft. -/
theorem System.Steps.satisfaction_final_draft : ∃ s s' task,
    System.Steps chainEnv chainStart (firstReview completes ++ passSteps 1) s ∧
    System.Steps chainEnv s (passSteps 6) s' ∧ s'.stored.tasks.lookup "draft[1]" = some task ∧
    task.status = .completed ∧ task.satisfactionStatus = .satisfied := by
  have hAccepted : validateAndNormalizeWorkflowDef chainSubmitted = .ok chainDefinition :=
    eq_ok_get chainSubmitted_accepted
  have hDefinition : chainEnv.definitions "chain" = some chainDefinition := rfl
  obtain ⟨s', hRuns⟩ := Option.isSome_iff_exists.mp acceptedReview_runs
  obtain ⟨s, hChecked, hRest⟩ := Option.bind_eq_some_iff.mp hRuns
  obtain ⟨hFound, hDraft⟩ := Option.filter_eq_some_iff.mp hChecked
  obtain ⟨task, hTask, hMarks⟩ := (Option.any_eq_true _ _).mp hDraft
  rw [Bool.and_eq_true, decide_eq_true_eq, decide_eq_true_eq] at hMarks
  have run : System.Steps chainEnv chainStart (firstReview completes ++ passSteps 1) s :=
    Run.of_foldlM hFound
  have rest : System.Steps chainEnv s (passSteps 6) s' := Run.of_foldlM hRest
  have hKept := (System.Steps.satisfaction_final hAccepted hDefinition run rest).2
  exact ⟨s, s', task, run, rest, hKept _ _ hTask hMarks.1 hMarks.2, hMarks⟩

end RelayFold
