import RelayFold.Lifecycle.ExitCompletion
import RelayFold.Lifecycle.PassOutcomes
import RelayFold.Lifecycle.SourceOrder

/-! A workflow all of whose tasks are answered with valid outputs and accepting
reviews: it has one attempt of each task, and it cannot get stuck unless its
slices wait for each other. -/
namespace RelayFold

open WorkflowEngine FallibleFold EdgeList

/-- A valid output without an exit; of a verifier, an acceptance. -/
def GoodAnswer (ext : Externals) (taskDef : TaskDef) (answer : Answer) : Prop :=
  ∃ output, answer = .ok (.success output) ∧
    (∀ schema, taskDef.effectiveOutputSchema = .ok schema → schemaOk ext schema output = true) ∧
    exitReason taskDef output = .ok none ∧
    ((taskVerifier taskDef).isSome = true →
      ∃ decided, verifierResultFromOutput output = .ok decided ∧ decided.decision = .complete)

/-- Attempts of the first generation only, none of them failed, skipped or
waiting for input. What belongs to a completed node is satisfied, and the state
of a completed verifier is accepted. -/
structure FirstGeneration (definition : WorkflowDef) (workflow : WorkflowInstance) : Prop where
  attempt : ∀ id task, workflow.tasks.lookup id = some task → task.generationIndex = 1 ∧
    (task.status = .pending ∨ task.status = .running ∨ task.status = .completed)
  satisfied : ∀ id task, workflow.tasks.lookup id = some task →
    HasCompleted workflow (definition.sliceNode task.taskDefId) → task.satisfactionStatus = .satisfied
  states : ∀ verifierId state, workflow.verifierStates.lookup verifierId = some state →
    (∃ slice, (verifierId, slice) ∈ computeLoopSlices definition) ∧
      (HasCompleted workflow verifierId → state.status = .accepted)

/-- What a good answer does to the instance. -/
structure GoodResult (definition : WorkflowDef) (before after : WorkflowInstance) (id : String)
    (task own : TaskInstance) (mark : String → Option TaskSatisfactionStatus) : Prop where
  effect : DecisionEffect before after id own false mark NothingNew
  names : own.taskDefId = task.taskDefId ∧ own.generationIndex = task.generationIndex
  completed : own.status = .completed
  kept : task.satisfactionStatus = .satisfied → own.satisfactionStatus = .satisfied
  marks : ∀ key, mark key = none ∨ mark key = some .satisfied
  released : ∀ key b, after.tasks.lookup key = some b →
    definition.sliceNode b.taskDefId = task.taskDefId → b.satisfactionStatus = .satisfied
  states : ∀ verifierId state, after.verifierStates.lookup verifierId = some state →
    (before.verifierStates.lookup verifierId).isSome = true ∧
      (verifierId = task.taskDefId → (∃ slice, (verifierId, slice) ∈ computeLoopSlices definition) →
        state.status = .accepted) ∧
      (verifierId ≠ task.taskDefId → before.verifierStates.lookup verifierId = some state)

variable {definition : WorkflowDef} {before after : WorkflowInstance} {id : String}
  {task own : TaskInstance} {mark : String → Option TaskSatisfactionStatus}

section Result

/-- A mark that satisfies, or none at all, keeps a satisfied attempt so. -/
theorem TaskInstance.marked_satisfied {a : TaskInstance} {mark : Option TaskSatisfactionStatus}
    (hMark : mark = none ∨ mark = some .satisfied) (h : a.satisfactionStatus = .satisfied) :
    (a.marked mark).satisfactionStatus = .satisfied := by
  rcases hMark with rfl | rfl
  · exact h
  · rfl

/-- The attempts after a good answer, from those before it. -/
theorem GoodResult.attempt_origin (h : GoodResult definition before after id task own mark)
    {key : String} {b : TaskInstance} (hb : after.tasks.lookup key = some b) :
    key = id ∧ b = own ∨ key ≠ id ∧ ∃ a, before.tasks.lookup key = some a ∧
      b = a.marked (mark key) := by
  by_cases hKey : key = id
  · rw [hKey, h.effect.own] at hb
    exact .inl ⟨hKey, (Option.some.inj hb).symm⟩
  · cases ha : before.tasks.lookup key with
    | none =>
        have hNone := h.effect.new key ha
        rw [hb] at hNone
        cases hNone
    | some a =>
        have hKept := h.effect.kept key a hKey ha
        rw [hb, TaskInstance.afterExit_false] at hKept
        exact .inr ⟨hKey, a, rfl, Option.some.inj hKept⟩

/-- A good answer completes its own task only. -/
theorem GoodResult.hasCompleted (h : GoodResult definition before after id task own mark)
    {taskId : String} (hCompleted : HasCompleted after taskId) :
    taskId = task.taskDefId ∨ HasCompleted before taskId := by
  obtain ⟨key, b, hb, hStatus⟩ := hCompleted
  rcases h.attempt_origin hb.found with ⟨_, rfl⟩ | ⟨_, a, ha, rfl⟩
  · exact .inl (hb.taskDefId.symm.trans h.names.1)
  · exact .inr ⟨key, a, ⟨ha, hb.taskDefId⟩, hStatus⟩

/-- A good result keeps the instance in its first generation, with one more
attempt completed. -/
theorem FirstGeneration.of_result (h : FirstGeneration definition before)
    (hTask : before.tasks.lookup id = some task)
    (hGood : GoodResult definition before after id task own mark) :
    FirstGeneration definition after := by
  constructor
  · intro key b hb
    rcases hGood.attempt_origin hb with ⟨_, rfl⟩ | ⟨_, a, ha, rfl⟩
    · exact ⟨hGood.names.2.trans (h.attempt id task hTask).1, .inr (.inr hGood.completed)⟩
    · exact h.attempt key a ha
  · intro key b hb hCompleted
    rcases hGood.hasCompleted hCompleted with hNode | hBefore
    · exact hGood.released key b hb hNode
    · rcases hGood.attempt_origin hb with ⟨_, rfl⟩ | ⟨_, a, ha, rfl⟩
      · rw [hGood.names.1] at hBefore
        exact hGood.kept (h.satisfied id task hTask hBefore)
      · exact TaskInstance.marked_satisfied (hGood.marks key) (h.satisfied key a ha hBefore)
  · intro verifierId state hState
    obtain ⟨hBefore, hOwn, hOther⟩ := hGood.states verifierId state hState
    obtain ⟨old, hOld⟩ := Option.isSome_iff_exists.mp hBefore
    have hVerifier := (h.states verifierId old hOld).1
    refine ⟨hVerifier, fun hCompleted => ?_⟩
    by_cases hSame : verifierId = task.taskDefId
    · exact hOwn hSame hVerifier
    · refine (h.states verifierId state (hOther hSame)).2 ?_
      exact (hGood.hasCompleted hCompleted).resolve_left hSame

variable {ext : Externals} {loopSlices : LoopSlices} {taskDef : TaskDef} {inputs : ResolvedTaskInputs}
  {answer : Answer} {result : ResultCommit}

/-- The pass goes on after a good answer. -/
theorem WorkflowEngine.Recorded.good_next (hGood : GoodAnswer ext taskDef answer)
    (h : Recorded ext before definition loopSlices id taskDef inputs answer result) :
    ∃ message, result.next = .checkPause message := by
  obtain ⟨output, rfl, hFits, hNoExit, hAccepts⟩ := hGood
  cases h with
  | badOutput hSchema hBad =>
      rw [hFits _ hSchema] at hBad
      cases hBad
  | badExit _ _ hExit =>
      rw [hNoExit] at hExit
      cases hExit
  | completed _ _ _ hResult =>
      cases hResult with
      | plain _ => exact ⟨none, rfl⟩
      | decided _ _ _ _ => exact ⟨_, rfl⟩
      | invalid hVerifier hInvalid =>
          obtain ⟨decided, hDecided, _⟩ := hAccepts (by rw [hVerifier]; rfl)
          rw [hDecided] at hInvalid
          cases hInvalid

/-- After a decision that creates nothing, every attempt is still of the first
generation. -/
theorem FirstGeneration.generation (h : FirstGeneration definition before)
    (hEffect : DecisionEffect before after id own false mark NothingNew)
    (hOwn : own.generationIndex = 1) {key : String} {b : TaskInstance}
    (hb : after.tasks.lookup key = some b) : b.generationIndex = 1 := by
  by_cases hKey : key = id
  · rw [hKey, hEffect.own] at hb
    cases hb
    exact hOwn
  · cases ha : before.tasks.lookup key with
    | none =>
        have hNone := hEffect.new key ha
        rw [hb] at hNone
        cases hNone
    | some a =>
        have hKept := hEffect.kept key a hKey ha
        rw [hb, TaskInstance.afterExit_false] at hKept
        cases hKept
        exact (h.attempt key a ha).1

/-- Completing an attempt keeps it satisfied, in a slice and outside one. -/
theorem completedTask_satisfied {schema : Option JsonSchema} {output : Json} {exit : Bool}
    (h : task.satisfactionStatus = .satisfied) :
    (completedTask loopSlices taskDef inputs schema output exit task).satisfactionStatus =
      .satisfied := by
  show (if isTaskInLoopSlice loopSlices taskDef.id then task.satisfactionStatus else .satisfied) =
    .satisfied
  split
  · exact h
  · rfl

section Good

variable (hDef : WellFormedDef definition)
  (hSlices : loopSlices.Perm (computeLoopSlices definition)) (hKeyed : Keyed after)
  (hFirst : FirstGeneration definition before) (hTask : before.tasks.lookup id = some task)
  (hFound : definition.findTask task.taskDefId = some taskDef)
include hDef hSlices hKeyed hFirst hTask hFound

/-- A task without a verifier is a node of its own, or an inner task of a
slice. In the first case its completion satisfies it, and in the second it
releases nothing. -/
theorem WorkflowEngine.CompletionEffect.good {schema : Option JsonSchema} {output : Json}
    (hPlain : taskVerifier taskDef = none) (h : CompletionEffect before after id
      (completedTask loopSlices taskDef inputs schema output false task) false) :
    GoodResult definition before after id task
      (completedTask loopSlices taskDef inputs schema output false task) fun _ => none := by
  have hId := (findTask_some hFound).2
  have hOne := (hFirst.attempt id task hTask).1
  have hNoSlice {slice : List String} (hSlice : (task.taskDefId, slice) ∈
      computeLoopSlices definition) : False := by
    obtain ⟨found, verifier, hSame, hVerifier, _⟩ := hDef.slice_verifier hSlice
    rw [hFound] at hSame
    cases hSame
    rw [hPlain] at hVerifier
    cases hVerifier
  refine ⟨h.decision hTask, ⟨rfl, rfl⟩, rfl, completedTask_satisfied,
    fun _ => .inl rfl, fun key b hb hNode => ?_, fun verifierId state hState => ?_⟩
  · rcases sliceNode_eq hNode with ⟨slice, hSlice, _⟩ | ⟨hOutside, hSame⟩
    · exact (hNoSlice hSlice).elim
    · have hGeneration := hFirst.generation (h.decision hTask) hOne hb
      have hKey : key = id := by
        rw [hKeyed key b hb, hKeyed id _ h.own, hGeneration, hSame]
        exact congrArg _ hOne.symm
      rw [hKey, h.own] at hb
      cases hb
      refine if_neg fun hIn => ?_
      obtain ⟨entry, hEntry, hMem⟩ := isTaskInLoopSlice_iff.mp hIn
      rw [hId, ← hSame] at hMem
      exact hOutside entry (hSlices.mem_iff.mp hEntry) hMem
  · rw [h.verifierStates] at hState
    refine ⟨by rw [hState]; rfl, fun hSame hSlice => ?_, fun _ => hState⟩
    obtain ⟨slice, hSlice⟩ := hSlice
    rw [hSame] at hSlice
    exact (hNoSlice hSlice).elim

/-- An acceptance satisfies every attempt of its slice, since all of them are
of the first generation, and it accepts the state of its verifier. -/
theorem WorkflowEngine.VerdictEffect.good {middle : WorkflowInstance} {schema : Option JsonSchema}
    {output : Json} {metadata : VerifierAttemptMetadata} {state accepted : VerifierGenerationState}
    (hVerified : (taskVerifier taskDef).isSome = true)
    (hBefore : before.verifierStates.lookup taskDef.id = some state)
    (hCompletion : CompletionEffect before middle id
      (completedTask loopSlices taskDef inputs schema output false task) false)
    (h : VerdictEffect middle after id taskDef.id
      (judged metadata (sliceMark ((loopSlices.lookup taskDef.id).getD [taskDef.id])
        task.generationIndex .satisfied id))
      (sliceMark ((loopSlices.lookup taskDef.id).getD [taskDef.id]) task.generationIndex .satisfied)
      NothingNew accepted) (hAccepted : accepted.status = .accepted) :
    ∃ own mark, GoodResult definition before after id task own mark := by
  have hId := (findTask_some hFound).2
  have hOne := (hFirst.attempt id task hTask).1
  have hSlice := hDef.verdict_slice hSlices hFound hVerified
  have hDecision := h.decision hCompletion hTask
  refine ⟨_, _, hDecision, ⟨rfl, rfl⟩, rfl, fun hSatisfied => ?_, sliceMark_cases,
    fun key b hb hNode => ?_, fun verifierId state hState => ?_⟩
  · have hOwn : (completedTask loopSlices taskDef inputs schema output false
        task).satisfactionStatus = .satisfied := completedTask_satisfied hSatisfied
    exact TaskInstance.marked_satisfied (sliceMark_cases _) hOwn
  · rcases sliceNode_eq hNode with ⟨found, hFoundSlice, hMem⟩ | ⟨hOutside, hSame⟩
    · rw [← hId] at hFoundSlice
      rw [hDef.slice_unique hSlice hFoundSlice] at hMem
      have hMark : sliceMark ((loopSlices.lookup taskDef.id).getD [taskDef.id])
          task.generationIndex .satisfied key = some .satisfied := by
        refine if_pos (List.mem_map.mpr ⟨b.taskDefId, hMem, ?_⟩)
        rw [hKeyed key b hb, hFirst.generation hDecision hOne hb, hOne]
      by_cases hKey : key = id
      · rw [hKey, hDecision.own] at hb
        cases hb
        rw [hKey] at hMark
        rw [hMark]
        rfl
      · cases ha : before.tasks.lookup key with
        | none =>
            have hNone := hDecision.new key ha
            rw [hb] at hNone
            cases hNone
        | some a =>
            have hKept := hDecision.kept key a hKey ha
            rw [hb, hMark] at hKept
            cases hKept
            rfl
    · rw [hSame, ← hId] at hOutside
      exact absurd (hDef.verifier_mem hSlice) (hOutside _ hSlice)
  · by_cases hOwn : verifierId = taskDef.id
    · rw [hOwn, h.state] at hState
      cases hState
      exact ⟨by rw [hOwn, hBefore]; rfl, fun _ _ => hAccepted, fun hOther =>
        absurd (hOwn.trans hId) hOther⟩
    · rw [h.states verifierId hOwn, hCompletion.verifierStates] at hState
      exact ⟨by rw [hState]; rfl, fun hSame => absurd (hSame.trans hId.symm) hOwn,
        fun _ => hState⟩

/-- A good answer has a good result. -/
theorem WorkflowEngine.Outcome.good (hGood : GoodAnswer ext taskDef answer)
    (hNext : ∃ message, result.next = .checkPause message)
    (h : Outcome ext before after loopSlices id task taskDef inputs answer result) :
    result.next = .checkPause none ∧
      ∃ own mark, GoodResult definition before after id task own mark := by
  obtain ⟨output, rfl, _, hNoExit, hAccepts⟩ := hGood
  cases h with
  | stopped _ _ _ _ hStops _ =>
      obtain ⟨_, hStops⟩ := hStops
      obtain ⟨_, hGoesOn⟩ := hNext
      rw [hStops] at hGoesOn
      cases hGoesOn
  | plain hPlain hExit hNone hEffect hAnswer =>
      cases hAnswer.answer
      rw [hNoExit] at hExit
      cases hExit
      exact ⟨hNone, _, _, hEffect.good hDef hSlices hKeyed hFirst hTask hFound hPlain⟩
  | judged hVerifier hExit hDecided hBefore hNone hCompletion hVerdict hAnswer =>
      cases hAnswer.answer
      rw [hNoExit] at hExit
      cases hExit
      have hVerified : (taskVerifier taskDef).isSome = true := by
        rw [hVerifier]
        rfl
      obtain ⟨decided, hSame, hComplete⟩ := hAccepts hVerified
      rw [hDecided] at hSame
      cases hSame
      cases hVerdict with
      | interrupted hContinue | rerun hContinue | exhausted hContinue =>
          rw [hComplete] at hContinue
          cases hContinue
      | failed _ _ _ _ hContinue =>
          rw [hComplete] at hContinue
          cases hContinue.1
      | complete _ hMessage hEffect =>
          rw [hMessage] at hNone
          exact ⟨hNone, hEffect.good hDef hSlices hKeyed hFirst hTask hFound hVerified hBefore
            hCompletion rfl⟩

end Good

end Result

/-! ### The other commits of a pass -/

section Commit

variable {loopSlices : LoopSlices} {plan : List String}

/-- A commit that changes neither attempts nor states keeps it there. -/
theorem FirstGeneration.of_same (h : FirstGeneration definition before)
    (hTasks : after.tasks = before.tasks) (hStates : SameStates before after) :
    FirstGeneration definition after := by
  have hCompleted {taskId : String} (hAfter : HasCompleted after taskId) :
      HasCompleted before taskId := by
    obtain ⟨key, b, hb, hStatus⟩ := hAfter
    exact ⟨key, b, ⟨hTasks ▸ hb.found, hb.taskDefId⟩, hStatus⟩
  refine ⟨fun key b hb => h.attempt key b (hTasks ▸ hb),
    fun key b hb hNode => h.satisfied key b (hTasks ▸ hb) (hCompleted hNode),
    fun verifierId state hState => ?_⟩
  rw [hStates] at hState
  obtain ⟨hVerifier, hAccepted⟩ := h.states verifierId state hState
  exact ⟨hVerifier, fun hAfter => hAccepted (hCompleted hAfter)⟩

/-- So does the creation of the first attempts. -/
theorem FirstGeneration.of_initialTasks (h : FirstGeneration definition before)
    (hTasks : ∀ key b, after.tasks.lookup key = some b → ∃ taskDef ∈ definition.tasks,
      key = makeTaskAttemptId taskDef.id 1 ∧ b = initialTask before definition taskDef)
    (hStates : SameStates before after) : FirstGeneration definition after := by
  have hNone (taskId : String) : ¬HasCompleted after taskId := by
    rintro ⟨key, b, hb, hStatus⟩
    obtain ⟨_, _, _, rfl⟩ := hTasks key b hb.found
    cases hStatus
  refine ⟨fun key b hb => ?_, fun _ _ _ hNode => absurd hNode (hNone _),
    fun verifierId state hState => ?_⟩
  · obtain ⟨_, _, _, rfl⟩ := hTasks key b hb
    exact ⟨rfl, .inl rfl⟩
  · rw [hStates] at hState
    exact ⟨(h.states verifierId state hState).1, fun hCompleted => absurd hCompleted (hNone _)⟩

/-- The first generations of the slices are generation 1 as well. -/
theorem FirstGeneration.of_generations (hDef : WellFormedDef definition)
    (h : FirstGeneration definition before) (hStarts : SliceStarts definition ⟨before, plan⟩)
    (hSlices : loopSlices.Perm (computeLoopSlices definition))
    (hAfter : GenerationsAfter definition loopSlices before after) :
    FirstGeneration definition after := by
  have hCompleted {taskId : String} (hNew : HasCompleted after taskId) :
      HasCompleted before taskId := by
    obtain ⟨key, b, hb, hStatus⟩ := hNew
    exact ⟨key, b, ⟨hAfter.tasks ▸ hb.found, hb.taskDefId⟩, hStatus⟩
  refine ⟨fun key b hb => h.attempt key b (hAfter.tasks ▸ hb),
    fun key b hb hNode => h.satisfied key b (hAfter.tasks ▸ hb) (hCompleted hNode),
    fun verifierId state hState => ?_⟩
  cases hOld : before.verifierStates.lookup verifierId with
  | some old =>
      rw [hAfter.kept verifierId old hOld] at hState
      cases hState
      obtain ⟨hVerifier, hAccepted⟩ := h.states verifierId _ hOld
      exact ⟨hVerifier, fun hNew => hAccepted (hCompleted hNew)⟩
  | none =>
      -- A slice whose first generation starts has nothing completed.
      obtain ⟨slice, _, hFound, _⟩ := hAfter.started verifierId state hOld hState
      have hSlice := hSlices.mem_iff.mp hFound
      refine ⟨⟨slice, hSlice⟩, fun hNew => ?_⟩
      obtain ⟨key, b, hb, hStatus⟩ := hCompleted hNew
      rcases (hStarts.unstarted verifierId slice hSlice hOld).status hb.found
        (hb.taskDefId ▸ hDef.verifier_mem hSlice) with hPending | hSkipped
      · rw [hStatus] at hPending
        cases hPending
      · rw [hStatus] at hSkipped
        cases hSkipped

/-- Starting an attempt only changes its status. -/
theorem FirstGeneration.of_start (h : FirstGeneration definition before)
    (hTask : before.tasks.lookup id = some task)
    (hTasks : ∀ key, after.tasks.lookup key = if key = id then some { task with status := .running }
      else before.tasks.lookup key)
    (hStates : SameStates before after) : FirstGeneration definition after := by
  have hOrigin {key : String} {b : TaskInstance} (hb : after.tasks.lookup key = some b) :
      ∃ a, before.tasks.lookup key = some a ∧ b.taskDefId = a.taskDefId ∧
        b.generationIndex = a.generationIndex ∧ b.satisfactionStatus = a.satisfactionStatus ∧
        (b.status = a.status ∨ b.status = .running) := by
    rw [hTasks] at hb
    split at hb
    · rename_i hKey
      cases hb
      exact ⟨task, hKey ▸ hTask, rfl, rfl, rfl, .inr rfl⟩
    · exact ⟨b, hb, rfl, rfl, rfl, .inl rfl⟩
  have hCompleted {taskId : String} (hAfter : HasCompleted after taskId) :
      HasCompleted before taskId := by
    obtain ⟨key, b, hb, hStatus⟩ := hAfter
    obtain ⟨a, ha, hDefId, _, _, hSame | hRunning⟩ := hOrigin hb.found
    · exact ⟨key, a, ⟨ha, hDefId.symm.trans hb.taskDefId⟩, hSame.symm.trans hStatus⟩
    · rw [hStatus] at hRunning
      cases hRunning
  refine ⟨fun key b hb => ?_, fun key b hb hNode => ?_, fun verifierId state hState => ?_⟩
  · obtain ⟨a, ha, _, hGeneration, _, hStatus⟩ := hOrigin hb
    obtain ⟨hFirst, hOld⟩ := h.attempt key a ha
    refine ⟨hGeneration.trans hFirst, ?_⟩
    rcases hStatus with hSame | hRunning
    · rw [hSame]
      exact hOld
    · exact .inr (.inl hRunning)
  · obtain ⟨a, ha, hDefId, _, hSatisfied, _⟩ := hOrigin hb
    rw [hSatisfied]
    exact h.satisfied key a ha (hDefId ▸ hCompleted hNode)
  · rw [hStates] at hState
    obtain ⟨hVerifier, hAccepted⟩ := h.states verifierId state hState
    exact ⟨hVerifier, fun hAfter => hAccepted (hCompleted hAfter)⟩

end Commit

/-! ### What waits -/

section Stuck

variable {workflow : WorkflowInstance} {taskId : String}

/-- Every attempt of a completed task is completed. -/
theorem FirstGeneration.completed_of_task (h : FirstGeneration definition workflow)
    (hKeyed : Keyed workflow) (hCompleted : HasCompleted workflow taskId) {id : String}
    {task : TaskInstance} (hTask : IsAttempt workflow taskId id task) : task.status = .completed := by
  obtain ⟨key, other, hOther, hStatus⟩ := hCompleted
  have hKey : key = id := by
    rw [hKeyed key other hOther.found, hKeyed id task hTask.found, hOther.taskDefId, hTask.taskDefId,
      (h.attempt key other hOther.found).1, (h.attempt id task hTask.found).1]
  have hFound := hOther.found
  rw [hKey, hTask.found] at hFound
  cases hFound
  exact hStatus

/-- A task that has completed has its completed attempt as the latest, for
there is just the one. -/
theorem FirstGeneration.latest (h : FirstGeneration definition workflow) (hKeyed : Keyed workflow)
    (hCompleted : HasCompleted workflow taskId) : ∃ id task,
      latestMaterializedAttemptId workflow taskId = some id ∧ workflow.tasks.lookup id = some task ∧
        task.status = .completed := by
  cases hLatest : latestMaterializedAttemptId workflow taskId with
  | none =>
      obtain ⟨key, a, ha, _⟩ := hCompleted
      have hNone := FiniteMap.maxKeyBy_none.mp hLatest key a ha.found
      simp [ha.taskDefId] at hNone
  | some id =>
      obtain ⟨task, hTask, hDefId, _⟩ := latestMaterializedAttemptId_some hLatest
      exact ⟨id, task, rfl, hTask, h.completed_of_task hKeyed hCompleted ⟨hTask, hDefId⟩⟩

/-- A task whose node has completed gives what consumes it its input. -/
theorem FirstGeneration.latestSatisfied (h : FirstGeneration definition workflow)
    (hCompleted : HasCompleted workflow taskId)
    (hNode : HasCompleted workflow (definition.sliceNode taskId)) : ∃ id task,
      latestSatisfiedAttemptId workflow taskId = some id ∧ workflow.tasks.lookup id = some task ∧
        task.status = .completed := by
  cases hLatest : latestSatisfiedAttemptId workflow taskId with
  | none =>
      obtain ⟨key, a, ha, hStatus⟩ := hCompleted
      have hNone := FiniteMap.maxKeyBy_none.mp hLatest key a ha.found
      have hSatisfied := h.satisfied key a ha.found (ha.taskDefId.symm ▸ hNode)
      simp [ha.taskDefId, hStatus, hSatisfied] at hNone
  | some id =>
      obtain ⟨task, hTask, _, hStatus, _⟩ := latestSatisfiedAttemptId_some hLatest
      exact ⟨id, task, rfl, hTask, hStatus⟩

/-- Inputs resolve when every binding does. -/
theorem canRun_of_bindings {loopSlices : LoopSlices} {task : TaskInstance} {taskDef : TaskDef}
    (hFound : definition.findTask task.taskDefId = some taskDef)
    (h : ∀ binding ∈ inboundBindings definition task.taskDefId,
      ∃ entry, resolveBinding workflow loopSlices task.taskDefId binding = some entry) :
    canRun workflow definition loopSlices task = true := by
  unfold canRun
  rw [hFound, Option.any_some, resolveInputs]
  split
  · rfl
  · rw [Option.isSome_map]
    rw [← (findTask_some hFound).2] at h ⊢
    obtain ⟨entries, hEntries⟩ : ∃ entries, List.Forall₂ (fun binding entry =>
        resolveBinding workflow loopSlices taskDef.id binding = some entry)
        (inboundBindings definition taskDef.id) entries := by
      generalize inboundBindings definition taskDef.id = bindings at h
      induction bindings with
      | nil => exact ⟨[], .nil⟩
      | cons binding bindings ih =>
          obtain ⟨entry, hEntry⟩ := h binding List.mem_cons_self
          obtain ⟨entries, hEntries⟩ := ih fun other hMem => h other (List.mem_cons_of_mem _ hMem)
          exact ⟨entry :: entries, .cons hEntry hEntries⟩
    rw [mapM_eq_some.mpr hEntries]
    rfl

/-- A pending attempt can run once its sources, and the nodes of those of other
slices, have completed. -/
theorem FirstGeneration.canRun (hDef : WellFormedDef definition)
    (h : FirstGeneration definition workflow) (hKeyed : Keyed workflow) {task : TaskInstance}
    {taskDef : TaskDef} (hFound : definition.findTask task.taskDefId = some taskDef)
    (hSources : ∀ source, (source, task.taskDefId) ∈ definition.edges → HasCompleted workflow source ∧
      (definition.sliceNode source ≠ definition.sliceNode task.taskDefId →
        HasCompleted workflow (definition.sliceNode source))) :
    WorkflowEngine.canRun workflow definition (computeLoopSlices definition) task = true := by
  refine canRun_of_bindings hFound fun binding hBinding => ?_
  obtain ⟨hMem, hTarget⟩ := List.mem_filter.mp hBinding
  have hEdge : (binding.sourceTaskId, task.taskDefId) ∈ definition.edges :=
    List.mem_map.mpr ⟨binding, hMem, by rw [of_decide_eq_true hTarget]⟩
  obtain ⟨hCompleted, hNode⟩ := hSources binding.sourceTaskId hEdge
  have hResolved : ∃ id found, resolveSourceAttemptId workflow (computeLoopSlices definition)
      (some task.taskDefId) binding.sourceTaskId = some id ∧
      workflow.tasks.lookup id = some found ∧ found.status = .completed := by
    by_cases hInside : ∃ entry, sliceOf (computeLoopSlices definition) task.taskDefId = some entry ∧
        binding.sourceTaskId ∈ entry.2
    · obtain ⟨entry, hEntry, hSource⟩ := hInside
      rw [resolveSourceAttemptId_inside hEntry hSource]
      exact h.latest hKeyed hCompleted
    · rw [resolveSourceAttemptId_outside fun entry hEntry hSource => hInside ⟨entry, hEntry, hSource⟩]
      exact h.latestSatisfied hCompleted (hNode fun hSame => hInside (hDef.shared_of_edge hEdge hSame))
  obtain ⟨id, found, hId, hTask, hStatus⟩ := hResolved
  exact ⟨_, resolveBinding_some.mpr ⟨id, found, hId, hTask, hStatus, rfl⟩⟩

/-- No attempt is running. -/
def NoneRunning (workflow : WorkflowInstance) : Prop :=
  ∀ id task, workflow.tasks.lookup id = some task → task.status ≠ .running

/-- When nothing can be started, every task has completed, unless slices wait
for each other. -/
theorem FirstGeneration.all_completed (hDef : WellFormedDef definition)
    (hUntangled : definition.Untangled) (h : FirstGeneration definition workflow)
    (hKeyed : Keyed workflow) (hInitialized : TasksInitialized definition workflow)
    (hNone : NoneRunning workflow)
    (hWaiting : ∀ id task, workflow.tasks.lookup id = some task → task.status = .pending →
      WorkflowEngine.canRun workflow definition (computeLoopSlices definition) task = false)
    (hMem : taskId ∈ definition.taskIds) : HasCompleted workflow taskId := by
  obtain ⟨nodeRank, hNodeRank⟩ := acyclic_iff_ranked.mp hUntangled
  obtain ⟨rank, hRank⟩ := hDef.ranked
  -- The nodes in the order of their graph, and within a slice the tasks in theirs.
  suffices hAll : ∀ n m taskId, taskId ∈ definition.taskIds →
      nodeRank (definition.sliceNode taskId) = n → rank taskId = m → HasCompleted workflow taskId from
    hAll _ _ taskId hMem rfl rfl
  intro n
  induction n using Nat.strongRecOn with
  | ind n ihNode =>
      intro m
      induction m using Nat.strongRecOn with
      | ind m ih =>
          rintro taskId hMem rfl rfl
          obtain ⟨taskDef, hFound⟩ := findTask_isSome hMem
          obtain ⟨hTaskDef, rfl⟩ := findTask_some hFound
          obtain ⟨task, hTask⟩ := Option.isSome_iff_exists.mp (hInitialized taskDef hTaskDef)
          obtain ⟨hDefId, _⟩ := makeTaskAttemptId_inj.mp (hKeyed _ task hTask)
          rcases (h.attempt _ task hTask).2 with hPending | hRunning | hCompleted
          · have hRun : WorkflowEngine.canRun workflow definition (computeLoopSlices definition) task =
                true := by
              refine h.canRun hDef hKeyed (hDefId ▸ hFound) fun source hEdge => ?_
              rw [← hDefId] at hEdge ⊢
              have hSource := (hDef.edge_mem hEdge).1
              by_cases hSame : definition.sliceNode source = definition.sliceNode taskDef.id
              · exact ⟨ih _ (hRank _ _ hEdge) source hSource (by rw [hSame]) rfl,
                  fun hNodes => absurd hSame hNodes⟩
              · have hLower := hNodeRank _ _ (mem_sliceEdges.mpr ⟨hSame, source, _, hEdge, rfl, rfl⟩)
                exact ⟨ihNode _ hLower _ source hSource rfl rfl, fun _ => ihNode _ hLower _ _
                  (hDef.sliceNode_mem hSource) (by rw [hDef.sliceNode_idem]) rfl⟩
            rw [hWaiting _ task hTask hPending] at hRun
            cases hRun
          · exact absurd hRunning (hNone _ task hTask)
          · exact ⟨_, task, ⟨hTask, hDefId.symm⟩, hCompleted⟩

/-- Nothing is stuck, unless slices wait for each other. -/
theorem FirstGeneration.not_stuck (hDef : WellFormedDef definition)
    (hUntangled : definition.Untangled) (h : FirstGeneration definition workflow)
    (hKeyed : Keyed workflow) (hInitialized : TasksInitialized definition workflow)
    (hNone : NoneRunning workflow) : ¬Stuck definition workflow := by
  intro hStuck
  have hAll {taskId : String} (hMem : taskId ∈ definition.taskIds) : HasCompleted workflow taskId :=
    h.all_completed hDef hUntangled hKeyed hInitialized hNone hStuck.waiting hMem
  have hFinished : workflowAllCompleted workflow definition = true := by
    refine workflowAllCompleted_iff.mpr ⟨fun taskDef hMem => ?_, fun verifierId state hState => ?_⟩
    · obtain ⟨id, task, hLatest, hTask, hCompleted⟩ :=
        h.latest hKeyed (hAll (List.mem_map_of_mem hMem))
      exact ⟨id, task, hLatest, hTask, .inl hCompleted⟩
    · obtain ⟨⟨slice, hSlice⟩, hAccepted⟩ := h.states verifierId state hState
      exact .inl (hAccepted (hAll (slice_subset_taskIds hSlice _ (hDef.verifier_mem hSlice))))
  rw [hStuck.unfinished] at hFinished
  cases hFinished

/-- A task on a cycle of slices keeps the workflow from its end. -/
theorem FirstGeneration.unfinished (h : FirstGeneration definition workflow)
    (hMem : taskId ∈ definition.taskIds) (hNever : ¬HasCompleted workflow taskId) :
    workflowAllCompleted workflow definition = false := by
  rw [← Bool.not_eq_true]
  intro hAll
  obtain ⟨taskDef, hFound⟩ := findTask_isSome hMem
  obtain ⟨hTaskDef, rfl⟩ := findTask_some hFound
  obtain ⟨id, task, hLatest, hTask, hStatus⟩ := (workflowAllCompleted_iff.mp hAll).1 taskDef hTaskDef
  obtain ⟨found, hFoundTask, hDefId, _⟩ := latestMaterializedAttemptId_some hLatest
  rw [hTask] at hFoundTask
  cases hFoundTask
  rcases hStatus with hCompleted | hSkipped
  · exact hNever ⟨id, task, ⟨hTask, hDefId⟩, hCompleted⟩
  · rcases (h.attempt id task hTask).2 with hOther | hOther | hOther <;>
      rw [hSkipped] at hOther <;> cases hOther

end Stuck

end RelayFold
