import RelayFold.Lifecycle.AnswersRecorded
import RelayFold.Lifecycle.PassDispatches
import RelayFold.Lifecycle.PassOutcomes

/-! A pass never panics: the attempts and the tasks that it unwraps exist,
whoever writes the instance meanwhile. -/
namespace RelayFold

open WorkflowEngine WorkflowStateManager FallibleFold

def PassState.Panicked (state : PassState) : Prop := state = .finished .panicked

section Functions

variable {definition : WorkflowDef} {workflow : WorkflowInstance} {pass : ActivePass}

theorem not_panicked_goOn (point : PassPoint) : ¬(pass.goOn workflow point).Panicked :=
  fun h => by cases h

theorem not_panicked_error (message : String) : ¬(PassState.finished (.error message)).Panicked :=
  fun h => by cases h

theorem not_panicked_ok : ¬(PassState.finished .ok).Panicked := fun h => by cases h

theorem leaveLoop_not_panicked : ¬(pass.leaveLoop workflow).Panicked := by
  unfold ActivePass.leaveLoop
  split
  · exact not_panicked_goOn _
  · exact not_panicked_ok

/-- The search for the next attempt unwraps ids that the snapshot has. -/
theorem nextTask_not_panicked {atEnd : PassState} {ids : List String}
    (hIds : ∀ id ∈ ids, (workflow.tasks.lookup id).isSome = true) (hEnd : ¬atEnd.Panicked) :
    ¬(pass.nextTask workflow atEnd ids).Panicked := by
  induction ids with
  | nil => exact hEnd
  | cons id rest ih =>
      obtain ⟨task, hTask⟩ := Option.isSome_iff_exists.mp (hIds id List.mem_cons_self)
      unfold ActivePass.nextTask
      rw [hTask]
      dsimp only
      split
      · exact ih fun other hMem => hIds other (List.mem_cons_of_mem _ hMem)
      · exact not_panicked_goOn _

variable (hLoaded : pass.definition = definition) (hKnown : KnownTasks definition workflow)
include hLoaded hKnown

/-- So do the starts of the runnable attempts, whose ids are taken from the
snapshot. -/
theorem startTasks_not_panicked {atEnd : PassState} (hEnd : ¬atEnd.Panicked) :
    ¬(pass.startTasks workflow atEnd).Panicked := by
  unfold ActivePass.startTasks
  obtain ⟨ready, hReady⟩ := hKnown.tasksToRun pass.loopSlices
  rw [hLoaded, hReady]
  refine nextTask_not_panicked (fun id hMem => ?_) hEnd
  obtain ⟨task, hTask, _⟩ := mem_tasksToRun hReady hMem
  rw [hTask]
  rfl

theorem enterLoop_not_panicked : ¬(pass.enterLoop workflow).Panicked := by
  unfold ActivePass.enterLoop
  dsimp only
  split
  · exact startTasks_not_panicked hLoaded hKnown leaveLoop_not_panicked
  · exact not_panicked_goOn _

theorem initializeTasks_not_panicked : ¬(pass.initializeTasks workflow).Panicked := by
  unfold ActivePass.initializeTasks
  split
  · exact not_panicked_goOn _
  · exact enterLoop_not_panicked hLoaded hKnown

/-- The inputs of an attempt are resolved for an attempt that exists. -/
theorem prepareDispatch_not_panicked {id : String} (ext : Externals)
    (hTask : (workflow.tasks.lookup id).isSome = true) (rest : List String) :
    ¬(pass.prepareDispatch ext workflow id rest).Panicked := by
  obtain ⟨task, hTask⟩ := Option.isSome_iff_exists.mp hTask
  obtain ⟨started, hStarted, _⟩ := hKnown.startedTask pass.loopSlices hTask
  unfold ActivePass.prepareDispatch
  rw [hLoaded, hStarted]
  dsimp only
  split
  · exact not_panicked_goOn _
  · exact not_panicked_goOn _

/-- After a result the pass goes on with the attempts that it has listed
before, none of which has been removed since. -/
theorem afterResult_not_panicked {ext : Externals} {before : WorkflowInstance}
    {loopSlices : LoopSlices} {id : String} {taskDef : TaskDef} {inputs : ResolvedTaskInputs}
    {answer : Answer} {result : ResultCommit}
    (hRecorded : Recorded ext before definition loopSlices id taskDef inputs answer result)
    {rest : List String} (hRest : ∀ id ∈ rest, (workflow.tasks.lookup id).isSome = true) :
    ¬(pass.afterResult result rest workflow).Panicked := by
  have hEnd : ¬(pass.nextTask workflow (pass.enterLoop workflow) rest).Panicked :=
    nextTask_not_panicked hRest (enterLoop_not_panicked hLoaded hKnown)
  unfold ActivePass.afterResult
  rcases hRecorded.next_cases with hNext | ⟨_, _, hNext, _⟩ | ⟨message, hNext | hNext, _⟩
  · rw [hNext]
    dsimp only
    split
    · split
      · exact not_panicked_goOn _
      · exact not_panicked_ok
    · exact hEnd
  · rw [hNext]
    exact not_panicked_ok
  · rw [hNext]
    exact not_panicked_error message
  · rw [hNext]
    dsimp only
    split
    · split
      · exact not_panicked_goOn _
      · exact not_panicked_ok
    · exact not_panicked_error message

end Functions

section Answers

variable {ext : Externals} {env : EngineEnv} {pass : ActivePass} {started : StartedTask}
  {rest : List String}

theorem answered_not_panicked (answer : Answer) :
    ¬(pass.answered ext started rest answer).Panicked := by
  unfold ActivePass.answered
  split
  · exact not_panicked_error _
  · exact not_panicked_goOn _

/-- A task whose function cannot be resolved ends the pass with an error, not
with a panic. -/
theorem dispatch_not_panicked : ¬(pass.dispatch env started rest).Panicked := by
  unfold ActivePass.dispatch
  split
  · exact answered_not_panicked _
  · split
    · exact not_panicked_error _
    · exact not_panicked_goOn _

end Answers

section Step

variable {env : EngineEnv} {definition : WorkflowDef} {s s' : System} {plan : List String}

/-- A commit of a pass goes on from a snapshot with the same tasks, or ends
with an error. -/
theorem HistoryInv.commit_not_panicked (h : HistoryInv env definition s) {base : WorkflowInstance}
    (hHeld : base ∈ s.snapshots) {events : List WorkflowInstanceEvent}
    {next : WorkflowInstance → PassState}
    (hKnown : KnownTasks definition
      (s.advance (ActivePass.commit s.stored base events next)).stored)
    (hNext : base = s.stored → ∀ updated, KnownTasks definition updated →
      (∀ id, (s.stored.tasks.lookup id).isSome = true → (updated.tasks.lookup id).isSome = true) →
      ¬(next updated).Panicked) :
    ¬(s.advance (ActivePass.commit s.stored base events next)).pass.Panicked := by
  rcases h.commit_cases hHeld events next with
    ⟨message, hCommit⟩ | ⟨hBase, _, reduced, hReduce, hCommit⟩
  · rw [hCommit]
    exact not_panicked_error message
  · rw [hCommit] at hKnown ⊢
    exact hNext hBase _ hKnown fun id hTask => foldlM_keeps hReduce hTask

/-- The next operation of a pass does not panic. -/
theorem Refines.step_not_panicked (h : Refines env definition s ⟨s.stored, plan⟩)
    (hStarts : SliceStarts definition ⟨s.stored, plan⟩) {pass : ActivePass}
    (hInv : ActiveInv env.ext definition plan s pass)
    (hKnown : KnownTasks definition (s.advance (pass.step env s.stored)).stored) :
    ¬(s.advance (pass.step env s.stored)).pass.Panicked := by
  have hPoint := hInv.point
  have hPlanned {updated : WorkflowInstance} {rest : List String}
      (hKept : ∀ id, (s.stored.tasks.lookup id).isSome = true →
        (updated.tasks.lookup id).isSome = true)
      (hRest : ∀ id ∈ rest, id ∈ plan) : ∀ id ∈ rest, (updated.tasks.lookup id).isSome = true := by
    intro id hMem
    obtain ⟨task, hTask, _⟩ := hStarts.planned id (hRest id hMem)
    exact hKept id (by rw [hTask]; rfl)
  unfold PointInv at hPoint
  unfold ActivePass.step at hKnown ⊢
  cases hCase : pass.point with
  | commitRunning =>
      simp only [hCase] at hKnown ⊢
      exact h.history.commit_not_panicked hInv.held hKnown fun _ _ hUpdated _ =>
        initializeTasks_not_panicked hInv.loaded hUpdated
  | commitInitialTasks =>
      simp only [hCase] at hKnown ⊢
      exact h.history.commit_not_panicked hInv.held hKnown fun _ _ hUpdated _ =>
        enterLoop_not_panicked hInv.loaded hUpdated
  | commitGenerations events =>
      simp only [hCase] at hKnown ⊢
      exact h.history.commit_not_panicked hInv.held hKnown fun _ _ hUpdated _ =>
        startTasks_not_panicked hInv.loaded hUpdated (enterLoop_not_panicked hInv.loaded hUpdated)
  | checkPaused id rest =>
      dsimp only
      split
      · exact not_panicked_ok
      · exact not_panicked_goOn _
  | commitStart id rest =>
      simp only [hCase] at hPoint hKnown ⊢
      obtain ⟨_, _, _, _, task, hTask, _⟩ := hPoint
      refine h.history.commit_not_panicked hInv.held hKnown fun hBase updated hUpdated hKept => ?_
      rw [hBase] at hTask
      exact prepareDispatch_not_panicked hInv.loaded hUpdated env.ext
        (hKept id (by rw [hTask]; rfl)) rest
  | commitInputFailure started error =>
      simp only [hCase] at hKnown ⊢
      exact h.history.commit_not_panicked hInv.held hKnown fun _ _ _ _ => not_panicked_error error
  | resolveFunction started rest => exact dispatch_not_panicked
  | awaitAnswer started call rest => exact not_panicked_goOn _
  | readCurrent started answer result rest => exact not_panicked_goOn _
  | commitResult started answer result base rest =>
      simp only [hCase] at hPoint hKnown ⊢
      obtain ⟨_, _, _, hRest, hResult, hBase⟩ := hPoint
      have hHeld : base ∈ s.snapshots := by
        rcases hBase with rfl | ⟨hHeld, _⟩
        · exact hInv.held
        · exact hHeld
      exact h.history.commit_not_panicked hHeld hKnown fun _ _ hUpdated hKept =>
        afterResult_not_panicked hInv.loaded hUpdated (resultCommit_ok hResult)
          (hPlanned hKept hRest)
  | commitPauseCompleted | commitCompleted =>
      simp only [hCase] at hKnown ⊢
      exact h.history.commit_not_panicked hInv.held hKnown fun _ _ _ _ => not_panicked_ok

/-- No step ends a pass with a panic. -/
theorem Tracked.step_not_panicked (hDef : WellFormedDef definition)
    (hTracked : Tracked env definition s) (hKnown : KnownTasks definition s.stored)
    (hPass : ¬s.pass.Panicked) {action : Action} (hStep : s.step env action = some s') :
    ¬s'.pass.Panicked := by
  obtain ⟨_, hKnown'⟩ := hTracked.knownTasks hDef hKnown (Run.single hStep)
  obtain ⟨⟨stored, plan⟩, hRefines, hStarts⟩ := hTracked
  obtain rfl : stored = s.stored := hRefines.stored
  cases action with
  | startPass order =>
      simp only [System.step] at hStep
      split at hStep
      · cases hStep
      · cases hStep
        exact fun h => by cases h
  | passStep =>
      rw [System.step_passStep] at hStep
      obtain rfl := Option.some.inj hStep
      have hInv := hRefines.pass
      cases hState : s.pass with
      | idle => exact fun h => by cases h
      | finished result =>
          rw [hState] at hPass
          exact hPass
      | loading order =>
          change ¬(PassState.loaded order (some s.stored)).Panicked
          unfold PassState.loaded
          dsimp only
          split <;> exact fun h => by cases h
      | loadingDef order workflow =>
          rw [hState] at hInv
          change ¬(PassState.loadedDef order workflow (env.definitions workflow.workflowDefId)).Panicked
          rw [hRefines.history.defId workflow hInv.1]
          exact fun h => by cases h
      | active pass =>
          rw [hState] at hInv hKnown'
          exact hRefines.step_not_panicked hStarts hInv hKnown'
  | answer result =>
      obtain ⟨state, hAnswer, rfl⟩ := Option.map_eq_some_iff.mp hStep
      cases hState : s.pass with
      | active pass =>
          rw [hState] at hAnswer
          simp only [PassState.answer] at hAnswer
          split at hAnswer
          · cases hAnswer
            exact answered_not_panicked result
          · cases hAnswer
      | idle | loading _ | loadingDef _ _ | finished _ =>
          rw [hState] at hAnswer
          cases hAnswer
  | crash =>
      cases hStep
      exact fun h => by cases h
  | request request seen =>
      rw [System.step_request_pass hStep]
      exact hPass
  | recover listed seen current =>
      rw [System.step_recover_pass hStep]
      exact hPass

/-- Whatever a dispatch is answered, the pass goes on with a result to
commit. -/
theorem Tracked.answer_inFlight (hDef : WellFormedDef definition)
    (hTracked : Tracked env definition s) {answer : Answer}
    (hStep : s.step env (.answer answer) = some s') : s'.pass.inFlight = true := by
  obtain ⟨l, h, hStarts⟩ := hTracked
  obtain ⟨state, hAnswer, rfl⟩ := Option.map_eq_some_iff.mp hStep
  have hInv := h.pass
  cases hPass : s.pass with
  | active pass =>
      rw [hPass] at hAnswer hInv
      simp only [PassState.answer] at hAnswer
      split at hAnswer
      · rename_i started call rest hPoint
        cases hAnswer
        have hKnows := hInv.point
        simp only [PointInv, hPoint] at hKnows
        obtain ⟨_, hWorking, hStarted, _⟩ := hKnows
        have hStored : Started definition pass.loopSlices l.stored started :=
          h.stored ▸ hStarted.of_sameWork hWorking.same
        obtain ⟨result, hResult, _⟩ : Recordable l.stored (resultCommit env.ext l.stored definition
            pass.loopSlices started.taskAttemptId started.taskDef started.inputs answer) :=
          (hStarts.answerable hDef hStored).recordable env.ext started.inputs answer
        rw [h.stored, hWorking.same, resultCommit_marked] at hResult
        change (pass.answered env.ext started rest answer).inFlight = true
        rw [ActivePass.answered, hInv.loaded, hResult]
        rfl
      · cases hAnswer
  | idle | loading _ | loadingDef _ _ | finished _ =>
      rw [hPass] at hAnswer
      cases hAnswer

end Step

end RelayFold
