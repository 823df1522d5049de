import RelayFold.Lifecycle.ConcurrentPasses
import RelayFold.Lifecycle.Failures

/-! Results that are recorded on a paused instance. The pause is kept by every
result that does not fail the workflow, but for a request for input. -/
namespace RelayFold

open WorkflowEngine WorkflowStateManager WorkflowService

/-- The event fails the workflow. -/
def WorkflowInstanceEvent.failsWorkflow : WorkflowInstanceEvent → Bool
  | workflowStatusChanged .failed => true
  | _ => false

/-- The requests that put a paused or failed instance back to work. -/
def Request.restarts : Request → Bool
  | resumeWorkflow | retryTask _ | forceRetryTask .. => true
  | _ => false

/-- The status of an instance that nothing is dispatched for. -/
def WorkflowInstance.Rests (workflow : WorkflowInstance) : Prop :=
  workflow.status = .paused ∨ workflow.status = .completed ∨ workflow.status = .failed

theorem WorkflowInstance.Rests.ne_running {workflow : WorkflowInstance} (h : workflow.Rests) :
    workflow.status ≠ .running := by
  rcases h with h | h | h <;> rw [h] <;> exact nofun

theorem StartsNone.trans {a b c : WorkflowInstance} (h : StartsNone a b) (h' : StartsNone b c) :
    StartsNone a c := by
  intro id task hTask hRunning
  obtain ⟨middle, hMiddle, hMiddleRunning⟩ := h' id task hTask hRunning
  exact h id middle hMiddle hMiddleRunning

/-- A request that does not restart the instance lets it rest. -/
theorem Request.batch_rests {definitions : String → Option WorkflowDef}
    {workflow reduced : WorkflowInstance} {request : Request} {events : List WorkflowInstanceEvent}
    (hBatch : request.batch definitions workflow = .ok (some events))
    (hReduce : reduceWorkflowInstanceEvents (some workflow) events = .ok reduced)
    (hRests : workflow.Rests) (hRequest : request.restarts = false) : reduced.Rests := by
  cases request with
  | resumeWorkflow | retryTask _ | forceRetryTask _ _ => cases hRequest
  | pauseWorkflow =>
      simp only [Request.batch] at hBatch
      split at hBatch <;> cases hBatch
      all_goals
        cases reduce_single hReduce
        exact .inl rfl
  | submitHumanInput taskId submittedInput =>
      obtain ⟨waiting, hLoad, _⟩ := FallibleFold.bind_ok.mp hBatch
      have hStatus := (loadWaitingTask_ok hLoad).1
      rcases hRests with h | h | h <;> rw [h] at hStatus <;> cases hStatus
  | failPinnedToLostHosts lostHosts =>
      simp only [Request.batch] at hBatch
      split at hBatch
      · cases hBatch
      · split at hBatch <;> cases hBatch
        cases reduce_single hReduce
        exact .inr (.inr rfl)

namespace ConcurrentPasses

variable {env : EngineEnv} {s s' : ConcurrentPasses}

/-- The step restarts nothing, and records no request for input. -/
def Undisturbing (s : ConcurrentPasses) : ConcurrentAction → Prop
  | .request request _ => request.restarts = false
  | .passStep index => ∀ pass started inputRequest result base rest,
      s.passes[index]? = some (.active pass) →
      pass.point ≠ .commitResult started (.ok (.inputNeeded inputRequest)) result base rest
  | _ => True

abbrev UndisturbedSteps (env : EngineEnv) :
    ConcurrentPasses → List ConcurrentAction → ConcurrentPasses → Prop :=
  Run fun s action s' => step env s action = some s' ∧ Undisturbing s action

theorem answerStatus_failed {answer : Answer}
    (h : ∀ inputRequest, answer ≠ .ok (.inputNeeded inputRequest)) :
    answerStatus answer = .failed := by
  unfold answerStatus
  split
  · exact absurd rfl (h _)
  · rfl

theorem Inv.rests (h : Inv env s) {action : ConcurrentAction}
    (hStep : ConcurrentPasses.step env s action = some s')
    (hUndisturbing : Undisturbing s action) (hRests : s.stored.Rests) : s'.stored.Rests := by
  cases action with
  | startPass _ | crash _ =>
      cases hStep
      exact hRests
  | answer index result =>
      obtain ⟨pass, _, hAnswer⟩ := Option.bind_eq_some_iff.mp hStep
      obtain ⟨next, _, hDone⟩ := Option.bind_eq_some_iff.mp hAnswer
      cases hDone
      exact hRests
  | request request seen =>
      obtain ⟨_, hStored | ⟨events, reduced, hBatch, hReduce, hStored⟩⟩ := h.request hStep
      · rwa [hStored]
      · have hReduced := Request.batch_rests hBatch hReduce hRests hUndisturbing
        rw [hStored]
        exact hReduced
  | passStep index =>
      obtain ⟨_, hStored | ⟨pass, hPass, hCommitted⟩⟩ := h.passStep hStep
      · rwa [hStored]
      · cases hCommitted with
        | intro _ _ _ hMoves =>
            unfold CommitMoves at hMoves
            split at hMoves
            · rename_i started answer result base rest hPoint
              have hFailed : answerStatus answer = .failed := answerStatus_failed <| by
                rintro inputRequest rfl
                exact hUndisturbing pass _ _ _ _ _ hPass hPoint
              rcases hMoves.2 with ⟨_, hAfter⟩ | ⟨_, hAfter⟩
              · unfold WorkflowInstance.Rests at hRests ⊢
                rwa [hAfter]
              · exact .inr (.inr (hAfter.trans hFailed))
            · exact .inr (.inl hMoves.2)
            · rcases hRests with h | h | h <;> rw [h] at hMoves <;> exact hMoves.1.elim nofun nofun
  | recover listed seen current =>
      obtain ⟨_, hStored | ⟨ids, reduced, hReduce, hStored⟩⟩ := h.recover hStep
      · rwa [hStored]
      · rw [hStored]
        unfold WorkflowInstance.Rests
        rw [WorkflowInstance.withVersion, recovered_status hReduce hRests.ne_running]
        exact hRests

/-- Nothing has been started since `before`, and nothing is to be
dispatched. -/
structure Quiet (env : EngineEnv) (before : WorkflowInstance) (s : ConcurrentPasses) : Prop where
  inv : Inv env s
  rests : s.stored.Rests
  startsNone : StartsNone before s.stored

theorem Inv.quiet (h : Inv env s) (hRests : s.stored.Rests) : Quiet env s.stored s :=
  ⟨h, hRests, fun _ task hTask hRunning => ⟨task, hTask, hRunning⟩⟩

theorem Quiet.run {before : WorkflowInstance} (h : Quiet env before s)
    {later : List ConcurrentAction} (run : UndisturbedSteps env s later s') :
    Quiet env before s' := by
  refine Run.invariant run h ?_
  rintro s action s' hQuiet ⟨hStep, hUndisturbing⟩
  obtain ⟨hNext, hRespected⟩ := hQuiet.inv.step hStep
  exact ⟨hNext, hQuiet.inv.rests hStep hUndisturbing hQuiet.rests,
    hQuiet.startsNone.trans (hRespected.startsNone hQuiet.rests.ne_running)⟩

/-- The pause outlives the recorded result: the instance is paused, the pass
completes it if all work is done, and until someone restarts it nothing is
started. -/
structure PauseKept (env : EngineEnv) (definition : WorkflowDef) (index : Nat)
    (s' : ConcurrentPasses) : Prop where
  paused : s'.stored.status = .paused
  completes : workflowAllCompleted s'.stored definition = true →
    ∃ done, step env s' (.passStep index) = some done ∧ done.stored.status = .completed
  rests : ∀ later last, UndisturbedSteps env s' later last →
    last.stored.Rests ∧ StartsNone s'.stored last.stored

/-- A result commit that is accepted. -/
theorem step_commitResult {index : Nat} {pass : ActivePass} {started : StartedTask}
    {answer : Answer} {result : ResultCommit} {base : WorkflowInstance} {rest : List String}
    (hPass : s.passes[index]? = some (.active pass))
    (hPoint : pass.point = .commitResult started answer result base rest)
    (hStep : step env s (.passStep index) = some s')
    (hCommitted : s'.stored.version ≠ s.stored.version) :
    ∃ updated, s' = (s.saved updated).setPass index (pass.afterResult result rest updated) := by
  obtain ⟨other, hOther, hRest⟩ := Option.bind_eq_some_iff.mp hStep
  rw [hPass] at hOther
  cases hOther
  simp only [PassState.step, ActivePass.step, hPoint, ActivePass.commit] at hRest
  cases hCommit : commitOn s.stored base result.events with
  | error error =>
      rw [hCommit] at hRest
      cases hRest
      exact absurd rfl hCommitted
  | ok updated =>
      rw [hCommit] at hRest
      cases hRest
      exact ⟨updated, rfl⟩

/-- A pass at the pause boundary completes an instance that nobody else has
written. -/
theorem step_commitPauseCompleted {index : Nat} {pass : ActivePass}
    (hPass : s.passes[index]? = some (.active pass)) (hPoint : pass.point = .commitPauseCompleted)
    (hHeld : pass.workflow = s.stored) :
    ∃ done, step env s (.passStep index) = some done ∧ done.stored.status = .completed := by
  let completed : WorkflowInstance := { s.stored with status := .completed }
  have hReduce : reduceWorkflowInstanceEvents (some s.stored) [.workflowStatusChanged .completed] =
      .ok completed := rfl
  have hCommit := commitOn_stored (List.cons_ne_nil _ _) hReduce
  refine ⟨(s.saved (completed.withVersion (s.stored.version + 1))).setPass index (.finished .ok), ?_, rfl⟩
  simp only [step, hPass, Option.bind_eq_bind, Option.bind_some, PassState.step, ActivePass.step,
    hPoint, ActivePass.commit, hHeld, hCommit]
  rfl

/-- A result that does not fail the workflow is committed on a paused instance:
the pause is kept exactly if the result does not ask for input. -/
theorem Steps.pause_kept {id workflowDefId : String} {pinnedWorkerHost : WorkerHostId}
    {input : Option Json} {actions : List ConcurrentAction} {index : Nat} {pass : ActivePass}
    {started : StartedTask} {answer : Answer} {result : ResultCommit} {base : WorkflowInstance}
    {rest : List String}
    (run : Steps env (ConcurrentPasses.created id workflowDefId pinnedWorkerHost input) actions s)
    (hPaused : s.stored.status = .paused) (hPass : s.passes[index]? = some (.active pass))
    (hPoint : pass.point = .commitResult started answer result base rest)
    (hNotFailed : ∀ event ∈ result.events, event.failsWorkflow = false)
    (hStep : step env s (.passStep index) = some s')
    (hCommitted : s'.stored.version ≠ s.stored.version) :
    PauseKept env pass.definition index s' ↔
      ∀ inputRequest, answer ≠ .ok (.inputNeeded inputRequest) := by
  have hInv : Inv env s := run.invariant (Inv.created ..) fun _ _ _ h hStep => (h.step hStep).1
  have hHeld := (hInv.passes _ (List.mem_of_getElem? hPass)).2
  simp only [HeldStatus, hPoint] at hHeld
  obtain ⟨hNext, hStored | ⟨other, hOther, hCommit⟩⟩ := hInv.passStep hStep
  · rw [hStored] at hCommitted
    exact absurd rfl hCommitted
  rw [hPass] at hOther
  cases hOther
  cases hCommit with
  | intro _ _ _ hMoves =>
      simp only [CommitMoves, hPoint] at hMoves
      constructor
      · rintro hKept inputRequest rfl
        have hStatus := hKept.paused
        cases hHeld.2.2 with
        | inputNeeded _ =>
            rcases hMoves.2 with ⟨hNext, _⟩ | ⟨_, hAfter⟩
            · cases hNext
            · rw [hAfter] at hStatus
              cases hStatus
      · intro hAnswer
        rw [answerStatus_failed hAnswer] at hMoves
        have hGoesOn := hMoves.2.resolve_right fun h => by cases hNotFailed _ h.1
        have hStill := hGoesOn.2.trans hPaused
        refine ⟨hStill, fun hAll => ?_, fun later last hLater => ?_⟩
        rotate_left
        · have hQuiet := (hNext.quiet (.inl hStill)).run hLater
          exact ⟨hQuiet.rests, hQuiet.startsNone⟩
        obtain ⟨updated, rfl⟩ := step_commitResult hPass hPoint hStep hCommitted
        have hLength := (List.getElem?_eq_some_iff.mp hPass).1
        have hAtBoundary : (s.passes.set index (pass.afterResult result rest updated))[index]? =
            some (pass.goOn updated .commitPauseCompleted) := ?_
        · exact step_commitPauseCompleted hAtBoundary rfl rfl
        rw [List.getElem?_set_self hLength, ActivePass.afterResult, hGoesOn.1]
        have hUpdated : updated.status = .paused := hStill
        have hCompleted : workflowAllCompleted updated pass.definition = true := hAll
        simp only [hUpdated, hCompleted, if_true]

/-! The sample article is paused while its draft is in flight. -/

/-- A result commit of the first pass. -/
structure Recording where
  before : ConcurrentPasses
  after : ConcurrentPasses
  pass : ActivePass
  started : StartedTask
  answer : Answer
  result : ResultCommit
  base : WorkflowInstance
  rest : List String

def recording (env : EngineEnv) (s : ConcurrentPasses) : Option Recording :=
  match s.passes[(0 : Nat)]? with
  | some (.active pass) =>
      match pass.point with
      | .commitResult started answer result base rest =>
          (step env s (.passStep 0)).map fun s' =>
            ⟨s, s', pass, started, answer, result, base, rest⟩
      | _ => none
  | _ => none

theorem recording_ok {r : Recording} (h : recording env s = some r) :
    s = r.before ∧ r.before.passes[0]? = some (.active r.pass) ∧
      r.pass.point = .commitResult r.started r.answer r.result r.base r.rest ∧
      step env r.before (.passStep 0) = some r.after := by
  unfold recording at h
  split at h
  · rename_i hPass
    split at h
    · rename_i hPoint
      obtain ⟨s', hStep, rfl⟩ := Option.map_eq_some_iff.mp h
      exact ⟨rfl, hPass, hPoint, hStep⟩
    · cases h
  · cases h

def draftPaused (result : Answer) : List ConcurrentAction :=
  .startPass [] :: List.replicate 8 (.passStep 0) ++
    [.request .pauseWorkflow 0, .answer 0 result, .passStep 0]

def draftRecorded (result : Answer) : Option Recording :=
  ((draftPaused result).foldlM (step sampleEnv) sampleCreated).bind (recording sampleEnv)

theorem draftRecorded_run {result : Answer} {r : Recording} (h : draftRecorded result = some r) :
    Steps sampleEnv sampleCreated (draftPaused result) r.before := by
  obtain ⟨s, hRun, hRecording⟩ := Option.bind_eq_some_iff.mp h
  rw [← (recording_ok hRecording).1]
  exact Run.of_foldlM hRun

def draftOutput : Answer := .ok (.success (.object []))

theorem draftOutput_recorded : (draftRecorded draftOutput).isSome := by
  decide +kernel

def outputRecorded : Recording := (draftRecorded draftOutput).get draftOutput_recorded

/-- The draft's output is recorded without undoing the pause. -/
theorem Steps.pause_kept_draft :
    PauseKept sampleEnv outputRecorded.pass.definition 0 outputRecorded.after := by
  have hSome : draftRecorded draftOutput = some outputRecorded := (Option.some_get _).symm
  obtain ⟨s, _, hRecording⟩ := Option.bind_eq_some_iff.mp hSome
  obtain ⟨_, hPass, hPoint, hStep⟩ := recording_ok hRecording
  refine (Steps.pause_kept (draftRecorded_run hSome) (by decide +kernel) hPass hPoint
    (by decide +kernel) hStep (by decide +kernel)).mpr ?_
  have hAnswer : answerStatus outputRecorded.answer = .failed := by decide +kernel
  intro inputRequest hEq
  rw [hEq] at hAnswer
  cases hAnswer

def inputRequested : Answer := .ok (.inputNeeded "which one?")

theorem inputRequested_recorded : (draftRecorded inputRequested).isSome := by
  decide +kernel

def requestRecorded : Recording := (draftRecorded inputRequested).get inputRequested_recorded

/-- The input is submitted, and the next pass starts the continuation. -/
def inputSubmitted : List ConcurrentAction :=
  [.request (.submitHumanInput "draft" (.string "this one")) 0, .startPass []] ++
    List.replicate 5 (.passStep 1)

theorem inputSubmitted_runs :
    (inputSubmitted.foldlM (step sampleEnv) requestRecorded.after).isSome := by
  decide +kernel

/-- A request for input that is recorded on the paused instance takes the pause
away: without a resume the draft goes on. -/
theorem requestRecorded_unpauses :
    Steps sampleEnv sampleCreated (draftPaused inputRequested) requestRecorded.before ∧
      requestRecorded.before.stored.status = .paused ∧
      step sampleEnv requestRecorded.before (.passStep 0) = some requestRecorded.after ∧
      (∀ event ∈ requestRecorded.result.events, event.failsWorkflow = false) ∧
      requestRecorded.after.stored.status = .inputNeeded ∧
      ∃ last, Steps sampleEnv requestRecorded.after inputSubmitted last ∧
        last.stored.status = .running ∧ ¬StartsNone requestRecorded.after.stored last.stored := by
  have hSome : draftRecorded inputRequested = some requestRecorded := (Option.some_get _).symm
  obtain ⟨s, _, hRecording⟩ := Option.bind_eq_some_iff.mp hSome
  obtain ⟨_, _, _, hStep⟩ := recording_ok hRecording
  refine ⟨draftRecorded_run hSome, by decide +kernel, hStep, by decide +kernel, by decide +kernel,
    _, Run.of_foldlM (Option.some_get inputSubmitted_runs).symm, by decide +kernel, fun hNone => ?_⟩
  have hStarted : ((((inputSubmitted.foldlM (step sampleEnv) requestRecorded.after).get
      inputSubmitted_runs).stored.tasks.lookup "draft[2]").map TaskInstance.status) =
      some .running := by
    decide +kernel
  obtain ⟨task, hTask, hRunning⟩ := Option.map_eq_some_iff.mp hStarted
  obtain ⟨old, hOld, _⟩ := hNone _ task hTask hRunning
  have hMissing : (requestRecorded.after.stored.tasks.lookup "draft[2]").isSome = false := by
    decide +kernel
  rw [hOld] at hMissing
  cases hMissing

end ConcurrentPasses

end RelayFold
