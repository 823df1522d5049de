import RelayFold.Lifecycle.PassDispatches
import RelayFold.Lifecycle.RecordedInputs
import RelayFold.Lifecycle.VerifierAgreement

/-! Runs whose dispatches are answered by a function of the task, its
generation, its inputs and its loop context, or else fail. -/
namespace RelayFold

open WorkflowEngine WorkflowStateManager WorkflowService FallibleFold

/-- The output of a task, by its id, its generation, its inputs and its loop
context. -/
abbrev Answers := String → Nat → List Json → Option LoopExecutionContext → Json

/-- The answer is the output that the function gives, or a failure. -/
def Answers.Gives (answers : Answers) (taskDefId : String) (generation : Nat) (inputs : List Json)
    (context : Option LoopExecutionContext) : Answer → Prop
  | .ok (.success output) => output = answers taskDefId generation inputs context
  | .ok (.inputNeeded _) => False
  | .ok (.failure _) | .error _ => True

/-- A dispatch is answered by the function, or it fails. -/
def FollowsAnswers (answers : Answers) (s : System) : Action → Prop
  | .answer result => ∀ pass started call rest, s.pass = .active pass →
      pass.point = .awaitAnswer started call rest →
        answers.Gives call.taskDef.id call.metadata.generationIndex call.inputs
          call.metadata.loopContext result
  | _ => True

/-- What the function gives for an attempt that is dispatched from the
snapshot. -/
def Answers.GivesTask (answers : Answers) (definition : WorkflowDef) (workflow : WorkflowInstance)
    (started : StartedTask) (answer : Answer) : Prop :=
  answers.Gives started.task.taskDefId started.task.generationIndex started.inputs.values
    (loopExecutionContext workflow definition started.task) answer

/-- A pass waits for the answer to the attempt that it has started, or holds
what the function gives for it. -/
def ActivePass.Follows (answers : Answers) (definition : WorkflowDef) (pass : ActivePass) : Prop :=
  match pass.point with
  | .resolveFunction started _ => started.taskDef.id = started.task.taskDefId
  | .awaitAnswer started call _ => call.taskDef.id = started.task.taskDefId ∧
      call.inputs = started.inputs.values ∧
      call.metadata.generationIndex = started.task.generationIndex ∧
      call.metadata.loopContext = loopExecutionContext pass.workflow definition started.task
  | .readCurrent started answer _ _ | .commitResult started answer _ _ _ =>
      answers.GivesTask definition pass.workflow started answer
  | _ => True

def PassState.Follows (answers : Answers) (definition : WorkflowDef) : PassState → Prop
  | .active pass => pass.definition = definition ∧ pass.Follows answers definition
  | _ => True

/-- Resolving the function of a task keeps its id, so that the answer which the
task is given does not depend on the functions. -/
theorem resolveTaskFunctionRef_id {functionDefs : String → Option FunctionDef}
    {taskDef resolved : TaskDef} (h : resolveTaskFunctionRef functionDefs taskDef = .ok resolved) :
    resolved.id = taskDef.id := by
  unfold resolveTaskFunctionRef at h
  split at h
  · split at h
    · cases h
    · cases h
      rfl
  · cases h
    rfl

section Follows

variable {answers : Answers} {definition : WorkflowDef} {pass : ActivePass}
  {workflow : WorkflowInstance} (hLoaded : pass.definition = definition)
include hLoaded

theorem leaveLoop_follows : (pass.leaveLoop workflow).Follows answers definition := by
  unfold ActivePass.leaveLoop
  split
  · exact ⟨hLoaded, trivial⟩
  · trivial

/-- Going on to the next runnable attempt asks nothing of the answers: the
attempt has not been dispatched. -/
theorem nextTask_follows {atEnd : PassState} (hEnd : atEnd.Follows answers definition)
    (ids : List String) : (pass.nextTask workflow atEnd ids).Follows answers definition := by
  induction ids with
  | nil => exact hEnd
  | cons id rest ih =>
      unfold ActivePass.nextTask
      split
      · trivial
      · split
        · exact ih
        · exact ⟨hLoaded, trivial⟩

theorem startTasks_follows {atEnd : PassState} (hEnd : atEnd.Follows answers definition) :
    (pass.startTasks workflow atEnd).Follows answers definition := by
  unfold ActivePass.startTasks
  split
  · trivial
  · exact nextTask_follows hLoaded hEnd _

theorem enterLoop_follows : (pass.enterLoop workflow).Follows answers definition := by
  unfold ActivePass.enterLoop
  dsimp only
  split
  · exact startTasks_follows hLoaded (leaveLoop_follows hLoaded)
  · exact ⟨hLoaded, trivial⟩

theorem initializeTasks_follows : (pass.initializeTasks workflow).Follows answers definition := by
  unfold ActivePass.initializeTasks
  split
  · exact ⟨hLoaded, trivial⟩
  · exact enterLoop_follows hLoaded

theorem prepareDispatch_follows (ext : Externals) (id : String) (rest : List String) :
    (pass.prepareDispatch ext workflow id rest).Follows answers definition := by
  unfold ActivePass.prepareDispatch
  split
  · trivial
  · rename_i hStarted
    split
    · exact ⟨hLoaded, trivial⟩
    · refine ⟨hLoaded, ?_⟩
      exact (findTask_some (startedTask_eq hStarted).2.2.1).2

/-- The point after an answer follows the answers if that answer did; what is
committed next is read off it. -/
theorem answered_follows (ext : Externals) {started : StartedTask} {rest : List String}
    {answer : Answer} (hAnswer : answers.GivesTask definition pass.workflow started answer) :
    (pass.answered ext started rest answer).Follows answers definition := by
  unfold ActivePass.answered
  split
  · trivial
  · exact ⟨hLoaded, hAnswer⟩

/-- Once an attempt has been dispatched, the pass waits for the answer that
belongs to its task. -/
theorem dispatch_follows {env : EngineEnv} {started : StartedTask} {rest : List String}
    (hStarted : started.taskDef.id = started.task.taskDefId) :
    (pass.dispatch env started rest).Follows answers definition := by
  unfold ActivePass.dispatch
  split
  · exact answered_follows hLoaded env.ext trivial
  · rename_i hResolved
    split
    · trivial
    · refine ⟨hLoaded, (resolveTaskFunctionRef_id hResolved).trans hStarted, rfl, rfl, ?_⟩
      exact hLoaded ▸ rfl

theorem afterResult_follows {result : ResultCommit} {rest : List String} :
    (pass.afterResult result rest workflow).Follows answers definition := by
  unfold ActivePass.afterResult
  split
  · trivial
  · split
    · split
      · exact ⟨hLoaded, trivial⟩
      · trivial
    · split
      · trivial
      · exact nextTask_follows hLoaded (enterLoop_follows hLoaded) _

end Follows

section Step

variable {env : EngineEnv} {answers : Answers} {definition : WorkflowDef} {s s' : System}
  {action : Action}

/-- A commit of the pass goes on as it would have, or the pass ends with an
error; both follow the answers. -/
theorem commit_follows {stored base : WorkflowInstance} {events : List WorkflowInstanceEvent}
    {next : WorkflowInstance → PassState}
    (hNext : ∀ updated, (next updated).Follows answers definition) :
    (ActivePass.commit stored base events next).1.Follows answers definition := by
  unfold ActivePass.commit
  split
  · exact hNext _
  · trivial

/-- No step of a pass brings in an answer that was not given. This is where the
definition that the pass has loaded matters. -/
theorem ActivePass.Follows.step {pass : ActivePass} (hLoaded : pass.definition = definition)
    (h : pass.Follows answers definition) (stored : WorkflowInstance) :
    (pass.step env stored).1.Follows answers definition := by
  unfold ActivePass.Follows at h
  unfold ActivePass.step
  cases hCase : pass.point with
  | commitRunning => exact commit_follows fun _ => initializeTasks_follows hLoaded
  | commitInitialTasks => exact commit_follows fun _ => enterLoop_follows hLoaded
  | commitGenerations events =>
      exact commit_follows fun _ => startTasks_follows hLoaded (enterLoop_follows hLoaded)
  | checkPaused id rest =>
      dsimp only
      split
      · trivial
      · exact ⟨hLoaded, trivial⟩
  | commitStart id rest => exact commit_follows fun _ => prepareDispatch_follows hLoaded _ _ _
  | commitInputFailure started error => exact commit_follows fun _ => trivial
  | resolveFunction started rest =>
      simp only [hCase] at h
      exact dispatch_follows hLoaded h
  | awaitAnswer started call rest =>
      simp only [hCase] at h
      exact ⟨hLoaded, h⟩
  | readCurrent started answer result rest =>
      simp only [hCase] at h
      exact ⟨hLoaded, h⟩
  | commitResult started answer result base rest =>
      exact commit_follows fun _ => afterResult_follows hLoaded
  | commitPauseCompleted | commitCompleted => exact commit_follows fun _ => trivial

/-- A pass goes on with what the function gives. -/
theorem PassState.Follows.step {l : Lifecycle} (hRefines : Refines env definition s l)
    (h : s.pass.Follows answers definition) (hMeets : FollowsAnswers answers s action)
    (hStep : s.step env action = some s') : s'.pass.Follows answers definition := by
  cases action with
  | startPass order =>
      simp only [System.step] at hStep
      split at hStep
      · cases hStep
      · cases hStep
        trivial
  | passStep =>
      rw [System.step_passStep] at hStep
      cases hStep
      have hAdvance : (s.advance (s.pass.step env s.stored)).pass = (s.pass.step env s.stored).1 := by
        rcases s.pass.step env s.stored with ⟨state, _ | updated⟩ <;> rfl
      rw [hAdvance]
      have hInv := hRefines.pass
      cases hPass : s.pass with
      | idle | finished _ => trivial
      | loading order =>
          change (PassState.loaded order (some s.stored)).Follows answers definition
          unfold PassState.loaded
          dsimp only
          split <;> trivial
      | loadingDef order workflow =>
          rw [hPass] at hInv
          simp only [PassState.step, PassState.loadedDef, hRefines.history.defId workflow hInv.1]
          exact ⟨rfl, trivial⟩
      | active pass =>
          rw [hPass] at h
          exact h.2.step h.1 s.stored
  | answer result =>
      obtain ⟨pass', hAnswer, rfl⟩ := Option.map_eq_some_iff.mp hStep
      change pass'.Follows answers definition
      cases hPass : s.pass with
      | active pass =>
          rw [hPass] at h hAnswer
          have hPoint := h.2
          unfold ActivePass.Follows at hPoint
          unfold PassState.answer at hAnswer
          cases hCase : pass.point with
          | awaitAnswer started call rest =>
              simp only [hCase] at hPoint hAnswer
              cases hAnswer
              have hGives := hMeets pass started call rest hPass hCase
              rw [hPoint.1, hPoint.2.1, hPoint.2.2.1, hPoint.2.2.2] at hGives
              exact answered_follows h.1 env.ext hGives
          | _ => simp only [hCase, reduceCtorEq] at hAnswer
      | _ =>
          rw [hPass] at hAnswer
          cases hAnswer
  | crash =>
      cases hStep
      trivial
  | request request seen => rwa [System.step_request_pass hStep]
  | recover listed seen current => rwa [System.step_recover_pass hStep]

end Step

end RelayFold
