import RelayFold.Lifecycle.Confluence

/-! Runs in which only failed dispatches are retried: the attempt that a
dispatch has left failed is remembered until its retry, and its verifier, if it
is one, has given no verdict. -/
namespace RelayFold

open WorkflowEngine WorkflowStateManager WorkflowService FallibleFold

/-- The dispatch has failed, and with it the attempt, whatever the task would
have answered. -/
def isTransient : Answer → Bool
  | .ok (.failure _) | .error _ => true
  | .ok (.success _) | .ok (.inputNeeded _) => false

/-- The attempt whose dispatch has failed last, until its retry is accepted. -/
def failedDispatch (s : System) (action : Action) (s' : System) (last : Option String) :
    Option String :=
  if s'.stored.version = s.stored.version then last
  else
    match action, s.pass with
    | .request (.retryTask _) _, _ | .request (.forceRetryTask ..) _, _ => none
    | .passStep, .active pass =>
        match pass.point with
        | .commitResult started answer _ _ _ =>
            if isTransient answer then some started.taskAttemptId else none
        | _ => last
    | _, _ => last

/-- An accepted retry is of the attempt whose dispatch has failed last. -/
def RetriesFailedDispatch (s : System) (last : Option String) : Action → Prop
  | .request (.retryTask taskId) seen | .request (.forceRetryTask taskId _) seen =>
      s.snapshots[seen]? = some s.stored →
        ∀ id, loadRetryableTask s.stored taskId = .ok id → last = some id
  | _ => True

/-- Runs whose dispatches are answered by the function or fail, and that retry
only what has failed so. They pause, resume, crash and recover at will. -/
abbrev System.TransientSteps (env : EngineEnv) (answers : Answers) :
    System × Option String → List Action → System × Option String → Prop :=
  Run fun p action q =>
    Run.Traced (fun s action s' => System.step env s action = some s') failedDispatch p action q ∧
      FollowsAnswers answers p.1 action ∧ RetriesFailedDispatch p.1 p.2 action

/-- The attempt is failed, and its verifier state, if it has one, still
runs. -/
def FailedUndecided (workflow : WorkflowInstance) (id : String) : Prop :=
  ∃ task, workflow.tasks.lookup id = some task ∧ task.status = .failed ∧
    ∀ state, workflow.verifierStates.lookup task.taskDefId = some state → state.status = .running

section Step

variable {env : EngineEnv} {answers : Answers} {definition : WorkflowDef} {input : Option Json}
  {s s' : System} {l : Lifecycle} {action : Action} {last : Option String} {id : String}

/-- A verifier state runs as long as an attempt of its verifier does. -/
theorem VerdictsInv.running {workflow : WorkflowInstance} {task : TaskInstance}
    {state : VerifierGenerationState} (h : VerdictsInv definition workflow)
    (hTask : workflow.tasks.lookup id = some task) (hRunning : task.status = .running)
    (hState : workflow.verifierStates.lookup task.taskDefId = some state) :
    state.status = .running := by
  obtain ⟨slice, hSlice⟩ := h.ofVerifiers _ _ hState
  have hInv := h.verifiers _ slice hSlice
  have hAttempt : IsAttempt workflow task.taskDefId id task := ⟨hTask, rfl⟩
  have hLatest := hInv.singleFile.opened id task hAttempt (by rw [hRunning]; rfl)
  apply ((hInv.agrees state hState).latest id task hAttempt hLatest).idle
  · rw [hRunning]
    nofun
  · rw [hRunning]
    nofun

/-- A failed dispatch fails its attempt and leaves the verifier states as they
are. -/
theorem Records.failedUndecided {reduced : WorkflowInstance} {loopSlices : LoopSlices}
    {started : StartedTask} {answer : Answer} {result : ResultCommit}
    (h : Records env definition s.stored reduced loopSlices started answer result)
    (hVerdicts : VerdictsInv definition s.stored) (hAnswer : isTransient answer = true) :
    FailedUndecided reduced started.taskAttemptId := by
  obtain ⟨_, hTask, _, _⟩ := startedTask_eq h.holds.resolved
  have hFailed {own : TaskInstance}
      (hEffect : CompletionEffect s.stored reduced started.taskAttemptId own false)
      (hStatus : own.status = .failed) (hDefId : own.taskDefId = started.task.taskDefId) :
      FailedUndecided reduced started.taskAttemptId := by
    refine ⟨own, hEffect.own, hStatus, fun state hState => ?_⟩
    rw [hEffect.verifierStates, hDefId] at hState
    exact hVerdicts.running hTask h.holds.running hState
  have hStart := CompletionEffect.refl hTask
  have hReduce := h.reduce
  cases h.recorded with
  | failure _ =>
      exact hFailed (hStart.andThen (inputEvents_own.append failTaskEvents_own) hReduce) rfl rfl
  | dispatchError _ =>
      exact hFailed (hStart.andThen (inputEvents_own.append (statusEvents_own _ _)) hReduce) rfl rfl
  | _ => cases hAnswer

/-- Only retries and recovery write a failed workflow. -/
theorem Write.of_failed {ext : Externals} {writer : Writer} {events : List WorkflowInstanceEvent}
    {plan : List String} (h : Write ext definition l writer events plan)
    (hFailed : l.stored.status = .failed) : writer = .retry ∨ writer = .recovery := by
  cases h with
  | retry | forceRetry => exact .inl rfl
  | recover _ => exact .inr rfl
  | hostLost hStatus => exact absurd hFailed hStatus.2
  | resume hStatus | initialTasks hStatus _ | initialGenerations hStatus _ _ | start hStatus _ _ _
  | inputFailure hStatus _ _ _ _ | humanInput hStatus _ _ _ _ =>
      rw [hFailed] at hStatus
      cases hStatus
  | begin hStatus | result hStatus _ _ _ _ | complete hStatus _ | pause hStatus =>
      rw [hFailed] at hStatus
      rcases hStatus with hStatus | hStatus <;> cases hStatus

/-- Every write beside the retries leaves a failed attempt and its verifier
state as they are. -/
theorem FailedUndecided.write {ext : Externals} {writer : Writer}
    {events : List WorkflowInstanceEvent} {plan : List String} {reduced : WorkflowInstance}
    (h : FailedUndecided l.stored id) (hSound : FailedOnce l.stored)
    (hWrite : Write ext definition l writer events plan) (hWriter : writer ≠ .retry)
    (hReduce : reduceWorkflowInstanceEvents (some l.stored) events = .ok reduced) :
    FailedUndecided reduced id := by
  obtain ⟨task, hTask, hFailed, hStates⟩ := h
  have hEffect := hWrite.effect hReduce
  obtain rfl := (hWrite.of_failed (hSound.status id task hTask hFailed)).resolve_left hWriter
  cases hEffect with
  | status _ hTasks hSame =>
      refine ⟨task, by rw [hTasks, hTask], hFailed, fun state hState => ?_⟩
      exact hStates state (hSame _ ▸ hState)
  | recover hTasks hSame =>
      have hRecovered : task.recovered = task := by
        unfold TaskInstance.recovered
        rw [hFailed]
        rfl
      refine ⟨task, ?_, hFailed, fun state hState => hStates state (hSame _ ▸ hState)⟩
      rw [hTasks, hTask, Option.map_some, hRecovered, ite_self]

/-- A step that leaves the version as it is has committed nothing. -/
theorem Extends.stored_of_version {ext : Externals} {writer : Writer}
    (h : Extends ext definition writer s s') (hVersion : s'.stored.version = s.stored.version) :
    s'.stored = s.stored := by
  cases h with
  | same hStored _ => exact hStored
  | @written _ _ events reduced _ hReduce hStored _ =>
      rw [hStored] at hVersion
      change s.stored.version + events.length = s.stored.version at hVersion
      have hEvents : events = [] := List.length_eq_zero_iff.mp (by omega)
      subst hEvents
      cases hReduce
      rw [hStored]
      rfl

/-- Whatever attempt is remembered is failed, and its verifier has given no
verdict. -/
theorem CalmRun.failedUndecided (h : CalmRun env answers definition input s l)
    (hLast : ∀ id, last = some id → FailedUndecided s.stored id)
    (hStep : s.step env action = some s') :
    ∀ id, failedDispatch s action s' last = some id → FailedUndecided s'.stored id := by
  have hExtended := (h.refines.step hStep).extended
  have hVerdicts : VerdictsInv definition s.stored := h.refines.stored ▸ h.state.verdicts
  have hKept (hWriter : action.writer ≠ .retry) (id : String) (hSome : last = some id) :
      FailedUndecided s'.stored id := by
    cases hExtended with
    | same hStored _ => exact hStored ▸ hLast id hSome
    | written hWrite hReduce hStored _ =>
        have hAfter := (hLast id hSome).write h.refines.sound.failedOnce hWrite hWriter hReduce
        rw [hStored]
        exact hAfter
  intro id hSome
  unfold failedDispatch at hSome
  split at hSome
  · rename_i hVersion
    rw [hExtended.stored_of_version hVersion]
    exact hLast id hSome
  · rename_i hVersion
    cases action with
    | request request seen =>
        cases request with
        | retryTask taskId | forceRetryTask taskId targetHostId => cases hSome
        | _ => exact hKept nofun id hSome
    | passStep =>
        cases hPass : s.pass with
        | active pass =>
            simp only [hPass] at hSome
            split at hSome
            · rename_i started answer result base rest hPoint
              split at hSome
              · rename_i hAnswer
                cases hSome
                rcases h.refines.records hPass hPoint hStep with hSame | ⟨reduced, hRecords, hStored⟩
                · exact absurd (congrArg WorkflowInstance.version hSame) hVersion
                · have hFailed := hRecords.failedUndecided hVerdicts hAnswer
                  rw [hStored]
                  exact hFailed
              · cases hSome
            · exact hKept nofun id hSome
        | _ =>
            simp only [hPass] at hSome
            exact hKept nofun id hSome
    | _ => exact hKept nofun id hSome

/-- A retry of what is remembered keeps the verdicts, and no input can be
submitted where nobody asks for it. -/
theorem CalmRun.keepsVerdicts (h : CalmRun env answers definition input s l)
    (hLast : ∀ id, last = some id → FailedUndecided s.stored id)
    (hMeets : RetriesFailedDispatch s last action) : KeepsVerdicts env definition s action := by
  have hRetried {failedId : String} {task : TaskInstance} {state : VerifierGenerationState}
      (hId : last = some failedId) (hTask : s.stored.tasks.lookup failedId = some task)
      (hState : s.stored.verifierStates.lookup task.taskDefId = some state) :
      state.status = .running := by
    obtain ⟨found, hFound, _, hStates⟩ := hLast failedId hId
    rw [hTask] at hFound
    cases hFound
    exact hStates state hState
  cases action with
  | request request seen =>
      cases request with
      | retryTask taskId =>
          intro hSeen id task state hLoad hTask hState
          exact hRetried (hMeets hSeen id hLoad) hTask hState
      | forceRetryTask taskId targetHostId =>
          intro hSeen id task state hLoad hTask hState
          exact hRetried (hMeets hSeen id hLoad) hTask hState
      | submitHumanInput taskId submittedInput =>
          intro _ id next task hLoad hTask _
          obtain ⟨_, _, waiting, _, _, hWaiting, hAsks, _⟩ := loadWaitingTask_ok hLoad
          rw [hTask] at hWaiting
          cases hWaiting
          rw [← h.refines.stored] at hTask
          rw [(h.state.attempts.calm id task hTask).asks] at hAsks
          cases hAsks
      | _ => trivial
  | _ => trivial

end Step

section Runs

variable {env : EngineEnv} {answers : Answers} {definition : WorkflowDef} {input : Option Json}
  {start s s' : System} {l r : Lifecycle} {actions : List Action} {last : Option String}

/-- A run that retries what has failed is one that keeps the verdicts. The
induction carries what is remembered along with what is known of a calm run. -/
theorem System.TransientSteps.followsCalmly {q : System × Option String}
    (hDef : WellFormedDef definition) (hExits : ExitFree definition)
    (hStart : ∃ l, CalmRun env answers definition input start l)
    (run : System.TransientSteps env answers (start, none) actions q) :
    System.StepsMeeting env (FollowsCalmly env answers definition) start actions q.1 ∧
      ∀ id, q.2 = some id → FailedUndecided q.1.stored id := by
  generalize hFirst : (start, (none : Option String)) = p at run
  induction run with
  | nil =>
      subst hFirst
      exact ⟨.nil start, nofun⟩
  | @snoc middle q action _ _ last ih =>
      obtain ⟨prior, hLast⟩ := ih
      obtain ⟨⟨hStep, hRecord⟩, hAnswers, hRetries⟩ := last
      obtain ⟨l, hCalm⟩ := prior.calmRun hDef hExits hStart
      have hMeets : FollowsCalmly env answers definition middle.1 action :=
        ⟨hCalm.keepsVerdicts hLast hRetries, hAnswers⟩
      refine ⟨prior.snoc ⟨hStep, hMeets⟩, ?_⟩
      rw [hRecord]
      exact hCalm.failedUndecided hLast hStep

/-- Runs of one workflow whose dispatches are answered alike, or fail and are
retried, end with the same attempts and verifier states once both have
completed it. -/
theorem System.TransientSteps.end_alike {submitted : WorkflowDef}
    {id id' workflowDefId : String} {pinnedWorkerHost pinnedWorkerHost' : WorkerHostId}
    {actions' : List Action} {last' : Option String}
    (hAccepted : validateAndNormalizeWorkflowDef submitted = .ok definition)
    (hDefinition : env.definitions workflowDefId = some definition) (hExits : ExitFree definition)
    (run : System.TransientSteps env answers
      (System.created id workflowDefId pinnedWorkerHost input, none) actions (s, last))
    (run' : System.TransientSteps env answers
      (System.created id' workflowDefId pinnedWorkerHost' input, none) actions' (s', last'))
    (hCompleted : s.stored.status = .completed) (hCompleted' : s'.stored.status = .completed) :
    s'.stored.tasks = s.stored.tasks ∧ s'.stored.verifierStates = s.stored.verifierStates := by
  have hDef := validateAndNormalizeWorkflowDef_ok hAccepted
  have hStart : ∃ l, CalmRun env answers definition input
      (System.created id workflowDefId pinnedWorkerHost input) l := ⟨_, .created _ _ hDefinition⟩
  have hStart' : ∃ l, CalmRun env answers definition input
      (System.created id' workflowDefId pinnedWorkerHost' input) l := ⟨_, .created _ _ hDefinition⟩
  obtain ⟨calm, _⟩ := run.followsCalmly hDef hExits hStart
  obtain ⟨calm', _⟩ := run'.followsCalmly hDef hExits hStart'
  obtain ⟨l, hl⟩ := calm.calmRun hDef hExits hStart
  obtain ⟨r, hr⟩ := calm'.calmRun hDef hExits hStart'
  have hMatches := calm.agrees hDef hExits hStart hr fun _ _ _ hTask => by cases hTask
  exact hl.ends_alike hDef hr hMatches hCompleted hCompleted'

end Runs

/-! Two runs of the chain: one straight, and one whose first review fails and
is retried, and which is paused and resumed before the retry is dispatched. -/

/-- The step follows the answers of the chain, and a retry is of what has
failed last. -/
def followsChainRetrying (s : System) (last : Option String) : Action → Bool
  | .request (.retryTask taskId) _ =>
      (loadRetryableTask s.stored taskId).toOption.all fun id => last = some id
  | .request .pauseWorkflow _ | .request .resumeWorkflow _ => true
  | action => followsChain s action

theorem follows_of_followsChainRetrying {s : System} {last : Option String} {action : Action}
    (h : followsChainRetrying s last action = true) :
    FollowsAnswers chainAnswers s action ∧ RetriesFailedDispatch s last action := by
  unfold followsChainRetrying at h
  split at h
  · refine ⟨trivial, fun _ id hLoad => ?_⟩
    rw [hLoad] at h
    exact of_decide_eq_true h
  · exact ⟨trivial, trivial⟩
  · exact ⟨trivial, trivial⟩
  · rename_i hRetry _ _
    have hFollows : FollowsCalmly chainEnv chainAnswers chainDefinition s action :=
      followsCalmly_of_followsChain h
    refine ⟨hFollows.2, ?_⟩
    cases action with
    | request request seen =>
        cases request with
        | retryTask taskId => exact (hRetry taskId seen rfl).elim
        | forceRetryTask taskId targetHostId => cases h
        | _ => trivial
    | _ => trivial

def chainRetried : List Action :=
  firstReview (.answer (.ok (.failure "no model"))) ++
    [.passStep, .request (.retryTask "a-review") 0, .request .pauseWorkflow 0,
      .request .resumeWorkflow 0, .startPass []] ++ passSteps 6 ++ [.answer reviewAnswer] ++
    passSteps 5 ++ [succeeds] ++ passSteps 5 ++ [succeeds] ++ passSteps 5 ++ [completes] ++ passSteps 3

/-- The run of the chain with these actions, and what has failed last at its
end. -/
def runsChainRetrying (actions : List Action) : Option (System × Option String) :=
  (actions.foldlM (fun p action => if followsChainRetrying p.1 p.2 action then
      (System.step chainEnv p.1 action).map fun s' => (s', failedDispatch p.1 action s' p.2)
    else none) (chainStart, none)).filter fun p => p.1.stored.status = .completed

theorem runsChainRetrying_some {actions : List Action} {s : System} {last : Option String}
    (h : runsChainRetrying actions = some (s, last)) :
    System.TransientSteps chainEnv chainAnswers (chainStart, none) actions (s, last) ∧
      s.stored.status = .completed := by
  obtain ⟨hFound, hStatus⟩ := Option.filter_eq_some_iff.mp h
  refine ⟨(Run.of_guarded hFound).mono fun p action q hStep => ?_, of_decide_eq_true hStatus⟩
  obtain ⟨s', hNext, rfl⟩ := Option.map_eq_some_iff.mp hStep.1
  exact ⟨⟨hNext, rfl⟩, follows_of_followsChainRetrying hStep.2⟩

theorem chainStraight_runsRetrying : (runsChainRetrying chainStraight).isSome := by
  decide +kernel

theorem chainRetried_runs : (runsChainRetrying chainRetried).isSome := by
  decide +kernel

/-- The failed review, its retry and the pause leave no trace in the
attempts. -/
theorem System.TransientSteps.end_alike_chain : ∃ p q,
    System.TransientSteps chainEnv chainAnswers (chainStart, none) chainStraight p ∧
    System.TransientSteps chainEnv chainAnswers (chainStart, none) chainRetried q ∧
    p.1.stored.status = .completed ∧ q.1.stored.tasks = p.1.stored.tasks ∧
    q.1.stored.verifierStates = p.1.stored.verifierStates := by
  obtain ⟨run, hCompleted⟩ :=
    runsChainRetrying_some (Option.some_get chainStraight_runsRetrying).symm
  obtain ⟨run', hCompleted'⟩ := runsChainRetrying_some (Option.some_get chainRetried_runs).symm
  have hAccepted : validateAndNormalizeWorkflowDef chainSubmitted = .ok chainDefinition :=
    eq_ok_get chainSubmitted_accepted
  have hDefinition : chainEnv.definitions "chain" = some chainDefinition := rfl
  have hExits : ExitFree chainDefinition := by
    unfold ExitFree
    decide +kernel
  obtain ⟨hTasks, hStates⟩ := System.TransientSteps.end_alike hAccepted hDefinition hExits run run'
    hCompleted hCompleted'
  exact ⟨_, _, run, run', hCompleted, hTasks, hStates⟩

end RelayFold
