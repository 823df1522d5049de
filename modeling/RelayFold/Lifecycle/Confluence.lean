import RelayFold.Lifecycle.CompletedRuns

/-! Confluence: whatever the order of the attempts, the failures, the crashes
and the pauses, runs that complete the same workflow with the same answers end
alike. -/
namespace RelayFold

open WorkflowEngine WorkflowStateManager WorkflowService FallibleFold

section Runs

variable {answers : Answers} {definition : WorkflowDef} {input : Option Json}

/-- What the invariant says of the attempts does not mention the version. -/
theorem CalmAttempts.withVersion {workflow : WorkflowInstance}
    (h : CalmAttempts definition input workflow) (version : Nat) :
    CalmAttempts definition input (workflow.withVersion version) :=
  ⟨h.trigger, h.calm, h.blank, h.unbound, h.single⟩

theorem Settles.withVersion {workflow : WorkflowInstance} (h : Settles answers definition workflow)
    (version : Nat) : Settles answers definition (workflow.withVersion version) := by
  refine ⟨h.explained, h.outside, h.marked, fun verifierId state hState hKeeps => ?_⟩
  have hHolds := h.states verifierId state hState hKeeps
  exact ⟨hHolds.verifierTaskId, hHolds.rerunStart, hHolds.exitReason, hHolds.attempted,
    hHolds.latest, hHolds.entries⟩

/-- Every commit keeps what is known of a calm run. -/
theorem Settles.commit {l : Lifecycle} {writer : Writer} {ext : Externals}
    {events : List WorkflowInstanceEvent} {planned plan : List String} {reduced : WorkflowInstance}
    (hDef : WellFormedDef definition) (h : CalmState definition input l)
    (hSettles : Settles answers definition l.stored)
    (hWrite : Write ext definition ⟨l.stored, planned⟩ writer events plan)
    (hReduce : reduceWorkflowInstanceEvents (some l.stored) events = .ok reduced)
    (hVerdicts : VerdictsInv definition reduced)
    (hCommit : CalmCommit answers ext definition l.stored reduced) :
    Settles answers definition reduced :=
  ⟨fun _ _ => hSettles.explained_commit hDef h hWrite hReduce hCommit,
    fun _ _ => hSettles.outside_commit hDef h hWrite hReduce hCommit,
    hSettles.marked_commit hDef h hWrite hReduce hCommit,
    fun _ _ => hSettles.states_commit hDef h hWrite hReduce hVerdicts hCommit⟩

/-- What is known of a state of a run whose answers follow the function. -/
structure CalmRun (env : EngineEnv) (answers : Answers) (definition : WorkflowDef)
    (input : Option Json) (s : System) (l : Lifecycle) : Prop where
  refines : Refines env definition s l
  state : CalmState definition input l
  settles : Settles answers definition l.stored
  follows : s.pass.Follows answers definition
  known : KnownTasks definition l.stored
  done : l.stored.status = .completed → AllDone definition l.stored

/-- What the steps of such a run meet. -/
def FollowsCalmly (env : EngineEnv) (answers : Answers) (definition : WorkflowDef) (s : System)
    (action : Action) : Prop :=
  KeepsVerdicts env definition s action ∧ FollowsAnswers answers s action

variable {env : EngineEnv} {s s' : System} {action : Action} {actions : List Action}

/-- A new instance is calm and follows every answer function, since no attempt
has been answered. -/
theorem CalmRun.created {id workflowDefId : String} (pinnedWorkerHost : WorkerHostId)
    (input : Option Json) (hDefinition : env.definitions workflowDefId = some definition) :
    CalmRun env answers definition input (System.created id workflowDefId pinnedWorkerHost input)
      (Lifecycle.created id workflowDefId pinnedWorkerHost input) := by
  have hNoTask (key : String) : (Lifecycle.created id workflowDefId pinnedWorkerHost
      input).stored.tasks.lookup key = none := rfl
  have hNone {P : Prop} {key : String} {a : TaskInstance} (h : (Lifecycle.created id workflowDefId
      pinnedWorkerHost input).stored.tasks.lookup key = some a) : P := by
    rw [hNoTask] at h
    cases h
  refine ⟨⟨rfl, .created _ _ _ _ hDefinition, .created .., trivial⟩,
    ⟨.created .., .created .., .created .., Generational.created definition id workflowDefId
      pinnedWorkerHost input, fun _ _ h => hNone h, .created ..,
      ⟨rfl, fun _ _ h => hNone h, fun _ _ h => hNone h, fun _ _ _ h => hNone h,
        fun _ _ h => hNone h⟩⟩,
    ⟨fun _ _ h => hNone h, fun _ _ h => hNone h, fun _ _ _ _ _ _ h => hNone h,
      fun _ _ hState => ?_⟩, trivial, fun _ _ h => hNone h, fun hCompleted => ?_⟩
  · cases hState
  · cases hCompleted

/-- A step that follows the answers leaves the snapshot as it is, or commits
what is known. -/
theorem CalmRun.step {l : Lifecycle} (hDef : WellFormedDef definition)
    (hExits : ExitFree definition) (h : CalmRun env answers definition input s l)
    (hMeets : FollowsCalmly env answers definition s action)
    (hStep : s.step env action = some s') : ∃ l', CalmRun env answers definition input s' l' := by
  have hStored := h.refines.stored
  have hState := h.state
  obtain ⟨l', writers, steps, _, hRefines⟩ := (h.refines.step hStep).lifecycle
  obtain ⟨hFed, hGenerational, hRecorded⟩ :=
    steps.generational hDef hState.sound hState.fed hState.generational hState.recorded
  have hStarts := steps.sliceStarts hDef hState.starts
  have hVerdicts : VerdictsInv definition s'.stored := by
    have hOld : VerdictsInv definition s.stored := hStored ▸ hState.verdicts
    cases h.refines.commits hStep with
    | same hSame => rwa [hSame]
    | committed hReduce hSaved hCommit =>
        rw [hSaved]
        exact (hOld.commit hDef ⟨l, h.refines, hState.starts⟩ hMeets.1 hCommit hReduce).withVersion _
  have hRest : CalmAttempts definition input s'.stored ∧ Settles answers definition s'.stored ∧
      KnownTasks definition s'.stored ∧
      (s'.stored.status = .completed → AllDone definition s'.stored) := by
    cases h.refines.calmCommits (hStored ▸ hState.attempts.calm) hExits h.follows hStep with
    | same hSame =>
        rw [hSame, ← hStored]
        exact ⟨hState.attempts, h.settles, h.known, h.done⟩
    | @committed events reduced plan rest hReduce hSaved hWrite hCommit =>
        rw [hSaved] at hVerdicts ⊢
        have hReduced : VerdictsInv definition reduced := hVerdicts.withVersion reduced.version
        rw [← hStored] at hReduce hWrite hCommit
        have hKnown : KnownTasks definition reduced :=
          (hWrite.effect hReduce).knownTasks hDef h.known
        exact ⟨(hState.attempts.commit hDef hState.sound hCommit).withVersion _,
          (h.settles.commit hDef hState hWrite hReduce hReduced hCommit).withVersion _,
          hKnown, fun hCompleted =>
          (AllDone.write hDef hState h.known h.done hWrite hReduce hCompleted).congr (fun _ => rfl)
            fun _ => rfl⟩
  rw [← hRefines.stored] at hVerdicts hRest
  exact ⟨l', hRefines, ⟨steps.sound hState.sound, hStarts, hFed, hGenerational, hRecorded, hVerdicts,
    hRest.1⟩, hRest.2.1, h.follows.step h.refines hMeets.2 hStep, hRest.2.2.1, hRest.2.2.2⟩

/-- Every run that follows the answers is calm. -/
theorem System.StepsMeeting.calmRun {start : System} (hDef : WellFormedDef definition)
    (hExits : ExitFree definition) (hStart : ∃ l, CalmRun env answers definition input start l)
    (run : System.StepsMeeting env (FollowsCalmly env answers definition) start actions s) :
    ∃ l, CalmRun env answers definition input s l := by
  refine Run.invariant (P := fun s => ∃ l, CalmRun env answers definition input s l) run hStart ?_
  rintro s action s' ⟨l, h⟩ ⟨hStep, hMeets⟩
  exact h.step hDef hExits hMeets hStep

/-- A step of one run keeps its agreement with a state of the other. -/
theorem CalmRun.matches_step {l r : Lifecycle} {other : System} (hDef : WellFormedDef definition)
    (hExits : ExitFree definition) (h : CalmRun env answers definition input s l)
    (hOther : CalmRun env answers definition input other r) (hMatches : Matches s.stored other.stored)
    (hStep : s.step env action = some s') : Matches s'.stored other.stored := by
  have hStored := h.refines.stored
  cases h.refines.calmCommits (hStored ▸ h.state.attempts.calm) hExits h.follows hStep with
  | same hSame => rwa [hSame]
  | @committed events reduced plan rest hReduce hSaved hWrite hCommit =>
      rw [hSaved]
      rw [← hStored] at hReduce hWrite hCommit hMatches
      rw [← hOther.refines.stored] at hMatches ⊢
      have hReduced : Matches reduced r.stored :=
        hMatches.commit hDef h.state hOther.state h.settles hOther.settles hWrite hReduce hCommit
      exact hReduced

/-- The run agrees with every state of another. -/
theorem System.StepsMeeting.agrees {start other : System} {r : Lifecycle}
    (hDef : WellFormedDef definition) (hExits : ExitFree definition)
    (hStart : ∃ l, CalmRun env answers definition input start l)
    (hOther : CalmRun env answers definition input other r)
    (hMatches : Matches start.stored other.stored)
    (run : System.StepsMeeting env (FollowsCalmly env answers definition) start actions s) :
    Matches s.stored other.stored := by
  refine (Run.invariant (P := fun s => (∃ l, CalmRun env answers definition input s l) ∧
    Matches s.stored other.stored) run ⟨hStart, hMatches⟩ ?_).2
  rintro s action s' ⟨⟨l, h⟩, hMatches⟩ ⟨hStep, hMeets⟩
  exact ⟨h.step hDef hExits hMeets hStep, h.matches_step hDef hExits hOther hMatches hStep⟩

/-- Runs that agree and have both completed the workflow have ended with the
same attempts and verifier states: all of them are completed in both. -/
theorem CalmRun.ends_alike {l r : Lifecycle} (hDef : WellFormedDef definition)
    (h : CalmRun env answers definition input s l) (hOther : CalmRun env answers definition input s' r)
    (hMatches : Matches s.stored s'.stored) (hCompleted : s.stored.status = .completed)
    (hCompleted' : s'.stored.status = .completed) :
    s'.stored.tasks = s.stored.tasks ∧ s'.stored.verifierStates = s.stored.verifierStates := by
  rw [← h.refines.stored] at hCompleted hMatches ⊢
  rw [← hOther.refines.stored] at hCompleted' hMatches ⊢
  have hEnd : CalmEnd answers definition input l :=
    ⟨h.state, h.settles, h.known, h.done hCompleted⟩
  have hEnd' : CalmEnd answers definition input r :=
    ⟨hOther.state, hOther.settles, hOther.known, hOther.done hCompleted'⟩
  exact ⟨hMatches.tasks_eq hDef hEnd hEnd', hMatches.verifierStates_eq hDef hEnd hEnd'⟩

/-- Two runs of one workflow with the same answers agree on every attempt that
both have completed, and when both complete the workflow, they end with the
same attempts and verifier states. -/
theorem System.Steps.confluent {submitted : WorkflowDef} {id id' workflowDefId : String}
    {pinnedWorkerHost pinnedWorkerHost' : WorkerHostId} {actions' : List Action}
    (hAccepted : validateAndNormalizeWorkflowDef submitted = .ok definition)
    (hDefinition : env.definitions workflowDefId = some definition) (hExits : ExitFree definition)
    (run : System.StepsMeeting env (FollowsCalmly env answers definition)
      (System.created id workflowDefId pinnedWorkerHost input) actions s)
    (run' : System.StepsMeeting env (FollowsCalmly env answers definition)
      (System.created id' workflowDefId pinnedWorkerHost' input) actions' s') :
    Matches s.stored s'.stored ∧
      (s.stored.status = .completed → s'.stored.status = .completed →
        s'.stored.tasks = s.stored.tasks ∧ s'.stored.verifierStates = s.stored.verifierStates) := by
  have hDef := validateAndNormalizeWorkflowDef_ok hAccepted
  have hStart : ∃ l, CalmRun env answers definition input
      (System.created id workflowDefId pinnedWorkerHost input) l := ⟨_, .created _ _ hDefinition⟩
  obtain ⟨l, hl⟩ := run.calmRun hDef hExits hStart
  obtain ⟨r, hr⟩ := run'.calmRun hDef hExits ⟨_, .created _ _ hDefinition⟩
  have hMatches := run.agrees hDef hExits hStart hr fun _ _ _ hTask => by cases hTask
  exact ⟨hMatches, hl.ends_alike hDef hr hMatches⟩

end Runs

/-! Two runs of the chain: one straight, and one whose first draft fails and
whose first edit is cut off by a crash. -/

def chainTexts (taskDefId : String) (generation : Nat) : List (String × String) :=
  if taskDefId ≠ "a-review" then []
  else if generation = 1 then [("decision", "continue"), ("feedback", "shorter")]
  else [("decision", "complete")]

/-- The first review sends the draft back, and the next one accepts it. -/
def chainAnswers : Answers := fun taskDefId generation _ _ =>
  .object ((chainTexts taskDefId generation).map fun field => (field.1, .string field.2))

/-- The fields of an object all of which are strings. -/
def stringFields : List (String × Json) → Option (List (String × String))
  | [] => some []
  | (key, .string value) :: fields => (stringFields fields).map ((key, value) :: ·)
  | _ :: _ => none

/-- An object of texts is read off its list of members. -/
theorem stringFields_some {fields : List (String × Json)} {texts : List (String × String)}
    (h : stringFields fields = some texts) :
    fields = texts.map fun field => (field.1, .string field.2) := by
  induction fields generalizing texts with
  | nil =>
      cases h
      rfl
  | cons field fields ih =>
      obtain ⟨key, value⟩ := field
      cases value with
      | string value =>
          obtain ⟨rest, hRest, rfl⟩ := Option.map_eq_some_iff.mp h
          rw [ih hRest]
          rfl
      | _ => cases h

def System.awaiting (s : System) : Option DispatchCall :=
  match s.pass with
  | .active pass =>
      match pass.point with
      | .awaitAnswer _ call _ => some call
      | _ => none
  | _ => none

/-- While a pass waits for an answer, what it has asked is the call of that
attempt. -/
theorem System.awaiting_active {s : System} {pass : ActivePass} {started : StartedTask}
    {call : DispatchCall} {rest : List String} (hPass : s.pass = .active pass)
    (hPoint : pass.point = .awaitAnswer started call rest) : s.awaiting = some call := by
  simp only [System.awaiting, hPass, hPoint]

def followsChain (s : System) : Action → Bool
  | .answer (.ok (.success (.object fields))) => s.awaiting.all fun call =>
      stringFields fields = some (chainTexts call.taskDef.id call.metadata.generationIndex)
  | .answer (.ok (.failure _)) => true
  | .request (.retryTask taskId) _ => (loadRetryableTask s.stored taskId).toOption.all fun id =>
      (s.stored.tasks.lookup id).all fun task =>
        (s.stored.verifierStates.lookup task.taskDefId).isNone
  | .answer _ | .request .. => false
  | _ => true

/-- The check of the sample, on the answers that it gives, is enough for the
condition of the run. -/
theorem followsCalmly_of_followsChain {env : EngineEnv} {definition : WorkflowDef} {s : System}
    {action : Action} (h : followsChain s action = true) :
    FollowsCalmly env chainAnswers definition s action := by
  unfold followsChain at h
  split at h
  · refine ⟨trivial, fun pass started call rest hPass hPoint => ?_⟩
    rw [System.awaiting_active hPass hPoint] at h
    exact congrArg Json.object (stringFields_some (of_decide_eq_true h))
  · exact ⟨trivial, fun _ _ _ _ _ _ => trivial⟩
  · refine ⟨fun _ id task state hRetry hTask hState => ?_, trivial⟩
    rw [hRetry] at h
    simp [Except.toOption, hTask, hState] at h
  · cases h
  · cases h
  · rename_i hAnswer hRequest
    cases action with
    | answer result => exact (hAnswer result rfl).elim
    | request request seen => exact (hRequest request seen rfl).elim
    | _ => exact ⟨trivial, trivial⟩

def chainStraight : List Action := secondAccepted ++ passSteps 1

def chainInterrupted : List Action :=
  startDraft ++ [.answer (.ok (.failure "no model"))] ++ passSteps 2 ++
    [.request (.retryTask "draft") 0, .startPass []] ++ passSteps 6 ++ [succeeds] ++ passSteps 5 ++
    [.crash, .recover 0 0 0, .startPass []] ++ passSteps 6 ++ [succeeds] ++ passSteps 5 ++
    [.answer reviewAnswer] ++ passSteps 5 ++ [succeeds] ++ passSteps 5 ++ [succeeds] ++ passSteps 5 ++
    [completes] ++ passSteps 3

def runsChain (actions : List Action) : Option System :=
  (actions.foldlM (fun s action => if followsChain s action then System.step chainEnv s action
    else none) chainStart).filter fun s => s.stored.status = .completed

/-- A sample run that the check lets through meets the condition in every step
and ends completed. -/
theorem runsChain_some {actions : List Action} {s : System} (h : runsChain actions = some s) :
    System.StepsMeeting chainEnv (FollowsCalmly chainEnv chainAnswers chainDefinition) chainStart
      actions s ∧ s.stored.status = .completed := by
  obtain ⟨hFound, hStatus⟩ := Option.filter_eq_some_iff.mp h
  exact ⟨(Run.of_guarded hFound).mono fun s action s' hStep =>
    ⟨hStep.1, followsCalmly_of_followsChain hStep.2⟩, of_decide_eq_true hStatus⟩

theorem chainStraight_runs : (runsChain chainStraight).isSome := by
  decide +kernel

theorem chainInterrupted_runs : (runsChain chainInterrupted).isSome := by
  decide +kernel

/-- The failure, its retry and the crash leave no trace in the attempts. -/
theorem System.Steps.confluent_chain : ∃ s s',
    System.StepsMeeting chainEnv (FollowsCalmly chainEnv chainAnswers chainDefinition) chainStart
      chainStraight s ∧
    System.StepsMeeting chainEnv (FollowsCalmly chainEnv chainAnswers chainDefinition) chainStart
      chainInterrupted s' ∧ Matches s.stored s'.stored ∧
    s'.stored.tasks = s.stored.tasks ∧ s'.stored.verifierStates = s.stored.verifierStates := by
  obtain ⟨run, hCompleted⟩ := runsChain_some (Option.some_get chainStraight_runs).symm
  obtain ⟨run', hCompleted'⟩ := runsChain_some (Option.some_get chainInterrupted_runs).symm
  have hAccepted : validateAndNormalizeWorkflowDef chainSubmitted = .ok chainDefinition :=
    eq_ok_get chainSubmitted_accepted
  have hDefinition : chainEnv.definitions "chain" = some chainDefinition := rfl
  have hExits : ExitFree chainDefinition := by
    unfold ExitFree
    decide +kernel
  obtain ⟨hMatches, hEnds⟩ := System.Steps.confluent hAccepted hDefinition hExits run run'
  exact ⟨_, _, run, run', hMatches, hEnds hCompleted hCompleted'⟩

end RelayFold
