import RelayFold.Engine.Answers
import RelayFold.Lifecycle.Failures
import RelayFold.Lifecycle.SliceStarts

/-! The answer to a dispatch is recorded, unless another writer comes between
the pass and its commit. -/
namespace RelayFold

open WorkflowEngine WorkflowStateManager WorkflowService FallibleFold

/-- The attempt whose result the pass is about to commit. -/
def PassState.recording : PassState → Option String
  | active pass =>
      match pass.point with
      | .readCurrent started _ _ _ | .commitResult started _ _ _ _ => some started.taskAttemptId
      | _ => none
  | _ => none

/-- The request has something to commit on the stored snapshot. -/
def Request.commitsOn (env : EngineEnv) (s : System) (request : Request) (seen : Nat) : Bool :=
  s.snapshots[seen]?.any fun snapshot =>
    snapshot.version = s.stored.version &&
      (request.batch env.definitions snapshot).toOption.join.isSome

/-- The pass has written the instance last, or finds it paused. -/
def ActivePass.heldOrPaused (pass : ActivePass) (stored : WorkflowInstance) : Bool :=
  stored.version = pass.workflow.version || stored.status = .paused

/-- A step at which the result the pass holds goes stale: the instance is read
again after another writer and is not paused, or another writer commits after
that read. -/
def System.overtakes (env : EngineEnv) (s : System) (action : Action) : Bool :=
  match s.pass with
  | .active pass =>
      match pass.point, action with
      | .readCurrent .., .passStep => !pass.heldOrPaused s.stored
      | .commitResult .., .request request seen => request.commitsOn env s seen
      | _, _ => false
  | _ => false

/-- The steps of one pass, and of the operators and the host loss beside it. -/
def Action.duringPass : Action → Bool
  | .passStep | .answer _ | .request .pauseWorkflow _ | .request .resumeWorkflow _
  | .request (.failPinnedToLostHosts _) _ => true
  | _ => false

/-- Whether the result of the attempt has been overtaken. -/
def overtaken (env : EngineEnv) (id : String) (s : System) (action : Action) (_ : System)
    (lost : Bool) : Bool :=
  lost || (s.pass.recording = some id && s.overtakes env action)

/-- A pass and its operators, with the fate of one result. -/
abbrev PassSteps (env : EngineEnv) (id : String) :
    System × Bool → List Action → System × Bool → Prop :=
  Run (Run.Traced (fun s action s' => System.step env s action = some s' ∧
    action.duringPass = true) (overtaken env id))

/-- The store holds the answer to the attempt. -/
def AnswerRecorded (workflow : WorkflowInstance) (id : String) : Prop :=
  ∃ task, workflow.tasks.lookup id = some task ∧ task.status.isAnswered = true

def StillRunning (workflow : WorkflowInstance) (id : String) : Prop :=
  ∃ task, workflow.tasks.lookup id = some task ∧ task.status = .running

/-- The pass is about to commit a result of the attempt, on the stored snapshot
if it has chosen one. -/
structure Holding (id : String) (s : System) (pass : ActivePass) (started : StartedTask)
    (answer : Answer) (result : ResultCommit) (rest : List String) : Prop where
  active : s.pass = .active pass
  attempt : started.taskAttemptId = id
  point : pass.point = .readCurrent started answer result rest ∨
    pass.point = .commitResult started answer result s.stored rest

/-- The result is recorded, or the pass still has it to commit. -/
inductive Kept (id : String) (s : System) : Prop
  | recorded (h : AnswerRecorded s.stored id)
  | held {pass : ActivePass} {started : StartedTask} {answer : Answer} {result : ResultCommit}
      {rest : List String} (h : Holding id s pass started answer result rest)

/-- The attempt runs on, and the pass has no result for it or one on a snapshot
that is not the stored one any more. -/
inductive Lost (id : String) (s : System) : Prop
  | ended (hRunning : StillRunning s.stored id) (hEnded : s.pass.inFlight = false)
  | stale {pass : ActivePass} {started : StartedTask} {answer : Answer} {result : ResultCommit}
      {base : WorkflowInstance} {rest : List String} (hRunning : StillRunning s.stored id)
      (hPass : s.pass = .active pass)
      (hPoint : pass.point = .commitResult started answer result base rest)
      (hStale : base.version < s.stored.version)

section Steps

variable {env : EngineEnv} {definition : WorkflowDef} {s s' : System} {l : Lifecycle} {id : String}

/-- An attempt that still runs has no recorded answer, so the two fates exclude
each other. -/
theorem StillRunning.not_recorded {workflow : WorkflowInstance} (h : StillRunning workflow id) :
    ¬AnswerRecorded workflow id := by
  rintro ⟨task, hTask, hAnswered⟩
  obtain ⟨running, hRunning, hStatus⟩ := h
  rw [hRunning] at hTask
  cases hTask
  rw [hStatus] at hAnswered
  cases hAnswered

/-- An attempt whose result is to be committed still runs. -/
theorem Refines.recording_running (h : Refines env definition s l)
    (hRecording : s.pass.recording = some id) : StillRunning s.stored id := by
  have hInv := h.pass
  cases hPass : s.pass with
  | active pass =>
      rw [hPass] at hInv hRecording
      have hTask {started : StartedTask} (hStarted : pass.point.started = some started) :
          StillRunning s.stored started.taskAttemptId := by
        obtain ⟨hWorking, hStarted⟩ := hInv.started hStarted
        have hStored := hStarted.of_sameWork hWorking.same
        exact ⟨started.task, (startedTask_eq hStored.resolved).2.1, hStarted.running⟩
      cases hCase : pass.point with
      | readCurrent _ _ _ _ | commitResult _ _ _ _ _ =>
          simp only [PassState.recording, hCase, Option.some.injEq] at hRecording
          exact hRecording ▸ hTask (by rw [hCase]; rfl)
      | _ => simp only [PassState.recording, hCase, reduceCtorEq] at hRecording
  | _ =>
      rw [hPass] at hRecording
      cases hRecording

/-- A recorded answer stays recorded: only recovery and retries take an
answered attempt back. -/
theorem AnswerRecorded.of_moves {writer : Writer} {before after : WorkflowInstance}
    (h : AnswerRecorded before id) (hAfter : AttemptsAfter writer before after)
    (hWriter : writer ≠ .recovery ∧ writer ≠ .retry) : AnswerRecorded after id := by
  obtain ⟨task, hTask, hAnswered⟩ := h
  obtain ⟨task', hTask', hMoves⟩ := hAfter.kept id task hTask
  refine ⟨task', hTask', ?_⟩
  have hStatus := hMoves.status
  revert hStatus hAnswered
  generalize task.status = before
  generalize task'.status = after
  intro hAnswered hStatus
  cases hStatus with
  | refl _ _ => exact hAnswered
  | answer hNew => exact hNew
  | start | skip => cases hAnswered
  | recover => exact absurd rfl hWriter.1
  | retry => exact absurd rfl hWriter.2

/-- An attempt that runs goes on running until its own pass or a recovery says
otherwise. -/
theorem StillRunning.of_moves {writer : Writer} {before after : WorkflowInstance}
    (h : StillRunning before id) (hAfter : AttemptsAfter writer before after)
    (hWriter : writer ≠ .recovery ∧ writer ≠ .pass) : StillRunning after id := by
  obtain ⟨task, hTask, hRunning⟩ := h
  obtain ⟨task', hTask', hMoves⟩ := hAfter.kept id task hTask
  refine ⟨task', hTask', ?_⟩
  have hStatus := hMoves.status
  rw [hRunning] at hStatus
  revert hStatus
  generalize task'.status = after
  intro hStatus
  cases hStatus with
  | refl _ _ => rfl
  | answer _ => exact absurd rfl hWriter.2
  | recover => exact absurd rfl hWriter.1

/-- What goes on while the pass is under way is neither a recovery nor a
retry. -/
theorem Action.duringPass_writer {action : Action} (h : action.duringPass = true) :
    action.writer ≠ .recovery ∧ action.writer ≠ .retry := by
  cases action with
  | request request seen =>
      cases request with
      | retryTask _ | forceRetryTask _ _ => cases h
      | _ => exact ⟨nofun, nofun⟩
  | recover _ _ _ => cases h
  | _ => exact ⟨nofun, nofun⟩

/-- A request beside the pass commits its status on the stored snapshot, or it
leaves the system as it is. -/
theorem Refines.requestDuring (h : Refines env definition s l) {request : Request} {seen : Nat}
    (hDuring : (Action.request request seen).duringPass = true)
    (hStep : s.step env (.request request seen) = some s') :
    request.commitsOn env s seen = false ∧ s' = s ∨
      request.commitsOn env s seen = true ∧ ∃ updated, s' = s.saved updated ∧
        s.stored.version < updated.version := by
  simp only [System.step] at hStep
  obtain ⟨base, hBase, hStep⟩ := Option.bind_eq_some_iff.mp hStep
  have hHeld := List.mem_of_getElem? hBase
  have hStatus (events : List WorkflowInstanceEvent)
      (hBatch : request.batch env.definitions base = .ok (some events)) :
      ∃ status, events = [.workflowStatusChanged status] := by
    cases request with
    | pauseWorkflow =>
        simp only [Request.batch] at hBatch
        split at hBatch <;> cases hBatch <;> exact ⟨_, rfl⟩
    | resumeWorkflow =>
        simp only [Request.batch] at hBatch
        split at hBatch <;> cases hBatch
        exact ⟨_, rfl⟩
    | failPinnedToLostHosts lostHosts =>
        simp only [Request.batch] at hBatch
        split at hBatch
        · cases hBatch
        · split at hBatch <;> cases hBatch
          exact ⟨_, rfl⟩
    | _ => cases hDuring
  unfold Request.commitsOn
  rw [hBase]
  simp only [Option.any_some]
  split at hStep
  · rename_i events hBatch
    cases hStep
    obtain ⟨status, rfl⟩ := hStatus events hBatch
    rw [hBatch]
    change (decide (base.version = s.stored.version) && true) = false ∧ _ ∨
      (decide (base.version = s.stored.version) && true) = true ∧ _
    by_cases hVersion : base.version = s.stored.version
    · right
      obtain rfl := h.history.eq_stored hHeld hVersion.symm
      refine ⟨by simp, { s.stored with status := status }.withVersion (s.stored.version + 1), ?_,
        Nat.lt_succ_self _⟩
      rw [System.commit, commitOn_stored (List.cons_ne_nil _ _) rfl]
      rfl
    · left
      refine ⟨by simp [hVersion], ?_⟩
      rcases h.commit_eq hHeld _ with hSame | ⟨hStored, _⟩
      · exact hSame
      · exact absurd (congrArg WorkflowInstance.version hStored) hVersion
  · rename_i hNone
    cases hStep
    refine .inl ⟨?_, rfl⟩
    cases hBatch : request.batch env.definitions base with
    | error _ => exact Bool.and_false _
    | ok found =>
        cases found with
        | none => exact Bool.and_false _
        | some events => exact absurd hBatch (hNone events)

/-- Any answer to an attempt that a pass has started can be recorded on the
stored snapshot. -/
theorem SliceStarts.answerable (hDef : WellFormedDef definition) (h : SliceStarts definition l)
    {loopSlices : LoopSlices} {started : StartedTask}
    (hStarted : Started definition loopSlices l.stored started) :
    Answerable l.stored definition started.taskAttemptId started.taskDef := by
  obtain ⟨_, hTask, hFound, _⟩ := startedTask_eq hStarted.resolved
  obtain ⟨hMem, hId⟩ := findTask_some hFound
  refine ⟨⟨started.task, hTask, hFound, hId.symm⟩, hDef.schema_ok _ hMem, fun hVerifier => ?_⟩
  obtain ⟨slice, hSlice⟩ := verifier_slice hFound hVerifier
  exact h.state_isSome hSlice hTask (hId ▸ hDef.verifier_mem hSlice) hStarted.running

/-- A pass goes on from its answer with a result to commit. -/
theorem Holding.of_answer (hDef : WellFormedDef definition) (h : Refines env definition s l)
    (hStarts : SliceStarts definition l) {pass : ActivePass} {started : StartedTask}
    {call : DispatchCall} {rest : List String} (hPass : s.pass = .active pass)
    (hPoint : pass.point = .awaitAnswer started call rest) {answer : Answer}
    (hStep : s.step env (.answer answer) = some s') : Kept started.taskAttemptId s' := by
  have hInv := h.pass
  rw [hPass] at hInv
  have hKnown := hInv.point
  simp only [PointInv, hPoint] at hKnown
  obtain ⟨_, hWorking, hStarted, _⟩ := hKnown
  have hStored : Started definition pass.loopSlices l.stored started :=
    h.stored ▸ hStarted.of_sameWork hWorking.same
  obtain ⟨result, hResult, _⟩ : Recordable l.stored (resultCommit env.ext l.stored definition
      pass.loopSlices started.taskAttemptId started.taskDef started.inputs answer) :=
    (hStarts.answerable hDef hStored).recordable env.ext started.inputs answer
  rw [h.stored, hWorking.same, resultCommit_marked] at hResult
  simp only [System.step, hPass, PassState.answer, hPoint, Option.map_some,
    Option.some.injEq] at hStep
  cases hStep
  have hAnswered : pass.answered env.ext started rest answer =
      pass.goOn pass.workflow (.readCurrent started answer result rest) := by
    rw [ActivePass.answered, hInv.loaded, hResult]
  exact .held ⟨hAnswered, rfl, .inl rfl⟩

theorem Action.request_writer (request : Request) (seen : Nat) :
    (Action.request request seen).writer ≠ .recovery ∧
      (Action.request request seen).writer ≠ .pass := by
  cases request <;> exact ⟨nofun, nofun⟩

/-- A commit on a snapshot that is not the stored one is refused. -/
theorem System.step_stale {pass : ActivePass} {started : StartedTask} {answer : Answer}
    {result : ResultCommit} {base : WorkflowInstance} {rest : List String}
    (hPass : s.pass = .active pass)
    (hPoint : pass.point = .commitResult started answer result base rest)
    (hStale : base.version < s.stored.version) (hStep : s.step env .passStep = some s') :
    ∃ error, s' = s.setPass (.finished (.error error)) := by
  rw [System.step_passStep, hPass] at hStep
  simp only [PassState.step, ActivePass.step, hPoint, ActivePass.commit] at hStep
  cases hCommit : commitOn s.stored base result.events with
  | error error =>
      rw [hCommit] at hStep
      cases hStep
      exact ⟨error.display, rfl⟩
  | ok updated => exact absurd (commitOn_ok hCommit).2.1 (Nat.ne_of_gt hStale)

/-- A lost result stays lost. -/
theorem Lost.step (h : Refines env definition s l) (hLost : Lost id s) {action : Action}
    (hDuring : action.duringPass = true) (hStep : s.step env action = some s') : Lost id s' := by
  have hRequest {request : Request} {seen : Nat} (hRunning : StillRunning s.stored id)
      (hStep : s.step env (.request request seen) = some s') : StillRunning s'.stored id :=
    hRunning.of_moves (h.step hStep).extended.attemptsAfter (Action.request_writer request seen)
  cases hLost with
  | ended hRunning hEnded =>
      cases action with
      | passStep =>
          rw [System.step_passStep] at hStep
          cases hPass : s.pass with
          | idle | finished _ =>
              rw [hPass] at hStep
              cases hStep
              exact .ended hRunning rfl
          | loading _ | loadingDef _ _ | active _ =>
              rw [hPass] at hEnded
              cases hEnded
      | answer answer =>
          obtain ⟨next, hNext, _⟩ := Option.map_eq_some_iff.mp hStep
          cases hPass : s.pass with
          | active pass =>
              rw [hPass] at hEnded
              cases hEnded
          | _ =>
              rw [hPass] at hNext
              cases hNext
      | request request seen =>
          refine .ended (hRequest hRunning hStep) ?_
          rcases h.requestDuring hDuring hStep with ⟨_, rfl⟩ | ⟨_, updated, rfl, _⟩
          · exact hEnded
          · exact hEnded
      | _ => cases hDuring
  | stale hRunning hPass hPoint hStale =>
      cases action with
      | passStep =>
          obtain ⟨error, rfl⟩ := System.step_stale hPass hPoint hStale hStep
          exact .ended hRunning rfl
      | answer answer =>
          obtain ⟨next, hNext, _⟩ := Option.map_eq_some_iff.mp hStep
          simp only [hPass, PassState.answer, hPoint, reduceCtorEq] at hNext
      | request request seen =>
          have hStill := hRequest hRunning hStep
          rcases h.requestDuring hDuring hStep with ⟨_, rfl⟩ | ⟨_, updated, rfl, hLater⟩
          · exact .stale hStill hPass hPoint hStale
          · exact .stale hStill hPass hPoint (Nat.lt_trans hStale hLater)
      | _ => cases hDuring

/-- The pass commits the result it holds. -/
theorem Holding.commits (hDef : WellFormedDef definition) (h : Refines env definition s l)
    (hStarts : SliceStarts definition l) {pass : ActivePass} {started : StartedTask}
    {answer : Answer} {result : ResultCommit} {rest : List String} (hPass : s.pass = .active pass)
    (hPoint : pass.point = .commitResult started answer result s.stored rest)
    (hStep : s.step env .passStep = some s') : AnswerRecorded s'.stored started.taskAttemptId := by
  have hInv := h.pass
  rw [hPass] at hInv
  have hKnown := hInv.point
  simp only [PointInv, hPoint] at hKnown
  obtain ⟨_, hWorking, hStarted, _, hResult, _⟩ := hKnown
  have hStored := hStarted.of_sameWork hWorking.same
  obtain ⟨result', hResult', reduced, hReduce⟩ : Recordable l.stored (resultCommit env.ext l.stored
      definition pass.loopSlices started.taskAttemptId started.taskDef started.inputs answer) :=
    (hStarts.answerable hDef (h.stored ▸ hStored)).recordable env.ext started.inputs answer
  rw [h.stored] at hResult' hReduce
  have hRecorded := resultCommit_ok hResult'
  rw [hWorking.same, resultCommit_marked, hResult] at hResult'
  cases hResult'
  obtain ⟨status, hAnswered, hMem⟩ := hRecorded.answers
  have hCommit := commitOn_stored (List.ne_nil_of_mem hMem) hReduce
  obtain ⟨_, hTask, _⟩ := startedTask_eq hStored.resolved
  have hAfter := hRecorded.result.after hReduce (by rw [hTask]; rfl) ⟨status, hAnswered, hMem⟩
  obtain ⟨task, hNew, _, _, _, hNewAnswered, _⟩ := hAfter.answered _ hTask hStored.running
  rw [System.step_passStep, hPass] at hStep
  simp only [PassState.step, ActivePass.step, hPoint, ActivePass.commit, hCommit] at hStep
  cases hStep
  exact ⟨task, hNew, hNewAnswered⟩

/-- The instance is read again: the result goes on top of what is stored, or it
is too late. -/
theorem Refines.readCurrent (h : Refines env definition s l) {pass : ActivePass}
    {started : StartedTask} {answer : Answer} {result : ResultCommit} {rest : List String}
    (hPass : s.pass = .active pass) (hPoint : pass.point = .readCurrent started answer result rest)
    (hRunning : StillRunning s.stored started.taskAttemptId)
    (hStep : s.step env .passStep = some s') :
    (s.overtakes env .passStep = false → Kept started.taskAttemptId s') ∧
      (s.overtakes env .passStep = true → Lost started.taskAttemptId s') := by
  have hInv := h.pass
  rw [hPass] at hInv
  simp only [System.overtakes, hPass, hPoint, Bool.not_eq_false', Bool.not_eq_true']
  rw [System.step_passStep, hPass] at hStep
  simp only [PassState.step, ActivePass.step, hPoint] at hStep
  cases hStep
  unfold ActivePass.heldOrPaused
  constructor
  · intro hHeld
    have hBase : pass.resultBase (some s.stored) = s.stored := by
      simp only [ActivePass.resultBase]
      split
      · rfl
      · rename_i hNotPaused
        simp only [hNotPaused, decide_false, Bool.or_false, decide_eq_true_eq] at hHeld
        exact h.history.eq_stored hInv.held hHeld
    exact .held ⟨rfl, rfl, .inr (by rw [hBase]; rfl)⟩
  · intro hStale
    rw [Bool.or_eq_false_iff, decide_eq_false_iff_not, decide_eq_false_iff_not] at hStale
    refine .stale hRunning rfl rfl ?_
    change (pass.resultBase (some s.stored)).version < s.stored.version
    simp only [ActivePass.resultBase, if_neg hStale.2]
    rcases List.mem_cons.mp hInv.held with hSame | hPast
    · rw [hSame] at hStale
      exact absurd rfl hStale.1
    · exact h.history.older _ hPast

/-- A result is kept until it is overtaken. -/
theorem Kept.step (hDef : WellFormedDef definition) (h : Refines env definition s l)
    (hStarts : SliceStarts definition l) (hKept : Kept id s) {action : Action}
    (hDuring : action.duringPass = true) (hStep : s.step env action = some s') :
    (overtaken env id s action s' false = false → Kept id s') ∧
      (overtaken env id s action s' false = true → Lost id s') := by
  have hAfter := (h.step hStep).extended.attemptsAfter
  cases hKept with
  | recorded hRecorded =>
      refine ⟨fun _ => .recorded (hRecorded.of_moves hAfter (action.duringPass_writer hDuring)),
        fun hOvertaken => ?_⟩
      simp only [overtaken, Bool.false_or, Bool.and_eq_true, decide_eq_true_eq] at hOvertaken
      exact absurd hRecorded (h.recording_running hOvertaken.1).not_recorded
  | @held pass started answer result rest hHolding =>
      obtain ⟨hPass, rfl, hPoint⟩ := hHolding
      have hRecording : s.pass.recording = some started.taskAttemptId := by
        rcases hPoint with hPoint | hPoint
        · simp only [PassState.recording, hPass, hPoint]
        · simp only [PassState.recording, hPass, hPoint]
      have hRunning := h.recording_running hRecording
      have hOvertaken : overtaken env started.taskAttemptId s action s' false =
          s.overtakes env action := by
        simp [overtaken, hRecording]
      rw [hOvertaken]
      cases action with
      | passStep =>
          rcases hPoint with hPoint | hPoint
          · exact h.readCurrent hPass hPoint hRunning hStep
          · have hRecorded := Holding.commits hDef h hStarts hPass hPoint hStep
            simp [System.overtakes, hPass, hPoint, Kept.recorded hRecorded]
      | answer answer =>
          obtain ⟨next, hNext, _⟩ := Option.map_eq_some_iff.mp hStep
          rcases hPoint with hPoint | hPoint <;>
            simp only [hPass, PassState.answer, hPoint, reduceCtorEq] at hNext
      | request request seen =>
          have hStill := hRunning.of_moves hAfter (Action.request_writer request seen)
          rcases hPoint with hPoint | hPoint
          · have hKept : Kept started.taskAttemptId s' := by
              rcases h.requestDuring hDuring hStep with ⟨_, rfl⟩ | ⟨_, updated, rfl, _⟩
              · exact .held ⟨hPass, rfl, .inl hPoint⟩
              · exact .held ⟨hPass, rfl, .inl hPoint⟩
            simp [System.overtakes, hPass, hPoint, hKept]
          · simp only [System.overtakes, hPass, hPoint]
            rcases h.requestDuring hDuring hStep with ⟨hRefused, rfl⟩ |
              ⟨hCommitted, updated, rfl, hLater⟩
            · rw [hRefused]
              exact ⟨fun _ => .held ⟨hPass, rfl, .inr hPoint⟩, fun h => by cases h⟩
            · rw [hCommitted]
              exact ⟨fun h => (by cases h), fun _ => .stale hStill hPass hPoint hLater⟩
      | _ => cases hDuring

/-- The fate of the result at every moment of the pass. -/
structure ResultFate (env : EngineEnv) (definition : WorkflowDef) (id : String)
    (p : System × Bool) : Prop where
  refines : ∃ l, Refines env definition p.1 l ∧ SliceStarts definition l
  kept : p.2 = false → Kept id p.1
  lost : p.2 = true → Lost id p.1

/-- Each step during the pass keeps the account of the answer: it is held,
recorded, or lost through an overtaking commit that the history variable has
marked. -/
theorem ResultFate.step (hDef : WellFormedDef definition) {lost lost' : Bool}
    (h : ResultFate env definition id (s, lost)) {action : Action}
    (hDuring : action.duringPass = true) (hStep : s.step env action = some s')
    (hLost : lost' = overtaken env id s action s' lost) :
    ResultFate env definition id (s', lost') := by
  obtain ⟨l, hRefines, hStarts⟩ := h.refines
  obtain ⟨l', writers, run, _, hRefines'⟩ := (hRefines.step hStep).lifecycle
  have hNext : ∃ l, Refines env definition s' l ∧ SliceStarts definition l :=
    ⟨l', hRefines', run.sliceStarts hDef hStarts⟩
  subst hLost
  cases lost with
  | false =>
      obtain ⟨hKept, hOvertaken⟩ := (h.kept rfl).step hDef hRefines hStarts hDuring hStep
      exact ⟨hNext, hKept, hOvertaken⟩
  | true => exact ⟨hNext, nofun, fun _ => (h.lost rfl).step hRefines hDuring hStep⟩

end Steps

variable {env : EngineEnv} {submitted definition : WorkflowDef} {id workflowDefId : String}
  {pinnedWorkerHost : WorkerHostId} {input : Option Json} {actions during : List Action}
  {s answered ended : System}

/-- Once a pass that was answered has ended, the store holds the answer exactly
if nobody has overtaken the pass between that answer and its commit. -/
theorem System.Steps.answer_recorded {pass : ActivePass} {started : StartedTask}
    {call : DispatchCall} {rest : List String} {answer : Answer} {lost : Bool}
    (hAccepted : validateAndNormalizeWorkflowDef submitted = .ok definition)
    (hDefinition : env.definitions workflowDefId = some definition)
    (run : System.Steps env (System.created id workflowDefId pinnedWorkerHost input) actions s)
    (hPass : s.pass = .active pass) (hPoint : pass.point = .awaitAnswer started call rest)
    (hAnswer : s.step env (.answer answer) = some answered)
    (later : PassSteps env started.taskAttemptId (answered, false) during (ended, lost))
    (hEnded : ended.pass.inFlight = false) :
    AnswerRecorded ended.stored started.taskAttemptId ↔ lost = false := by
  have hDef := validateAndNormalizeWorkflowDef_ok hAccepted
  obtain ⟨l, writers, steps, hRefines⟩ := run.refines hDefinition
  have hStarts := steps.sliceStarts hDef (.created ..)
  obtain ⟨l', _, next, _, hRefines'⟩ := (hRefines.step hAnswer).lifecycle
  have hStart : ResultFate env definition started.taskAttemptId (answered, false) :=
    ⟨⟨l', hRefines', next.sliceStarts hDef hStarts⟩,
      fun _ => Holding.of_answer hDef hRefines hStarts hPass hPoint hAnswer, nofun⟩
  have hFate := later.invariant hStart fun p action q h hStep =>
    h.step hDef hStep.1.2 hStep.1.1 hStep.2
  cases lost with
  | false =>
      refine iff_of_true ?_ rfl
      cases hFate.kept rfl with
      | recorded hRecorded => exact hRecorded
      | held hHolding =>
          rw [hHolding.active] at hEnded
          cases hEnded
  | true =>
      refine iff_of_false (fun hRecorded => ?_) nofun
      cases hFate.lost rfl with
      | ended hRunning _ => exact hRunning.not_recorded hRecorded
      | stale hRunning _ _ _ => exact hRunning.not_recorded hRecorded

/-! The sample article: its draft is answered while operators are at work. -/

/-- A pass that was answered and has ended. -/
structure AnsweredPass where
  before : System
  answered : System
  ended : System
  started : StartedTask
  lost : Bool

def emptyOutput : Answer := .ok (.success (.object []))

/-- The draft is in flight and operators act, it is answered, and the pass goes
on. -/
def answerDraft (requests during : List Action) : Option AnsweredPass := do
  let s ← (startDraft ++ requests).foldlM (System.step sampleEnv) sampleStart
  let started ← s.started
  let answered ← s.step sampleEnv (.answer emptyOutput)
  let (ended, lost) ← during.foldlM (fun p action =>
    ((System.step sampleEnv p.1 action).filter fun _ => action.duringPass).map fun s' =>
      (s', overtaken sampleEnv started.taskAttemptId p.1 action s' p.2)) (answered, false)
  return { before := s, answered := answered, ended := ended, started := started, lost := lost }

/-- What `answerDraft` finds is a pass of the sample article. -/
structure AnswersDraft (requests during : List Action) (p : AnsweredPass) : Prop where
  run : System.Steps sampleEnv sampleStart (startDraft ++ requests) p.before
  awaits : ∃ pass call rest, p.before.pass = .active pass ∧
    pass.point = .awaitAnswer p.started call rest
  answers : p.before.step sampleEnv (.answer emptyOutput) = some p.answered
  later : PassSteps sampleEnv p.started.taskAttemptId (p.answered, false) during (p.ended, p.lost)

theorem answerDraft_some {requests : List Action} {p : AnsweredPass}
    (h : answerDraft requests during = some p) : AnswersDraft requests during p := by
  obtain ⟨s, hRun, h⟩ := Option.bind_eq_some_iff.mp h
  obtain ⟨started, hStarted, h⟩ := Option.bind_eq_some_iff.mp h
  obtain ⟨answered, hAnswer, h⟩ := Option.bind_eq_some_iff.mp h
  obtain ⟨⟨ended, lost⟩, hLater, h⟩ := Option.bind_eq_some_iff.mp h
  cases h
  have hTraced : Run (Run.Traced (fun s action s' => (System.step sampleEnv s action).filter
      (fun _ => action.duringPass) = some s') (overtaken sampleEnv started.taskAttemptId))
      (answered, false) during (ended, lost) := Run.of_traced hLater
  refine ⟨Run.of_foldlM hRun, ?_, hAnswer, hTraced.mono fun p action q hStep => ?_⟩
  · obtain ⟨pass, hPass, hPoint⟩ := System.started_active hStarted
    obtain ⟨next, hNext, _⟩ := Option.map_eq_some_iff.mp hAnswer
    rw [hPass, PassState.answer] at hNext
    cases hCase : pass.point with
    | awaitAnswer other call rest =>
        rw [hCase] at hPoint
        cases hPoint
        exact ⟨pass, call, rest, hPass, hCase⟩
    | _ =>
        rw [hCase] at hNext
        cases hNext
  · obtain ⟨hNext, hDuring⟩ := Option.filter_eq_some_iff.mp hStep.1
    exact ⟨⟨hNext, hDuring⟩, hStep.2⟩

/-- The run that pauses before the pass has read its base goes through. -/
theorem answerDraft_paused :
    (answerDraft [.request .pauseWorkflow 0] [.passStep, .passStep]).isSome := by
  decide +kernel

/-- The draft is paused while it is in flight, and its output is recorded. -/
theorem System.Steps.answer_recorded_paused :
    ∃ p, AnswersDraft [.request .pauseWorkflow 0] [.passStep, .passStep] p ∧
      AnswerRecorded p.ended.stored p.started.taskAttemptId := by
  have h := answerDraft_some (Option.some_get answerDraft_paused).symm
  obtain ⟨pass, call, rest, hPass, hPoint⟩ := h.awaits
  exact ⟨_, h, (System.Steps.answer_recorded (eq_ok_get sampleSubmitted_accepted) rfl h.run hPass
    hPoint h.answers h.later (by decide +kernel)).mpr (by decide +kernel)⟩

theorem answerDraft_overtaken :
    (answerDraft [] [.passStep, .request .pauseWorkflow 0, .passStep]).isSome := by
  decide +kernel

/-- The pause is committed right after the pass has read the instance again:
the pass is refused and ends with an error, and the draft it has the output of
runs on in the store. -/
theorem overtaken_answer_lost :
    ∃ p, AnswersDraft [] [.passStep, .request .pauseWorkflow 0, .passStep] p ∧
      p.ended.pass.inFlight = false ∧ p.ended.stored.status = .paused ∧
      StillRunning p.ended.stored p.started.taskAttemptId := by
  have h := answerDraft_some (Option.some_get answerDraft_overtaken).symm
  refine ⟨_, h, by decide +kernel, by decide +kernel, ?_⟩
  generalize hPass : (answerDraft [] [.passStep, .request .pauseWorkflow 0, .passStep]).get
    answerDraft_overtaken = p
  have hStatus : (p.ended.stored.tasks.lookup p.started.taskAttemptId).map TaskInstance.status =
      some .running := by
    rw [← hPass]
    decide +kernel
  obtain ⟨task, hTask, hRunning⟩ := Option.map_eq_some_iff.mp hStatus
  exact ⟨task, hTask, hRunning⟩

end RelayFold
