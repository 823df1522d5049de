import RelayFold.Lifecycle.PassTermination

/-! Within one pass each attempt is dispatched at most once: an attempt that
was dispatched has left the pending status for good, as far as the pass sees
it. -/
namespace RelayFold

open WorkflowEngine WorkflowStateManager FallibleFold

/-- The attempt that a step dispatches: afterwards the pass waits for its
answer. -/
def System.dispatched (s s' : System) : Option String :=
  match s.pass, s'.pass with
  | .active before, .active after => if after.isAwaiting then before.point.resolving else none
  | _, _ => none

def System.recordDispatch (s : System) (_ : Action) (s' : System) (log : List String) :
    List String :=
  (s.dispatched s').toList ++ log

/-- The steps of one pass, and of everyone else meanwhile. -/
def System.WithinPass (env : EngineEnv) (s : System) (action : Action) (s' : System) : Prop :=
  s.step env action = some s' ∧ ∀ order, action ≠ .startPass order

/-- The snapshot has the attempt, and it is no longer pending. -/
def IsBegun (workflow : WorkflowInstance) (id : String) : Prop :=
  ∃ task, workflow.tasks.lookup id = some task ∧ task.status ≠ .pending

/-- What a pass knows of the attempts it has dispatched. -/
def PassState.HasDispatched (log : List String) : PassState → Prop
  | active pass => (∀ id ∈ log, IsBegun pass.workflow id) ∧
      ∀ id ∈ log, pass.point.resolving ≠ some id
  | loading _ | loadingDef _ _ => log = []
  | _ => True

/-- An attempt that has begun is never pending again within the pass. -/
theorem IsBegun.of_attemptsAfter {before after : WorkflowInstance} {id : String}
    (h : IsBegun before id) (hAfter : AttemptsAfter .pass before after) : IsBegun after id := by
  obtain ⟨a, ha, hBegun⟩ := h
  obtain ⟨b, hb, hMoves⟩ := hAfter.kept id a ha
  refine ⟨b, hb, fun hPending => hBegun ?_⟩
  have hStatus := hMoves.status
  rw [hPending] at hStatus
  generalize a.status = status at hStatus
  cases hStatus with
  | refl => rfl
  | answer hAnswered => cases hAnswered

section Step

variable {env : EngineEnv} {definition : WorkflowDef} {s s' : System} {l : Lifecycle}
  {log : List String}

/-- A pass that goes on after a commit has begun what it had dispatched. -/
theorem PassState.GoesOnWith.hasDispatched {workflow : WorkflowInstance} {state : PassState}
    {next : Option String} (h : state.GoesOnWith workflow next)
    (hBegun : ∀ id ∈ log, IsBegun workflow id) (hNext : ∀ id ∈ log, next ≠ some id) :
    state.HasDispatched log := by
  cases state with
  | active pass =>
      obtain ⟨rfl, _, hResolving⟩ := h
      refine ⟨hBegun, fun id hId hSame => ?_⟩
      rcases hResolving with hNone | hResolving
      · rw [hNone] at hSame
        cases hSame
      · exact hNext id hId (hResolving.symm.trans hSame)
  | finished _ => trivial
  | idle | loading _ | loadingDef _ _ => cases h

/-- Only the point that resolves the function dispatches. -/
theorem dispatched_of_resolving (hPass : ∀ pass, s.pass = .active pass →
    pass.point.resolving = none) : s.dispatched s' = none := by
  unfold System.dispatched
  split
  · rename_i before after hBefore hAfter
    split
    · exact hPass before hBefore
    · rfl
  · rfl

/-- A commit of a pass on the stored snapshot. -/
theorem ActiveInv.commitDispatched {plan : List String} {pass : ActivePass}
    (h : HistoryInv env definition s) (hInv : ActiveInv env.ext definition plan s pass)
    (hPass : s.pass = .active pass) {base : WorkflowInstance}
    {events : List WorkflowInstanceEvent} {next : WorkflowInstance → PassState}
    {resolving : Option String} (hHeld : base ∈ s.snapshots)
    (hStep : pass.step env s.stored = ActivePass.commit s.stored base events next)
    (hSame : base = s.stored → ∀ id, pass.workflow.tasks.lookup id = s.stored.tasks.lookup id)
    (hNext : ∀ workflow, (next workflow).GoesOnWith workflow resolving)
    (hResolving : ∀ id ∈ log, resolving ≠ some id) (hLog : ∀ id ∈ log, IsBegun pass.workflow id) :
    (s.advance (pass.step env s.stored)).pass.HasDispatched log := by
  rcases h.commit_cases hHeld events next with
    ⟨message, hCommit⟩ | ⟨hBase, _, reduced, hReduce, hCommit⟩
  · rw [hStep, hCommit]
    trivial
  · obtain ⟨events', reduced', hReduce', hUpdated, hCommitted⟩ :=
      hInv.commit h hPass (hStep.trans hCommit)
    have hAfter := hCommitted.attemptsAfter hReduce'
    rw [hStep, hCommit]
    refine (hNext _).hasDispatched (fun id hId => ?_) hResolving
    rw [hUpdated]
    obtain ⟨task, hTask, hBegun⟩ := hLog id hId
    rw [hSame hBase] at hTask
    obtain ⟨b, hb, hStatus⟩ := IsBegun.of_attemptsAfter ⟨task, hTask, hBegun⟩ hAfter
    exact ⟨b, hb, hStatus⟩

theorem PassPoint.resolving_eq_some {point : PassPoint} {id : String}
    (h : point.resolving = some id) :
    ∃ started rest, point = .resolveFunction started rest ∧ started.taskAttemptId = id := by
  cases point with
  | resolveFunction started rest => exact ⟨started, rest, rfl, Option.some.inj h⟩
  | _ => cases h

/-- What follows the resolution of a function. -/
theorem dispatch_cases (env : EngineEnv) (pass : ActivePass) (started : StartedTask)
    (rest : List String) :
    (∃ result, pass.dispatch env started rest = .finished result) ∨
    (∃ answer result, pass.dispatch env started rest =
      pass.goOn pass.workflow (.readCurrent started answer result rest)) ∨
    ∃ call, pass.dispatch env started rest =
      pass.goOn pass.workflow (.awaitAnswer started call rest) := by
  unfold ActivePass.dispatch
  split
  · unfold ActivePass.answered
    split
    · exact .inl ⟨_, rfl⟩
    · exact .inr (.inl ⟨_, _, rfl⟩)
  · split
    · exact .inl ⟨_, rfl⟩
    · exact .inr (.inr ⟨_, rfl⟩)

/-- At every point but the resolution of a function the pass keeps its log:
a commit leaves what was dispatched begun, and what it starts next was
pending. -/
theorem ActiveInv.keepsDispatched {plan : List String} {pass : ActivePass}
    (h : HistoryInv env definition s) (hInv : ActiveInv env.ext definition plan s pass)
    (hPass : s.pass = .active pass) (hBegun : ∀ id ∈ log, IsBegun pass.workflow id)
    (hNone : pass.point.resolving = none) :
    (s.advance (pass.step env s.stored)).pass.HasDispatched log := by
  have hPoint := hInv.point
  have hNotNone : ∀ id ∈ log, (none : Option String) ≠ some id := fun _ _ h => by cases h
  have hHeldSame (hBase : pass.workflow = s.stored) (id : String) :
      pass.workflow.tasks.lookup id = s.stored.tasks.lookup id := by rw [hBase]
  unfold PointInv at hPoint
  cases hCase : pass.point with
  | commitRunning =>
      refine hInv.commitDispatched h hPass hInv.held (by rw [ActivePass.step, hCase]) hHeldSame
        (fun workflow => ?_) hNotNone hBegun
      exact initializeTasks_goesOn
  | commitInitialTasks =>
      refine hInv.commitDispatched h hPass hInv.held (by rw [ActivePass.step, hCase]) hHeldSame
        (fun workflow => ?_) hNotNone hBegun
      exact enterLoop_goesOn
  | commitGenerations events =>
      refine hInv.commitDispatched h hPass hInv.held (by rw [ActivePass.step, hCase]) hHeldSame
        (fun workflow => ?_) hNotNone hBegun
      exact startTasks_goesOn enterLoop_goesOn
  | checkPaused id rest =>
      simp only [ActivePass.step, hCase]
      split
      · trivial
      · exact ⟨hBegun, fun id _ hSame => by cases hSame⟩
  | commitStart id rest =>
      simp only [hCase] at hPoint
      obtain ⟨_, _, _, _, task, hTask, hPending⟩ := hPoint
      have hNext (workflow : WorkflowInstance) :
          (pass.prepareDispatch env.ext workflow id rest).GoesOnWith workflow (some id) :=
        prepareDispatch_goesOn
      refine hInv.commitDispatched h hPass hInv.held (by rw [ActivePass.step, hCase]) hHeldSame
        hNext (fun other hOther hSame => ?_) hBegun
      -- what is in the log has begun, so it is not the pending attempt
      cases hSame
      obtain ⟨found, hFound, hNot⟩ := hBegun _ hOther
      rw [hTask] at hFound
      cases hFound
      exact hNot hPending
  | commitInputFailure started error =>
      refine hInv.commitDispatched h hPass hInv.held (by rw [ActivePass.step, hCase]) hHeldSame
        (fun workflow => ?_) hNotNone hBegun
      trivial
  | resolveFunction started rest =>
      rw [hCase] at hNone
      cases hNone
  | awaitAnswer started call rest =>
      simp only [ActivePass.step, hCase]
      exact ⟨hBegun, fun id _ hSame => by cases hSame⟩
  | readCurrent started answer result rest =>
      simp only [ActivePass.step, hCase]
      exact ⟨hBegun, fun id _ hSame => by cases hSame⟩
  | commitResult started answer result base rest =>
      simp only [hCase] at hPoint
      obtain ⟨_, hWorking, _, _, _, hBase⟩ := hPoint
      have hHeld : base ∈ s.snapshots := by
        rcases hBase with rfl | ⟨hBase, _⟩
        · exact hInv.held
        · exact hBase
      refine hInv.commitDispatched h hPass hHeld (by rw [ActivePass.step, hCase])
        (fun _ id => ?_) (fun workflow => ?_) hNotNone hBegun
      · rw [hWorking.same]
        rfl
      · exact afterResult_goesOn
  | commitPauseCompleted | commitCompleted =>
      refine hInv.commitDispatched h hPass hInv.held (by rw [ActivePass.step, hCase]) hHeldSame
        (fun workflow => ?_) hNotNone hBegun
      trivial

/-- The resolution of a function dispatches the attempt that was started last,
which is begun and not yet in the log. -/
theorem ActiveInv.dispatchesFunction {plan : List String} {pass : ActivePass}
    {started : StartedTask} {rest : List String}
    (hInv : ActiveInv env.ext definition plan s pass) (hPass : s.pass = .active pass)
    (hCase : pass.point = .resolveFunction started rest)
    (hLog : (PassState.active pass).HasDispatched log) (hNodup : log.Nodup)
    (hStep : s' = s.advance (pass.step env s.stored)) :
    s'.pass.HasDispatched ((s.dispatched s').toList ++ log) ∧
      ((s.dispatched s').toList ++ log).Nodup := by
  obtain ⟨hBegun, hResolving⟩ := hLog
  have hPoint := hInv.point
  unfold PointInv at hPoint
  simp only [hCase] at hPoint
  obtain ⟨_, _, hStarted, _⟩ := hPoint
  have hFresh : started.taskAttemptId ∉ log := by
    intro hMem
    apply hResolving _ hMem
    rw [hCase]
    rfl
  have hTask := (startedTask_eq hStarted.resolved).2.1
  have hRunning : IsBegun pass.workflow started.taskAttemptId :=
    ⟨_, hTask, by rw [hStarted.running]; decide⟩
  have hDispatch : s' = s.setPass (pass.dispatch env started rest) := by
    rw [hStep, ActivePass.step, hCase]
    rfl
  rw [hDispatch, System.dispatched, hPass]
  rcases dispatch_cases env pass started rest with
    ⟨result, hNext⟩ | ⟨answer, result, hNext⟩ | ⟨call, hNext⟩
  · rw [hNext]
    exact ⟨trivial, hNodup⟩
  · rw [hNext]
    exact ⟨⟨hBegun, fun id _ hSame => by cases hSame⟩, hNodup⟩
  · rw [hNext]
    refine ⟨⟨fun id hId => ?_, fun id _ hSame => by cases hSame⟩, ?_⟩
    · change id ∈ pass.point.resolving.toList ++ log at hId
      rw [hCase] at hId
      rcases List.mem_cons.mp hId with rfl | hId
      · exact hRunning
      · exact hBegun id hId
    · change (pass.point.resolving.toList ++ log).Nodup
      rw [hCase]
      exact List.nodup_cons.mpr ⟨hFresh, hNodup⟩

/-- The next operation of a pass dispatches nothing that was dispatched. -/
theorem ActiveInv.dispatches {plan : List String} {pass : ActivePass}
    (h : HistoryInv env definition s) (hInv : ActiveInv env.ext definition plan s pass)
    (hPass : s.pass = .active pass) (hLog : (PassState.active pass).HasDispatched log)
    (hNodup : log.Nodup) (hStep : s' = s.advance (pass.step env s.stored)) :
    s'.pass.HasDispatched ((s.dispatched s').toList ++ log) ∧
      ((s.dispatched s').toList ++ log).Nodup := by
  cases hResolving : pass.point.resolving with
  | some id =>
      obtain ⟨started, rest, hCase, _⟩ := PassPoint.resolving_eq_some hResolving
      exact hInv.dispatchesFunction hPass hCase hLog hNodup hStep
  | none =>
      have hNothing : s.dispatched s' = none := by
        refine dispatched_of_resolving fun other hOther => ?_
        rw [hPass] at hOther
        cases hOther
        exact hResolving
      rw [hNothing, hStep]
      exact ⟨hInv.keepsDispatched h hPass hLog.1 hResolving, hNodup⟩

theorem System.commit_pass (s : System) (base : WorkflowInstance)
    (events : List WorkflowInstanceEvent) : (s.commit base events).pass = s.pass := by
  unfold System.commit
  split <;> rfl

/-- Other writers leave the pass alone. -/
theorem System.step_request_pass {request : Request} {seen : Nat}
    (hStep : s.step env (.request request seen) = some s') : s'.pass = s.pass := by
  simp only [System.step] at hStep
  obtain ⟨base, _, hStep⟩ := Option.bind_eq_some_iff.mp hStep
  split at hStep
  · cases hStep
    exact s.commit_pass _ _
  · cases hStep
    rfl

/-- So does a recovery. -/
theorem System.step_recover_pass {listed seen current : Nat}
    (hStep : s.step env (.recover listed seen current) = some s') : s'.pass = s.pass := by
  simp only [System.step] at hStep
  obtain ⟨_, _, hStep⟩ := Option.bind_eq_some_iff.mp hStep
  obtain ⟨_, _, hStep⟩ := Option.bind_eq_some_iff.mp hStep
  obtain ⟨_, _, hStep⟩ := Option.bind_eq_some_iff.mp hStep
  split at hStep
  · cases hStep
  · split at hStep
    · cases hStep
      exact s.commit_pass _ _
    · cases hStep
      rfl

/-- Reading the snapshot and the definition has dispatched nothing yet. -/
theorem PassState.loaded_hasDispatched {order : LoopSlices} {workflow : Option WorkflowInstance} :
    (PassState.loaded order workflow).HasDispatched [] := by
  unfold PassState.loaded
  cases workflow with
  | none => trivial
  | some workflow =>
      dsimp only
      split <;> trivial

theorem PassState.loadedDef_hasDispatched {order : LoopSlices} {workflow : WorkflowInstance}
    {found : Option WorkflowDef} :
    (PassState.loadedDef order workflow found).HasDispatched [] := by
  unfold PassState.loadedDef
  cases found with
  | none => trivial
  | some definition => exact ⟨fun _ hId => (by cases hId), fun _ hId => by cases hId⟩

/-- An answer ends the wait of a pass and dispatches nothing. -/
theorem System.step_answer_dispatches {result : Answer}
    (hStep : s.step env (.answer result) = some s') (hLog : s.pass.HasDispatched log)
    (hNodup : log.Nodup) : s'.pass.HasDispatched (s.recordDispatch (.answer result) s' log) ∧
      (s.recordDispatch (.answer result) s' log).Nodup := by
  obtain ⟨state, hAnswer, rfl⟩ := Option.map_eq_some_iff.mp hStep
  cases hPass : s.pass with
  | active pass =>
      rw [hPass] at hAnswer hLog
      simp only [PassState.answer] at hAnswer
      split at hAnswer
      · rename_i started call rest hPoint
        cases hAnswer
        have hNothing : s.dispatched (s.setPass (pass.answered env.ext started rest result)) =
            none := by
          refine dispatched_of_resolving fun other hOther => ?_
          rw [hPass] at hOther
          cases hOther
          rw [hPoint]
          rfl
        rw [System.recordDispatch, hNothing]
        refine ⟨?_, hNodup⟩
        change (pass.answered env.ext started rest result).HasDispatched log
        unfold ActivePass.answered
        split
        · trivial
        · exact ⟨hLog.1, fun id _ hSame => by cases hSame⟩
      · cases hAnswer
  | _ =>
      rw [hPass] at hAnswer
      cases hAnswer

/-- Each step within a pass keeps the log of its dispatches free of
repetitions: what is dispatched next has been pending until just now. -/
theorem Refines.dispatches (h : Refines env definition s l) {action : Action}
    (hStep : System.WithinPass env s action s') (hLog : s.pass.HasDispatched log)
    (hNodup : log.Nodup) : s'.pass.HasDispatched (s.recordDispatch action s' log) ∧
      (s.recordDispatch action s' log).Nodup := by
  obtain ⟨hStep, hNoStart⟩ := hStep
  have hInv := h.pass
  have hQuiet (hSame : s'.pass = s.pass) : s'.pass.HasDispatched (s.recordDispatch action s' log) ∧
      (s.recordDispatch action s' log).Nodup := by
    have hNothing : s.dispatched s' = none := by
      unfold System.dispatched
      rw [hSame]
      split
      · rename_i before after hBefore hAfter
        rw [hBefore] at hAfter
        cases hAfter
        split
        · rename_i hWaits
          obtain ⟨_, _, _, hPoint⟩ := ActivePass.isAwaiting_iff.mp hWaits
          rw [hPoint]
          rfl
        · rfl
      · rfl
    rw [System.recordDispatch, hNothing, hSame]
    exact ⟨hLog, hNodup⟩
  cases action with
  | startPass order => exact absurd rfl (hNoStart order)
  | crash =>
      cases hStep
      refine ⟨trivial, ?_⟩
      rw [System.recordDispatch, System.dispatched]
      split
      · rename_i hAfter
        cases hAfter
      · exact hNodup
  | request request seen => exact hQuiet (System.step_request_pass hStep)
  | recover listed seen current => exact hQuiet (System.step_recover_pass hStep)
  | answer result => exact System.step_answer_dispatches hStep hLog hNodup
  | passStep =>
      rw [System.step_passStep] at hStep
      cases hPass : s.pass with
      | active pass =>
          rw [hPass] at hStep hInv hLog
          exact hInv.dispatches h.history hPass hLog hNodup (Option.some.inj hStep).symm
      | idle | finished _ =>
          apply hQuiet
          rw [hPass] at hStep ⊢
          rw [← Option.some.inj hStep]
          rfl
      | loading order =>
          rw [hPass] at hStep hLog
          have hEmpty : log = [] := hLog
          have hNothing : s.dispatched s' = none :=
            dispatched_of_resolving fun other hOther => by
              rw [hPass] at hOther
              cases hOther
          rw [System.recordDispatch, hNothing, hEmpty, ← Option.some.inj hStep]
          refine ⟨?_, List.nodup_nil⟩
          change (PassState.loaded order (some s.stored)).HasDispatched []
          exact PassState.loaded_hasDispatched
      | loadingDef order workflow =>
          rw [hPass] at hStep hLog
          have hEmpty : log = [] := hLog
          have hNothing : s.dispatched s' = none :=
            dispatched_of_resolving fun other hOther => by
              rw [hPass] at hOther
              cases hOther
          rw [System.recordDispatch, hNothing, hEmpty, ← Option.some.inj hStep]
          refine ⟨?_, List.nodup_nil⟩
          change (PassState.loadedDef order workflow
            (env.definitions workflow.workflowDefId)).HasDispatched []
          exact PassState.loadedDef_hasDispatched

/-- Within one pass no attempt is dispatched twice. -/
theorem Refines.dispatched_once {start : System} {actions : List Action}
    (h : Refines env definition start l) {order : LoopSlices}
    (hStart : start.pass = .loading order)
    (run : Run (Run.Traced (System.WithinPass env) System.recordDispatch) (start, []) actions
      (s, log)) : log.Nodup := by
  have hInv := run.invariant (P := fun p => (∃ l, Refines env definition p.1 l) ∧
    p.1.pass.HasDispatched p.2 ∧ p.2.Nodup) ⟨⟨l, h⟩, by rw [hStart]; rfl, List.nodup_nil⟩ ?_
  · exact hInv.2.2
  · rintro ⟨s, log⟩ action ⟨s', log'⟩ ⟨⟨l, hRefines⟩, hLog, hNodup⟩ ⟨hStep, hRecord⟩
    dsimp only at hStep hRecord hLog hNodup ⊢
    obtain ⟨⟨l', _, _, _, hRefines'⟩, _⟩ := hRefines.step hStep.1
    rw [hRecord]
    exact ⟨⟨l', hRefines'⟩, hRefines.dispatches hStep hLog hNodup⟩

end Step

end RelayFold
