import RelayFold.Lifecycle.Failures

/-! The worker host an instance is pinned to: chosen at its creation and by
force retries, and the one that every dispatch asks for. -/
namespace RelayFold

open WorkflowEngine WorkflowStateManager WorkflowService FallibleFold

theorem foldl_pinEffect_of_pass {events : List WorkflowInstanceEvent}
    (h : ∀ event ∈ events, event.isPassEvent = true) (pin : Option WorkerHostId) :
    events.foldl (fun current event => event.pinEffect current) pin = pin := by
  refine List.foldlRecOn events (motive := (· = pin)) _ rfl ?_
  intro current hCurrent event hMem
  have hPass := h event hMem
  cases event <;> first | exact hCurrent | cases hPass

theorem ResultEvents.pin {workflow reduced : WorkflowInstance} {id : String}
    {final : WorkflowStatus} {events : List WorkflowInstanceEvent}
    (h : ResultEvents workflow id final events)
    (hReduce : reduceWorkflowInstanceEvents (some workflow) events = .ok reduced) :
    reduced.pinnedWorkerHost = workflow.pinnedWorkerHost := by
  rw [(reduceWorkflowInstanceEvents_effected hReduce).pin]
  exact foldl_pinEffect_of_pass (fun event hEvent => (h.all event hEvent).isPassEvent) _

/-- Only retries change the pin. -/
theorem Write.pin {ext : Externals} {definition : WorkflowDef} {l : Lifecycle}
    {writer : Writer} {events : List WorkflowInstanceEvent} {plan : List String}
    {reduced : WorkflowInstance} (hWrite : Write ext definition l writer events plan)
    (hReduce : reduceWorkflowInstanceEvents (some l.stored) events = .ok reduced)
    (hWriter : writer ≠ .retry) : reduced.pinnedWorkerHost = l.stored.pinnedWorkerHost := by
  have hEffect := (reduceWorkflowInstanceEvents_effected hReduce).pin
  cases hWrite with
  | begin _ | complete _ _ | pause _ | resume _ | hostLost _ | start _ _ _ _
  | humanInput _ _ _ _ _ | recover _ => exact hEffect
  | initialTasks _ _ =>
      rw [hEffect]
      exact foldl_pinEffect_of_pass (by simp [initialTaskEvents,
        WorkflowInstanceEvent.isPassEvent, WorkflowInstanceEvent.isWork]) _
  | @initialGenerations loopSlices _ _ _ =>
      have hEvents : DecisionEvents "" _ := materializeEligible_decision l.stored definition
        loopSlices loopSlices [] []
      exact hEvents.result.pin hReduce
  | inputFailure _ _ _ _ _ => exact (failureEvents_result _).pin hReduce
  | result _ _ _ _ hResult => exact hResult.result.pin hReduce
  | retry => exact absurd rfl hWriter
  | forceRetry => exact absurd rfl hWriter

/-- The pin that creation or the last accepted force retry chose. -/
def chosenPin (s : System) (action : Action) (s' : System) (pin : Option WorkerHostId) :
    Option WorkerHostId :=
  match action with
  | .request (.forceRetryTask _ target) _ =>
      if s'.stored.version = s.stored.version then pin else some target
  | _ => pin

section System

variable {env : EngineEnv} {definition : WorkflowDef} {s s' : System} {l : Lifecycle}

theorem Refines.pin (h : Refines env definition s l) {action : Action}
    (hStep : s.step env action = some s') :
    s'.stored.pinnedWorkerHost = chosenPin s action s' s.stored.pinnedWorkerHost := by
  have hOther (hWriter : action.writer ≠ .retry) :
      s'.stored.pinnedWorkerHost = s.stored.pinnedWorkerHost := by
    cases (h.step hStep).extended with
    | same hStored _ => rw [hStored]
    | written hWrite hReduce hStored _ =>
        have hPin := hWrite.pin hReduce hWriter
        rw [hStored]
        exact hPin
  cases action with
  | request request seen =>
      cases request with
      | retryTask taskId =>
          rcases h.retried rfl hStep with rfl | hRetried
          · rfl
          · cases hRetried with
            | retry _ _ hAfter => rw [hAfter]; rfl
      | forceRetryTask taskId target =>
          rcases h.retried rfl hStep with rfl | hRetried
          · exact (if_pos rfl).symm
          · cases hRetried with
            | forceRetry _ _ hAfter =>
                rw [chosenPin, if_neg (by rw [hAfter]; exact Nat.succ_ne_self _), hAfter]
      | _ => exact hOther nofun
  | _ => exact hOther nofun

/-- A dispatch asks for the host its instance is pinned to. -/
theorem Refines.dispatchPin (h : Refines env definition s l) {pass : ActivePass}
    {started : StartedTask} {call : DispatchCall} {rest : List String}
    (hPass : s.pass = .active pass) (hAwait : pass.point = .awaitAnswer started call rest) :
    call.constraints.pinnedHostId = s.stored.pinnedWorkerHost := by
  have hInv := h.pass
  rw [hPass] at hInv
  have hPoint := hInv.point
  unfold PointInv at hPoint
  simp only [hAwait] at hPoint
  obtain ⟨_, hWorking, _, _, _, _, _, rfl⟩ := hPoint
  rw [hWorking.same]
  rfl

end System

/-- What holds of failures and pins in a reachable state. -/
structure FailureBookkeeping (env : EngineEnv) (s : System) (pin : Option WorkerHostId) : Prop where
  failedOnce : FailedOnce s.stored
  pinned : s.stored.pinnedWorkerHost = pin
  dispatched : ∀ pass started call rest, s.pass = .active pass →
    pass.point = .awaitAnswer started call rest → call.constraints.pinnedHostId = pin
  retried : ∀ request seen s', request.isRetry = true →
    s.step env (.request request seen) = some s' → s' = s ∨ Retried s.stored s'.stored request

variable {env : EngineEnv} {definition : WorkflowDef} {id workflowDefId : String}
  {pinnedWorkerHost : WorkerHostId} {input : Option Json} {actions : List Action} {s : System}

/-- In every reachable state at most one attempt is failed, and only in a
failed workflow; a retry is refused or resets its attempt alone; and the pin is
the one that creation or the last force retry chose. -/
theorem System.Steps.failure_bookkeeping {pin : Option WorkerHostId}
    (hDefinition : env.definitions workflowDefId = some definition)
    (run : Run (Run.Traced (fun s action s' => System.step env s action = some s') chosenPin)
      (System.created id workflowDefId pinnedWorkerHost input, some pinnedWorkerHost) actions
      (s, pin)) :
    FailureBookkeeping env s pin := by
  have hInv := run.invariant (P := fun p : System × Option WorkerHostId =>
      (∃ l, Refines env definition p.1 l) ∧ p.1.stored.pinnedWorkerHost = p.2)
    ⟨⟨Lifecycle.created id workflowDefId pinnedWorkerHost input, rfl,
      .created _ _ _ _ hDefinition, .created .., trivial⟩, rfl⟩ (by
    rintro p action p' ⟨⟨l, hRefines⟩, hPinned⟩ ⟨hStep, hPin⟩
    obtain ⟨l', _, _, _, hRefines'⟩ := (hRefines.step hStep).lifecycle
    refine ⟨⟨l', hRefines'⟩, ?_⟩
    rw [hPin, ← hPinned]
    exact hRefines.pin hStep)
  obtain ⟨⟨l, hRefines⟩, hPinned⟩ := hInv
  refine ⟨hRefines.sound.failedOnce, hPinned, ?_, fun _ _ _ => hRefines.retried⟩
  intro pass started call rest hPass hAwait
  rw [hRefines.dispatchPin hPass hAwait]
  exact hPinned

/-- The failed draft moves to another host and is dispatched there. -/
def draftMoved : List Action :=
  draftFailed ++ [.request (.forceRetryTask "draft" ⟨"spare"⟩) 0] ++
    (.startPass [] :: List.replicate 6 .passStep)

def tracedPin (p : System × Option WorkerHostId) (action : Action) :
    Option (System × Option WorkerHostId) :=
  (System.step sampleEnv p.1 action).map fun s' => (s', chosenPin p.1 action s' p.2)

theorem draftMoved_runs :
    (draftMoved.foldlM tracedPin (sampleStart, some ⟨"host"⟩)).isSome := by
  decide +kernel

theorem System.Steps.failure_bookkeeping_moved :
    let p := (draftMoved.foldlM tracedPin (sampleStart, some ⟨"host"⟩)).get draftMoved_runs
    FailureBookkeeping sampleEnv p.1 p.2 :=
  System.Steps.failure_bookkeeping rfl (Run.of_traced (Option.some_get draftMoved_runs).symm)

example : (draftMoved.foldlM tracedPin (sampleStart, some ⟨"host"⟩)).map (·.2) =
    some (some ⟨"spare"⟩) := by
  decide +kernel

end RelayFold
