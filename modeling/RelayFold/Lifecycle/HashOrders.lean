import RelayFold.Core.Renormalization
import RelayFold.Lifecycle.CanonicalOrder
import RelayFold.Lifecycle.Confluence

/-! Scheduling does not depend on hash orders: a pass over hash maps that are
gone through in any orders dispatches the same attempts with the same inputs
and leaves the same snapshot. -/
namespace RelayFold

open WorkflowEngine FallibleFold

namespace System

/-- A step in which the pass goes through its maps in the given order. -/
def stepIn (order : HashOrder) (env : EngineEnv) (s : System) : Action → Option System
  | .passStep => some (s.advance (order.step env s.stored s.pass))
  | .answer result => (order.answer env result s.pass).map s.setPass
  | action => s.step env action

/-- Runs in which each step has an order of its own. -/
abbrev HashSteps (env : EngineEnv) : System → List (HashOrder × Action) → System → Prop :=
  Run fun s move s' => s.stepIn move.1 env move.2 = some s'

/-- The attempt that a pass has dispatched, and what it was dispatched with. -/
def asked (s : System) : Option (String × DispatchCall) :=
  match s.pass with
  | .active pass =>
      match pass.point with
      | .awaitAnswer started call _ => some (started.taskAttemptId, call)
      | _ => none
  | _ => none

/-- What takes a pass further whose dispatches are answered by a function. -/
def nextIn (answers : String → DispatchCall → Answer) (s : System) : Action :=
  match s.asked with
  | some (taskAttemptId, call) => .answer (answers taskAttemptId call)
  | none => .passStep

def moveIn (env : EngineEnv) (answers : String → DispatchCall → Answer) (s : System)
    (order : HashOrder) : System :=
  (s.stepIn order env (s.nextIn answers)).getD s

/-- What a pass that is left alone has dispatched, in turn, after one move for
each of the orders. -/
def calls (env : EngineEnv) (answers : String → DispatchCall → Answer) (s : System) :
    List HashOrder → List (String × DispatchCall)
  | [] => []
  | order :: rest => s.asked.toList ++ (s.moveIn env answers order).calls env answers rest

/-- The system in which the slices that a pass is about to compute are in the
order in which it will find them. -/
def ordered (order : HashOrder) (env : EngineEnv) (s : System) : System :=
  match s.pass with
  | .loadingDef _ workflow => s.setPass <| .loadingDef
      ((env.definitions workflow.workflowDefId).elim [] order.computeLoopSlices) workflow
  | _ => s

end System

variable {env : EngineEnv} {definition : WorkflowDef} {s s' t : System} {order other : HashOrder}

section Ordered

/-- A pass that computes its slices in some order is the pass over canonical
maps that was started with this order of them. -/
theorem HashOrder.loadedDef_eq (order : HashOrder) (workflow : WorkflowInstance)
    (found : Option WorkflowDef) : order.loadedDef workflow found =
      PassState.loadedDef (found.elim [] order.computeLoopSlices) workflow found := by
  cases found with
  | none => rfl
  | some definition =>
      have hOrder : iterationOrder (order.computeLoopSlices definition) definition =
          order.computeLoopSlices definition := if_pos (order.computeLoopSlices_perm definition)
      simp only [HashOrder.loadedDef, PassState.loadedDef, Option.elim_some, hOrder]

/-- The order of the slices is no part of what is known of a pass. -/
theorem Tracked.ordered (h : Tracked env definition s) (order : HashOrder) :
    Tracked env definition (s.ordered order env) := by
  obtain ⟨l, hRefines, hStarts⟩ := h
  unfold System.ordered
  split
  · rename_i slices workflow hPass
    have hInv := hRefines.pass
    rw [hPass] at hInv
    exact ⟨l, ⟨hRefines.stored, ⟨hRefines.history.older, hRefines.history.defId⟩, hRefines.sound,
      hInv⟩, hStarts⟩
  · exact ⟨l, hRefines, hStarts⟩

/-- Two systems that differ in the order of the slices alone still do so once
each of them has chosen its order. -/
theorem System.SameButOrder.ordered (h : s.SameButOrder definition t) (order other : HashOrder) :
    (s.ordered order env).SameButOrder definition (t.ordered other env) := by
  obtain ⟨hStored, hPast, hPass⟩ := h
  unfold System.ordered
  generalize hHere : s.pass = state at hPass
  generalize hThere : t.pass = state' at hPass
  cases hPass with
  | loadingDef => exact ⟨hStored, hPast, .loadingDef ..⟩
  | loading slices others => exact ⟨hStored, hPast, by rw [hHere, hThere]; exact .loading ..⟩
  | active hTwins hWorkflow hPoint =>
      exact ⟨hStored, hPast, by rw [hHere, hThere]; exact .active hTwins hWorkflow hPoint⟩
  | idle => exact ⟨hStored, hPast, by rw [hHere, hThere]; exact .idle⟩
  | finished result => exact ⟨hStored, hPast, by rw [hHere, hThere]; exact .finished _⟩

end Ordered

/-- A step over hash maps is the step over canonical maps, once the slices of
the pass are in its order. -/
theorem System.stepIn_passStep (order : HashOrder) (hDef : WellFormedDef definition)
    (hLoaded : ∀ pass, s.pass = .active pass → pass.definition = definition)
    (hKeyed : ∀ s', (s.ordered order env).step env .passStep = some s' → Keyed s'.stored) :
    s.stepIn order env .passStep = (s.ordered order env).step env .passStep := by
  rw [System.step_passStep] at hKeyed ⊢
  unfold System.stepIn
  unfold System.ordered at hKeyed ⊢
  cases hPass : s.pass with
  | loadingDef slices workflow =>
      exact congrArg (fun state => some (s.setPass state)) (order.loadedDef_eq workflow _)
  | active pass =>
      rw [hPass] at hKeyed
      dsimp only at hKeyed ⊢
      rw [hPass] at hKeyed ⊢
      refine congrArg (fun next => some (s.advance next))
        (HashOrder.stepActive_eq (hLoaded pass hPass ▸ hDef) fun updated hSaved => ?_)
      have hStored : (s.advance (pass.step env s.stored)).stored = updated := by
        unfold System.advance
        split
        · rename_i hNone
          rw [hNone] at hSaved
          cases hSaved
        · rename_i hSome
          rw [hSome] at hSaved
          exact Option.some.inj hSaved
      exact hStored ▸ hKeyed _ rfl
  | idle | loading _ | finished _ =>
      dsimp only
      rw [hPass]
      rfl

/-- The actions of the others go through no map of the pass, and the answer to
a dispatch is recorded alike in every order. -/
theorem System.stepIn_other {action : Action} (hOther : action ≠ .passStep) :
    s.stepIn order env action = s.step env action := by
  cases action with
  | passStep => exact absurd rfl hOther
  | answer result =>
      have hAnswer (state : PassState) :
          order.answer env result state = state.answer env result := by
        cases state with
        | active pass =>
            simp only [HashOrder.answer, PassState.answer]
            cases pass.point <;> simp only [HashOrder.answered_eq]
        | _ => rfl
      exact congrArg (Option.map s.setPass) (hAnswer s.pass)
  | _ => rfl

section TwoRuns

variable {answers : String → DispatchCall → Answer}

/-- In every state of a run the attempts are stored under the ids that their
tasks and generations make. -/
theorem Tracked.keyed (h : Tracked env definition s) : Keyed s.stored := by
  obtain ⟨l, hRefines, _⟩ := h
  exact hRefines.sound.key

/-- The definition that a pass has loaded is the accepted one. -/
theorem Tracked.loaded (h : Tracked env definition s) (pass : ActivePass)
    (hPass : s.pass = .active pass) : pass.definition = definition := by
  obtain ⟨l, hRefines, _⟩ := h
  have hInv := hRefines.pass
  rw [hPass] at hInv
  exact hInv.loaded

theorem System.SameButOrder.loaded (h : s.SameButOrder definition t) (pass : ActivePass)
    (hPass : t.pass = .active pass) : pass.definition = definition := by
  have hSame := h.pass
  rw [hPass] at hSame
  generalize s.pass = state at hSame
  cases hSame with
  | active hTwins _ _ => exact hTwins.same

/-- Every step of one run is matched by the other, whatever the orders of both
are. -/
theorem System.SameButOrder.stepIn (other : HashOrder) (hDef : WellFormedDef definition)
    (hTracked : Tracked env definition s) (h : s.SameButOrder definition t) {action same : Action}
    (hAction : action.SameButOrder same) (hStep : s.stepIn order env action = some s') :
    Tracked env definition s' ∧
      ∃ t', t.stepIn other env same = some t' ∧ s'.SameButOrder definition t' := by
  by_cases hPass : action = .passStep
  · subst hPass
    cases hAction
    have hOrdered := hTracked.ordered order
    have hHere := System.stepIn_passStep order hDef hTracked.loaded
      fun s' hNext => (hOrdered.step hDef hNext).keyed
    rw [hHere] at hStep
    have hNext := hOrdered.step hDef hStep
    have ⟨l, hRefines, _⟩ := hOrdered
    obtain ⟨t', hOther, hSame⟩ :=
      (h.ordered order other).step hDef hRefines (.refl .passStep) hStep
    refine ⟨hNext, t', ?_, hSame⟩
    rw [System.stepIn_passStep other hDef h.loaded fun t'' hThere => ?_]
    · exact hOther
    · rw [hOther] at hThere
      rw [← Option.some.inj hThere, hSame.stored]
      exact hNext.keyed
  · have hSamePass : same ≠ .passStep := by
      cases hAction with
      | startPass => exact Action.noConfusion
      | refl => exact hPass
    rw [System.stepIn_other hPass] at hStep
    rw [System.stepIn_other hSamePass]
    have ⟨l, hRefines, _⟩ := hTracked
    exact ⟨hTracked.step hDef hStep, h.step hDef hRefines hAction hStep⟩

/-- A run over hash maps is followed by every other one, step by step. -/
theorem System.HashSteps.sameButOrder {start : System} (hDef : WellFormedDef definition)
    {moves others : List (HashOrder × Action)} (run : System.HashSteps env start moves s)
    (hTracked : Tracked env definition start) (h : start.SameButOrder definition t)
    (hMoves : List.Forall₂ (fun move other => move.2.SameButOrder other.2) moves others) :
    Tracked env definition s ∧ ∃ t', System.HashSteps env t others t' ∧
      s.SameButOrder definition t' := by
  obtain ⟨t', steps, hTracked', hSame⟩ := run.lockstep
    (R := fun s t => Tracked env definition s ∧ s.SameButOrder definition t)
    (fun s move s' t other hRelated hMove hStep => by
      obtain ⟨hTracked', t', hOther, hSame⟩ := hRelated.2.stepIn other.1 hDef
        hRelated.1 hMove hStep
      exact ⟨t', hOther, hTracked', hSame⟩) hMoves ⟨hTracked, h⟩
  exact ⟨hTracked', t', steps, hSame⟩

/-- Passes that differ in the order of their slices wait for the answer to the
same call. -/
theorem System.SameButOrder.asked (h : s.SameButOrder definition t) : t.asked = s.asked := by
  have hPass := h.pass
  unfold System.asked
  generalize s.pass = state at hPass
  generalize t.pass = state' at hPass
  cases hPass with
  | @active pass other _ _ hPoint =>
      dsimp only
      generalize pass.point = point at hPoint
      generalize other.point = point' at hPoint
      cases hPoint <;> rfl
  | _ => rfl

/-- A call is waited for by a pass that is at the dispatch of an attempt. -/
theorem System.asked_some {taskAttemptId : String} {call : DispatchCall}
    (h : s.asked = some (taskAttemptId, call)) : ∃ pass started rest, s.pass = .active pass ∧
      pass.point = .awaitAnswer started call rest := by
  unfold System.asked at h
  split at h
  · rename_i pass hPass
    split at h
    · rename_i started call' rest hPoint
      obtain ⟨_, rfl⟩ := Prod.mk.inj (Option.some.inj h)
      exact ⟨pass, started, rest, hPass, hPoint⟩
    · cases h
  · cases h

/-- A pass that is left alone can always be taken further. -/
theorem System.moveIn_step (env : EngineEnv) (answers : String → DispatchCall → Answer)
    (s : System) (order : HashOrder) :
    s.stepIn order env (s.nextIn answers) = some (s.moveIn env answers order) := by
  have hSome : (s.stepIn order env (s.nextIn answers)).isSome = true := by
    unfold System.nextIn
    cases hAsked : s.asked with
    | none => rfl
    | some asked =>
        obtain ⟨pass, started, rest, hPass, hPoint⟩ := System.asked_some hAsked
        simp only [System.stepIn, hPass, HashOrder.answer, hPoint]
        rfl
  obtain ⟨s', hStep⟩ := Option.isSome_iff_exists.mp hSome
  rw [System.moveIn, hStep]
  rfl

/-- Two passes that are left alone dispatch the same, in whatever orders each
of them goes through its maps. -/
theorem System.SameButOrder.alone (answers : String → DispatchCall → Answer)
    (hDef : WellFormedDef definition)
    (hTracked : Tracked env definition s) (h : s.SameButOrder definition t)
    {orders others : List HashOrder} (hLength : orders.length = others.length) :
    t.calls env answers others = s.calls env answers orders ∧
      Tracked env definition (orders.foldl (System.moveIn env answers) s) ∧
      (orders.foldl (System.moveIn env answers) s).SameButOrder definition
        (others.foldl (System.moveIn env answers) t) := by
  induction orders generalizing s t others with
  | nil =>
      obtain rfl := List.eq_nil_of_length_eq_zero hLength.symm
      exact ⟨rfl, hTracked, h⟩
  | cons order orders ih =>
      obtain ⟨other, others, rfl⟩ := List.exists_cons_of_length_eq_add_one hLength.symm
      have hNext : t.nextIn answers = s.nextIn answers := by
        simp only [System.nextIn, h.asked]
      obtain ⟨hTracked', t', hOther, hSame⟩ := h.stepIn other hDef hTracked
        (.refl _) (System.moveIn_step env answers s order)
      rw [← hNext, System.moveIn_step] at hOther
      obtain rfl := Option.some.inj hOther
      obtain ⟨hRest, hEnds⟩ := ih hTracked' hSame (Nat.succ.inj hLength)
      exact ⟨congrArg₂ List.append (congrArg Option.toList h.asked) hRest, hEnds⟩

/-- A pass that has ended makes no move, and waits for no answer. -/
theorem System.moveIn_ended (env : EngineEnv) (answers : String → DispatchCall → Answer)
    (order : HashOrder) (hEnded : s.pass.inFlight = false) :
    s.asked = none ∧ s.moveIn env answers order = s := by
  unfold System.moveIn System.nextIn System.asked
  cases hPass : s.pass with
  | idle | finished _ =>
      refine ⟨rfl, ?_⟩
      simp only [System.stepIn, hPass, HashOrder.step, PassState.step, System.advance,
        Option.getD_some, System.setPass]
      rw [← hPass]
  | loading _ | loadingDef _ _ | active _ =>
      rw [hPass] at hEnded
      cases hEnded

/-- However many moves follow its end, a pass dispatches nothing more and stays
as it is. -/
theorem System.alone_ended (hEnded : s.pass.inFlight = false) (orders : List HashOrder) :
    s.calls env answers orders = [] ∧ orders.foldl (System.moveIn env answers) s = s := by
  induction orders with
  | nil => exact ⟨rfl, rfl⟩
  | cons order orders ih =>
      obtain ⟨hAsked, hMove⟩ := System.moveIn_ended env answers order hEnded
      rw [System.calls, List.foldl_cons, hAsked, hMove]
      exact ih

/-- More moves after its end add nothing to what a pass has dispatched. -/
theorem System.alone_append {orders : List HashOrder}
    (hEnded : (orders.foldl (System.moveIn env answers) s).pass.inFlight = false)
    (rest : List HashOrder) :
    s.calls env answers (orders ++ rest) = s.calls env answers orders ∧
      (orders ++ rest).foldl (System.moveIn env answers) s =
        orders.foldl (System.moveIn env answers) s := by
  induction orders generalizing s with
  | nil => exact System.alone_ended hEnded rest
  | cons order orders ih =>
      obtain ⟨hDispatched, hLast⟩ := ih hEnded
      exact ⟨congrArg (s.asked.toList ++ ·) hDispatched, hLast⟩

/-- A pass that waits for no answer is taken further by its own next operation,
whatever the order of its slices. -/
theorem System.nextMove_unasked (hAsked : s.asked = none) (result : Answer) :
    (s.ordered order env).nextMove result = .passStep := by
  unfold System.asked at hAsked
  unfold System.ordered
  cases hPass : s.pass with
  | active pass =>
      rw [hPass] at hAsked
      have hWaits : pass.isAwaiting = false := by
        rw [← Bool.not_eq_true, ActivePass.isAwaiting_iff]
        rintro ⟨started, call, rest, hPoint⟩
        simp only [hPoint] at hAsked
        cases hAsked
      simp only [System.nextMove, hPass, hWaits, Bool.false_eq_true, if_false]
  | idle | loading _ | finished _ => simp only [System.nextMove, hPass]
  | loadingDef _ _ => rfl

/-- A move over hash maps is the move over canonical maps, with the same
answer, once the slices of the pass are in its order. -/
theorem Tracked.moveIn (hDef : WellFormedDef definition) (h : Tracked env definition s)
    (answers : String → DispatchCall → Answer) (order : HashOrder) :
    ∃ result, s.moveIn env answers order = (s.ordered order env).move env result := by
  have hMove := System.moveIn_step env answers s order
  unfold System.nextIn at hMove
  cases hAsked : s.asked with
  | none =>
      rw [hAsked] at hMove
      dsimp only at hMove
      rw [System.stepIn_passStep order hDef h.loaded fun s' hNext =>
        ((h.ordered order).step hDef hNext).keyed] at hMove
      refine ⟨.error "", Option.some.inj (hMove.symm.trans ?_)⟩
      rw [← System.move_step, System.nextMove_unasked hAsked]
  | some asked =>
      obtain ⟨pass, started, rest, hPass, hPoint⟩ := System.asked_some hAsked
      rw [hAsked] at hMove
      dsimp only at hMove
      rw [System.stepIn_other Action.noConfusion] at hMove
      have hOrdered : s.ordered order env = s := by
        simp only [System.ordered, hPass]
      have hWaits : pass.isAwaiting = true :=
        ActivePass.isAwaiting_iff.mpr ⟨started, asked.2, rest, hPoint⟩
      refine ⟨answers asked.1 asked.2, Option.some.inj (hMove.symm.trans ?_)⟩
      rw [← System.move_step, hOrdered, System.nextMove, hPass]
      simp only [hWaits, if_true]

theorem System.ordered_pass (env : EngineEnv) (definition : WorkflowDef) (ids : List String)
    (s : System) (order : HashOrder) (stored : WorkflowInstance) :
    (s.ordered order env).stored = s.stored ∧
      (s.ordered order env).pass.inFlight = s.pass.inFlight ∧
      (s.ordered order env).pass.rank ids definition stored = s.pass.rank ids definition stored := by
  unfold System.ordered
  split
  · rename_i slices workflow hPass
    rw [hPass]
    exact ⟨rfl, rfl, rfl⟩
  · exact ⟨rfl, rfl, rfl⟩

/-- A pass that is left alone ends: each of its moves lowers its rank, which
the orders do not enter. -/
theorem Tracked.endsAlone (hDef : WellFormedDef definition) (h : Tracked env definition s)
    (answers : String → DispatchCall → Answer) : ∃ bound, ∀ orders : List HashOrder,
      bound < orders.length → (orders.foldl (System.moveIn env answers) s).pass.inFlight = false := by
  refine ⟨s.pass.rank (coveringIds definition s.stored) definition s.stored, fun orders hLong => ?_⟩
  refine @Run.foldl_ends _ _ s (System.moveIn env answers) (fun s' => s'.pass.inFlight)
    (fun s' => Tracked env definition s' ∧
      Covers (coveringIds definition s.stored) definition s'.stored)
    (fun s' => s'.pass.rank (coveringIds definition s.stored) definition s'.stored)
    (fun s' order hState hFlight => ?_) (fun s' order hRests => ?_) orders
    ⟨h, coveringIds_covers ..⟩ hLong
  · obtain ⟨hTracked, hCovers⟩ := hState
    obtain ⟨hStored, hSameFlight, hRank⟩ := System.ordered_pass env definition
      (coveringIds definition s.stored) s' order s'.stored
    obtain ⟨result, hMove⟩ := hTracked.moveIn hDef answers order
    have hOrdered := hTracked.ordered order
    have hKept := hOrdered.step hDef (System.move_step env _ result)
    have ⟨l, hRefines, _⟩ := hOrdered
    rw [← hStored] at hCovers hRank
    obtain ⟨hCovered, hLower⟩ := hRefines.move_lt hDef hCovers (hSameFlight.trans hFlight) result
    rw [hMove]
    refine ⟨⟨hKept, hCovered⟩, ?_⟩
    rwa [hRank, hStored] at hLower
  · rw [(System.moveIn_ended env answers order hRests).2]
    exact hRests

end TwoRuns

/-- What two passes have stored that have ended alike is the same, and so are
their results. -/
theorem System.SameButOrder.eq_of_ended (h : s.SameButOrder definition t)
    (hEnded : s.pass.inFlight = false) : t = s := by
  obtain ⟨hStored, hPast, hPass⟩ := h
  obtain ⟨stored, past, pass⟩ := s
  obtain ⟨stored', past', pass'⟩ := t
  cases hPass with
  | idle | finished _ => exact congrArg₂ (fun a b => System.mk a b _) hStored hPast
  | loading _ _ | loadingDef _ _ _ | active _ _ _ => cases hEnded

/-- Scheduling does not depend on hash orders. A definition that is accepted
passes the overlap check in every order, and every run is matched by a run in
any other orders. A pass that starts from a state of it ends, whatever function
answers its dispatches, with the same dispatches one after another and the same
stored snapshots, for all orders in which it goes through its hash maps. -/
theorem System.HashSteps.order_invisible {submitted : WorkflowDef} {id workflowDefId : String}
    {pinnedWorkerHost : WorkerHostId} {input : Option Json} {moves : List (HashOrder × Action)}
    (hAccepted : validateAndNormalizeWorkflowDef submitted = .ok definition)
    (hDefinition : env.definitions workflowDefId = some definition)
    (run : System.HashSteps env (System.created id workflowDefId pinnedWorkerHost input) moves s) :
    (∀ order : HashOrder, order.validateNonOverlappingVerifierSlices definition = .ok ()) ∧
    (∀ others, List.Forall₂ (fun move other => move.2.SameButOrder other.2) moves others →
      ∃ t, System.HashSteps env (System.created id workflowDefId pinnedWorkerHost input) others t ∧
        s.SameButOrder definition t) ∧
    ∀ slices begun, s.step env (.startPass slices) = some begun →
      ∀ answers : String → DispatchCall → Answer,
        ∃ bound calls, ∃ last : System, last.pass.inFlight = false ∧
          ∀ orders : List HashOrder, bound < orders.length →
            begun.calls env answers orders = calls ∧
              orders.foldl (System.moveIn env answers) begun = last := by
  have hDef := validateAndNormalizeWorkflowDef_ok hAccepted
  have hCreated : Tracked env definition (System.created id workflowDefId pinnedWorkerHost input) :=
    .created pinnedWorkerHost input hDefinition
  have hSelf : List.Forall₂ (fun move other : HashOrder × Action =>
      move.2.SameButOrder other.2) moves moves := List.forall₂_same.mpr fun _ _ => .refl _
  have hTracked := (run.sameButOrder hDef hCreated ⟨rfl, rfl, .idle⟩ hSelf).1
  refine ⟨fun order => (order.validateNonOverlappingVerifierSlices_iff definition).mpr
      (validateAndNormalizeWorkflowDef_checks hAccepted).2.2,
    fun others hMoves => (run.sameButOrder hDef hCreated ⟨rfl, rfl, .idle⟩ hMoves).2,
    fun slices begun hStart answers => ?_⟩
  have hBegun := hTracked.step hDef hStart
  have hPass : begun = s.setPass (.loading slices) := by
    simp only [System.step] at hStart
    split at hStart
    · cases hStart
    · exact (Option.some.inj hStart).symm
  have hSame : begun.SameButOrder definition begun := by
    rw [hPass]
    exact ⟨rfl, rfl, .loading slices slices⟩
  obtain ⟨bound, hEnds⟩ := hBegun.endsAlone hDef answers
  -- The pass in the canonical orders says what it does in any other ones.
  obtain ⟨canonical, hCanonical⟩ : ∃ orders : List HashOrder, orders.length = bound + 1 :=
    ⟨List.replicate (bound + 1) .sorted, List.length_replicate⟩
  have hLast := hEnds canonical (by omega)
  refine ⟨bound, begun.calls env answers canonical, _, hLast, fun orders hLong => ?_⟩
  have hTaken : canonical.length = (orders.take (bound + 1)).length := by
    rw [hCanonical, List.length_take]
    omega
  obtain ⟨hCalls, _, hAlike⟩ := hSame.alone answers hDef hBegun hTaken
  have hEq := hAlike.eq_of_ended hLast
  obtain ⟨hDispatched, hStays⟩ := System.alone_append (hEq ▸ hLast) (orders.drop (bound + 1))
  rw [List.take_append_drop] at hDispatched hStays
  exact ⟨hDispatched.trans hCalls, hStays.trans hEq⟩

/-! The chain, whose first pass crashes. The next pass finds everything in the
reversed order, and the first review sends the draft back. -/

def chainDispatcher (_ : String) (call : DispatchCall) : Answer :=
  .ok (.success (chainAnswers call.taskDef.id call.metadata.generationIndex call.inputs
    call.metadata.loopContext))

def draftCrashed : List (HashOrder × Action) :=
  (([.startPass []] ++ passSteps 8 ++ [.crash, .recover 0 0 0] : List Action)).map (Prod.mk .reversed)

def chainRestarted : Option (System × System) :=
  (draftCrashed.foldlM (fun (s : System) move => s.stepIn move.1 chainEnv move.2) chainStart).bind
    fun s => (s.step chainEnv (.startPass [])).map (Prod.mk s)

theorem chainRestarted_isSome : chainRestarted.isSome := by
  decide +kernel

def reversedChain : List HashOrder := List.replicate 60 .reversed

theorem reversedChain_ends :
    let begun := (chainRestarted.get chainRestarted_isSome).2
    let last := reversedChain.foldl (System.moveIn chainEnv chainDispatcher) begun
    (begun.calls chainEnv chainDispatcher reversedChain).map Prod.fst =
        ["draft[1]", "edit[1]", "a-review[1]", "draft[2]", "edit[2]", "a-review[2]"] ∧
      last.pass.inFlight = false ∧ last.stored.status = .completed := by
  decide +kernel

/-- In every order the chain is dispatched with the same six calls, two for
each task, and is completed. -/
theorem System.HashSteps.order_invisible_chain : ∃ s t begun bound calls, ∃ last : System,
    System.HashSteps chainEnv chainStart draftCrashed s ∧
    System.HashSteps chainEnv chainStart (draftCrashed.map fun move => (.sorted, move.2)) t ∧
    s.SameButOrder chainDefinition t ∧ s.step chainEnv (.startPass []) = some begun ∧
    calls.map Prod.fst =
      ["draft[1]", "edit[1]", "a-review[1]", "draft[2]", "edit[2]", "a-review[2]"] ∧
    last.stored.status = .completed ∧
    ∀ orders : List HashOrder, bound < orders.length →
      begun.calls chainEnv chainDispatcher orders = calls ∧
        orders.foldl (System.moveIn chainEnv chainDispatcher) begun = last := by
  have hAccepted : validateAndNormalizeWorkflowDef chainSubmitted = .ok chainDefinition :=
    eq_ok_get chainSubmitted_accepted
  have hDefinition : chainEnv.definitions "chain" = some chainDefinition := rfl
  obtain ⟨s, hCrashed, hBegun⟩ :=
    Option.bind_eq_some_iff.mp (Option.some_get chainRestarted_isSome).symm
  obtain ⟨begun, hStart, hPair⟩ := Option.map_eq_some_iff.mp hBegun
  have run : System.HashSteps chainEnv chainStart draftCrashed s := Run.of_foldlM hCrashed
  obtain ⟨_, hMatched, hAlone⟩ := System.HashSteps.order_invisible hAccepted hDefinition run
  obtain ⟨t, others, hSame⟩ := hMatched (draftCrashed.map fun move => (.sorted, move.2))
    (List.forall₂_map_right_iff.mpr (List.forall₂_same.mpr fun _ _ => .refl _))
  obtain ⟨bound, calls, last, hEnded, hAll⟩ := hAlone [] begun hStart chainDispatcher
  obtain ⟨hCalls, hReversed, hCompleted⟩ := reversedChain_ends
  rw [← hPair] at hCalls hReversed hCompleted
  obtain ⟨hDispatched, hLast⟩ :=
    System.alone_append hReversed (List.replicate (bound + 1) HashOrder.sorted)
  obtain ⟨hSameCalls, hSameLast⟩ := hAll (reversedChain ++ List.replicate (bound + 1) .sorted) (by
    rw [List.length_append, List.length_replicate]
    omega)
  rw [← hDispatched, hSameCalls] at hCalls
  rw [← hLast, hSameLast] at hCompleted
  exact ⟨s, t, begun, bound, calls, last, run, others, hSame, hStart, hCalls, hCompleted, hAll⟩

end RelayFold
