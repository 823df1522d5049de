import Mathlib.Data.List.Perm.Basic
import RelayFold.Lifecycle.PassOutcomes

/-! Two runs whose passes iterate over the slices in different orders cannot be
told apart. -/
namespace RelayFold

open WorkflowEngine WorkflowStateManager FallibleFold

variable {definition : WorkflowDef}

namespace WorkflowEngine

section Batches

variable {workflow : WorkflowInstance} {slices others : LoopSlices}

theorem materializeEligible_eq_nil {rest : LoopSlices} {plannedStates plannedAttempts : List String} :
    materializeEligible workflow definition slices rest plannedStates plannedAttempts = [] ↔
      ∀ entry ∈ rest, entry.1 ∉ plannedStates →
        eligibleStart workflow definition slices entry.1 entry.2 = none := by
  induction rest with
  | nil => simp [materializeEligible]
  | cons entry rest ih =>
      rw [List.forall_mem_cons, materializeEligible]
      split
      · rename_i hPlanned
        simp [ih, hPlanned]
      · rename_i hPlanned
        cases hStart : eligibleStart workflow definition slices entry.1 entry.2 with
        | none => simp [ih, hPlanned]
        | some start => simp [hPlanned]

/-- The states of the slices whose first generation is due. -/
def initialStates (workflow : WorkflowInstance) (definition : WorkflowDef) (slices : LoopSlices) :
    List (String × VerifierGenerationState) :=
  slices.filterMap fun entry =>
    (eligibleStart workflow definition slices entry.1 entry.2).map fun start =>
      (entry.1, initialVerifierState entry.1 start)

/-- The events that start the generations of slices whose first attempts
exist. -/
theorem materializeEligible_existing {rest : LoopSlices}
    (h : ∀ entry ∈ rest, ∀ taskId ∈ entry.2,
      (workflow.tasks.lookup (makeTaskAttemptId taskId 1)).isSome)
    (hDistinct : (rest.map Prod.fst).Nodup) {plannedStates : List String}
    (hFresh : ∀ entry ∈ rest, entry.1 ∉ plannedStates) (plannedAttempts : List String) :
    materializeEligible workflow definition slices rest plannedStates plannedAttempts =
      (initialStates workflow definition rest).map fun entry =>
        .verifierStateUpserted entry.1 entry.2 := by
  induction rest generalizing plannedStates with
  | nil => rfl
  | cons entry rest ih =>
      rw [List.map_cons, List.nodup_cons] at hDistinct
      have hRest := fun entry hEntry => h entry (List.mem_cons_of_mem _ hEntry)
      have hOthers := fun entry hEntry => hFresh entry (List.mem_cons_of_mem _ hEntry)
      have hSame : eligibleStart workflow definition (entry :: rest) entry.1 entry.2 =
          eligibleStart workflow definition slices entry.1 entry.2 := rfl
      rw [materializeEligible, if_neg (hFresh _ List.mem_cons_self), initialStates,
        List.filterMap_cons, hSame]
      cases hStart : eligibleStart workflow definition slices entry.1 entry.2 with
      | none => exact ih hRest hDistinct.2 hOthers
      | some start =>
          simp only [Option.map_some, List.map_cons]
          rw [materializeGenerationEvents_existing (h _ List.mem_cons_self), List.nil_append]
          refine congrArg _ (ih hRest hDistinct.2 fun other hEntry hPlanned => ?_)
          rcases List.mem_cons.mp hPlanned with hSame | hPlanned
          · exact hDistinct.1 (hSame ▸ List.mem_map_of_mem hEntry)
          · exact hOthers other hEntry hPlanned

theorem reduce_upserts (states : List (String × VerifierGenerationState)) :
    reduceWorkflowInstanceEvents (some workflow)
        (states.map fun entry => .verifierStateUpserted entry.1 entry.2) =
      .ok { workflow with
        verifierStates := states.foldl (fun built entry => built.insert entry.1 entry.2)
          workflow.verifierStates } := by
  induction states generalizing workflow with
  | nil => rfl
  | cons entry states ih => exact ih

end Batches

end WorkflowEngine

theorem computeLoopSlices_keys_nodup (h : WellFormedDef definition) :
    ((computeLoopSlices definition).map Prod.fst).Nodup := by
  have hSublist (tasks : List TaskDef) (slice : TaskDef → VerifierControlConfig → List String) :
      ((tasks.filterMap fun task => (taskVerifier task).map fun verifier =>
        (task.id, slice task verifier)).map Prod.fst).Sublist (tasks.map (·.id)) := by
    induction tasks with
    | nil => exact .slnil
    | cons task tasks ih =>
        cases hVerifier : taskVerifier task with
        | none => simpa [hVerifier] using ih.cons task.id
        | some verifier => simpa [hVerifier] using ih.cons_cons task.id
  exact (hSublist definition.tasks _).nodup h.ids_nodup

/-- In whatever order the first generations are started, the same number of
events leads to the same snapshot. -/
theorem initialGenerations_order (hDef : WellFormedDef definition) {workflow : WorkflowInstance}
    {slices others : LoopSlices} (hTasks : TasksInitialized definition workflow)
    (hSlices : slices.Perm (computeLoopSlices definition))
    (hOthers : others.Perm (computeLoopSlices definition)) :
    (materializeEligibleInitialGenerationEvents workflow definition others).length =
        (materializeEligibleInitialGenerationEvents workflow definition slices).length ∧
      reduceWorkflowInstanceEvents (some workflow)
          (materializeEligibleInitialGenerationEvents workflow definition others) =
        reduceWorkflowInstanceEvents (some workflow)
          (materializeEligibleInitialGenerationEvents workflow definition slices) := by
  have hEvents {rest : LoopSlices} (hPerm : rest.Perm (computeLoopSlices definition)) :
      materializeEligibleInitialGenerationEvents workflow definition rest =
        (initialStates workflow definition rest).map fun entry =>
          .verifierStateUpserted entry.1 entry.2 := by
    refine materializeEligible_existing (fun entry hEntry taskId hMem => ?_) ?_
      (fun _ _ => List.not_mem_nil) []
    · exact hTasks.isSome (slice_subset_taskIds (hPerm.mem_iff.mp hEntry) taskId hMem)
    · exact (hPerm.map Prod.fst).nodup_iff.mpr (computeLoopSlices_keys_nodup hDef)
  have hStates : (initialStates workflow definition others).Perm
      (initialStates workflow definition slices) := (hOthers.trans hSlices.symm).filterMap _
  rw [hEvents hOthers, hEvents hSlices, reduce_upserts, reduce_upserts, List.length_map,
    List.length_map]
  refine ⟨hStates.length_eq, congrArg Except.ok (congrArg _ ?_)⟩
  refine hStates.foldl_eq' (fun first hFirst second hSecond built => ?_) workflow.verifierStates
  by_cases hKey : first.1 = second.1
  · obtain ⟨entry, hEntry, hMade⟩ := List.mem_filterMap.mp hFirst
    obtain ⟨entry', hEntry', hMade'⟩ := List.mem_filterMap.mp hSecond
    obtain ⟨start, hStart, rfl⟩ := Option.map_eq_some_iff.mp hMade
    obtain ⟨start', hStart', rfl⟩ := Option.map_eq_some_iff.mp hMade'
    obtain ⟨verifierId, slice⟩ := entry
    obtain ⟨_, slice'⟩ := entry'
    obtain rfl : verifierId = _ := hKey
    rw [hDef.slice_unique (hOthers.mem_iff.mp hEntry) (hOthers.mem_iff.mp hEntry')] at hStart'
    rw [Option.some.inj (hStart.symm.trans hStart')]
  · exact Finmap.insert_insert_of_ne _ hKey

section Perm

variable {loopSlices : LoopSlices} (h : WellFormedDef definition)
  (hPerm : loopSlices.Perm (computeLoopSlices definition))
include h hPerm

theorem lookup_perm (verifierId : String) :
    loopSlices.lookup verifierId = (computeLoopSlices definition).lookup verifierId := by
  cases hFound : (computeLoopSlices definition).lookup verifierId with
  | some slice =>
      obtain ⟨first, rest, hSplit, _⟩ := List.lookup_eq_some_iff.mp hFound
      exact lookup_slice h hPerm (by rw [hSplit]; simp)
  | none =>
      refine List.lookup_eq_none_iff.mpr fun entry hEntry => ?_
      exact List.lookup_eq_none_iff.mp hFound entry (hPerm.mem_iff.mp hEntry)

theorem startedTask_perm (workflow : WorkflowInstance) (taskAttemptId : String) :
    startedTask workflow definition loopSlices taskAttemptId =
      startedTask workflow definition (computeLoopSlices definition) taskAttemptId := by
  simp only [startedTask, resolveInputs_perm h hPerm]

theorem verifierResultTransition_perm (workflow : WorkflowInstance) (verifierAttemptId : String)
    (taskOutput : Json) (result : VerifierExecutionResult) :
    verifierResultTransition workflow definition loopSlices verifierAttemptId taskOutput result =
      verifierResultTransition workflow definition (computeLoopSlices definition) verifierAttemptId
        taskOutput result := by
  simp only [verifierResultTransition, lookup_perm h hPerm]

theorem resultCommit_perm (ext : Externals) (workflow : WorkflowInstance) (taskAttemptId : String)
    (taskDef : TaskDef) (inputs : ResolvedTaskInputs) (answer : Answer) :
    resultCommit ext workflow definition loopSlices taskAttemptId taskDef inputs answer =
      resultCommit ext workflow definition (computeLoopSlices definition) taskAttemptId taskDef
        inputs answer := by
  have hIn : isTaskInLoopSlice loopSlices = isTaskInLoopSlice (computeLoopSlices definition) := by
    funext taskDefId
    exact hPerm.any_eq
  simp only [resultCommit, successResult, completedResult, completionEvents, hIn,
    verifierResultTransition_perm h hPerm]

end Perm

/-- Two passes that have loaded one definition, and iterate over its slices in
some order each. -/
structure Twins (definition : WorkflowDef) (pass other : ActivePass) : Prop where
  loaded : pass.definition = definition
  same : other.definition = definition
  slices : pass.loopSlices.Perm (computeLoopSlices definition)
  others : other.loopSlices.Perm (computeLoopSlices definition)

/-- The same next operation. Only the events that start generations may be
ordered differently. -/
inductive PassPoint.SameButOrder (definition : WorkflowDef) (workflow : WorkflowInstance)
    (slices others : LoopSlices) : PassPoint → PassPoint → Prop
  | generations : SameButOrder definition workflow slices others
      (.commitGenerations (materializeEligibleInitialGenerationEvents workflow definition slices))
      (.commitGenerations (materializeEligibleInitialGenerationEvents workflow definition others))
  | refl (point : PassPoint) : SameButOrder definition workflow slices others point point

inductive PassState.SameButOrder (definition : WorkflowDef) : PassState → PassState → Prop
  | loading (order other : LoopSlices) : SameButOrder definition (.loading order) (.loading other)
  | loadingDef (order other : LoopSlices) (workflow : WorkflowInstance) :
      SameButOrder definition (.loadingDef order workflow) (.loadingDef other workflow)
  | active {pass other : ActivePass} (hTwins : Twins definition pass other)
      (hWorkflow : other.workflow = pass.workflow)
      (hPoint : PassPoint.SameButOrder definition pass.workflow pass.loopSlices other.loopSlices
        pass.point other.point) : SameButOrder definition (.active pass) (.active other)
  | idle : SameButOrder definition .idle .idle
  | finished (result : PassResult) : SameButOrder definition (.finished result) (.finished result)

/-- The same action, up to the order in which a pass iterates over the
slices. -/
inductive Action.SameButOrder : Action → Action → Prop
  | startPass (order other : LoopSlices) : SameButOrder (.startPass order) (.startPass other)
  | refl (action : Action) : SameButOrder action action

structure System.SameButOrder (definition : WorkflowDef) (s t : System) : Prop where
  stored : t.stored = s.stored
  past : t.past = s.past
  pass : s.pass.SameButOrder definition t.pass

namespace Twins

variable {pass other : ActivePass} {workflow : WorkflowInstance} {ext : Externals}

theorem goOn (h : Twins definition pass other) (point : PassPoint) :
    (pass.goOn workflow point).SameButOrder definition (other.goOn workflow point) :=
  .active ⟨h.loaded, h.same, h.slices, h.others⟩ rfl (.refl point)

theorem leaveLoop (h : Twins definition pass other) :
    (pass.leaveLoop workflow).SameButOrder definition (other.leaveLoop workflow) := by
  unfold ActivePass.leaveLoop
  rw [h.loaded, h.same]
  split
  · exact h.goOn _
  · exact .finished _

theorem nextTask (h : Twins definition pass other) {atEnd atEnd' : PassState}
    (hEnd : atEnd.SameButOrder definition atEnd') (ids : List String) :
    (pass.nextTask workflow atEnd ids).SameButOrder definition
      (other.nextTask workflow atEnd' ids) := by
  induction ids with
  | nil => exact hEnd
  | cons id rest ih =>
      unfold ActivePass.nextTask
      split
      · exact .finished _
      · split
        · exact ih
        · exact h.goOn _

theorem startTasks (hDef : WellFormedDef definition) (h : Twins definition pass other)
    {atEnd atEnd' : PassState} (hEnd : atEnd.SameButOrder definition atEnd') :
    (pass.startTasks workflow atEnd).SameButOrder definition (other.startTasks workflow atEnd') := by
  unfold ActivePass.startTasks
  rw [h.loaded, h.same, tasksToRun_perm hDef h.slices, tasksToRun_perm hDef h.others]
  split
  · exact .finished _
  · exact h.nextTask hEnd _

theorem enterLoop (hDef : WellFormedDef definition) (h : Twins definition pass other) :
    (pass.enterLoop workflow).SameButOrder definition (other.enterLoop workflow) := by
  have hEmpty : (materializeEligibleInitialGenerationEvents workflow definition
      other.loopSlices).isEmpty = (materializeEligibleInitialGenerationEvents workflow definition
        pass.loopSlices).isEmpty := by
    rw [Bool.eq_iff_iff, List.isEmpty_iff, List.isEmpty_iff]
    unfold materializeEligibleInitialGenerationEvents
    rw [materializeEligible_eq_nil, materializeEligible_eq_nil]
    simp only [(h.others.trans h.slices.symm).mem_iff]
    exact Iff.rfl
  unfold ActivePass.enterLoop
  rw [h.loaded, h.same]
  dsimp only
  rw [hEmpty]
  split
  · exact h.startTasks hDef h.leaveLoop
  · exact .active ⟨h.loaded, h.same, h.slices, h.others⟩ rfl .generations

theorem initializeTasks (hDef : WellFormedDef definition) (h : Twins definition pass other) :
    (pass.initializeTasks workflow).SameButOrder definition (other.initializeTasks workflow) := by
  unfold ActivePass.initializeTasks
  rw [h.loaded, h.same]
  split
  · exact h.goOn _
  · exact h.enterLoop hDef

theorem prepareDispatch (hDef : WellFormedDef definition) (h : Twins definition pass other)
    (taskAttemptId : String) (rest : List String) :
    (pass.prepareDispatch ext workflow taskAttemptId rest).SameButOrder definition
      (other.prepareDispatch ext workflow taskAttemptId rest) := by
  unfold ActivePass.prepareDispatch
  rw [h.loaded, h.same, startedTask_perm hDef h.slices, startedTask_perm hDef h.others]
  split
  · exact .finished _
  · split
    · exact h.goOn _
    · exact h.goOn _

theorem answered (hDef : WellFormedDef definition) (h : Twins definition pass other)
    (hWorkflow : other.workflow = pass.workflow) (started : StartedTask) (rest : List String)
    (answer : Answer) : (pass.answered ext started rest answer).SameButOrder definition
      (other.answered ext started rest answer) := by
  unfold ActivePass.answered
  rw [h.loaded, h.same, hWorkflow, resultCommit_perm hDef h.slices, resultCommit_perm hDef h.others]
  split
  · exact .finished _
  · exact h.goOn _

theorem dispatch (hDef : WellFormedDef definition) (h : Twins definition pass other)
    (hWorkflow : other.workflow = pass.workflow) (env : EngineEnv) (started : StartedTask)
    (rest : List String) : (pass.dispatch env started rest).SameButOrder definition
      (other.dispatch env started rest) := by
  have hCall : other.dispatchCall env started = pass.dispatchCall env started := by
    funext taskDef
    simp only [ActivePass.dispatchCall, hWorkflow, h.loaded, h.same]
  unfold ActivePass.dispatch
  rw [hCall, hWorkflow]
  split
  · exact h.answered hDef hWorkflow started rest _
  · split
    · exact .finished _
    · exact h.goOn _

theorem afterResult (hDef : WellFormedDef definition) (h : Twins definition pass other)
    (result : ResultCommit) (rest : List String) :
    (pass.afterResult result rest workflow).SameButOrder definition
      (other.afterResult result rest workflow) := by
  unfold ActivePass.afterResult
  rw [h.loaded, h.same]
  split
  · exact .finished _
  · split
    · split
      · exact h.goOn _
      · exact .finished _
    · split
      · exact .finished _
      · exact h.nextTask (h.enterLoop hDef) rest

end Twins

section Steps

variable {env : EngineEnv} {s t : System} {l : Lifecycle}

theorem commit_sameButOrder {stored base : WorkflowInstance}
    {events others : List WorkflowInstanceEvent} {next next' : WorkflowInstance → PassState}
    (hCommit : commitOn stored base others = commitOn stored base events)
    (hNext : ∀ updated, (next updated).SameButOrder definition (next' updated)) :
    (ActivePass.commit stored base events next).1.SameButOrder definition
        (ActivePass.commit stored base others next').1 ∧
      (ActivePass.commit stored base others next').2 =
        (ActivePass.commit stored base events next).2 := by
  unfold ActivePass.commit
  rw [hCommit]
  split
  · exact ⟨hNext _, rfl⟩
  · exact ⟨.finished _, rfl⟩

/-- The next operation of two passes over the same instance. -/
theorem Twins.step (hDef : WellFormedDef definition) {plan : List String} {pass other : ActivePass}
    (h : Twins definition pass other) (hWorkflow : other.workflow = pass.workflow)
    (hPoint : PassPoint.SameButOrder definition pass.workflow pass.loopSlices other.loopSlices
      pass.point other.point) (hInv : ActiveInv env.ext definition plan s pass) :
    (pass.step env s.stored).1.SameButOrder definition (other.step env s.stored).1 ∧
      (other.step env s.stored).2 = (pass.step env s.stored).2 := by
  have hKnows := hInv.point
  unfold PointInv at hKnows
  unfold ActivePass.step
  generalize hHere : pass.point = point at hPoint hKnows ⊢
  generalize hThere : other.point = point' at hPoint ⊢
  rw [hWorkflow]
  cases hPoint with
  | generations =>
      dsimp only at hKnows ⊢
      obtain ⟨_, _, hTasks, _⟩ := hKnows
      obtain ⟨hLength, hReduce⟩ := initialGenerations_order hDef hTasks h.slices h.others
      refine commit_sameButOrder ?_ fun updated => h.startTasks hDef (h.enterLoop hDef)
      have hEmpty : (materializeEligibleInitialGenerationEvents pass.workflow definition
          other.loopSlices).isEmpty = (materializeEligibleInitialGenerationEvents pass.workflow
            definition pass.loopSlices).isEmpty := by
        rw [Bool.eq_iff_iff, List.isEmpty_iff_length_eq_zero, List.isEmpty_iff_length_eq_zero, hLength]
      unfold commitOn
      rw [hReduce, hEmpty, hLength]
  | refl point =>
      cases point with
      | commitRunning => exact commit_sameButOrder rfl fun _ => h.initializeTasks hDef
      | commitInitialTasks =>
          dsimp only
          rw [h.loaded, h.same]
          exact commit_sameButOrder rfl fun _ => h.enterLoop hDef
      | commitGenerations events =>
          exact commit_sameButOrder rfl fun _ => h.startTasks hDef (h.enterLoop hDef)
      | checkPaused id rest =>
          dsimp only
          split
          · exact ⟨.finished _, rfl⟩
          · exact ⟨h.goOn _, rfl⟩
      | commitStart id rest => exact commit_sameButOrder rfl fun _ => h.prepareDispatch hDef id rest
      | commitInputFailure started error => exact commit_sameButOrder rfl fun _ => .finished _
      | resolveFunction started rest => exact ⟨h.dispatch hDef hWorkflow env started rest, rfl⟩
      | awaitAnswer started call rest => exact ⟨h.goOn _, rfl⟩
      | readCurrent started answer result rest =>
          have hBase : other.resultBase (some s.stored) = pass.resultBase (some s.stored) := by
            simp only [ActivePass.resultBase, hWorkflow]
          dsimp only
          rw [hBase]
          exact ⟨h.goOn _, rfl⟩
      | commitResult started answer result base rest =>
          exact commit_sameButOrder rfl fun _ => h.afterResult hDef result rest
      | commitPauseCompleted | commitCompleted => exact commit_sameButOrder rfl fun _ => .finished _

theorem System.SameButOrder.advance (h : s.SameButOrder definition t)
    {first second : PassState × Option WorkflowInstance}
    (hPass : first.1.SameButOrder definition second.1) (hSaved : second.2 = first.2) :
    (s.advance first).SameButOrder definition (t.advance second) := by
  obtain ⟨pass, saved⟩ := first
  obtain ⟨pass', saved'⟩ := second
  obtain rfl : saved' = saved := hSaved
  cases saved' with
  | none => exact ⟨h.stored, h.past, hPass⟩
  | some updated => exact ⟨rfl, congrArg₂ List.cons h.stored h.past, hPass⟩

theorem System.SameButOrder.commit (h : s.SameButOrder definition t) (base : WorkflowInstance)
    (events : List WorkflowInstanceEvent) :
    (s.commit base events).SameButOrder definition (t.commit base events) := by
  unfold System.commit
  rw [h.stored]
  split
  · exact ⟨rfl, congrArg₂ List.cons h.stored h.past, h.pass⟩
  · exact h

theorem PassState.SameButOrder.inFlight {state other : PassState}
    (h : state.SameButOrder definition other) : other.inFlight = state.inFlight := by
  cases h <;> rfl

theorem PassState.SameButOrder.answer (hDef : WellFormedDef definition) {state other : PassState}
    (h : state.SameButOrder definition other) {result : Answer} {state' : PassState}
    (hAnswer : state.answer env result = some state') :
    ∃ other', other.answer env result = some other' ∧ state'.SameButOrder definition other' := by
  cases h with
  | @active pass other hTwins hWorkflow hPoint =>
      simp only [PassState.answer] at hAnswer ⊢
      generalize pass.point = point at hPoint hAnswer
      generalize other.point = point' at hPoint ⊢
      cases hPoint with
      | generations => cases hAnswer
      | refl point =>
          cases point with
          | awaitAnswer started call rest =>
              cases hAnswer
              exact ⟨_, rfl, hTwins.answered hDef hWorkflow started rest result⟩
          | _ => cases hAnswer
  | loading _ _ | loadingDef _ _ _ | idle | finished _ => cases hAnswer

/-- The next operation of two passes, wherever they are. -/
theorem System.SameButOrder.passStep (hDef : WellFormedDef definition)
    (hRefines : Refines env definition s l) (h : s.SameButOrder definition t) :
    (s.advance (s.pass.step env s.stored)).SameButOrder definition
      (t.advance (t.pass.step env t.stored)) := by
  have hPass := h.pass
  have hInv := hRefines.pass
  rw [h.stored]
  generalize s.pass = state at hPass hInv ⊢
  generalize t.pass = other at hPass ⊢
  cases hPass with
  | active hTwins hWorkflow hPoint =>
      obtain ⟨hState, hSaved⟩ := hTwins.step hDef hWorkflow hPoint hInv
      exact h.advance hState hSaved
  | loading order other =>
      refine h.advance ?_ rfl
      change (PassState.loaded order (some s.stored)).SameButOrder definition
        (PassState.loaded other (some s.stored))
      unfold PassState.loaded
      dsimp only
      split
      all_goals first
        | exact .finished _
        | exact .loadingDef order other _
  | loadingDef order other workflow =>
      refine h.advance ?_ rfl
      change (PassState.loadedDef order workflow _).SameButOrder definition
        (PassState.loadedDef other workflow _)
      rw [hRefines.history.defId workflow hInv.1]
      exact .active ⟨rfl, rfl, iterationOrder_perm _ _, iterationOrder_perm _ _⟩ rfl (.refl _)
  | idle => exact h.advance .idle rfl
  | finished result => exact h.advance (.finished result) rfl

/-- Every step of one run is matched by the other. -/
theorem System.SameButOrder.step (hDef : WellFormedDef definition)
    (hRefines : Refines env definition s l) (h : s.SameButOrder definition t)
    {action other : Action} (hAction : action.SameButOrder other) {s' : System}
    (hStep : s.step env action = some s') :
    ∃ t', t.step env other = some t' ∧ s'.SameButOrder definition t' := by
  have hSnapshots : t.snapshots = s.snapshots := congrArg₂ List.cons h.stored h.past
  have hFlight := h.pass.inFlight
  cases hAction with
  | startPass order other =>
      simp only [System.step, hFlight] at hStep ⊢
      split at hStep
      · cases hStep
      · rename_i hRests
        cases hStep
        exact ⟨_, if_neg hRests, h.stored, h.past, .loading order other⟩
  | refl action =>
      cases action with
      | startPass order =>
          simp only [System.step, hFlight] at hStep ⊢
          split at hStep
          · cases hStep
          · rename_i hRests
            cases hStep
            exact ⟨_, if_neg hRests, h.stored, h.past, .loading order order⟩
      | passStep =>
          rw [System.step_passStep] at hStep ⊢
          cases hStep
          exact ⟨_, rfl, h.passStep hDef hRefines⟩
      | answer result =>
          simp only [System.step] at hStep ⊢
          obtain ⟨state, hAnswer, rfl⟩ := Option.map_eq_some_iff.mp hStep
          obtain ⟨state', hOther, hSame⟩ := h.pass.answer hDef hAnswer
          exact ⟨_, Option.map_eq_some_iff.mpr ⟨state', hOther, rfl⟩, h.stored, h.past, hSame⟩
      | crash =>
          cases hStep
          exact ⟨_, rfl, h.stored, h.past, .idle⟩
      | request request seen =>
          simp only [System.step, hSnapshots] at hStep ⊢
          obtain ⟨snapshot, hSeen, hBatch⟩ := Option.bind_eq_some_iff.mp hStep
          rw [hSeen]
          dsimp only [Option.bind_eq_bind, Option.bind_some] at hBatch ⊢
          split at hBatch
          · cases hBatch
            exact ⟨_, rfl, h.commit _ _⟩
          · cases hBatch
            exact ⟨_, rfl, h⟩
      | recover listed seen current =>
          simp only [System.step, hSnapshots, hFlight] at hStep ⊢
          obtain ⟨listed, hListed, hStep⟩ := Option.bind_eq_some_iff.mp hStep
          obtain ⟨seen, hSeen, hStep⟩ := Option.bind_eq_some_iff.mp hStep
          obtain ⟨current, hCurrent, hStep⟩ := Option.bind_eq_some_iff.mp hStep
          rw [hListed, hSeen, hCurrent]
          dsimp only [Option.bind_eq_bind, Option.bind_some] at hStep ⊢
          split at hStep
          · cases hStep
          · rename_i hRests
            rw [if_neg hRests]
            split at hStep
            · cases hStep
              exact ⟨_, rfl, h.commit _ _⟩
            · cases hStep
              exact ⟨_, rfl, h⟩

end Steps

/-- No run depends on the orders in which its passes iterate over the slices:
whatever the other orders are, the same actions lead through the same
snapshots, to the same calls and results. -/
theorem System.Steps.slice_order_invisible {env : EngineEnv} {submitted definition : WorkflowDef}
    {id workflowDefId : String} {pinnedWorkerHost : WorkerHostId} {input : Option Json}
    {actions others : List Action} {s : System}
    (hAccepted : validateAndNormalizeWorkflowDef submitted = .ok definition)
    (hDefinition : env.definitions workflowDefId = some definition)
    (run : System.Steps env (System.created id workflowDefId pinnedWorkerHost input) actions s)
    (hOrders : List.Forall₂ Action.SameButOrder actions others) :
    ∃ t, System.Steps env (System.created id workflowDefId pinnedWorkerHost input) others t ∧
      s.SameButOrder definition t := by
  have hDef := validateAndNormalizeWorkflowDef_ok hAccepted
  obtain ⟨t, steps, _, hSame⟩ := run.lockstep
    (R := fun s t => Tracked env definition s ∧ s.SameButOrder definition t)
    (fun s action s' t other hRelated hAction hStep => by
      obtain ⟨hTracked, hSame⟩ := hRelated
      have ⟨l, hRefines, _⟩ := hTracked
      obtain ⟨t', hOther, hSame'⟩ := hSame.step hDef hRefines hAction hStep
      exact ⟨t', hOther, hTracked.step hDef hStep, hSame'⟩) hOrders
    ⟨.created pinnedWorkerHost input hDefinition, rfl, rfl, .idle⟩
  exact ⟨t, steps, hSame⟩

def reviewsSubmitted : WorkflowDef where
  id := "reviews"
  exampleInput := none
  description := "two reviews"
  tasks := ["first", "second"].map fun id =>
    sampleTask id (some { maxIterations := 2, onExhaustedContinue := false, rerunFromTaskId := none })
  dataBindings := []

theorem reviewsSubmitted_accepted :
    (validateAndNormalizeWorkflowDef reviewsSubmitted).toOption.isSome := by
  decide +kernel

def reviewsDefinition : WorkflowDef :=
  (validateAndNormalizeWorkflowDef reviewsSubmitted).toOption.get reviewsSubmitted_accepted

def reviewsEnv : EngineEnv :=
  { sampleEnv with definitions := fun id => if id = "reviews" then some reviewsDefinition else none }

def reviewsStart : System := System.created "reviews-1" "reviews" ⟨"host"⟩ none

/-- Both reviews are started by one commit, and the first one is dispatched. -/
def firstReviewAsked (order : LoopSlices) : List Action :=
  .startPass order :: List.replicate 8 .passStep

theorem firstReviewAsked_runs :
    (((firstReviewAsked []).foldlM (System.step reviewsEnv) reviewsStart).filter fun s =>
      s.pass.inFlight && s.stored.verifierStates.toList.length = 2).isSome := by
  decide +kernel

/-- The two reviews in the other order. -/
theorem System.Steps.slice_order_invisible_reviews : ∃ s t,
    System.Steps reviewsEnv reviewsStart (firstReviewAsked []) s ∧
    s.stored.verifierStates.toList.length = 2 ∧
    System.Steps reviewsEnv reviewsStart
      (firstReviewAsked (computeLoopSlices reviewsDefinition).reverse) t ∧
    s.SameButOrder reviewsDefinition t := by
  have hAccepted : validateAndNormalizeWorkflowDef reviewsSubmitted = .ok reviewsDefinition :=
    eq_ok_get reviewsSubmitted_accepted
  have hDefinition : reviewsEnv.definitions "reviews" = some reviewsDefinition := rfl
  obtain ⟨hFound, hStarted⟩ :=
    Option.filter_eq_some_iff.mp (Option.some_get firstReviewAsked_runs).symm
  rw [Bool.and_eq_true, decide_eq_true_eq] at hStarted
  have run := Run.of_foldlM hFound
  have hOrders : List.Forall₂ Action.SameButOrder (firstReviewAsked [])
      (firstReviewAsked (computeLoopSlices reviewsDefinition).reverse) :=
    .cons (.startPass _ _) (List.forall₂_same.mpr fun action _ => .refl action)
  obtain ⟨t, others, hSame⟩ := System.Steps.slice_order_invisible hAccepted hDefinition run hOrders
  exact ⟨_, t, run, hStarted.2, others, hSame⟩

end RelayFold
