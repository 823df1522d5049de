import RelayFold.Lifecycle.Writes

/-! The first generation of each verifier: its attempts exist already, so
starting it stores the initial verifier state and nothing else. -/
namespace RelayFold

open WorkflowEngine FallibleFold EdgeList

/-- Every task of the definition has its first attempt. -/
def TasksInitialized (definition : WorkflowDef) (workflow : WorkflowInstance) : Prop :=
  ∀ taskDef ∈ definition.tasks, (workflow.tasks.lookup (makeTaskAttemptId taskDef.id 1)).isSome

theorem mem_taskIds {definition : WorkflowDef} {taskId : String} :
    taskId ∈ definition.taskIds ↔ ∃ taskDef ∈ definition.tasks, taskDef.id = taskId :=
  List.mem_map

/-- Once the tasks have been initialized, each of them has its first
attempt. -/
theorem TasksInitialized.isSome {definition : WorkflowDef} {workflow : WorkflowInstance}
    (h : TasksInitialized definition workflow) {taskId : String}
    (hTask : taskId ∈ definition.taskIds) :
    (workflow.tasks.lookup (makeTaskAttemptId taskId 1)).isSome := by
  obtain ⟨taskDef, hMem, rfl⟩ := mem_taskIds.mp hTask
  exact h taskDef hMem

theorem slice_subset_taskIds {definition : WorkflowDef} {entry : String × List String}
    (h : entry ∈ computeLoopSlices definition) : ∀ taskId ∈ entry.2, taskId ∈ definition.taskIds := by
  obtain ⟨_, _, _, _, _, hSlice⟩ := mem_computeLoopSlices.mp h
  intro taskId hMem
  rw [hSlice] at hMem
  exact (List.mem_filter.mp hMem).1

namespace WorkflowEngine

variable {workflow : WorkflowInstance} {definition : WorkflowDef} {loopSlices : LoopSlices}

/-- Where every attempt of a generation exists, there is nothing to
materialize. -/
theorem materializeSlice_existing {generation : Nat} {slice : List String}
    (h : ∀ taskId ∈ slice, (workflow.tasks.lookup (makeTaskAttemptId taskId generation)).isSome)
    (planned : List String) :
    materializeSlice workflow generation slice planned = ([], planned) := by
  induction slice generalizing planned with
  | nil => rfl
  | cons taskId slice ih =>
      unfold materializeSlice
      simp only [h taskId List.mem_cons_self, Bool.true_or, if_true]
      exact ih (fun t ht => h t (List.mem_cons_of_mem _ ht)) planned

theorem materializeGenerationEvents_existing {generation : Nat} {slice : List String}
    (h : ∀ taskId ∈ slice, (workflow.tasks.lookup (makeTaskAttemptId taskId generation)).isSome)
    (planned : List String) :
    materializeGenerationEvents workflow slice generation planned = ([], planned) := by
  unfold materializeGenerationEvents
  split
  · rfl
  · exact materializeSlice_existing h planned

/-- Whether a task outside a slice is ready depends on the attempts only. -/
theorem logicalTaskReadyOutsideSlice_congr {a b : WorkflowInstance} (h : b.tasks = a.tasks)
    (taskDef : TaskDef) (slice : List String) :
    logicalTaskReadyOutsideSlice b definition taskDef slice loopSlices =
      logicalTaskReadyOutsideSlice a definition taskDef slice loopSlices := by
  simp only [logicalTaskReadyOutsideSlice, resolveSourceAttemptId, latestMaterializedAttemptId,
    latestSatisfiedAttemptId, h]

/-- Whether a slice may start depends on the attempts and on the state of its
verifier. -/
theorem eligibleStart_congr {a b : WorkflowInstance} {verifierId : String} {slice : List String}
    (hTasks : b.tasks = a.tasks)
    (hState : b.verifierStates.lookup verifierId = a.verifierStates.lookup verifierId) :
    eligibleStart b definition loopSlices verifierId slice =
      eligibleStart a definition loopSlices verifierId slice := by
  have hInterrupted : sliceInterruptedByExit b slice = sliceInterruptedByExit a slice := by
    rw [sliceInterruptedByExit, hTasks]
    rfl
  simp only [eligibleStart, logicalTaskReadyOutsideSlice_congr hTasks, hInterrupted, hState]

/-- A slice whose verifier has a state has been started already. -/
theorem eligibleStart_none_of_state {verifierId : String} {slice : List String}
    (h : (workflow.verifierStates.lookup verifierId).isSome) :
    eligibleStart workflow definition loopSlices verifierId slice = none := by
  unfold eligibleStart
  rw [if_pos (by simp [h])]

/-- The events that start generations, when the first attempts exist. -/
theorem materializeEligible_events {rest : LoopSlices}
    (h : ∀ entry ∈ rest, ∀ taskId ∈ entry.2,
      (workflow.tasks.lookup (makeTaskAttemptId taskId 1)).isSome)
    (plannedStates plannedAttempts : List String) :
    (∀ event ∈ materializeEligible workflow definition loopSlices rest plannedStates
        plannedAttempts, ∃ entry ∈ rest, ∃ start,
      eligibleStart workflow definition loopSlices entry.1 entry.2 = some start ∧
        event = .verifierStateUpserted entry.1 (initialVerifierState entry.1 start)) ∧
    ∀ entry ∈ rest, (eligibleStart workflow definition loopSlices entry.1 entry.2).isSome →
      entry.1 ∈ plannedStates ∨ ∃ state, .verifierStateUpserted entry.1 state ∈
        materializeEligible workflow definition loopSlices rest plannedStates plannedAttempts := by
  induction rest generalizing plannedStates plannedAttempts with
  | nil => exact ⟨(fun _ h => nomatch h), (fun _ h => nomatch h)⟩
  | cons entry rest ih =>
      obtain ⟨verifierId, slice⟩ := entry
      have hRest := ih fun e he => h e (List.mem_cons_of_mem _ he)
      unfold materializeEligible
      split
      · rename_i hPlanned
        obtain ⟨hEvents, hStarted⟩ := hRest plannedStates plannedAttempts
        refine ⟨fun event hEvent => ?_, fun entry hEntry hEligible => ?_⟩
        · obtain ⟨entry, hMem, hEntry⟩ := hEvents event hEvent
          exact ⟨entry, List.mem_cons_of_mem _ hMem, hEntry⟩
        · rcases List.mem_cons.mp hEntry with rfl | hEntry
          · exact .inl hPlanned
          · exact hStarted entry hEntry hEligible
      · cases hStart : eligibleStart workflow definition loopSlices verifierId slice with
        | none =>
            obtain ⟨hEvents, hStarted⟩ := hRest plannedStates plannedAttempts
            refine ⟨fun event hEvent => ?_, fun entry hEntry hEligible => ?_⟩
            · obtain ⟨entry, hMem, hEntry⟩ := hEvents event hEvent
              exact ⟨entry, List.mem_cons_of_mem _ hMem, hEntry⟩
            · rcases List.mem_cons.mp hEntry with rfl | hEntry
              · rw [hStart] at hEligible
                cases hEligible
              · exact hStarted entry hEntry hEligible
        | some start =>
            dsimp only
            rw [materializeGenerationEvents_existing (h _ List.mem_cons_self)]
            obtain ⟨hEvents, hStarted⟩ := hRest (verifierId :: plannedStates) plannedAttempts
            refine ⟨fun event hEvent => ?_, fun entry hEntry hEligible => ?_⟩
            · rcases List.mem_cons.mp hEvent with rfl | hEvent
              · exact ⟨_, List.mem_cons_self, start, hStart, rfl⟩
              · obtain ⟨entry, hMem, hEntry⟩ := hEvents event hEvent
                exact ⟨entry, List.mem_cons_of_mem _ hMem, hEntry⟩
            · rcases List.mem_cons.mp hEntry with rfl | hEntry
              · exact .inr ⟨_, List.mem_cons_self⟩
              · rcases hStarted entry hEntry hEligible with hPlanned | ⟨state, hMem⟩
                · rcases List.mem_cons.mp hPlanned with hSame | hPlanned
                  · rw [hSame]
                    exact .inr ⟨_, List.mem_cons_self⟩
                  · exact .inl hPlanned
                · exact .inr ⟨state, List.mem_cons_of_mem _ hMem⟩

end WorkflowEngine

/-- The snapshot after the first generations have been started. -/
structure GenerationsAfter (definition : WorkflowDef) (loopSlices : LoopSlices)
    (before after : WorkflowInstance) : Prop where
  tasks : after.tasks = before.tasks
  status : after.status = before.status
  kept : ∀ verifierId state, before.verifierStates.lookup verifierId = some state →
    after.verifierStates.lookup verifierId = some state
  started : ∀ verifierId state, before.verifierStates.lookup verifierId = none →
    after.verifierStates.lookup verifierId = some state → ∃ slice start,
      (verifierId, slice) ∈ loopSlices ∧
      eligibleStart before definition loopSlices verifierId slice = some start ∧
      state = initialVerifierState verifierId start
  eligible : ∀ entry ∈ loopSlices,
    (eligibleStart before definition loopSlices entry.1 entry.2).isSome →
      (after.verifierStates.lookup entry.1).isSome

/-- Creating the states of verifiers leaves the attempts alone. -/
theorem upserts_tasks {before after : WorkflowInstance} {events : List WorkflowInstanceEvent}
    (hReduce : reduceWorkflowInstanceEvents (some before) events = .ok after)
    (h : ∀ event ∈ events, ∃ verifierId state, event = .verifierStateUpserted verifierId state) :
    after.tasks = before.tasks := by
  simp only [reduceWorkflowInstanceEvents] at hReduce
  induction events generalizing before with
  | nil =>
      cases hReduce
      rfl
  | cons event events ih =>
      obtain ⟨middle, hFirst, hRest⟩ := foldlM_cons_ok.mp hReduce
      rw [ih hRest fun e he => h e (List.mem_cons_of_mem _ he)]
      obtain ⟨_, _, rfl⟩ := h event List.mem_cons_self
      cases hFirst
      rfl

/-- What the first generations leave: a state for the verifier of each eligible
slice, and no new attempt, because those of generation 1 exist. -/
theorem initialGenerations_after {definition : WorkflowDef} {loopSlices : LoopSlices}
    {before after : WorkflowInstance} (hTasks : TasksInitialized definition before)
    (hSlices : loopSlices.Perm (computeLoopSlices definition))
    (hReduce : reduceWorkflowInstanceEvents (some before)
      (materializeEligibleInitialGenerationEvents before definition loopSlices) = .ok after) :
    GenerationsAfter definition loopSlices before after := by
  have hExisting : ∀ entry ∈ loopSlices, ∀ taskId ∈ entry.2,
      (before.tasks.lookup (makeTaskAttemptId taskId 1)).isSome := fun entry hEntry taskId hMem =>
    hTasks.isSome (slice_subset_taskIds (hSlices.mem_iff.mp hEntry) taskId hMem)
  obtain ⟨hEvents, hStarted⟩ :=
    @materializeEligible_events before definition loopSlices loopSlices hExisting [] []
  have hEffect := reduceWorkflowInstanceEvents_effected hReduce
  have hUpserts : ∀ event ∈ materializeEligibleInitialGenerationEvents before definition loopSlices,
      ∃ verifierId state, event = .verifierStateUpserted verifierId state := by
    intro event hEvent
    obtain ⟨_, _, _, _, rfl⟩ := hEvents event hEvent
    exact ⟨_, _, rfl⟩
  refine ⟨upserts_tasks hReduce hUpserts, ?_, ?_, ?_, ?_⟩
  · rw [hEffect.status]
    refine List.foldlRecOn _ (motive := (· = before.status)) _ rfl ?_
    intro status hStatus event hEvent
    obtain ⟨_, _, rfl⟩ := hUpserts event hEvent
    exact hStatus
  · intro verifierId state hState
    rw [hEffect.verifierState, hState]
    refine List.foldlRecOn _ (motive := (· = some state)) _ rfl ?_
    intro current hCurrent event hEvent
    obtain ⟨entry, _, start, hStart, rfl⟩ := hEvents event hEvent
    refine (if_neg ?_).trans hCurrent
    rintro rfl
    rw [eligibleStart_none_of_state (by rw [hState]; rfl)] at hStart
    cases hStart
  · intro verifierId state hNone
    rw [hEffect.verifierState, hNone]
    refine List.foldlRecOn _ (motive := fun current => current = some state → _) _
      (fun h => by cases h) ?_
    intro current hCurrent event hEvent
    obtain ⟨⟨otherId, slice⟩, hMem, start, hStart, rfl⟩ := hEvents event hEvent
    simp only [WorkflowInstanceEvent.verifierEffect]
    split
    · rename_i hSame
      subst hSame
      intro h
      cases h
      exact ⟨slice, start, hMem, hStart, rfl⟩
    · exact hCurrent
  · intro entry hEntry hEligible
    rcases hStarted entry hEntry hEligible with hPlanned | ⟨state, hMem⟩
    · cases hPlanned
    · rw [hEffect.verifierState]
      change _ ∈ materializeEligibleInitialGenerationEvents before definition loopSlices at hMem
      obtain ⟨first, rest, hSplit⟩ := List.append_of_mem hMem
      rw [hSplit, List.foldl_append, List.foldl_cons]
      refine List.foldlRecOn rest (motive := fun current : Option VerifierGenerationState =>
        current.isSome = true) _
        (by simp [WorkflowInstanceEvent.verifierEffect]) ?_
      intro current hCurrent event hEvent
      obtain ⟨_, _, rfl⟩ := hUpserts event
        (hSplit ▸ List.mem_append_right _ (List.mem_cons_of_mem _ hEvent))
      simp only [WorkflowInstanceEvent.verifierEffect]
      split
      · rfl
      · exact hCurrent

theorem GenerationsAfter.withVersion {definition : WorkflowDef} {loopSlices : LoopSlices}
    {before after : WorkflowInstance} (h : GenerationsAfter definition loopSlices before after)
    (version : Nat) : GenerationsAfter definition loopSlices before (after.withVersion version) :=
  ⟨h.tasks, h.status, h.kept, h.started, h.eligible⟩

/-- After the first generations have been started there is none left to
start. -/
theorem GenerationsAfter.generationsStarted {definition : WorkflowDef} {loopSlices : LoopSlices}
    {before after : WorkflowInstance} (h : GenerationsAfter definition loopSlices before after) :
    Lifecycle.GenerationsStarted definition loopSlices after := by
  intro entry hEntry
  cases hState : after.verifierStates.lookup entry.1 with
  | some state => exact eligibleStart_none_of_state (by rw [hState]; rfl)
  | none =>
      have hBefore : before.verifierStates.lookup entry.1 = none := by
        cases hOld : before.verifierStates.lookup entry.1 with
        | none => rfl
        | some state => rw [h.kept _ _ hOld] at hState; cases hState
      have hSame : eligibleStart after definition loopSlices entry.1 entry.2 =
          eligibleStart before definition loopSlices entry.1 entry.2 :=
        eligibleStart_congr h.tasks (hState.trans hBefore.symm)
      rw [hSame]
      cases hStart : eligibleStart before definition loopSlices entry.1 entry.2 with
      | none => rfl
      | some start =>
          have hSome := h.eligible entry hEntry (by rw [hStart]; rfl)
          rw [hState] at hSome
          cases hSome

end RelayFold
