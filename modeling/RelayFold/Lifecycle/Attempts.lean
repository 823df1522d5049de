import RelayFold.Core.AttemptIds
import RelayFold.Lifecycle.Generations

/-! What one commit does to the attempts: how their statuses move, and what
settles. -/
namespace RelayFold

open WorkflowEngine FallibleFold

def TaskStatus.isSettled : TaskStatus → Bool
  | completed | skipped | inputNeeded _ => true
  | _ => false

/-- The status changes each writer may make. -/
inductive StatusMove : Writer → TaskStatus → TaskStatus → Prop
  | refl (writer : Writer) (status : TaskStatus) : StatusMove writer status status
  | start : StatusMove .pass .pending .running
  | answer {status : TaskStatus} (hAnswered : status.isAnswered = true) :
      StatusMove .pass .running status
  | skip : StatusMove .pass .pending .skipped
  | recover : StatusMove .recovery .running .pending
  | retry : StatusMove .retry .failed .pending

/-- What a commit leaves of an attempt. -/
structure Moves (writer : Writer) (a b : TaskInstance) : Prop where
  status : StatusMove writer a.status b.status
  taskDefId : b.taskDefId = a.taskDefId
  generationIndex : b.generationIndex = a.generationIndex
  humanInput : b.humanInput = a.humanInput
  settled : a.status.isSettled = true → b = { a with satisfactionStatus := b.satisfactionStatus }

theorem Moves.refl (writer : Writer) (a : TaskInstance) : Moves writer a a :=
  ⟨.refl _ _, rfl, rfl, rfl, fun _ => rfl⟩

/-- An attempt whose status and satisfaction alone may have changed. -/
def Restatused (a b : TaskInstance) : Prop :=
  b = { a with status := b.status, satisfactionStatus := b.satisfactionStatus }

/-- An attempt with a new status only has made the move that the two statuses
tell. -/
theorem Restatused.moves {writer : Writer} {a b : TaskInstance} (h : Restatused a b)
    (hStatus : StatusMove writer a.status b.status)
    (hSettled : a.status.isSettled = true → b.status = a.status) : Moves writer a b := by
  refine ⟨hStatus, by rw [h], by rw [h], by rw [h], fun hOld => ?_⟩
  have hSame := hSettled hOld
  unfold Restatused at h
  rw [hSame] at h
  exact h

/-- A new attempt as a result leaves it: pending. -/
def FreshAttempt (key : String) (b : TaskInstance) : Prop :=
  ∃ taskDefId generation, key = makeTaskAttemptId taskDefId generation ∧
    Restatused (.fresh taskDefId generation) b ∧ b.status = .pending

/-- The attempts after a batch of result events, from those before it. -/
structure ResultAfter (events : List WorkflowInstanceEvent) (before after : WorkflowInstance)
    (id : String) : Prop where
  answered : ∀ a, before.tasks.lookup id = some a → a.status = .running →
    ∃ b, after.tasks.lookup id = some b ∧ b.taskDefId = a.taskDefId ∧
      b.generationIndex = a.generationIndex ∧ b.humanInput = a.humanInput ∧
      b.status.isAnswered = true ∧ .taskStatusChanged id b.status ∈ events
  other : ∀ key a, key ≠ id → before.tasks.lookup key = some a →
    ∃ b, after.tasks.lookup key = some b ∧ Restatused a b ∧
      (b.status = a.status ∨ a.status = .pending ∧ b.status = .skipped)
  fresh : ∀ key b, before.tasks.lookup key = none → after.tasks.lookup key = some b →
    FreshAttempt key b

section ResultAfter

variable {workflow reduced : WorkflowInstance} {id : String} {final : WorkflowStatus}
  {events : List WorkflowInstanceEvent}

/-- What a result leaves at a key can be computed from its events and the
attempt that was there. -/
theorem ResultEvents.lookup
    (hReduce : reduceWorkflowInstanceEvents (some workflow) events = .ok reduced)
    (hEvents : ResultEvents workflow id final events) (key : String) :
    reduced.tasks.lookup key =
      events.foldl (fun current event => event.taskEffect key current)
        (workflow.tasks.lookup key) :=
  (reduceWorkflowInstanceEvents_effected hReduce).task
    (fun event h => WorkflowInstanceEvent.isLocal_of_isPassEvent (hEvents.all event h).isPassEvent)
    key

/-- On the answered attempt every result event keeps what names it. -/
theorem ResultEvent.taskEffect_self {event : WorkflowInstanceEvent} {a b : TaskInstance}
    (hEvent : ResultEvent workflow id final event) (hTask : workflow.tasks.lookup id = some a)
    (hRunning : a.status = .running)
    (hNew : ∀ task, event ≠ .taskMaterialized id task) (P : TaskStatus → Prop)
    (hAnswered : ∀ status : TaskStatus, status.isAnswered = true →
      event = .taskStatusChanged id status → P status)
    (h : b.taskDefId = a.taskDefId ∧ b.generationIndex = a.generationIndex ∧
      b.humanInput = a.humanInput ∧ P b.status) :
    ∃ c, event.taskEffect id (some b) = some c ∧ c.taskDefId = a.taskDefId ∧
      c.generationIndex = a.generationIndex ∧ c.humanInput = a.humanInput ∧ P c.status := by
  cases hEvent with
  | input _ | mapping _ | output _ | earlyExit | metadata _ =>
      refine ⟨_, if_pos rfl, ?_⟩
      exact h
  | answered hStatus => exact ⟨_, if_pos rfl, h.1, h.2.1, h.2.2.1, hAnswered _ hStatus rfl⟩
  | satisfaction other status =>
      simp only [WorkflowInstanceEvent.taskEffect]
      split
      · exact ⟨_, rfl, h⟩
      · exact ⟨_, rfl, h⟩
  | skipped hOther hPending =>
      simp only [WorkflowInstanceEvent.taskEffect]
      split
      · rename_i hSame
        rw [← hSame, hTask] at hOther
        cases hOther
        rw [hRunning] at hPending
        cases hPending
      · exact ⟨_, rfl, h⟩
  | materialized taskDefId generation =>
      simp only [WorkflowInstanceEvent.taskEffect]
      split
      · rename_i hSame
        exact absurd rfl (hSame ▸ hNew _)
      · exact ⟨_, rfl, h⟩
  | verifierUpserted _ _ | feedback _ _ | verifierStatus _ _ _ _ | workflowStatus =>
      exact ⟨_, rfl, h⟩

/-- An event of a result changes other attempts in two ways at most: a pending
one may be skipped, and a mark may be set. -/
theorem ResultEvent.taskEffect_other {event : WorkflowInstanceEvent} {key : String}
    {a b : TaskInstance} (hEvent : ResultEvent workflow id final event) (hKey : key ≠ id)
    (hTask : workflow.tasks.lookup key = some a)
    (hNew : ∀ task, event ≠ .taskMaterialized key task)
    (h : Restatused a b ∧ (b.status = a.status ∨ a.status = .pending ∧ b.status = .skipped)) :
    ∃ c, event.taskEffect key (some b) = some c ∧ Restatused a c ∧
      (c.status = a.status ∨ a.status = .pending ∧ c.status = .skipped) := by
  cases hEvent with
  | input _ | mapping _ | output _ | earlyExit | metadata _ | answered _ =>
      exact ⟨_, if_neg hKey, h⟩
  | satisfaction other status =>
      simp only [WorkflowInstanceEvent.taskEffect]
      split
      · refine ⟨_, rfl, ?_, h.2⟩
        rw [h.1]
        rfl
      · exact ⟨_, rfl, h⟩
  | skipped hOther hPending =>
      simp only [WorkflowInstanceEvent.taskEffect]
      split
      · rename_i hSame
        rw [← hSame, hTask] at hOther
        cases hOther
        refine ⟨_, rfl, ?_, .inr ⟨hPending, rfl⟩⟩
        rw [h.1]
        rfl
      · exact ⟨_, rfl, h⟩
  | materialized taskDefId generation =>
      simp only [WorkflowInstanceEvent.taskEffect]
      split
      · rename_i hSame
        exact absurd rfl (hSame ▸ hNew _)
      · exact ⟨_, rfl, h⟩
  | verifierUpserted _ _ | feedback _ _ | verifierStatus _ _ _ _ | workflowStatus =>
      exact ⟨_, rfl, h⟩

/-- Where there was no attempt, a result leaves a fresh one or none. -/
theorem ResultEvent.taskEffect_fresh {event : WorkflowInstanceEvent} {key : String}
    {current : Option TaskInstance} (hEvent : ResultEvent workflow id final event) (hKey : key ≠ id)
    (hTask : workflow.tasks.lookup key = none) (h : ∀ b, current = some b → FreshAttempt key b) :
    ∀ b, event.taskEffect key current = some b → FreshAttempt key b := by
  cases hEvent with
  | input _ | mapping _ | output _ | earlyExit | metadata _ | answered _ =>
      simp only [WorkflowInstanceEvent.taskEffect, if_neg hKey]
      exact h
  | satisfaction other status =>
      simp only [WorkflowInstanceEvent.taskEffect]
      split
      · intro b hb
        obtain ⟨c, hc, rfl⟩ := Option.map_eq_some_iff.mp hb
        obtain ⟨taskDefId, generation, hId, hFresh, hPending⟩ := h c hc
        refine ⟨taskDefId, generation, hId, ?_, hPending⟩
        rw [hFresh]
        rfl
      · exact h
  | skipped hOther hPending =>
      simp only [WorkflowInstanceEvent.taskEffect]
      split
      · rename_i hSame
        rw [← hSame, hTask] at hOther
        cases hOther
      · exact h
  | materialized taskDefId generation =>
      simp only [WorkflowInstanceEvent.taskEffect]
      split
      · rename_i hSame
        intro b hb
        cases hb
        exact ⟨taskDefId, generation, hSame, rfl, rfl⟩
      · exact h
  | verifierUpserted _ _ | feedback _ _ | verifierStatus _ _ _ _ | workflowStatus => exact h

/-- What a batch materializes did not exist before, or the reducer would have
refused it. -/
theorem ResultEvents.new
    (hReduce : reduceWorkflowInstanceEvents (some workflow) events = .ok reduced)
    {key : String} {a : TaskInstance} (hKey : workflow.tasks.lookup key = some a) :
    ∀ event ∈ events, ∀ task, event ≠ .taskMaterialized key task := by
  rintro event hMem task rfl
  have hNone := foldlM_materialized_new hReduce hMem
  rw [hKey] at hNone
  cases hNone

/-- Part of a result keeps what names the answered attempt; its status is as
before or one that the part sets. -/
theorem ResultEvents.foldl_self
    (hReduce : reduceWorkflowInstanceEvents (some workflow) events = .ok reduced)
    (hEvents : ResultEvents workflow id final events) {a : TaskInstance}
    (hTask : workflow.tasks.lookup id = some a) (hRunning : a.status = .running)
    (P : TaskStatus → Prop) {batch : List WorkflowInstanceEvent} (hSub : batch ⊆ events)
    (hP : ∀ status : TaskStatus, status.isAnswered = true →
      .taskStatusChanged id status ∈ batch → P status)
    {b : TaskInstance} (hb : b.taskDefId = a.taskDefId ∧
      b.generationIndex = a.generationIndex ∧ b.humanInput = a.humanInput ∧ P b.status) :
    ∃ c, batch.foldl (fun current event => event.taskEffect id current) (some b) = some c ∧
      c.taskDefId = a.taskDefId ∧ c.generationIndex = a.generationIndex ∧
      c.humanInput = a.humanInput ∧ P c.status := by
  refine List.foldlRecOn batch (motive := fun current => ∃ c, current = some c ∧
    c.taskDefId = a.taskDefId ∧ c.generationIndex = a.generationIndex ∧
    c.humanInput = a.humanInput ∧ P c.status) _ ⟨b, rfl, hb⟩ ?_
  rintro _ ⟨c, rfl, hc⟩ event hIn
  exact (hEvents.all event (hSub hIn)).taskEffect_self hTask hRunning
    (ResultEvents.new hReduce hTask event (hSub hIn)) P
    (fun status hAnswered h => hP status hAnswered (h ▸ hIn)) hc

/-- The answered attempt ends with a status of its last change on, whatever
holds of them. -/
theorem ResultEvents.status_after {before rest : List WorkflowInstanceEvent} {status : TaskStatus}
    (hReduce : reduceWorkflowInstanceEvents (some workflow)
      (before ++ .taskStatusChanged id status :: rest) = .ok reduced)
    (hEvents : ResultEvents workflow id final (before ++ .taskStatusChanged id status :: rest))
    {a : TaskInstance} (hTask : workflow.tasks.lookup id = some a) (hRunning : a.status = .running)
    (P : TaskStatus → Prop) (hStatus : P status)
    (hRest : ∀ later : TaskStatus, later.isAnswered = true →
      .taskStatusChanged id later ∈ rest → P later) :
    ∃ b, reduced.tasks.lookup id = some b ∧ b.taskDefId = a.taskDefId ∧
      b.generationIndex = a.generationIndex ∧ b.humanInput = a.humanInput ∧ P b.status := by
  obtain ⟨b, hBefore, hb⟩ := hEvents.foldl_self hReduce hTask hRunning (fun _ => True)
    (List.subset_append_left ..) (fun _ _ _ => trivial) (b := a) ⟨rfl, rfl, rfl, trivial⟩
  have hLater : rest ⊆ before ++ .taskStatusChanged id status :: rest :=
    List.subset_append_of_subset_right _ (List.subset_cons_self ..)
  obtain ⟨c, hFinal, hc⟩ := hEvents.foldl_self hReduce hTask hRunning P hLater hRest
    (b := { b with status := status }) ⟨hb.1, hb.2.1, hb.2.2.1, hStatus⟩
  refine ⟨c, ?_, hc⟩
  rw [hEvents.lookup hReduce, List.foldl_append, List.foldl_cons, hTask, hBefore]
  simpa [WorkflowInstanceEvent.taskEffect] using hFinal

/-- The result of an attempt, as the reducer leaves it: the attempt answered,
the others skipped, marked or new. -/
theorem ResultEvents.after
    (hReduce : reduceWorkflowInstanceEvents (some workflow) events = .ok reduced)
    (hEvents : ResultEvents workflow id final events) (hTask : (workflow.tasks.lookup id).isSome)
    (hAnswers : ∃ status : TaskStatus, status.isAnswered = true ∧
      .taskStatusChanged id status ∈ events) : ResultAfter events workflow reduced id := by
  have hLookup := hEvents.lookup hReduce
  have hNew {key : String} {a : TaskInstance} (hKey : workflow.tasks.lookup key = some a) :=
    ResultEvents.new hReduce hKey
  constructor
  · intro a ha hRunning
    obtain ⟨status, hAnswered, hMem⟩ := hAnswers
    obtain ⟨before, rest, rfl⟩ := List.append_of_mem hMem
    exact hEvents.status_after hReduce ha hRunning (fun final => final.isAnswered = true ∧
      .taskStatusChanged id final ∈ before ++ .taskStatusChanged id status :: rest)
      ⟨hAnswered, hMem⟩ fun _ hLater h =>
        ⟨hLater, List.mem_append_right _ (List.mem_cons_of_mem _ h)⟩
  · intro key a hKey ha
    rw [hLookup, ha]
    refine List.foldlRecOn events (motive := fun current => ∃ b, current = some b ∧
      Restatused a b ∧ (b.status = a.status ∨ a.status = .pending ∧ b.status = .skipped))
      _ ⟨a, rfl, rfl, .inl rfl⟩ ?_
    rintro _ ⟨b, rfl, hb⟩ event hIn
    exact (hEvents.all event hIn).taskEffect_other hKey ha (hNew ha event hIn) hb
  · intro key b hNone
    rw [hLookup, hNone]
    have hKey : key ≠ id := by
      rintro rfl
      rw [hNone] at hTask
      cases hTask
    refine List.foldlRecOn events (motive := fun current =>
      ∀ b, current = some b → FreshAttempt key b) _ (fun _ h => by cases h) ?_ b
    intro current h event hIn
    exact (hEvents.all event hIn).taskEffect_fresh hKey hNone h

/-- The answered attempt holds the inputs that its result records. -/
theorem ResultEvents.inputs_after {inputs : ResolvedTaskInputs} {rest : List WorkflowInstanceEvent}
    (hReduce : reduceWorkflowInstanceEvents (some workflow) (inputEvents id inputs ++ rest) =
      .ok reduced)
    (hEvents : ResultEvents workflow id final (inputEvents id inputs ++ rest))
    (hRest : ∀ event ∈ rest, event.isInput = false) {a : TaskInstance}
    (hTask : workflow.tasks.lookup id = some a) :
    ∃ b, reduced.tasks.lookup id = some b ∧ b.inputData = inputs.values ∧
      b.inputMapping = inputs.mapping := by
  rw [hEvents.lookup hReduce, hTask, List.foldl_append]
  refine List.foldlRecOn rest (motive := fun current => ∃ b : TaskInstance, current = some b ∧
    b.inputData = inputs.values ∧ b.inputMapping = inputs.mapping) _ ?_ ?_
  · exact ⟨_, by simp [inputEvents, WorkflowInstanceEvent.taskEffect]; rfl, rfl, rfl⟩
  rintro _ ⟨b, rfl, hb⟩ event hEvent
  have hNotInput := hRest event hEvent
  have hMem : event ∈ inputEvents id inputs ++ rest := List.mem_append_right _ hEvent
  have hNew : ∀ task, event ≠ .taskMaterialized id task := by
    rintro task rfl
    have hNone := foldlM_materialized_new hReduce hMem
    rw [hTask] at hNone
    cases hNone
  cases hEvents.all event hMem with
  | input _ | mapping _ => cases hNotInput
  | answered _ | output _ | earlyExit | metadata _ => exact ⟨_, if_pos rfl, hb⟩
  | satisfaction _ _ | skipped _ _ =>
      simp only [WorkflowInstanceEvent.taskEffect]
      split
      · exact ⟨_, rfl, hb⟩
      · exact ⟨_, rfl, hb⟩
  | materialized taskDefId generation =>
      simp only [WorkflowInstanceEvent.taskEffect]
      split
      · rename_i hSame
        exact absurd rfl (hSame ▸ hNew _)
      · exact ⟨_, rfl, hb⟩
  | verifierUpserted _ _ | feedback _ _ | verifierStatus _ _ _ _ | workflowStatus =>
      exact ⟨_, rfl, hb⟩

end ResultAfter

/-- The attempts after a commit. -/
structure AttemptsAfter (writer : Writer) (before after : WorkflowInstance) : Prop where
  kept : ∀ key a, before.tasks.lookup key = some a →
    ∃ b, after.tasks.lookup key = some b ∧ Moves writer a b
  fresh : ∀ key b, before.tasks.lookup key = none → after.tasks.lookup key = some b →
    b.status = .pending ∧ key = makeTaskAttemptId b.taskDefId b.generationIndex

theorem reduce_single {workflow reduced : WorkflowInstance} {event : WorkflowInstanceEvent}
    (h : reduceWorkflowInstanceEvents (some workflow) [event] = .ok reduced) :
    applyWorkflowInstanceEvent workflow event = .ok reduced := by
  obtain ⟨_, hApply, hNil⟩ := foldlM_cons_ok.mp h
  cases hNil
  exact hApply

/-- A write that leaves the attempts alone moves none of them. -/
theorem AttemptsAfter.of_tasks_eq {writer : Writer} {before after : WorkflowInstance}
    (h : after.tasks = before.tasks) : AttemptsAfter writer before after := by
  constructor
  · intro key a ha
    exact ⟨a, by rw [h, ha], .refl _ _⟩
  · intro key b hNone hb
    rw [h, hNone] at hb
    cases hb

/-- A commit that changes the attempts of a list. -/
theorem AttemptsAfter.of_modify {writer : Writer} {before after : WorkflowInstance}
    (ids : List String) (change : TaskInstance → TaskInstance)
    (h : ∀ key, after.tasks.lookup key =
      if key ∈ ids then (before.tasks.lookup key).map change else before.tasks.lookup key)
    (hMoves : ∀ key ∈ ids, ∀ a, before.tasks.lookup key = some a → Moves writer a (change a)) :
    AttemptsAfter writer before after := by
  constructor
  · intro key a ha
    rw [h, ha]
    by_cases hKey : key ∈ ids
    · exact ⟨change a, if_pos hKey, hMoves key hKey a ha⟩
    · exact ⟨a, if_neg hKey, .refl _ _⟩
  · intro key b hNone hb
    rw [h, hNone] at hb
    split at hb <;> cases hb

/-- The result of a running attempt makes legal moves only: from running to its
answer, and from pending to skipped for others. -/
theorem ResultAfter.attemptsAfter {events : List WorkflowInstanceEvent}
    {before after : WorkflowInstance} {id : String} {task : TaskInstance}
    (h : ResultAfter events before after id)
    (hTask : before.tasks.lookup id = some task) (hRunning : task.status = .running) :
    AttemptsAfter .pass before after := by
  constructor
  · intro key a ha
    by_cases hKey : key = id
    · subst hKey
      rw [hTask] at ha
      cases ha
      obtain ⟨b, hb, hDef, hGeneration, hInput, hAnswered, _⟩ := h.answered task hTask hRunning
      refine ⟨b, hb, ?_, hDef, hGeneration, hInput, fun hSettled => ?_⟩
      · rw [hRunning]
        exact .answer hAnswered
      · rw [hRunning] at hSettled
        cases hSettled
    · obtain ⟨b, hb, hRestatused, hStatus⟩ := h.other key a hKey ha
      refine ⟨b, hb, ?_⟩
      rcases hStatus with hSame | ⟨hPending, hSkipped⟩
      · exact hRestatused.moves (hSame ▸ .refl _ _) fun _ => hSame
      · refine hRestatused.moves ?_ fun hSettled => ?_
        · rw [hPending, hSkipped]
          exact .skip
        · rw [hPending] at hSettled
          cases hSettled
  · intro key b hNone hb
    obtain ⟨taskDefId, generation, hKey, hFresh, hPending⟩ := h.fresh key b hNone hb
    refine ⟨hPending, ?_⟩
    rw [hFresh]
    exact hKey

/-- The attempts that a first pass creates are those of generation 1, with the
input that the trigger gives them. -/
theorem initialTaskEvents_lookup {definition : WorkflowDef} {workflow reduced : WorkflowInstance}
    (hReduce : reduceWorkflowInstanceEvents (some workflow)
      (initialTaskEvents workflow definition) = .ok reduced) {key : String} {b : TaskInstance}
    (hNone : workflow.tasks.lookup key = none) (hb : reduced.tasks.lookup key = some b) :
    ∃ taskDef ∈ definition.tasks, key = makeTaskAttemptId taskDef.id 1 ∧
      b = initialTask workflow definition taskDef := by
  rw [(reduceWorkflowInstanceEvents_effected hReduce).task (by simp [initialTaskEvents,
    WorkflowInstanceEvent.isLocal]), hNone] at hb
  refine List.foldlRecOn (initialTaskEvents workflow definition)
    (motive := fun current => current = some b → ∃ taskDef ∈ definition.tasks,
      key = makeTaskAttemptId taskDef.id 1 ∧ b = initialTask workflow definition taskDef) _
    (fun h => by cases h) ?_ hb
  intro current hCurrent event hEvent
  obtain ⟨taskDef, hMem, rfl⟩ := List.mem_map.mp hEvent
  simp only [WorkflowInstanceEvent.taskEffect]
  split
  · rename_i hKey
    intro h
    cases h
    exact ⟨taskDef, hMem, hKey, rfl⟩
  · exact hCurrent

/-- What a pass holds of the attempt that it starts: the attempt itself, its
task in the definition and the inputs resolved for it. -/
theorem startedTask_eq {workflow : WorkflowInstance} {definition : WorkflowDef}
    {loopSlices : LoopSlices} {id : String} {started : StartedTask}
    (h : startedTask workflow definition loopSlices id = some started) :
    started.taskAttemptId = id ∧ workflow.tasks.lookup id = some started.task ∧
      definition.findTask started.task.taskDefId = some started.taskDef ∧
      started.inputs = (resolveInputs workflow definition started.task started.taskDef
        loopSlices).getD ⟨[], []⟩ := by
  unfold startedTask at h
  obtain ⟨task, hTask, h⟩ := Option.bind_eq_some_iff.mp h
  obtain ⟨taskDef, hDef, h⟩ := Option.bind_eq_some_iff.mp h
  cases h
  exact ⟨rfl, hTask, hDef, rfl⟩

/-- What a commit does to the attempts. -/
theorem Write.attemptsAfter {ext : Externals} {definition : WorkflowDef} {l : Lifecycle}
    {writer : Writer} {events : List WorkflowInstanceEvent} {plan : List String}
    {reduced : WorkflowInstance} (hWrite : Write ext definition l writer events plan)
    (hReduce : reduceWorkflowInstanceEvents (some l.stored) events = .ok reduced) :
    AttemptsAfter writer l.stored reduced := by
  have hReset (id : String) {pinned : Option WorkerHostId} {next : WorkflowInstance}
      (h : l.stored.status = .failed ∧
        (∃ task, l.stored.tasks.lookup id = some task ∧ task.status = .failed) ∧
        next = { l.stored with
          tasks := l.stored.tasks.modify id TaskInstance.resetForRetry, status := .pending }) :
      AttemptsAfter .retry l.stored { next with pinnedWorkerHost := pinned } := by
    obtain ⟨_, ⟨task, hTask, hFailed⟩, rfl⟩ := h
    refine .of_modify [id] TaskInstance.resetForRetry (fun key => ?_) fun key hKey a ha => ?_
    · rw [FiniteMap.lookup_modify]
      simp only [List.mem_singleton]
    · rw [List.mem_singleton.mp hKey, hTask] at ha
      cases ha
      refine ⟨?_, rfl, rfl, rfl, fun hSettled => ?_⟩
      · rw [hFailed]
        exact .retry
      · rw [hFailed] at hSettled
        cases hSettled
  cases hWrite with
  | begin _ | complete _ _ | pause _ | resume _ | hostLost _ =>
      cases reduce_single hReduce
      exact .of_tasks_eq rfl
  | initialTasks hStatus hEmpty =>
      have hNone := (FiniteMap.isEmpty_iff _).mp hEmpty
      constructor
      · intro key a ha
        rw [hNone] at ha
        cases ha
      · intro key b _ hb
        obtain ⟨taskDef, _, rfl, rfl⟩ := initialTaskEvents_lookup hReduce (hNone key) hb
        exact ⟨rfl, rfl⟩
  | initialGenerations _ hTasks hSlices =>
      exact .of_tasks_eq (initialGenerations_after hTasks hSlices hReduce).tasks
  | @start id task _ _ hTask hPending =>
      refine .of_modify [id] ({ · with status := .running }) (fun key => ?_) fun key hKey a ha => ?_
      · rw [taskMut_lookup (reduce_single hReduce) key]
        simp only [List.mem_singleton]
      · rw [List.mem_singleton.mp hKey, hTask] at ha
        cases ha
        refine ⟨?_, rfl, rfl, rfl, fun hSettled => ?_⟩
        · rw [hPending]
          exact .start
        · rw [hPending] at hSettled
          cases hSettled
  | inputFailure hStatus hSlices hStarted hRunning hInvalid =>
      obtain ⟨_, hTask, _⟩ := startedTask_eq hStarted
      have hAfter := (failureEvents_result _).after hReduce (by rw [hTask]; rfl)
        ⟨.failed, rfl, by simp [failureEvents, failTaskEvents]⟩
      exact hAfter.attemptsAfter hTask hRunning
  | result hStatus hSlices hStarted hRunning hResult =>
      obtain ⟨_, hTask, _⟩ := startedTask_eq hStarted
      have hAfter := hResult.result.after hReduce (by rw [hTask]; rfl) hResult.answers
      exact hAfter.attemptsAfter hTask hRunning
  | humanInput hStatus hTask hWaiting hDef hAgent =>
      obtain ⟨task, _, _, hId, hNew, rfl⟩ := humanInputSubmitted_ok (reduce_single hReduce)
      constructor
      · intro key a ha
        refine ⟨a, ?_, .refl _ _⟩
        rw [FiniteMap.lookup_insert_eq, if_neg, ha]
        rintro rfl
        rw [hNew] at ha
        cases ha
      · intro key b hNone hb
        rw [FiniteMap.lookup_insert_eq] at hb
        split at hb
        · rename_i hKey
          cases hb
          exact ⟨rfl, hKey.trans hId⟩
        · rw [hNone] at hb
          cases hb
  | @retry id =>
      exact hReset id (resetFailedTaskForRetry_ok (reduce_single hReduce))
  | @forceRetry id previous target lost =>
      obtain ⟨middle, hMiddle, rfl⟩ := taskForceRetryRequested_ok (reduce_single hReduce)
      exact hReset id (resetFailedTaskForRetry_ok hMiddle)
  | recover ids =>
      refine .of_modify ids TaskInstance.recovered
        ((applyWorkflowInstanceEvent_effected (reduce_single hReduce)).task rfl) fun key _ a _ => ?_
      unfold TaskInstance.recovered
      split
      · rename_i hRunning
        refine ⟨?_, rfl, rfl, rfl, fun hSettled => ?_⟩
        · rw [hRunning]
          exact .recover
        · rw [hRunning] at hSettled
          cases hSettled
      · exact .refl _ _

end RelayFold
