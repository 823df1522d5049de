import RelayFold.Lifecycle.CalmCommits

/-! What the commits in a calm workflow leave of its attempts, one by one. -/
namespace RelayFold

open WorkflowEngine FallibleFold

/-- What a task records with its output, if it is a verifier. -/
def outputMetadata (taskDef : TaskDef) (generation : Nat) (output : Json) :
    Option VerifierAttemptMetadata := do
  let verifier ← taskVerifier taskDef
  let decided ← (verifierResultFromOutput output).toOption
  return verdictMetadata verifier generation decided

/-- The output and the metadata of the attempt come from the function of the
answers. -/
def Explained (answers : Answers) (definition : WorkflowDef) (context : Option LoopExecutionContext)
    (task : TaskInstance) : Prop :=
  ∃ taskDef schema output, definition.findTask task.taskDefId = some taskDef ∧
    taskDef.effectiveOutputSchema = .ok schema ∧
    output = answers task.taskDefId task.generationIndex task.inputData context ∧
    task.outputData = (if schema.isSome then some output else none) ∧
    task.verifierMetadata = outputMetadata taskDef task.generationIndex output

/-- An attempt that an answer has completed. -/
structure CompletedAs (answers : Answers) (definition : WorkflowDef) (before : WorkflowInstance)
    (task own : TaskInstance) : Prop where
  status : own.status = .completed
  taskDefId : own.taskDefId = task.taskDefId
  generationIndex : own.generationIndex = task.generationIndex
  humanInput : own.humanInput = task.humanInput
  earlyExit : own.earlyExit = task.earlyExit
  inputs : ∃ taskDef loopSlices inputs, loopSlices.Perm (computeLoopSlices definition) ∧
    definition.findTask task.taskDefId = some taskDef ∧
    inputs = (resolveInputs before definition task taskDef loopSlices).getD ⟨[], []⟩ ∧
    own.inputData = inputs.values ∧ own.inputMapping = inputs.mapping
  explained : task.outputData = none → task.verifierMetadata = none →
    Explained answers definition (loopExecutionContext before definition task) own
  outside : (∀ entry ∈ computeLoopSlices definition, task.taskDefId ∉ entry.2) →
    own.satisfactionStatus = .satisfied

/-- What a commit in a calm workflow leaves under a key. -/
inductive CalmChange (answers : Answers) (definition : WorkflowDef) (before : WorkflowInstance)
    (key : String) (b : TaskInstance) : Prop
  | unrecorded {a : TaskInstance} (ha : before.tasks.lookup key = some a) (h : UnrecordedTask a b)
  | first {taskDef : TaskDef} (hMem : taskDef ∈ definition.tasks)
      (hb : b = initialTask before definition taskDef)
  | fresh {verifierId taskId : String} {slice : List String} {generation : Nat}
      (hSome : before.tasks.isEmpty = false)
      (hSlice : (verifierId, slice) ∈ computeLoopSlices definition) (hMem : taskId ∈ slice)
      (hNone : before.tasks.lookup key = none) (hKey : key = makeTaskAttemptId taskId generation)
      (hb : b = .fresh taskId generation)
  | marked {a : TaskInstance} {mark : Option TaskSatisfactionStatus}
      (ha : before.tasks.lookup key = some a) (hb : b = a.marked mark)
      (hMark : mark = none ∨ mark = some .unsatisfied ∨ mark = some .satisfied)
  | failed {a : TaskInstance} {taskDef : TaskDef} {loopSlices : LoopSlices}
      (ha : before.tasks.lookup key = some a) (hFound : definition.findTask a.taskDefId = some taskDef)
      (hStatus : b.status = .failed) (hExit : b.earlyExit = a.earlyExit)
      (hAnswered : Answered a b
        ((resolveInputs before definition a taskDef loopSlices).getD ⟨[], []⟩))
  | completed {a : TaskInstance} (ha : before.tasks.lookup key = some a)
      (hRunning : a.status = .running) (h : CompletedAs answers definition before a b)

section Change

variable {answers : Answers} {ext : Externals} {definition : WorkflowDef}
  {before after : WorkflowInstance} {loopSlices : LoopSlices} {id key : String}
  {task own b : TaskInstance} {taskDef : TaskDef} {inputs : ResolvedTaskInputs} {answer : Answer}

/-- What a valid output makes of its attempt, a verdict included. -/
theorem completedTask_completedAs {schema : Option JsonSchema} {output : Json}
    {mark : Option TaskSatisfactionStatus} {metadata : Option VerifierAttemptMetadata}
    (hSlices : loopSlices.Perm (computeLoopSlices definition))
    (hFound : definition.findTask task.taskDefId = some taskDef)
    (hInputs : inputs = (resolveInputs before definition task taskDef loopSlices).getD ⟨[], []⟩)
    (hGives : answers.Gives task.taskDefId task.generationIndex inputs.values
      (loopExecutionContext before definition task) answer)
    (hAnswer : ValidAnswer ext taskDef schema answer output)
    (hOwn : own = { completedTask loopSlices taskDef inputs schema output false task with
      verifierMetadata := metadata }.marked mark)
    (hMetadata : task.verifierMetadata = none →
      metadata = outputMetadata taskDef task.generationIndex output)
    (hMark : (∀ entry ∈ computeLoopSlices definition, task.taskDefId ∉ entry.2) → mark = none) :
    CompletedAs answers definition before task own := by
  rw [hAnswer.answer] at hGives
  subst hOwn
  refine ⟨rfl, rfl, rfl, rfl, rfl, ⟨taskDef, loopSlices, inputs, hSlices, hFound, hInputs, rfl, rfl⟩,
    fun hBlank hUndecided => ?_, fun hOutside => ?_⟩
  · refine ⟨taskDef, schema, output, hFound, hAnswer.hasSchema, hGives, ?_, hMetadata hUndecided⟩
    rw [← hBlank]
    rfl
  · rw [hMark hOutside]
    refine if_neg fun hInside => ?_
    obtain ⟨entry, hEntry, hMem⟩ := isTaskInLoopSlice_iff.mp hInside
    exact hOutside entry (hSlices.mem_iff.mp hEntry) ((findTask_some hFound).2 ▸ hMem)

/-- Every attempt after a commit is one of before, changed, or a new one. -/
theorem CalmCommit.change (hDef : WellFormedDef definition)
    (h : CalmCommit answers ext definition before after) (hb : after.tasks.lookup key = some b) :
    CalmChange answers definition before key b := by
  cases h with
  | unrecorded h =>
      cases ha : before.tasks.lookup key with
      | none =>
          obtain ⟨taskDef, hMem, _, rfl⟩ := h.new key b ha hb
          exact .first hMem rfl
      | some a =>
          obtain ⟨b', hb', hTask⟩ := h.kept key a ha
          rw [hb] at hb'
          cases hb'
          exact .unrecorded ha hTask
  | @answered loopSlices id task taskDef inputs answer _ hSlices hTask hFound hRunning hInputs hGives
      hOutcome =>
      have hOther {own : TaskInstance} {mark : String → Option TaskSatisfactionStatus}
          {created : String → Option TaskInstance → Prop}
          (hEffect : DecisionEffect before after id own false mark created)
          (hMark : ∀ key, mark key = none ∨ mark key = some .unsatisfied ∨ mark key = some .satisfied)
          (hOwn : CalmChange answers definition before id own)
          (hNew : before.tasks.lookup key = none → created key (some b) →
            CalmChange answers definition before key b) :
          CalmChange answers definition before key b := by
        by_cases hKey : key = id
        · rw [hKey, hEffect.own] at hb
          cases hb
          exact hKey ▸ hOwn
        · cases ha : before.tasks.lookup key with
          | none => exact hNew ha (hb ▸ hEffect.new key ha)
          | some a =>
              rw [hEffect.kept key a hKey ha, TaskInstance.afterExit_false] at hb
              cases hb
              exact .marked ha rfl (hMark key)
      have hNothing (_ : before.tasks.lookup key = none) (hNone : NothingNew key (some b)) :
          CalmChange answers definition before key b := by
        cases hNone
      cases hOutcome with
      | failed hEffect hMark hStatus hAnswered hExit _ =>
          refine hOther hEffect (fun key => ?_)
            (.failed hTask hFound hStatus hExit (hInputs ▸ hAnswered)) hNothing
          exact (hMark key).imp_right .inl
      | @plain schema output hPlain hEffect _ hAnswer =>
          refine hOther hEffect (fun _ => .inl rfl) (.completed hTask hRunning
            (completedTask_completedAs hSlices hFound hInputs hGives hAnswer rfl
              (fun hUndecided => ?_) fun _ => rfl)) hNothing
          rw [outputMetadata, hPlain]
          exact hUndecided
      | @judged schema output verifier decided state hVerifier hDecided hVerdict _ _ _ hAnswer =>
          have hOwnSlice := hDef.verdict_slice hSlices hFound (by rw [hVerifier]; rfl)
          have hCompleted {mark : Option TaskSatisfactionStatus} : CalmChange answers definition before
              id (judged (verdictMetadata verifier task.generationIndex decided) mark
                (completedTask loopSlices taskDef inputs schema output false task)) := by
            refine .completed hTask hRunning (completedTask_completedAs hSlices hFound hInputs hGives
              hAnswer rfl (fun _ => ?_) fun hOutside => ?_)
            · rw [outputMetadata, hVerifier, hDecided]
              rfl
            · rw [← (findTask_some hFound).2] at hOutside
              exact absurd (hDef.verifier_mem hOwnSlice) (hOutside _ hOwnSlice)
          cases hVerdict with
          | accepted _ hEffect =>
              refine hOther hEffect (fun key => ?_) hCompleted hNothing
              exact (sliceMark_cases key).imp_right .inr
          | rejected _ hEffect =>
              refine hOther hEffect (fun key => (sliceMark_cases key).imp_right .inl) hCompleted
                fun hNone hNew => ?_
              rcases hNew with ⟨taskId, hMem, hKey, hFresh⟩ | ⟨_, hFalse⟩
              · cases hFresh
                exact .fresh (FiniteMap.isEmpty_eq_false_of_lookup _ hTask) hOwnSlice hMem hNone hKey rfl
              · cases hFalse

end Change

/-- What is known of the attempts of a calm workflow with this trigger input:
those that are open have recorded nothing, those of a task without sources hold
their inputs from their creation on, and a task in no slice has one attempt. -/
structure CalmAttempts (definition : WorkflowDef) (input : Option Json) (workflow : WorkflowInstance) :
    Prop where
  trigger : workflow.triggerInput = input
  calm : Calm workflow
  blank : ∀ id a, workflow.tasks.lookup id = some a → a.status = .pending ∨ a.status = .running →
    a.outputData = none ∧ a.verifierMetadata = none
  unbound : ∀ id a taskDef, workflow.tasks.lookup id = some a →
    definition.findTask a.taskDefId = some taskDef → inboundBindings definition taskDef.id = [] →
      a.inputMapping = [] ∧ a.inputData =
        if a.generationIndex = 1 then initialTaskInputData workflow definition taskDef else []
  single : ∀ id a, workflow.tasks.lookup id = some a →
    (∀ entry ∈ computeLoopSlices definition, a.taskDefId ∉ entry.2) → a.generationIndex = 1

section Attempts

variable {answers : Answers} {ext : Externals} {definition : WorkflowDef} {input : Option Json}
  {before after : WorkflowInstance} {key : String} {a b : TaskInstance}

/-- An attempt that no result has touched keeps its name, its generation and
its inputs. -/
theorem UnrecordedTask.kept (h : UnrecordedTask a b) : b.taskDefId = a.taskDefId ∧
    b.generationIndex = a.generationIndex ∧ b.inputData = a.inputData ∧
    b.inputMapping = a.inputMapping := by
  cases h <;> exact ⟨rfl, rfl, rfl, rfl⟩

theorem UnrecordedTask.calm (h : UnrecordedTask a b) (ha : CalmTask a) : CalmTask b := by
  cases h with
  | same => exact ha
  | started | recovered => exact ⟨ha.input, rfl, ha.exits, fun hSkipped => by cases hSkipped⟩
  | retried => exact ⟨ha.input, rfl, rfl, fun hSkipped => by cases hSkipped⟩

/-- A task without sources is executed with what its attempt holds. -/
theorem resolveInputs_held {workflow : WorkflowInstance} {taskDef : TaskDef}
    {loopSlices : LoopSlices} (h : inboundBindings definition taskDef.id = [])
    (hMapping : a.inputMapping = []) :
    (resolveInputs workflow definition a taskDef loopSlices).getD ⟨[], []⟩ = ⟨a.inputData, []⟩ := by
  unfold resolveInputs
  rw [h]
  cases hData : a.inputData with
  | nil => rfl
  | cons first rest => simp [hMapping]

/-- The attempt after a calm commit is calm too, whichever of the three changes
it went through. -/
theorem CalmChange.calm (h : CalmChange answers definition before key b) (hCalm : Calm before) :
    CalmTask b := by
  cases h with
  | unrecorded ha hTask => exact hTask.calm (hCalm _ _ ha)
  | first _ hb =>
      subst hb
      exact ⟨rfl, rfl, rfl, fun hSkipped => by cases hSkipped⟩
  | fresh _ _ _ _ _ hb =>
      subst hb
      exact ⟨rfl, rfl, rfl, fun hSkipped => by cases hSkipped⟩
  | marked ha hb _ =>
      subst hb
      exact ⟨(hCalm _ _ ha).input, (hCalm _ _ ha).asks, (hCalm _ _ ha).exits, (hCalm _ _ ha).skipped⟩
  | failed ha _ hStatus hExit hAnswered =>
      have hOld := hCalm _ _ ha
      refine ⟨hAnswered.humanInput.trans hOld.input, ?_, hExit.trans hOld.exits, ?_⟩
      · rw [hStatus]
        rfl
      · rw [hStatus]
        intro hSkipped
        cases hSkipped
  | completed ha _ hOwn =>
      have hOld := hCalm _ _ ha
      refine ⟨hOwn.humanInput.trans hOld.input, ?_, hOwn.earlyExit.trans hOld.exits, ?_⟩
      · rw [hOwn.status]
        rfl
      · rw [hOwn.status]
        intro hSkipped
        cases hSkipped

/-- An attempt that is pending or runs has no output and no verdict yet, before
the commit and after it. -/
theorem CalmChange.blank (h : CalmChange answers definition before key b)
    (hBlank : ∀ id a, before.tasks.lookup id = some a → a.status = .pending ∨ a.status = .running →
      a.outputData = none ∧ a.verifierMetadata = none)
    (hOpen : b.status = .pending ∨ b.status = .running) :
    b.outputData = none ∧ b.verifierMetadata = none := by
  cases h with
  | unrecorded ha hTask =>
      cases hTask with
      | same => exact hBlank _ _ ha hOpen
      | started hPending =>
          have hOld := hBlank _ _ ha (.inl hPending)
          exact hOld
      | retried => exact ⟨rfl, rfl⟩
      | recovered hRunning =>
          have hOld := hBlank _ _ ha (.inr hRunning)
          exact hOld
  | first _ hb =>
      subst hb
      exact ⟨rfl, rfl⟩
  | fresh _ _ _ _ _ hb =>
      subst hb
      exact ⟨rfl, rfl⟩
  | marked ha hb _ =>
      subst hb
      have hOld := hBlank _ _ ha hOpen
      exact hOld
  | failed _ _ hStatus _ _ =>
      rw [hStatus] at hOpen
      rcases hOpen with hOpen | hOpen <;> cases hOpen
  | completed _ _ hOwn =>
      rw [hOwn.status] at hOpen
      rcases hOpen with hOpen | hOpen <;> cases hOpen

/-- No calm commit changes the input that the instance was triggered with. -/
theorem CalmCommit.trigger (h : CalmCommit answers ext definition before after) :
    after.triggerInput = before.triggerInput := by
  cases h with
  | unrecorded h => exact h.trigger
  | answered hTrigger _ _ _ _ _ _ _ => exact hTrigger

theorem initialTaskInputData_congr (h : after.triggerInput = before.triggerInput)
    (taskDef : TaskDef) :
    initialTaskInputData after definition taskDef = initialTaskInputData before definition taskDef := by
  unfold initialTaskInputData
  rw [h]

/-- Every commit keeps what is known of the attempts. -/
theorem CalmAttempts.commit (hDef : WellFormedDef definition) (hSound : Sound definition before)
    (h : CalmAttempts definition input before)
    (hCommit : CalmCommit answers ext definition before after) :
    CalmAttempts definition input after := by
  refine ⟨hCommit.trigger.trans h.trigger, fun id b hb => (hCommit.change hDef hb).calm h.calm,
    fun id b hb => (hCommit.change hDef hb).blank h.blank, fun id b taskDef hb hFound hUnbound => ?_,
    fun id b hb hOutside => ?_⟩
  · rw [initialTaskInputData_congr hCommit.trigger]
    have hOld {a : TaskInstance} (ha : before.tasks.lookup id = some a)
        (hDefId : b.taskDefId = a.taskDefId) (hGeneration : b.generationIndex = a.generationIndex) :
        a.inputMapping = [] ∧ a.inputData = if b.generationIndex = 1 then
          initialTaskInputData before definition taskDef else [] := by
      rw [hGeneration]
      exact h.unbound id a taskDef ha (hDefId ▸ hFound) hUnbound
    cases hCommit.change hDef hb with
    | unrecorded ha hTask =>
        obtain ⟨hDefId, hGeneration, hData, hMapping⟩ := hTask.kept
        rw [hMapping, hData]
        exact hOld ha hDefId hGeneration
    | @first initial hMem hInitial =>
        subst hInitial
        have hSame : initial = taskDef := Option.some.inj ((hDef.findTask_mem hMem).symm.trans hFound)
        rw [hSame]
        exact ⟨rfl, rfl⟩
    | @fresh _ taskId _ generation hSome hSlice hMem hNone hKey hFresh =>
        subst hFresh
        obtain ⟨found, hTaskDef, rfl⟩ := List.mem_map.mp (slice_subset_taskIds hSlice taskId hMem)
        exact ⟨rfl, (if_neg ((hSound.initialized hSome).generation_ne hTaskDef
          (hKey ▸ hNone))).symm⟩
    | @marked a _ ha hMarked _ =>
        subst hMarked
        have hHeld := @hOld a ha rfl rfl
        exact hHeld
    | @failed a taskDef' loopSlices ha hFound' _ _ hAnswered =>
        have hHeld := hOld ha hAnswered.taskDefId hAnswered.generationIndex
        rw [← hAnswered.taskDefId, hFound] at hFound'
        cases hFound'
        have hInputs := @resolveInputs_held definition a before taskDef loopSlices hUnbound hHeld.1
        rw [hInputs] at hAnswered
        exact ⟨hAnswered.inputMapping, hAnswered.inputData.trans hHeld.2⟩
    | @completed a ha _ hOwn =>
        have hHeld := hOld ha hOwn.taskDefId hOwn.generationIndex
        obtain ⟨taskDef', loopSlices, inputs, _, hFound', hInputs, hData, hMapping⟩ := hOwn.inputs
        rw [← hOwn.taskDefId, hFound] at hFound'
        cases hFound'
        rw [resolveInputs_held hUnbound hHeld.1] at hInputs
        rw [hInputs] at hData hMapping
        exact ⟨hMapping, hData.trans hHeld.2⟩
  · cases hCommit.change hDef hb with
    | unrecorded ha hTask =>
        obtain ⟨hDefId, hGeneration, _⟩ := hTask.kept
        rw [hDefId] at hOutside
        rw [hGeneration]
        exact h.single id _ ha hOutside
    | first _ hInitial =>
        subst hInitial
        rfl
    | fresh _ hSlice hMem _ _ hFresh =>
        subst hFresh
        exact absurd hMem (hOutside _ hSlice)
    | marked ha hMarked _ =>
        subst hMarked
        have hOne := h.single id _ ha hOutside
        exact hOne
    | failed ha _ _ _ hAnswered =>
        rw [hAnswered.taskDefId] at hOutside
        rw [hAnswered.generationIndex]
        exact h.single id _ ha hOutside
    | completed ha _ hOwn =>
        rw [hOwn.taskDefId] at hOutside
        rw [hOwn.generationIndex]
        exact h.single id _ ha hOutside

end Attempts

end RelayFold
