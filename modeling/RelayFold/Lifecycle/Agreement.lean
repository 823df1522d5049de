import RelayFold.Lifecycle.VerdictStates

/-! Two calm runs of one workflow with the same answers agree on every attempt
that both have completed. -/
namespace RelayFold

open WorkflowEngine FallibleFold

/-- The attempts that both snapshots hold completed are the same, but for their
satisfaction. -/
def Matches (one two : WorkflowInstance) : Prop :=
  ∀ key a b, one.tasks.lookup key = some a → two.tasks.lookup key = some b →
    a.status = .completed → b.status = .completed →
      b = { a with satisfactionStatus := b.satisfactionStatus }

theorem Matches.symm {one two : WorkflowInstance} (h : Matches one two) : Matches two one := by
  intro key b a hb ha hCompleted hOther
  rw [h key a b ha hb hOther hCompleted]

/-- Lists that are related to the same one are equal, if what is related to one
item is. -/
theorem forall₂_unique {α β : Type} {R S : α → β → Prop} {items : List α} {xs ys : List β}
    (hxs : List.Forall₂ R items xs) (hys : List.Forall₂ S items ys)
    (hUnique : ∀ a x y, R a x → S a y → y = x) : ys = xs := by
  induction hxs generalizing ys with
  | nil =>
      cases hys
      rfl
  | cons hx _ ih =>
      cases hys with
      | cons hy hRest => rw [hUnique _ _ _ hx hy, ih hRest]

section Agreement

variable {answers : Answers} {definition : WorkflowDef} {input : Option Json} {l r : Lifecycle}
  {verifierId sourceId key : String} {slice : List String} {generation : Nat}
  {judge a b c source source' : TaskInstance}

/-- After a generation that one of the runs has accepted, the other has
none. -/
theorem Matches.last_accepted (h : Matches l.stored r.stored) (hr : CalmState definition input r)
    (hl : CalmState definition input l) (hSlice : (verifierId, slice) ∈ computeLoopSlices definition)
    (hMem : verifierId ∈ slice)
    (hJudge : l.stored.tasks.lookup (makeTaskAttemptId verifierId generation) = some judge)
    (hAccepted : HasAccepted judge) {later : Nat} (hLater : HasAttempt r.stored verifierId later) :
    later ≤ generation := by
  by_contra hAfter
  obtain ⟨found, hFound, hCompleted, metadata, hMetadata, hRejected⟩ :=
    (hr.sliceInv hSlice).inStep.rejected_below hLater (hl.numbered hSlice hMem (.of_lookup hJudge)).1
      (Nat.not_le.mp hAfter)
  obtain ⟨hJudged, recorded, hRecorded, hStatus⟩ := hAccepted
  rw [h _ judge found hJudge hFound hJudged hCompleted] at hMetadata
  rw [show judge.verifierMetadata = some metadata from hMetadata] at hRecorded
  cases hRecorded
  rw [hRejected] at hStatus
  rcases hStatus with hStatus | hStatus <;> cases hStatus

/-- An attempt that both runs have completed has consumed the same
generations. -/
theorem Matches.source_generation (hDef : WellFormedDef definition)
    (h : Matches l.stored r.stored) (hl : CalmState definition input l)
    (hr : CalmState definition input r) (hSource : IsSource definition l.stored a sourceId source)
    (hSource' : IsSource definition r.stored c sourceId source')
    (hDefId : c.taskDefId = a.taskDefId) (hGeneration : c.generationIndex = a.generationIndex) :
    source'.generationIndex = source.generationIndex := by
  by_cases hInside : ∃ entry ∈ computeLoopSlices definition, a.taskDefId ∈ entry.2 ∧ sourceId ∈ entry.2
  · obtain ⟨entry, hEntry, hMem, hSourceMem⟩ := hInside
    rw [hSource.inside entry hEntry hMem hSourceMem,
      hSource'.inside entry hEntry (hDefId ▸ hMem) hSourceMem, hGeneration]
  · have hOutside (entry) (hEntry : entry ∈ computeLoopSlices definition)
        (hMem : a.taskDefId ∈ entry.2) : sourceId ∉ entry.2 :=
      fun hSourceMem => hInside ⟨entry, hEntry, hMem, hSourceMem⟩
    have hSatisfied := hSource.outside hOutside
    have hSatisfied' := hSource'.outside (hDefId ▸ hOutside)
    have hId := (makeTaskAttemptId_inj.mp (hl.sound.key _ source hSource.found)).1
    have hId' := (makeTaskAttemptId_inj.mp (hr.sound.key _ source' hSource'.found)).1
    by_cases hLooped : ∃ entry ∈ computeLoopSlices definition, sourceId ∈ entry.2
    · -- Both are of the generation that the verifier of the slice has accepted.
      obtain ⟨⟨verifierId, slice⟩, hSlice, hMem⟩ := hLooped
      obtain ⟨judge, hJudge, hAccepted⟩ :=
        hl.fed.earned _ _ hSlice _ source hSource.found (hId ▸ hMem) hSatisfied
      obtain ⟨judge', hJudge', hAccepted'⟩ :=
        hr.fed.earned _ _ hSlice _ source' hSource'.found (hId' ▸ hMem) hSatisfied'
      have hVerifier := hDef.verifier_mem hSlice
      exact Nat.le_antisymm
        (h.last_accepted hr hl hSlice hVerifier hJudge hAccepted (.of_lookup hJudge'))
        (h.symm.last_accepted hl hr hSlice hVerifier hJudge' hAccepted' (.of_lookup hJudge))
    · have hAlone (entry) (hEntry : entry ∈ computeLoopSlices definition) : sourceId ∉ entry.2 :=
        fun hMem => hLooped ⟨entry, hEntry, hMem⟩
      rw [hl.attempts.single _ source hSource.found (hId ▸ hAlone),
        hr.attempts.single _ source' hSource'.found (hId' ▸ hAlone)]

/-- Matching attempts consume the same entry through each binding. Both sides
hold the source at the same generation, and a completed attempt has one output
for given answers. -/
theorem Matches.consumed {binding : DataBinding} {entry entry' : Json × TaskInputMapping}
    (hDef : WellFormedDef definition) (h : Matches l.stored r.stored)
    (hl : CalmState definition input l) (hr : CalmState definition input r)
    (hDefId : c.taskDefId = a.taskDefId) (hGeneration : c.generationIndex = a.generationIndex)
    (hEntry : Consumed definition l.stored a binding entry)
    (hEntry' : Consumed definition r.stored c binding entry') : entry' = entry := by
  obtain ⟨source, hSource, rfl⟩ := hEntry
  obtain ⟨source', hSource', rfl⟩ := hEntry'
  have hSame := h.source_generation hDef hl hr hSource hSource' hDefId hGeneration
  have hFound := hSource'.found
  rw [hSame] at hFound
  rw [hSame, h _ source source' hSource.found hFound hSource.completed hSource'.completed]

/-- The two runs give an attempt the same context. -/
theorem Matches.context (hDef : WellFormedDef definition) (h : Matches l.stored r.stored)
    (hl : CalmState definition input l) (hr : CalmState definition input r) {taskId : String}
    (hAttempt : HasAttempt l.stored taskId generation)
    (hAttempt' : HasAttempt r.stored taskId generation) :
    generationContext r.stored definition taskId generation =
      generationContext l.stored definition taskId generation := by
  refine generationContext_congr hDef fun verifierId slice hSlice hMem other hOther earlier hFirst
    hBelow => ?_
  obtain ⟨a, ha, hCompleted⟩ := hl.completed_below hDef hSlice hMem hAttempt hOther hFirst hBelow
  obtain ⟨b, hb, hCompleted'⟩ := hr.completed_below hDef hSlice hMem hAttempt' hOther hFirst hBelow
  exact ⟨a, b, ha, hb, h _ a b ha hb hCompleted hCompleted'⟩

/-- The inputs and the context of an attempt settle what it is when it has
completed. -/
theorem Explained.unique {context : Option LoopExecutionContext}
    (h : Explained answers definition context b) (h' : Explained answers definition context c)
    (hDefId : c.taskDefId = b.taskDefId) (hGeneration : c.generationIndex = b.generationIndex)
    (hInputs : c.inputData = b.inputData) :
    c.outputData = b.outputData ∧ c.verifierMetadata = b.verifierMetadata := by
  obtain ⟨taskDef, schema, output, hFound, hSchema, rfl, hOutput, hMetadata⟩ := h
  obtain ⟨taskDef', schema', output', hFound', hSchema', rfl, hOutput', hMetadata'⟩ := h'
  rw [hDefId, hFound] at hFound'
  cases hFound'
  rw [hSchema] at hSchema'
  cases hSchema'
  rw [hOutput', hMetadata', hOutput, hMetadata, hDefId, hGeneration, hInputs]
  exact ⟨rfl, rfl⟩

/-- What an answer completes has the inputs that the other run has completed it
with. -/
theorem Matches.inputs (hDef : WellFormedDef definition) (h : Matches l.stored r.stored)
    (hl : CalmState definition input l) (hr : CalmState definition input r)
    (ha : l.stored.tasks.lookup key = some a) (hRunning : a.status = .running)
    (hOwn : CompletedAs answers definition l.stored a b) (hc : r.stored.tasks.lookup key = some c)
    (hCompleted : c.status = .completed) (hDefId : c.taskDefId = a.taskDefId)
    (hGeneration : c.generationIndex = a.generationIndex) :
    c.inputData = b.inputData ∧ c.inputMapping = b.inputMapping := by
  obtain ⟨taskDef, loopSlices, inputs, hSlices, hFound, rfl, hData, hMapping⟩ := hOwn.inputs
  have hId := (findTask_some hFound).2
  rw [hData, hMapping]
  by_cases hBound : inboundBindings definition a.taskDefId = []
  · rw [← hId] at hBound
    obtain ⟨hHeld, hInitial⟩ := hl.attempts.unbound key a taskDef ha hFound hBound
    obtain ⟨hHeld', hInitial'⟩ := hr.attempts.unbound key c taskDef hc (hDefId ▸ hFound) hBound
    rw [resolveInputs_held hBound hHeld, hHeld', hInitial', hInitial, hGeneration,
      initialTaskInputData_congr (hr.attempts.trigger.trans hl.attempts.trigger.symm)]
    exact ⟨rfl, rfl⟩
  · obtain ⟨entries, hResolved, hConsumed⟩ := hl.fed.resolveInputs_consumed hDef hl.sound.key hSlices ha
      hRunning hFound (fun _ _ hSlice _ => hl.sliceInv hSlice) hBound
    obtain ⟨entries', hConsumed', hData', hMapping'⟩ := hr.recorded key c hc hCompleted
      (hDefId ▸ hBound) fun _ _ _ => hr.attempts.calm.withoutInput _
    rw [hDefId] at hConsumed'
    have hEntries : entries' = entries := forall₂_unique hConsumed hConsumed'
      fun _ _ _ hEntry hEntry' => h.consumed hDef hl hr hDefId hGeneration hEntry hEntry'
    rw [hResolved, hData', hMapping', hEntries]
    exact ⟨rfl, rfl⟩

/-- What an answer completes agrees with what the other run has completed. -/
theorem Matches.completed (hDef : WellFormedDef definition) (h : Matches l.stored r.stored)
    (hl : CalmState definition input l) (hr : CalmState definition input r)
    (hSettles : Settles answers definition l.stored) (hSettles' : Settles answers definition r.stored)
    (ha : l.stored.tasks.lookup key = some a) (hRunning : a.status = .running)
    (hOwn : CompletedAs answers definition l.stored a b) (hc : r.stored.tasks.lookup key = some c)
    (hCompleted : c.status = .completed) :
    c = { b with satisfactionStatus := c.satisfactionStatus } := by
  obtain ⟨hDefId, hGeneration⟩ :=
    makeTaskAttemptId_inj.mp ((hr.sound.key key c hc).symm.trans (hl.sound.key key a ha))
  obtain ⟨hData, hMapping⟩ :=
    h.inputs hDef hl hr ha hRunning hOwn hc hCompleted hDefId hGeneration
  have hBlank := hl.attempts.blank key a ha (.inr hRunning)
  have hExplained := hOwn.explained hBlank.1 hBlank.2
  have hExplained' := hSettles'.explained key c hc hCompleted
  rw [hl.context hDef hSettles ha hRunning] at hExplained
  rw [hDefId, hGeneration, h.context hDef hl hr (.of_keyed hl.sound.key ha)
    (hDefId ▸ hGeneration ▸ .of_keyed hr.sound.key hc)] at hExplained'
  obtain ⟨hOutput, hMetadata⟩ := hExplained.unique hExplained' (hDefId.trans hOwn.taskDefId.symm)
    (hGeneration.trans hOwn.generationIndex.symm) hData
  have hCalm := hl.attempts.calm key a ha
  have hCalm' := hr.attempts.calm key c hc
  have hDefId' := hDefId.trans hOwn.taskDefId.symm
  have hGeneration' := hGeneration.trans hOwn.generationIndex.symm
  have hStatus := hCompleted.trans hOwn.status.symm
  have hExit := (hCalm'.exits.trans hCalm.exits.symm).trans hOwn.earlyExit.symm
  have hInput := (hCalm'.input.trans hCalm.input.symm).trans hOwn.humanInput.symm
  cases b
  cases c
  simp only at hDefId' hGeneration' hStatus hExit hInput hData hMapping hOutput hMetadata
  subst hDefId' hGeneration' hStatus hExit hInput hData hMapping hOutput hMetadata
  rfl

end Agreement

section Commit

variable {answers : Answers} {definition : WorkflowDef} {input : Option Json} {l r : Lifecycle}
  {writer : Writer} {ext : Externals} {events : List WorkflowInstanceEvent}
  {planned plan : List String} {reduced : WorkflowInstance}

/-- A commit of one run keeps the agreement with a state of the other. -/
theorem Matches.commit (hDef : WellFormedDef definition) (h : Matches l.stored r.stored)
    (hl : CalmState definition input l) (hr : CalmState definition input r)
    (hSettles : Settles answers definition l.stored) (hSettles' : Settles answers definition r.stored)
    (hWrite : Write ext definition ⟨l.stored, planned⟩ writer events plan)
    (hReduce : reduceWorkflowInstanceEvents (some l.stored) events = .ok reduced)
    (hCommit : CalmCommit answers ext definition l.stored reduced) : Matches reduced r.stored := by
  intro key b c hb hc hCompleted hOther
  rcases (hCommit.change hDef hb).completed_origin hCompleted with ⟨a, ha, hOld⟩ |
    ⟨a, ha, hRunning, hOwn⟩
  · obtain ⟨b', hb', hKept⟩ := hWrite.completed_kept hReduce ha hOld
    rw [hb] at hb'
    cases hb'
    rw [hKept]
    exact h key a c ha hc hOld hOther
  · exact h.completed hDef hl hr hSettles hSettles' ha hRunning hOwn hc hOther

end Commit

end RelayFold
