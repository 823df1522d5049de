import RelayFold.Core.Validation
import RelayFold.Lifecycle.Refinement

/-! The lifecycle of attempts over whole runs: legal moves between consecutive
snapshots, settled attempts that never change, and ids that name their
attempts. -/
namespace RelayFold

open WorkflowEngine

/-- Between consecutive snapshots every attempt is kept and its status makes a
legal move. -/
def LegalMoves (later earlier : WorkflowInstance) : Prop :=
  ∀ id a, earlier.tasks.lookup id = some a → ∃ b writer, later.tasks.lookup id = some b ∧
    StatusMove writer a.status b.status

/-- No attempt is removed, and a settled attempt changes its satisfaction at
most. -/
def SettledKept (later earlier : WorkflowInstance) : Prop :=
  ∀ id a, earlier.tasks.lookup id = some a → ∃ b, later.tasks.lookup id = some b ∧
    (a.status.isSettled = true → b = { a with satisfactionStatus := b.satisfactionStatus })

/-- Settled attempts are kept over any number of snapshots. -/
theorem SettledKept.trans {a b c : WorkflowInstance} (h : SettledKept c b) (h' : SettledKept b a) :
    SettledKept c a := by
  intro id x hx
  obtain ⟨y, hy, hxy⟩ := h' id x hx
  obtain ⟨z, hz, hyz⟩ := h id y hy
  refine ⟨z, hz, fun hSettled => ?_⟩
  have hSame := hxy hSettled
  have hStatus : y.status = x.status := by rw [hSame]
  rw [hyz (hStatus ▸ hSettled), hSame]

/-- What a write does to the attempts stays within the legal moves of the
statuses, whoever has written. -/
theorem AttemptsAfter.legalMoves {writer : Writer} {before after : WorkflowInstance}
    (h : AttemptsAfter writer before after) : LegalMoves after before := by
  intro id a ha
  obtain ⟨b, hb, hMoves⟩ := h.kept id a ha
  exact ⟨b, writer, hb, hMoves.status⟩

theorem AttemptsAfter.settledKept {writer : Writer} {before after : WorkflowInstance}
    (h : AttemptsAfter writer before after) : SettledKept after before := by
  intro id a ha
  obtain ⟨b, hb, hMoves⟩ := h.kept id a ha
  exact ⟨b, hb, hMoves.settled⟩

/-- The new version of the snapshot is no part of the comparison. -/
theorem AttemptsAfter.withVersion {writer : Writer} {before after : WorkflowInstance}
    (h : AttemptsAfter writer before after) (version : Nat) :
    AttemptsAfter writer before (after.withVersion version) := ⟨h.kept, h.fresh⟩

/-- What a step of the system does to the attempts. -/
theorem Extends.attemptsAfter {ext : Externals} {definition : WorkflowDef} {writer : Writer}
    {s s' : System} (h : Extends ext definition writer s s') :
    AttemptsAfter writer s.stored s'.stored := by
  cases h with
  | same hStored _ => exact .of_tasks_eq (by rw [hStored])
  | written hWrite hReduce hStored _ =>
      rw [hStored]
      exact (hWrite.attemptsAfter hReduce).withVersion _

/-- The snapshots of an instance, the latest first. -/
structure SnapshotsInv (snapshots : List WorkflowInstance) : Prop where
  moves : snapshots.IsChain LegalMoves
  settled : snapshots.Pairwise SettledKept
  keys : ∀ workflow ∈ snapshots, ∀ id task, workflow.tasks.lookup id = some task →
    id = makeTaskAttemptId task.taskDefId task.generationIndex

/-- A step that stores one more snapshot keeps the invariant over all pairs
of them: the new one is compared with the latest, and the relation is
transitive. -/
theorem SnapshotsInv.extend {ext : Externals} {definition : WorkflowDef} {writer : Writer}
    {s s' : System} (h : SnapshotsInv s.snapshots) (hExtends : Extends ext definition writer s s') :
    SnapshotsInv s'.snapshots := by
  have hAfter := hExtends.attemptsAfter
  cases hExtends with
  | same hStored hPast =>
      rw [System.snapshots, hStored, hPast]
      exact h
  | written _ _ _ hPast =>
      rw [System.snapshots, hPast]
      refine ⟨List.isChain_cons_cons.mpr ⟨hAfter.legalMoves, h.moves⟩,
        List.pairwise_cons.mpr ⟨fun earlier hMem => ?_, h.settled⟩,
        List.forall_mem_cons.mpr ⟨hAfter.key (h.keys _ List.mem_cons_self), h.keys⟩⟩
      rcases List.mem_cons.mp hMem with rfl | hPast
      · exact hAfter.settledKept
      · exact hAfter.settledKept.trans ((List.pairwise_cons.mp h.settled).1 earlier hPast)

theorem System.Steps.snapshotsInv {env : EngineEnv} {definition : WorkflowDef}
    {s s' : System} {actions : List Action} (run : System.Steps env s actions s')
    (hStart : (∃ l, Refines env definition s l) ∧ SnapshotsInv s.snapshots) :
    (∃ l, Refines env definition s' l) ∧ SnapshotsInv s'.snapshots := by
  refine Run.invariant (P := fun s : System => (∃ l, Refines env definition s l) ∧
    SnapshotsInv s.snapshots) run hStart ?_
  rintro s action s' ⟨⟨l, hRefines⟩, hInv⟩ hStep
  obtain ⟨⟨l', _, _, _, hRefines'⟩, hExtends⟩ := hRefines.step hStep
  exact ⟨⟨l', hRefines'⟩, hInv.extend hExtends⟩

/-- In every run of passes, operators, human input, retries, host loss and
recovery the statuses of attempts move forward legally, settled attempts stay,
no attempt is lost, and every attempt is stored under its own id. Only recovery
and retries turn an attempt back. -/
theorem System.Steps.attempt_lifecycle {env : EngineEnv} {definition : WorkflowDef}
    {id workflowDefId : String} {pinnedWorkerHost : WorkerHostId} {input : Option Json}
    {actions : List Action} {s : System}
    (hDefinition : env.definitions workflowDefId = some definition)
    (run : System.Steps env (System.created id workflowDefId pinnedWorkerHost input) actions s) :
    SnapshotsInv s.snapshots ∧
      ∀ action s', s.step env action = some s' → ∀ id a, s.stored.tasks.lookup id = some a →
        ∃ b, s'.stored.tasks.lookup id = some b ∧ StatusMove action.writer a.status b.status := by
  have hStart : ∃ l, Refines env definition
      (System.created id workflowDefId pinnedWorkerHost input) l :=
    ⟨Lifecycle.created id workflowDefId pinnedWorkerHost input, rfl,
      .created _ _ _ _ hDefinition, .created .., trivial⟩
  have hSnapshots : SnapshotsInv (System.created id workflowDefId pinnedWorkerHost input).snapshots :=
    ⟨.singleton _, List.pairwise_singleton _ _, fun workflow hMem id task hTask => by
      cases List.mem_singleton.mp hMem
      cases hTask⟩
  obtain ⟨⟨l, hRefines⟩, hInv⟩ := run.snapshotsInv ⟨hStart, hSnapshots⟩
  refine ⟨hInv, fun action s' hStep id a ha => ?_⟩
  obtain ⟨b, hb, hMoves⟩ := (hRefines.step hStep).extended.attemptsAfter.kept id a ha
  exact ⟨b, hb, hMoves.status⟩

/-! A definition whose review sends the draft back, and a run of it. -/

def sampleAgent : TaskTypeDef :=
  .agent "model" "url" "prompt" [] [] false .null false

def sampleTask (id : String) (verifier : Option VerifierControlConfig) : TaskDef where
  id := id
  kind := sampleAgent
  allowAgentFeedback := false
  control := verifier.map fun verifier => { allowEarlyExit := false, verifier := some verifier }
  timeoutSecs := none
  inputSchemas := []
  outputSchema := none
  workspace := none
  requiredCredentials := []

def sampleSubmitted : WorkflowDef where
  id := "article"
  exampleInput := none
  description := "draft, review, publish"
  tasks := [sampleTask "draft" none,
    sampleTask "review" (some
      { maxIterations := 3, onExhaustedContinue := false, rerunFromTaskId := some "draft" }),
    sampleTask "publish" none]
  dataBindings := [⟨"review", "draft"⟩, ⟨"publish", "review"⟩]

theorem sampleSubmitted_accepted :
    (validateAndNormalizeWorkflowDef sampleSubmitted).toOption.isSome := by
  decide +kernel

def sampleDefinition : WorkflowDef :=
  (validateAndNormalizeWorkflowDef sampleSubmitted).toOption.get sampleSubmitted_accepted

def sampleEnv : EngineEnv where
  ext := { validatorFor := fun _ => .ok fun _ => true, toStringPretty := fun _ => "" }
  ns := .global
  definitions := fun id => if id = "article" then some sampleDefinition else none
  functionDefs := fun _ => none

def sampleStart : System := System.created "article-1" "article" ⟨"host"⟩ none

/-- Load, begin, materialize, and start the draft. -/
def startDraft : List Action :=
  .startPass [] :: List.replicate 8 .passStep

/-- The draft fails and is retried after a restart of the service. -/
def draftRetried : List Action :=
  startDraft ++ [.answer (.ok (.failure "no model")), .passStep, .passStep, .crash,
    .request (.retryTask "Draft") 0, .recover 0 0 0]

theorem draftRetried_runs : (draftRetried.foldlM (System.step sampleEnv) sampleStart).isSome := by
  decide +kernel

/-- The retried draft is a run whose attempts are lawful. -/
theorem System.Steps.attempt_lifecycle_retried :
    SnapshotsInv ((draftRetried.foldlM (System.step sampleEnv) sampleStart).get
      draftRetried_runs).snapshots :=
  (System.Steps.attempt_lifecycle rfl (Run.of_foldlM (Option.some_get draftRetried_runs).symm)).1

end RelayFold
