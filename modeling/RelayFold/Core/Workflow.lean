import Mathlib.Data.String.Basic
import RelayFold.Library.DelimitedText
import RelayFold.Library.FiniteMap
import RelayFold.Core.Task

/-! Workflow definitions, instances and their verifier state
(`workflow/models.rs`, `namespace.rs`). -/
namespace RelayFold

/-- `Uuid::parse_str` accepts the text and prints it back unchanged: lower-case
hexadecimal digits in hyphenated groups of 8, 4, 4, 4 and 12. -/
def isHyphenatedUuid (value : String) : Bool :=
  let isHex (c : Char) : Bool := c.isDigit || ('a' ≤ c && c ≤ 'f')
  let groups := value.toList.splitOnP (· = '-')
  groups.map List.length = [8, 4, 4, 4, 12] && groups.all (·.all isHex)

def globalNamespace : String := "global-namespace"

/-- `Namespace::new` is the only constructor, so every namespace is well
formed. -/
structure Namespace where
  value : String
  valid : value = globalNamespace ∨ isHyphenatedUuid value = true
deriving DecidableEq

instance : LinearOrder Namespace :=
  LinearOrder.lift' Namespace.value fun a b h => by cases a; cases b; cases h; rfl

theorem Namespace.value_inj {ns ns' : Namespace} (h : ns.value = ns'.value) : ns = ns' := by
  cases ns
  cases ns'
  cases h
  rfl

def Namespace.new (value : String) : Option Namespace :=
  if h : value = globalNamespace ∨ isHyphenatedUuid value = true then some ⟨value, h⟩ else none

/-- `GLOBAL_NAMESPACE` as a namespace. -/
def Namespace.global : Namespace := ⟨globalNamespace, .inl rfl⟩

/-- Namespaces hold lower-case letters, digits and hyphens. -/
theorem Namespace.value_chars (ns : Namespace) : ∀ c ∈ ns.value.toList,
    'a' ≤ c ∧ c ≤ 'z' ∨ c.isDigit = true ∨ c = '-' := by
  intro c hMem
  rcases ns.valid with hGlobal | hUuid
  · rw [hGlobal] at hMem
    have hAll : ∀ c ∈ globalNamespace.toList, 'a' ≤ c ∧ c ≤ 'z' ∨ c.isDigit = true ∨ c = '-' := by
      simp [globalNamespace]
    exact hAll c hMem
  · by_cases hHyphen : c = '-'
    · exact .inr (.inr hHyphen)
    · obtain ⟨group, hGroup, hIn⟩ :=
        DelimitedText.mem_splitOnP (p := (· = '-')) hMem (decide_eq_false hHyphen)
      simp only [isHyphenatedUuid, Bool.and_eq_true, List.all_eq_true, Bool.or_eq_true,
        decide_eq_true_eq] at hUuid
      rcases hUuid.2 group hGroup c hIn with hDigit | ⟨hLow, hHigh⟩
      · exact .inr (.inl hDigit)
      · exact .inl ⟨hLow, hHigh.trans (by decide)⟩

inductive WorkflowStatus where
  | pending
  | running
  | paused
  | inputNeeded
  | completed
  | failed
deriving DecidableEq

inductive VerifierStateStatus where
  | running
  | accepted
  | exhaustedAccepted
  | exhaustedFailed
  | failed
deriving DecidableEq

structure VerifierFeedbackEntry where
  generationIndex : Nat
  feedback : String
  verifierOutput : Json

structure VerifierGenerationState where
  verifierTaskId : String
  rerunStartTaskId : String
  latestGeneration : Nat
  selectedGeneration : Option Nat
  feedbackHistory : List VerifierFeedbackEntry
  status : VerifierStateStatus
  exitReason : Option String

structure WorkflowInstance where
  id : String
  workflowDefId : String
  version : Nat
  status : WorkflowStatus
  triggerInput : Option Json
  pinnedWorkerHost : Option WorkerHostId
  /-- Keyed by the attempt id, such as `task-a[2]`. -/
  tasks : FiniteMap String TaskInstance
  verifierStates : FiniteMap String VerifierGenerationState

structure DataBinding where
  targetTaskId : String
  sourceTaskId : String

structure WorkflowDef where
  id : String
  exampleInput : Option Json
  description : String
  tasks : List TaskDef
  dataBindings : List DataBinding

structure WorkflowInfo where
  ns : Namespace
  id : String
  workflowDefId : String
  createdAtEpochMs : Option Nat
  modifiedAtEpochMs : Nat
  completedAtEpochMs : Option Nat
  status : WorkflowStatus
  totalTaskCount : Nat
  completedTaskCount : Nat

def WorkflowInfo.fromInstanceWithTimestamps (ns : Namespace) (workflow : WorkflowInstance)
    (createdAtEpochMs : Option Nat) (modifiedAtEpochMs : Nat)
    (completedAtEpochMs : Option Nat) : WorkflowInfo where
  ns := ns
  id := workflow.id
  workflowDefId := workflow.workflowDefId
  createdAtEpochMs := createdAtEpochMs
  modifiedAtEpochMs := modifiedAtEpochMs
  completedAtEpochMs := completedAtEpochMs
  status := workflow.status
  totalTaskCount := workflow.tasks.toList.length
  completedTaskCount := workflow.tasks.toList.countP fun entry => entry.2.status = .completed

def createInstanceId (workflowDefId : String) (timestampNanos : Nat) : String :=
  s!"{workflowDefId}-{timestampNanos}"

/-- The snapshot `create_workflow_instance_for_def` commits: nothing has
run. -/
def WorkflowInstance.created (id workflowDefId : String) (pinnedWorkerHost : WorkerHostId)
    (input : Option Json) : WorkflowInstance where
  id := id
  workflowDefId := workflowDefId
  version := 0
  status := .pending
  triggerInput := input
  pinnedWorkerHost := some pinnedWorkerHost
  tasks := ∅
  verifierStates := ∅

end RelayFold
