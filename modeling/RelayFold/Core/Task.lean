import Mathlib.Algebra.Group.Nat.Defs
import RelayFold.Core.Json

/-! Task definitions and task attempts: `task.rs`, `verifier.rs` and the parts
of `worker.rs` and `function/models.rs` that they mention. -/
namespace RelayFold

abbrev JsonSchema := Json

structure WorkerHostId where
  value : String
deriving DecidableEq

structure TaskDispatchConstraints where
  pinnedHostId : Option WorkerHostId

structure VerifierControlConfig where
  maxIterations : UInt32
  onExhaustedContinue : Bool
  rerunFromTaskId : Option String

inductive VerifierDecision where
  | continue
  | complete
deriving DecidableEq

inductive VerifierAttemptStatus where
  | accepted
  | rejected
  | exhaustedAccepted
  | exhaustedFailed
  | invalid
deriving DecidableEq

structure VerifierAttemptMetadata where
  status : VerifierAttemptStatus
  decision : Option VerifierDecision
  feedback : Option String
  verifierOutput : Option Json
  exitReason : Option String

structure LoopFeedbackEntry where
  generation : Nat
  feedback : String

structure LoopExecutionContext where
  generation : Nat
  maxIterations : UInt32
  feedbackHistory : List LoopFeedbackEntry
  previousOutput : Option Json

structure VerifierExecutionResult where
  decision : VerifierDecision
  feedback : Option String
  output : Json

def verifierDecisionSchema : JsonSchema :=
  .object
    [("type", .string "object"),
      ("required", .array [.string "decision"]),
      ("properties", .object
        [("decision", .object
            [("type", .string "string"),
              ("enum", .array [.string "complete", .string "continue"])]),
          ("feedback", .object [("type", .string "string")])]),
      ("additionalProperties", .bool true)]

structure FunctionDependency where
  name : String
  version : String

inductive FunctionTaskDef where
  | inline (dependencies : List FunctionDependency) (code : String)
  | ref (reference : String)

structure FunctionDef where
  id : String
  dependencies : List FunctionDependency
  code : String

inductive TaskTypeDef where
  | apiCall (url method : String) (headers : List (String × String))
  | agent (modelId providerUrl prompt : String) (tools skills : List String) (ask : Bool)
      (schemaFailureRetryTimes : Json) (reuseSession : Bool)
  | function (definition : FunctionTaskDef)

def TaskTypeDef.isAgent : TaskTypeDef → Bool
  | agent .. => true
  | _ => false

structure TaskControl where
  allowEarlyExit : Bool
  verifier : Option VerifierControlConfig

structure Workspace where
  groupName : String

structure TaskDef where
  id : String
  kind : TaskTypeDef
  allowAgentFeedback : Bool
  control : Option TaskControl
  timeoutSecs : Option UInt64
  inputSchemas : List JsonSchema
  outputSchema : Option JsonSchema
  workspace : Option Workspace
  requiredCredentials : List String

/-- The reason member of a task output that asks for an early workflow exit. -/
def workflowExitReason (output : Json) : Except String (Option String) :=
  match output.get "_workflow_exit_reason" with
  | none | some .null => .ok none
  | some (.string reason) =>
      if isBlank reason then .error "_workflow_exit_reason must be null or a nonempty string"
      else .ok (some reason)
  | some _ => .error "_workflow_exit_reason must be null or a nonempty string"

namespace TaskDef

def allowsEarlyExit (task : TaskDef) : Bool := task.control.any (·.allowEarlyExit)

/-- The control fields a task output may carry: the field, the flag that
enables it, and whether it is enabled. -/
def controlFields (task : TaskDef) : List (String × String × Bool) :=
  [("_workflow_exit_reason", "control.allow_early_exit", task.allowsEarlyExit),
    ("_agent_provided_feedback", "allow_agent_feedback", task.allowAgentFeedback)]

/-- The user schema declares the field as a property or requires it. -/
def schemaDeclares (schema : JsonSchema) (field : String) : Bool :=
  ((schema.get "properties").bind (·.get field)).isSome ||
    ((schema.get "required").bind Json.asArray).any fun fields =>
      fields.any fun value => value.asStr = some field

def controlFieldSchema (field : String) : JsonSchema :=
  .object ([("type", .array [.string "string", .string "null"]), ("minLength", .number 1 0),
    ("pattern", .string "\\S")] ++
    if field = "_agent_provided_feedback" then [("maxLength", .number 255 0)] else [])

/-- Derive the worker and orchestrator output contract without changing the
user schema. -/
def effectiveOutputSchema (task : TaskDef) : Except String (Option JsonSchema) := do
  let id := task.id
  for (field, flag, _) in task.controlFields do
    if task.outputSchema.any (schemaDeclares · field) then
      throw s!"task {id}: {field} is reserved; enable {flag} instead of declaring it in output_schema"
  match task.controlFields.find? (·.2.2) with
  | none => return task.outputSchema
  | some (_, enabledFlag, _) =>
      let schema := task.outputSchema.getD
        (if task.kind.isAgent then
          .object [("type", .string "object"),
            ("properties", .object [("response", .object [("type", .string "string")])])]
        else .object [("type", .string "object")])
      if (schema.get "type").bind Json.asStr ≠ some "object" ∨
          ["$ref", "allOf", "anyOf", "oneOf"].any fun key => (schema.get key).isSome then
        throw s!"task {id}: {enabledFlag} requires a plain object output_schema or no output_schema"
      let fields := schema.asObject.getD []
      match (fields.lookup "properties").getD (.object []) with
      | .object properties =>
          let properties := task.controlFields.foldl (fun properties (field, _, enabled) =>
            if enabled then Json.insertField field (controlFieldSchema field) properties
            else properties) properties
          return some (.object (Json.insertField "properties" (.object properties) fields))
      | _ => throw s!"task {id}: output_schema.properties must be an object"

end TaskDef

inductive TaskStatus where
  | pending
  | running
  | inputNeeded (inputRequest : String)
  | completed
  | skipped
  | failed
deriving DecidableEq

def TaskStatus.isInputNeeded : TaskStatus → Bool
  | inputNeeded _ => true
  | _ => false

inductive TaskSatisfactionStatus where
  | pending
  | satisfied
  | unsatisfied
deriving DecidableEq

structure TaskInputMapping where
  taskId : String
  generation : Nat
deriving DecidableEq

/-- One concrete attempt of a logical task. -/
structure TaskInstance where
  taskDefId : String
  status : TaskStatus
  satisfactionStatus : TaskSatisfactionStatus
  earlyExit : Bool
  humanInput : Option Json
  inputData : List Json
  inputMapping : List TaskInputMapping
  outputData : Option Json
  generationIndex : Nat
  verifierMetadata : Option VerifierAttemptMetadata

/-- `format!("{task_def_id}[{generation_index}]")`. -/
def makeTaskAttemptId (taskDefId : String) (generationIndex : Nat) : String :=
  taskDefId ++ "[" ++ toString generationIndex ++ "]"

/-- The attempt every writer materializes: nothing has run yet. -/
def TaskInstance.fresh (taskDefId : String) (generationIndex : Nat) : TaskInstance where
  taskDefId := taskDefId
  status := .pending
  satisfactionStatus := .pending
  earlyExit := false
  humanInput := none
  inputData := []
  inputMapping := []
  outputData := none
  generationIndex := generationIndex
  verifierMetadata := none

/-- The generation after a human-input continuation. The counter is a `u32` and
this addition is not guarded, so it wraps. -/
def continuationGeneration (generationIndex : Nat) : Nat := (generationIndex + 1) % 2 ^ 32

/-- Transient context for one dispatch of an attempt. -/
structure ExecutionMetadata where
  generationIndex : Nat
  loopContext : Option LoopExecutionContext
  humanInputProvided : Option String

inductive ExecutionResult where
  | success (output : Json)
  | inputNeeded (inputRequest : String)
  | failure (reason : String)

end RelayFold
