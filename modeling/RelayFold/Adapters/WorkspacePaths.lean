import RelayFold.Core.AttemptIds
import RelayFold.Core.NormalizedDefs
import RelayFold.Library.PosixPaths

/-! Workspaces and sessions of dispatched tasks: the path suffix the dispatcher
builds (`task_dispatcher.rs`), and what a worker makes of it
(`WorkspaceManager.ts`, `AgentSession.ts`). -/
namespace RelayFold

open PosixPaths

inductive WorkspaceKey where
  | task (workflowInstId taskId : String)
  | group (workflowInstId groupName : String)
deriving DecidableEq

def workspaceKeyForTask (workflowInstId : String) (task : TaskDef) : WorkspaceKey :=
  match task.workspace with
  | some workspace => .group workflowInstId workspace.groupName
  | none => .task workflowInstId task.id

def workspacePathSuffix (ns : Namespace) : WorkspaceKey → Text
  | .task workflowInstId taskId =>
      join (join ns.value.toList workflowInstId.toList) s!"taskid-{taskId}".toList
  | .group workflowInstId groupName =>
      join (join ns.value.toList workflowInstId.toList) s!"taskgroup-{groupName}".toList

/-! ### The worker -/

def validateWorkspacePathSuffix (suffix : Text) : Except String Unit :=
  if suffix = [] ∨ isAbsolute suffix = true then
    .error "workspace_path_suffix must be a non-empty relative path"
  else
    let normalized := normalize suffix
    let parts := normalized.splitOn '/'
    if normalized = ['.'] ∨ ['.', '.', '/'] <+: normalized ∨
        ∃ part ∈ parts, part = ['.', '.'] ∨ part = [] then
      let suffix := String.ofList suffix
      .error s!"workspace_path_suffix must stay under the worker workspace root: {suffix}"
    else .ok ()

def resolveWorkspacePath (workingDirectory root suffix : Text) : Except String Text := do
  validateWorkspacePathSuffix suffix
  return resolve workingDirectory [root, suffix]

structure AgentSessionKey where
  ns : String
  workflowInstId : String
  taskId : String

def serializeAgentSessionKey (key : AgentSessionKey) : String :=
  s!"{key.ns}${key.workflowInstId}${key.taskId}"

/-! ### What is dispatched -/

def isolatedWorkflowTaskExecutionId (workflowDefId taskId : String) (timestampNanos : Nat) : String :=
  s!"isolated-{workflowDefId}-{taskId}-{timestampNanos}"

/-- A definition that was stored: validation returned it. -/
def StoredDefinition (definition : WorkflowDef) : Prop :=
  ∃ submitted, validateAndNormalizeWorkflowDef submitted = .ok definition

/-- The ids under which the tasks of a definition run. -/
inductive RunsUnder (definition : WorkflowDef) : String → Prop where
  | stored (timestampNanos : Nat) :
      RunsUnder definition (createInstanceId definition.id timestampNanos)
  | isolated (task : TaskDef) (hTask : task ∈ definition.tasks) (timestampNanos : Nat) :
      RunsUnder definition
        (isolatedWorkflowTaskExecutionId definition.id task.id timestampNanos)

/-- A task handed to a worker. -/
structure DispatchedTask where
  ns : Namespace
  workflowInstId : String
  task : TaskDef

namespace DispatchedTask

def workspaceKey (dispatch : DispatchedTask) : WorkspaceKey :=
  workspaceKeyForTask dispatch.workflowInstId dispatch.task

def suffix (dispatch : DispatchedTask) : Text :=
  workspacePathSuffix dispatch.ns dispatch.workspaceKey

def agentSessionKey (dispatch : DispatchedTask) : AgentSessionKey :=
  ⟨dispatch.ns.value, dispatch.workflowInstId, dispatch.task.id⟩

/-- The id and the task come from stored definitions, of one version or two;
resolving a function leaves the id and the workspace of the task. -/
structure Possible (dispatch : DispatchedTask) : Prop where
  runs : ∃ definition, StoredDefinition definition ∧ RunsUnder definition dispatch.workflowInstId
  defined : ∃ definition, StoredDefinition definition ∧ ∃ task ∈ definition.tasks,
    task.id = dispatch.task.id ∧ task.workspace = dispatch.task.workspace

end DispatchedTask

/-! ### Ids as names -/

/-- A nonempty text that no path and no session key takes apart. -/
structure PlainId (id : String) : Prop where
  nonempty : id ≠ ""
  chars : ∀ c ∈ id.toList, c ≠ '/' ∧ c ≠ '.' ∧ c ≠ '$'

/-- The characters of an identifier mean nothing to a path or to the escaping
of workspaces. -/
theorem identifierChar_plain {c : Char}
    (h : 'a' ≤ c ∧ c ≤ 'z' ∨ c.isDigit = true ∨ c = '-' ∨ c = '_') :
    c ≠ '/' ∧ c ≠ '.' ∧ c ≠ '$' := by
  refine ⟨?_, ?_, ?_⟩
  all_goals
    rintro rfl
    exact absurd h (by decide)

theorem IsIdentifier.plain {id : String} (h : IsIdentifier id) : PlainId id :=
  ⟨h.nonempty, fun c hMem => identifierChar_plain (h.chars c hMem)⟩

/-- A namespace can too. -/
theorem Namespace.plain (ns : Namespace) : PlainId ns.value := by
  constructor
  · intro hEmpty
    have hValid := ns.valid
    rw [hEmpty] at hValid
    exact absurd hValid (by decide)
  · intro c hMem
    refine identifierChar_plain ?_
    rcases ns.value_chars c hMem with hLetter | hDigit | hHyphen
    · exact .inl hLetter
    · exact .inr (.inl hDigit)
    · exact .inr (.inr (.inl hHyphen))

/-- A character of plain ids. -/
abbrev PlainChar (c : Char) : Prop := c ≠ '/' ∧ c ≠ '.' ∧ c ≠ '$'

theorem PlainId.of_toList {id : String} (hNe : id.toList ≠ [])
    (h : ∀ c ∈ id.toList, PlainChar c) : PlainId id :=
  ⟨fun hEmpty => hNe (by rw [hEmpty]; rfl), h⟩

/-- A plain text is a name: neither a dot nor two, and without a slash. -/
theorem isName_of_plain {text : Text} (hNe : text ≠ []) (h : ∀ c ∈ text, PlainChar c) :
    IsName text where
  nonempty := hNe
  plain hMem := (h '/' hMem).1 rfl
  notDot hSame := (h '.' (hSame ▸ List.mem_cons_self)).2.1 rfl
  notDots hSame := (h '.' (hSame ▸ List.mem_cons_self)).2.1 rfl

theorem PlainId.isName {id : String} (h : PlainId id) : IsName id.toList :=
  isName_of_plain (fun hNil => h.nonempty (String.toList_eq_nil_iff.mp hNil)) h.chars

theorem toDigits_plain (value : Nat) : ∀ c ∈ Nat.toDigits 10 value, PlainChar c := fun _ hMem =>
  identifierChar_plain (.inr (.inl (DelimitedText.isDigit_of_mem_toDigits hMem)))

/-- The id of an instance as characters: the definition and the time of its
creation. -/
theorem createInstanceId_toList (workflowDefId : String) (timestampNanos : Nat) :
    (createInstanceId workflowDefId timestampNanos).toList =
      workflowDefId.toList ++ '-' :: Nat.toDigits 10 timestampNanos := by
  simp only [createInstanceId, String.toList_append, Nat.toString_eq_repr, Nat.toList_repr,
    List.append_assoc]
  rfl

/-- The id of an isolated execution, likewise. -/
theorem isolatedWorkflowTaskExecutionId_toList (workflowDefId taskId : String)
    (timestampNanos : Nat) :
    (isolatedWorkflowTaskExecutionId workflowDefId taskId timestampNanos).toList =
      "isolated-".toList ++ (workflowDefId.toList ++ '-' ::
        (taskId.toList ++ '-' :: Nat.toDigits 10 timestampNanos)) := by
  simp only [isolatedWorkflowTaskExecutionId, String.toList_append, Nat.toString_eq_repr,
    Nat.toList_repr, List.append_assoc]
  rfl

theorem StoredDefinition.identifiers {definition : WorkflowDef} (h : StoredDefinition definition) :
    IsIdentifier definition.id ∧ ∀ task ∈ definition.tasks, IsIdentifier task.id ∧
      ∀ group ∈ task.workspace, IsIdentifier group.groupName := by
  obtain ⟨submitted, hAccepted⟩ := h
  exact (validateAndNormalizeWorkflowDef_eq hAccepted).2

/-- The ids that instances and isolated executions get are plain. -/
theorem RunsUnder.plain {definition : WorkflowDef} (h : StoredDefinition definition) {id : String}
    (hRuns : RunsUnder definition id) : PlainId id := by
  have hDefinition := h.identifiers.1.plain.chars
  have hHyphen : PlainChar '-' := by decide
  cases hRuns with
  | stored timestampNanos =>
      have hText := createInstanceId_toList definition.id timestampNanos
      refine .of_toList (by rw [hText]; simp) ?_
      rw [hText]
      exact List.forall_mem_append.mpr ⟨hDefinition,
        List.forall_mem_cons.mpr ⟨hHyphen, toDigits_plain timestampNanos⟩⟩
  | isolated task hTask timestampNanos =>
      have hText := isolatedWorkflowTaskExecutionId_toList definition.id task.id timestampNanos
      have hTaskId := (h.identifiers.2 task hTask).1.plain.chars
      refine .of_toList (by rw [hText]; simp) ?_
      rw [hText]
      exact List.forall_mem_append.mpr ⟨by simp [PlainChar], List.forall_mem_append.mpr ⟨hDefinition,
        List.forall_mem_cons.mpr ⟨hHyphen, List.forall_mem_append.mpr ⟨hTaskId,
          List.forall_mem_cons.mpr ⟨hHyphen, toDigits_plain timestampNanos⟩⟩⟩⟩⟩

namespace WorkspaceKey

def workflowInstId : WorkspaceKey → String
  | .task workflowInstId _ => workflowInstId
  | .group workflowInstId _ => workflowInstId

/-- The name of the directory inside that of the instance. -/
def leaf : WorkspaceKey → Text
  | .task _ taskId => "taskid-".toList ++ taskId.toList
  | .group _ groupName => "taskgroup-".toList ++ groupName.toList

/-- Tasks and groups have different directories. -/
theorem leaf_ne (taskId groupName : String) :
    "taskid-".toList ++ taskId.toList ≠ "taskgroup-".toList ++ groupName.toList := by
  intro hSame
  have hPrefix := congrArg (List.take 5) hSame
  rw [List.take_append_of_le_length (by decide), List.take_append_of_le_length (by decide)]
    at hPrefix
  exact absurd hPrefix (by decide)

/-- Within one instance the last component of a workspace determines its
key. -/
theorem leaf_inj {key key' : WorkspaceKey} (hInst : key.workflowInstId = key'.workflowInstId)
    (hLeaf : key.leaf = key'.leaf) : key = key' := by
  cases key with
  | task inst taskId =>
      cases key' with
      | task inst' taskId' =>
          obtain rfl : inst = inst' := hInst
          rw [String.toList_inj.mp (List.append_cancel_left hLeaf)]
      | group inst' groupName' =>
          exact absurd hLeaf (leaf_ne taskId groupName')
  | group inst groupName =>
      cases key' with
      | task inst' taskId' =>
          exact absurd hLeaf.symm (leaf_ne taskId' groupName)
      | group inst' groupName' =>
          obtain rfl : inst = inst' := hInst
          rw [String.toList_inj.mp (List.append_cancel_left hLeaf)]

end WorkspaceKey

/-- The suffix has three names: the namespace, the instance and the task or the
group. -/
theorem workspacePathSuffix_eq {ns : Namespace} {key : WorkspaceKey}
    (hInst : PlainId key.workflowInstId) (hLeaf : IsName key.leaf) :
    workspacePathSuffix ns key =
      joined [ns.value.toList, key.workflowInstId.toList, key.leaf] := by
  have hNs := ns.plain.isName
  have hSecond : ∀ part ∈ [ns.value.toList, key.workflowInstId.toList], '/' ∉ part ∧ part ≠ [] :=
    List.forall_mem_cons.mpr ⟨⟨hNs.plain, hNs.nonempty⟩,
      List.forall_mem_singleton.mpr ⟨hInst.isName.plain, hInst.isName.nonempty⟩⟩
  have hInner : join ns.value.toList key.workflowInstId.toList =
      joined [ns.value.toList, key.workflowInstId.toList] := by
    rw [join_name hNs.nonempty hNs.ends.2 hInst.isName.ends.1]
    simp [joined, List.intercalate]
  have hOuter : join (joined [ns.value.toList, key.workflowInstId.toList]) key.leaf =
      joined [ns.value.toList, key.workflowInstId.toList, key.leaf] := by
    rw [join_name (joined_ne_nil hSecond (List.cons_ne_nil _ _))
      (joined_ends hSecond (List.cons_ne_nil _ _)).2 hLeaf.ends.1]
    simp [joined, List.intercalate]
  have hText : workspacePathSuffix ns key =
      join (join ns.value.toList key.workflowInstId.toList) key.leaf := by
    cases key with
    | task inst taskId =>
        rw [workspacePathSuffix, String.toList_append]
        rfl
    | group inst groupName =>
        rw [workspacePathSuffix, String.toList_append]
        rfl
  rw [hText, hInner, hOuter]

/-! ### What a worker accepts -/

/-- Where a suffix goes below the root. -/
def Below (workingDirectory root suffix : Text) (below : List Text) : Prop :=
  below ≠ [] ∧ (∀ name ∈ below, IsName name) ∧
    names (resolve workingDirectory [root, suffix]) =
      names (resolve workingDirectory [root]) ++ below

/-- The check of the worker lets through relative paths that do not lead above
their start. -/
theorem validateWorkspacePathSuffix_ok {suffix : Text}
    (h : validateWorkspacePathSuffix suffix = .ok ()) :
    suffix ≠ [] ∧ isAbsolute suffix = false ∧ components true suffix ≠ [] ∧
      ['.', '.'] ∉ components true suffix := by
  unfold validateWorkspacePathSuffix at h
  split at h
  · cases h
  · rename_i hRelative
    rw [not_or, Bool.not_eq_true] at hRelative
    dsimp only at h
    split at h
    · cases h
    · rename_i hNormal
      rw [not_or, not_or] at hNormal
      obtain ⟨hDot, _, hParts⟩ := hNormal
      refine ⟨hRelative.1, hRelative.2, components_of_normal hRelative.1 hRelative.2 hDot ?_⟩
      exact fun part hMem => ⟨fun hNil => hParts ⟨part, hMem, .inr hNil⟩,
        fun hDots => hParts ⟨part, hMem, .inl hDots⟩⟩

/-- Names joined by slashes pass it. -/
theorem validateWorkspacePathSuffix_joined {parts : List Text} (h : ∀ part ∈ parts, IsName part)
    (hNe : parts ≠ []) : validateWorkspacePathSuffix (joined parts) = .ok () := by
  have hPlain (part : Text) (hMem : part ∈ parts) : '/' ∉ part ∧ part ≠ [] :=
    ⟨(h part hMem).plain, (h part hMem).nonempty⟩
  have hSplit := joined_splitOn (fun part hMem => (hPlain part hMem).1) hNe
  unfold validateWorkspacePathSuffix
  rw [if_neg (by simp [joined_ne_nil hPlain hNe, (joined_ends hPlain hNe).1])]
  dsimp only
  rw [normalize_joined h hNe, hSplit, if_neg]
  rw [not_or, not_or]
  refine ⟨fun hDot => ?_, fun hUp => ?_, fun ⟨part, hMem, hBad⟩ => ?_⟩
  · rw [hDot] at hSplit
    exact (h ['.'] (hSplit ▸ by decide)).notDot rfl
  · obtain ⟨rest, hText⟩ := hUp
    rw [← hText, show ['.', '.', '/'] ++ rest = ['.', '.'] ++ '/' :: rest from rfl,
      List.splitOn_append_cons_self] at hSplit
    exact (h ['.', '.'] (hSplit ▸ List.mem_append_left _ (by decide))).notDots rfl
  · exact hBad.elim (h part hMem).notDots (h part hMem).nonempty

/-- Whatever a worker accepts resolves strictly below its root. -/
theorem below_of_validated {workingDirectory root suffix : Text}
    (hAbsolute : isAbsolute workingDirectory = true)
    (h : validateWorkspacePathSuffix suffix = .ok ()) :
    ∃ below, Below workingDirectory root suffix below := by
  obtain ⟨hNe, hRelative, hComponents, hBelow⟩ := validateWorkspacePathSuffix_ok h
  refine ⟨components true suffix, hComponents, fun name hMem => ?_,
    names_resolve hAbsolute hNe hRelative hBelow⟩
  rcases components_kept true suffix name hMem with hName | ⟨_, hDots⟩
  · exact hName
  · exact absurd (hDots ▸ hMem) hBelow

namespace DispatchedTask

variable {dispatch dispatch' : DispatchedTask}

/-- A workspace belongs to the instance that the task is dispatched for. -/
theorem workspaceKey_inst (dispatch : DispatchedTask) :
    dispatch.workspaceKey.workflowInstId = dispatch.workflowInstId := by
  rw [workspaceKey, workspaceKeyForTask]
  split <;> rfl

/-- The names of the directory of a dispatch below the root. -/
def directory (dispatch : DispatchedTask) : List Text :=
  [dispatch.ns.value.toList, dispatch.workflowInstId.toList, dispatch.workspaceKey.leaf]

theorem Possible.inst_plain (h : dispatch.Possible) : PlainId dispatch.workflowInstId := by
  obtain ⟨definition, hStored, hRuns⟩ := h.runs
  exact hRuns.plain hStored

/-- The last component of a workspace is a name. -/
theorem Possible.leaf_isName (h : dispatch.Possible) : IsName dispatch.workspaceKey.leaf := by
  obtain ⟨definition, hStored, task, hTask, hId, hWorkspace⟩ := h.defined
  obtain ⟨hTaskId, hGroup⟩ := hStored.identifiers.2 task hTask
  rw [workspaceKey, workspaceKeyForTask, ← hWorkspace]
  cases hSame : task.workspace with
  | none =>
      exact isName_of_plain (List.append_ne_nil_of_left_ne_nil (by decide) _)
        (List.forall_mem_append.mpr ⟨by simp [PlainChar], hId ▸ hTaskId.plain.chars⟩)
  | some group =>
      exact isName_of_plain (List.append_ne_nil_of_left_ne_nil (by decide) _)
        (List.forall_mem_append.mpr ⟨by simp [PlainChar], (hGroup group hSame).plain.chars⟩)

theorem Possible.directory_isName (h : dispatch.Possible) :
    ∀ name ∈ dispatch.directory, IsName name :=
  List.forall_mem_cons.mpr ⟨dispatch.ns.plain.isName,
    List.forall_mem_cons.mpr ⟨h.inst_plain.isName, List.forall_mem_singleton.mpr h.leaf_isName⟩⟩

theorem Possible.suffix_eq (h : dispatch.Possible) : dispatch.suffix = joined dispatch.directory := by
  have hInst : PlainId dispatch.workspaceKey.workflowInstId := by
    rw [workspaceKey_inst]
    exact h.inst_plain
  rw [suffix, workspacePathSuffix_eq hInst h.leaf_isName, workspaceKey_inst, directory]

/-- Below an absolute working directory the suffix stays below the root. -/
theorem Possible.below (h : dispatch.Possible) {workingDirectory : Text}
    (hAbsolute : isAbsolute workingDirectory = true) (root : Text) :
    Below workingDirectory root dispatch.suffix dispatch.directory := by
  have hNames := h.directory_isName
  have hComponents : components true dispatch.suffix = dispatch.directory := by
    rw [h.suffix_eq, components_joined hNames (List.cons_ne_nil _ _)]
  have hValid : validateWorkspacePathSuffix dispatch.suffix = .ok () := by
    rw [h.suffix_eq]
    exact validateWorkspacePathSuffix_joined hNames (List.cons_ne_nil _ _)
  obtain ⟨hNe, hRelative, _, hBelow⟩ := validateWorkspacePathSuffix_ok hValid
  refine ⟨List.cons_ne_nil _ _, hNames, ?_⟩
  rw [← hComponents]
  exact names_resolve hAbsolute hNe hRelative hBelow

/-- One directory inside the other is the same directory, of one key. -/
theorem same_key (hPrefix : dispatch.directory <+: dispatch'.directory) :
    dispatch.ns = dispatch'.ns ∧ dispatch.workspaceKey = dispatch'.workspaceKey := by
  have hSame := hPrefix.eq_of_length rfl
  obtain ⟨hNs, hRest⟩ := List.cons.inj hSame
  obtain ⟨hInst, hRest⟩ := List.cons.inj hRest
  obtain ⟨hLeaf, _⟩ := List.cons.inj hRest
  constructor
  · exact Namespace.value_inj (String.toList_inj.mp hNs)
  · refine WorkspaceKey.leaf_inj ?_ hLeaf
    rw [workspaceKey_inst, workspaceKey_inst]
    exact String.toList_inj.mp hInst

theorem Possible.taskId_plain (h : dispatch.Possible) : PlainId dispatch.task.id := by
  obtain ⟨definition, hStored, task, hTask, hId, _⟩ := h.defined
  exact hId ▸ (hStored.identifiers.2 task hTask).1.plain

/-- Sessions of different keys have different names. -/
theorem Possible.same_session (h : dispatch.Possible) (h' : dispatch'.Possible)
    (hSame : serializeAgentSessionKey dispatch.agentSessionKey =
      serializeAgentSessionKey dispatch'.agentSessionKey) :
    dispatch.agentSessionKey = dispatch'.agentSessionKey := by
  have hText (dispatch : DispatchedTask) :
      (serializeAgentSessionKey dispatch.agentSessionKey).toList =
        (dispatch.ns.value.toList ++ '$' :: dispatch.workflowInstId.toList) ++
          '$' :: dispatch.task.id.toList := by
    simp only [serializeAgentSessionKey, String.toList_append, List.append_assoc]
    rfl
  have hPlain {id : String} (hId : PlainId id) : '$' ∉ id.toList := fun hMem =>
    (hId.chars '$' hMem).2.2 rfl
  have hLists := congrArg String.toList hSame
  rw [hText, hText] at hLists
  obtain ⟨hFirst, hTask⟩ := append_cons_inj (hPlain h.taskId_plain) (hPlain h'.taskId_plain) hLists
  obtain ⟨hNs, hInst⟩ := append_cons_inj (hPlain h.inst_plain) (hPlain h'.inst_plain) hFirst
  rw [agentSessionKey, agentSessionKey, String.toList_inj.mp hNs, String.toList_inj.mp hInst,
    String.toList_inj.mp hTask]

/-- Workspaces are kept apart: every suffix the orchestrator can dispatch is
accepted and resolves strictly below the worker's root; directories are the
same or nested for equal keys only; whatever a worker accepts stays inside the
root; and session names tell their keys apart. -/
theorem workspaces_isolated {workingDirectory : Text}
    (hAbsolute : isAbsolute workingDirectory = true) (root : Text) :
    (∀ dispatch : DispatchedTask, dispatch.Possible →
      validateWorkspacePathSuffix dispatch.suffix = .ok () ∧
        Below workingDirectory root dispatch.suffix dispatch.directory) ∧
    (∀ dispatch dispatch' : DispatchedTask, dispatch.Possible → dispatch'.Possible →
      names (resolve workingDirectory [root, dispatch.suffix]) <+:
          names (resolve workingDirectory [root, dispatch'.suffix]) →
        dispatch.ns = dispatch'.ns ∧ dispatch.workspaceKey = dispatch'.workspaceKey) ∧
    (∀ suffix path, resolveWorkspacePath workingDirectory root suffix = .ok path →
      path = resolve workingDirectory [root, suffix] ∧
        ∃ below, Below workingDirectory root suffix below) ∧
    ∀ dispatch dispatch' : DispatchedTask, dispatch.Possible → dispatch'.Possible →
      serializeAgentSessionKey dispatch.agentSessionKey =
          serializeAgentSessionKey dispatch'.agentSessionKey →
        dispatch.agentSessionKey = dispatch'.agentSessionKey := by
  refine ⟨fun dispatch h => ⟨?_, h.below hAbsolute root⟩, fun dispatch dispatch' h h' hPrefix => ?_,
    fun suffix path hPath => ?_, fun _ _ h h' hSame => h.same_session h' hSame⟩
  · rw [h.suffix_eq]
    exact validateWorkspacePathSuffix_joined h.directory_isName (List.cons_ne_nil _ _)
  · rw [(h.below hAbsolute root).2.2, (h'.below hAbsolute root).2.2, List.prefix_append_right_inj]
      at hPrefix
    exact same_key hPrefix
  · obtain ⟨⟨⟩, hValid, hPath⟩ := FallibleFold.bind_ok.mp hPath
    cases hPath
    exact ⟨rfl, below_of_validated hAbsolute hValid⟩

theorem reviewedDefinition_accepted :
    (validateAndNormalizeWorkflowDef reviewedDefinition).toOption.isSome = true := by
  decide +kernel

/-- The first task of a stored definition. -/
def sampleDispatch : DispatchedTask where
  ns := .global
  workflowInstId := createInstanceId "article" 1
  task := { noopTask "draft" with workspace := some ⟨"shared"⟩ }

/-- Its task can be dispatched for an instance of it. -/
theorem sampleDispatch_possible : sampleDispatch.Possible := by
  have hAccepted := FallibleFold.eq_ok_get reviewedDefinition_accepted
  have hStored : StoredDefinition reviewedDefinition.normalized := by
    refine ⟨reviewedDefinition, ?_⟩
    rw [hAccepted, (validateAndNormalizeWorkflowDef_eq hAccepted).1]
  have hId : reviewedDefinition.normalized.id = "article" := by decide +kernel
  have hRuns : RunsUnder reviewedDefinition.normalized (createInstanceId "article" 1) := by
    rw [← hId]
    exact .stored 1
  have hGroup : toAsciiLowercase "Shared" = "shared" := by decide +kernel
  exact ⟨⟨_, hStored, hRuns⟩, _, hStored, _, List.mem_cons_self, by decide +kernel,
    congrArg (fun groupName => some (Workspace.mk groupName)) hGroup⟩

/-- The workspace of the sample lies below its root. -/
theorem workspaces_isolated_sample :
    validateWorkspacePathSuffix sampleDispatch.suffix = .ok () ∧
      Below ['/'] "/srv".toList sampleDispatch.suffix sampleDispatch.directory :=
  (workspaces_isolated (by decide) "/srv".toList).1 sampleDispatch sampleDispatch_possible

end DispatchedTask

end RelayFold
