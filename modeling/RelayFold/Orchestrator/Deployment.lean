import RelayFold.Adapters.MemoryStorage
import RelayFold.Lifecycle.NoPanics

/-! The definitions of a deployment and all instances that run under them:
definitions are registered, instances are created and passes are run in any
order (`workflow_service.rs`). -/
namespace RelayFold

open WorkflowEngine

/-- The next store operation of a `create_workflow_def` whose definition has
been validated. -/
inductive RegistrationPoint where
  | checkDef
  | checkInstances
  | save
deriving DecidableEq

structure Registration where
  ns : Namespace
  definition : WorkflowDef
  overwrite : Bool
  point : RegistrationPoint

/-- An instance that is created, once its definition has been found. -/
structure InstanceCreation where
  ns : Namespace
  workflowDefId : String
  timestampNanos : Nat
  pinnedWorkerHost : WorkerHostId
  input : Option Json

def InstanceCreation.instanceId (creation : InstanceCreation) : String :=
  createInstanceId creation.workflowDefId creation.timestampNanos

structure Deployment where
  definitions : FiniteMap ResourceKey WorkflowDef
  instances : FiniteMap ResourceKey System
  registrations : List Registration
  creations : List InstanceCreation

/-- Function definitions may be other ones at every step of an instance. -/
inductive DeploymentAction where
  | createWorkflowDef (ns : Namespace) (submitted : WorkflowDef) (overwrite : Bool)
  | registrationStep (index : Nat)
  | createWorkflowInstance (creation : InstanceCreation)
  | commitCreation (index : Nat)
  | instance (ns : Namespace) (id : String) (functionDefs : String → Option FunctionDef)
      (action : Action)

namespace Deployment

def empty : Deployment := ⟨∅, ∅, [], []⟩

def findDef (d : Deployment) (ns : Namespace) (id : String) : Option WorkflowDef :=
  d.definitions.lookup (resourceKey ns id)

/-- What the passes in a namespace read. -/
def env (ext : Externals) (d : Deployment) (ns : Namespace)
    (functionDefs : String → Option FunctionDef) : EngineEnv where
  ext := ext
  ns := ns
  definitions := d.findDef ns
  functionDefs := functionDefs

/-- Whether a listing of the instances of a definition finds one. -/
def hasInstances (d : Deployment) (ns : Namespace) (workflowDefId : String) : Bool :=
  d.instances.toList.any fun entry =>
    (ofLex entry.1).1 = ns && entry.2.stored.workflowDefId = workflowDefId

def registered (d : Deployment) (registrations : List Registration) : Deployment :=
  { d with registrations := registrations }

/-- The next operation of a registration. One that finds instances of its
definition fails. -/
def registrationStep (d : Deployment) (index : Nat) (registration : Registration) : Deployment :=
  let ns := registration.ns
  let id := registration.definition.id
  let goOn (point : RegistrationPoint) :=
    d.registered (d.registrations.set index { registration with point := point })
  match registration.point with
  | .checkDef => goOn (if (d.findDef ns id).isSome then .checkInstances else .save)
  | .checkInstances =>
      if d.hasInstances ns id then d.registered (d.registrations.eraseIdx index) else goOn .save
  | .save =>
      { d.registered (d.registrations.eraseIdx index) with
        definitions := d.definitions.insert (resourceKey ns id) registration.definition }

def step (ext : Externals) (d : Deployment) : DeploymentAction → Option Deployment
  | .createWorkflowDef ns submitted overwrite =>
      match validateAndNormalizeWorkflowDef submitted with
      | .error _ => some d
      | .ok definition =>
          let point := if overwrite then .save else .checkDef
          some (d.registered (d.registrations ++ [⟨ns, definition, overwrite, point⟩]))
  | .registrationStep index => do
      let registration ← d.registrations[index]?
      return d.registrationStep index registration
  | .createWorkflowInstance creation =>
      if (d.findDef creation.ns creation.workflowDefId).isSome then
        some { d with creations := d.creations ++ [creation] }
      else some d
  | .commitCreation index => do
      let creation ← d.creations[index]?
      let key := resourceKey creation.ns creation.instanceId
      let left := { d with creations := d.creations.eraseIdx index }
      -- An instance that exists already is not created again.
      if (d.instances.lookup key).isSome then return left
      else
        return { left with
          instances := d.instances.insert key (System.created creation.instanceId
            creation.workflowDefId creation.pinnedWorkerHost creation.input) }
  | .instance ns id functionDefs action => do
      let key := resourceKey ns id
      let s ← d.instances.lookup key
      let s' ← s.step (d.env ext ns functionDefs) action
      return { d with instances := d.instances.insert key s' }

/-- Saving the definition changes nothing for the instances that exist. -/
def Harmless (d : Deployment) (registration : Registration) : Prop :=
  d.hasInstances registration.ns registration.definition.id = false ∨
    d.findDef registration.ns registration.definition.id = some registration.definition

/-- No save replaces the definition of existing instances by another one. -/
def SavesHarmless (d : Deployment) : DeploymentAction → Prop
  | .registrationStep index => ∀ registration, d.registrations[index]? = some registration →
      registration.point = .save → d.Harmless registration
  | _ => True

/-- An overwrite replaces no definition that has instances by another one, and
no instance is created between the checks of a registration without overwrite
and its save of another definition. -/
def Orderly (d : Deployment) : DeploymentAction → Prop
  | .registrationStep index => ∀ registration, d.registrations[index]? = some registration →
      registration.point = .save → registration.overwrite = true → d.Harmless registration
  | .commitCreation index => ∀ creation, d.creations[index]? = some creation →
      ∀ registration ∈ d.registrations, registration.point = .save →
        registration.overwrite = false → registration.ns = creation.ns →
        registration.definition.id = creation.workflowDefId →
          d.findDef registration.ns registration.definition.id = some registration.definition
  | _ => True

/-- Runs of a deployment. -/
abbrev Steps (ext : Externals) : Deployment → List DeploymentAction → Deployment → Prop :=
  Run fun d action d' => d.step ext action = some d' ∧ d.Orderly action

/-- Runs in which no instance loses its definition. -/
abbrev HarmlessSteps (ext : Externals) : Deployment → List DeploymentAction → Deployment → Prop :=
  Run fun d action d' => d.step ext action = some d' ∧ d.SavesHarmless action

/-- An instance and the definition that its passes read. -/
structure RunsUnder (ext : Externals) (d : Deployment) (ns : Namespace) (definition : WorkflowDef)
    (s : System) : Prop where
  defined : d.findDef ns s.stored.workflowDefId = some definition
  wellFormed : WellFormedDef definition
  tracked : ∀ functionDefs, Tracked (d.env ext ns functionDefs) definition s
  known : ∀ workflow ∈ s.snapshots, KnownTasks definition workflow
  defId : ∀ workflow ∈ s.snapshots, workflow.workflowDefId = s.stored.workflowDefId
  noPanic : ¬s.pass.Panicked

structure Inv (ext : Externals) (d : Deployment) : Prop where
  definitions : ∀ ns id definition, d.findDef ns id = some definition → WellFormedDef definition
  registrations : ∀ registration ∈ d.registrations, WellFormedDef registration.definition
  creations : ∀ creation ∈ d.creations,
    (d.findDef creation.ns creation.workflowDefId).isSome = true
  instances : ∀ ns id s, d.instances.lookup (resourceKey ns id) = some s →
    ∃ definition, d.RunsUnder ext ns definition s

section Lemmas

variable {ext : Externals} {d d' : Deployment} {ns : Namespace} {definition : WorkflowDef}
  {s s' : System}

/-- The check for instances finds those of the namespace that run the
definition. -/
theorem hasInstances_iff {workflowDefId : String} : d.hasInstances ns workflowDefId = true ↔
    ∃ id s, d.instances.lookup (resourceKey ns id) = some s ∧
      s.stored.workflowDefId = workflowDefId := by
  simp only [hasInstances, List.any_eq_true, FiniteMap.mem_toList, Bool.and_eq_true,
    decide_eq_true_eq]
  constructor
  · rintro ⟨⟨key, s⟩, hFound, rfl, hDefId⟩
    exact ⟨(ofLex key).2, s, hFound, hDefId⟩
  · rintro ⟨id, s, hFound, hDefId⟩
    exact ⟨(resourceKey ns id, s), hFound, rfl, hDefId⟩

theorem hasInstances_false {workflowDefId : String} (h : d.hasInstances ns workflowDefId = false)
    {id : String} (hFound : d.instances.lookup (resourceKey ns id) = some s) :
    s.stored.workflowDefId ≠ workflowDefId := by
  rintro rfl
  rw [hasInstances_iff.mpr ⟨id, s, hFound, rfl⟩] at h
  cases h

/-- A run of an instance goes on under other definitions, as long as its own is
the same. -/
theorem RunsUnder.of_findDef (h : d.RunsUnder ext ns definition s)
    (hSame : d'.findDef ns s.stored.workflowDefId = d.findDef ns s.stored.workflowDefId) :
    d'.RunsUnder ext ns definition s := by
  refine ⟨hSame.trans h.defined, h.wellFormed, fun functionDefs => ?_, h.known, h.defId, h.noPanic⟩
  obtain ⟨l, hRefines, hStarts⟩ := h.tracked functionDefs
  refine ⟨l, ⟨hRefines.stored, ⟨hRefines.history.older, fun workflow hMem => ?_⟩, hRefines.sound,
    hRefines.pass⟩, hStarts⟩
  change d'.findDef ns workflow.workflowDefId = some definition
  rw [h.defId workflow hMem, hSame, h.defined]

/-- A new instance runs under the definition that was found when it was
requested. -/
theorem RunsUnder.created {workflowDefId : String}
    (hFound : d.findDef ns workflowDefId = some definition) (hDef : WellFormedDef definition)
    (id : String) (pinnedWorkerHost : WorkerHostId) (input : Option Json) :
    d.RunsUnder ext ns definition (System.created id workflowDefId pinnedWorkerHost input) where
  defined := hFound
  wellFormed := hDef
  tracked functionDefs := .created pinnedWorkerHost input hFound
  known workflow hMem := by
    rw [List.mem_singleton.mp hMem]
    exact .created id workflowDefId pinnedWorkerHost input
  defId workflow hMem := by rw [List.mem_singleton.mp hMem]
  noPanic h := by cases h

/-- A step of an instance keeps the definition it runs under. -/
theorem RunsUnder.step (h : d.RunsUnder ext ns definition s)
    {functionDefs : String → Option FunctionDef} {action : Action}
    (hStep : s.step (d.env ext ns functionDefs) action = some s') :
    s'.stored.workflowDefId = s.stored.workflowDefId ∧ d.RunsUnder ext ns definition s' := by
  obtain ⟨l, hRefines, _⟩ := h.tracked functionDefs
  have hStored : KnownTasks definition s.stored := h.known _ List.mem_cons_self
  have hStored' : KnownTasks definition s'.stored :=
    ((h.tracked functionDefs).knownTasks h.wellFormed hStored (Run.single hStep)).2
  have hNext : s'.stored.workflowDefId = s.stored.workflowDefId ∧
      (∀ workflow ∈ s'.snapshots, workflow.workflowDefId = s'.stored.workflowDefId) ∧
      ∀ workflow ∈ s'.snapshots, KnownTasks definition workflow := by
    cases (hRefines.step hStep).extended with
    | same hStored hPast =>
        refine ⟨by rw [hStored], ?_⟩
        simp only [System.snapshots, hStored, hPast]
        exact ⟨h.defId, h.known⟩
    | written hWrite hReduce hStored hPast =>
        have hSame : s'.stored.workflowDefId = s.stored.workflowDefId := by
          rw [hStored]
          exact (reduceWorkflowInstanceEvents_identity hReduce).workflowDefId
        refine ⟨hSame, fun workflow hMem => ?_, fun workflow hMem => ?_⟩
        · rcases List.mem_cons.mp hMem with rfl | hMem
          · rfl
          · rw [hPast] at hMem
            rw [hSame, h.defId workflow hMem]
        · rcases List.mem_cons.mp hMem with rfl | hMem
          · exact hStored'
          · rw [hPast] at hMem
            exact h.known workflow hMem
  refine ⟨hNext.1, ?_, h.wellFormed, fun other => ?_, hNext.2.2, hNext.2.1, ?_⟩
  · rw [hNext.1]
    exact h.defined
  · obtain ⟨l', hRefines', hStarts'⟩ := (h.tracked functionDefs).step h.wellFormed hStep
    exact ⟨l', ⟨hRefines'.stored, ⟨hRefines'.history.older, hRefines'.history.defId⟩,
      hRefines'.sound, hRefines'.pass⟩, hStarts'⟩
  · exact (h.tracked functionDefs).step_not_panicked h.wellFormed hStored h.noPanic hStep

theorem Inv.registered (h : d.Inv ext) {registrations : List Registration}
    (hRegistrations : ∀ registration ∈ registrations, WellFormedDef registration.definition) :
    (d.registered registrations).Inv ext :=
  ⟨h.definitions, hRegistrations, h.creations, fun ns id s hFound =>
    (h.instances ns id s hFound).imp fun _ hRuns => hRuns.of_findDef rfl⟩

theorem Inv.erased (h : d.Inv ext) (index : Nat) :
    (d.registered (d.registrations.eraseIdx index)).Inv ext :=
  h.registered fun _ hMem => h.registrations _ (List.mem_of_mem_eraseIdx hMem)

theorem Inv.goOn (h : d.Inv ext) {index : Nat} {registration : Registration}
    (hMem : registration ∈ d.registrations) (point : RegistrationPoint) :
    (d.registered (d.registrations.set index { registration with point := point })).Inv ext := by
  refine h.registered fun other hOther => ?_
  rcases List.mem_or_eq_of_mem_set hOther with hOther | rfl
  · exact h.registrations other hOther
  · exact h.registrations registration hMem

/-- A definition that is not stored has no instances, for definitions are never
deleted. -/
theorem Inv.noInstances (h : d.Inv ext) {workflowDefId : String}
    (hNone : d.findDef ns workflowDefId = none) : d.hasInstances ns workflowDefId = false := by
  rw [← Bool.not_eq_true]
  intro hSome
  obtain ⟨id, s, hFound, rfl⟩ := hasInstances_iff.mp hSome
  obtain ⟨definition, hRuns⟩ := h.instances ns id s hFound
  rw [hRuns.defined] at hNone
  cases hNone

/-- The deployment after a save. -/
def saved (d : Deployment) (index : Nat) (registration : Registration) : Deployment :=
  { d.registered (d.registrations.eraseIdx index) with
    definitions := d.definitions.insert
      (resourceKey registration.ns registration.definition.id) registration.definition }

/-- A save is seen under its own key only. -/
theorem findDef_saved (index : Nat) (registration : Registration) (ns' : Namespace) (id' : String) :
    (d.saved index registration).findDef ns' id' =
      if ns' = registration.ns ∧ id' = registration.definition.id then some registration.definition
      else d.findDef ns' id' := by
  unfold findDef saved
  rw [FiniteMap.lookup_insert_eq]
  simp only [resourceKey_inj]

/-- A save that is harmless for the instances keeps what all of them rely
on. -/
theorem Inv.saved (h : d.Inv ext) {index : Nat} {registration : Registration}
    (hMem : registration ∈ d.registrations) (hHarmless : d.Harmless registration) :
    (d.saved index registration).Inv ext := by
  refine ⟨fun ns id definition hFound => ?_, (h.erased index).registrations,
    fun creation hCreation => ?_, fun ns id s hFound => ?_⟩
  · rw [findDef_saved] at hFound
    split at hFound
    · cases hFound
      exact h.registrations registration hMem
    · exact h.definitions ns id definition hFound
  · rw [findDef_saved]
    split
    · rfl
    · exact h.creations creation hCreation
  · obtain ⟨definition, hRuns⟩ := h.instances ns id s hFound
    refine ⟨definition, hRuns.of_findDef ?_⟩
    rw [findDef_saved]
    split
    · rename_i hKey
      rcases hHarmless with hNone | hKept
      · exact absurd hKey.2 (hasInstances_false (hKey.1 ▸ hNone) hFound)
      · rw [hKey.1, hKey.2, hKept]
    · rfl

/-- One more instance, or a later state of one, that runs under its
definition. -/
theorem Inv.inserted (h : d.Inv ext) {id : String} (hRuns : d.RunsUnder ext ns definition s)
    {creations : List InstanceCreation} (hCreations : ∀ creation ∈ creations,
      creation ∈ d.creations) :
    ({ d with creations := creations, instances := d.instances.insert (resourceKey ns id) s } :
      Deployment).Inv ext := by
  refine ⟨h.definitions, h.registrations,
    fun creation hMem => h.creations creation (hCreations creation hMem), fun ns' id' s' hFound => ?_⟩
  rw [FiniteMap.lookup_insert_eq] at hFound
  split at hFound
  · rename_i hKey
    cases hFound
    obtain rfl := (resourceKey_inj.mp hKey).1
    exact ⟨definition, hRuns.of_findDef rfl⟩
  · obtain ⟨definition', hRuns'⟩ := h.instances ns' id' s' hFound
    exact ⟨definition', hRuns'.of_findDef rfl⟩

/-- Every step keeps the invariant, if a save does not replace the definition
of existing instances by another one. -/
theorem Inv.step (h : d.Inv ext) {action : DeploymentAction}
    (hStep : d.step ext action = some d') (hHarmless : d.SavesHarmless action) : d'.Inv ext := by
  cases action with
  | createWorkflowDef ns submitted overwrite =>
      simp only [Deployment.step] at hStep
      split at hStep
      · cases hStep
        exact h
      · rename_i definition hAccepted
        cases hStep
        refine h.registered fun registration hMem => ?_
        rcases List.mem_append.mp hMem with hMem | hMem
        · exact h.registrations registration hMem
        · rw [List.mem_singleton.mp hMem]
          exact validateAndNormalizeWorkflowDef_ok hAccepted
  | registrationStep index =>
      obtain ⟨registration, hIndex, hStep⟩ := Option.bind_eq_some_iff.mp hStep
      have hMem := List.mem_of_getElem? hIndex
      cases hStep
      unfold Deployment.registrationStep
      dsimp only
      split
      · exact h.goOn hMem _
      · split
        · exact h.erased index
        · exact h.goOn hMem _
      · rename_i hPoint
        exact h.saved hMem (hHarmless registration hIndex hPoint)
  | createWorkflowInstance creation =>
      simp only [Deployment.step] at hStep
      split at hStep
      · rename_i hFound
        cases hStep
        refine ⟨h.definitions, h.registrations, fun other hMem => ?_,
          fun ns id s hInstance => (h.instances ns id s hInstance).imp fun _ hRuns =>
            hRuns.of_findDef rfl⟩
        rcases List.mem_append.mp hMem with hMem | hMem
        · exact h.creations other hMem
        · rw [List.mem_singleton.mp hMem]
          exact hFound
      · cases hStep
        exact h
  | commitCreation index =>
      obtain ⟨creation, hIndex, hStep⟩ := Option.bind_eq_some_iff.mp hStep
      have hMem := List.mem_of_getElem? hIndex
      dsimp only at hStep
      split at hStep
      · cases hStep
        exact ⟨h.definitions, h.registrations, fun other hOther =>
          h.creations other (List.mem_of_mem_eraseIdx hOther), fun ns id s hInstance =>
            (h.instances ns id s hInstance).imp fun _ hRuns => hRuns.of_findDef rfl⟩
      · cases hStep
        obtain ⟨definition, hFound⟩ := Option.isSome_iff_exists.mp (h.creations creation hMem)
        exact h.inserted (.created hFound (h.definitions _ _ _ hFound) _ _ _)
          fun other hOther => List.mem_of_mem_eraseIdx hOther
  | «instance» ns id functionDefs action =>
      obtain ⟨s, hFound, hStep⟩ := Option.bind_eq_some_iff.mp hStep
      obtain ⟨s', hNext, hStep⟩ := Option.bind_eq_some_iff.mp hStep
      cases hStep
      obtain ⟨definition, hRuns⟩ := h.instances ns id s hFound
      exact h.inserted (hRuns.step hNext).2 fun _ hMem => hMem

theorem Inv.empty : Deployment.empty.Inv ext where
  definitions _ _ _ hFound := by cases hFound
  registrations _ hMem := by cases hMem
  creations _ hMem := by cases hMem
  instances _ _ _ hFound := by cases hFound

theorem HarmlessSteps.inv {actions : List DeploymentAction}
    (run : HarmlessSteps ext Deployment.empty actions d) : d.Inv ext :=
  run.invariant .empty fun _ _ _ h hStep => h.step hStep.1 hStep.2

/-- A registration that does not overwrite has made sure that its save is
harmless. -/
def Checked (d : Deployment) : Prop :=
  ∀ registration ∈ d.registrations, registration.point = .save → registration.overwrite = false →
    d.Harmless registration

/-- A registration that ends leaves the checks of the others valid. -/
theorem Checked.erased (h : d.Checked) (index : Nat) :
    (d.registered (d.registrations.eraseIdx index)).Checked :=
  fun registration hMem => h registration (List.mem_of_mem_eraseIdx hMem)

/-- A registration goes on to its save when there is no instance. -/
theorem Checked.goOn (h : d.Checked) {index : Nat} {registration : Registration}
    {point : RegistrationPoint} (hNone : point = .save →
      d.hasInstances registration.ns registration.definition.id = false) :
    (d.registered (d.registrations.set index { registration with point := point })).Checked := by
  intro other hOther hSave hKeeps
  rcases List.mem_or_eq_of_mem_set hOther with hOther | rfl
  · exact h other hOther hSave hKeeps
  · exact .inl (hNone hSave)

/-- After a harmless save the checks that other registrations have made still
hold. -/
theorem Checked.saved (h : d.Checked) {index : Nat} {registration : Registration}
    (hHarmless : d.Harmless registration) : (d.saved index registration).Checked := by
  intro other hOther hSave hKeeps
  rcases h other (List.mem_of_mem_eraseIdx hOther) hSave hKeeps with hNone | hSame
  · exact .inl hNone
  · by_cases hKey : other.ns = registration.ns ∧ other.definition.id = registration.definition.id
    · rcases hHarmless with hNone | hKept
      · refine .inl ?_
        rw [hKey.1, hKey.2]
        exact hNone
      · refine .inr ?_
        rw [findDef_saved, if_pos hKey, ← hKept, ← hSame, hKey.1, hKey.2]
    · refine .inr ?_
      rw [findDef_saved, if_neg hKey]
      exact hSame

/-- One more instance, or a later state of one. It must not be the first one of
a definition that a registration is about to replace. -/
theorem Checked.inserted (h : d.Checked) {id : String} {creations : List InstanceCreation}
    (hChecked : ∀ registration ∈ d.registrations, registration.point = .save →
      registration.overwrite = false → registration.ns = ns →
      registration.definition.id = s.stored.workflowDefId →
      d.hasInstances ns s.stored.workflowDefId = false →
        d.findDef registration.ns registration.definition.id = some registration.definition) :
    ({ d with creations := creations, instances := d.instances.insert (resourceKey ns id) s } :
      Deployment).Checked := by
  intro other hOther hSave hKeeps
  rcases h other hOther hSave hKeeps with hNone | hSame
  · by_cases hKey : other.ns = ns ∧ other.definition.id = s.stored.workflowDefId
    · exact .inr (hChecked other hOther hSave hKeeps hKey.1 hKey.2
        (by rw [← hKey.1, ← hKey.2]; exact hNone))
    · refine .inl (Bool.eq_false_iff.mpr fun hSome => ?_)
      obtain ⟨id', s', hFound, hDefId⟩ := hasInstances_iff.mp hSome
      rw [FiniteMap.lookup_insert_eq] at hFound
      split at hFound
      · rename_i hSameKey
        cases hFound
        exact hKey ⟨(resourceKey_inj.mp hSameKey).1, hDefId.symm⟩
      · exact hasInstances_false hNone hFound hDefId
  · exact .inr hSame

/-- The checks of the registrations make an orderly step harmless. -/
theorem Checked.savesHarmless (h : d.Checked) {action : DeploymentAction}
    (hOrderly : d.Orderly action) : d.SavesHarmless action := by
  cases action with
  | registrationStep index =>
      intro registration hIndex hPoint
      cases hOverwrite : registration.overwrite with
      | false => exact h registration (List.mem_of_getElem? hIndex) hPoint hOverwrite
      | true => exact hOrderly registration hIndex hPoint hOverwrite
  | createWorkflowDef _ _ _ | createWorkflowInstance _ | commitCreation _ | «instance» _ _ _ _ =>
      trivial

/-- Every orderly step keeps what the registrations have checked. -/
theorem Checked.step (h : d.Checked) (hInv : d.Inv ext) {action : DeploymentAction}
    (hStep : d.step ext action = some d') (hOrderly : d.Orderly action) : d'.Checked := by
  cases action with
  | createWorkflowDef ns submitted overwrite =>
      simp only [Deployment.step] at hStep
      split at hStep
      · cases hStep
        exact h
      · cases hStep
        intro registration hMem hSave hKeeps
        rcases List.mem_append.mp hMem with hMem | hMem
        · exact h registration hMem hSave hKeeps
        · rw [List.mem_singleton.mp hMem] at hSave hKeeps
          obtain rfl : overwrite = false := hKeeps
          cases hSave
  | registrationStep index =>
      obtain ⟨registration, hIndex, hStep⟩ := Option.bind_eq_some_iff.mp hStep
      cases hStep
      unfold Deployment.registrationStep
      dsimp only
      split
      · refine h.goOn fun hSave => hInv.noInstances ?_
        split at hSave
        · cases hSave
        · rename_i hNone
          simpa using hNone
      · split
        · exact h.erased index
        · rename_i hNone
          exact h.goOn fun _ => by simpa using hNone
      · rename_i hPoint
        exact h.saved (h.savesHarmless hOrderly registration hIndex hPoint)
  | createWorkflowInstance creation =>
      simp only [Deployment.step] at hStep
      split at hStep <;> cases hStep <;> exact h
  | commitCreation index =>
      obtain ⟨creation, hIndex, hStep⟩ := Option.bind_eq_some_iff.mp hStep
      dsimp only at hStep
      split at hStep
      · cases hStep
        exact h
      · cases hStep
        refine h.inserted fun registration hRegistration hSave hKeeps hNs hId _ => ?_
        exact hOrderly creation hIndex registration hRegistration hSave hKeeps hNs hId
  | «instance» ns id functionDefs action =>
      obtain ⟨s, hFound, hStep⟩ := Option.bind_eq_some_iff.mp hStep
      obtain ⟨s', hNext, hStep⟩ := Option.bind_eq_some_iff.mp hStep
      cases hStep
      obtain ⟨definition, hRuns⟩ := hInv.instances ns id s hFound
      refine h.inserted fun registration _ _ _ _ _ hNone => ?_
      exact absurd (hRuns.step hNext).1.symm (hasInstances_false hNone hFound)

/-- In an orderly run every save is harmless, since the check before it still
holds when it happens. -/
theorem Steps.harmless {actions : List DeploymentAction}
    (run : Steps ext Deployment.empty actions d) :
    HarmlessSteps ext Deployment.empty actions d ∧ d.Checked := by
  induction run with
  | nil => exact ⟨.nil _, fun _ hMem => by cases hMem⟩
  | snoc prior last ih =>
      obtain ⟨hHarmless, hChecked⟩ := ih
      exact ⟨hHarmless.snoc ⟨last.1, hChecked.savesHarmless last.2⟩,
        hChecked.step hHarmless.inv last.1 last.2⟩

/-- The pass of an instance finds what it looks up, and returns. -/
structure PassReturns (ext : Externals) (d : Deployment) (ns : Namespace) (s : System) : Prop where
  /-- The definition that the pass has read has the task of every attempt. -/
  found : ∀ pass, s.pass = .active pass → KnownTasks pass.definition pass.workflow
  unwraps : s.pass ≠ .finished .panicked
  /-- Every answer is taken on to a commit: no verifier misses its definition or its state. -/
  commits : ∀ functionDefs answer s', s.step (d.env ext ns functionDefs) (.answer answer) = some s' →
    s'.pass.inFlight = true
  /-- Left alone the pass ends without a panic, whatever its workers answer. -/
  ends : ∀ functionDefs, ∃ bound, ∀ answers : List Answer, bound < answers.length →
    (answers.foldl (System.move (d.env ext ns functionDefs)) s).pass.inFlight = false ∧
      (answers.foldl (System.move (d.env ext ns functionDefs)) s).pass ≠ .finished .panicked

/-- Under its definition a pass of the instance returns: it does not unwrap
what is missing and commits what it has to. -/
theorem RunsUnder.passReturns (h : d.RunsUnder ext ns definition s) : PassReturns ext d ns s where
  found pass hPass := by
    obtain ⟨l, hRefines, _⟩ := h.tracked fun _ => none
    have hInv := hRefines.pass
    rw [hPass] at hInv
    rw [hInv.loaded]
    exact h.known _ hInv.held
  unwraps := h.noPanic
  commits functionDefs _ _ hStep := (h.tracked functionDefs).answer_inFlight h.wellFormed hStep
  ends functionDefs := by
    obtain ⟨bound, hEnds⟩ := (h.tracked functionDefs).ends h.wellFormed
    refine ⟨bound, fun answers hLong => ⟨hEnds answers hLong, ?_⟩⟩
    have hRest : d.RunsUnder ext ns definition
        (answers.foldl (System.move (d.env ext ns functionDefs)) s) := by
      refine List.foldlRecOn answers (motive := fun t => d.RunsUnder ext ns definition t) _ h ?_
      exact fun t hState answer _ => (hState.step (System.move_step _ t answer)).2
    exact hRest.noPanic

end Lemmas

/-- As long as no save replaces the definition of existing instances by another
one, the passes of all instances find what they look up, and return. -/
theorem HarmlessSteps.passes_return {ext : Externals} {d : Deployment}
    {actions : List DeploymentAction} {ns : Namespace} {id : String} {s : System}
    (run : HarmlessSteps ext Deployment.empty actions d)
    (hInstance : d.instances.lookup (resourceKey ns id) = some s) : PassReturns ext d ns s := by
  obtain ⟨definition, hRuns⟩ := run.inv.instances ns id s hInstance
  exact hRuns.passReturns

/-- Where nobody overwrites the definition of existing instances by another
one, the checks of the other registrations are enough for that, if no instance
is created between a check and its save. -/
theorem Steps.passes_never_panic {ext : Externals} {d : Deployment} {actions : List DeploymentAction}
    {ns : Namespace} {id : String} {s : System} (run : Steps ext Deployment.empty actions d)
    (hInstance : d.instances.lookup (resourceKey ns id) = some s)
    (functionDefs : String → Option FunctionDef) :
    s.pass ≠ .finished .panicked ∧
    (∀ answer s', s.step (d.env ext ns functionDefs) (.answer answer) = some s' →
      s'.pass.inFlight = true) ∧
    ∃ bound, ∀ answers : List Answer, bound < answers.length →
      (answers.foldl (System.move (d.env ext ns functionDefs)) s).pass.inFlight = false ∧
      (answers.foldl (System.move (d.env ext ns functionDefs)) s).pass ≠ .finished .panicked := by
  obtain ⟨definition, hRuns⟩ := run.harmless.1.inv.instances ns id s hInstance
  have hReturns := hRuns.passReturns
  exact ⟨hReturns.unwraps, hReturns.commits functionDefs, hReturns.ends functionDefs⟩

/-- No definition is overwritten, and none is being registered when an instance
is created. -/
def tidy (d : Deployment) : DeploymentAction → Bool
  | .registrationStep _ => d.registrations.all fun registration => !registration.overwrite
  | .commitCreation _ => d.registrations.isEmpty
  | _ => true

/-- A sufficient condition that can be evaluated: no overwrites, and no
registration under way when an instance is created. -/
theorem orderly_of_tidy {d : Deployment} {action : DeploymentAction} (h : d.tidy action = true) :
    d.Orderly action := by
  cases action with
  | registrationStep index =>
      intro registration hIndex _ hOverwrite
      have hKeeps := List.all_eq_true.mp h registration (List.mem_of_getElem? hIndex)
      rw [hOverwrite] at hKeeps
      cases hKeeps
  | commitCreation index =>
      intro creation _ registration hMem
      rw [List.isEmpty_iff.mp h] at hMem
      cases hMem
  | createWorkflowDef _ _ _ | createWorkflowInstance _ | «instance» _ _ _ _ => trivial

def sampleCreation : InstanceCreation where
  ns := .global
  workflowDefId := "article"
  timestampNanos := 1
  pinnedWorkerHost := ⟨"host"⟩
  input := none

/-- What the sample instance does next. -/
def articleStep (action : Action) : DeploymentAction :=
  .instance .global sampleCreation.instanceId (fun _ => none) action

/-- The article is registered, and an instance of it waits for its draft. -/
def articleActions : List DeploymentAction :=
  [.createWorkflowDef .global sampleSubmitted false, .registrationStep 0, .registrationStep 0,
    .createWorkflowInstance sampleCreation, .commitCreation 0] ++ startDraft.map articleStep

def draftInFlight (d : Deployment) : Bool :=
  (d.instances.lookup (resourceKey .global sampleCreation.instanceId)).any (·.pass.inFlight)

/-- The sample run goes through, up to an answer that is being waited for. -/
theorem articleActions_run : ((articleActions.foldlM (fun (d : Deployment) action =>
    if d.tidy action then d.step sampleEnv.ext action else none) Deployment.empty).filter
      draftInFlight).isSome := by
  decide +kernel

/-- The pass that has dispatched the draft ends without a panic. -/
theorem Steps.passes_never_panic_article : ∃ d s,
    Steps sampleEnv.ext Deployment.empty articleActions d ∧
    d.instances.lookup (resourceKey .global sampleCreation.instanceId) = some s ∧
    s.pass.inFlight = true ∧ s.pass ≠ .finished .panicked ∧
    ∃ bound, ∀ answers : List Answer, bound < answers.length →
      (answers.foldl (System.move (d.env sampleEnv.ext .global fun _ => none)) s).pass.inFlight =
        false := by
  obtain ⟨hFound, hFlight⟩ :=
    Option.filter_eq_some_iff.mp (Option.some_get articleActions_run).symm
  obtain ⟨s, hInstance, hInFlight⟩ := (Option.any_eq_true _ _).mp hFlight
  have run : Steps sampleEnv.ext Deployment.empty articleActions _ :=
    (Run.of_guarded hFound).mono fun d action d' hStep => ⟨hStep.1, orderly_of_tidy hStep.2⟩
  obtain ⟨hPanic, _, bound, hEnds⟩ := Steps.passes_never_panic run hInstance fun _ => none
  exact ⟨_, s, run, hInstance, hInFlight, hPanic, bound, fun answers hLong => (hEnds answers hLong).1⟩

/-- Another definition of the article. -/
def composedSubmitted : WorkflowDef :=
  { sampleSubmitted with tasks := [sampleTask "compose" none], dataBindings := [] }

/-- The article is defined anew by an overwrite, before there is an instance of
it. -/
def overwrittenActions : List DeploymentAction :=
  [.createWorkflowDef .global composedSubmitted false, .registrationStep 0, .registrationStep 0,
    .createWorkflowDef .global sampleSubmitted true, .registrationStep 0,
    .createWorkflowInstance sampleCreation, .commitCreation 0] ++ startDraft.map articleStep

/-- No registration goes on while its definition has instances. -/
def unused (d : Deployment) : DeploymentAction → Bool
  | .registrationStep _ => d.registrations.all fun registration =>
      !d.hasInstances registration.ns registration.definition.id
  | _ => true

/-- A registration whose definition has no instances saves harmlessly. -/
theorem savesHarmless_of_unused {d : Deployment} {action : DeploymentAction}
    (h : d.unused action = true) : d.SavesHarmless action := by
  cases action with
  | registrationStep index =>
      intro registration hIndex _
      exact .inl (by simpa using List.all_eq_true.mp h registration (List.mem_of_getElem? hIndex))
  | createWorkflowDef _ _ _ | createWorkflowInstance _ | commitCreation _ | «instance» _ _ _ _ =>
      trivial

/-- The sample run with an overwrite before the first instance exists. -/
theorem overwrittenActions_run : ((overwrittenActions.foldlM (fun (d : Deployment) action =>
    if d.unused action then d.step sampleEnv.ext action else none) Deployment.empty).filter
      draftInFlight).isSome := by
  decide +kernel

/-- The pass of the instance, with the draft in flight, finds its tasks and
returns. -/
theorem HarmlessSteps.passes_return_overwritten : ∃ d s,
    HarmlessSteps sampleEnv.ext Deployment.empty overwrittenActions d ∧
    d.instances.lookup (resourceKey .global sampleCreation.instanceId) = some s ∧
    s.pass.inFlight = true ∧ PassReturns sampleEnv.ext d .global s := by
  obtain ⟨hFound, hFlight⟩ :=
    Option.filter_eq_some_iff.mp (Option.some_get overwrittenActions_run).symm
  obtain ⟨s, hInstance, hInFlight⟩ := (Option.any_eq_true _ _).mp hFlight
  have run : HarmlessSteps sampleEnv.ext Deployment.empty overwrittenActions _ :=
    (Run.of_guarded hFound).mono fun d action d' hStep =>
      ⟨hStep.1, savesHarmless_of_unused hStep.2⟩
  exact ⟨_, s, run, hInstance, hInFlight, HarmlessSteps.passes_return run hInstance⟩

/-- A registration has found no instance; then one is created and runs, before
the save. -/
def racingActions : List DeploymentAction :=
  [.createWorkflowDef .global sampleSubmitted false, .registrationStep 0, .registrationStep 0,
    .createWorkflowDef .global composedSubmitted false, .registrationStep 0, .registrationStep 0,
    .createWorkflowInstance sampleCreation, .commitCreation 0] ++
  startDraft.map articleStep ++ [.registrationStep 0] ++
  (Action.crash :: .startPass [] :: List.replicate 3 .passStep).map articleStep

def panicked (d : Deployment) : Bool :=
  (d.instances.lookup (resourceKey .global sampleCreation.instanceId)).any fun s =>
    match s.pass with
    | .finished result => result = .panicked
    | _ => false

/-- The run in which the creation of an instance falls between the check and
the save of a registration. -/
theorem racingActions_run : ((racingActions.foldlM (fun (d : Deployment) action =>
    d.step sampleEnv.ext action) Deployment.empty).filter panicked).isSome := by
  decide +kernel

/-- Every registration checks for instances, and a pass does not find the task
of an attempt. -/
theorem registration_race_panics : ∃ d s,
    Run (fun (d : Deployment) action d' => d.step sampleEnv.ext action = some d') Deployment.empty
      racingActions d ∧
    d.instances.lookup (resourceKey .global sampleCreation.instanceId) = some s ∧
    s.pass = .finished .panicked ∧ ¬PassReturns sampleEnv.ext d .global s := by
  obtain ⟨hFound, hPanicked⟩ :=
    Option.filter_eq_some_iff.mp (Option.some_get racingActions_run).symm
  obtain ⟨s, hInstance, hPass⟩ := (Option.any_eq_true _ _).mp hPanicked
  have hPass : s.pass = .finished .panicked := by
    cases hState : s.pass with
    | finished result =>
        rw [hState] at hPass
        rw [of_decide_eq_true hPass]
    | _ =>
        rw [hState] at hPass
        cases hPass
  exact ⟨_, s, Run.of_foldlM hFound, hInstance, hPass, fun h => h.unwraps hPass⟩

end Deployment

end RelayFold
