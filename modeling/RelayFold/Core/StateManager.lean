import RelayFold.Core.Events

/-! The storage port and the state manager that reduces a batch of events on a
snapshot and commits both (`ports/storage.rs`, `workflow/state_manager.rs`). -/
namespace RelayFold

inductive StorageError where
  | workflowVersionConflict (workflowInstanceId : String) (expectedVersion actualVersion : Nat)
  | other (message : String)

/-- Storage operations: the store keeps its state when an operation fails. -/
abbrev StorageM (σ : Type) := ExceptT StorageError (StateM σ)

/-- `unix_timestamp_ms()`: the clock reading, or why it could not be taken. -/
abbrev Clock := Except String Nat

def unixTimestampMs {σ : Type} (clock : Clock) : StorageM σ Nat :=
  match clock with
  | .ok now => pure now
  | .error message => throw (.other message)

/-- The operations of `StoragePort` that instance commits use. -/
structure StoragePort (σ : Type) where
  getWorkflowInstance : Namespace → String → StorageM σ (Option WorkflowInstance)
  saveWorkflowInstance : Namespace → Nat → List WorkflowEventRecord → WorkflowInstance → Clock →
    StorageM σ Unit

namespace WorkflowStateManager

variable {σ : Type} (storage : StoragePort σ)

/-- Reduce the batch on the snapshot, advance its version by the number of
events and save. The two clock readings are the manager's and the store's. -/
def commitEventsForCurrent (ns : Namespace) (current : Option WorkflowInstance)
    (events : List WorkflowInstanceEvent) (clock storageClock : Clock) :
    StorageM σ WorkflowInstance := do
  if events.isEmpty then throw (.other "event batch must not be empty")
  let expectedVersion := (current.map (·.version)).getD 0
  match reduceWorkflowInstanceEvents current events with
  | .error message => throw (.other message)
  | .ok reduced =>
      let updated := { reduced with version := expectedVersion + events.length }
      let createdTime ← unixTimestampMs clock
      let records := events.map (WorkflowEventRecord.mk createdTime)
      storage.saveWorkflowInstance ns expectedVersion records updated storageClock
      return updated

def commitEventsForInstance (ns : Namespace) (current : WorkflowInstance) :=
  commitEventsForCurrent storage ns (some current)

/-- The snapshot is read first and committed on in a second step. -/
def commitEvents (ns : Namespace) (workflowInstanceId : String)
    (events : List WorkflowInstanceEvent) (clock storageClock : Clock) :
    StorageM σ WorkflowInstance := do
  let current ← storage.getWorkflowInstance ns workflowInstanceId
  commitEventsForCurrent storage ns current events clock storageClock

/-- A batch that the reducer accepts is saved with the reduced snapshot. -/
theorem commitEventsForCurrent_reduced {ns : Namespace} {current : Option WorkflowInstance}
    {events : List WorkflowInstanceEvent} {reduced : WorkflowInstance} (hNonempty : events ≠ [])
    (hReduce : reduceWorkflowInstanceEvents current events = .ok reduced) (createdTime : Nat)
    (storageClock : Clock) (s : σ) :
    let base := (current.map (·.version)).getD 0
    let updated := { reduced with version := base + events.length }
    (commitEventsForCurrent storage ns current events (.ok createdTime) storageClock).run.run s =
      ((storage.saveWorkflowInstance ns base (events.map (WorkflowEventRecord.mk createdTime))
        updated storageClock).run.run s).map (·.map fun _ => updated) id := by
  intro base updated
  unfold commitEventsForCurrent
  rw [List.isEmpty_eq_false_iff.mpr hNonempty, hReduce]
  change (storage.saveWorkflowInstance ns base _ updated storageClock >>=
    fun _ => pure updated).run.run s = _
  rw [ExceptT.run_bind, StateT.run_bind]
  change _ = ((storage.saveWorkflowInstance ns base _ updated storageClock).run.run s).map
    (·.map fun _ => updated) id
  rcases (storage.saveWorkflowInstance ns base _ updated storageClock).run.run s with
    ⟨_ | _, _⟩ <;> rfl

/-- A batch is refused before the store is asked, or it is dated by the
manager's clock and saved with the reduced snapshot, whose version is advanced
by the length of the batch. -/
theorem commitEventsForCurrent_saves (ns : Namespace) (current : Option WorkflowInstance)
    (events : List WorkflowInstanceEvent) (clock storageClock : Clock) :
    (∃ error, ∀ (σ : Type) (storage : StoragePort σ) (s : σ),
      (commitEventsForCurrent storage ns current events clock storageClock).run.run s =
        (.error error, s)) ∨
    ∃ reduced createdTime, clock = .ok createdTime ∧ events ≠ [] ∧
      reduceWorkflowInstanceEvents current events = .ok reduced ∧
      ∀ (σ : Type) (storage : StoragePort σ) (s : σ),
        let base := (current.map (·.version)).getD 0
        let updated := { reduced with version := base + events.length }
        (commitEventsForCurrent storage ns current events clock storageClock).run.run s =
          ((storage.saveWorkflowInstance ns base (events.map (WorkflowEventRecord.mk createdTime))
            updated storageClock).run.run s).map (·.map fun _ => updated) id := by
  cases hReduce : reduceWorkflowInstanceEvents current events with
  | error message =>
      refine .inl ⟨if events.isEmpty then .other "event batch must not be empty" else .other message,
        fun _ _ _ => ?_⟩
      unfold commitEventsForCurrent
      rw [hReduce]
      cases events <;> rfl
  | ok reduced =>
      by_cases hEmpty : events = []
      · subst hEmpty
        exact .inl ⟨_, fun _ _ _ => rfl⟩
      · cases clock with
        | error message =>
            refine .inl ⟨.other message, fun _ _ _ => ?_⟩
            unfold commitEventsForCurrent
            rw [List.isEmpty_eq_false_iff.mpr hEmpty, hReduce]
            rfl
        | ok createdTime =>
            exact .inr ⟨reduced, createdTime, rfl, hEmpty, rfl, fun _ storage s =>
              commitEventsForCurrent_reduced storage hEmpty hReduce createdTime storageClock s⟩

/-- A commit does one of two things on every storage: it fails before touching
it, or it hands over the reduced snapshot and the batch, in one save. Which of
the two, and what is saved, does not depend on the storage. -/
theorem commitEventsForCurrent_run (ns : Namespace) (current : Option WorkflowInstance)
    (events : List WorkflowInstanceEvent) (clock storageClock : Clock) :
    (∃ error, ∀ (σ : Type) (storage : StoragePort σ) (s : σ),
      (commitEventsForCurrent storage ns current events clock storageClock).run.run s =
        (.error error, s)) ∨
    ∃ reduced createdTime, events ≠ [] ∧
      reduceWorkflowInstanceEvents current events = .ok reduced ∧
      ∀ (σ : Type) (storage : StoragePort σ) (s : σ),
        let base := (current.map (·.version)).getD 0
        let updated := { reduced with version := base + events.length }
        (commitEventsForCurrent storage ns current events clock storageClock).run.run s =
          ((storage.saveWorkflowInstance ns base (events.map (WorkflowEventRecord.mk createdTime))
            updated storageClock).run.run s).map (·.map fun _ => updated) id := by
  refine (commitEventsForCurrent_saves ns current events clock storageClock).imp_right ?_
  rintro ⟨reduced, createdTime, _, hSaves⟩
  exact ⟨reduced, createdTime, hSaves⟩

end WorkflowStateManager

end RelayFold
