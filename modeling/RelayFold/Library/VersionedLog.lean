import Mathlib.Data.List.Basic

/-! Event-sourced records under optimistic concurrency. A writer reads a
versioned snapshot, reduces a batch of events on it, and the store accepts the
batch only if the version has not moved. Nothing here fixes what the events
mean. -/

/-- How events build a record: one event creates it, the later ones change
it. -/
structure Journal (S E : Type) where
  create : E → Option S
  apply : S → E → Option S

namespace Journal

variable {S E : Type} (J : Journal S E)

def replay : Option S → List E → Option S
  | some s, events => events.foldlM J.apply s
  | none, event :: events => (J.create event).bind fun s => events.foldlM J.apply s
  | none, [] => none

@[simp] theorem replay_none_nil : J.replay none [] = none := rfl

@[simp] theorem replay_some_nil (s : S) : J.replay (some s) [] = some s := rfl

/-- Replaying across a batch boundary resumes from the record built so far. -/
theorem replay_append (current : Option S) (xs ys : List E) (h : current.isSome ∨ xs ≠ []) :
    J.replay current (xs ++ ys) = (J.replay current xs).bind fun s => J.replay (some s) ys := by
  cases current with
  | some s => simp only [replay, List.foldlM_append]; rfl
  | none =>
      cases xs with
      | nil => simp at h
      | cons x xs =>
          simp only [replay, List.cons_append, List.foldlM_append, Option.bind_assoc]
          rfl

end Journal

/-- The stored snapshot with its version, and the log of accepted events. -/
structure VersionedLog (S E : Type) where
  head : Option (Nat × S)
  log : List E

namespace VersionedLog

variable {S E : Type} {J : Journal S E} {st st' : VersionedLog S E} {base : Option (Nat × S)}

/-- A missing record counts as version zero. -/
def versionOf (base : Option (Nat × S)) : Nat := (base.map Prod.fst).getD 0

/-- Accept a batch reduced on `base` if the stored version is still the
base's. -/
def commit (J : Journal S E) (st : VersionedLog S E) (base : Option (Nat × S))
    (events : List E) : Option (VersionedLog S E) :=
  if events ≠ [] ∧ versionOf st.head = versionOf base then
    (J.replay (base.map Prod.snd) events).map fun s =>
      ⟨some (versionOf base + events.length, s), st.log ++ events⟩
  else none

/-- The snapshot is what the log replays to, and its version counts the log. -/
structure Consistent (J : Journal S E) (st : VersionedLog S E) : Prop where
  version_eq : versionOf st.head = st.log.length
  replay_eq : st.head.map Prod.snd = J.replay none st.log

/-- A snapshot some client may hold: the replay of a nonempty prefix of the
log. -/
def Held (J : Journal S E) (log : List E) (base : Option (Nat × S)) : Prop :=
  ∀ v s, base = some (v, s) → 0 < v ∧ v ≤ log.length ∧ J.replay none (log.take v) = some s

/-- Nothing has been committed to an empty cell, and its log says so. -/
theorem consistent_empty : Consistent J ⟨none, []⟩ := ⟨rfl, rfl⟩

theorem Consistent.log_nil (h : Consistent J st) (hHead : st.head = none) : st.log = [] := by
  have hVersion := h.version_eq
  rw [hHead] at hVersion
  exact List.length_eq_zero_iff.mp hVersion.symm

/-- Versions begin with 1; a committed state is never at 0. -/
theorem Consistent.version_pos (h : Consistent J st) {v : Nat} {s : S}
    (hHead : st.head = some (v, s)) : 0 < v := by
  have hVersion := h.version_eq
  have hReplay := h.replay_eq
  rw [hHead] at hVersion hReplay
  cases hLog : st.log with
  | nil => simp [hLog] at hReplay
  | cons event log =>
      simp only [versionOf, hLog, Option.map_some, Option.getD_some, List.length_cons] at hVersion
      omega

/-- Not having found a state is to hold the beginning of every log. -/
theorem held_none (log : List E) : Held J log none := by
  intro v s h
  simp at h

theorem Held.append {log : List E} (h : Held J log base) (events : List E) :
    Held J (log ++ events) base := by
  intro v s hBase
  obtain ⟨hPos, hLe, hReplay⟩ := h v s hBase
  refine ⟨hPos, by rw [List.length_append]; omega, ?_⟩
  rwa [List.take_append_of_le_length hLe]

/-- The head of the cell is what its log has led to. -/
theorem Consistent.held_head (h : Consistent J st) : Held J st.log st.head := by
  intro v s hHead
  have hVersion := h.version_eq
  have hReplay := h.replay_eq
  rw [hHead] at hVersion hReplay
  change v = st.log.length at hVersion
  refine ⟨h.version_pos hHead, Nat.le_of_eq hVersion, ?_⟩
  rw [hVersion, List.take_length]
  exact hReplay.symm

/-- Optimistic locking: a held snapshot with the stored version is the stored
one. -/
theorem Held.eq_head (hBase : Held J st.log base) (h : Consistent J st)
    (hVersion : versionOf st.head = versionOf base) : base = st.head := by
  rcases hHead : st.head with _ | ⟨v, s⟩
  · rcases base with _ | ⟨v', s'⟩
    · rfl
    · obtain ⟨hPos, hLe, _⟩ := hBase v' s' rfl
      rw [h.log_nil hHead, List.length_nil] at hLe
      omega
  · rw [hHead] at hVersion
    have hPos := h.version_pos hHead
    rcases base with _ | ⟨v', s'⟩
    · change v = 0 at hVersion
      omega
    · change v = v' at hVersion
      subst hVersion
      obtain ⟨_, _, hReplay⟩ := hBase v s' rfl
      obtain ⟨_, _, hHeld⟩ := h.held_head v s hHead
      rw [hHeld] at hReplay
      cases hReplay
      rfl

/-- An accepted batch was reduced on the stored snapshot itself, and the store
stays consistent. -/
theorem commit_spec (h : Consistent J st) (hBase : Held J st.log base) {events : List E}
    (hCommit : commit J st base events = some st') :
    base = st.head ∧ st'.log = st.log ++ events ∧
      versionOf st.head < versionOf st'.head ∧ Consistent J st' := by
  unfold commit at hCommit
  split at hCommit
  · rename_i hGuard
    obtain ⟨hNonempty, hVersion⟩ := hGuard
    obtain ⟨s, hReduced, rfl⟩ := Option.map_eq_some_iff.mp hCommit
    have hEq := hBase.eq_head h hVersion
    have hLength : 0 < events.length := List.length_pos_iff.mpr hNonempty
    refine ⟨hEq, rfl, ?_, ?_, ?_⟩
    · rw [hVersion]
      change versionOf base < versionOf base + events.length
      omega
    · change versionOf base + events.length = (st.log ++ events).length
      rw [List.length_append, ← h.version_eq, hVersion]
    · change some s = J.replay none (st.log ++ events)
      rw [hEq, h.replay_eq] at hReduced
      cases hLog : st.log with
      | nil => simpa [hLog] using hReduced.symm
      | cons event log =>
          rw [J.replay_append none _ _ (.inr (by simp)), ← hLog]
          rcases hReplay : J.replay none st.log with _ | r
          · have hHead := h.replay_eq
            rw [hReplay, Option.map_eq_none_iff] at hHead
            have hNil := h.log_nil hHead
            simp [hLog] at hNil
          · rw [hReplay] at hReduced
            exact hReduced.symm
  · cases hCommit

end VersionedLog
