import Mathlib.Data.List.Basic

/-! Parties that look for work and wait on a notification cell when they find
none. Notifying the cell wakes one waiting party or stores one permit; the
permits are not counted. -/
namespace WakeUps

/-- Where a party is. It polls the cell after it has found no work; when it is
woken, or has found a permit, it looks again. -/
inductive WaitPoint where
  | looking (notified : Bool)
  | unpolled
  | waiting
  | woken
  | left
deriving DecidableEq

/-- The cell with its parties, and how many notifications have been announced
and not given. -/
structure Notify where
  permit : Bool
  due : Nat
  parties : List WaitPoint

namespace Notify

def new : Notify := ⟨false, 0, []⟩

def join (n : Notify) : Notify := { n with parties := n.parties ++ [.looking false] }

def moveTo (n : Notify) (i : Nat) (point : WaitPoint) : Notify :=
  { n with parties := n.parties.set i point }

def announce (n : Notify) : Notify := { n with due := n.due + 1 }

/-- The waiting party to wake is given; a permit is stored only when no party
waits. -/
def notifyOne (n : Notify) : Option Nat → Option Notify
  | some i => if n.parties[i]? = some .waiting then some (n.moveTo i .woken) else none
  | none => if .waiting ∈ n.parties then none else some { n with permit := true }

/-- Give an announced notification. -/
def settle (n : Notify) (party : Option Nat) : Option Notify :=
  match n.due with
  | 0 => none
  | due + 1 => { n with due := due }.notifyOne party

/-- The first poll takes the permit or begins to wait. -/
def poll (n : Notify) (i : Nat) : Option Notify :=
  if n.parties[i]? = some .unpolled then
    if n.permit then some { n.moveTo i (.looking true) with permit := false }
    else some (n.moveTo i .waiting)
  else none

def resume (n : Notify) (i : Nat) : Option Notify :=
  if n.parties[i]? = some .woken then some (n.moveTo i (.looking true)) else none

/-- A party that leaves before it has seen that it was woken passes the
notification on. -/
def drop (n : Notify) (i : Nat) (party : Option Nat) : Option Notify :=
  if n.parties[i]? = some .woken then (n.moveTo i .left).notifyOne party
  else some (n.moveTo i .left)

/-- The party has found no work and not been notified since. -/
def Parked (n : Notify) (i : Nat) : Prop :=
  n.parties[i]? = some .unpolled ∨ n.parties[i]? = some .waiting

/-- A notification that is announced, stored, under way, or being acted on. -/
def Outstanding (n : Notify) : Prop :=
  0 < n.due ∨ n.permit = true ∨ ∃ i : Nat, n.parties[i]? = some .woken ∨
    n.parties[i]? = some (.looking true)

/-- The party acts on the only notification there is. -/
def ActsAlone (n : Notify) (i : Nat) : Prop :=
  n.parties[i]? = some (.looking true) ∧ n.due = 0 ∧ n.permit = false ∧
    ∀ j : Nat, n.parties[j]? ≠ some .woken ∧ (n.parties[j]? = some (.looking true) → j = i)

/-- While a parked party has work there is a notification. -/
def Attended (n : Notify) (hasWork : Nat → Prop) : Prop :=
  ∀ i, n.Parked i → hasWork i → n.Outstanding

instance (n : Notify) (i : Nat) : Decidable (n.Parked i) := inferInstanceAs (Decidable (_ ∨ _))

theorem outstanding_iff {n : Notify} : n.Outstanding ↔
    0 < n.due ∨ n.permit = true ∨ .woken ∈ n.parties ∨ .looking true ∈ n.parties := by
  simp only [Outstanding, exists_or, List.mem_iff_getElem?]

instance (n : Notify) : Decidable n.Outstanding := decidable_of_iff _ outstanding_iff.symm

variable {n n' : Notify} {i j : Nat} {point : WaitPoint} {party : Option Nat}
  {hasWork hasWork' : Nat → Prop}

theorem Outstanding.attended (h : n.Outstanding) : n.Attended hasWork := fun _ _ _ => h

theorem Attended.mono (h : n.Attended hasWork)
    (hWork : ∀ i, n.Parked i → hasWork' i → hasWork i) : n.Attended hasWork' :=
  fun i hParked hHas => h i hParked (hWork i hParked hHas)

theorem Attended.new : Attended .new hasWork := fun i hParked => by
  rcases hParked with h | h <;> cases h

theorem announce_outstanding (n : Notify) : n.announce.Outstanding := .inl (Nat.succ_pos _)

/-- Where each party is after one of them has moved. -/
theorem getElem?_moveTo (n : Notify) (i : Nat) (point : WaitPoint) (j : Nat) :
    (n.moveTo i point).parties[j]? =
      if i = j ∧ i < n.parties.length then some point else
        if i = j then none else n.parties[j]? := by
  change (n.parties.set i point)[j]? = _
  rw [List.getElem?_set]
  by_cases hSame : i = j <;> by_cases hLength : i < n.parties.length <;> simp [hSame, hLength]

theorem moveTo_self {old : WaitPoint} (h : n.parties[i]? = some old) :
    (n.moveTo i point).parties[i]? = some point := by
  rw [getElem?_moveTo, if_pos ⟨rfl, (List.getElem?_eq_some_iff.mp h).1⟩]

theorem moveTo_of_ne (h : i ≠ j) : (n.moveTo i point).parties[j]? = n.parties[j]? := by
  rw [getElem?_moveTo, if_neg fun hSame => h hSame.1, if_neg h]

/-- A party that joins is looking for work, so nobody new is parked. -/
theorem join_parked : n.join.Parked i → n.Parked i := by
  unfold Parked join
  dsimp only
  rw [List.getElem?_append]
  split
  · exact id
  · rw [List.getElem?_singleton]
    split <;> rintro (h | h) <;> cases h

theorem join_outstanding (h : n.Outstanding) : n.join.Outstanding := by
  refine h.imp_right (Or.imp_right fun ⟨i, hPoint⟩ => ⟨i, ?_⟩)
  change (n.parties ++ [.looking false])[i]? = _ ∨ (n.parties ++ [.looking false])[i]? = _
  have hLength : i < n.parties.length := by
    rcases hPoint with h | h <;> exact (List.getElem?_eq_some_iff.mp h).1
  rwa [List.getElem?_append_left hLength]

/-- New parties do not disturb the others, as long as no more of the parked
ones have work. -/
theorem Attended.join (h : n.Attended hasWork)
    (hWork : ∀ i, n.Parked i → hasWork' i → hasWork i) : n.join.Attended hasWork' :=
  fun i hParked hHas => join_outstanding ((h.mono hWork) i (join_parked hParked) hHas)

/-- A notification that is given is in somebody's hands or stored in the
cell. -/
theorem notifyOne_outstanding (h : n.notifyOne party = some n') : n'.Outstanding := by
  cases party with
  | some i =>
      simp only [notifyOne] at h
      split at h
      · rename_i hWaiting
        cases h
        exact .inr (.inr ⟨i, .inl (moveTo_self hWaiting)⟩)
      · cases h
  | none =>
      simp only [notifyOne] at h
      split at h
      · cases h
      · cases h
        exact .inr (.inl rfl)

theorem settle_outstanding (h : n.settle party = some n') : n'.Outstanding := by
  unfold settle at h
  split at h
  · cases h
  · exact notifyOne_outstanding h

/-- A woken party acts on the notification while it looks again. -/
theorem resume_outstanding (h : n.resume i = some n') : n'.Outstanding := by
  unfold resume at h
  split at h
  · rename_i hWoken
    cases h
    exact .inr (.inr ⟨i, .inr (moveTo_self hWoken)⟩)
  · cases h

/-- A party that was not woken moves on: what is outstanding stays, unless the
party acted on the only notification. -/
theorem Outstanding.moveTo (h : n.Outstanding) (hWoken : n.parties[i]? ≠ some .woken) :
    (n.moveTo i point).Outstanding ∨ n.ActsAlone i := by
  by_cases hKept : 0 < n.due ∨ n.permit = true ∨
      ∃ j : Nat, j ≠ i ∧ (n.parties[j]? = some .woken ∨ n.parties[j]? = some (.looking true))
  · refine .inl (hKept.imp_right (Or.imp_right fun ⟨j, hNe, hPoint⟩ => ⟨j, ?_⟩))
    rwa [moveTo_of_ne hNe.symm]
  · obtain ⟨hDue, hRest⟩ := not_or.mp hKept
    obtain ⟨hPermit, hOthers⟩ := not_or.mp hRest
    have hSelf {j : Nat} (hPoint : n.parties[j]? = some .woken ∨
        n.parties[j]? = some (.looking true)) : j = i :=
      by_contra fun hNe => hOthers ⟨j, hNe, hPoint⟩
    obtain ⟨j, hPoint⟩ := (h.resolve_left hDue).resolve_left hPermit
    obtain rfl := hSelf hPoint
    refine .inr ⟨hPoint.resolve_left hWoken, Nat.eq_zero_of_not_pos hDue,
      Bool.eq_false_iff.mpr hPermit, fun j => ⟨fun hOther => ?_, fun hOther => ?_⟩⟩
    · obtain rfl := hSelf (.inl hOther)
      exact hWoken hOther
    · exact hSelf (.inr hOther)

/-- A party moves on. If it parks it has no work or was parked before; if it
acted on the only notification no other parked party has work. -/
theorem Attended.moveTo (h : n.Attended hasWork) (hWoken : n.parties[i]? ≠ some .woken)
    (hParks : (n.moveTo i point).Parked i → n.Parked i ∨ ¬hasWork i)
    (hAlone : n.ActsAlone i → ∀ j, j ≠ i → n.Parked j → ¬hasWork j) :
    (n.moveTo i point).Attended hasWork := by
  intro j hParked hHas
  have hBefore : n.Parked j := by
    by_cases hSame : i = j
    · subst hSame
      exact (hParks hParked).resolve_right (not_not.mpr hHas)
    · unfold Parked at hParked ⊢
      rwa [moveTo_of_ne hSame] at hParked
  refine ((h j hBefore hHas).moveTo hWoken).resolve_right fun hActs => ?_
  have hNe : j ≠ i := by
    rintro rfl
    rcases hBefore with hPoint | hPoint <;> rw [hActs.1] at hPoint <;> cases hPoint
  exact hAlone hActs j hNe hBefore hHas

/-- Polling takes a permit or begins to wait. In the first case the party looks
with the notification, in the second nothing has been taken. -/
theorem Attended.poll (h : n.Attended hasWork) (hPoll : n.poll i = some n') :
    n'.Attended hasWork := by
  unfold Notify.poll at hPoll
  split at hPoll
  · rename_i hUnpolled
    split at hPoll
    · cases hPoll
      exact Outstanding.attended (.inr (.inr ⟨i, .inr (moveTo_self hUnpolled)⟩))
    · cases hPoll
      refine h.moveTo (by rw [hUnpolled]; decide) (fun _ => .inl (.inl hUnpolled)) fun hActs => ?_
      have hLooking := hActs.1
      rw [hUnpolled] at hLooking
      cases hLooking
  · cases hPoll

/-- A party may leave with nobody left unattended, unless it was acting on the
only notification and another parked party has work. -/
theorem Attended.drop (h : n.Attended hasWork) (hDrop : n.drop i party = some n')
    (hAlone : n.ActsAlone i → ∀ j, j ≠ i → n.Parked j → ¬hasWork j) : n'.Attended hasWork := by
  unfold Notify.drop at hDrop
  split at hDrop
  · exact (notifyOne_outstanding hDrop).attended
  · rename_i hWoken
    cases hDrop
    refine h.moveTo hWoken (fun hParked => ?_) hAlone
    unfold Parked at hParked
    rw [getElem?_moveTo] at hParked
    split at hParked
    · rcases hParked with hFalse | hFalse <;> cases hFalse
    · rw [if_pos rfl] at hParked
      rcases hParked with hFalse | hFalse <;> cases hFalse

/-! Only joining changes the number of parties. -/

@[simp] theorem length_join (n : Notify) : n.join.parties.length = n.parties.length + 1 := by
  simp [Notify.join]

@[simp] theorem length_moveTo (n : Notify) (i : Nat) (point : WaitPoint) :
    (n.moveTo i point).parties.length = n.parties.length :=
  List.length_set

theorem length_notifyOne (h : n.notifyOne party = some n') :
    n'.parties.length = n.parties.length := by
  cases party with
  | some i =>
      simp only [notifyOne] at h
      split at h <;> cases h
      exact length_moveTo ..
  | none =>
      simp only [notifyOne] at h
      split at h <;> cases h
      rfl

theorem length_settle (h : n.settle party = some n') : n'.parties.length = n.parties.length := by
  unfold settle at h
  split at h
  · cases h
  · have hLength := length_notifyOne h
    exact hLength

theorem length_poll (h : n.poll i = some n') : n'.parties.length = n.parties.length := by
  unfold poll at h
  split at h
  · split at h <;> cases h <;> exact length_moveTo ..
  · cases h

theorem length_resume (h : n.resume i = some n') : n'.parties.length = n.parties.length := by
  unfold resume at h
  split at h <;> cases h
  exact length_moveTo ..

theorem length_drop (h : n.drop i party = some n') : n'.parties.length = n.parties.length := by
  unfold drop at h
  split at h
  · exact (length_notifyOne h).trans (length_moveTo ..)
  · cases h
    exact length_moveTo ..

end Notify

end WakeUps
