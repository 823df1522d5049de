import RelayFold.Library.FiniteMap

/-! Loops over hash maps and hash sets, which find the entries in any order.
The results of the loops below do not depend on it. -/

/-- An order in which the members of a hash set, or the entries of a hash map,
are found. -/
structure IterationOrder (α : Type) where
  order : List α → List α
  order_perm : ∀ members, (order members).Perm members

namespace IterationOrder

def sorted (α : Type) : IterationOrder α := ⟨id, fun _ => .refl _⟩

def reversed (α : Type) : IterationOrder α := ⟨List.reverse, List.reverse_perm⟩

/-- Whether a set contains a value is not seen from the order in which it is
listed. -/
@[simp] theorem mem_order {α : Type} (it : IterationOrder α) (members : List α) (a : α) :
    a ∈ it.order members ↔ a ∈ members :=
  (it.order_perm members).mem_iff

section Maps

/- Lookups keep the caller's decidable equality, whatever the order's own is. -/
set_option linter.overlappingInstances false

variable {κ β : Type} [LinearOrder κ] [DecidableEq κ] (it : IterationOrder (κ × β))

/-- The entries of a map as a loop finds them. -/
def entries (m : FiniteMap κ β) : List (κ × β) := it.order (FiniteMap.toList m)

/-- `values().any`. -/
def anyValue (p : β → Bool) (m : FiniteMap κ β) : Bool := (it.entries m).any fun e => p e.2

/-- `iter().all`. -/
def allEntries (p : κ × β → Bool) (m : FiniteMap κ β) : Bool := (it.entries m).all p

/-- `iter().filter(..).max_by_key(..)`: of several entries of the greatest rank
the last one that is found. -/
def maxKeyBy (p : β → Bool) (rank : β → Nat) (m : FiniteMap κ β) : Option κ :=
  (((it.entries m).filter fun e => p e.2).reverse.argmax fun e => rank e.2).map Prod.fst

/-- The keys that a loop collects and then sorts. -/
def sortedKeys (p : β → Bool) (m : FiniteMap κ β) : List κ :=
  (((it.entries m).filter fun e => p e.2).map Prod.fst).insertionSort (· ≤ ·)

/-- A loop finds each entry of the map once, in whatever order. -/
theorem entries_perm (m : FiniteMap κ β) : (it.entries m).Perm (FiniteMap.toList m) :=
  it.order_perm _

/-- The test whether some value passes does not depend on which of them is
found first. -/
theorem anyValue_eq (p : β → Bool) (m : FiniteMap κ β) :
    it.anyValue p m = FiniteMap.anyValue p m :=
  (it.entries_perm m).any_eq

theorem allEntries_eq (p : κ × β → Bool) (m : FiniteMap κ β) :
    it.allEntries p m = (FiniteMap.toList m).all p :=
  (it.entries_perm m).all_eq

/-- The entry of the greatest rank is found in every order, if no two entries
that pass the test have the same rank. -/
theorem maxKeyBy_eq {p : β → Bool} {rank : β → Nat} {m : FiniteMap κ β}
    (hUnique : ∀ k v k' v', Finmap.lookup k m = some v → Finmap.lookup k' m = some v' →
      p v = true → p v' = true → rank v = rank v' → k = k') :
    it.maxKeyBy p rank m = FiniteMap.maxKeyBy p rank m := by
  have hEntry (k : κ) (v : β) : (k, v) ∈ ((it.entries m).filter fun e => p e.2).reverse ↔
      Finmap.lookup k m = some v ∧ p v = true := by
    rw [List.mem_reverse, List.mem_filter, (it.entries_perm m).mem_iff, FiniteMap.mem_toList]
  cases hFound : it.maxKeyBy p rank m with
  | none =>
      obtain hMax := Option.map_eq_none_iff.mp hFound
      rw [List.argmax_eq_none] at hMax
      refine (FiniteMap.maxKeyBy_none.mpr fun k v hk => ?_).symm
      by_contra hp
      have hMem := (hEntry k v).mpr ⟨hk, by simpa using hp⟩
      rw [hMax] at hMem
      cases hMem
  | some k =>
      obtain ⟨⟨_, v⟩, hMax, rfl⟩ := Option.map_eq_some_iff.mp hFound
      obtain ⟨hk, hp⟩ := (hEntry _ v).mp (List.argmax_mem hMax)
      refine (FiniteMap.maxKeyBy_eq_some hk hp fun k' v' hk' hp' hKey => ?_).symm
      have hMem := (hEntry k' v').mpr ⟨hk', hp'⟩
      refine lt_of_le_of_ne (List.le_of_mem_argmax (f := fun e : κ × β => rank e.2) hMem hMax) ?_
      exact fun hRank => hKey (hUnique k' v' _ v hk' hk hp' hp hRank)

/-- Sorting the collected keys leaves nothing of the order in which they were
found. -/
theorem sortedKeys_eq (p : β → Bool) (m : FiniteMap κ β) :
    it.sortedKeys p m = ((FiniteMap.toList m).filter fun e => p e.2).map Prod.fst := by
  have hSorted : (FiniteMap.toList m).Pairwise fun a b => a.1 ≤ b.1 := by
    refine List.Pairwise.filterMap _ ?_ (FiniteMap.sortedKeys_pairwise m)
    rintro k k' hLe e hEntry e' hEntry'
    obtain ⟨v, _, rfl⟩ := Option.map_eq_some_iff.mp hEntry
    obtain ⟨v', _, rfl⟩ := Option.map_eq_some_iff.mp hEntry'
    exact hLe
  refine List.Perm.eq_of_pairwise (fun _ _ _ _ h₁ h₂ => le_antisymm h₁ h₂)
    (List.pairwise_insertionSort _ _) (List.pairwise_map.mpr (hSorted.filter _)) ?_
  exact (List.perm_insertionSort _ _).trans (((it.entries_perm m).filter _).map _)

end Maps

end IterationOrder
