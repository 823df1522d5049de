import Mathlib.Data.Finmap
import Mathlib.Data.List.Sort
import Mathlib.Data.List.MinMax

/-! Finite maps with one value type. Equality is extensional, so two maps built
in different orders are equal; iteration lists the entries in key order. -/

abbrev FiniteMap (κ β : Type) := Finmap fun _ : κ => β

namespace FiniteMap

variable {κ β : Type}

section Lookup

variable [DecidableEq κ]

theorem lookup_insert_eq (m : FiniteMap κ β) (k k' : κ) (v : β) :
    Finmap.lookup k' (Finmap.insert k v m) = if k' = k then some v else Finmap.lookup k' m := by
  by_cases h : k' = k
  · subst h
    simp
  · simp [h]

theorem lookup_erase_eq (m : FiniteMap κ β) (k k' : κ) :
    Finmap.lookup k' (Finmap.erase k m) = if k' = k then none else Finmap.lookup k' m := by
  by_cases h : k' = k
  · subst h
    simp
  · simp [h]

/-- Removing a key that is not there changes nothing. -/
theorem erase_of_lookup_none {m : FiniteMap κ β} {k : κ} (h : Finmap.lookup k m = none) :
    Finmap.erase k m = m := by
  refine Finmap.ext_lookup fun k' => ?_
  rw [lookup_erase_eq]
  split
  · rename_i hKey
    rw [hKey, h]
  · rfl

/-- Maps that hold each other's entries are equal. -/
theorem eq_of_lookup_kept {m n : FiniteMap κ β}
    (hm : ∀ k v, Finmap.lookup k m = some v → Finmap.lookup k n = some v)
    (hn : ∀ k v, Finmap.lookup k n = some v → Finmap.lookup k m = some v) : n = m := by
  refine Finmap.ext_lookup fun k => ?_
  cases hLookup : Finmap.lookup k m with
  | some v => exact hm k v hLookup
  | none =>
      rw [Option.eq_none_iff_forall_not_mem]
      intro v hMem
      rw [hn k v hMem] at hLookup
      cases hLookup

/-- Apply a function to the value stored under a key; a missing key stays
missing. -/
def modify (k : κ) (f : β → β) (m : FiniteMap κ β) : FiniteMap κ β :=
  match Finmap.lookup k m with
  | some v => Finmap.insert k (f v) m
  | none => m

/-- A change of one entry is seen at its key alone; it creates no entry. -/
theorem lookup_modify (m : FiniteMap κ β) (k k' : κ) (f : β → β) :
    Finmap.lookup k' (modify k f m) =
      if k' = k then (Finmap.lookup k' m).map f else Finmap.lookup k' m := by
  unfold modify
  cases hk : Finmap.lookup k m with
  | none =>
      by_cases h : k' = k
      · subst h
        simp [hk]
      · simp [h]
  | some v =>
      simp only [lookup_insert_eq]
      by_cases h : k' = k
      · subst h
        simp [hk]
      · simp [h]

/-- Remove the listed entries whose value fails the predicate. -/
theorem lookup_eraseAll (p : β → Bool) (entries : List (κ × β)) (m : FiniteMap κ β) (k : κ) :
    Finmap.lookup k (entries.foldl (fun kept e => if p e.2 then kept else Finmap.erase e.1 kept) m) =
      if entries.any (fun e => e.1 = k && !p e.2) then none else Finmap.lookup k m := by
  induction entries generalizing m with
  | nil => rfl
  | cons e entries ih =>
      rw [List.foldl_cons, ih, List.any_cons]
      cases hp : p e.2 with
      | true => simp only [if_true, Bool.not_true, Bool.and_false, Bool.false_or]
      | false =>
          simp only [Bool.false_eq_true, if_false, lookup_erase_eq, Bool.not_false, Bool.and_true]
          by_cases hKey : e.1 = k
          · simp only [hKey, if_true, decide_true, Bool.true_or, ite_self]
          · simp only [hKey, Ne.symm hKey, if_false, decide_false, Bool.false_or]

end Lookup

section Keys

variable [LinearOrder κ]

/-- The keys in increasing order. -/
def sortedKeys (m : FiniteMap κ β) : List κ :=
  Quot.liftOn (Finmap.keys m).val (fun l => l.insertionSort (· ≤ ·)) (by
    intro a b h
    have hPerm : (a.insertionSort (· ≤ ·)).Perm (b.insertionSort (· ≤ ·)) :=
      (List.perm_insertionSort _ a).trans (h.trans (List.perm_insertionSort _ b).symm)
    exact List.Perm.eq_of_pairwise (fun _ _ _ _ h₁ h₂ => le_antisymm h₁ h₂)
      (List.pairwise_insertionSort _ _) (List.pairwise_insertionSort _ _) hPerm)

/-- The sorted keys list each key once. -/
theorem sortedKeys_nodup (m : FiniteMap κ β) : (sortedKeys m).Nodup := by
  have hKeys := (Finmap.keys m).nodup
  revert hKeys
  unfold sortedKeys
  induction (Finmap.keys m).val using Quot.inductionOn with
  | h l =>
      intro hKeys
      exact (List.perm_insertionSort _ l).nodup_iff.mpr (Multiset.coe_nodup.mp hKeys)

theorem mem_sortedKeys (m : FiniteMap κ β) (k : κ) : k ∈ sortedKeys m ↔ k ∈ m := by
  rw [← Finmap.mem_keys, ← Finset.mem_val]
  unfold sortedKeys
  induction (Finmap.keys m).val using Quot.inductionOn with
  | h l => exact (List.perm_insertionSort _ l).mem_iff

theorem sortedKeys_pairwise (m : FiniteMap κ β) : (sortedKeys m).Pairwise (· ≤ ·) := by
  unfold sortedKeys
  induction (Finmap.keys m).val using Quot.inductionOn with
  | h l => exact List.pairwise_insertionSort _ l

end Keys

section Entries

/- Lookups keep the caller's decidable equality, whatever the order's own is. -/
set_option linter.overlappingInstances false

variable [LinearOrder κ] [DecidableEq κ]

/-- The entries in increasing key order. -/
def toList (m : FiniteMap κ β) : List (κ × β) :=
  (sortedKeys m).filterMap fun k => (Finmap.lookup k m).map (Prod.mk k)

@[simp] theorem mem_toList (m : FiniteMap κ β) (e : κ × β) :
    e ∈ toList m ↔ Finmap.lookup e.1 m = some e.2 := by
  obtain ⟨k, v⟩ := e
  simp only [toList, List.mem_filterMap, mem_sortedKeys, Option.map_eq_some_iff, Prod.mk.injEq]
  constructor
  · rintro ⟨k', _, v', hv, rfl, rfl⟩
    exact hv
  · intro hv
    exact ⟨k, Finmap.mem_of_lookup_eq_some hv, v, hv, rfl, rfl⟩

theorem toList_distinct (m : FiniteMap κ β) : (toList m).Pairwise fun a b => a.1 ≠ b.1 := by
  refine (List.Pairwise.filterMap _ ?_ (sortedKeys_nodup m))
  rintro k k' hNe e hEntry e' hEntry'
  obtain ⟨v, _, rfl⟩ := Option.map_eq_some_iff.mp hEntry
  obtain ⟨v', _, rfl⟩ := Option.map_eq_some_iff.mp hEntry'
  exact hNe

/-- The only entry that passes a test. -/
theorem filter_toList_eq_singleton {m : FiniteMap κ β} {p : κ × β → Bool} {k : κ} {v : β}
    (hk : Finmap.lookup k m = some v) (hp : p (k, v) = true)
    (hOthers : ∀ k' v', Finmap.lookup k' m = some v' → k' ≠ k → p (k', v') = false) :
    (toList m).filter p = [(k, v)] := by
  have hDistinct := (toList_distinct m).filter p
  have hOnly : ∀ entry ∈ (toList m).filter p, entry.1 = k := by
    rintro ⟨k', v'⟩ hEntry
    rw [List.mem_filter, mem_toList] at hEntry
    by_contra hKey
    rw [hOthers k' v' hEntry.1 hKey] at hEntry
    cases hEntry.2
  have hMem : (k, v) ∈ (toList m).filter p := List.mem_filter.mpr ⟨(mem_toList ..).mpr hk, hp⟩
  generalize (toList m).filter p = entries at hDistinct hOnly hMem
  match entries, hMem with
  | [entry], hMem => rw [List.mem_singleton.mp hMem]
  | first :: second :: rest, _ =>
      have hFirst := hOnly first (by simp)
      have hSecond := hOnly second (by simp)
      rw [List.pairwise_cons] at hDistinct
      exact absurd (hFirst.trans hSecond.symm) (hDistinct.1 second (by simp))

def isEmpty (m : FiniteMap κ β) : Bool := (sortedKeys m).isEmpty

theorem isEmpty_iff (m : FiniteMap κ β) : isEmpty m = true ↔ ∀ k, Finmap.lookup k m = none := by
  rw [isEmpty, List.isEmpty_iff, List.eq_nil_iff_forall_not_mem]
  simp only [mem_sortedKeys, Finmap.lookup_eq_none]

theorem isEmpty_eq_false_of_lookup (m : FiniteMap κ β) {k : κ} {v : β}
    (h : Finmap.lookup k m = some v) : isEmpty m = false := by
  cases hm : isEmpty m with
  | false => rfl
  | true => simp [(isEmpty_iff m).mp hm k] at h

/-- Some stored value satisfies the predicate. -/
def anyValue (p : β → Bool) (m : FiniteMap κ β) : Bool := (toList m).any fun e => p e.2

/-- The test over all values, as an existence statement on lookups. -/
theorem anyValue_iff (p : β → Bool) (m : FiniteMap κ β) :
    anyValue p m = true ↔ ∃ k v, Finmap.lookup k m = some v ∧ p v = true := by
  simp only [anyValue, List.any_eq_true, mem_toList, Prod.exists]

/-- The key of an entry that satisfies the predicate and has the greatest
rank. -/
def maxKeyBy (p : β → Bool) (rank : β → Nat) (m : FiniteMap κ β) : Option κ :=
  (((toList m).filter fun e => p e.2).argmax fun e => rank e.2).map Prod.fst

/-- The key that is chosen satisfies the test, and no other entry that does has
a higher rank. -/
theorem maxKeyBy_some {p : β → Bool} {rank : β → Nat} {m : FiniteMap κ β} {k : κ}
    (h : maxKeyBy p rank m = some k) :
    ∃ v, Finmap.lookup k m = some v ∧ p v = true ∧
      ∀ k' v', Finmap.lookup k' m = some v' → p v' = true → rank v' ≤ rank v := by
  obtain ⟨⟨k₀, v⟩, hMax, rfl⟩ := Option.map_eq_some_iff.mp h
  have hMem := List.argmax_mem hMax
  simp only [List.mem_filter, mem_toList] at hMem
  refine ⟨v, hMem.1, hMem.2, fun k' v' hk hp => ?_⟩
  exact List.le_of_mem_argmax (f := fun e : κ × β => rank e.2) (a := (k', v'))
    (by simp [hk, hp]) hMax

theorem maxKeyBy_none {p : β → Bool} {rank : β → Nat} {m : FiniteMap κ β} :
    maxKeyBy p rank m = none ↔ ∀ k v, Finmap.lookup k m = some v → p v = false := by
  simp only [maxKeyBy, Option.map_eq_none_iff, List.argmax_eq_none, List.filter_eq_nil_iff,
    mem_toList, Prod.forall, Bool.not_eq_true]

/-- With a unique greatest entry the choice is determined. -/
theorem maxKeyBy_eq_some {p : β → Bool} {rank : β → Nat} {m : FiniteMap κ β} {k : κ} {v : β}
    (hk : Finmap.lookup k m = some v) (hp : p v = true)
    (hMax : ∀ k' v', Finmap.lookup k' m = some v' → p v' = true → k' ≠ k → rank v' < rank v) :
    maxKeyBy p rank m = some k := by
  cases h : maxKeyBy p rank m with
  | none => simp [maxKeyBy_none.mp h k v hk] at hp
  | some k₀ =>
      obtain ⟨v₀, hk₀, hp₀, hle⟩ := maxKeyBy_some h
      by_cases hne : k₀ = k
      · rw [hne]
      · exact absurd (hle k v hk hp) (Nat.not_le_of_lt (hMax k₀ v₀ hk₀ hp₀ hne))

/-- Looking a key up in the list of entries is looking it up in the map. -/
theorem lookup_toList (m : FiniteMap κ β) (k : κ) :
    (toList m).lookup k = Finmap.lookup k m := by
  have hAll : ∀ e ∈ toList m, Finmap.lookup e.1 m = some e.2 := fun e h => (mem_toList m e).mp h
  cases hLookup : Finmap.lookup k m with
  | none =>
      rw [List.lookup_eq_none_iff]
      intro e he
      simp only [bne_iff_ne, ne_eq]
      rintro rfl
      rw [hAll e he] at hLookup
      cases hLookup
  | some v =>
      have hMem : (k, v) ∈ toList m := (mem_toList m (k, v)).mpr hLookup
      revert hMem
      generalize toList m = l at hAll
      intro hMem
      induction l with
      | nil => cases hMem
      | cons e l ih =>
          obtain ⟨k', v'⟩ := e
          by_cases hKey : k = k'
          · subst hKey
            have hFirst := hAll (k, v') List.mem_cons_self
            rw [hLookup] at hFirst
            simp [Option.some.inj hFirst]
          · have hTail : (k, v) ∈ l := by
              rcases List.mem_cons.mp hMem with hHead | hTail
              · exact absurd (Prod.mk.inj hHead).1 hKey
              · exact hTail
            rw [List.lookup_cons, beq_eq_false_iff_ne.mpr hKey]
            exact ih (fun e he => hAll e (List.mem_cons_of_mem _ he)) hTail

/-- Remove the entries whose value fails the predicate. -/
def retain (p : β → Bool) (m : FiniteMap κ β) : FiniteMap κ β :=
  (toList m).foldl (fun kept e => if p e.2 then kept else Finmap.erase e.1 kept) m

/-- After a filter by value, an entry is there if it was there and passes. -/
theorem lookup_retain (p : β → Bool) (m : FiniteMap κ β) (k : κ) :
    Finmap.lookup k (retain p m) = (Finmap.lookup k m).filter p := by
  rw [retain, lookup_eraseAll]
  cases hLookup : Finmap.lookup k m with
  | none => simp
  | some v =>
      have hAny : (toList m).any (fun e => e.1 = k && !p e.2) = !p v := by
        rw [Bool.eq_iff_iff, List.any_eq_true]
        constructor
        · rintro ⟨⟨k', v'⟩, hEntry, hp⟩
          simp only [mem_toList, Bool.and_eq_true, decide_eq_true_eq] at hEntry hp
          obtain ⟨rfl, hp⟩ := hp
          rw [hLookup] at hEntry
          cases hEntry
          exact hp
        · intro hp
          exact ⟨(k, v), (mem_toList m (k, v)).mpr hLookup, by simpa using hp⟩
      rw [hAny]
      cases hp : p v <;> simp [Option.filter, hp]

/-- Apply a function to every stored value. -/
def mapValues {γ : Type} (f : β → γ) (m : FiniteMap κ β) : FiniteMap κ γ :=
  (toList m).foldr (fun e built => Finmap.insert e.1 (f e.2) built) ∅

/-- Mapping the values of a map, seen at one key. -/
theorem lookup_mapValues {γ : Type} (f : β → γ) (m : FiniteMap κ β) (k : κ) :
    Finmap.lookup k (mapValues f m) = (Finmap.lookup k m).map f := by
  rw [← lookup_toList m, mapValues]
  induction toList m with
  | nil => rfl
  | cons e l ih =>
      rw [List.foldr_cons, lookup_insert_eq, ih, List.lookup_cons]
      by_cases hKey : k = e.1
      · simp [hKey]
      · simp [hKey, beq_eq_false_iff_ne.mpr hKey]

/-- Mapping the values and inserting an entry may be done in either order. -/
theorem mapValues_insert {γ : Type} (f : β → γ) (m : FiniteMap κ β) (k : κ) (v : β) :
    mapValues f (Finmap.insert k v m) = Finmap.insert k (f v) (mapValues f m) := by
  refine Finmap.ext_lookup fun other => ?_
  rw [lookup_mapValues, lookup_insert_eq, lookup_insert_eq, lookup_mapValues]
  split <;> rfl

/-- The keys of a map do not depend on its values. -/
theorem sortedKeys_mapValues {γ : Type} (f : β → γ) (m : FiniteMap κ β) :
    sortedKeys (mapValues f m) = sortedKeys m := by
  have hMem (k : κ) : k ∈ sortedKeys (mapValues f m) ↔ k ∈ sortedKeys m := by
    rw [mem_sortedKeys, mem_sortedKeys, ← Finmap.lookup_isSome, ← Finmap.lookup_isSome,
      lookup_mapValues, Option.isSome_map]
  exact List.Perm.eq_of_pairwise (fun _ _ _ _ h₁ h₂ => le_antisymm h₁ h₂) (sortedKeys_pairwise _)
    (sortedKeys_pairwise _)
    ((List.perm_ext_iff_of_nodup (sortedKeys_nodup _) (sortedKeys_nodup _)).mpr hMem)

/-- A list is what its positions hold, in order. -/
theorem filterMap_getElem?_range {γ : Type} (xs : List γ) :
    (List.range xs.length).filterMap (fun k => xs[k]?) = xs := by
  induction xs using List.reverseRecOn with
  | nil => rfl
  | append_singleton xs x ih =>
      have hOld : (List.range xs.length).filterMap (fun k => (xs ++ [x])[k]?) = xs := by
        rw [List.filterMap_congr fun k hk =>
          List.getElem?_append_left (List.mem_range.mp hk), ih]
      rw [List.length_append, List.length_singleton, List.range_succ, List.filterMap_append, hOld]
      simp

/-- A map that numbers a list from 1 has these numbers as its keys. -/
theorem sortedKeys_numbered {γ : Type} {f : β → γ} {m : FiniteMap Nat β} {xs : List γ}
    (h : ∀ k, (Finmap.lookup k m).map f = if k = 0 then none else xs[k - 1]?) :
    sortedKeys m = List.range' 1 xs.length := by
  have hMem (k : Nat) : k ∈ sortedKeys m ↔ k ∈ List.range' 1 xs.length := by
    rw [mem_sortedKeys, ← Finmap.lookup_isSome, ← Option.isSome_map, h, List.mem_range'_1]
    split
    · simp only [Option.isSome_none, Bool.false_eq_true, false_iff]
      omega
    · rw [isSome_getElem?]
      omega
  exact List.Perm.eq_of_pairwise (fun _ _ _ _ h₁ h₂ => le_antisymm h₁ h₂) (sortedKeys_pairwise m)
    (List.pairwise_le_range' _)
    ((List.perm_ext_iff_of_nodup (sortedKeys_nodup m) List.nodup_range').mpr hMem)

/-- The entries of a map whose keys number a list from one are the list. -/
theorem toList_numbered {γ : Type} {f : β → γ} {m : FiniteMap Nat β} {xs : List γ}
    (h : ∀ k, (Finmap.lookup k m).map f = if k = 0 then none else xs[k - 1]?) :
    (toList m).map (fun e => f e.2) = xs := by
  have hEntry (k : Nat) : ((Finmap.lookup (1 + k) m).map (Prod.mk (1 + k))).map (fun e => f e.2) =
      xs[k]? := by
    rw [Option.map_map, Nat.add_comm]
    exact (h (k + 1)).trans (if_neg (Nat.succ_ne_zero k))
  rw [toList, sortedKeys_numbered h, List.map_filterMap, List.range'_eq_map_range,
    List.filterMap_map]
  calc _ = (List.range xs.length).filterMap (fun k => xs[k]?) :=
        List.filterMap_congr fun k _ => hEntry k
    _ = xs := filterMap_getElem?_range xs

end Entries

end FiniteMap
