import RelayFold.Library.KeysetPages
import RelayFold.Library.Runs

/-! A loop that reads a listing page by page and takes every item it reads out
of the listing before it reads the next page. -/
namespace KeysetPages

variable {α γ κ σ ε : Type}

section Loop

variable (readPage : σ → Option γ → Page α γ) (visit : α → σ → Except ε Unit × σ)

/-- Handle items in turn, up to the first failure. -/
def visitItems : List α → σ → Except ε Unit × σ
  | [], s => (.ok (), s)
  | a :: items, s =>
      match visit a s with
      | (.error error, s) => (.error error, s)
      | (.ok (), s) => visitItems items s

/-- Read a page, handle its items, and go on after its cursor; `fuel` bounds
the number of pages. -/
def visitPages : Nat → Option γ → List α → σ → Option (Except ε (List α)) × σ
  | 0, _, _, s => (none, s)
  | fuel + 1, cursor, visited, s =>
      let page := readPage s cursor
      match visitItems visit page.items s with
      | (.error error, s) => (some (.error error), s)
      | (.ok (), s) =>
          match page.nextCursor with
          | none => (some (.ok (visited ++ page.items)), s)
          | some next => visitPages fuel (some next) (visited ++ page.items) s

end Loop

variable [LinearOrder κ] (rank : α → κ) (listing : σ → List α)
  (visit : α → σ → Except ε Unit × σ)

/-- Handling the first item of the listing succeeds and leaves the others. -/
structure Drains (Inv : σ → Prop) : Prop where
  sorted : ∀ s, Inv s → (listing s).Pairwise fun a b => rank b < rank a
  visits : ∀ s a rest, Inv s → listing s = a :: rest →
    ∃ s', visit a s = (.ok (), s') ∧ Inv s' ∧ listing s' = rest

/-- The first item of the listing is handled. -/
def TakesOut (Inv : σ → Prop) (s : σ) (a : α) (s' : σ) : Prop :=
  Inv s ∧ listing s = a :: listing s' ∧ visit a s = (.ok (), s')

variable {rank listing visit} {Inv : σ → Prop} {s : σ}

namespace Drains

/-- Visiting the items of one page takes them out of the listing, one after
another, and leaves the rest of the listing as it was. -/
theorem items (h : Drains rank listing visit Inv) {items later : List α} (hInv : Inv s)
    (hListing : listing s = items ++ later) :
    ∃ s', visitItems visit items s = (.ok (), s') ∧ Inv s' ∧ listing s' = later ∧
      Run (TakesOut listing visit Inv) s items s' := by
  induction items generalizing s with
  | nil => exact ⟨s, rfl, hInv, hListing, .nil s⟩
  | cons a items ih =>
      obtain ⟨middle, hVisit, hMiddle, hRest⟩ := h.visits s a _ hInv hListing
      obtain ⟨s', hItems, hInv', hLater, hRun⟩ := ih hMiddle hRest
      have hFirst : TakesOut listing visit Inv s a middle :=
        ⟨hInv, hListing.trans (by rw [hRest]; rfl), hVisit⟩
      refine ⟨s', ?_, hInv', hLater, (Run.single hFirst).trans hRun⟩
      rw [visitItems, hVisit]
      exact hItems

variable {cursorRank : γ → κ} {cursorOf : α → γ} {limit : Nat}
  {readPage : σ → Option γ → Page α γ}

/-- With enough fuel the loop handles the whole listing, each item once and in
order, and leaves the listing empty, whatever the page size. -/
theorem pages (h : Drains rank listing visit Inv)
    (hPage : ∀ s cursor, Inv s →
      readPage s cursor = page rank cursorRank cursorOf limit cursor (listing s))
    (hRank : ∀ a, cursorRank (cursorOf a) = rank a) (hLimit : 0 < limit) (hInv : Inv s)
    (cursor : Option γ) (hBelow : ∀ a ∈ listing s, ∀ c ∈ cursor, rank a < cursorRank c)
    (visited : List α) :
    ∃ s', (∀ fuel, (listing s).length < fuel → visitPages readPage visit fuel cursor visited s =
        (some (.ok (visited ++ listing s)), s')) ∧ Inv s' ∧ listing s' = [] ∧
      Run (TakesOut listing visit Inv) s (listing s) s' := by
  generalize hLength : (listing s).length = length
  induction length using Nat.strong_induction_on generalizing s cursor visited with
  | _ length ih =>
      -- nothing that is left has been passed by the cursor
      have hAll : remaining rank cursorRank cursor (listing s) = listing s := by
        cases cursor with
        | none => rfl
        | some c =>
            exact List.filter_eq_self.mpr fun a hMem => decide_eq_true (hBelow a hMem c rfl)
      have hRead := hPage s cursor hInv
      rw [page, hAll] at hRead
      obtain ⟨middle, hItems, hMiddle, hRest, hFirst⟩ :=
        h.items hInv (List.take_append_drop limit (listing s)).symm
      by_cases hMore : limit < (listing s).length
      · have hTake : (listing s).take limit ≠ [] := by
          rw [← List.length_pos_iff, List.length_take]
          omega
        let next := cursorOf (((listing s).take limit).getLast hTake)
        rw [if_pos hMore, List.getLast?_eq_some_getLast hTake, Option.map_some] at hRead
        have hSorted := h.sorted s hInv
        rw [← List.take_append_drop limit (listing s)] at hSorted
        obtain ⟨_, _, hCross⟩ := List.pairwise_append.mp hSorted
        have hNext : ∀ a ∈ listing middle, ∀ c ∈ some next, rank a < cursorRank c := by
          intro a hMem c hc
          cases hc
          rw [hRest] at hMem
          rw [hRank]
          exact hCross _ (List.getLast_mem hTake) a hMem
        have hShorter : (listing middle).length < length := by
          rw [hRest, List.length_drop]
          omega
        obtain ⟨s', hPages, hInv', hEmpty, hLater⟩ := ih _ hShorter hMiddle (some next) hNext
          (visited ++ (listing s).take limit) rfl
        refine ⟨s', fun fuel hFuel => ?_, hInv', hEmpty, ?_⟩
        · obtain ⟨fuel, rfl⟩ := Nat.exists_eq_add_one.mpr (Nat.zero_lt_of_lt hFuel)
          rw [visitPages, hRead]
          dsimp only
          rw [hItems]
          dsimp only
          rw [hPages fuel (by omega), hRest, List.append_assoc, List.take_append_drop]
        · have hWhole := hFirst.trans hLater
          rwa [hRest, List.take_append_drop] at hWhole
      · have hTake : (listing s).take limit = listing s :=
          List.take_of_length_le (Nat.le_of_not_lt hMore)
        rw [if_neg hMore, hTake] at hRead
        rw [hTake] at hFirst hItems
        refine ⟨middle, fun fuel hFuel => ?_, hMiddle, ?_, hFirst⟩
        · obtain ⟨fuel, rfl⟩ := Nat.exists_eq_add_one.mpr (Nat.zero_lt_of_lt hFuel)
          rw [visitPages, hRead]
          dsimp only
          rw [hItems]
        · rw [hRest, List.drop_eq_nil_iff.mpr (Nat.le_of_not_lt hMore)]

end Drains

end KeysetPages
