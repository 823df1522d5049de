import Mathlib.Data.List.Sort
import Mathlib.Order.Lattice

/-! Keyset pagination: a listing in strictly decreasing rank is read page
by page, and each page starts below the rank of the last item of the page
before. -/

structure Page (T C : Type) where
  items : List T
  nextCursor : Option C

namespace KeysetPages

variable {α γ κ : Type} [LinearOrder κ] (rank : α → κ) (cursorRank : γ → κ) (cursorOf : α → γ)

section Sorting

variable {rank}

/-- Items of distinct ranks are sorted into strictly decreasing rank. -/
theorem insertionSort_strict {xs : List α} (h : xs.Pairwise fun a b => rank a ≠ rank b) :
    (xs.insertionSort fun a b => rank b ≤ rank a).Pairwise fun a b => rank b < rank a := by
  have hSorted := List.pairwise_insertionSort (fun a b => rank b ≤ rank a) xs
  have hDistinct := ((List.perm_insertionSort (fun a b => rank b ≤ rank a) xs).pairwise_iff
    fun hNe => hNe.symm).mpr h
  exact (hSorted.and hDistinct).imp fun ⟨hLe, hNe⟩ => lt_of_le_of_ne hLe hNe.symm

/-- Strictly decreasing lists with the same members are equal. -/
theorem eq_of_strict {xs ys : List α} (hXs : xs.Pairwise fun a b => rank b < rank a)
    (hYs : ys.Pairwise fun a b => rank b < rank a) (h : ∀ a, a ∈ xs ↔ a ∈ ys) : xs = ys := by
  have hNodup {zs : List α} (hZs : zs.Pairwise fun a b => rank b < rank a) : zs.Nodup :=
    hZs.imp fun hLt => ne_of_apply_ne rank hLt.ne'
  have hPerm := (List.perm_ext_iff_of_nodup (hNodup hXs) (hNodup hYs)).mpr h
  have hAsymm (a b : α) (hLt : rank b < rank a) (hGt : rank a < rank b) : a = b :=
    absurd hLt hGt.asymm
  exact hPerm.eq_of_pairwise (fun a b _ _ => hAsymm a b) hXs hYs

/-- Sorting by a key that is nowhere repeated and filtering may be done in
either order. -/
theorem insertionSort_filter {xs : List α} (h : xs.Pairwise fun a b => rank a ≠ rank b)
    (p : α → Bool) : (xs.filter p).insertionSort (fun a b => rank b ≤ rank a) =
      (xs.insertionSort fun a b => rank b ≤ rank a).filter p := by
  refine eq_of_strict (insertionSort_strict (h.filter p)) ((insertionSort_strict h).filter p)
    fun a => ?_
  rw [(List.perm_insertionSort _ _).mem_iff, List.mem_filter, List.mem_filter,
    (List.perm_insertionSort _ _).mem_iff]

end Sorting

/-- The items below a cursor; without a cursor all of them. -/
def remaining (cursor : Option γ) (listing : List α) : List α :=
  match cursor with
  | none => listing
  | some cursor => listing.filter fun a => rank a < cursorRank cursor

def page (limit : Nat) (cursor : Option γ) (listing : List α) : Page α γ :=
  let selected := remaining rank cursorRank cursor listing
  { items := selected.take limit
    nextCursor :=
      if limit < selected.length then (selected.take limit).getLast?.map cursorOf else none }

/-- What is still to be read once a page has been read. -/
def rest (page : Page α γ) (listing : List α) : List α :=
  match page.nextCursor with
  | none => []
  | some cursor => remaining rank cursorRank (some cursor) listing

variable {rank cursorRank cursorOf} {listing : List α} {cursor : Option γ} {limit : Nat}

/-- In a list sorted downwards, the elements below one of them are those that
stand behind it. -/
theorem filter_below {first later : List α} {last : α}
    (hSorted : (first ++ last :: later).Pairwise fun a b => rank b < rank a) :
    (first ++ last :: later).filter (fun a => rank a < rank last) = later := by
  obtain ⟨_, hTail, hCross⟩ := List.pairwise_append.mp hSorted
  obtain ⟨hLater, _⟩ := List.pairwise_cons.mp hTail
  rw [List.filter_append, List.filter_cons, List.filter_eq_nil_iff.mpr, List.nil_append,
    if_neg (by simp), List.filter_eq_self]
  · exact fun a hMem => by simpa using hLater a hMem
  · exact fun a hMem => by simpa using (hCross a hMem last List.mem_cons_self).le

theorem page_nil : page rank cursorRank cursorOf limit cursor [] = ⟨[], none⟩ := by
  cases cursor <;> simp [page, remaining]

variable (listing) in
/-- Below an item of the selection the whole listing and the selection
agree. -/
theorem remaining_below {a : α} (hCursor : ∀ c ∈ cursor, rank a < cursorRank c) :
    (remaining rank cursorRank cursor listing).filter (fun b => rank b < rank a) =
      listing.filter fun b => rank b < rank a := by
  cases cursor with
  | none => rfl
  | some c =>
      rw [remaining, List.filter_filter]
      refine List.filter_congr fun b _ => ?_
      have hBelow := hCursor c rfl
      rw [Bool.eq_iff_iff, Bool.and_eq_true, decide_eq_true_eq, decide_eq_true_eq]
      exact ⟨And.left, fun h => ⟨h, h.trans hBelow⟩⟩

theorem mem_remaining {a : α} : a ∈ remaining rank cursorRank cursor listing ↔
    a ∈ listing ∧ ∀ c ∈ cursor, rank a < cursorRank c := by
  cases cursor <;> simp [remaining]

variable (cursor) in
/-- A page and what is left after it are what was left before it. -/
theorem page_append_rest (hSorted : listing.Pairwise fun a b => rank b < rank a)
    (hRank : ∀ a, cursorRank (cursorOf a) = rank a) (hLimit : 0 < limit) :
    (page rank cursorRank cursorOf limit cursor listing).items ++
        rest rank cursorRank (page rank cursorRank cursorOf limit cursor listing) listing =
      remaining rank cursorRank cursor listing := by
  have hSelected : (remaining rank cursorRank cursor listing).Pairwise
      fun a b => rank b < rank a := by
    cases cursor with
    | none => exact hSorted
    | some c => exact hSorted.filter _
  have hBelow := fun a (h : a ∈ remaining rank cursorRank cursor listing) =>
    remaining_below listing (mem_remaining.mp h).2
  unfold rest page
  generalize remaining rank cursorRank cursor listing = selected at hSelected hBelow ⊢
  dsimp only
  by_cases hMore : limit < selected.length
  · have hTake : selected.take limit ≠ [] := by
      rw [← List.length_pos_iff, List.length_take]
      omega
    have hLast := List.dropLast_append_getLast hTake
    have hMem : (selected.take limit).getLast hTake ∈ selected :=
      List.mem_of_mem_take (List.getLast_mem hTake)
    have hSplit : selected = (selected.take limit).dropLast ++
        (selected.take limit).getLast hTake :: selected.drop limit := by
      rw [List.append_cons, hLast, List.take_append_drop]
    rw [if_pos hMore, List.getLast?_eq_some_getLast hTake, Option.map_some]
    dsimp only
    rw [remaining]
    simp only [hRank]
    rw [← hBelow _ hMem]
    have hFilter := filter_below (hSplit ▸ hSelected)
    rw [← hSplit] at hFilter
    rw [hFilter, List.take_append_drop]
  · rw [if_neg hMore]
    dsimp only
    rw [List.append_nil, List.take_of_length_le (Nat.le_of_not_lt hMore)]

/-- What was left is on the page, or it is left after the page's cursor. -/
theorem mem_page_or_remaining (hSorted : listing.Pairwise fun a b => rank b < rank a)
    (hRank : ∀ a, cursorRank (cursorOf a) = rank a) (hLimit : 0 < limit) {a : α}
    (hLeft : a ∈ remaining rank cursorRank cursor listing) :
    a ∈ (page rank cursorRank cursorOf limit cursor listing).items ∨
      ∃ next, (page rank cursorRank cursorOf limit cursor listing).nextCursor = some next ∧
        a ∈ remaining rank cursorRank (some next) listing := by
  rw [← page_append_rest cursor hSorted hRank hLimit, List.mem_append] at hLeft
  refine hLeft.imp_right fun hRest => ?_
  unfold rest at hRest
  split at hRest
  · cases hRest
  · rename_i next hNext
    exact ⟨next, hNext, hRest⟩

/-- Each page that is not the last makes what is left shorter. -/
theorem rest_length_lt (hSorted : listing.Pairwise fun a b => rank b < rank a)
    (hRank : ∀ a, cursorRank (cursorOf a) = rank a) (hLimit : 0 < limit) {next : γ}
    (hNext : (page rank cursorRank cursorOf limit cursor listing).nextCursor = some next) :
    (remaining rank cursorRank (some next) listing).length <
      (remaining rank cursorRank cursor listing).length := by
  have hAppend := congrArg List.length (page_append_rest cursor hSorted hRank hLimit)
  rw [rest, hNext, List.length_append] at hAppend
  have hItems : 0 < (page rank cursorRank cursorOf limit cursor listing).items.length := by
    unfold page at hNext ⊢
    dsimp only at hNext ⊢
    split at hNext
    · rw [List.length_take]
      omega
    · cases hNext
  dsimp only at hAppend
  omega

section Loop

variable {β : Type}

/-- Read page after page and fold the items of each; `fuel` bounds the number
of pages. -/
def foldPages (readPage : Option γ → Page α γ) (step : β → List α → β) :
    Nat → Option γ → β → Option β
  | 0, _, _ => none
  | fuel + 1, cursor, acc =>
      let page := readPage cursor
      match page.nextCursor with
      | none => some (step acc page.items)
      | some next => foldPages readPage step fuel (some next) (step acc page.items)

/-- Pages whose items are rendered one by one. -/
theorem foldPages_map {δ : Type} (readPage : Option γ → Page α γ) (render : α → δ)
    (step : β → List δ → β) (fuel : Nat) (cursor : Option γ) (acc : β) :
    foldPages (fun cursor => ⟨(readPage cursor).items.map render, (readPage cursor).nextCursor⟩) step
        fuel cursor acc =
      foldPages readPage (fun acc items => step acc (items.map render)) fuel cursor acc := by
  induction fuel generalizing cursor acc with
  | zero => rfl
  | succ fuel ih =>
      rw [foldPages, foldPages]
      dsimp only
      cases (readPage cursor).nextCursor with
      | none => rfl
      | some next => exact ih (some next) _

/-- With enough fuel the loop folds everything that was left, whatever the page
size. -/
theorem foldPages_eq (hSorted : listing.Pairwise fun a b => rank b < rank a)
    (hRank : ∀ a, cursorRank (cursorOf a) = rank a) (hLimit : 0 < limit) {step : β → List α → β}
    (hStep : ∀ acc xs ys, step (step acc xs) ys = step acc (xs ++ ys)) {fuel : Nat}
    (hFuel : (remaining rank cursorRank cursor listing).length < fuel) (acc : β) :
    foldPages (fun cursor => page rank cursorRank cursorOf limit cursor listing) step fuel cursor
        acc = some (step acc (remaining rank cursorRank cursor listing)) := by
  induction fuel generalizing cursor acc with
  | zero => cases hFuel
  | succ fuel ih =>
      have hAppend := page_append_rest cursor hSorted hRank hLimit
      rw [foldPages]
      rw [rest] at hAppend
      cases hNext : (page rank cursorRank cursorOf limit cursor listing).nextCursor with
      | none =>
          rw [hNext, List.append_nil] at hAppend
          rw [hAppend]
      | some next =>
          rw [hNext] at hAppend
          have hShorter := rest_length_lt hSorted hRank hLimit hNext
          dsimp only at hAppend ⊢
          rw [ih (by omega), hStep, hAppend]

/-- Reading from the front folds the whole listing. -/
theorem foldPages_all (hSorted : listing.Pairwise fun a b => rank b < rank a)
    (hRank : ∀ a, cursorRank (cursorOf a) = rank a) (hLimit : 0 < limit) {step : β → List α → β}
    (hStep : ∀ acc xs ys, step (step acc xs) ys = step acc (xs ++ ys)) {fuel : Nat}
    (hFuel : listing.length < fuel) (acc : β) :
    foldPages (fun cursor => page rank cursorRank cursorOf limit cursor listing) step fuel none
        acc = some (step acc listing) :=
  foldPages_eq hSorted hRank hLimit hStep hFuel acc

end Loop

end KeysetPages
