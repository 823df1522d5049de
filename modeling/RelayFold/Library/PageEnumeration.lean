import RelayFold.Library.KeysetPages

namespace PageEnumeration

variable {α β γ δ ε : Type}

/-- Following the cursors from one on ends, and the pages together hold the
items. -/
inductive Enumerates (readPage : Option γ → Except ε (Page α γ)) : Option γ → List α → Prop where
  | last {cursor : Option γ} {items : List α} (page : readPage cursor = .ok ⟨items, none⟩) :
      Enumerates readPage cursor items
  | more {cursor : Option γ} {items rest : List α} {next : γ}
      (page : readPage cursor = .ok ⟨items, some next⟩)
      (later : Enumerates readPage (some next) rest) : Enumerates readPage cursor (items ++ rest)

variable {readPage : Option γ → Except ε (Page α γ)} {cursor : Option γ}

/-- There is only one way to follow the cursors. -/
theorem Enumerates.unique {items items' : List α} (h : Enumerates readPage cursor items)
    (h' : Enumerates readPage cursor items') : items' = items := by
  induction h generalizing items' with
  | last page =>
      cases h' with
      | last page' =>
          rw [page] at page'
          cases page'
          rfl
      | more page' _ =>
          rw [page] at page'
          cases page'
  | more page _ ih =>
      cases h' with
      | last page' =>
          rw [page] at page'
          cases page'
      | more page' later' =>
          rw [page] at page'
          cases page'
          rw [ih later']

/-! ### Offsets -/

section

open KeysetPages

variable {κ : Type} [LinearOrder κ] {rank : α → κ} {cursorRank : γ → κ} {cursorOf : α → γ}
  {listing : List α} {limit : Nat} {encode : γ → δ} {readPage : Option δ → Except ε (Page α δ)}

/-- A cursor that some item of the listing gave. -/
def Issued (cursorOf : α → γ) (listing : List α) (cursor : Option γ) : Prop :=
  ∀ c ∈ cursor, ∃ a ∈ listing, c = cursorOf a

/-- The cursor of a page was made from an element of the listing, so it may be
sent back. -/
theorem issued_next {cursor : Option γ} {next : γ}
    (h : (page rank cursorRank cursorOf limit cursor listing).nextCursor = some next) :
    Issued cursorOf listing (some next) := by
  unfold page at h
  dsimp only at h
  split at h
  · obtain ⟨a, hLast, rfl⟩ := Option.map_eq_some_iff.mp h
    have hMem := (mem_remaining.mp (List.mem_of_mem_take (List.mem_of_getLast? hLast))).1
    intro c hSame
    cases hSame
    exact ⟨a, hMem, rfl⟩
  · cases h

variable (encode) in
/-- Following the encoded cursors reads a listing in decreasing rank once, in
order. -/
theorem enumerates_keyset (hSorted : listing.Pairwise fun a b => rank b < rank a)
    (hRank : ∀ a, cursorRank (cursorOf a) = rank a) (hLimit : 0 < limit)
    (hRead : ∀ cursor, Issued cursorOf listing cursor → readPage (cursor.map encode) =
      .ok ⟨(page rank cursorRank cursorOf limit cursor listing).items,
        (page rank cursorRank cursorOf limit cursor listing).nextCursor.map encode⟩)
    (cursor : Option γ) (hCursor : Issued cursorOf listing cursor) :
    Enumerates readPage (cursor.map encode) (remaining rank cursorRank cursor listing) := by
  induction hLeft : (remaining rank cursorRank cursor listing).length using Nat.strongRecOn
    generalizing cursor with
  | ind left ih =>
      have hAppend := page_append_rest cursor hSorted hRank hLimit
      have hPage := hRead cursor hCursor
      rw [rest] at hAppend
      cases hNext : (page rank cursorRank cursorOf limit cursor listing).nextCursor with
      | none =>
          rw [hNext] at hAppend hPage
          rw [← hAppend, List.append_nil]
          exact .last hPage
      | some next =>
          have hShorter := rest_length_lt hSorted hRank hLimit hNext
          rw [hNext] at hAppend hPage
          rw [← hAppend]
          exact .more hPage (ih _ (by omega) (some next) (issued_next hNext) rfl)

end

end PageEnumeration
