import Mathlib.Data.List.Induction
import Mathlib.Tactic.Common

/-! Splitting a text at a separator into a bounded number of parts, and reading
bounded decimals. -/
namespace DelimitedText

section Split

variable {α : Type} [DecidableEq α] {sep : α}

variable (sep) in
/-- At most the given number of parts: the last one keeps the separators that
remain. -/
def splitn : Nat → List α → List (List α)
  | 0, _ => []
  | 1, text => [text]
  | parts + 2, text =>
      match text.dropWhile (· ≠ sep) with
      | [] => [text]
      | _ :: rest => text.takeWhile (· ≠ sep) :: splitn (parts + 1) rest

theorem splitn_append (parts : Nat) {first : List α} (rest : List α) (h : sep ∉ first) :
    splitn sep (parts + 2) (first ++ sep :: rest) = first :: splitn sep (parts + 1) rest := by
  have hFirst : ∀ a ∈ first, decide (a ≠ sep) = true := fun a hMem =>
    decide_eq_true fun hSame => h (hSame ▸ hMem)
  rw [splitn, List.dropWhile_append_of_pos hFirst, List.takeWhile_append_of_pos hFirst,
    List.dropWhile_cons_of_neg (by simp), List.takeWhile_cons_of_neg (by simp), List.append_nil]

omit [DecidableEq α] in
/-- What does not separate is in one of the parts. -/
theorem mem_splitOnP {p : α → Bool} {xs : List α} {a : α} (h : a ∈ xs)
    (hKept : p a = false) : ∃ group ∈ xs.splitOnP p, a ∈ group := by
  induction xs with
  | nil => cases h
  | cons x xs ih =>
      rw [List.splitOnP_cons_eq_if_modifyHead]
      rcases List.mem_cons.mp h with rfl | hMem
      · rw [if_neg (by rw [hKept]; exact Bool.false_ne_true)]
        obtain ⟨first, rest, hSplit⟩ := List.exists_cons_of_ne_nil (List.splitOnP_ne_nil p xs)
        rw [hSplit]
        exact ⟨a :: first, List.mem_cons_self, List.mem_cons_self⟩
      · obtain ⟨group, hGroup, hIn⟩ := ih hMem
        split
        · exact ⟨group, List.mem_cons_of_mem _ hGroup, hIn⟩
        · obtain ⟨first, rest, hSplit⟩ := List.exists_cons_of_ne_nil (List.splitOnP_ne_nil p xs)
          rw [hSplit] at hGroup ⊢
          rcases List.mem_cons.mp hGroup with rfl | hRest
          · exact ⟨x :: group, List.mem_cons_self, List.mem_cons_of_mem _ hIn⟩
          · exact ⟨group, List.mem_cons_of_mem _ hRest, hIn⟩

variable (sep) in
/-- Appending to a text changes its last part only. -/
theorem splitOn_last (text : List α) : ∃ closed last, sep ∉ last ∧
    text.splitOn sep = closed ++ [last] ∧
    (∀ more, (text ++ more).splitOn sep = closed ++ (last ++ more).splitOn sep) ∧
    (last = [] ↔ text = [] ∨ text.getLast? = some sep) := by
  induction text using List.reverseRecOn with
  | nil => exact ⟨[], [], List.not_mem_nil, rfl, fun _ => rfl, by simp⟩
  | append_singleton text a ih =>
      obtain ⟨closed, last, hLast, hSplit, hMore, _⟩ := ih
      by_cases hSep : a = sep
      · subst hSep
        refine ⟨closed ++ [last], [], List.not_mem_nil, ?_, fun more => ?_, by simp⟩
        · rw [hMore, List.splitOn_append_cons_self_of_not_mem hLast, List.splitOn_nil]
          simp
        · rw [List.append_assoc, hMore, List.singleton_append,
            List.splitOn_append_cons_self_of_not_mem hLast]
          simp
      · have hNot : sep ∉ last ++ [a] := by
          rw [List.mem_append, List.mem_singleton, not_or]
          exact ⟨hLast, fun hSame => hSep hSame.symm⟩
        refine ⟨closed, last ++ [a], hNot, ?_, fun more => ?_, by simp [hSep]⟩
        · rw [hMore, List.splitOn_eq_singleton hNot]
        · rw [List.append_assoc, hMore, List.append_assoc]

end Split

/-- One plus sign may come before the digits. -/
def withoutPlus : List Char → List Char
  | '+' :: digit :: rest => digit :: rest
  | text => text

theorem withoutPlus_digits {digits : List Char} (h : ∀ c ∈ digits, c.isDigit = true) :
    withoutPlus digits = digits := by
  unfold withoutPlus
  split
  · exact absurd (h '+' List.mem_cons_self) (by decide)
  · rfl

/-- A decimal below a bound. -/
def parseBounded (bound : Nat) (text : List Char) : Option Nat :=
  let digits := withoutPlus text
  if digits ≠ [] ∧ digits.all Char.isDigit then
    let value := Nat.ofDigitChars 10 digits 0
    if value < bound then some value else none
  else none

/-- Decimal numerals consist of digits, so no delimiter can occur in one. -/
theorem isDigit_of_mem_toDigits {value : Nat} {c : Char} (h : c ∈ Nat.toDigits 10 value) :
    c.isDigit = true :=
  Nat.isDigit_of_mem_toDigits (by decide) (by decide) h

/-- A number that was printed is read back. -/
theorem parseBounded_toDigits {bound value : Nat} (h : value < bound) :
    parseBounded bound (Nat.toDigits 10 value) = some value := by
  have hDigits : ∀ c ∈ Nat.toDigits 10 value, c.isDigit = true := fun _ => isDigit_of_mem_toDigits
  have hNe : Nat.toDigits 10 value ≠ [] := Nat.toDigits_ne_nil
  unfold parseBounded
  dsimp only
  rw [withoutPlus_digits hDigits, if_pos ⟨hNe, List.all_eq_true.mpr hDigits⟩,
    Nat.ofDigitChars_ten_toDigits, if_pos h]

end DelimitedText
