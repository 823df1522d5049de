import RelayFold.Core.Task

/-! Attempt ids name one task and one generation: the generation is what
follows the last bracket. -/
namespace RelayFold

/-- A separator that occurs in neither tail splits a list in one way only. -/
theorem append_cons_inj {α : Type} {xs xs' ys ys' : List α} {c : α} (h : c ∉ ys) (h' : c ∉ ys')
    (hEq : xs ++ c :: ys = xs' ++ c :: ys') : xs = xs' ∧ ys = ys' := by
  rcases List.append_eq_append_iff.mp hEq with ⟨zs, rfl, hTail⟩ | ⟨zs, rfl, hTail⟩
  · cases zs with
    | nil => simpa using hTail
    | cons z zs =>
        injection hTail with _ hTail
        exact absurd (hTail ▸ List.mem_append_right _ List.mem_cons_self) h
  · cases zs with
    | nil => simpa using hTail.symm
    | cons z zs =>
        injection hTail with _ hTail
        exact absurd (hTail ▸ List.mem_append_right _ List.mem_cons_self) h'

/-- The generation and its closing bracket hold no opening bracket. The bracket
that ends the task id is therefore the last one of an attempt id. -/
theorem bracket_not_mem_digits (n : Nat) : '[' ∉ Nat.toDigits 10 n ++ [']'] := by
  intro h
  rcases List.mem_append.mp h with h | h
  · have hDigit : '['.isDigit = true := Nat.isDigit_of_mem_toDigits (by decide) (by decide) h
    exact absurd hDigit (by decide)
  · exact absurd h (by decide)

/-- An attempt id as characters: the task id, the bracketed generation in
decimal digits. -/
theorem makeTaskAttemptId_toList (taskDefId : String) (generation : Nat) :
    (makeTaskAttemptId taskDefId generation).toList =
      taskDefId.toList ++ '[' :: (Nat.toDigits 10 generation ++ [']']) := by
  simp only [makeTaskAttemptId, String.toList_append, Nat.toString_eq_repr, Nat.toList_repr]
  simp

/-- An attempt id determines its task and its generation. Different attempts
never share a key of the task map. -/
theorem makeTaskAttemptId_inj {taskDefId taskDefId' : String} {generation generation' : Nat} :
    makeTaskAttemptId taskDefId generation = makeTaskAttemptId taskDefId' generation' ↔
      taskDefId = taskDefId' ∧ generation = generation' := by
  constructor
  · intro h
    have hList := congrArg String.toList h
    simp only [makeTaskAttemptId_toList] at hList
    obtain ⟨hTask, hDigits⟩ := append_cons_inj (bracket_not_mem_digits generation)
      (bracket_not_mem_digits generation') hList
    have hGeneration := congrArg (Nat.ofDigitChars 10 · 0) (List.append_cancel_right hDigits)
    simp only [Nat.ofDigitChars_ten_toDigits] at hGeneration
    exact ⟨String.toList_inj.mp hTask, hGeneration⟩
  · rintro ⟨rfl, rfl⟩
    rfl

end RelayFold
