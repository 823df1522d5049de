import Mathlib.Data.List.Basic
import Mathlib.Tactic.Common

/-! Operations of one party among those of others: a relation between the
states that this party cannot tell apart (an unwinding) makes its outputs
depend on its own operations only. -/
namespace Noninterference

variable {σ α ο : Type} (step : α → σ → ο × σ) (own : α → Bool)

/-- The outputs of a party's operations. -/
def outputs (s : σ) : List α → List ο
  | [] => []
  | a :: rest =>
      if own a then (step a s).1 :: outputs (step a s).2 rest else outputs (step a s).2 rest

/-- The party's operations answer related states alike and keep them related;
those of others keep the relation on their side. -/
structure Unwinding (R : σ → σ → Prop) : Prop where
  answers : ∀ {s t a}, R s t → own a = true → (step a s).1 = (step a t).1
  keeps : ∀ {s t a}, R s t → own a = true → R (step a s).2 (step a t).2
  ignores : ∀ {s t a}, R s t → own a = false → R (step a s).2 t

variable {step own} {R : σ → σ → Prop} {s t u : σ}

/-- The operations of others can be left out. -/
theorem Unwinding.outputs_filter (h : Unwinding step own R) (hRel : R s t) (actions : List α) :
    outputs step own s actions = outputs step own t (actions.filter own) := by
  induction actions generalizing s t with
  | nil => rfl
  | cons a rest ih =>
      cases hOwn : own a with
      | true =>
          rw [List.filter_cons_of_pos hOwn, outputs, outputs, if_pos hOwn, if_pos hOwn,
            h.answers hRel hOwn, ih (h.keeps hRel hOwn)]
      | false =>
          rw [List.filter_cons_of_neg (by rw [hOwn]; exact Bool.false_ne_true), outputs,
            if_neg (by rw [hOwn]; exact Bool.false_ne_true), ih (h.ignores hRel hOwn)]

/-- Sequences with the same operations of the party give it the same
outputs. -/
theorem Unwinding.outputs_eq (h : Unwinding step own R) (hStart : R s s) {first second : List α}
    (hSame : first.filter own = second.filter own) :
    outputs step own s first = outputs step own s second := by
  rw [h.outputs_filter hStart first, hSame, ← h.outputs_filter hStart second]

end Noninterference
