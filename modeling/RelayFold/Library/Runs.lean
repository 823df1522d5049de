import Mathlib.Data.List.Induction

/-! Runs of labelled transition systems: the rule that carries an invariant
along a run, and simulation of one system by another. -/

/-- The labels of a run are listed in the order the steps were taken. -/
inductive Run {σ α : Type} (Step : σ → α → σ → Prop) : σ → List α → σ → Prop where
  | nil (s : σ) : Run Step s [] s
  | snoc {s middle s' : σ} {a : α} {actions : List α} (prior : Run Step s actions middle)
      (last : Step middle a s') : Run Step s (actions ++ [a]) s'

namespace Run

variable {σ τ α β : Type} {Step Step' : σ → α → σ → Prop} {s middle s' : σ}
  {actions rest : List α}

theorem single {a : α} (h : Step s a s') : Run Step s [a] s' := .snoc (.nil s) h

/-- Runs compose. -/
theorem trans (first : Run Step s actions middle) (second : Run Step middle rest s') :
    Run Step s (actions ++ rest) s' := by
  induction second with
  | nil => simpa using first
  | snoc prior last ih =>
      rw [← List.append_assoc]
      exact .snoc ih last

theorem mono (hStep : ∀ s a s', Step s a s' → Step' s a s') (run : Run Step s actions s') :
    Run Step' s actions s' := by
  induction run with
  | nil => exact .nil _
  | snoc prior last ih => exact .snoc ih (hStep _ _ _ last)

theorem of_nil (run : Run Step s [] s') : s' = s := by
  generalize hAll : ([] : List α) = all at run
  cases run with
  | nil => rfl
  | snoc prior last => simp at hAll

/-- A run that ends in an action is a shorter run and one last step. -/
theorem of_snoc {a : α} (run : Run Step s (actions ++ [a]) s') :
    ∃ middle, Run Step s actions middle ∧ Step middle a s' := by
  generalize hAll : actions ++ [a] = all at run
  cases run with
  | nil => simp at hAll
  | snoc prior last =>
      obtain ⟨rfl, hLast⟩ := List.append_inj' hAll rfl
      cases hLast
      exact ⟨_, prior, last⟩

/-- A run of two stretches passes through a state between them. -/
theorem of_append (run : Run Step s (actions ++ rest) s') :
    ∃ middle, Run Step s actions middle ∧ Run Step middle rest s' := by
  induction rest using List.reverseRecOn generalizing s' with
  | nil => exact ⟨s', by simpa using run, .nil s'⟩
  | append_singleton rest a ih =>
      rw [← List.append_assoc] at run
      obtain ⟨last, hPrior, hLast⟩ := of_snoc run
      obtain ⟨middle, hFirst, hRest⟩ := ih hPrior
      exact ⟨middle, hFirst, hRest.snoc hLast⟩

/-- A run that begins with an action has its first state there. -/
theorem of_cons {a : α} (run : Run Step s (a :: actions) s') :
    ∃ middle, Step s a middle ∧ Run Step middle actions s' := by
  have hSplit : Run Step s ([a] ++ actions) s' := run
  obtain ⟨middle, hFirst, hRest⟩ := of_append hSplit
  have hSingle : Run Step s ([] ++ [a]) middle := hFirst
  obtain ⟨start, hNil, hStep⟩ := of_snoc hSingle
  rw [of_nil hNil] at hStep
  exact ⟨middle, hStep, hRest⟩

/-- What holds at the start and is kept by every step holds at the end. -/
theorem invariant {P : σ → Prop} (run : Run Step s actions s') (hStart : P s)
    (hStep : ∀ s a s', P s → Step s a s' → P s') : P s' := by
  induction run with
  | nil => exact hStart
  | snoc prior last ih => exact hStep _ _ _ ih last

/-- Every step carries what is known of its label. -/
theorem labelled {P : α → Prop} (run : Run Step s actions s') (h : ∀ a ∈ actions, P a) :
    Run (fun s a s' => Step s a s' ∧ P a) s actions s' := by
  induction run with
  | nil => exact .nil _
  | snoc prior last ih =>
      rw [List.forall_mem_append, List.forall_mem_singleton] at h
      exact .snoc (ih h.1) ⟨last, h.2⟩

/-- Forward simulation: when each step is matched by a run of the abstract
system from every related state, so is each run. -/
theorem simulate {Abstract : τ → β → τ → Prop} {R : σ → τ → Prop}
    (hStep : ∀ s a s' t, R s t → Step s a s' → ∃ t' labels, Run Abstract t labels t' ∧ R s' t')
    (run : Run Step s actions s') {t : τ} (hStart : R s t) :
    ∃ t' labels, Run Abstract t labels t' ∧ R s' t' := by
  induction run with
  | nil => exact ⟨t, [], .nil t, hStart⟩
  | snoc prior last ih =>
      obtain ⟨t₁, labels₁, run₁, h₁⟩ := ih
      obtain ⟨t₂, labels₂, run₂, h₂⟩ := hStep _ _ _ _ h₁ last
      exact ⟨t₂, labels₁ ++ labels₂, run₁.trans run₂, h₂⟩

/-- Two systems that take related steps in turn. -/
theorem lockstep {Other : τ → β → τ → Prop} {R : σ → τ → Prop} {L : α → β → Prop}
    (hStep : ∀ s a s' t b, R s t → L a b → Step s a s' → ∃ t', Other t b t' ∧ R s' t')
    (run : Run Step s actions s') {labels : List β} (hLabels : List.Forall₂ L actions labels)
    {t : τ} (hStart : R s t) : ∃ t', Run Other t labels t' ∧ R s' t' := by
  induction hLabels generalizing s t with
  | nil =>
      rw [run.of_nil]
      exact ⟨t, .nil t, hStart⟩
  | cons hLabel _ ih =>
      obtain ⟨middle, hFirst, hRest⟩ := run.of_cons
      obtain ⟨t₁, hOther, h₁⟩ := hStep _ _ _ _ _ hStart hLabel hFirst
      obtain ⟨t₂, others, h₂⟩ := ih hRest h₁
      exact ⟨t₂, (single hOther).trans others, h₂⟩

section Traced

variable {γ : Type} (Step) (record : σ → α → σ → γ → γ)

/-- Steps that also update a history variable, which no step reads. -/
def Traced (p : σ × γ) (a : α) (q : σ × γ) : Prop :=
  Step p.1 a q.1 ∧ q.2 = record p.1 a q.1 p.2

variable {Step record}

/-- Every run can be accompanied by a history variable, from any first value of
it. -/
theorem traced (run : Run Step s actions s') (start : γ) :
    ∃ last, Run (Traced Step record) (s, start) actions (s', last) := by
  induction run with
  | nil => exact ⟨start, .nil _⟩
  | snoc prior last ih =>
      obtain ⟨value, run⟩ := ih
      exact ⟨record _ _ _ value, run.snoc ⟨last, rfl⟩⟩

theorem untraced {p q : σ × γ} (run : Run (Traced Step record) p actions q) :
    Run Step p.1 actions q.1 := by
  induction run with
  | nil => exact .nil _
  | snoc prior last ih => exact .snoc ih last.1

end Traced

/-- A run of an executable step function, from evaluating it. -/
theorem of_foldlM {step : σ → α → Option σ} (h : actions.foldlM step s = some s') :
    Run (fun s a s' => step s a = some s') s actions s' := by
  induction actions generalizing s with
  | nil =>
      cases h
      exact .nil _
  | cons a actions ih =>
      rw [List.foldlM_cons] at h
      obtain ⟨middle, hFirst, hRest⟩ := Option.bind_eq_some_iff.mp h
      exact (single hFirst).trans (ih hRest)

/-- Moves that lower a rank as long as the system runs bring it to its end. -/
theorem foldl_ends {move : σ → α → σ} {running : σ → Bool} {P : σ → Prop} {rank : σ → Nat}
    (hMove : ∀ s a, P s → running s = true → P (move s a) ∧ rank (move s a) < rank s)
    (hRest : ∀ s a, running s = false → running (move s a) = false) {inputs : List α}
    (hStart : P s) (hLength : rank s < inputs.length) :
    running (inputs.foldl move s) = false := by
  have hStays (rest : List α) (s : σ) (h : running s = false) :
      running (rest.foldl move s) = false := by
    induction rest generalizing s with
    | nil => exact h
    | cons a rest ih => exact ih _ (hRest s a h)
  induction inputs generalizing s with
  | nil => exact absurd hLength (Nat.not_lt_zero _)
  | cons a rest ih =>
      cases hRunning : running s with
      | false => exact hStays (a :: rest) s hRunning
      | true =>
          obtain ⟨hKept, hLower⟩ := hMove s a hStart hRunning
          rw [List.length_cons] at hLength
          exact ih hKept (by omega)

theorem of_foldl (step : σ → α → σ) (actions : List α) (s : σ) :
    Run (fun s a s' => step s a = s') s actions (actions.foldl step s) := by
  induction actions generalizing s with
  | nil => exact .nil s
  | cons a actions ih => exact (single rfl).trans (ih (step s a))

/-- A run of a total step function ends where the fold does. -/
theorem foldl_eq {step : σ → α → σ} (run : Run (fun s a s' => step s a = s') s actions s') :
    actions.foldl step s = s' := by
  induction run with
  | nil => rfl
  | snoc prior last ih =>
      rw [List.foldl_append, ih]
      exact last

/-- A run each of whose steps passes a check, from evaluating both. -/
theorem of_guarded {step : σ → α → Option σ} {guard : σ → α → Bool}
    (h : actions.foldlM (fun s a => if guard s a then step s a else none) s = some s') :
    Run (fun s a s' => step s a = some s' ∧ guard s a = true) s actions s' := by
  refine (of_foldlM h).mono fun s a s' hStep => ?_
  split at hStep
  · rename_i hGuard
    exact ⟨hStep, hGuard⟩
  · cases hStep

/-- A run each of whose steps passes a check of the states around it. -/
theorem of_checked {step : σ → α → Option σ} {check : σ → α → σ → Bool}
    (h : actions.foldlM (fun s a => (step s a).filter (check s a)) s = some s') :
    Run (fun s a s' => step s a = some s' ∧ check s a s' = true) s actions s' :=
  (of_foldlM h).mono fun _ _ _ hStep => Option.filter_eq_some_iff.mp hStep

theorem of_traced {γ : Type} {step : σ → α → Option σ} {record : σ → α → σ → γ → γ} {p q : σ × γ}
    (h : actions.foldlM (fun p a => (step p.1 a).map fun s' => (s', record p.1 a s' p.2)) p =
      some q) : Run (Traced (fun s a s' => step s a = some s') record) p actions q := by
  refine (of_foldlM h).mono fun p a q hStep => ?_
  obtain ⟨s', hNext, rfl⟩ := Option.map_eq_some_iff.mp hStep
  exact ⟨hNext, rfl⟩

end Run
