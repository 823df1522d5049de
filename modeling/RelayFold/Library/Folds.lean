import Mathlib.Data.List.Basic

/-! Folds whose steps may fail: what every step keeps, the fold keeps. -/
namespace FallibleFold

variable {ε σ τ α : Type}

/-- A sequence of two computations succeeds if the first does and then the
second on its result. -/
theorem bind_ok {x : Except ε σ} {f : σ → Except ε τ} {b : τ} :
    x >>= f = .ok b ↔ ∃ a, x = .ok a ∧ f a = .ok b := by
  cases x with
  | error e =>
      constructor
      · intro h
        cases h
      · rintro ⟨_, h, _⟩
        cases h
  | ok a =>
      constructor
      · intro h
        exact ⟨a, rfl, h⟩
      · rintro ⟨_, h, hNext⟩
        cases h
        exact hNext

/-- A computation that is known to succeed has the value that it succeeds
with. -/
theorem eq_ok_get {x : Except ε σ} (h : x.toOption.isSome) : x = .ok (x.toOption.get h) := by
  cases x with
  | error e => cases h
  | ok a => rfl

/-- A fallible fold succeeds through its first step and the rest. -/
theorem foldlM_cons_ok {step : σ → α → Except ε σ} {s s' : σ} {a : α} {items : List α} :
    (a :: items).foldlM step s = .ok s' ↔
      ∃ middle, step s a = .ok middle ∧ items.foldlM step middle = .ok s' := by
  rw [List.foldlM_cons]
  exact bind_ok

/-- A fallible map that succeeds relates the two lists entry by entry. -/
theorem mapM_ok {f : α → Except ε τ} {items : List α} {results : List τ}
    (h : items.mapM f = .ok results) : List.Forall₂ (fun a b => f a = .ok b) items results := by
  induction items generalizing results with
  | nil =>
      cases h
      exact .nil
  | cons a items ih =>
      rw [List.mapM_cons] at h
      obtain ⟨b, hFirst, h⟩ := bind_ok.mp h
      obtain ⟨rest, hRest, h⟩ := bind_ok.mp h
      cases h
      exact .cons hFirst (ih hRest)

/-- A fallible map succeeds where every element does. -/
theorem mapM_ok_of {f : α → Except ε τ} {g : α → τ} {items : List α}
    (h : ∀ a ∈ items, f a = .ok (g a)) : items.mapM f = .ok (items.map g) := by
  induction items with
  | nil => rfl
  | cons a items ih =>
      obtain ⟨hFirst, hRest⟩ := List.forall_mem_cons.mp h
      rw [List.mapM_cons, hFirst, ih hRest]
      rfl

/-- A fallible map fails with the error of the first entry that fails. -/
theorem mapM_error_of {f : α → Except ε τ} {before after : List α} {a : α} {e : ε}
    (hBefore : ∀ b ∈ before, ∃ result, f b = .ok result) (h : f a = .error e) :
    (before ++ a :: after).mapM f = .error e := by
  induction before with
  | nil =>
      rw [List.nil_append, List.mapM_cons, h]
      rfl
  | cons b before ih =>
      obtain ⟨⟨result, hFirst⟩, hRest⟩ := List.forall_mem_cons.mp hBefore
      rw [List.cons_append, List.mapM_cons, hFirst, ih hRest]
      rfl

/-- A loop of checks passes only if each of them does. -/
theorem forM_ok {f : α → Except ε Unit} {items : List α} (h : items.forM f = .ok ()) :
    ∀ a ∈ items, f a = .ok () := by
  induction items with
  | nil =>
      intro a ha
      cases ha
  | cons a items ih =>
      obtain ⟨_, hFirst, hRest⟩ := bind_ok.mp h
      intro b hb
      rcases List.mem_cons.mp hb with rfl | hb
      · exact hFirst
      · exact ih hRest b hb

/-- A fold over two lists in a row goes through an intermediate state. -/
theorem foldlM_append_ok {step : σ → α → Except ε σ} {s s' : σ} {xs ys : List α} :
    (xs ++ ys).foldlM step s = .ok s' ↔
      ∃ middle, xs.foldlM step s = .ok middle ∧ ys.foldlM step middle = .ok s' := by
  induction xs generalizing s with
  | nil => exact ⟨fun h => ⟨s, rfl, h⟩, fun ⟨_, h, hRest⟩ => by cases h; exact hRest⟩
  | cons x xs ih =>
      simp only [List.cons_append, foldlM_cons_ok, ih]
      constructor
      · rintro ⟨m, hx, m', hxs, hys⟩
        exact ⟨m', ⟨m, hx, hxs⟩, hys⟩
      · rintro ⟨m', ⟨m, hx, hxs⟩, hys⟩
        exact ⟨m, hx, m', hxs, hys⟩

/-- A reflexive and transitive relation that holds across each step holds
across the fold. -/
theorem foldlM_rel {step : σ → α → Except ε σ} {R : σ → σ → Prop} (hRefl : ∀ s, R s s)
    (hTrans : ∀ {a b c}, R a b → R b c → R a c)
    (hStep : ∀ {s a s'}, step s a = .ok s' → R s s') {s s' : σ} {items : List α}
    (h : items.foldlM step s = .ok s') : R s s' := by
  induction items generalizing s with
  | nil =>
      cases h
      exact hRefl _
  | cons a items ih =>
      obtain ⟨middle, hFirst, hRest⟩ := foldlM_cons_ok.mp h
      exact hTrans (hStep hFirst) (ih hRest)

/-- Translations that commute with two steps commute with the one after the
other. -/
theorem bind_map {σ' τ' : Type} {f : σ → σ'} {g : τ → τ'} {x : Except ε σ} {x' : Except ε σ'}
    {next : σ → Except ε τ} {next' : σ' → Except ε τ'} (hFirst : x' = x.map f)
    (hNext : ∀ s, next' (f s) = (next s).map g) : (x' >>= next') = (x >>= next).map g := by
  subst hFirst
  cases x with
  | error e => rfl
  | ok s => exact hNext s

/-- A translation of states that commutes with each step commutes with the
fold. -/
theorem foldlM_map {f : σ → τ} {step : σ → α → Except ε σ} {step' : τ → α → Except ε τ}
    (hStep : ∀ s a, step' (f s) a = (step s a).map f) (s : σ) (items : List α) :
    items.foldlM step' (f s) = (items.foldlM step s).map f := by
  induction items generalizing s with
  | nil => rfl
  | cons a items ih =>
      simp only [List.foldlM_cons, hStep]
      cases step s a with
      | error e => rfl
      | ok next => exact ih next

/-- Forgetting the error messages commutes with the fold. -/
theorem foldlM_toOption {step : σ → α → Except ε σ} (s : σ) (items : List α) :
    items.foldlM (fun s a => (step s a).toOption) s = (items.foldlM step s).toOption := by
  induction items generalizing s with
  | nil => rfl
  | cons a items ih =>
      simp only [List.foldlM_cons]
      cases step s a with
      | error e => rfl
      | ok next => exact ih next

/-- A map that may have no result, entry by entry. -/
theorem mapM_eq_some {α β : Type} {f : α → Option β} {items : List α} {results : List β} :
    items.mapM f = some results ↔ List.Forall₂ (fun a b => f a = some b) items results := by
  induction items generalizing results with
  | nil =>
      constructor
      · intro h
        cases h
        exact .nil
      · intro h
        cases h
        rfl
  | cons a items ih =>
      rw [List.mapM_cons]
      constructor
      · intro h
        obtain ⟨b, hFirst, h⟩ := Option.bind_eq_some_iff.mp h
        obtain ⟨rest, hRest, h⟩ := Option.bind_eq_some_iff.mp h
        cases h
        exact .cons hFirst (ih.mp hRest)
      · intro h
        cases h with
        | cons hFirst hRest =>
            rw [hFirst, ih.mpr hRest]
            rfl

/-- A map whose entries all have a result has one. -/
theorem mapM_some_of {α β : Type} {f : α → Option β} {R : α → β → Prop} {items : List α}
    (h : ∀ a ∈ items, ∃ b, f a = some b ∧ R a b) :
    ∃ results, items.mapM f = some results ∧ List.Forall₂ R items results := by
  induction items with
  | nil => exact ⟨[], rfl, .nil⟩
  | cons a items ih =>
      obtain ⟨b, hFirst, hR⟩ := h a List.mem_cons_self
      obtain ⟨rest, hRest, hAll⟩ := ih fun other hMem => h other (List.mem_cons_of_mem a hMem)
      refine ⟨b :: rest, ?_, .cons hR hAll⟩
      rw [List.mapM_cons, hFirst, hRest]
      rfl

end FallibleFold
