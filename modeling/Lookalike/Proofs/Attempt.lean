import Lookalike.Fault

/-!
# Running attempts

What a run of a computation ends with and the state it reaches, read off the computation: a step
that ends in a fault ends the whole, and every other step hands its value and its state on.

## Main statements

* `Attempt.result_bind_ok`, `Attempt.result_bind_error`
* `Attempt.bind_eq_ok`, `Attempt.bind_eq_error`
* `exists_of_bind_eq_ok`, `exists_of_map_eq_ok`, `mapM_eq_ok`, `exists_mapM_eq_ok`
* `Attempt.result_outcome`, `Attempt.result_ofExcept`, `Attempt.result_within`
-/

namespace Lookalike

/-- What succeeds without a state has gone through both its steps as well. -/
theorem exists_of_bind_eq_ok {α β : Type} {value : Except Fault α} {next : α → Except Fault β}
    {result : β} (succeeds : value >>= next = .ok result) :
    ∃ first, value = .ok first ∧ next first = .ok result := by
  cases value with
  | ok first => exact ⟨first, rfl, succeeds⟩
  | error fault => cases succeeds

/-- What succeeds with a value that has been passed on has succeeded before. -/
theorem exists_of_map_eq_ok {α β : Type} {value : Except Fault α} {f : α → β} {result : β}
    (succeeds : value.map f = .ok result) : ∃ first, value = .ok first ∧ f first = result := by
  cases value with
  | ok first => exact ⟨first, rfl, Except.ok.inj succeeds⟩
  | error fault => cases succeeds

/-- What fails where a value would have been passed on has failed before. -/
theorem eq_error_of_map_eq_error {α β : Type} {value : Except Fault α} {f : α → β} {fault : Fault}
    (fails : value.map f = .error fault) : value = .error fault := by
  cases value with
  | ok first => cases fails
  | error fault' => exact congrArg _ (Except.error.inj fails)

/-- A traversal whose steps all succeed has their values in order. -/
theorem mapM_eq_ok {α β : Type} {f : α → Except Fault β} {g : α → β} {items : List α}
    (known : ∀ item ∈ items, f item = .ok (g item)) : items.mapM f = .ok (items.map g) := by
  induction items with
  | nil => rfl
  | cons item rest ih =>
    rw [List.forall_mem_cons] at known
    rw [List.mapM_cons, known.1, ih known.2]
    rfl

/-- A traversal succeeds if all its steps do. -/
theorem exists_mapM_eq_ok {α β : Type} {f : α → Except Fault β} {items : List α}
    (succeeds : ∀ item ∈ items, ∃ value, f item = .ok value) :
    ∃ values, items.mapM f = .ok values := by
  induction items with
  | nil => exact ⟨[], rfl⟩
  | cons item rest ih =>
    rw [List.forall_mem_cons] at succeeds
    obtain ⟨⟨value, first⟩, others⟩ := succeeds
    obtain ⟨values, read⟩ := ih others
    exact ⟨value :: values, by rw [List.mapM_cons, first, read]; rfl⟩

namespace Attempt

variable {σ τ α β : Type} {attempt : Attempt σ α} {next : α → Attempt σ β} {state state' : σ}

@[simp] theorem result_pure (value : α) (state : σ) :
    (pure value : Attempt σ α).result state = (.ok value, state) := rfl

@[simp] theorem result_throw (fault : Fault) (state : σ) :
    (throw fault : Attempt σ α).result state = (.error fault, state) := rfl

@[simp] theorem result_get (state : σ) : (get : Attempt σ σ).result state = (.ok state, state) :=
  rfl

@[simp] theorem result_modify (f : σ → σ) (state : σ) :
    (modify f : Attempt σ PUnit).result state = (.ok (), f state) := rfl

/-- A step hands its value and its state on. -/
theorem result_bind_ok {value : α} (succeeds : attempt.result state = (.ok value, state')) :
    (attempt >>= next).result state = (next value).result state' := by
  change Attempt.result (EStateM.bind attempt next) state = _
  unfold result at *
  -- A run ends with a value or a fault, and the equation tells which.
  cases run : attempt state <;> simp_all [EStateM.bind]

/-- A fault ends what follows. -/
theorem result_bind_error {fault : Fault}
    (fails : attempt.result state = (.error fault, state')) :
    (attempt >>= next).result state = (.error fault, state') := by
  change Attempt.result (EStateM.bind attempt next) state = _
  unfold result at *
  cases run : attempt state <;> simp_all [EStateM.bind]

/-- What ends well has gone through both its steps. -/
theorem bind_eq_ok {value : β} (succeeds : (attempt >>= next).result state = (.ok value, state')) :
    ∃ first state₁, attempt.result state = (.ok first, state₁) ∧
      (next first).result state₁ = (.ok value, state') := by
  cases run : attempt.result state with
  | mk outcome state₁ =>
    cases outcome with
    | ok first => exact ⟨first, state₁, rfl, result_bind_ok run ▸ succeeds⟩
    | error fault =>
      rw [result_bind_error run] at succeeds
      cases succeeds

/-- What ends in a fault has met it in its first step or in its second. -/
theorem bind_eq_error {fault : Fault}
    (fails : (attempt >>= next).result state = (.error fault, state')) :
    attempt.result state = (.error fault, state') ∨
      ∃ first state₁, attempt.result state = (.ok first, state₁) ∧
        (next first).result state₁ = (.error fault, state') := by
  cases run : attempt.result state with
  | mk outcome state₁ =>
    cases outcome with
    | ok first => exact .inr ⟨first, state₁, rfl, result_bind_ok run ▸ fails⟩
    | error fault' =>
      rw [result_bind_error run] at fails
      cases fails
      exact .inl rfl

/-- The fault of a step is handed on as a value. -/
@[simp] theorem result_outcome (attempt : Attempt σ α) (state : σ) :
    attempt.outcome.result state =
      (.ok (attempt.result state).1, (attempt.result state).2) := by
  unfold result outcome
  cases attempt state <;> rfl

@[simp] theorem result_ofExcept (value : Except Fault α) (state : σ) :
    (ofExcept value : Attempt σ α).result state = (value, state) := by
  cases value <;> rfl

@[simp] theorem result_within (get : σ → τ) (put : τ → σ → σ) (attempt : Attempt τ α) (state : σ) :
    (attempt.within get put).result state =
      ((attempt.result (get state)).1, put (attempt.result (get state)).2 state) := by
  unfold result within
  cases attempt (get state) <;> rfl

end Attempt

end Lookalike
