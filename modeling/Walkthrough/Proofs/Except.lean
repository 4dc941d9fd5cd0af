/-!
Results that may be errors. A sequence has a value where its parts have theirs one after the other, and the error
of the first part that has one.
-/
namespace Except

variable {ε ε' α β : Type} {x : Except ε α}

theorem bind_eq_ok {f : α → Except ε β} {b : β} : x >>= f = .ok b ↔ ∃ a, x = .ok a ∧ f a = .ok b := by
  cases x <;> simp [bind, Except.bind]

theorem bind_eq_error {f : α → Except ε β} {e : ε} :
    x >>= f = .error e ↔ x = .error e ∨ ∃ a, x = .ok a ∧ f a = .error e := by
  cases x <;> simp [bind, Except.bind]

theorem map_eq_ok {f : α → β} {b : β} : x.map f = .ok b ↔ ∃ a, x = .ok a ∧ f a = b := by
  cases x <;> simp [Except.map]

theorem map_eq_error {f : α → β} {e : ε} : x.map f = .error e ↔ x = .error e := by
  cases x <;> simp [Except.map]

theorem mapError_eq_ok {f : ε → ε'} {a : α} : x.mapError f = .ok a ↔ x = .ok a := by
  cases x with
  | ok found =>
    constructor
    · intro mapped
      exact congrArg ok (ok.inj mapped)
    · intro same
      exact congrArg ok (ok.inj same)
  | error e => exact ⟨nofun, nofun⟩

theorem mapError_eq_error {f : ε → ε'} {e' : ε'} : x.mapError f = .error e' ↔ ∃ e, x = .error e ∧ f e = e' := by
  cases x with
  | ok found => exact ⟨nofun, nofun⟩
  | error e =>
    constructor
    · intro mapped
      exact ⟨e, rfl, error.inj mapped⟩
    · rintro ⟨_, same, rfl⟩
      exact congrArg (error ∘ f) (error.inj same)

end Except
