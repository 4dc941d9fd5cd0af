/-!
Actions with a state, which keep what they have done when they stop. A sequence succeeds exactly when
its parts succeed one after the other, and fails where the first of them fails. Where a state holds
more than another one, an action can mirror one that knows only the smaller state.
-/
namespace Walkthrough.Action

variable {ε σ α β : Type} {x : EStateM ε σ α} {f : α → EStateM ε σ β} {s s' : σ}

theorem bind_eq_ok {b : β} :
    (x >>= f) s = .ok b s' ↔ ∃ a t, x s = .ok a t ∧ f a t = .ok b s' := by
  constructor
  · intro h
    cases first : x s with
    | ok a t => exact ⟨a, t, rfl, by simpa [bind, EStateM.bind, first] using h⟩
    | error e t => simp [bind, EStateM.bind, first] at h
  · intro given
    obtain ⟨a, t, first, second⟩ := given
    simp [bind, EStateM.bind, first, second]

theorem bind_eq_error {e : ε} :
    (x >>= f) s = .error e s' ↔
      x s = .error e s' ∨ ∃ a t, x s = .ok a t ∧ f a t = .error e s' := by
  constructor
  · intro h
    cases first : x s with
    | ok a t => exact Or.inr ⟨a, t, rfl, by simpa [bind, EStateM.bind, first] using h⟩
    | error e t => exact Or.inl (by simpa [bind, EStateM.bind, first] using h)
  · intro given
    rcases given with first | ⟨a, t, first, second⟩
    · simp [bind, EStateM.bind, first]
    · simp [bind, EStateM.bind, first, second]

theorem bind_of_ok {a : α} (first : x s = .ok a s') : (x >>= f) s = f a s' := by
  simp only [bind, EStateM.bind, first]

/-- Only what a first action can end in matters to the rest of a sequence. -/
theorem bind_congr_at {g : α → EStateM ε σ β} (same : ∀ a t, x s = .ok a t → f a t = g a t) :
    (x >>= f) s = (x >>= g) s := by
  simp only [bind, EStateM.bind]
  cases first : x s with
  | ok a t => exact same a t first
  | error e t => rfl

theorem pure_eq_ok {a b : α} : (pure a : EStateM ε σ α) s = .ok b s' ↔ a = b ∧ s = s' := by
  simp [pure, EStateM.pure]

variable {τ : Type} {p : τ → σ}

/-- The result with its state seen through `p`. -/
def mapState (p : τ → σ) : EStateM.Result ε τ α → EStateM.Result ε σ α
  | .ok a t => .ok a (p t)
  | .error e t => .error e (p t)

/-- Seen through `p`, the first action does what the second does. -/
def Mirrors (p : τ → σ) (x : EStateM ε τ α) (y : EStateM ε σ α) : Prop :=
  ∀ t, mapState p (x t) = y (p t)

end Walkthrough.Action
