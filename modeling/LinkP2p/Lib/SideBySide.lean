import LinkP2p.Lib.Transition

/-!
# Two systems side by side

Neither system sees the other. A run of both is an interleaving of a run of the
one with a run of the other, so where the systems end does not depend on the
order in which their events meet.
-/

namespace LinkP2p.Lib.SideBySide

open LinkP2p.Lib.Transition

variable {σ τ ε δ : Type*}

/-- An event moves the system it belongs to. -/
def product (step : σ → ε → Option σ) (step' : τ → δ → Option τ) :
    σ × τ → ε ⊕ δ → Option (σ × τ)
  | (first, second), .inl event => (step first event).map fun next => (next, second)
  | (first, second), .inr event => (step' second event).map fun next => (first, next)

/-- The events of the first system, in their order. -/
def lefts : List (ε ⊕ δ) → List ε
  | [] => []
  | .inl event :: rest => event :: lefts rest
  | .inr _ :: rest => lefts rest

/-- The events of the second system, in their order. -/
def rights : List (ε ⊕ δ) → List δ
  | [] => []
  | .inl _ :: rest => rights rest
  | .inr event :: rest => event :: rights rest

/-- No event belongs to neither system. -/
theorem eq_nil {events : List (ε ⊕ δ)} (left : lefts events = []) (right : rights events = []) :
    events = [] := by
  cases events with
  | nil => rfl
  | cons event rest =>
      cases event with
      | inl event => cases left
      | inr event => cases right

variable {step : σ → ε → Option σ} {step' : τ → δ → Option τ}

/-- A run of both systems is a run of each on its own events. -/
theorem run_product (first : σ) (second : τ) (events : List (ε ⊕ δ)) :
    run (product step step') (first, second) events =
      (run step first (lefts events)).bind fun reached =>
        (run step' second (rights events)).map fun reached' => (reached, reached') := by
  induction events generalizing first second with
  | nil => rfl
  | cons event rest ih =>
      cases event with
      | inl event =>
          rw [run_cons, product, lefts, rights, run_cons]
          cases step first event with
          | none => rfl
          | some next => exact ih next second
      | inr event =>
          rw [run_cons, product, lefts, rights, run_cons]
          cases step' second event with
          | none => cases run step first (lefts rest) <;> rfl
          | some next => exact ih first next

/-- The ends of both runs, whatever the order of the events. -/
theorem run_product_iff {first reached : σ} {second reached' : τ} {events : List (ε ⊕ δ)} :
    run (product step step') (first, second) events = some (reached, reached') ↔
      run step first (lefts events) = some reached ∧
        run step' second (rights events) = some reached' := by
  rw [run_product]
  constructor
  · intro ran
    obtain ⟨_, one, ran⟩ := Option.bind_eq_some_iff.mp ran
    obtain ⟨_, other, same⟩ := Option.map_eq_some_iff.mp ran
    cases same
    exact ⟨one, other⟩
  · rintro ⟨one, other⟩
    rw [one, other]
    rfl

end LinkP2p.Lib.SideBySide
