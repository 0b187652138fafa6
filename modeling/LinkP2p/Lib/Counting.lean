import LinkP2p.Lib.Transition

/-!
# Counting the steps of a run

Two kinds of steps balance when every step of the first kind leaves a debt that
a step of the second kind settles.
-/

namespace LinkP2p.Lib.Counting

open LinkP2p.Lib.Transition

variable {σ ε : Type*} {step : σ → ε → Option σ}

/-- The number of executed steps that pass the test at the state before them. -/
def countSteps (step : σ → ε → Option σ) (test : σ → ε → Bool) : σ → List ε → Nat
  | _, [] => 0
  | state, event :: rest =>
      match step state event with
      | none => 0
      | some next => (test state event).toNat + countSteps step test next rest

theorem countSteps_cons {test : σ → ε → Bool} {state next : σ} {event : ε} {rest : List ε}
    (taken : step state event = some next) :
    countSteps step test state (event :: rest) =
      (test state event).toNat + countSteps step test next rest := by
  rw [countSteps, taken]

/-- What the debts of a completed run leave unsettled. -/
theorem countSteps_balance {incurs settles : σ → ε → Bool} {debt : σ → Nat}
    (balanced : ∀ state event next, step state event = some next →
      debt next + (settles state event).toNat = debt state + (incurs state event).toNat)
    {state final : σ} {events : List ε} (ran : run step state events = some final) :
    debt final + countSteps step settles state events =
      debt state + countSteps step incurs state events := by
  induction events generalizing state with
  | nil =>
      cases ran
      rfl
  | cons event rest ih =>
      obtain ⟨next, taken, ran⟩ := Option.bind_eq_some_iff.mp ran
      have now := balanced state event next taken
      have later := ih ran
      rw [countSteps_cons taken, countSteps_cons taken]
      omega

end LinkP2p.Lib.Counting
