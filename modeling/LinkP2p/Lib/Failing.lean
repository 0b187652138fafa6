/-!
# Actions on a state that may fail

What an action has done to the state stays done when it fails.
-/

namespace LinkP2p.Lib.Failing

variable {ε σ α β : Type}

abbrev Action (ε σ : Type) := ExceptT ε (StateM σ)

def Action.exec (action : Action ε σ α) (state : σ) : Except ε α × σ := action.run.run state

theorem exec_bind (action : Action ε σ α) (next : α → Action ε σ β) (state : σ) :
    Action.exec (action >>= next) state =
      match action.exec state with
      | (.ok value, later) => (next value).exec later
      | (.error error, later) => (.error error, later) := by
  change (match action.exec state with
    | (result, later) => (ExceptT.bindCont next result).run later) = _
  obtain ⟨result, later⟩ := action.exec state
  cases result with
  | ok value => rfl
  | error error => rfl

theorem exec_bind_ok {action : Action ε σ α} {state later : σ} {value : α}
    (done : action.exec state = (.ok value, later)) (next : α → Action ε σ β) :
    Action.exec (action >>= next) state = (next value).exec later := by
  rw [exec_bind, done]

theorem exec_bind_error {action : Action ε σ α} {state later : σ} {error : ε}
    (failed : action.exec state = (.error error, later)) (next : α → Action ε σ β) :
    Action.exec (action >>= next) state = (.error error, later) := by
  rw [exec_bind, failed]

theorem exec_ofExcept (result : Except ε α) (state : σ) :
    Action.exec (ofExcept result) state = (result, state) := by
  cases result with
  | ok value => rfl
  | error error => rfl

end LinkP2p.Lib.Failing
