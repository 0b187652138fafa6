import LinkP2p.Lib.Transition
import Mathlib.Logic.Function.Basic

/-!
# Read-copy-update on one shared cell

A thread loads the cell, computes a new value from what it loaded and stores it
by compare-and-swap; when the cell was stored to in between, it starts over.
The stamp stands for the identity of the stored pointer: every successful swap
installs a new one. A run with retries is, on the shared state, a run in which
each update is one atomic step against the value it replaces.
-/

namespace LinkP2p.Lib.Rcu

open LinkP2p.Lib.Transition

/-- A system with one cell that some events update by read-copy-update. The
first argument of `step` is the cell value that the event works on. -/
structure System (σ ε ι α : Type*) where
  cell : σ → α
  step : α → σ → ε → Option σ
  /-- The thread whose compare-and-swap the event is. -/
  thread : ε → Option ι
  /-- Only the swaps store to the cell. -/
  frame : ∀ value state event next, thread event = none →
    step value state event = some next → cell next = cell state

variable {σ ε ι α : Type*}

/-- Each event works on the value the cell holds when it happens. -/
def System.atomic (system : System σ ε ι α) (state : σ) (event : ε) : Option σ :=
  system.step (system.cell state) state event

/-- The shared state, the stamp of the cell and what each thread last loaded. -/
structure Retrying (σ ι α : Type*) where
  base : σ
  stamp : Nat
  seen : ι → Option (α × Nat)

inductive RetryEvent (ε ι : Type*) where
  | load (thread : ι)
  | retry (thread : ι)
  | act (event : ε)

/-- Nothing loaded yet. -/
def Retrying.start (base : σ) : Retrying σ ι α := ⟨base, 0, fun _ => none⟩

variable (system : System σ ε ι α)

/-- A snapshot that carries the current stamp is the current value. -/
def Fresh (state : Retrying σ ι α) : Prop :=
  ∀ thread value stamp, state.seen thread = some (value, stamp) →
    stamp ≤ state.stamp ∧ (stamp = state.stamp → value = system.cell state.base)

theorem fresh_start (base : σ) : Fresh system (Retrying.start base) := by
  intro thread value stamp seen
  cases seen

section Retry

variable [DecidableEq ι]

/-- One step with retries. A swap runs its closure against the loaded value and
succeeds only while the cell still carries the loaded stamp. -/
def retryStep (state : Retrying σ ι α) : RetryEvent ε ι → Option (Retrying σ ι α)
  | .load thread =>
      some { state with
        seen := Function.update state.seen thread
          (some (system.cell state.base, state.stamp)) }
  | .retry thread =>
      match state.seen thread with
      | none => none
      | some (_, stamp) =>
          if stamp = state.stamp then none
          else some { state with seen := Function.update state.seen thread none }
  | .act event =>
      match system.thread event with
      | none =>
          (system.step (system.cell state.base) state.base event).map fun base =>
            { state with base := base }
      | some thread =>
          match state.seen thread with
          | none => none
          | some (value, stamp) =>
              if stamp = state.stamp then
                (system.step value state.base event).map fun base =>
                  ⟨base, state.stamp + 1, Function.update state.seen thread none⟩
              else none

/-- What a step with retries does. -/
inductive RetryMove (state : Retrying σ ι α) : RetryEvent ε ι → Retrying σ ι α → Prop where
  | load (thread : ι) :
      RetryMove state (.load thread)
        { state with
          seen := Function.update state.seen thread
            (some (system.cell state.base, state.stamp)) }
  | retry {thread : ι} {value : α} {stamp : Nat} (seen : state.seen thread = some (value, stamp))
      (stale : stamp ≠ state.stamp) :
      RetryMove state (.retry thread)
        { state with seen := Function.update state.seen thread none }
  | alone {event : ε} {base : σ} (owner : system.thread event = none)
      (stepped : system.step (system.cell state.base) state.base event = some base) :
      RetryMove state (.act event) { state with base := base }
  | swap {event : ε} {base : σ} {thread : ι} {value : α}
      (owner : system.thread event = some thread)
      (seen : state.seen thread = some (value, state.stamp))
      (stepped : system.step value state.base event = some base) :
      RetryMove state (.act event)
        ⟨base, state.stamp + 1, Function.update state.seen thread none⟩

variable {system}

theorem retry_move {state next : Retrying σ ι α} {event : RetryEvent ε ι}
    (taken : retryStep system state event = some next) : RetryMove system state event next := by
  cases event with
  | load thread =>
      cases taken
      exact .load thread
  | retry thread =>
      unfold retryStep at taken
      cases seen : state.seen thread with
      | none => simp [seen] at taken
      | some snapshot =>
          simp only [seen, Option.ite_none_left_eq_some, Option.some.injEq] at taken
          obtain ⟨stale, rfl⟩ := taken
          exact .retry seen stale
  | act event =>
      unfold retryStep at taken
      cases owner : system.thread event with
      | none =>
          simp only [owner, Option.map_eq_some_iff] at taken
          obtain ⟨base, stepped, rfl⟩ := taken
          exact .alone owner stepped
      | some thread =>
          cases seen : state.seen thread with
          | none => simp [owner, seen] at taken
          | some snapshot =>
              obtain ⟨value, stamp⟩ := snapshot
              by_cases current : stamp = state.stamp
              · subst current
                simp only [owner, seen, if_pos, Option.map_eq_some_iff] at taken
                obtain ⟨base, stepped, rfl⟩ := taken
                exact .swap owner seen stepped
              · simp [owner, seen, current] at taken

/-- Dropping or refreshing one thread's snapshot keeps the others. -/
theorem fresh_update {state : Retrying σ ι α} (fresh : Fresh system state) (thread : ι)
    (slot : Option (α × Nat))
    (holds : ∀ value stamp, slot = some (value, stamp) →
      stamp ≤ state.stamp ∧ (stamp = state.stamp → value = system.cell state.base)) :
    Fresh system { state with seen := Function.update state.seen thread slot } := by
  intro other value stamp seen
  change Function.update state.seen thread slot other = _ at seen
  by_cases same : other = thread
  · subst same
    rw [Function.update_self] at seen
    exact holds value stamp seen
  · rw [Function.update_of_ne same] at seen
    exact fresh other value stamp seen

/-- A swap that succeeds is the atomic update of the cell it replaces. -/
theorem act_atomic {state next : Retrying σ ι α} {event : ε} (fresh : Fresh system state)
    (taken : retryStep system state (.act event) = some next) :
    system.atomic state.base event = some next.base := by
  cases retry_move taken with
  | alone owner stepped => exact stepped
  | swap owner seen stepped =>
      rw [System.atomic, ← (fresh _ _ _ seen).2 rfl]
      exact stepped

/-- Loads and failed swaps leave the shared state alone. -/
theorem base_of_load {state next : Retrying σ ι α} {thread : ι}
    (taken : retryStep system state (.load thread) = some next) : next.base = state.base := by
  cases taken
  rfl

theorem base_of_retry {state next : Retrying σ ι α} {thread : ι}
    (taken : retryStep system state (.retry thread) = some next) : next.base = state.base := by
  cases retry_move taken with
  | retry seen stale => rfl

theorem fresh_step {state next : Retrying σ ι α} {event : RetryEvent ε ι}
    (fresh : Fresh system state) (taken : retryStep system state event = some next) :
    Fresh system next := by
  cases retry_move taken with
  | load thread =>
      refine fresh_update fresh thread _ ?_
      rintro value stamp same
      cases same
      exact ⟨Nat.le_refl _, fun _ => rfl⟩
  | retry seen stale =>
      exact fresh_update fresh _ none (fun _ _ impossible => by cases impossible)
  | alone owner stepped =>
      intro thread value stamp seen
      have kept := system.frame _ _ _ _ owner stepped
      obtain ⟨bound, same⟩ := fresh thread value stamp seen
      exact ⟨bound, fun current => by rw [kept]; exact same current⟩
  | @swap _ _ thread _ owner seen stepped =>
      -- every other snapshot now carries a stamp below the new one
      intro other old oldStamp otherSeen
      change Function.update state.seen thread none other = _ at otherSeen
      by_cases same : other = thread
      · subst same
        rw [Function.update_self] at otherSeen
        cases otherSeen
      · rw [Function.update_of_ne same] at otherSeen
        have bound := (fresh other old oldStamp otherSeen).1
        refine ⟨Nat.le_succ_of_le bound, fun equal => ?_⟩
        change oldStamp = state.stamp + 1 at equal
        omega

/-- An atomic step is a step with retries whose swap succeeds at the first try. -/
theorem leads_atomic (state : Retrying σ ι α) {event : ε} {base : σ}
    (taken : system.atomic state.base event = some base) :
    ∃ next, Leads (retryStep system) state next ∧ next.base = base := by
  cases owner : system.thread event with
  | none =>
      have stepped : retryStep system state (.act event) = some { state with base := base } := by
        unfold System.atomic at taken
        simp only [retryStep, owner, taken, Option.map_some]
      exact ⟨_, (Leads.refl state).tail stepped, rfl⟩
  | some thread =>
      let ready : Retrying σ ι α := { state with
        seen := Function.update state.seen thread (some (system.cell state.base, state.stamp)) }
      have loaded : retryStep system state (.load thread) = some ready := rfl
      have swapped : retryStep system ready (.act event) =
          some ⟨base, state.stamp + 1, Function.update ready.seen thread none⟩ := by
        unfold System.atomic at taken
        simp only [ready, retryStep, owner, Function.update_self, if_pos, taken, Option.map_some]
      exact ⟨_, ((Leads.refl state).tail loaded).tail swapped, rfl⟩

/-- Every run of the atomic system is one with retries. -/
theorem leads_lift (state : Retrying σ ι α) {final : σ}
    (leads : Leads system.atomic state.base final) :
    ∃ next, Leads (retryStep system) state next ∧ next.base = final := by
  obtain ⟨events, ran⟩ := leads
  induction events generalizing state with
  | nil =>
      cases ran
      exact ⟨state, .refl state, rfl⟩
  | cons event rest ih =>
      obtain ⟨middle, taken, later⟩ := Option.bind_eq_some_iff.mp ran
      obtain ⟨next, first, rfl⟩ := leads_atomic state taken
      obtain ⟨last, second, reached⟩ := ih next later
      exact ⟨last, first.trans second, reached⟩

/-- A condition on the atomic steps, read on a run with retries. -/
def OnActs (condition : σ → ε → Prop) (state : Retrying σ ι α) : RetryEvent ε ι → Prop
  | .act event => condition state.base event
  | _ => True

instance (condition : σ → ε → Prop) [∀ state event, Decidable (condition state event)]
    (state : Retrying σ ι α) (event : RetryEvent ε ι) : Decidable (OnActs condition state event) :=
  match event with
  | .act event => inferInstanceAs (Decidable (condition state.base event))
  | .load _ | .retry _ => .isTrue trivial

/-- What each atomic step that meets a condition keeps, each step with retries
that meets it keeps. -/
theorem lift_step {I : σ → Prop} {C : σ → ε → Prop}
    (preserved : ∀ state event next, I state → C state event →
      system.atomic state event = some next → I next)
    {state next : Retrying σ ι α} {event : RetryEvent ε ι}
    (held : Fresh system state ∧ I state.base) (met : OnActs C state event)
    (taken : retryStep system state event = some next) : Fresh system next ∧ I next.base := by
  refine ⟨fresh_step held.1 taken, ?_⟩
  cases event with
  | load thread => rw [base_of_load taken]; exact held.2
  | retry thread => rw [base_of_retry taken]; exact held.2
  | act event => exact preserved _ _ _ held.2 met (act_atomic held.1 taken)

omit [DecidableEq ι] in
theorem onActs_of_forall {C : σ → ε → Prop} (always : ∀ state event, C state event)
    (state : Retrying σ ι α) (event : RetryEvent ε ι) : OnActs C state event := by
  cases event with
  | act event => exact always _ event
  | load | retry => trivial

/-- If each atomic step that meets the condition keeps the invariant and satisfies
`R`, so does a run with retries whose steps meet it. -/
theorem retry_allSteps {I : σ → Prop} {C R : σ → ε → Prop}
    (kept : ∀ state event next, I state → C state event →
      system.atomic state event = some next → I next ∧ R state event)
    {base : σ} (sound : I base) {events : List (RetryEvent ε ι)}
    (all : AllSteps (retryStep system) (OnActs C) (.start base) events) :
    AllSteps (retryStep system) (OnActs R) (.start base) events := by
  refine (AllSteps.exchange (I := fun state => Fresh system state ∧ I state.base) ?_
    ⟨fresh_start system base, sound⟩ all).2
  intro state event next held met taken
  refine ⟨lift_step (fun _ _ _ here met taken => (kept _ _ _ here met taken).1) held met taken, ?_⟩
  cases event with
  | act event => exact (kept _ _ _ held.2 met (act_atomic held.1 taken)).2
  | load | retry => trivial

/-- The exchange rule of the atomic system holds of runs with retries. -/
theorem retry_exchange {I G : σ → Prop} {R C : σ → ε → Prop}
    (preserved : ∀ state event next, I state →
      system.atomic state event = some next → I next)
    (exact_step : ∀ state event next, I state → G state →
      system.atomic state event = some next →
        (G next ∧ R state event ↔ C state event))
    {base : σ} (sound : I base) (initial : G base)
    (events : List (RetryEvent ε ι)) :
    AllStates (retryStep system) (fun state => G state.base) (.start base) events ∧
        AllSteps (retryStep system) (OnActs R) (.start base) events ↔
      AllSteps (retryStep system) (OnActs C) (.start base) events := by
  refine allStates_and_allSteps_iff
    (I := fun state => Fresh system state ∧ I state.base)
    (G := fun state => G state.base) ?_ ?_ ⟨fresh_start system base, sound⟩ initial events
  · exact fun state event next held taken =>
      lift_step (fun _ _ _ here _ => preserved _ _ _ here) held
        (onActs_of_forall (fun _ _ => trivial) state event) taken
  · rintro state event next ⟨fresh, held⟩ goodHere taken
    cases event with
    | load thread =>
        rw [base_of_load taken]
        exact ⟨fun _ => trivial, fun _ => ⟨goodHere, trivial⟩⟩
    | retry thread =>
        rw [base_of_retry taken]
        exact ⟨fun _ => trivial, fun _ => ⟨goodHere, trivial⟩⟩
    | act event => exact exact_step _ _ _ held goodHere (act_atomic fresh taken)

/-- The exchange rule when the state property is the only one asked for. -/
theorem retry_states_iff {I G : σ → Prop} {C : σ → ε → Prop}
    (preserved : ∀ state event next, I state →
      system.atomic state event = some next → I next)
    (exact_step : ∀ state event next, I state → G state →
      system.atomic state event = some next → (G next ↔ C state event))
    {base : σ} (sound : I base) (initial : G base)
    (events : List (RetryEvent ε ι)) :
    AllStates (retryStep system) (fun state => G state.base) (.start base) events ↔
      AllSteps (retryStep system) (OnActs C) (.start base) events := by
  have exchanged := retry_exchange (R := fun _ _ => True) preserved
    (fun state event next held goodHere taken => by
      rw [and_true]
      exact exact_step state event next held goodHere taken) sound initial events
  exact ⟨fun states => exchanged.mp ⟨states, .of_forall (onActs_of_forall fun _ _ => trivial)⟩,
    fun steps => (exchanged.mpr steps).1⟩

/-- An invariant of the atomic system holds all along a run with retries. -/
theorem retry_invariant {I : σ → Prop}
    (preserved : ∀ state event next, I state →
      system.atomic state event = some next → I next)
    {base : σ} (sound : I base) (events : List (RetryEvent ε ι)) :
    AllStates (retryStep system) (fun state => Fresh system state ∧ I state.base)
      (.start base) events := by
  refine allStates_of_invariant (fun state event next held taken => ?_)
    ⟨fresh_start system base, sound⟩ events
  exact lift_step (fun _ _ _ here _ => preserved _ _ _ here) held
    (onActs_of_forall (fun _ _ => trivial) state event) taken

/-- What each atomic step that meets the condition preserves holds all along a
run with retries whose steps meet it. -/
theorem retry_allStates {I : σ → Prop} {C : σ → ε → Prop}
    (preserved : ∀ state event next, I state → C state event →
      system.atomic state event = some next → I next)
    {base : σ} (sound : I base) {events : List (RetryEvent ε ι)}
    (all : AllSteps (retryStep system) (OnActs C) (.start base) events) :
    AllStates (retryStep system) (fun state => I state.base) (.start base) events := by
  have kept := all.allStates (fun _ _ _ => lift_step preserved) ⟨fresh_start system base, sound⟩
  exact kept.mono fun _ held => held.2

end Retry

end LinkP2p.Lib.Rcu
