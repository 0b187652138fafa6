import Mathlib.Data.Option.Basic

/-!
# Runs of an executable step function

A system is a partial step function: an event that is not enabled has no
successor. Interleavings are event lists. A property of every state of a run
and a condition on every step of a run are separate predicates; the last
section trades one for the other.
-/

namespace LinkP2p.Lib.Transition

variable {σ ε : Type*}

/-- Execute a list of events from the left; a disabled event aborts the run. -/
def run (step : σ → ε → Option σ) : σ → List ε → Option σ
  | state, [] => some state
  | state, event :: rest => (step state event).bind fun next => run step next rest

/-- The property holds in the first state and in every state the run visits. -/
def AllStates (step : σ → ε → Option σ) (property : σ → Prop) : σ → List ε → Prop
  | state, [] => property state
  | state, event :: rest =>
      property state ∧ ∀ next, step state event = some next →
        AllStates step property next rest

/-- The condition holds of every event the run executes, at the state before it. -/
def AllSteps (step : σ → ε → Option σ) (condition : σ → ε → Prop) : σ → List ε → Prop
  | _, [] => True
  | state, event :: rest =>
      ∀ next, step state event = some next →
        condition state event ∧ AllSteps step condition next rest

variable {step : σ → ε → Option σ}

@[simp]
theorem run_cons (state : σ) (event : ε) (rest : List ε) :
    run step state (event :: rest) =
      (step state event).bind fun next => run step next rest := rfl

theorem run_append (state : σ) (before after : List ε) :
    run step state (before ++ after) =
      (run step state before).bind fun reached => run step reached after := by
  induction before generalizing state with
  | nil => rfl
  | cons event rest ih =>
      rw [List.cons_append, run_cons, run_cons, Option.bind_assoc]
      exact Option.bind_congr fun next _ => ih next

/-! ## Reachability -/

/-- Some events lead from the first state to the second. -/
def Leads (step : σ → ε → Option σ) (state final : σ) : Prop :=
  ∃ events, run step state events = some final

theorem Leads.refl (state : σ) : Leads step state state := ⟨[], rfl⟩

theorem Leads.tail {state middle final : σ} {event : ε} (first : Leads step state middle)
    (taken : step middle event = some final) : Leads step state final := by
  obtain ⟨events, ran⟩ := first
  refine ⟨events ++ [event], ?_⟩
  rw [run_append, ran, Option.bind_some, run_cons, taken]
  rfl

theorem Leads.trans {state middle final : σ} (first : Leads step state middle)
    (second : Leads step middle final) : Leads step state final := by
  obtain ⟨before, ran⟩ := first
  obtain ⟨after, ran'⟩ := second
  refine ⟨before ++ after, ?_⟩
  rw [run_append, ran]
  exact ran'

/-! ## Properties of every state and every step -/

theorem AllStates.head {property : σ → Prop} {state : σ} {events : List ε}
    (all : AllStates step property state events) : property state := by
  cases events with
  | nil => exact all
  | cons event rest => exact all.1

theorem AllStates.mono {first second : σ → Prop}
    (weaken : ∀ state, first state → second state)
    {state : σ} {events : List ε} (all : AllStates step first state events) :
    AllStates step second state events := by
  induction events generalizing state with
  | nil => exact weaken state all
  | cons event rest ih =>
      exact ⟨weaken state all.1, fun next taken => ih (all.2 next taken)⟩

/-- Two properties that agree where a third holds. -/
theorem AllStates.congr {given first second : σ → Prop}
    (agree : ∀ state, given state → (first state ↔ second state)) {state : σ} {events : List ε}
    (all : AllStates step given state events) :
    AllStates step first state events ↔ AllStates step second state events := by
  induction events generalizing state with
  | nil => exact agree state all
  | cons event rest ih =>
      refine and_congr (agree state all.1) (forall_congr' fun next => ?_)
      exact imp_congr_right fun taken => ih (all.2 next taken)

theorem AllSteps.mono {first second : σ → ε → Prop}
    (weaken : ∀ state event next, step state event = some next →
      first state event → second state event)
    {state : σ} {events : List ε} (all : AllSteps step first state events) :
    AllSteps step second state events := by
  induction events generalizing state with
  | nil => trivial
  | cons event rest ih =>
      intro next taken
      exact ⟨weaken state event next taken (all next taken).1, ih (all next taken).2⟩

theorem AllSteps.and {first second : σ → ε → Prop} {state : σ} {events : List ε}
    (one : AllSteps step first state events) (two : AllSteps step second state events) :
    AllSteps step (fun state event => first state event ∧ second state event) state events := by
  induction events generalizing state with
  | nil => trivial
  | cons event rest ih =>
      intro next taken
      exact ⟨⟨(one next taken).1, (two next taken).1⟩, ih (one next taken).2 (two next taken).2⟩

theorem AllSteps.of_forall {condition : σ → ε → Prop}
    (always : ∀ state event, condition state event) {state : σ} {events : List ε} :
    AllSteps step condition state events := by
  induction events generalizing state with
  | nil => trivial
  | cons event rest ih => exact fun _ _ => ⟨always state event, ih⟩

theorem AllSteps.of_mem {condition : σ → ε → Prop} {state : σ} {events : List ε}
    (always : ∀ event ∈ events, ∀ state, condition state event) :
    AllSteps step condition state events := by
  induction events generalizing state with
  | nil => trivial
  | cons event rest ih =>
      exact fun _ _ => ⟨always event List.mem_cons_self state,
        ih fun later member => always later (List.mem_cons_of_mem _ member)⟩

theorem AllSteps.cons {condition : σ → ε → Prop} {state next : σ} {event : ε} {rest : List ε}
    (taken : step state event = some next) (met : condition state event)
    (later : AllSteps step condition next rest) :
    AllSteps step condition state (event :: rest) := by
  intro other again
  cases taken.symm.trans again
  exact ⟨met, later⟩

/-- A condition that can be tested at a step can be tested along a run. -/
instance AllSteps.decidable {condition : σ → ε → Prop}
    [∀ state event, Decidable (condition state event)] :
    ∀ state events, Decidable (AllSteps step condition state events)
  | _, [] => .isTrue trivial
  | state, event :: rest =>
      have : ∀ next, Decidable (AllSteps step condition next rest) :=
        fun next => AllSteps.decidable next rest
      have : DecidablePred fun next => condition state event ∧ AllSteps step condition next rest :=
        fun _ => inferInstance
      inferInstanceAs (Decidable (∀ next ∈ step state event, _))

/-- The state property holds in the state a completed run ends in. -/
theorem AllStates.final {property : σ → Prop} {start final : σ} {events : List ε}
    (all : AllStates step property start events)
    (ran : run step start events = some final) : property final := by
  induction events generalizing start with
  | nil =>
      cases ran
      exact all
  | cons event rest ih =>
      rw [run_cons] at ran
      cases taken : step start event with
      | none => rw [taken] at ran; cases ran
      | some next =>
          rw [taken] at ran
          exact ih (all.2 next taken) ran

/-- An invariant that each step meeting the condition keeps holds all along a
run whose steps all meet it. -/
theorem AllSteps.allStates {condition : σ → ε → Prop} {invariant : σ → Prop}
    (preserved : ∀ state event next, invariant state → condition state event →
      step state event = some next → invariant next)
    {state : σ} {events : List ε} (initial : invariant state)
    (all : AllSteps step condition state events) :
    AllStates step invariant state events := by
  induction events generalizing state with
  | nil => exact initial
  | cons event rest ih =>
      refine ⟨initial, fun next taken => ?_⟩
      obtain ⟨met, later⟩ := all next taken
      exact ih (preserved state event next initial met taken) later

/-- Some events whose steps all meet the condition lead to the second state. -/
def LeadsUnder (step : σ → ε → Option σ) (condition : σ → ε → Prop) (state final : σ) : Prop :=
  ∃ events, AllSteps step condition state events ∧ run step state events = some final

/-- What each step meeting the condition keeps holds at the end. -/
theorem LeadsUnder.holds {condition : σ → ε → Prop} {invariant : σ → Prop} {state final : σ}
    (leads : LeadsUnder step condition state final)
    (preserved : ∀ state event next, invariant state → condition state event →
      step state event = some next → invariant next)
    (initial : invariant state) : invariant final := by
  obtain ⟨events, all, ran⟩ := leads
  exact (all.allStates preserved initial).final ran

/-- If each step meeting the condition keeps the invariant and satisfies `R`, so
does a run whose steps all meet it. -/
theorem AllSteps.exchange {C R : σ → ε → Prop} {I : σ → Prop}
    (kept : ∀ state event next, I state → C state event →
      step state event = some next → I next ∧ R state event)
    {state : σ} {events : List ε} (initial : I state) (all : AllSteps step C state events) :
    AllStates step I state events ∧ AllSteps step R state events := by
  induction events generalizing state with
  | nil => exact ⟨initial, trivial⟩
  | cons event rest ih =>
      have later : ∀ next, step state event = some next →
          R state event ∧ AllStates step I next rest ∧ AllSteps step R next rest := by
        intro next taken
        obtain ⟨met, tail⟩ := all next taken
        obtain ⟨held, edge⟩ := kept state event next initial met taken
        exact ⟨edge, ih held tail⟩
      exact ⟨⟨initial, fun next taken => (later next taken).2.1⟩,
        fun next taken => ⟨(later next taken).1, (later next taken).2.2⟩⟩

/-- What follows from a property of the state holds at every executed step. -/
theorem AllStates.allSteps {property : σ → Prop} {condition : σ → ε → Prop}
    (implies : ∀ state event, property state → condition state event)
    {state : σ} {events : List ε} (all : AllStates step property state events) :
    AllSteps step condition state events := by
  induction events generalizing state with
  | nil => trivial
  | cons event rest ih =>
      exact fun next taken => ⟨implies state event all.1, ih (all.2 next taken)⟩

/-- What follows of a step from a property of its two states and a condition on it. -/
theorem AllStates.edges {G : σ → Prop} {R C : σ → ε → Prop} {state : σ} {events : List ε}
    (all : AllStates step G state events) (steps : AllSteps step R state events)
    (implies : ∀ state event next, G state → G next → R state event →
      step state event = some next → C state event) :
    AllSteps step C state events := by
  induction events generalizing state with
  | nil => trivial
  | cons event rest ih =>
      intro next taken
      have later := all.2 next taken
      exact ⟨implies state event next all.1 later.head (steps next taken).1 taken,
        ih later (steps next taken).2⟩

/-- Every state of any run satisfies an invariant of the system. -/
theorem allStates_of_invariant {invariant : σ → Prop}
    (preserved : ∀ state event next, invariant state →
      step state event = some next → invariant next)
    {state : σ} (initial : invariant state) (events : List ε) :
    AllStates step invariant state events := by
  induction events generalizing state with
  | nil => exact initial
  | cons event rest ih =>
      exact ⟨initial, fun next taken => ih (preserved state event next initial taken)⟩

/-- A condition on every step, read at the prefixes of the event list. -/
theorem allSteps_iff_prefix {condition : σ → ε → Prop} {state : σ} {events : List ε} :
    AllSteps step condition state events ↔
      ∀ before event after reached next, events = before ++ event :: after →
        run step state before = some reached → step reached event = some next →
          condition reached event := by
  induction events generalizing state with
  | nil =>
      refine ⟨fun _ before event after _ _ split => ?_, fun _ => trivial⟩
      exact absurd split.symm (List.append_ne_nil_of_right_ne_nil _ nofun)
  | cons first rest ih =>
      constructor
      · intro all before event after reached next split ran stepped
        cases before with
        | nil =>
            cases ran
            cases split
            exact (all next stepped).1
        | cons head tail =>
            cases split
            obtain ⟨middle, taken, later⟩ := Option.bind_eq_some_iff.mp ran
            exact (ih.mp (all middle taken).2) tail event after reached next rfl later stepped
      · intro each next taken
        refine ⟨each [] first rest state next rfl rfl taken, ih.mpr ?_⟩
        intro before event after reached last split ran stepped
        refine each (first :: before) event after reached last (by rw [split]; rfl) ?_ stepped
        rw [run_cons, taken]
        exact ran

/-- The exchange rule. Under an invariant `I` of the system, let a step from a
state in `G` satisfy `R` and end in `G` exactly when it meets `C`. Then a run
stays in `G` and satisfies `R` throughout exactly when all its steps meet `C`. -/
theorem allStates_and_allSteps_iff {I G : σ → Prop} {R C : σ → ε → Prop}
    (preserved : ∀ state event next, I state →
      step state event = some next → I next)
    (exact_step : ∀ state event next, I state → G state →
      step state event = some next →
        (G next ∧ R state event ↔ C state event))
    {state : σ} (sound : I state) (initial : G state) (events : List ε) :
    AllStates step G state events ∧ AllSteps step R state events ↔
      AllSteps step C state events := by
  induction events generalizing state with
  | nil => exact ⟨fun _ => trivial, fun _ => ⟨initial, trivial⟩⟩
  | cons event rest ih =>
      constructor
      · rintro ⟨states, steps⟩ next taken
        have nextGood := (states.2 next taken).head
        have edge := (exact_step state event next sound initial taken).mp
          ⟨nextGood, (steps next taken).1⟩
        exact ⟨edge, (ih (preserved state event next sound taken) nextGood).mp
          ⟨states.2 next taken, (steps next taken).2⟩⟩
      · intro all
        have later : ∀ next, step state event = some next →
            R state event ∧ AllStates step G next rest ∧
              AllSteps step R next rest := by
          intro next taken
          obtain ⟨met, tail⟩ := all next taken
          obtain ⟨nextGood, edge⟩ :=
            (exact_step state event next sound initial taken).mpr met
          exact ⟨edge, (ih (preserved state event next sound taken) nextGood).mpr tail⟩
        exact ⟨⟨initial, fun next taken => (later next taken).2.1⟩,
          fun next taken => ⟨(later next taken).1, (later next taken).2.2⟩⟩

/-- The exchange rule when the state property is the only one asked for. -/
theorem allStates_iff {I G : σ → Prop} {C : σ → ε → Prop}
    (preserved : ∀ state event next, I state →
      step state event = some next → I next)
    (exact_step : ∀ state event next, I state → G state →
      step state event = some next → (G next ↔ C state event))
    {state : σ} (sound : I state) (initial : G state) (events : List ε) :
    AllStates step G state events ↔ AllSteps step C state events := by
  have exchanged := allStates_and_allSteps_iff (R := fun _ _ => True) preserved
    (fun state event next held goodHere taken => by
      rw [and_true]
      exact exact_step state event next held goodHere taken) sound initial events
  exact ⟨fun states => exchanged.mp ⟨states, .of_forall fun _ _ => trivial⟩,
    fun steps => (exchanged.mpr steps).1⟩

end LinkP2p.Lib.Transition
