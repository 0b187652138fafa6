import LinkP2p.Lib.Transition

/-!
# A shared cell without compare-and-swap

A thread loads the cell, computes a new value from what it loaded and stores it
whatever has happened in between. An update is kept when its result on the
loaded value is its result on the current one; otherwise it takes back what
others have stored.
-/

namespace LinkP2p.Lib.LoadStore

open LinkP2p.Lib.Transition

/-- A system with one cell; `stores` is the update that an event stores and the
value that was loaded for it. -/
structure System (σ ε α : Type*) where
  step : σ → ε → Option σ
  cell : σ → α
  stores : σ → ε → Option ((α → α) × α)
  storing : ∀ state event next f base, stores state event = some (f, base) →
    step state event = some next → cell next = f base
  frame : ∀ state event next, stores state event = none →
    step state event = some next → cell next = cell state

variable {σ ε α : Type*}

/-- The updates one after the other. -/
def applyAll (updates : List (α → α)) (value : α) : α :=
  updates.foldl (fun value f => f value) value

/-- What one update establishes and all of them keep holds after all of them. -/
theorem applyAll_establishes {P : α → Prop} {updates : List (α → α)}
    (kept : ∀ f ∈ updates, ∀ value, P value → P (f value))
    (made : ∃ f ∈ updates, ∀ value, P (f value)) (value : α) : P (applyAll updates value) := by
  have stays : ∀ fs : List (α → α), (∀ f ∈ fs, ∀ value, P value → P (f value)) →
      ∀ value, P value → P (applyAll fs value) := by
    intro fs
    induction fs with
    | nil => exact fun _ _ holds => holds
    | cons f rest ih =>
        intro kept value holds
        obtain ⟨first, later⟩ := List.forall_mem_cons.mp kept
        exact ih later (f value) (first value holds)
  obtain ⟨f, member, establishes⟩ := made
  obtain ⟨front, back, rfl⟩ := List.append_of_mem member
  rw [applyAll, List.foldl_append, List.foldl_cons]
  refine stays back (fun g member => kept g ?_) _ (establishes _)
  exact List.mem_append_right front (List.mem_cons_of_mem f member)

variable (system : System σ ε α)

/-- The updates that a run stores, in the order of the stores. -/
def System.updates : σ → List ε → List (α → α)
  | _, [] => []
  | state, event :: rest =>
      ((system.stores state event).map Prod.fst).toList ++
        match system.step state event with
        | some next => System.updates next rest
        | none => []

/-- The stored update has on the current value the result it had on the loaded one. -/
def System.Undisturbed (state : σ) (event : ε) : Prop :=
  ∀ f base, system.stores state event = some (f, base) → f base = f (system.cell state)

/-- At every point of the run the cell is what the updates stored so far make of
the first value, in the order of the stores. -/
def System.InOrder (state : σ) (events : List ε) : Prop :=
  ∀ before after reached, events = before ++ after →
    run system.step state before = some reached →
      system.cell reached = applyAll (system.updates state before) (system.cell state)

variable {system}

theorem updates_cons {state next : σ} {event : ε} (taken : system.step state event = some next)
    (rest : List ε) :
    system.updates state (event :: rest) =
      ((system.stores state event).map Prod.fst).toList ++ system.updates next rest := by
  rw [System.updates, taken]

/-- An undisturbed step applies its update to the current value. -/
theorem cell_next_iff {state next : σ} {event : ε} (taken : system.step state event = some next) :
    system.cell next = applyAll ((system.stores state event).map Prod.fst).toList
        (system.cell state) ↔ system.Undisturbed state event := by
  unfold System.Undisturbed
  cases stored : system.stores state event with
  | none =>
      have same := system.frame state event next stored taken
      constructor
      · intro _ f base impossible
        cases impossible
      · intro _
        exact same
  | some update =>
      obtain ⟨f, base⟩ := update
      rw [system.storing state event next f base stored taken]
      constructor
      · intro same g base' found
        cases found
        exact same
      · intro undisturbed
        exact undisturbed f base rfl

/-- No update is lost in a run exactly when every store is undisturbed. -/
theorem inOrder_iff {state : σ} {events : List ε} :
    system.InOrder state events ↔ AllSteps system.step system.Undisturbed state events := by
  induction events generalizing state with
  | nil =>
      refine ⟨fun _ => trivial, fun _ before after reached split ran => ?_⟩
      obtain ⟨rfl, rfl⟩ := List.append_eq_nil_iff.mp split.symm
      cases ran
      rfl
  | cons event rest ih =>
      constructor
      · intro ordered next taken
        have first : system.Undisturbed state event := by
          refine (cell_next_iff taken).mp ?_
          have reached := ordered [event] rest next rfl (by rw [run_cons, taken]; rfl)
          rw [updates_cons taken, System.updates, List.append_nil] at reached
          exact reached
        refine ⟨first, ih.mp ?_⟩
        intro before after reached split ran
        have later := ordered (event :: before) after reached (by rw [split]; rfl)
          (by rw [run_cons, taken]; exact ran)
        rw [updates_cons taken, applyAll, List.foldl_append] at later
        rw [later, (cell_next_iff taken).mpr first]
        rfl
      · intro all before after reached split ran
        cases before with
        | nil =>
            cases ran
            rfl
        | cons head tail =>
            cases split
            obtain ⟨next, taken, ran⟩ := Option.bind_eq_some_iff.mp ran
            obtain ⟨first, later⟩ := all next taken
            rw [ih.mpr later tail after reached rfl ran, (cell_next_iff taken).mpr first,
              updates_cons taken, applyAll, applyAll, applyAll, List.foldl_append]

/-- An undisturbed run ends as if the updates had come one after the other. -/
theorem serial {state final : σ} {events : List ε}
    (all : AllSteps system.step system.Undisturbed state events)
    (ran : run system.step state events = some final) :
    ∃ order, order.Perm (system.updates state events) ∧
      system.cell final = applyAll order (system.cell state) :=
  ⟨_, .refl _, inOrder_iff.mpr all events [] final (List.append_nil events).symm ran⟩

end LinkP2p.Lib.LoadStore
