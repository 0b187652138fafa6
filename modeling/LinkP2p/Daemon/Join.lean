import LinkP2p.Daemon.Worker

/-!
# What the join waits for

`join_live_control_and_data` ends with `ctl.await`. The accept loop of the
control task ends on its watch alone; the join notifies `hooks.cancel`, which
the loop does not select on.
-/

namespace LinkP2p.Daemon

open LinkP2p.Lib LinkP2p.Lib.Transition

variable {π α : Type*} {config : Config} {data : DataPlane π α}

/-- The control task has ended or is told to: a step towards its end is enabled. -/
def CanEnd (config : Config) (data : DataPlane π α) (worker : Worker π) : Prop :=
  worker.ctl = .finished ∨ worker.watch = true ∧
    ∃ event, (event = .changed ∨ event = .drained) ∧
      (ctlStep config data worker event).isSome = true

/-- The join awaits only a control task that can end. -/
def AwaitsEnding (config : Config) (data : DataPlane π α) (worker : Worker π) : Prop :=
  worker.join = .awaitCtl → CanEnd config data worker

/-- The control loop leaves its `select!` only on the watch. -/
def LoopSound (worker : Worker π) : Prop := worker.ctl = .serving ∨ worker.watch = true

theorem CtlMove.sound {watch : Bool} {loop next : CtlLoop} (moved : CtlMove watch loop next)
    (sound : loop = .serving ∨ watch = true) : next = .serving ∨ watch = true := by
  cases moved with
  | stay => exact sound
  | changed raised => exact Or.inr raised
  | drained => exact Or.inr (sound.resolve_left nofun)

theorem loopSound_step {worker next : Worker π} {event : Event α} (sound : LoopSound worker)
    (stepped : step config data worker event = some next) : LoopSound next := by
  cases step_moved stepped with
  | told _ watch _ _ _ => exact Or.inr watch
  | control _ watch ctl _ _ =>
      rw [LoopSound, watch]
      exact ctl.sound sound
  | joined watch ctl _ _ | plane watch ctl _ _ | outside _ watch ctl _ _ _ =>
      rw [LoopSound, watch, ctl]
      exact sound

/-- With its loop sound, the control task can end exactly when the watch is raised. -/
theorem canEnd_iff {worker : Worker π} (sound : LoopSound worker) :
    CanEnd config data worker ↔ worker.watch = true := by
  constructor
  · rintro (finished | ⟨raised, -⟩)
    · exact sound.resolve_left (by rw [finished]; exact nofun)
    · exact raised
  · intro raised
    cases place : worker.ctl with
    | serving =>
        exact Or.inr ⟨raised, .changed, Or.inl rfl, by simp [ctlStep, place, raised]⟩
    | draining => exact Or.inr ⟨raised, .drained, Or.inr rfl, by simp [ctlStep, place]⟩
    | finished => exact Or.inl place

/-- Only a `Shutdown` raises the watch. -/
theorem watch_step_iff {worker next : Worker π} {event : Event α}
    (stepped : step config data worker event = some next) :
    next.watch = true ↔ worker.watch = true ∨ Stops config event := by
  cases step_moved stepped with
  | told stops watch _ _ _ => simp [watch, stops]
  | control quiet watch _ _ _ | outside quiet watch _ _ _ _ => simp [watch, quiet]
  | joined watch _ _ _ | plane watch _ _ _ => simp [watch, Stops]

/-- The watch of a run is raised exactly when one of its events was a `Shutdown`. -/
theorem watch_run_iff {worker final : Worker π} {events : List (Event α)}
    (ran : run (step config data) worker events = some final) :
    final.watch = true ↔ worker.watch = true ∨ ∃ event ∈ events, Stops config event := by
  induction events generalizing worker with
  | nil =>
      cases ran
      simp
  | cons event rest ih =>
      obtain ⟨next, stepped, later⟩ := Option.bind_eq_some_iff.mp ran
      rw [ih later, watch_step_iff stepped, List.exists_mem_cons_iff, or_assoc]

/-- The end of the data plane takes the join to a control task that was told to stop. -/
def ToldBefore (worker : Worker π) : Event α → Prop
  | .join (.dataJoined panicked) => GoesToCtl worker panicked → worker.watch = true
  | _ => True

theorem toldBefore_of_apart {worker : Worker π} {event : Event α}
    (apart : ∀ outcome, event ≠ .join outcome) : ToldBefore worker event := by
  cases event with
  | join outcome => exact absurd rfl (apart outcome)
  | _ => trivial

theorem awaitsEnding_step_iff {worker next : Worker π} {event : Event α}
    (sound : LoopSound worker) (awaits : AwaitsEnding config data worker)
    (stepped : step config data worker event = some next) :
    AwaitsEnding config data next ↔ ToldBefore worker event := by
  have kept : LoopSound next := loopSound_step sound stepped
  rw [AwaitsEnding, canEnd_iff kept, watch_step_iff stepped]
  rw [AwaitsEnding, canEnd_iff sound] at awaits
  have same : next.join = worker.join → (∀ outcome, event ≠ .join outcome) →
      ((next.join = .awaitCtl → worker.watch = true ∨ Stops config event) ↔
        ToldBefore worker event) := fun join apart =>
    ⟨fun _ => toldBefore_of_apart apart, fun _ reaches => Or.inl (awaits (join ▸ reaches))⟩
  cases step_moved stepped with
  | told stops _ _ join _ =>
      exact same join (fun outcome joins => by rw [joins] at stops; exact stops)
  | control _ _ _ join _ => exact same join nofun
  | plane _ _ join _ => exact same join nofun
  | outside _ _ _ join _ apart => exact same join apart.2
  | @joined outcome _ _ join _ =>
      rw [join]
      cases outcome with
      | dataJoined panicked => simp [ToldBefore, Stops]
      | _ => simp [ToldBefore]

/-- **The join never waits on an untold control task.** For every run: whenever
the join awaits the control task, that task has ended or can take its next step
to the end, exactly when each end of the data plane that takes the join on to
the control task comes after a `Shutdown` that was answered with `Ok`. -/
theorem join_awaits_ending_iff (config : Config) (data : DataPlane π α)
    (events : List (Event α)) :
    AllStates (step config data) (AwaitsEnding config data) (.start config data) events ↔
      ∀ before panicked after worker next,
        events = before ++ .join (.dataJoined panicked) :: after →
        run (step config data) (.start config data) before = some worker →
        step config data worker (.join (.dataJoined panicked)) = some next →
        GoesToCtl worker panicked →
          ∃ event ∈ before, Stops config event := by
  have sound : LoopSound (Worker.start config data) := Or.inl rfl
  have initial : AwaitsEnding config data (.start config data) :=
    fun reaches => absurd reaches nofun
  rw [allStates_iff (C := ToldBefore) (fun _ _ _ => loopSound_step)
    (fun _ _ _ => awaitsEnding_step_iff) sound initial events, allSteps_iff_prefix]
  constructor
  · intro each before panicked after worker next split ran stepped goes
    have told := each before _ after worker next split ran stepped goes
    exact ((watch_run_iff ran).mp told).resolve_left nofun
  · intro each before event after worker next split ran stepped
    cases event with
    | join event =>
        cases event with
        | dataJoined panicked =>
            intro goes
            have told := each before panicked after worker next split ran stepped goes
            exact (watch_run_iff ran).mpr (Or.inr told)
        | _ => trivial
    | _ => trivial

/-- The hub fails to start and reports it through the ready channel. -/
def failedStart : List (Event HubAct) :=
  [.plane (.startFailed true), .plane .closed, .join .readyOutcome, .join (.reported true),
    .join (.dataJoined false)]

/-- The join is left waiting for a control task that nobody has told to stop. -/
theorem failed_start_awaits_untold :
    ¬ AllStates (step ⟨false, true, "hub", "s"⟩ hubPlane)
      (AwaitsEnding ⟨false, true, "hub", "s"⟩ hubPlane)
      (.start ⟨false, true, "hub", "s"⟩ hubPlane) failedStart := by
  intro all
  have ends := all.final rfl rfl
  rcases ends with finished | ⟨raised, -⟩
  · exact absurd finished nofun
  · exact absurd raised nofun

end LinkP2p.Daemon
