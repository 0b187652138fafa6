import LinkP2p.Daemon.Worker

/-!
# What an answered Shutdown does to the data plane

The watch of the control task remembers a `Shutdown`; the data plane only hears
of it through `hooks.cancel`. The request is with the plane as long as the plane
holds a marked future or is on its way out.
-/

namespace LinkP2p.Daemon

open LinkP2p.Lib LinkP2p.Lib.Transition

variable {π α : Type*} {config : Config} {data : DataPlane π α}

/-- Once a `Shutdown` has been answered, the plane has left its loop or holds a
marked future. -/
def Heard (data : DataPlane π α) (worker : Worker π) : Prop :=
  worker.watch = true → data.Told worker.plane

/-- A `Shutdown` finds the plane at a wait or past its loop, and the plane drops
no marked future for another branch. -/
def Attended (config : Config) (data : DataPlane π α) (worker : Worker π) : Event α → Prop
  | .plane act => worker.watch = true → data.Keeps worker.plane act
  | event => Stops config event → data.Listens worker.plane

theorem attended_of_quiet {worker : Worker π} {event : Event α}
    (apart : ∀ act, event ≠ .plane act) (quiet : ¬ Stops config event) :
    Attended config data worker event := by
  cases event with
  | plane act => exact absurd rfl (apart act)
  | _ => exact fun stops => absurd stops quiet

theorem attended_of_stops {worker : Worker π} {event : Event α} (stops : Stops config event) :
    Attended config data worker event ↔ data.Listens worker.plane := by
  cases event with
  | plane act => exact stops.elim
  | _ => exact ⟨fun attended => attended stops, fun listens _ => listens⟩

/-- A step from a worker whose plane has heard keeps it so exactly when it is attended. -/
theorem heard_step_iff {worker next : Worker π} {event : Event α} (heard : Heard data worker)
    (stepped : step config data worker event = some next) :
    Heard data next ↔ Attended config data worker event := by
  cases step_moved stepped with
  | told stops watch _ _ plane =>
      rw [attended_of_stops stops, Heard, plane, Notify.told_notify_iff]
      exact ⟨fun hears => hears watch, fun listens _ => listens⟩
  | control quiet watch _ _ plane =>
      refine ⟨fun _ => attended_of_quiet nofun quiet, fun _ => ?_⟩
      rw [Heard, watch, plane]
      exact heard
  | joined watch _ _ plane =>
      refine ⟨fun _ => attended_of_quiet nofun not_false, fun _ raised => ?_⟩
      have told := heard (watch ▸ raised)
      rcases plane with same | notified
      · rw [same]
        exact told
      · rw [notified]
        exact Notify.told_notify told
  | plane watch _ _ taken =>
      rw [Heard, watch]
      constructor
      · exact fun hears raised =>
          (Notify.told_step_iff (heard raised) taken).mp (hears raised)
      · exact fun keeps raised =>
          (Notify.told_step_iff (heard raised) taken).mpr (keeps raised)
  | outside quiet watch _ _ plane apart =>
      refine ⟨fun _ => attended_of_quiet apart.1 quiet, fun _ => ?_⟩
      rw [Heard, watch, plane]
      exact heard

/-- For any plane, an answered `Shutdown` stays with the plane throughout a run
exactly when every step of the run is attended. -/
theorem heard_iff (config : Config) (data : DataPlane π α) (events : List (Event α)) :
    AllStates (step config data) (Heard data) (.start config data) events ↔
      AllSteps (step config data) (Attended config data) (.start config data) events := by
  have initial : Heard data (.start config data) := fun raised => absurd raised nofun
  exact allStates_iff (I := fun _ => True) (fun _ _ _ _ _ => trivial)
    (fun _ _ _ _ => heard_step_iff) trivial initial events

/-- **No lost shutdown.** For the hub, the spoke and the phone plane and every
interleaving with the control task and the join: after each answered `Shutdown`
the plane has left its loop or holds the request, in every later state, exactly
when each `Shutdown` finds a `Notified` future (or a plane past its loop) and no
branch of a `select!` is taken past a marked one. -/
theorem shutdown_never_lost_iff (config : Config) :
    (∀ events, AllStates (step config hubPlane) (Heard hubPlane) (.start config hubPlane) events ↔
      AllSteps (step config hubPlane) (Attended config hubPlane)
        (.start config hubPlane) events) ∧
    (∀ events, AllStates (step config spokePlane) (Heard spokePlane)
        (.start config spokePlane) events ↔
      AllSteps (step config spokePlane) (Attended config spokePlane)
        (.start config spokePlane) events) ∧
    (∀ events, AllStates (step config phonePlane) (Heard phonePlane)
        (.start config phonePlane) events ↔
      AllSteps (step config phonePlane) (Attended config phonePlane)
        (.start config phonePlane) events) :=
  ⟨heard_iff config hubPlane, heard_iff config spokePlane, heard_iff config phonePlane⟩

/-- A `Shutdown` arrives while the hub waits for the handshake of an incoming
connection. -/
def shutdownInHandshake : List (Event HubAct) :=
  [.plane .started, .plane .incoming, .ctl (.accept 0), .ctl (.request 0 .shutdown true)]

/-- The hub goes on with its loop after the `Shutdown` was answered with `Ok`. -/
theorem shutdown_in_handshake_lost :
    ∃ final, run (step ⟨false, true, "hub", "s"⟩ hubPlane)
        (.start ⟨false, true, "hub", "s"⟩ hubPlane)
        (shutdownInHandshake ++ [.plane .handshaken, .plane .poll]) = some final ∧
      final.tasks.get 0 = some (.answering .ok) ∧ final.plane = .selecting false ∧
      ¬ AllStates (step ⟨false, true, "hub", "s"⟩ hubPlane) (Heard hubPlane)
        (.start ⟨false, true, "hub", "s"⟩ hubPlane) shutdownInHandshake := by
  refine ⟨_, rfl, by decide, rfl, fun all => ?_⟩
  have told := all.final rfl rfl
  exact absurd told (by decide)

end LinkP2p.Daemon
