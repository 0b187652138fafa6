import LinkP2p.Daemon.Control
import LinkP2p.Daemon.Planes
import LinkP2p.Lib.HashMap

/-!
# The worker: control task, data plane and their join

`run_live_control_and_data` spawns the control task and the data plane and then
runs `join_live_control_and_data`. The control task stops on its shutdown watch,
which only an answered `Shutdown` raises; the data plane stops on `hooks.cancel`,
which every `request_shutdown` notifies.
-/

namespace LinkP2p.Daemon

open LinkP2p.Lib LinkP2p.Lib.Transition

/-- Where `serve_ctl_until_shutdown` stands. -/
inductive CtlLoop where
  /-- In the `select!` on the watch and the listener. -/
  | serving
  /-- Waiting for the requests in flight, for a bounded time. -/
  | draining
  | finished
  deriving DecidableEq, Repr

/-- Where one `handle_one_connection` stands. -/
inductive CtlTask where
  | reading
  | answering (response : CtlResponse)
  deriving DecidableEq, Repr

/-- The receiving end of the ready channel. -/
inductive Ready where
  | pending
  /-- `signal_ready` has sent `Ok(())` or an error. -/
  | sent (ok : Bool)
  /-- The sender is gone without a message. -/
  | dropped
  deriving DecidableEq, Repr

/-- Where `join_live_control_and_data` stands. -/
inductive Join where
  /-- In `timeout(READY_TIMEOUT, ready_rx)`. -/
  | awaitReady
  /-- Sending `OK` to the parent. -/
  | reportOk
  /-- Sending an `ERROR` line to the parent. -/
  | reportError
  /-- In `data.await`; `failed` if the start has failed. -/
  | awaitData (failed : Bool)
  /-- In `ctl.await`. -/
  | awaitCtl
  | returned
  deriving DecidableEq, Repr

/-- What does not change while the worker runs. -/
structure Config where
  /-- System mode, where the socket is open to everyone. -/
  requirePrivilege : Bool
  /-- `LINK_P2P_TUN_READY` is set. -/
  readyAddr : Bool
  role : String
  session : String

structure Worker (π : Type*) where
  hooks : Hooks
  /-- What `shutdown_tx` last sent. -/
  watch : Bool
  ctl : CtlLoop
  tasks : HashMap Nat CtlTask
  ready : Ready
  join : Join
  plane : π

inductive CtlEvent where
  /-- A client connects. -/
  | accept (conn : Nat)
  | request (conn : Nat) (req : CtlRequest) (peerPrivileged : Bool)
  /-- The response is written, the read has timed out or the frame is bad. -/
  | finish (conn : Nat)
  /-- `shutdown_rx.changed()` -/
  | changed
  /-- No task is left, or `CTL_DRAIN_TIMEOUT` is over. -/
  | drained
  deriving DecidableEq, Repr

inductive JoinEvent where
  /-- The ready channel has an outcome. -/
  | readyOutcome
  /-- `READY_TIMEOUT` is over. -/
  | readyTimeout
  | reported (ok : Bool)
  | dataJoined (panicked : Bool)
  | ctlJoined
  deriving DecidableEq, Repr

inductive Event (α : Type*) where
  | ctl (event : CtlEvent)
  | join (event : JoinEvent)
  | plane (act : α)
  /-- The data plane publishes its state or takes a command. -/
  | publish (hooks : Hooks)
  /-- The data plane ends with the ready sender unused. -/
  | readyDropped

section Step

variable {π α : Type*} (config : Config) (data : DataPlane π α)

/-- Both tasks are spawned and the join waits for the ready signal. -/
def Worker.start : Worker π where
  hooks := .new config.role config.session
  watch := false
  ctl := .serving
  tasks := ∅
  ready := .pending
  join := .awaitReady
  plane := data.start

/-- `TunHooks::request_shutdown` -/
def Worker.requestShutdown (worker : Worker π) : Worker π :=
  { worker with plane := data.notifyWaiters worker.plane }

/-- `TunHooks::signal_ready`: only the first call sends. -/
def Worker.signalReady (worker : Worker π) : Option Bool → Worker π
  | none => worker
  | some ok =>
      if worker.ready = .pending then { worker with ready := .sent ok } else worker

def ctlStep (worker : Worker π) : CtlEvent → Option (Worker π)
  | .accept conn =>
      if worker.ctl = .serving ∧ worker.tasks.containsKey conn = false then
        some { worker with tasks := worker.tasks.put conn .reading }
      else none
  | .request conn req peerPrivileged =>
      if worker.tasks.get conn = some .reading then
        let answer := handleCtlRequest req worker.hooks
          (resolveCtlPrivilege config.requirePrivilege peerPrivileged)
        let answered := { worker with
          hooks := answer.hooks
          watch := worker.watch || answer.shutdown
          tasks := worker.tasks.put conn (.answering answer.response) }
        some (if answer.shutdown then answered.requestShutdown data else answered)
      else none
  | .finish conn =>
      if worker.tasks.containsKey conn then
        some { worker with tasks := worker.tasks.remove conn }
      else none
  | .changed =>
      if worker.ctl = .serving ∧ worker.watch = true then
        some { worker with ctl := .draining }
      else none
  | .drained =>
      -- the tasks that are left are aborted with the `JoinSet`
      if worker.ctl = .draining then some { worker with ctl := .finished, tasks := ∅ } else none

/-- The start has failed: tell the parent if it listens, then ask the plane to stop. -/
def Worker.startFailed (worker : Worker π) : Worker π :=
  if config.readyAddr then { worker with join := .reportError }
  else { worker with join := .awaitData true }.requestShutdown data

def joinStep (worker : Worker π) (event : JoinEvent) : Option (Worker π) :=
  match worker.join, event with
  | .awaitReady, .readyOutcome =>
      match worker.ready with
      | .pending => none
      | .sent true =>
          some { worker with join := if config.readyAddr then .reportOk else .awaitData false }
      | .sent false | .dropped => some (worker.startFailed config data)
  | .awaitReady, .readyTimeout => some (worker.startFailed config data)
  | .reportOk, .reported true => some { worker with join := .awaitData false }
  | .reportOk, .reported false => some { worker with join := .returned }
  | .reportError, .reported _ =>
      some ({ worker with join := .awaitData true }.requestShutdown data)
  | .awaitData failed, .dataJoined panicked =>
      if data.ended worker.plane = false then none
      else if failed then some { worker with join := .awaitCtl }
      else if panicked then some { worker with join := .returned }
      else some ({ worker with join := .awaitCtl }.requestShutdown data)
  | .awaitCtl, .ctlJoined =>
      if worker.ctl = .finished then some { worker with join := .returned } else none
  | _, _ => none

def step (worker : Worker π) : Event α → Option (Worker π)
  | .ctl event => ctlStep config data worker event
  | .join event => joinStep config data worker event
  | .plane act =>
      (data.step worker.plane act).map fun next =>
        { worker with plane := next }.signalReady (data.signals act)
  | .publish hooks => some { worker with hooks := hooks }
  | .readyDropped =>
      if data.ended worker.plane = true ∧ worker.ready = .pending then
        some { worker with ready := .dropped }
      else none

end Step

/-! ## What each step does to the signals -/

section Moves

variable {π α : Type*} {config : Config} {data : DataPlane π α}

@[simp]
theorem requestShutdown_watch (worker : Worker π) :
    (worker.requestShutdown data).watch = worker.watch := rfl

@[simp]
theorem requestShutdown_ctl (worker : Worker π) :
    (worker.requestShutdown data).ctl = worker.ctl := rfl

@[simp]
theorem requestShutdown_join (worker : Worker π) :
    (worker.requestShutdown data).join = worker.join := rfl

@[simp]
theorem requestShutdown_plane (worker : Worker π) :
    (worker.requestShutdown data).plane = data.notifyWaiters worker.plane := rfl

@[simp]
theorem signalReady_watch (worker : Worker π) (outcome : Option Bool) :
    (worker.signalReady outcome).watch = worker.watch := by
  cases outcome with
  | none => rfl
  | some ok => rw [Worker.signalReady]; split <;> rfl

@[simp]
theorem signalReady_ctl (worker : Worker π) (outcome : Option Bool) :
    (worker.signalReady outcome).ctl = worker.ctl := by
  cases outcome with
  | none => rfl
  | some ok => rw [Worker.signalReady]; split <;> rfl

@[simp]
theorem signalReady_join (worker : Worker π) (outcome : Option Bool) :
    (worker.signalReady outcome).join = worker.join := by
  cases outcome with
  | none => rfl
  | some ok => rw [Worker.signalReady]; split <;> rfl

@[simp]
theorem signalReady_plane (worker : Worker π) (outcome : Option Bool) :
    (worker.signalReady outcome).plane = worker.plane := by
  cases outcome with
  | none => rfl
  | some ok => rw [Worker.signalReady]; split <;> rfl

/-- The event is a `Shutdown` from a peer that may stop the daemon. -/
def Stops (config : Config) : Event α → Prop
  | .ctl (.request _ req peerPrivileged) =>
      req = .shutdown ∧ resolveCtlPrivilege config.requirePrivilege peerPrivileged = true
  | _ => False

/-- The end of the data plane takes the join on to the control task: always
after a failed start, else unless the plane has panicked. -/
def GoesToCtl (worker : Worker π) (panicked : Bool) : Prop :=
  worker.join = .awaitData true ∨ worker.join = .awaitData false ∧ panicked = false

/-- The moves of the control loop. -/
inductive CtlMove (watch : Bool) : CtlLoop → CtlLoop → Prop where
  | stay (loop : CtlLoop) : CtlMove watch loop loop
  | changed (raised : watch = true) : CtlMove watch .serving .draining
  | drained : CtlMove watch .draining .finished

/-- What a step does to the watch, the control loop, the join and the plane. -/
inductive Moved (config : Config) (data : DataPlane π α) (worker next : Worker π) :
    Event α → Prop where
  /-- A `Shutdown` is answered with `Ok`. -/
  | told {event : Event α} (stops : Stops config event) (watch : next.watch = true)
      (ctl : next.ctl = worker.ctl) (join : next.join = worker.join)
      (plane : next.plane = data.notifyWaiters worker.plane) :
      Moved config data worker next event
  | control {event : CtlEvent} (quiet : ¬ Stops (α := α) config (.ctl event))
      (watch : next.watch = worker.watch) (ctl : CtlMove worker.watch worker.ctl next.ctl)
      (join : next.join = worker.join) (plane : next.plane = worker.plane) :
      Moved config data worker next (.ctl event)
  | joined {event : JoinEvent} (watch : next.watch = worker.watch)
      (ctl : next.ctl = worker.ctl)
      (join : next.join = .awaitCtl ↔
        ∃ panicked, event = .dataJoined panicked ∧ GoesToCtl worker panicked)
      (plane : next.plane = worker.plane ∨ next.plane = data.notifyWaiters worker.plane) :
      Moved config data worker next (.join event)
  | plane {act : α} (watch : next.watch = worker.watch) (ctl : next.ctl = worker.ctl)
      (join : next.join = worker.join) (taken : data.step worker.plane act = some next.plane) :
      Moved config data worker next (.plane act)
  | outside {event : Event α} (quiet : ¬ Stops config event)
      (watch : next.watch = worker.watch) (ctl : next.ctl = worker.ctl)
      (join : next.join = worker.join) (plane : next.plane = worker.plane)
      (apart : (∀ act, event ≠ .plane act) ∧ ∀ outcome, event ≠ .join outcome) :
      Moved config data worker next event

theorem ctlStep_moved {worker next : Worker π} {event : CtlEvent}
    (stepped : ctlStep config data worker event = some next) :
    Moved config data worker next (.ctl event) := by
  cases event with
  | request conn req peerPrivileged =>
      simp only [ctlStep, Option.ite_none_right_eq_some, Option.some.injEq] at stepped
      obtain ⟨-, rfl⟩ := stepped
      split
      · rename_i stops
        exact .told (handleCtlRequest_shutdown_iff.mp stops) (by simp [stops]) rfl rfl rfl
      · rename_i quiet
        have off : ¬ Stops (α := α) config (.ctl (.request conn req peerPrivileged)) :=
          fun stops => quiet (handleCtlRequest_shutdown_iff.mpr stops)
        exact .control off (by simp [quiet]) (.stay _) rfl rfl
  | accept conn | finish conn =>
      simp only [ctlStep, Option.ite_none_right_eq_some, Option.some.injEq] at stepped
      obtain ⟨-, rfl⟩ := stepped
      exact .control not_false rfl (.stay _) rfl rfl
  | changed =>
      simp only [ctlStep, Option.ite_none_right_eq_some, Option.some.injEq] at stepped
      obtain ⟨⟨serving, raised⟩, rfl⟩ := stepped
      exact .control not_false rfl (by rw [serving]; exact .changed raised) rfl rfl
  | drained =>
      simp only [ctlStep, Option.ite_none_right_eq_some, Option.some.injEq] at stepped
      obtain ⟨draining, rfl⟩ := stepped
      exact .control not_false rfl (by rw [draining]; exact .drained) rfl rfl

theorem startFailed_moved {worker : Worker π} {event : JoinEvent}
    (early : ∀ panicked, event ≠ .dataJoined panicked) :
    Moved config data worker (worker.startFailed config data) (.join event) := by
  have never : ¬ ∃ panicked, event = .dataJoined panicked ∧ GoesToCtl worker panicked :=
    fun ⟨panicked, same, _⟩ => early panicked same
  unfold Worker.startFailed
  split
  · exact .joined rfl rfl ⟨nofun, fun goes => absurd goes never⟩ (Or.inl rfl)
  · exact .joined rfl rfl ⟨nofun, fun goes => absurd goes never⟩ (Or.inr rfl)

theorem joinStep_moved {worker next : Worker π} {event : JoinEvent}
    (stepped : joinStep config data worker event = some next) :
    Moved config data worker next (.join event) := by
  cases place : worker.join with
  | awaitReady =>
      cases event <;> simp only [joinStep, place, reduceCtorEq, Option.some.injEq] at stepped
      · cases ready : worker.ready with
        | pending => rw [ready] at stepped; cases stepped
        | dropped => rw [ready] at stepped; cases stepped; exact startFailed_moved nofun
        | sent ok =>
            rw [ready] at stepped
            cases ok with
            | false => cases stepped; exact startFailed_moved nofun
            | true =>
                cases stepped
                refine .joined rfl rfl ⟨fun reaches => ?_, nofun⟩ (Or.inl rfl)
                change (if config.readyAddr then Join.reportOk else .awaitData false) = _ at reaches
                split at reaches <;> cases reaches
      · rw [← stepped]
        exact startFailed_moved nofun
  | reportOk =>
      cases event with
      | reported ok =>
          cases ok <;> simp only [joinStep, place, Option.some.injEq] at stepped <;>
            rw [← stepped] <;> exact .joined rfl rfl ⟨nofun, nofun⟩ (Or.inl rfl)
      | _ => simp [joinStep, place] at stepped
  | reportError =>
      cases event with
      | reported ok =>
          simp only [joinStep, place, Option.some.injEq] at stepped
          rw [← stepped]
          exact .joined rfl rfl ⟨nofun, nofun⟩ (Or.inr rfl)
      | _ => simp [joinStep, place] at stepped
  | awaitData failed =>
      cases event with
      | dataJoined panicked =>
          simp only [joinStep, place, Option.ite_none_left_eq_some] at stepped
          obtain ⟨-, stepped⟩ := stepped
          cases failed with
          | true =>
              cases stepped
              exact .joined rfl rfl ⟨fun _ => ⟨panicked, rfl, Or.inl place⟩, fun _ => rfl⟩
                (Or.inl rfl)
          | false =>
              cases panicked with
              | true =>
                  cases stepped
                  refine .joined rfl rfl ⟨nofun, ?_⟩ (Or.inl rfl)
                  rintro ⟨_, same, failed | ⟨-, calm⟩⟩
                  · cases place.symm.trans failed
                  · cases same; cases calm
              | false =>
                  cases stepped
                  exact .joined rfl rfl
                    ⟨fun _ => ⟨false, rfl, Or.inr ⟨place, rfl⟩⟩, fun _ => rfl⟩ (Or.inr rfl)
      | _ => simp [joinStep, place] at stepped
  | awaitCtl =>
      cases event with
      | ctlJoined =>
          simp only [joinStep, place, Option.ite_none_right_eq_some, Option.some.injEq] at stepped
          rw [← stepped.2]
          exact .joined rfl rfl ⟨nofun, nofun⟩ (Or.inl rfl)
      | _ => simp [joinStep, place] at stepped
  | returned => cases event <;> simp [joinStep, place] at stepped

theorem step_moved {worker next : Worker π} {event : Event α}
    (stepped : step config data worker event = some next) :
    Moved config data worker next event := by
  cases event with
  | ctl event => exact ctlStep_moved stepped
  | join event => exact joinStep_moved stepped
  | plane act =>
      simp only [step, Option.map_eq_some_iff] at stepped
      obtain ⟨point, taken, rfl⟩ := stepped
      exact .plane (signalReady_watch _ _) (signalReady_ctl _ _) (signalReady_join _ _)
        (by rw [signalReady_plane]; exact taken)
  | publish hooks =>
      cases stepped
      exact .outside not_false rfl rfl rfl rfl ⟨nofun, nofun⟩
  | readyDropped =>
      simp only [step, Option.ite_none_right_eq_some, Option.some.injEq] at stepped
      rw [← stepped.2]
      exact .outside not_false rfl rfl rfl rfl ⟨nofun, nofun⟩

end Moves

end LinkP2p.Daemon
