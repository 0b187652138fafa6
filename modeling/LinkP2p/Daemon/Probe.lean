import LinkP2p.Daemon.Control
import LinkP2p.Lib.HashMap
import LinkP2p.Lib.Transition

/-!
# The files of a daemon

A worker holds the lock for its whole life, binds the control socket and writes
the pid file. Other processes probe it: they read the pid file, ask for `Status`
with a timeout, and clean up what they take for leftovers.
-/

namespace LinkP2p.Daemon.Liveness

open LinkP2p.Lib LinkP2p.Lib.Transition

structure PidRecord where
  pid : Nat
  session : String
  startedUnixMs : Nat
  deriving DecidableEq, Repr

/-- What comes out of `handshake_status`. -/
inductive Handshake where
  | replied (response : CtlResponse)
  /-- A live daemon speaks another version of the protocol. -/
  | mismatch
  /-- The connect is refused, or one of the two timeouts is over. -/
  | failed
  deriving DecidableEq, Repr

def Handshake.isStatus : Handshake → Bool
  | .replied (.status ..) => true
  | _ => false

/-- Where `run_worker_inner` stands. -/
inductive Worker where
  /-- Before `try_acquire_lock`. -/
  | starting
  /-- In `prepare_bind`, before it looks for the socket file. -/
  | preparing
  /-- In the handshake of `prepare_bind`, before it connects. -/
  | asking
  /-- Connected to the daemon whose answer it waits for. -/
  | waiting (daemon : Nat)
  /-- In `prepare_bind`, before it removes the socket file. -/
  | unlinking
  | binding
  /-- The listener is open, the pid file not yet written. -/
  | bound
  | serving
  /-- The control loop has ended and dropped its listener. -/
  | stopping
  /-- In `cleanup_worker_files`. -/
  | cleaningSock
  | cleaningPid
  /-- The pid file could not be written. -/
  | failing
  /-- Before `drop_lock`. -/
  | releasing
  | gone
  deriving DecidableEq, Repr

/-- The worker has the lock. -/
def Worker.holds : Worker → Bool
  | .starting | .gone => false
  | _ => true

/-- The worker's listener is open. -/
def Worker.listens : Worker → Bool
  | .bound | .serving => true
  | _ => false

/-- A worker process. -/
structure Process where
  pid : Nat
  session : String
  stage : Worker
  /-- It has reached its control loop, which answers requests. -/
  served : Bool
  deriving DecidableEq, Repr

def Process.goto (daemon : Process) (stage : Worker) : Process :=
  { daemon with stage := stage, served := daemon.served || stage = .serving }

/-- Who has called `probe`; the loop of `cmd_down` remembers the daemon that took
its `Shutdown`. -/
inductive Caller where
  | probe
  | cleanup
  | status
  | down
  | downLoop (asked : Nat)
  deriving DecidableEq, Repr

def Caller.asked : Caller → Option Nat
  | .downLoop asked => some asked
  | _ => none

/-- What a command reports. -/
inductive Report where
  | notRunning
  | running (response : CtlResponse)
  | error
  | cleaned
  /-- `tun daemon stopped` -/
  | stopped
  /-- The deadline is over. -/
  | stillStopping
  deriving DecidableEq, Repr

/-- Where a client process stands. -/
inductive Client where
  /-- In `probe`, before it reads the pid file. -/
  | reading (caller : Caller)
  /-- In the handshake, before it connects. -/
  | asking (caller : Caller) (pidRec : Option PidRecord)
  /-- Connected to the daemon whose answer it waits for. -/
  | waiting (caller : Caller) (pidRec : Option PidRecord) (daemon : Nat)
  /-- The handshake has failed. -/
  | dead (caller : Caller) (pidRec : Option PidRecord)
  /-- Before the socket file is removed and `NotRunning` returned. -/
  | unlinking (caller : Caller)
  /-- In `cleanup_residuals_if_dead`, after an error of `probe`. -/
  | cleaningSock
  | cleaningPid
  /-- In `send_shutdown`, before it connects. -/
  | sending
  | requesting (daemon : Nat)
  | sleeping (asked : Nat)
  /-- In `cmd_down`, after `NotRunning`. -/
  | removingPid (asked : Nat)
  | stopped (asked : Nat)
  | returned (report : Report)
  deriving DecidableEq, Repr

structure State where
  lock : Option Nat
  /-- The socket file, by the daemon that has bound it. -/
  sock : Option Nat
  /-- The pid file and the daemon that has written it. -/
  pidFile : Option (Nat × PidRecord)
  daemons : HashMap Nat Process
  clients : HashMap Nat Client

def State.start : State := ⟨none, none, none, ∅, ∅⟩

/-- What a process does to the files. -/
inductive Effect where
  | silent
  | takeLock (daemon : Nat)
  | releaseLock (daemon : Nat)
  | bindSock (daemon : Nat)
  | unlinkSock
  | writePid (daemon : Nat) (pidRec : PidRecord)
  | removePid
  deriving DecidableEq, Repr

def Effect.apply (state : State) : Effect → State
  | .silent => state
  | .takeLock daemon => { state with lock := some daemon }
  | .releaseLock daemon =>
      { state with lock := if state.lock = some daemon then none else state.lock }
  | .bindSock daemon => { state with sock := some daemon }
  | .unlinkSock => { state with sock := none }
  | .writePid daemon pidRec => { state with pidFile := some (daemon, pidRec) }
  | .removePid => { state with pidFile := none }

@[simp]
theorem Effect.apply_daemons (state : State) (effect : Effect) :
    (effect.apply state).daemons = state.daemons := by
  cases effect with
  | _ => rfl

@[simp]
theorem Effect.apply_clients (state : State) (effect : Effect) :
    (effect.apply state).clients = state.clients := by
  cases effect with
  | _ => rfl

/-- The daemon a connect to the socket file reaches. -/
def State.listening (state : State) : Option Nat :=
  state.sock.filter fun number => (state.daemons.get number).any fun found => found.stage.listens

/-- A daemon that has served may have sent a reply; any handshake may fail. -/
def State.allows (state : State) (number : Nat) (outcome : Handshake) : Bool :=
  outcome = .failed || (state.daemons.get number).any fun found => found.served

inductive WorkerAct where
  | lock
  | lockFailed
  /-- `path.exists()` -/
  | look
  | connect
  | handshake (outcome : Handshake)
  | bind
  | bindFailed
  | pidWritten (startedUnixMs : Nat)
  | pidFailed
  /-- The control loop has ended. -/
  | closed
  /-- The data plane has ended too. -/
  | joined
  /-- The next removal or the release of the lock. -/
  | next
  | crash
  deriving DecidableEq, Repr

/-- One step of `run_worker_inner`. -/
def workerStep (state : State) (number : Nat) (daemon : Process) :
    Worker → WorkerAct → Option (Worker × Effect)
  | .starting, .lock => if state.lock.isNone then some (.preparing, .takeLock number) else none
  | .starting, .lockFailed => some (.gone, .silent)
  | .preparing, .look => some (if state.sock.isNone then .binding else .asking, .silent)
  | .asking, .connect => state.listening.map fun reached => (.waiting reached, .silent)
  | .asking, .handshake .failed => some (.unlinking, .silent)
  | .waiting reached, .handshake outcome =>
      if state.allows reached outcome then
        -- any answer ends the worker: already running, or a protocol error
        some (if outcome = .failed then .unlinking else .releasing, .silent)
      else none
  | .unlinking, .next => some (.binding, .unlinkSock)
  | .binding, .bind => if state.sock.isNone then some (.bound, .bindSock number) else none
  | .binding, .bindFailed => some (.releasing, .silent)
  | .bound, .pidWritten startedUnixMs =>
      some (.serving, .writePid number ⟨daemon.pid, daemon.session, startedUnixMs⟩)
  | .bound, .pidFailed => some (.failing, .silent)
  | .failing, .next => some (.releasing, .unlinkSock)
  | .serving, .closed => some (.stopping, .silent)
  | .stopping, .joined => some (.cleaningSock, .silent)
  | .cleaningSock, .next => some (.cleaningPid, .unlinkSock)
  | .cleaningPid, .next => some (.releasing, .removePid)
  | .releasing, .next => some (.gone, .releaseLock number)
  | .gone, .crash => none
  | _, .crash => some (.gone, .releaseLock number)
  | _, _ => none

inductive ClientAct where
  /-- The next step that needs no answer from outside. -/
  | next
  | connect
  | handshake (outcome : Handshake)
  /-- `process_exists` of the record's pid. -/
  | checked (alive : Bool)
  | shutdownSent
  /-- `send_shutdown` finds no daemon. -/
  | shutdownRefused
  | shutdownFailed
  | deadline
  deriving DecidableEq, Repr

/-- What the caller of `probe` does with `NotRunning`. -/
def Caller.notRunning : Caller → Client
  | .cleanup => .returned .cleaned
  | .downLoop asked => .removingPid asked
  | .probe | .status | .down => .returned .notRunning

def Caller.running (response : CtlResponse) : Caller → Client
  | .probe | .status => .returned (.running response)
  | .cleanup => .returned .cleaned
  | .down => .sending
  | .downLoop asked => .sleeping asked

def Caller.error : Caller → Client
  | .cleanup => .cleaningSock
  | _ => .returned .error

/-- Where a handshake takes a probe. -/
def Caller.probed (caller : Caller) (pidRec : Option PidRecord) : Handshake → Client
  | .replied (.status role uptime vip vip6 path session pending) =>
      caller.running (.status role uptime vip vip6 path session pending)
  | .replied _ | .mismatch => caller.error
  | .failed => .dead caller pidRec

/-- Some process of the table runs under the pid. -/
def State.running (state : State) (pid : Nat) : Bool :=
  state.daemons.anyValue fun found => found.pid = pid && found.stage != .gone

/-- One step of a client process. -/
def clientStep (state : State) : Client → ClientAct → Option (Client × Effect)
  | .reading caller, .next => some (.asking caller (state.pidFile.map Prod.snd), .silent)
  | .asking caller pidRec, .connect =>
      state.listening.map fun reached => (.waiting caller pidRec reached, .silent)
  | .asking caller pidRec, .handshake .failed => some (.dead caller pidRec, .silent)
  | .waiting caller pidRec reached, .handshake outcome =>
      if state.allows reached outcome then some (caller.probed pidRec outcome, .silent) else none
  | .dead caller none, .next => some (.unlinking caller, .silent)
  | .dead caller (some pidRec), .checked alive =>
      -- a pid that is gone may be taken by another program
      if state.running pidRec.pid && !alive then none
      else some (.unlinking caller, if alive then .silent else .removePid)
  | .unlinking caller, .next => some (caller.notRunning, .unlinkSock)
  | .cleaningSock, .next => some (.cleaningPid, .unlinkSock)
  | .cleaningPid, .next => some (.returned .cleaned, .removePid)
  | .sending, .connect => state.listening.map fun reached => (.requesting reached, .silent)
  | .sending, .shutdownRefused => some (.returned .notRunning, .silent)
  | .requesting reached, .shutdownSent =>
      if (state.daemons.get reached).any fun found => found.served then
        some (.reading (.downLoop reached), .silent)
      else none
  | .requesting _, .shutdownFailed => some (.returned .error, .silent)
  | .sleeping asked, .next => some (.reading (.downLoop asked), .silent)
  | .sleeping _, .deadline => some (.returned .stillStopping, .silent)
  | .removingPid asked, .next => some (.stopped asked, .removePid)
  | .stopped _, .next => some (.returned .stopped, .silent)
  | _, _ => none

inductive Event where
  /-- A worker process starts. -/
  | spawn (number : Nat) (pid : Nat) (session : String)
  | daemon (number : Nat) (act : WorkerAct)
  /-- A command that probes starts. -/
  | command (i : Nat) (caller : Caller)
  | client (i : Nat) (act : ClientAct)
  deriving DecidableEq, Repr

def step (state : State) : Event → Option State
  | .spawn number pid session =>
      if state.daemons.containsKey number then none
      else some { state with daemons := state.daemons.put number ⟨pid, session, .starting, false⟩ }
  | .daemon number act =>
      (state.daemons.get number).bind fun daemon =>
        (workerStep state number daemon daemon.stage act).map fun (stage, effect) =>
          { effect.apply state with
            daemons := state.daemons.put number (daemon.goto stage) }
  | .command i caller =>
      if state.clients.containsKey i || caller.asked.isSome then none
      else some { state with clients := state.clients.put i (.reading caller) }
  | .client i act =>
      (state.clients.get i).bind fun client =>
        (clientStep state client act).map fun (stage, effect) =>
          { effect.apply state with clients := state.clients.put i stage }

/-- The effect of a step on the files. -/
def effectOf (state : State) : Event → Effect
  | .daemon number act =>
      (((state.daemons.get number).bind fun daemon =>
        workerStep state number daemon daemon.stage act).map Prod.snd).getD .silent
  | .client i act =>
      (((state.clients.get i).bind fun client =>
        clientStep state client act).map Prod.snd).getD .silent
  | .spawn .. | .command .. => .silent

/-! ## What one step does -/

/-- The pid file may be this worker's own. -/
def Worker.published : Worker → Bool
  | .serving | .stopping | .cleaningSock | .cleaningPid | .releasing | .gone => true
  | _ => false

/-- The next removals of the client take the socket file. -/
def Client.threatensSock : Client → Bool
  | .dead .. | .unlinking _ | .cleaningSock => true
  | _ => false

/-- The next removals of the client take the pid file, or may. -/
def Client.threatensPid : Client → Bool
  | .cleaningPid | .removingPid _ => true
  | client => client.threatensSock

/-- The daemon that `cmd_down` is stopping. -/
def Client.asked : Client → Option Nat
  | .reading caller | .asking caller _ | .waiting caller .. | .dead caller _ | .unlinking caller =>
      caller.asked
  | .requesting asked | .sleeping asked | .removingPid asked | .stopped asked => some asked
  | _ => none

/-- The daemon that `cmd_down` takes to have stopped. -/
def Client.ended : Client → Option Nat
  | .dead caller _ | .unlinking caller => caller.asked
  | .removingPid asked | .stopped asked => some asked
  | _ => none

inductive WorkerMove (state : State) (number : Nat) :
    Worker → WorkerAct → Worker → Effect → Prop where
  | locks (free : state.lock = none) :
      WorkerMove state number .starting .lock .preparing (.takeLock number)
  | leaves {before : Worker} {act : WorkerAct} {effect : Effect}
      (released : effect = .releaseLock number ∨ before = .starting ∧ effect = .silent) :
      WorkerMove state number before act .gone effect
  | goesOn {before after : Worker} {act : WorkerAct} {effect : Effect}
      (held : before.holds = true) (holds : after.holds = true) (deaf : after.listens = false)
      (published : before.published = true → after.published = true)
      (tidy : effect = .silent ∨
        before.listens = false ∧ (effect = .unlinkSock ∨ effect = .removePid)) :
      WorkerMove state number before act after effect
  | binds (free : state.sock = none) :
      WorkerMove state number .binding .bind .bound (.bindSock number)
  | publishes (pidRec : PidRecord) (startedUnixMs : Nat) :
      WorkerMove state number .bound (.pidWritten startedUnixMs) .serving
        (.writePid number pidRec)

theorem worker_move {state : State} {number : Nat} {daemon : Process} {before after : Worker}
    {act : WorkerAct} {effect : Effect}
    (moved : workerStep state number daemon before act = some (after, effect)) :
    WorkerMove state number before act after effect := by
  unfold workerStep at moved
  split at moved
  -- the lock
  case h_1 =>
      split at moved
      · cases moved
        exact .locks (Option.isNone_iff_eq_none.mp ‹_›)
      · cases moved
  case h_2 =>
      cases moved
      exact .leaves (Or.inr ⟨rfl, rfl⟩)
  -- `prepare_bind`
  case h_3 =>
      obtain ⟨rfl, rfl⟩ := Prod.mk.inj (Option.some.inj moved)
      split
      · exact .goesOn rfl rfl rfl nofun (Or.inl rfl)
      · exact .goesOn rfl rfl rfl nofun (Or.inl rfl)
  case h_4 =>
      obtain ⟨reached, _, arrived⟩ := Option.map_eq_some_iff.mp moved
      cases arrived
      exact .goesOn rfl rfl rfl nofun (Or.inl rfl)
  case h_5 =>
      cases moved
      exact .goesOn rfl rfl rfl nofun (Or.inl rfl)
  case h_6 =>
      split at moved
      · obtain ⟨rfl, rfl⟩ := Prod.mk.inj (Option.some.inj moved)
        split
        · exact .goesOn rfl rfl rfl nofun (Or.inl rfl)
        · exact .goesOn rfl rfl rfl nofun (Or.inl rfl)
      · cases moved
  case h_7 =>
      cases moved
      exact .goesOn rfl rfl rfl nofun (Or.inr ⟨rfl, Or.inl rfl⟩)
  -- `bind_listener` and the pid file
  case h_8 =>
      split at moved
      · cases moved
        exact .binds (Option.isNone_iff_eq_none.mp ‹_›)
      · cases moved
  case h_9 =>
      cases moved
      exact .goesOn rfl rfl rfl nofun (Or.inl rfl)
  case h_10 =>
      cases moved
      exact .publishes _ _
  case h_11 =>
      cases moved
      exact .goesOn rfl rfl rfl nofun (Or.inl rfl)
  case h_12 =>
      cases moved
      exact .goesOn rfl rfl rfl nofun (Or.inr ⟨rfl, Or.inl rfl⟩)
  -- after the control loop
  case h_13 =>
      cases moved
      exact .goesOn rfl rfl rfl (fun _ => rfl) (Or.inl rfl)
  case h_14 =>
      cases moved
      exact .goesOn rfl rfl rfl (fun _ => rfl) (Or.inl rfl)
  case h_15 =>
      cases moved
      exact .goesOn rfl rfl rfl (fun _ => rfl) (Or.inr ⟨rfl, Or.inl rfl⟩)
  case h_16 =>
      cases moved
      exact .goesOn rfl rfl rfl (fun _ => rfl) (Or.inr ⟨rfl, Or.inr rfl⟩)
  case h_17 =>
      cases moved
      exact .leaves (Or.inl rfl)
  case h_18 => cases moved
  case h_19 =>
      cases moved
      exact .leaves (Or.inl rfl)
  case h_20 => cases moved

inductive ClientMove (state : State) : Client → ClientAct → Client → Effect → Prop where
  | goesOn {before after : Client} {act : ClientAct} {effect : Effect}
      (sock : after.threatensSock = true → before.threatensSock = true)
      (pid : after.threatensPid = true → before.threatensPid = true)
      (asked : ∀ daemon, after.asked = some daemon → before.asked = some daemon)
      (ended : ∀ daemon, after.ended = some daemon → before.ended = some daemon)
      (tidy : effect = .silent ∨ before.threatensSock = true ∧ effect = .unlinkSock ∨
        before.threatensPid = true ∧ effect = .removePid) :
      ClientMove state before act after effect
  | requests {reached : Nat} (listens : state.listening = some reached) :
      ClientMove state .sending .connect (.requesting reached) .silent
  | fails {before : Client} {caller : Caller} {pidRec : Option PidRecord}
      (asked : before.asked = caller.asked) :
      ClientMove state before (.handshake .failed) (.dead caller pidRec) .silent
  | confuses {pidRec : Option PidRecord} {reached : Nat} {outcome : Handshake}
      (status : outcome.isStatus = false) :
      ClientMove state (.waiting .cleanup pidRec reached) (.handshake outcome) .cleaningSock .silent

/-- A command that threatens no more and knows no more than before. -/
theorem ClientMove.keeps {state : State} {before after : Client} {act : ClientAct} {effect : Effect}
    (sock : after.threatensSock = false ∨ after.threatensSock = before.threatensSock)
    (pid : after.threatensPid = false ∨ after.threatensPid = before.threatensPid)
    (asked : after.asked = none ∨ after.asked = before.asked)
    (ended : after.ended = none ∨ after.ended = before.ended)
    (tidy : effect = .silent ∨ before.threatensSock = true ∧ effect = .unlinkSock ∨
      before.threatensPid = true ∧ effect = .removePid) :
    ClientMove state before act after effect := by
  refine .goesOn (fun threat => ?_) (fun threat => ?_) (fun daemon known => ?_)
    (fun daemon known => ?_) tidy
  · rcases sock with calm | same
    · cases calm.symm.trans threat
    · exact same.symm.trans threat
  · rcases pid with calm | same
    · cases calm.symm.trans threat
    · exact same.symm.trans threat
  · rcases asked with forgotten | same
    · cases forgotten.symm.trans known
    · exact same.symm.trans known
  · rcases ended with forgotten | same
    · cases forgotten.symm.trans known
    · exact same.symm.trans known

theorem running_move {state : State} {caller : Caller} {pidRec : Option PidRecord} {reached : Nat}
    {outcome : Handshake} {response : CtlResponse} :
    ClientMove state (.waiting caller pidRec reached) (.handshake outcome)
      (caller.running response) .silent := by
  cases caller with
  | downLoop asked => exact .keeps (Or.inl rfl) (Or.inl rfl) (Or.inr rfl) (Or.inl rfl) (Or.inl rfl)
  | _ => exact .keeps (Or.inl rfl) (Or.inl rfl) (Or.inl rfl) (Or.inl rfl) (Or.inl rfl)

theorem error_move {state : State} {caller : Caller} {pidRec : Option PidRecord} {reached : Nat}
    {outcome : Handshake} (status : outcome.isStatus = false) :
    ClientMove state (.waiting caller pidRec reached) (.handshake outcome) caller.error
      .silent := by
  cases caller with
  | cleanup => exact .confuses status
  | _ => exact .keeps (Or.inl rfl) (Or.inl rfl) (Or.inl rfl) (Or.inl rfl) (Or.inl rfl)

theorem probed_move {state : State} {caller : Caller} {pidRec : Option PidRecord} {reached : Nat}
    {outcome : Handshake} :
    ClientMove state (.waiting caller pidRec reached) (.handshake outcome)
      (caller.probed pidRec outcome) .silent := by
  cases outcome with
  | failed => exact .fails rfl
  | mismatch => exact error_move rfl
  | replied response =>
      cases response with
      | status => exact running_move
      | _ => exact error_move rfl

theorem notRunning_move {state : State} {caller : Caller} {act : ClientAct} :
    ClientMove state (.unlinking caller) act caller.notRunning .unlinkSock := by
  cases caller with
  | downLoop asked =>
      exact .keeps (Or.inl rfl) (Or.inr rfl) (Or.inr rfl) (Or.inr rfl)
        (Or.inr (Or.inl ⟨rfl, rfl⟩))
  | _ =>
      exact .keeps (Or.inl rfl) (Or.inl rfl) (Or.inl rfl) (Or.inl rfl)
        (Or.inr (Or.inl ⟨rfl, rfl⟩))

theorem client_move {state : State} {before after : Client} {act : ClientAct} {effect : Effect}
    (moved : clientStep state before act = some (after, effect)) :
    ClientMove state before act after effect := by
  unfold clientStep at moved
  split at moved
  -- `probe` up to the handshake
  case h_1 =>
      cases moved
      exact .keeps (Or.inl rfl) (Or.inl rfl) (Or.inr rfl) (Or.inl rfl) (Or.inl rfl)
  case h_2 =>
      obtain ⟨reached, _, arrived⟩ := Option.map_eq_some_iff.mp moved
      cases arrived
      exact .keeps (Or.inl rfl) (Or.inl rfl) (Or.inr rfl) (Or.inl rfl) (Or.inl rfl)
  case h_3 =>
      cases moved
      exact .fails rfl
  case h_4 =>
      split at moved
      · cases moved
        exact probed_move
      · cases moved
  -- what `probe` does with leftovers
  case h_5 =>
      cases moved
      exact .keeps (Or.inr rfl) (Or.inr rfl) (Or.inr rfl) (Or.inr rfl)
        (Or.inl rfl)
  case h_6 =>
      split at moved
      · cases moved
      · obtain ⟨rfl, rfl⟩ := Prod.mk.inj (Option.some.inj moved)
        refine .keeps (Or.inr rfl) (Or.inr rfl) (Or.inr rfl) (Or.inr rfl) ?_
        split
        · exact Or.inl rfl
        · exact Or.inr (Or.inr ⟨rfl, rfl⟩)
  case h_7 =>
      cases moved
      exact notRunning_move
  case h_8 =>
      cases moved
      exact .keeps (Or.inl rfl) (Or.inr rfl) (Or.inl rfl) (Or.inl rfl) (Or.inr (Or.inl ⟨rfl, rfl⟩))
  case h_9 =>
      cases moved
      exact .keeps (Or.inl rfl) (Or.inl rfl) (Or.inl rfl) (Or.inl rfl) (Or.inr (Or.inr ⟨rfl, rfl⟩))
  -- `send_shutdown` and the loop of `cmd_down`
  case h_10 =>
      obtain ⟨reached, listens, arrived⟩ := Option.map_eq_some_iff.mp moved
      cases arrived
      exact .requests listens
  case h_11 =>
      cases moved
      exact .keeps (Or.inl rfl) (Or.inl rfl) (Or.inl rfl) (Or.inl rfl) (Or.inl rfl)
  case h_12 =>
      split at moved
      · cases moved
        exact .keeps (Or.inl rfl) (Or.inl rfl) (Or.inr rfl) (Or.inl rfl) (Or.inl rfl)
      · cases moved
  case h_13 =>
      cases moved
      exact .keeps (Or.inl rfl) (Or.inl rfl) (Or.inl rfl) (Or.inl rfl) (Or.inl rfl)
  case h_14 =>
      cases moved
      exact .keeps (Or.inl rfl) (Or.inl rfl) (Or.inr rfl) (Or.inl rfl) (Or.inl rfl)
  case h_15 =>
      cases moved
      exact .keeps (Or.inl rfl) (Or.inl rfl) (Or.inl rfl) (Or.inl rfl) (Or.inl rfl)
  case h_16 =>
      cases moved
      exact .keeps (Or.inl rfl) (Or.inl rfl) (Or.inr rfl) (Or.inr rfl)
        (Or.inr (Or.inr ⟨rfl, rfl⟩))
  case h_17 =>
      cases moved
      exact .keeps (Or.inl rfl) (Or.inl rfl) (Or.inl rfl) (Or.inl rfl) (Or.inl rfl)
  case h_18 => cases moved

/-- One step of the machine. -/
inductive Move (state : State) : Event → State → Prop where
  | spawn {number pid : Nat} {session : String} (fresh : state.daemons.get number = none) :
      Move state (.spawn number pid session)
        { state with daemons := state.daemons.put number ⟨pid, session, .starting, false⟩ }
  | daemon {number : Nat} {act : WorkerAct} {daemon : Process} {after : Worker} {effect : Effect}
      (found : state.daemons.get number = some daemon)
      (moved : WorkerMove state number daemon.stage act after effect)
      (wrought : effectOf state (.daemon number act) = effect) :
      Move state (.daemon number act)
        { effect.apply state with daemons := state.daemons.put number (daemon.goto after) }
  | command {i : Nat} {caller : Caller} (fresh : state.clients.get i = none)
      (outer : caller.asked = none) :
      Move state (.command i caller)
        { state with clients := state.clients.put i (.reading caller) }
  | client {i : Nat} {act : ClientAct} {before after : Client} {effect : Effect}
      (found : state.clients.get i = some before)
      (moved : ClientMove state before act after effect)
      (wrought : effectOf state (.client i act) = effect) :
      Move state (.client i act)
        { effect.apply state with clients := state.clients.put i after }

theorem step_move {state next : State} {event : Event} (stepped : step state event = some next) :
    Move state event next := by
  unfold step at stepped
  split at stepped
  case h_1 number pid session =>
      split at stepped
      · cases stepped
      · cases stepped
        exact .spawn (Option.not_isSome_iff_eq_none.mp ‹_›)
  case h_2 number act =>
      obtain ⟨daemon, found, stepped⟩ := Option.bind_eq_some_iff.mp stepped
      obtain ⟨⟨after, effect⟩, moved, rfl⟩ := Option.map_eq_some_iff.mp stepped
      refine .daemon found (worker_move moved) ?_
      rw [effectOf, found, Option.bind_some, moved]
      rfl
  case h_3 i caller =>
      split at stepped
      · cases stepped
      · cases stepped
        rename_i fresh
        simp only [Bool.or_eq_true, not_or] at fresh
        refine .command (Option.not_isSome_iff_eq_none.mp fresh.1) ?_
        cases caller with
        | downLoop asked => exact absurd rfl fresh.2
        | _ => rfl
  case h_4 i act =>
      obtain ⟨before, found, stepped⟩ := Option.bind_eq_some_iff.mp stepped
      obtain ⟨⟨after, effect⟩, moved, rfl⟩ := Option.map_eq_some_iff.mp stepped
      refine .client found (client_move moved) ?_
      rw [effectOf, found, Option.bind_some, moved]
      rfl

end LinkP2p.Daemon.Liveness
