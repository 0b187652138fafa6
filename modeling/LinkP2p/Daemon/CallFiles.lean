import LinkP2p.Lib.Transition
import Mathlib.Logic.Function.Basic

/-!
# The files of the call daemon

A call daemon takes the lock, removes the socket file that it finds and binds
its own. When it leaves it drops the lock first and removes the socket file
after that. Another daemon can take the lock and bind in between: it then loses
its socket file to the one that leaves, and stays up with no way to reach it.
-/

namespace LinkP2p.Daemon.CallFiles

open LinkP2p.Lib.Transition

/-- Where `run_daemon_inner` stands. -/
inductive Stage where
  /-- Before `try_acquire_lock`. -/
  | starting
  /-- Before it looks for a socket file. -/
  | locked
  | binding
  /-- The listener is open, the pid file not yet written. -/
  | bound
  /-- Waiting until the phone plane is ready. -/
  | running
  | serving
  /-- The phone plane has taken a `Shutdown` and closes its endpoint. -/
  | closing
  /-- The control loop is aborted, the lock still held. -/
  | ended
  /-- The phone plane has ended before it was ready, the lock still held. -/
  | notReady
  /-- Returning early with an error, which closes the listener before the lock. -/
  | failing
  /-- Past `drop_lock`, before the socket file is removed; `ready` on the normal way out. -/
  | leaving (ready : Bool)
  | removingPid
  | gone
  deriving DecidableEq, Repr

/-- The process has the lock. -/
def Stage.holds : Stage → Bool
  | .starting | .leaving _ | .removingPid | .gone => false
  | _ => true

/-- The process has the lock and has bound, or tried to. -/
def Stage.stands : Stage → Bool
  | .bound | .running | .serving | .closing | .ended | .notReady | .failing => true
  | _ => false

/-- The process can be connected to. -/
def Stage.listens : Stage → Bool
  | .bound | .running | .serving | .closing | .notReady | .leaving false => true
  | _ => false

def Stage.isLeaving : Stage → Bool
  | .leaving _ => true
  | _ => false

/-- What the phone plane can be told: to stop, or to dial, accept or reject. -/
inductive CallCmd where
  | shutdown
  | call
  deriving DecidableEq, Repr

/-- Places in the channel to the phone plane. -/
def callCmdQueue : Nat := 32

/-- What a daemon process does, or what is done to it. A flag says whether the
call that may fail went through. -/
inductive Act where
  | tryLock
  /-- `remove_file` on the socket file that is there. -/
  | clear (removed : Bool)
  | bind (ok : Bool)
  | writePid (ok : Bool)
  | ready (ok : Bool)
  /-- A client connects to the control socket. -/
  | connect
  /-- A control connection has been handled. -/
  | hangup
  /-- One sends a command to the phone plane. -/
  | send (cmd : CallCmd)
  /-- The phone plane takes the next command. -/
  | take
  /-- The phone plane returns, or panics. -/
  | planeEnded
  | dropLock
  | unlink (removed : Bool)
  | removePid (removed : Bool)
  | kill
  deriving DecidableEq, Repr

structure Event where
  daemon : Nat
  act : Act
  deriving DecidableEq, Repr

structure State where
  lock : Option Nat
  /-- The socket file, by the daemon that has bound it. -/
  sock : Option Nat
  /-- The pid file, by the daemon that has written it. -/
  pidFile : Option Nat
  stage : Nat → Stage
  /-- The control connections to each daemon that are not handled yet. -/
  conns : Nat → Nat
  /-- Sent to the phone plane of each daemon and not yet taken. -/
  queue : Nat → List CallCmd

/-- No daemon has run in this directory. -/
def State.start : State := ⟨none, none, none, fun _ => .starting, fun _ => 0, fun _ => []⟩

def State.goto (state : State) (n : Nat) (stage : Stage) : State :=
  { state with stage := Function.update state.stage n stage }

def State.count (state : State) (n conns : Nat) : State :=
  { state with conns := Function.update state.conns n conns }

def State.channel (state : State) (n : Nat) (cmds : List CallCmd) : State :=
  { state with queue := Function.update state.queue n cmds }

/-- Unlocking the own lock file. -/
def State.release (state : State) (n : Nat) : State :=
  { state with lock := if state.lock = some n then none else state.lock }

@[simp]
theorem State.lock_goto (state : State) (n : Nat) (stage : Stage) :
    (state.goto n stage).lock = state.lock := rfl

@[simp]
theorem State.sock_goto (state : State) (n : Nat) (stage : Stage) :
    (state.goto n stage).sock = state.sock := rfl

@[simp]
theorem State.stage_goto_self (state : State) (n : Nat) (stage : Stage) :
    (state.goto n stage).stage n = stage := Function.update_self ..

@[simp]
theorem State.queue_channel_self (state : State) (n : Nat) (cmds : List CallCmd) :
    (state.channel n cmds).queue n = cmds := Function.update_self ..

theorem State.stage_goto_of_ne {n m : Nat} (distinct : m ≠ n) (state : State) (stage : Stage) :
    (state.goto n stage).stage m = state.stage m := Function.update_of_ne distinct ..

/-- Any number of daemon processes on one set of files. -/
def step (state : State) : Event → Option State
  | ⟨n, act⟩ =>
      match state.stage n, act with
      | .starting, .tryLock =>
          if state.lock = none then some { state.goto n .locked with lock := some n }
          else some (state.goto n .gone)
      | .locked, .clear removed =>
          some { state.goto n .binding with sock := if removed then none else state.sock }
      | .binding, .bind ok =>
          -- a file that is still there fails the bind
          if ok ∧ state.sock = none then some { state.goto n .bound with sock := some n }
          else some (state.goto n .failing)
      | .bound, .writePid ok =>
          if ok then some { state.goto n .running with pidFile := some n }
          else some (state.goto n .failing)
      | .running, .ready ok => some (state.goto n (if ok then .serving else .notReady))
      | .serving, .send cmd =>
          -- a full channel keeps the connection waiting
          if 0 < state.conns n ∧ (state.queue n).length < callCmdQueue then
            some (state.channel n (state.queue n ++ [cmd]))
          else none
      | .serving, .take =>
          match state.queue n with
          | [] => none
          | .shutdown :: rest => some ((state.goto n .closing).channel n rest)
          | .call :: rest => some (state.channel n rest)
      -- a phone plane that panics ends its daemon like one that returns
      | .serving, .planeEnded => some (state.goto n .ended)
      | .closing, .planeEnded => some (state.goto n .ended)
      | .ended, .dropLock => some ((state.goto n (.leaving true)).release n)
      | .notReady, .dropLock => some ((state.goto n (.leaving false)).release n)
      | .failing, .dropLock => some ((state.goto n .gone).release n)
      | .leaving ready, .unlink removed =>
          some { state.goto n (if ready then .removingPid else .gone) with
            sock := if removed then none else state.sock }
      | .removingPid, .removePid removed =>
          some { state.goto n .gone with pidFile := if removed then none else state.pidFile }
      | stage, .connect =>
          if state.sock = some n ∧ stage.listens then some (state.count n (state.conns n + 1))
          else none
      | _, .hangup =>
          if 0 < state.conns n then some (state.count n (state.conns n - 1)) else none
      | stage, .kill =>
          if stage = .gone then none else some ((state.goto n .gone).release n)
      | _, _ => none

/-! ## What a step can do -/

/-- What a step of daemon `m` can do to the lock, the socket file and the stages. -/
structure Moves (state : State) (m : Nat) (act : Act) (next : State) : Prop where
  others : ∀ n, n ≠ m → next.stage n = state.stage n
  lock : (next.lock = state.lock ∧ (next.stage m).holds = (state.stage m).holds) ∨
    (state.lock = none ∧ state.stage m = .starting ∧ next.lock = some m ∧
      (next.stage m).holds = true) ∨
    ((next.stage m).holds = false ∧ next.lock = if state.lock = some m then none else state.lock)
  sock : next.sock = state.sock ∨
    (next.sock = none ∧ (state.stage m = .locked ∨ act = .unlink true)) ∨
    (next.sock = some m ∧ state.stage m = .binding)
  unlink : ∀ removed, act = .unlink removed → (state.stage m).isLeaving = true ∧
    (removed = true → next.sock = none)
  leaving : (next.stage m).isLeaving = true →
    (state.stage m).isLeaving = true ∨ (state.stage m).holds = true
  stands : (state.stage m).stands = true → (next.stage m).holds = true →
    (next.stage m).stands = true
  started : next.stage m = .starting → state.stage m = .starting

/-- A step that changes the stage of the daemon and leaves the lock alone. -/
theorem Moves.of_goto {state next : State} {m : Nat} {act : Act} {stage : Stage}
    (reached : next.stage = (state.goto m stage).stage) (lock : next.lock = state.lock)
    (holds : stage.holds = (state.stage m).holds)
    (sock : next.sock = state.sock ∨
      (next.sock = none ∧ (state.stage m = .locked ∨ act = .unlink true)) ∨
      (next.sock = some m ∧ state.stage m = .binding))
    (unlink : ∀ removed, act = .unlink removed → (state.stage m).isLeaving = true ∧
      (removed = true → next.sock = none))
    (leaving : stage.isLeaving = false)
    (stands : (state.stage m).stands = true → stage.stands = true)
    (started : stage ≠ .starting) : Moves state m act next where
  others n distinct := by rw [reached, State.stage_goto_of_ne distinct]
  lock := .inl ⟨lock, by rw [reached, State.stage_goto_self, holds]⟩
  sock := sock
  unlink := unlink
  leaving left := by
    rw [reached, State.stage_goto_self, leaving] at left
    cases left
  stands stood _ := by
    rw [reached, State.stage_goto_self]
    exact stands stood
  started first := by
    rw [reached, State.stage_goto_self] at first
    exact absurd first started

/-- A step by which the daemon lets go of its lock. -/
theorem Moves.of_release {state : State} {m : Nat} {act : Act} {stage : Stage}
    (free : stage.holds = false) (unlink : ∀ removed, act ≠ .unlink removed)
    (leaving : stage.isLeaving = true → (state.stage m).holds = true)
    (started : stage ≠ .starting) : Moves state m act ((state.goto m stage).release m) where
  others n distinct := State.stage_goto_of_ne distinct ..
  lock := .inr (.inr ⟨by rw [State.release, State.stage_goto_self, free], rfl⟩)
  sock := .inl rfl
  unlink removed same := absurd same (unlink removed)
  leaving left := .inr (leaving (by rwa [State.release, State.stage_goto_self] at left))
  stands _ held := by
    rw [State.release, State.stage_goto_self, free] at held
    cases held
  started first := by
    rw [State.release, State.stage_goto_self] at first
    exact absurd first started

/-- A step that leaves stages and files alone. -/
theorem Moves.of_same {state next : State} {m : Nat} {act : Act} (stage : next.stage = state.stage)
    (lock : next.lock = state.lock) (sock : next.sock = state.sock)
    (unlink : ∀ removed, act ≠ .unlink removed) : Moves state m act next where
  others _ _ := by rw [stage]
  lock := .inl ⟨lock, by rw [stage]⟩
  sock := .inl sock
  unlink removed same := absurd same (unlink removed)
  leaving left := .inl (by rwa [stage] at left)
  stands stood _ := by rwa [stage]
  started first := by rwa [stage] at first

/-- A daemon that has the lock and keeps it moves on, and its files stay. -/
theorem Moves.of_holding {state next : State} {m : Nat} {act : Act} {stage : Stage}
    (reached : next.stage = (state.goto m stage).stage) (lock : next.lock = state.lock)
    (sock : next.sock = state.sock) (unlink : ∀ removed, act ≠ .unlink removed)
    (held : (state.stage m).holds = true) (holds : stage.holds = true)
    (stands : (state.stage m).stands = true → stage.stands = true) : Moves state m act next := by
  refine .of_goto reached lock (holds.trans held.symm) (.inl sock)
    (fun removed same => absurd same (unlink removed)) ?_ stands ?_
  · cases stage with
    | leaving ready => cases holds
    | _ => rfl
  · rintro rfl
    cases holds

theorem step_moves {state next : State} {m : Nat} {act : Act}
    (taken : step state ⟨m, act⟩ = some next) : Moves state m act next := by
  dsimp only [step] at taken
  split at taken
  case h_1 place =>
    split at taken
    case isTrue free =>
      cases taken
      exact
        { others := fun n distinct => State.stage_goto_of_ne distinct ..
          lock := .inr (.inl ⟨free, place, rfl, by rw [State.stage_goto_self]; rfl⟩)
          sock := .inl rfl
          unlink := nofun
          leaving := fun left => by rw [State.stage_goto_self] at left; cases left
          stands := fun stood _ => by rw [place] at stood; cases stood
          started := fun _ => place }
    case isFalse =>
      cases taken
      exact .of_goto rfl rfl (by rw [place]; rfl) (.inl rfl) nofun rfl
        (by rw [place]; nofun) nofun
  case h_2 removed place =>
    cases taken
    refine .of_goto rfl rfl (by rw [place]; rfl) ?_ nofun rfl (by rw [place]; nofun) nofun
    cases removed with
    | true => exact .inr (.inl ⟨rfl, .inl place⟩)
    | false => exact .inl rfl
  case h_3 ok place =>
    split at taken
    · cases taken
      exact .of_goto rfl rfl (by rw [place]; rfl) (.inr (.inr ⟨rfl, place⟩)) nofun rfl
        (fun _ => rfl) nofun
    · cases taken
      exact .of_holding rfl rfl rfl nofun (by rw [place]; rfl) rfl fun _ => rfl
  case h_4 ok place =>
    split at taken
    · cases taken
      exact .of_holding rfl rfl rfl nofun (by rw [place]; rfl) rfl fun _ => rfl
    · cases taken
      exact .of_holding rfl rfl rfl nofun (by rw [place]; rfl) rfl fun _ => rfl
  case h_5 ok place =>
    cases taken
    refine .of_holding rfl rfl rfl nofun (by rw [place]; rfl) ?_ fun _ => ?_
    · cases ok <;> rfl
    · cases ok <;> rfl
  case h_6 cmd place =>
    obtain ⟨_, same⟩ := Option.ite_none_right_eq_some.mp taken
    cases same
    exact .of_same rfl rfl rfl nofun
  case h_7 place =>
    split at taken
    · cases taken
    · cases taken
      exact .of_holding rfl rfl rfl nofun (by rw [place]; rfl) rfl fun _ => rfl
    · cases taken
      exact .of_same rfl rfl rfl nofun
  case h_8 place =>
    cases taken
    exact .of_holding rfl rfl rfl nofun (by rw [place]; rfl) rfl fun _ => rfl
  case h_9 place =>
    cases taken
    exact .of_holding rfl rfl rfl nofun (by rw [place]; rfl) rfl fun _ => rfl
  case h_10 place =>
    cases taken
    exact .of_release rfl nofun (fun _ => by rw [place]; rfl) nofun
  case h_11 place =>
    cases taken
    exact .of_release rfl nofun (fun _ => by rw [place]; rfl) nofun
  case h_12 place =>
    cases taken
    exact .of_release rfl nofun nofun nofun
  case h_13 ready removed place =>
    cases taken
    refine .of_goto rfl rfl ?_ ?_ ?_ ?_ ?_ ?_
    · rw [place]
      cases ready <;> rfl
    · cases removed with
      | true => exact .inr (.inl ⟨rfl, .inr rfl⟩)
      | false => exact .inl rfl
    · rintro removed' same
      cases same
      exact ⟨by rw [place]; rfl, fun sure => if_pos sure⟩
    · cases ready <;> rfl
    · rw [place]
      nofun
    · cases ready <;> nofun
  case h_14 removed place =>
    cases taken
    exact .of_goto rfl rfl (by rw [place]; rfl) (.inl rfl) nofun rfl (by rw [place]; nofun) nofun
  case h_15 | h_16 =>
    obtain ⟨_, same⟩ := Option.ite_none_right_eq_some.mp taken
    cases same
    exact .of_same rfl rfl rfl nofun
  case h_17 =>
    obtain ⟨_, same⟩ := Option.ite_none_left_eq_some.mp taken
    cases same
    exact .of_release rfl nofun nofun nofun
  case h_18 => cases taken

theorem step_others {state next : State} {m n : Nat} {act : Act}
    (taken : step state ⟨m, act⟩ = some next) (distinct : n ≠ m) :
    next.stage n = state.stage n :=
  (step_moves taken).others n distinct

theorem started_step {state next : State} {n : Nat} {event : Event}
    (taken : step state event = some next) (started : state.stage n ≠ .starting) :
    next.stage n ≠ .starting := by
  by_cases own : n = event.daemon
  · subst own
    exact fun first => started ((step_moves taken).started first)
  · rw [step_others taken own]
    exact started

/-! ## One daemon at a time -/

/-- The lock is with the one process that has it. -/
def Exclusive (state : State) : Prop :=
  ∀ n, (state.stage n).holds = true ↔ state.lock = some n

theorem exclusive_start : Exclusive .start := fun _ => ⟨nofun, nofun⟩

theorem exclusive_step {state next : State} {event : Event} (exclusive : Exclusive state)
    (taken : step state event = some next) : Exclusive next := by
  intro n
  have moves := step_moves taken
  by_cases own : n = event.daemon
  · subst own
    rcases moves.lock with ⟨lock, holds⟩ | ⟨-, -, lock, holds⟩ | ⟨holds, lock⟩
    · rw [lock, holds]
      exact exclusive _
    · exact ⟨fun _ => lock, fun _ => holds⟩
    · rw [holds, lock]
      refine ⟨nofun, fun same => ?_⟩
      split at same
      · cases same
      · contradiction
  · rw [moves.others n own, exclusive n]
    rcases moves.lock with ⟨lock, -⟩ | ⟨free, -, lock, -⟩ | ⟨-, lock⟩
    · rw [lock]
    · rw [lock, free]
      exact ⟨nofun, fun same => absurd (Option.some.inj same).symm own⟩
    · rw [lock]
      split
      · rename_i held
        rw [held]
        exact ⟨fun same => absurd (Option.some.inj same).symm own, nofun⟩
      · rfl

theorem exclusive_run {state : State} {events : List Event}
    (ran : run step .start events = some state) : Exclusive state :=
  (allStates_of_invariant (fun _ _ _ => exclusive_step) exclusive_start events).final ran

/-! ## A daemon that stands -/

/-- The daemon has bound its socket and still has the lock. -/
structure Standing (state : State) (n : Nat) : Prop where
  lock : state.lock = some n
  stands : (state.stage n).stands = true

theorem Standing.ne_starting {state : State} {n : Nat} (standing : Standing state n) :
    state.stage n ≠ .starting := by
  intro first
  have stands := standing.stands
  rw [first] at stands
  cases stands

/-- Of the processes with the lock there is the standing daemon only. -/
theorem Standing.eq {state : State} {n m : Nat} (standing : Standing state n)
    (exclusive : Exclusive state) (holds : (state.stage m).holds = true) : m = n :=
  Option.some.inj (((exclusive m).mp holds).symm.trans standing.lock)

theorem Stage.not_holds_of_isLeaving {stage : Stage} (leaving : stage.isLeaving = true) :
    stage.holds = false := by
  cases stage with
  | leaving ready => rfl
  | _ => cases leaving

/-- No daemon gets a lock back that it has let go. -/
theorem lock_earlier {state next : State} {n : Nat} {event : Event}
    (taken : step state event = some next) (started : state.stage n ≠ .starting)
    (still : next.lock = some n) : state.lock = some n := by
  rcases (step_moves taken).lock with ⟨lock, -⟩ | ⟨-, first, lock, -⟩ | ⟨-, lock⟩
  · rwa [lock] at still
  · cases lock.symm.trans still
    exact absurd first started
  · rw [lock] at still
    split at still
    · cases still
    · exact still

theorem lock_earlier_run {state final : State} {n : Nat} {events : List Event}
    (ran : run step state events = some final) (started : state.stage n ≠ .starting)
    (still : final.lock = some n) : state.lock = some n := by
  induction events generalizing state with
  | nil =>
      cases ran
      exact still
  | cons event rest ih =>
      obtain ⟨next, taken, ran⟩ := Option.bind_eq_some_iff.mp ran
      exact lock_earlier taken started (ih ran (started_step taken started))

section Standing

variable {state next : State} {n : Nat} {event : Event}

theorem Standing.step (standing : Standing state n) (exclusive : Exclusive state)
    (taken : step state event = some next) (still : next.lock = some n) : Standing next n := by
  refine ⟨still, ?_⟩
  by_cases own : n = event.daemon
  · subst own
    exact (step_moves taken).stands standing.stands
      ((exclusive_step exclusive taken _).mpr still)
  · rw [step_others taken own]
    exact standing.stands

/-- While a daemon stands its socket file goes only where one that leaves removes it. -/
theorem Standing.sock (standing : Standing state n) (exclusive : Exclusive state)
    (taken : CallFiles.step state event = some next) :
    next.sock = if event.act = .unlink true then none else state.sock := by
  have moves := step_moves taken
  have early : ∀ stage : Stage, state.stage event.daemon = stage → stage.holds = true →
      stage.stands = true := by
    intro stage place holds
    have same : event.daemon = n := standing.eq exclusive (place ▸ holds)
    rw [← place, same]
    exact standing.stands
  split
  · rename_i unlink
    exact (moves.unlink true unlink).2 rfl
  · rename_i other
    rcases moves.sock with same | ⟨-, place | unlink⟩ | ⟨-, place⟩
    · exact same
    · cases early _ place rfl
    · exact absurd unlink other
    · cases early _ place rfl

/-- While a daemon stands no other one drops the lock. -/
theorem Standing.leaving (standing : Standing state n) (exclusive : Exclusive state)
    (taken : CallFiles.step state event = some next) (still : next.lock = some n) {m : Nat}
    (leaving : (next.stage m).isLeaving = true) : (state.stage m).isLeaving = true := by
  by_cases own : m = event.daemon
  · subst own
    rcases (step_moves taken).leaving leaving with before | holds
    · exact before
    · -- it has the lock, so it is the standing one, which keeps it
      have held := (exclusive_step exclusive taken n).mpr still
      have same : event.daemon = n := standing.eq exclusive holds
      rw [← same, Stage.not_holds_of_isLeaving leaving] at held
      cases held
  · rwa [step_others taken own] at leaving

end Standing

/-- Some daemon removes the socket file. -/
def unlinks (events : List Event) : Bool := events.any fun event => event.act = .unlink true

theorem unlinks_iff {events : List Event} :
    unlinks events = true ↔ ∃ m, ⟨m, .unlink true⟩ ∈ events := by
  rw [unlinks, List.any_eq_true]
  constructor
  · rintro ⟨⟨m, act⟩, member, same⟩
    cases of_decide_eq_true same
    exact ⟨m, member⟩
  · rintro ⟨m, member⟩
    exact ⟨_, member, decide_eq_true rfl⟩

/-- A run through which a daemon stands. -/
theorem standing_run {state final : State} {n : Nat} {events : List Event}
    (exclusive : Exclusive state) (standing : Standing state n)
    (ran : run step state events = some final) (still : final.lock = some n) :
    final.sock = (if unlinks events then none else state.sock) ∧
      ∀ m removed, ⟨m, .unlink removed⟩ ∈ events → m ≠ n ∧ (state.stage m).isLeaving = true := by
  induction events generalizing state with
  | nil =>
      cases ran
      exact ⟨rfl, nofun⟩
  | cons event rest ih =>
      obtain ⟨next, taken, ran⟩ := Option.bind_eq_some_iff.mp ran
      have started := started_step taken standing.ne_starting
      have held : next.lock = some n := lock_earlier_run ran started still
      obtain ⟨sock, leavers⟩ := ih (exclusive_step exclusive taken)
        (standing.step exclusive taken held) ran
      constructor
      · rw [sock, standing.sock exclusive taken, unlinks, unlinks, List.any_cons]
        by_cases unlink : event.act = .unlink true
        · rw [if_pos unlink, ite_self, decide_eq_true unlink, Bool.true_or, if_pos rfl]
        · rw [if_neg unlink, decide_eq_false unlink, Bool.false_or]
      · intro m removed member
        rcases List.mem_cons.mp member with rfl | member
        · have leaving := ((step_moves taken).unlink removed rfl).1
          refine ⟨?_, leaving⟩
          rintro rfl
          have holds := (exclusive m).mpr standing.lock
          rw [Stage.not_holds_of_isLeaving leaving] at holds
          cases holds
        · obtain ⟨distinct, leaving⟩ := leavers m removed member
          exact ⟨distinct, standing.leaving exclusive taken held leaving⟩

/-- A bind leaves the daemon with the lock. -/
theorem standing_of_bind {state next : State} {n : Nat} (exclusive : Exclusive state)
    (binds : step state ⟨n, .bind true⟩ = some next) :
    Standing next n := by
  cases place : state.stage n with
  | binding =>
      have lock : state.lock = some n := (exclusive n).mp (by rw [place]; rfl)
      simp only [step, place] at binds
      split at binds
      · cases binds
        exact ⟨lock, by rw [State.stage_goto_self]; rfl⟩
      · cases binds
        exact ⟨lock, by rw [State.stage_goto_self]; rfl⟩
  | _ => simp [step, place] at binds

/-- A daemon comes up. -/
def comesUp (n : Nat) : List Event :=
  [⟨n, .tryLock⟩, ⟨n, .clear true⟩, ⟨n, .bind true⟩, ⟨n, .writePid true⟩, ⟨n, .ready true⟩]

/-- A client shuts a daemon down, which gets as far as dropping its lock. -/
def goesDown (n : Nat) : List Event :=
  [⟨n, .connect⟩, ⟨n, .send .shutdown⟩, ⟨n, .take⟩, ⟨n, .planeEnded⟩, ⟨n, .dropLock⟩]

/-- The socket file of a call daemon that has bound it and still has the lock is its own
unless another daemon has removed it; and only a daemon does that which had dropped the lock
before this one bound. -/
theorem socket_kept_iff {before after : List Event} {earlier bound final : State} {n : Nat}
    (ran : run step .start before = some earlier)
    (binds : step earlier ⟨n, .bind true⟩ = some bound) (opened : bound.sock = some n)
    (later : run step bound after = some final) (still : final.lock = some n) :
    (final.sock = some n ↔ ∀ m, ⟨m, .unlink true⟩ ∉ after) ∧
      (final.sock = some n ∨ final.sock = none) ∧
      ∀ m removed, ⟨m, .unlink removed⟩ ∈ after →
        m ≠ n ∧ (earlier.stage m).isLeaving = true := by
  have exclusive := exclusive_run ran
  have standing := standing_of_bind exclusive binds
  obtain ⟨sock, leavers⟩ := standing_run (exclusive_step exclusive binds) standing later still
  rw [opened] at sock
  refine ⟨?_, ?_, ?_⟩
  · rw [sock, ← not_exists, ← unlinks_iff]
    cases unlinks after with
    | true => exact ⟨nofun, fun none => absurd rfl none⟩
    | false => exact ⟨fun _ => nofun, fun _ => rfl⟩
  · rw [sock]
    split
    · exact .inr rfl
    · exact .inl rfl
  · intro m removed member
    obtain ⟨distinct, leaving⟩ := leavers m removed member
    rw [step_others binds distinct] at leaving
    exact ⟨distinct, leaving⟩

/-- The daemon that leaves removes the socket file of the next one. -/
theorem socket_kept_iff_overtaken :
    ∃ earlier bound final,
      run step .start (comesUp 0 ++ goesDown 0 ++ [⟨1, .tryLock⟩, ⟨1, .clear true⟩]) =
        some earlier ∧
      step earlier ⟨1, .bind true⟩ = some bound ∧
      run step bound [⟨1, .writePid true⟩, ⟨0, .unlink true⟩, ⟨1, .ready true⟩] = some final ∧
      final.stage 1 = .serving ∧ final.sock ≠ some 1 ∧ earlier.stage 0 = .leaving true := by
  refine ⟨_, _, _, rfl, rfl, rfl, rfl, ?_, rfl⟩
  have settled := @socket_kept_iff
    (comesUp 0 ++ goesDown 0 ++ [⟨1, .tryLock⟩, ⟨1, .clear true⟩])
    [⟨1, .writePid true⟩, ⟨0, .unlink true⟩, ⟨1, .ready true⟩] _ _ _ 1 rfl rfl rfl rfl rfl
  exact fun kept => settled.1.mp kept 0 (by decide)

/-! ## A daemon without its socket file -/

/-- The connections and the channel of another daemon stay as they are. -/
theorem calls_others {state next : State} {m n : Nat} {act : Act}
    (taken : step state ⟨m, act⟩ = some next) (distinct : n ≠ m) :
    next.conns n = state.conns n ∧ next.queue n = state.queue n := by
  dsimp only [step] at taken
  split at taken
  case h_1 | h_3 | h_4 => split at taken <;> cases taken <;> exact ⟨rfl, rfl⟩
  case h_6 =>
    obtain ⟨_, same⟩ := Option.ite_none_right_eq_some.mp taken
    cases same
    exact ⟨rfl, Function.update_of_ne distinct ..⟩
  case h_7 =>
    split at taken <;> cases taken <;> exact ⟨rfl, Function.update_of_ne distinct ..⟩
  case h_15 | h_16 =>
    obtain ⟨_, same⟩ := Option.ite_none_right_eq_some.mp taken
    cases same
    exact ⟨Function.update_of_ne distinct .., rfl⟩
  case h_17 =>
    obtain ⟨_, same⟩ := Option.ite_none_left_eq_some.mp taken
    cases same
    exact ⟨rfl, rfl⟩
  case h_18 => cases taken
  all_goals
    cases taken
    exact ⟨rfl, rfl⟩

/-- A serving daemon has lost its socket file, nobody is connected to it any more, and no
`Shutdown` is on its way to its phone plane. -/
structure Orphan (state : State) (n : Nat) : Prop where
  exclusive : Exclusive state
  serving : state.stage n = .serving
  sock : state.sock = none
  conns : state.conns n = 0
  untold : .shutdown ∉ state.queue n

theorem Orphan.standing {state : State} {n : Nat} (orphan : Orphan state n) :
    Standing state n where
  lock := (orphan.exclusive n).mp (by rw [orphan.serving]; rfl)
  stands := by rw [orphan.serving]; rfl

/-- All that an orphan still does is to work off its calls, until its phone plane ends by
itself or it is killed. -/
theorem Orphan.own {state next : State} {n : Nat} {act : Act} (orphan : Orphan state n)
    (taken : step state ⟨n, act⟩ = some next) :
    act = .kill ∨ act = .planeEnded ∨
      ∃ rest, state.queue n = .call :: rest ∧ next = state.channel n rest := by
  cases act with
  | kill => exact .inl rfl
  | planeEnded => exact .inr (.inl rfl)
  | take =>
      simp only [step, orphan.serving] at taken
      split at taken
      · cases taken
      · rename_i rest queued
        exact absurd (by rw [queued]; exact List.mem_cons_self) orphan.untold
      · rename_i rest queued
        cases taken
        exact .inr (.inr ⟨rest, queued, rfl⟩)
  | _ => simp [step, orphan.serving, orphan.sock, orphan.conns] at taken

theorem Orphan.step {state next : State} {n : Nat} {event : Event} (orphan : Orphan state n)
    (spared : event ≠ ⟨n, .kill⟩) (sane : event ≠ ⟨n, .planeEnded⟩)
    (taken : CallFiles.step state event = some next) : Orphan next n := by
  obtain ⟨m, act⟩ := event
  by_cases own : m = n
  · subst own
    rcases orphan.own taken with rfl | rfl | ⟨rest, queued, rfl⟩
    · exact absurd rfl spared
    · exact absurd rfl sane
    · refine ⟨exclusive_step orphan.exclusive taken, orphan.serving, orphan.sock, orphan.conns, ?_⟩
      rw [State.queue_channel_self]
      exact fun later => orphan.untold (by rw [queued]; exact List.mem_cons_of_mem _ later)
  · obtain ⟨conns, queue⟩ := calls_others taken (Ne.symm own)
    refine ⟨exclusive_step orphan.exclusive taken, ?_, ?_, ?_, ?_⟩
    · rw [step_others taken (Ne.symm own), orphan.serving]
    · rw [orphan.standing.sock orphan.exclusive taken, orphan.sock, ite_self]
    · rw [conns, orphan.conns]
    · rw [queue]
      exact orphan.untold

theorem Orphan.deaf {state : State} {n : Nat} (orphan : Orphan state n) (m : Nat) :
    CallFiles.step state ⟨m, .connect⟩ = none := by
  have shut : ¬ (state.sock = some m ∧ (state.stage m).listens = true) := by
    rw [orphan.sock]
    exact fun reached => nomatch reached.1
  cases place : state.stage m with
  | _ => simpa [CallFiles.step, place] using shut

/-- The lock is taken: `stream call daemon is already running`. -/
theorem Orphan.refuses {state next : State} {n m : Nat} (orphan : Orphan state n)
    (taken : CallFiles.step state ⟨m, .tryLock⟩ = some next) : next.stage m = .gone := by
  cases place : state.stage m with
  | starting =>
      simp only [CallFiles.step, place, orphan.standing.lock] at taken
      cases taken
      exact State.stage_goto_self ..
  | _ => simp [CallFiles.step, place] at taken

/-- Once a serving daemon has lost its socket file and its last control connection, and no
`Shutdown` is left in the channel, it serves until it is killed or its phone plane panics: no
process reaches it, so none can shut it down, and no daemon comes up beside it. -/
theorem orphan_stays {before later : List Event} {state : State} {n : Nat}
    (ran : run step .start before = some state) (serving : state.stage n = .serving)
    (lost : state.sock = none) (alone : state.conns n = 0) (untold : .shutdown ∉ state.queue n)
    (spared : ⟨n, .kill⟩ ∉ later) (sane : ⟨n, .planeEnded⟩ ∉ later) :
    AllStates step (fun reached =>
      reached.stage n = .serving ∧ (∀ m, step reached ⟨m, .connect⟩ = none) ∧
        ∀ m next, step reached ⟨m, .tryLock⟩ = some next → next.stage m = .gone) state later := by
  have orphan : Orphan state n := ⟨exclusive_run ran, serving, lost, alone, untold⟩
  have quiet : ∀ event ∈ later, event ≠ ⟨n, .kill⟩ ∧ event ≠ ⟨n, .planeEnded⟩ := by
    intro event member
    constructor
    · rintro rfl
      exact spared member
    · rintro rfl
      exact sane member
  have kept : AllStates step (Orphan · n) state later := by
    refine AllSteps.allStates (fun _ _ _ orphan clear => Orphan.step orphan clear.1 clear.2) orphan
      (.of_mem fun event member _ => quiet event member)
  exact kept.mono fun reached orphan =>
    ⟨orphan.serving, orphan.deaf, fun m next => orphan.refuses⟩

/-- A daemon loses its socket file to the one before it while a client calls through it. -/
theorem orphan_stays_overtaken :
    ∃ state, run step .start (comesUp 0 ++ goesDown 0 ++ comesUp 1 ++
        [⟨1, .connect⟩, ⟨0, .unlink true⟩, ⟨1, .send .call⟩, ⟨1, .hangup⟩]) = some state ∧
      AllStates step (fun reached =>
        reached.stage 1 = .serving ∧ (∀ m, step reached ⟨m, .connect⟩ = none) ∧
          ∀ m next, step reached ⟨m, .tryLock⟩ = some next → next.stage m = .gone)
        state [⟨1, .take⟩, ⟨0, .removePid true⟩, ⟨2, .tryLock⟩] :=
  ⟨_, rfl, @orphan_stays (comesUp 0 ++ goesDown 0 ++ comesUp 1 ++
    [⟨1, .connect⟩, ⟨0, .unlink true⟩, ⟨1, .send .call⟩, ⟨1, .hangup⟩]) _ _ 1
    rfl rfl rfl rfl (by decide) (by decide) (by decide)⟩

end LinkP2p.Daemon.CallFiles
