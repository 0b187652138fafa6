import LinkP2p.Tun.HubSession
import LinkP2p.Tun.PhoneClaim
import LinkP2p.Tun.SpokeMesh

/-!
# The phone daemon of the TUN

`run_tun_phone` is one loop that accepts connections, obeys the control plane and
lets rings time out; every outgoing dial and every session is a task of its own.
They share the map of active peers, the ring list and the published status. A
step runs one task to its next await. The daemon is past `Ready`.
-/

namespace LinkP2p.Tun.Phone

open LinkP2p.Lib LinkP2p.Lib.Transition
open LinkP2p.Tun.Hub (checkAllow)
open LinkP2p.Tun.Spoke (shouldDial)

inductive SessionPhase where
  | starting
  | idle
  | dialing
  | ringing
  | connected
  deriving DecidableEq, Repr

inductive PhaseEvent where
  | ready
  | beginDial
  | ring
  | connected
  | peerLeft
  | reset
  deriving DecidableEq, Repr

def SessionPhase.transition (phase : SessionPhase) (event : PhaseEvent) :
    Except (SessionPhase × PhaseEvent) SessionPhase :=
  match phase, event with
  | .starting, .ready => .ok .idle
  | .starting, .connected => .ok .connected
  | .idle, .beginDial => .ok .dialing
  | .idle, .ring => .ok .ringing
  | .idle, .connected => .ok .connected
  | .dialing, .connected => .ok .connected
  | .dialing, .peerLeft | .dialing, .reset => .ok .idle
  | .dialing, .ring => .ok .ringing
  | .ringing, .connected => .ok .connected
  | .ringing, .peerLeft | .ringing, .reset => .ok .idle
  | .ringing, .ring => .ok .ringing
  | .connected, .peerLeft | .connected, .reset => .ok .idle
  | .connected, .beginDial => .ok .dialing
  | .connected, .ring => .ok .ringing
  | phase, .ready => .ok phase
  | .connected, .connected => .ok .connected
  | .idle, .reset | .idle, .peerLeft => .ok .idle
  | phase, event => .error (phase, event)

/-- `apply_phase`: a refused event is logged and leaves the phase. -/
def SessionPhase.apply (phase : SessionPhase) (event : PhaseEvent) : SessionPhase :=
  match phase.transition event with
  | .ok next => next
  | .error _ => phase

/-- A connection, by its number. -/
abbrev Connection := Nat

structure Ringing where
  peer : EndpointId
  conn : Connection
  sinceUnixMs : Nat
  deriving DecidableEq, Repr

structure PendingCall where
  peer : EndpointId
  sinceUnixMs : Nat
  direction : String
  deriving DecidableEq, Repr

/-- What `publish_pending` shows of a ring. -/
def PendingCall.of (ring : Ringing) : PendingCall := ⟨ring.peer, ring.sinceUnixMs, "in"⟩

inductive Alpn where
  /-- `link-p2p/tun/0` -/
  | tun
  /-- `link-p2p/ping/0` -/
  | ping
  deriving DecidableEq, Repr

/-- The arguments of `run_tun_phone`, what it asks of the contact book, which it loads
once, and of `build_dial_addr`. -/
structure PhoneConfig where
  ownId : EndpointId
  own : OwnVips
  allow : Option (Finset EndpointId)
  isKnownContact : EndpointId → Bool
  resolvePeerToken : String → Option EndpointId
  matchPeerToken : String → EndpointId → Bool
  buildDialAddr : EndpointId → Bool

/-! ## The tasks -/

/-- Where `phone_reconcile_phase_after_ring` stands. -/
inductive Reconcile where
  /-- Before `peers.load()`. -/
  | peers
  /-- In `ringing.read().await`. -/
  | rings
  /-- Before `apply_phase` of its three branches. -/
  | connected
  | ring
  | peerLeft
  deriving DecidableEq, Repr

/-- What follows a `publish_pending` of the loop. -/
inductive AfterPublish where
  | select
  /-- An accept has taken this ring. -/
  | answer (ring : Ringing)
  | reconcile
  deriving DecidableEq, Repr

/-- Where the loop stands. -/
inductive MainLoop where
  | selecting
  /-- In `accepting.await`. -/
  | handshaking
  /-- With the call of a stranger, in `ringing.write().await`. -/
  | pushing (peer : EndpointId) (conn : Connection)
  /-- The ring is in the list, the phase is not yet written. -/
  | ringPhase
  | publishing (next : AfterPublish)
  /-- Before `spawn_phone_session` of an accepted ring. -/
  | spawning (ring : Ringing)
  /-- Past all checks of a `Dial`, before the phase is written. -/
  | dialPhase (peer : EndpointId)
  | accepting (token : String)
  | rejecting (token : String)
  | ticking (expired : List Connection)
  | reconciling (at_ : Reconcile)
  deriving DecidableEq, Repr

def AfterPublish.stage : AfterPublish → MainLoop
  | .select => .selecting
  | .answer ring => .spawning ring
  | .reconcile => .reconciling .peers

/-- Where the task of an outgoing dial stands. -/
inductive DialStage where
  /-- In `endpoint.connect`. -/
  | connecting
  | reconciling (at_ : Reconcile)
  deriving DecidableEq, Repr

structure Dial where
  peer : EndpointId
  stage : DialStage
  deriving DecidableEq, Repr

/-- Where `phone_run_peer` and the task around it stand. -/
inductive CallStage where
  /-- In `exchange_peer_vips`. -/
  | exchanging
  /-- The claim was told that it has succeeded. -/
  | routing (entry : ActivePeer)
  /-- The route is there, the phase is not yet written. -/
  | announcing (entry : ActivePeer)
  | running (entry : ActivePeer)
  | reconciling (at_ : Reconcile)
  deriving DecidableEq, Repr

/-- A session of `spawn_phone_session`. -/
structure Call where
  peer : EndpointId
  conn : Connection
  dialer : Bool
  stage : CallStage
  deriving DecidableEq, Repr

structure Daemon where
  phase : SessionPhase
  peers : ActivePeers
  ringing : List Ringing
  pending : List PendingCall
  main : MainLoop
  dials : HashMap Nat Dial
  calls : HashMap Nat Call
  nextTask : Nat
  nextConn : Connection

/-- The daemon after `Ready`. -/
def Daemon.start : Daemon where
  phase := .idle
  peers := ∅
  ringing := []
  pending := []
  main := .selecting
  dials := ∅
  calls := ∅
  nextTask := 0
  nextConn := 0

/-- `!peers.load().is_empty()` -/
def Daemon.active (daemon : Daemon) : Bool := daemon.peers.anyValue fun _ => true

/-- What a task does to the cells it shares with the others. -/
inductive Effect where
  | silent
  | applyPhase (event : PhaseEvent)
  /-- A connection is established that no session has yet. -/
  | arrive
  | pushRing (ring : Ringing)
  | unring (kept : List Ringing)
  | publishPending
  | storePeers (peers : ActivePeers)
  /-- The phase, and the task of the dial. -/
  | beginDial (peer : EndpointId)
  | spawn (peer : EndpointId) (conn : Connection) (dialer : Bool)

def Effect.apply (daemon : Daemon) : Effect → Daemon
  | .silent => daemon
  | .applyPhase event => { daemon with phase := daemon.phase.apply event }
  | .arrive => { daemon with nextConn := daemon.nextConn + 1 }
  | .pushRing ring => { daemon with ringing := daemon.ringing ++ [ring] }
  | .unring kept => { daemon with ringing := kept }
  | .publishPending => { daemon with pending := daemon.ringing.map .of }
  | .storePeers peers => { daemon with peers := peers }
  | .beginDial peer =>
      { daemon with
        phase := daemon.phase.apply .beginDial
        dials := daemon.dials.put daemon.nextTask ⟨peer, .connecting⟩
        nextTask := daemon.nextTask + 1 }
  | .spawn peer conn dialer =>
      { daemon with
        calls := daemon.calls.put daemon.nextTask ⟨peer, conn, dialer, .exchanging⟩
        nextTask := daemon.nextTask + 1
        nextConn := max daemon.nextConn (conn + 1) }

/-- One step of `phone_reconcile_phase_after_ring`; `none` when it is over. -/
def reconcileStep (daemon : Daemon) : Reconcile → Option Reconcile × Effect
  | .peers => (some (if daemon.active then .connected else .rings), .silent)
  | .rings => (some (if daemon.ringing.isEmpty then .peerLeft else .ring), .silent)
  | .connected => (none, .applyPhase .connected)
  | .ring => (none, .applyPhase .ring)
  | .peerLeft => (none, .applyPhase .peerLeft)

inductive MainEvent where
  | incoming
  /-- `incoming.accept()` or the handshake fails. -/
  | failed
  | handshaken (peer : EndpointId) (alpn : Alpn)
  | push (sinceUnixMs : Nat)
  | dial (target : String)
  | accept (peer : String)
  | reject (peer : String)
  /-- The tick, with the rings that have waited longer than `RING_TIMEOUT`. -/
  | tick (expired : List Connection)
  | next
  deriving DecidableEq, Repr

/-- The loop decides over an established connection. -/
def handshaken (config : PhoneConfig) (daemon : Daemon) (peer : EndpointId) : MainLoop × Effect :=
  if !checkAllow config.allow peer then (.selecting, .arrive)
  else if daemon.peers.containsKey peer then (.selecting, .arrive)
  else if config.isKnownContact peer then (.selecting, .spawn peer daemon.nextConn false)
  else (.pushing peer daemon.nextConn, .arrive)

/-- `CallCmd::Dial` up to its phase event. -/
def dial (config : PhoneConfig) (daemon : Daemon) (target : String) : MainLoop :=
  match config.resolvePeerToken target with
  | none => .selecting
  | some peer =>
      if peer = config.ownId then .selecting
      else if daemon.peers.containsKey peer then .selecting
      -- only the lower id dials when both know each other
      else if config.isKnownContact peer && !shouldDial config.ownId peer then .selecting
      else if config.buildDialAddr peer then .dialPhase peer
      else .selecting

/-- The first ring that the token matches. -/
def findRing (config : PhoneConfig) (daemon : Daemon) (token : String) : Option Ringing :=
  daemon.ringing.find? fun ring => config.matchPeerToken token ring.peer

/-- The list without it. -/
def dropRing (config : PhoneConfig) (daemon : Daemon) (token : String) : List Ringing :=
  daemon.ringing.eraseP fun ring => config.matchPeerToken token ring.peer

/-- One step of the loop. -/
def mainStep (config : PhoneConfig) (daemon : Daemon) :
    MainLoop → MainEvent → Option (MainLoop × Effect)
  | .selecting, .incoming => some (.handshaking, .silent)
  | .handshaking, .failed => some (.selecting, .silent)
  | .handshaking, .handshaken _ .ping => some (.selecting, .arrive)
  | .handshaking, .handshaken peer .tun => some (handshaken config daemon peer)
  | .pushing peer conn, .push sinceUnixMs =>
      some (.ringPhase, .pushRing ⟨peer, conn, sinceUnixMs⟩)
  | .ringPhase, .next => some (.publishing .select, .applyPhase .ring)
  | .publishing next, .next => some (next.stage, .publishPending)
  | .spawning ring, .next => some (.selecting, .spawn ring.peer ring.conn false)
  | .reconciling at_, .next =>
      let (after, effect) := reconcileStep daemon at_
      some (after.elim .selecting .reconciling, effect)
  | .selecting, .dial target => some (dial config daemon target, .silent)
  | .dialPhase peer, .next => some (.selecting, .beginDial peer)
  | .selecting, .accept token => some (.accepting token, .silent)
  | .accepting token, .next =>
      match findRing config daemon token with
      | none => some (.publishing .select, .silent)
      | some ring => some (.publishing (.answer ring), .unring (dropRing config daemon token))
  | .selecting, .reject token => some (.rejecting token, .silent)
  | .rejecting token, .next =>
      match findRing config daemon token with
      | none => some (.publishing .select, .silent)
      | some _ => some (.publishing .reconcile, .unring (dropRing config daemon token))
  | .selecting, .tick expired => some (.ticking expired, .silent)
  | .ticking expired, .next =>
      let kept := daemon.ringing.filter fun ring => !expired.contains ring.conn
      if kept.length = daemon.ringing.length then some (.selecting, .silent)
      else some (.publishing .reconcile, .unring kept)
  | _, _ => none

inductive DialEvent where
  | connected
  | failed
  | next
  deriving DecidableEq, Repr

/-- One step of the task of a dial; it is over when no stage is left. -/
def dialStep (daemon : Daemon) (peer : EndpointId) :
    DialStage → DialEvent → Option (Option DialStage × Effect)
  | .connecting, .connected => some (none, .spawn peer daemon.nextConn true)
  | .connecting, .failed => some (some (.reconciling .peers), .silent)
  | .reconciling at_, .next =>
      let (after, effect) := reconcileStep daemon at_
      some (after.map .reconciling, effect)
  | _, _ => none

inductive CallEvent where
  | exchanged (peer : OwnVips)
  | exchangeFailed
  | routed (added : Bool)
  | closed
  | next
  deriving DecidableEq, Repr

/-- The peer announced a virtual IP that it cannot have. -/
def unusable (own peer : OwnVips) : Bool :=
  peer.v4 == own.v4 || peer.v6 == own.v6 || !vipInMesh peer.v4 || !vip6InMesh peer.v6

/-- One step of session `i`; it is over when no stage is left. -/
def callStep (config : PhoneConfig) (daemon : Daemon) (i : Nat) (peerId : EndpointId) :
    CallStage → CallEvent → Option (Option CallStage × Effect)
  | .exchanging, .exchangeFailed => some (some (.reconciling .peers), .silent)
  | .exchanging, .exchanged peer =>
      if unusable config.own peer then some (some (.reconciling .peers), .silent)
      else
        let entry : ActivePeer := ⟨peerId, peer.v4, peer.v6, ⟨i⟩⟩
        some (some (if claimSucceeded daemon.peers entry then .routing entry
          else .reconciling .peers), .storePeers (claimClosure entry daemon.peers))
  | .routing entry, .routed added =>
      if added then some (some (.announcing entry), .silent)
      else some (some (.reconciling .peers), .storePeers (removeClosure entry daemon.peers))
  | .announcing entry, .next => some (some (.running entry), .applyPhase .connected)
  | .running entry, .closed =>
      some (some (.reconciling .peers), .storePeers (removeClosure entry daemon.peers))
  | .reconciling at_, .next =>
      let (after, effect) := reconcileStep daemon at_
      some (after.map .reconciling, effect)
  | _, _ => none

inductive DaemonEvent where
  | main (event : MainEvent)
  | dial (i : Nat) (event : DialEvent)
  | call (i : Nat) (event : CallEvent)
  deriving DecidableEq, Repr

/-- Store where the task of a dial stands. -/
def Daemon.setDial (daemon : Daemon) (i : Nat) (task : Dial) (stage : Option DialStage) : Daemon :=
  { daemon with
    dials := match stage with
      | some stage => daemon.dials.put i { task with stage := stage }
      | none => daemon.dials.remove i }

/-- Store where a session stands. -/
def Daemon.setCall (daemon : Daemon) (i : Nat) (task : Call) (stage : Option CallStage) : Daemon :=
  { daemon with
    calls := match stage with
      | some stage => daemon.calls.put i { task with stage := stage }
      | none => daemon.calls.remove i }

def daemonStep (config : PhoneConfig) (daemon : Daemon) : DaemonEvent → Option Daemon
  | .main event =>
      (mainStep config daemon daemon.main event).map fun (main, effect) =>
        { effect.apply daemon with main := main }
  | .dial i event =>
      (daemon.dials.get i).bind fun task =>
        (dialStep daemon task.peer task.stage event).map fun (stage, effect) =>
          (effect.apply daemon).setDial i task stage
  | .call i event =>
      (daemon.calls.get i).bind fun task =>
        (callStep config daemon i task.peer task.stage event).map fun (stage, effect) =>
          (effect.apply daemon).setCall i task stage

/-! ## What each step does -/

section Cases

variable {config : PhoneConfig} {daemon next : Daemon}

theorem main_cases {event : MainEvent}
    (stepped : daemonStep config daemon (.main event) = some next) :
    ∃ main effect, mainStep config daemon daemon.main event = some (main, effect) ∧
      next = { effect.apply daemon with main := main } := by
  simp only [daemonStep, Option.map_eq_some_iff] at stepped
  obtain ⟨⟨main, effect⟩, moved, rfl⟩ := stepped
  exact ⟨main, effect, moved, rfl⟩

theorem dial_cases {i : Nat} {event : DialEvent}
    (stepped : daemonStep config daemon (.dial i event) = some next) :
    ∃ task stage effect, daemon.dials.get i = some task ∧
      dialStep daemon task.peer task.stage event = some (stage, effect) ∧
      next = (effect.apply daemon).setDial i task stage := by
  simp only [daemonStep, Option.bind_eq_some_iff, Option.map_eq_some_iff] at stepped
  obtain ⟨task, found, ⟨stage, effect⟩, moved, rfl⟩ := stepped
  exact ⟨task, stage, effect, found, moved, rfl⟩

theorem call_cases {i : Nat} {event : CallEvent}
    (stepped : daemonStep config daemon (.call i event) = some next) :
    ∃ task stage effect, daemon.calls.get i = some task ∧
      callStep config daemon i task.peer task.stage event = some (stage, effect) ∧
      next = (effect.apply daemon).setCall i task stage := by
  simp only [daemonStep, Option.bind_eq_some_iff, Option.map_eq_some_iff] at stepped
  obtain ⟨task, found, ⟨stage, effect⟩, moved, rfl⟩ := stepped
  exact ⟨task, stage, effect, found, moved, rfl⟩

/-- Only the loop moves itself. -/
theorem apply_main (effect : Effect) (daemon : Daemon) :
    (effect.apply daemon).main = daemon.main := by
  cases effect <;> rfl

/-- The moves of the loop. -/
inductive MainMove (config : PhoneConfig) (daemon : Daemon) :
    MainLoop → MainEvent → MainLoop → Effect → Prop where
  | incoming : MainMove config daemon .selecting .incoming .handshaking .silent
  | failed : MainMove config daemon .handshaking .failed .selecting .silent
  | refused {peer : EndpointId} {alpn : Alpn} :
      MainMove config daemon .handshaking (.handshaken peer alpn) .selecting .arrive
  | known {peer : EndpointId} (contact : config.isKnownContact peer = true) :
      MainMove config daemon .handshaking (.handshaken peer .tun) .selecting
        (.spawn peer daemon.nextConn false)
  | stranger {peer : EndpointId} (unknown : config.isKnownContact peer = false) :
      MainMove config daemon .handshaking (.handshaken peer .tun)
        (.pushing peer daemon.nextConn) .arrive
  | push {peer : EndpointId} {conn : Connection} {sinceUnixMs : Nat} :
      MainMove config daemon (.pushing peer conn) (.push sinceUnixMs) .ringPhase
        (.pushRing ⟨peer, conn, sinceUnixMs⟩)
  | ringPhase : MainMove config daemon .ringPhase .next (.publishing .select) (.applyPhase .ring)
  | publish {after : AfterPublish} :
      MainMove config daemon (.publishing after) .next after.stage .publishPending
  | spawn {ring : Ringing} :
      MainMove config daemon (.spawning ring) .next .selecting (.spawn ring.peer ring.conn false)
  | reconcile {at_ : Reconcile} :
      MainMove config daemon (.reconciling at_) .next
        ((reconcileStep daemon at_).1.elim .selecting .reconciling) (reconcileStep daemon at_).2
  | ignored {target : String} (ignores : Phone.dial config daemon target = .selecting) :
      MainMove config daemon .selecting (.dial target) .selecting .silent
  | dial {target : String} {peer : EndpointId}
      (dials : Phone.dial config daemon target = .dialPhase peer) :
      MainMove config daemon .selecting (.dial target) (.dialPhase peer) .silent
  | dialPhase {peer : EndpointId} :
      MainMove config daemon (.dialPhase peer) .next .selecting (.beginDial peer)
  | accept {token : String} :
      MainMove config daemon .selecting (.accept token) (.accepting token) .silent
  | reject {token : String} :
      MainMove config daemon .selecting (.reject token) (.rejecting token) .silent
  | tick {expired : List Connection} :
      MainMove config daemon .selecting (.tick expired) (.ticking expired) .silent
  | missed {token : String} {main : MainLoop}
      (asks : main = .accepting token ∨ main = .rejecting token)
      (absent : findRing config daemon token = none) :
      MainMove config daemon main .next (.publishing .select) .silent
  | accepted {token : String} {ring : Ringing} (found : findRing config daemon token = some ring) :
      MainMove config daemon (.accepting token) .next (.publishing (.answer ring))
        (.unring (dropRing config daemon token))
  | rejected {token : String} {ring : Ringing} (found : findRing config daemon token = some ring) :
      MainMove config daemon (.rejecting token) .next (.publishing .reconcile)
        (.unring (dropRing config daemon token))
  | ticked {expired : List Connection} :
      MainMove config daemon (.ticking expired) .next .selecting .silent
  | timedOut {expired : List Connection} :
      MainMove config daemon (.ticking expired) .next (.publishing .reconcile)
        (.unring (daemon.ringing.filter fun ring => !expired.contains ring.conn))

theorem dial_eq (config : PhoneConfig) (daemon : Daemon) (target : String) :
    dial config daemon target = .selecting ∨
      ∃ peer, dial config daemon target = .dialPhase peer := by
  unfold dial
  split
  · exact .inl rfl
  · rename_i peer _
    split
    · exact .inl rfl
    · split
      · exact .inl rfl
      · split
        · exact .inl rfl
        · split
          · exact .inr ⟨peer, rfl⟩
          · exact .inl rfl

theorem mainStep_move {main after : MainLoop} {event : MainEvent} {effect : Effect}
    (moved : mainStep config daemon main event = some (after, effect)) :
    MainMove config daemon main event after effect := by
  cases main with
  | selecting =>
      cases event with
      | incoming => cases moved; exact .incoming
      | accept token => cases moved; exact .accept
      | reject token => cases moved; exact .reject
      | tick expired => cases moved; exact .tick
      | dial target =>
          cases moved
          rcases dial_eq config daemon target with ignores | ⟨peer, dials⟩
          · rw [ignores]
            exact .ignored ignores
          · rw [dials]
            exact .dial dials
      | failed | handshaken peer alpn | push sinceUnixMs | next => cases moved
  | handshaking =>
      cases event with
      | failed => cases moved; exact .failed
      | handshaken peer alpn =>
          cases alpn with
          | ping => cases moved; exact .refused
          | tun =>
              change some (handshaken config daemon peer) = some (after, effect) at moved
              unfold handshaken at moved
              split at moved
              · cases moved; exact .refused
              · split at moved
                · cases moved; exact .refused
                · split at moved
                  · rename_i contact
                    cases moved; exact .known contact
                  · rename_i unknown
                    cases moved; exact .stranger (Bool.eq_false_of_not_eq_true unknown)
      | _ => cases moved
  | pushing peer conn => cases event <;> cases moved; exact .push
  | ringPhase => cases event <;> cases moved; exact .ringPhase
  | publishing after => cases event <;> cases moved; exact .publish
  | spawning ring => cases event <;> cases moved; exact .spawn
  | dialPhase peer => cases event <;> cases moved; exact .dialPhase
  | reconciling at_ => cases event <;> cases moved; exact .reconcile
  | accepting token =>
      cases event with
      | next =>
          unfold mainStep at moved
          dsimp only at moved
          split at moved
          · cases moved; exact .missed (.inl rfl) ‹_›
          · cases moved; exact .accepted ‹_›
      | _ => cases moved
  | rejecting token =>
      cases event with
      | next =>
          unfold mainStep at moved
          dsimp only at moved
          split at moved
          · cases moved; exact .missed (.inr rfl) ‹_›
          · cases moved; exact .rejected ‹_›
      | _ => cases moved
  | ticking expired =>
      cases event with
      | next =>
          unfold mainStep at moved
          dsimp only at moved
          split at moved
          · cases moved; exact .ticked
          · cases moved; exact .timedOut
      | _ => cases moved

end Cases

end LinkP2p.Tun.Phone
