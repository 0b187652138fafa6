import LinkP2p.Stream.ConnSlot
import LinkP2p.Stream.ServePermits
import LinkP2p.Tun.Packet

/-!
# The phone plane of the stream daemon

`run_phone_plane_inner` has an accept task and a command loop; every call they
set up adds tasks of its own: one publishes the peer, one waits for the close of
the connection, one listens on the local address. They share the active slot,
the ring list and the published status. A step runs one task to its next await.
-/

namespace LinkP2p.Stream.Phone

open LinkP2p.Lib LinkP2p.Lib.Transition
open LinkP2p.Tun (EndpointId Ipv4Addr Ipv6Addr)

/-- The two protocols that the endpoint advertises. -/
inductive Alpn where
  /-- `link-p2p/tcp-forward/1` -/
  | forward
  /-- `link-p2p/ping/0` -/
  | ping
  deriving DecidableEq, Repr

/-- The published phase. -/
inductive Phase where
  | idle
  | dialing
  | ringing
  | connected
  deriving DecidableEq, Repr

inductive SocketAddr where
  | v4 (ip : Ipv4Addr) (port : BitVec 16)
  | v6 (ip : Ipv6Addr) (port : BitVec 16)
  deriving DecidableEq, Repr

/-- What the plane asks of the contact book, which it loads once, and of
`build_dial_addr`. -/
structure Book where
  isKnownContact : EndpointId → Bool
  resolvePeerToken : String → Option EndpointId
  matchPeerToken : String → EndpointId → Bool
  buildDialAddr : EndpointId → String → List SocketAddr → Bool

structure Config where
  book : Book
  defaultListen : Option SocketAddr
  maxConns : BitVec 64
  /-- Where `conn_semaphore` panics the plane ends before it takes anything up. -/
  starts : (connSemaphore maxConns).isSome = true

structure Conn where
  peer : EndpointId
  alpn : Alpn
  deriving DecidableEq, Repr

structure Ringing where
  peer : EndpointId
  conn : Connection
  sinceUnixMs : Nat
  deriving DecidableEq, Repr

structure PendingCall where
  peer : EndpointId
  sinceUnixMs : Nat
  direction : String
  deriving DecidableEq, Repr

/-! ## The tasks -/

/-- Where the accept task stands. -/
inductive AcceptTask where
  /-- In `ep_accept.accept().await`. -/
  | accepting
  /-- In `connecting.await`. -/
  | handshaking
  /-- Past the busy check with a known contact, before the phase is written. -/
  | answering (conn : Connection) (peer : EndpointId)
  /-- Before `spawn_stream_session`. -/
  | spawning (conn : Connection) (peer : EndpointId)
  /-- Past the busy check with a stranger, in `ringing_a.write().await`. -/
  | ringing (ring : Ringing)
  /-- The ring is in the list, the phase is not yet written. -/
  | announcing (conn : Connection)
  | publishing
  deriving DecidableEq, Repr

/-- Where the command loop stands. -/
inductive Command where
  | selecting
  /-- `Dial` past its busy check, before the phase is written. -/
  | dialPhase (target : String) (listen : Option SocketAddr) (toAddr : List SocketAddr)
  /-- In `endpoint.connect`. -/
  | connecting (peer : EndpointId) (listen : Option SocketAddr)
  | accepting (token : String)
  | acceptPublish (ring : Ringing)
  /-- With a connection to use, before the phase is written. -/
  | answering (conn : Connection) (peer : EndpointId) (listen : Option SocketAddr)
  | spawning (conn : Connection) (peer : EndpointId) (listen : Option SocketAddr)
  | rejecting (token : String)
  | rejectPublish
  | rejectCheck
  | ticking (expired : List Connection)
  | tickPublish
  | tickCheck
  /-- Before the phase is set back to idle. -/
  | setIdle
  deriving DecidableEq, Repr

/-- Where the close task of a session stands. -/
inductive Closer where
  /-- Polling `close_reason()`. -/
  | watching
  /-- Past `*active_c = None`. -/
  | activeCleared
  /-- Past the peers. -/
  | peersCleared
  | done
  deriving DecidableEq, Repr

/-- Where `run_local_listen_daemon` stands. -/
inductive Listener where
  | absent
  /-- In `TcpListener::bind`. -/
  | starting (addr : SocketAddr)
  | bound (addr : SocketAddr)
  | ended
  deriving DecidableEq, Repr

/-- What `spawn_stream_session` sets up. -/
structure Session where
  peer : EndpointId
  conn : Connection
  /-- The slot it gives to its listener; no watcher ever writes to it. -/
  slot : Slot
  published : Bool
  closer : Closer
  listener : Listener

/-- Where the task of one accepted TCP client stands. -/
inductive ClientStage where
  /-- In `semaphore.acquire_owned().await`. -/
  | queued
  /-- In `open_stream_wait`, with its permit. -/
  | opening
  /-- Past it: the hello and the pipe. -/
  | piping (conn : Connection)
  deriving DecidableEq, Repr

structure Client where
  session : Nat
  /-- The local address it has connected to. -/
  addr : SocketAddr
  stage : ClientStage
  deriving DecidableEq, Repr

/-- The plane. The session number in `active` stands for the identity of the slot
stored there. -/
structure Plane where
  conns : HashMap Connection Conn
  closed : Connection → Bool
  nextConn : Connection
  active : Option Nat
  sessions : HashMap Nat Session
  nextSession : Nat
  ringing : List Ringing
  phase : Phase
  peers : List EndpointId
  pending : List PendingCall
  accept : AcceptTask
  command : Command
  clients : HashMap Nat Client
  permits : Nat

def Plane.start (config : Config) : Plane where
  conns := ∅
  closed := fun _ => false
  nextConn := 0
  active := none
  sessions := ∅
  nextSession := 0
  ringing := []
  phase := .idle
  peers := []
  pending := []
  accept := .accepting
  command := .selecting
  clients := ∅
  permits := ((connSemaphore config.maxConns).get config.starts).permits

/-- What a task does to the cells it shares with the others. -/
inductive Effect where
  | silent
  | setPhase (phase : Phase)
  | setPeers (peers : List EndpointId)
  | clearActive
  | publishPending
  /-- A connection is established; a refused one is closed at once. -/
  | arrive (peer : EndpointId) (alpn : Alpn) (refused : Bool)
  | pushRing (ring : Ringing)
  /-- Some rings leave the list and their connections may be closed. -/
  | unring (kept : List Ringing) (gone : List Connection)
  | spawn (conn : Connection) (peer : EndpointId) (listen : Option SocketAddr)
  deriving DecidableEq, Repr

/-- The session that `spawn_stream_session` sets up. -/
def Session.new (conn : Connection) (peer : EndpointId) (listen : Option SocketAddr) :
    Session where
  peer := peer
  conn := conn
  slot := .new (some conn)
  published := false
  closer := .watching
  listener := (listen.map .starting).getD .absent

def Effect.apply (plane : Plane) : Effect → Plane
  | .silent => plane
  | .setPhase value => { plane with phase := value }
  | .setPeers value => { plane with peers := value }
  | .clearActive => { plane with active := none }
  | .publishPending =>
      { plane with
        pending := plane.ringing.map fun ring => ⟨ring.peer, ring.sinceUnixMs, "in"⟩ }
  | .arrive peer alpn refused =>
      { plane with
        conns := plane.conns.put plane.nextConn ⟨peer, alpn⟩
        closed := Function.update plane.closed plane.nextConn refused
        nextConn := plane.nextConn + 1 }
  | .pushRing ring => { plane with ringing := plane.ringing ++ [ring] }
  | .unring kept gone =>
      { plane with
        ringing := kept
        closed := fun conn => plane.closed conn || gone.contains conn }
  | .spawn conn peer listen =>
      { plane with
        active := some plane.nextSession
        sessions := plane.sessions.put plane.nextSession (.new conn peer listen)
        nextSession := plane.nextSession + 1 }

inductive AcceptEvent where
  | incoming
  /-- `incoming.accept()` or the handshake fails. -/
  | failed
  | handshaken (peer : EndpointId) (alpn : Alpn) (sinceUnixMs : Nat)
  | next
  deriving DecidableEq, Repr

/-- One step of the accept task. -/
def acceptStep (config : Config) (plane : Plane) :
    AcceptTask → AcceptEvent → Option (AcceptTask × Effect)
  | .accepting, .incoming => some (.handshaking, .silent)
  | .handshaking, .failed => some (.accepting, .silent)
  | .handshaking, .handshaken peer alpn sinceUnixMs =>
      -- the busy check; the ALPN is not looked at
      if plane.active.isSome then some (.accepting, .arrive peer alpn true)
      else if config.book.isKnownContact peer then
        some (.answering plane.nextConn peer, .arrive peer alpn false)
      else some (.ringing ⟨peer, plane.nextConn, sinceUnixMs⟩, .arrive peer alpn false)
  | .answering conn peer, .next => some (.spawning conn peer, .setPhase .connected)
  | .spawning conn peer, .next => some (.accepting, .spawn conn peer config.defaultListen)
  | .ringing ring, .next => some (.announcing ring.conn, .pushRing ring)
  | .announcing _, .next => some (.publishing, .setPhase .ringing)
  | .publishing, .next => some (.accepting, .publishPending)
  | _, _ => none

inductive CommandEvent where
  | dial (target : String) (listen : Option SocketAddr) (toAddr : List SocketAddr)
  | accept (token : String)
  | reject (token : String)
  /-- The tick, with the rings that have waited longer than `RING_TIMEOUT`. -/
  | tick (expired : List Connection)
  | connected
  | connectFailed
  | next
  deriving DecidableEq, Repr

/-- The first ring that the token matches. -/
def findRing (config : Config) (plane : Plane) (token : String) : Option Ringing :=
  plane.ringing.find? fun ring => config.book.matchPeerToken token ring.peer

/-- The list without it. -/
def dropRing (config : Config) (plane : Plane) (token : String) : List Ringing :=
  plane.ringing.eraseP fun ring => config.book.matchPeerToken token ring.peer

/-- One step of the command loop. -/
def commandStep (config : Config) (plane : Plane) :
    Command → CommandEvent → Option (Command × Effect)
  | .selecting, .dial target listen toAddr =>
      if plane.active.isSome then some (.selecting, .silent)
      else some (.dialPhase target (listen.or config.defaultListen) toAddr, .silent)
  | .dialPhase target listen toAddr, .next =>
      match config.book.resolvePeerToken target with
      | none => some (.setIdle, .setPhase .dialing)
      | some peer =>
          if config.book.buildDialAddr peer target toAddr then
            some (.connecting peer listen, .setPhase .dialing)
          else some (.setIdle, .setPhase .dialing)
  | .connecting peer listen, .connected =>
      some (.answering plane.nextConn peer listen, .arrive peer .forward false)
  | .connecting _ _, .connectFailed => some (.setIdle, .silent)
  | .answering conn peer listen, .next => some (.spawning conn peer listen, .setPhase .connected)
  | .spawning conn peer listen, .next => some (.selecting, .spawn conn peer listen)
  | .setIdle, .next => some (.selecting, .setPhase .idle)
  | .selecting, .accept token => some (.accepting token, .silent)
  | .accepting token, .next =>
      match findRing config plane token with
      | none => some (.selecting, .silent)
      | some ring => some (.acceptPublish ring, .unring (dropRing config plane token) [])
  | .acceptPublish ring, .next =>
      some (.answering ring.conn ring.peer config.defaultListen, .publishPending)
  | .selecting, .reject token => some (.rejecting token, .silent)
  | .rejecting token, .next =>
      match findRing config plane token with
      | none => some (.selecting, .silent)
      | some ring => some (.rejectPublish, .unring (dropRing config plane token) [ring.conn])
  | .rejectPublish, .next => some (.rejectCheck, .publishPending)
  | .rejectCheck, .next =>
      some (if plane.ringing.isEmpty then .setIdle else .selecting, .silent)
  | .selecting, .tick expired => some (.ticking expired, .silent)
  | .ticking expired, .next =>
      let (gone, kept) := plane.ringing.partition fun ring => expired.contains ring.conn
      if kept.length = plane.ringing.length then some (.selecting, .silent)
      else some (.tickPublish, .unring kept (gone.map (·.conn)))
  | .tickPublish, .next => some (.tickCheck, .publishPending)
  | .tickCheck, .next =>
      some (if plane.ringing.isEmpty && plane.active.isNone then .setIdle else .selecting,
        .silent)
  | _, _ => none

inductive SessionEvent where
  | publish
  | close
  | bind
  | bindFailed
  /-- `tcp_listener.accept()` fails and the listener returns. -/
  | acceptFailed
  deriving DecidableEq, Repr

def Session.isBound (session : Session) (addr : SocketAddr) : Bool :=
  session.listener = .bound addr

/-- One step of a task that `spawn_stream_session` has spawned. -/
def sessionStep (plane : Plane) (session : Session) :
    SessionEvent → Option (Session × Effect)
  | .publish =>
      if session.published then none
      else some ({ session with published := true }, .setPeers [session.peer])
  | .close =>
      match session.closer with
      | .watching =>
          if plane.closed session.conn then
            some ({ session with closer := .activeCleared }, .clearActive)
          else none
      | .activeCleared => some ({ session with closer := .peersCleared }, .setPeers [])
      | .peersCleared => some ({ session with closer := .done }, .setPhase .idle)
      | .done => none
  | .bind =>
      match session.listener with
      | .starting addr =>
          if plane.sessions.anyValue fun other => other.isBound addr then none
          else some ({ session with listener := .bound addr }, .silent)
      | _ => none
  | .bindFailed =>
      match session.listener with
      | .starting _ => some ({ session with listener := .ended }, .silent)
      | _ => none
  | .acceptFailed =>
      match session.listener with
      | .bound _ => some ({ session with listener := .ended }, .silent)
      | _ => none

inductive ClientEvent where
  /-- The client is accepted by the listener of a session. -/
  | arrive (session : Nat)
  | acquire
  | opener (act : OpenerAct)
  /-- The pipe ends. -/
  | leave

/-- The slot of a session as its openers see it. -/
def Session.view (plane : Plane) (session : Session) : Slot :=
  { session.slot with closed := plane.closed }

/-- What the return of `open_stream_wait` makes of its client: a stream on the
connection it has opened, or an error. -/
def clientAfter (client : Client) : Opener → OpenerAct → Option Opener → Option Client
  | _, _, some _ => some client
  | .opening conn _, .opened, none => some { client with stage := .piping conn }
  | _, _, none => none

/-- Store where a client stands; one that is gone gives its permit back. -/
def Plane.setClient (plane : Plane) (i : Nat) (client : Option Client) : Plane :=
  { plane with
    clients := (client.map (plane.clients.put i)).getD (plane.clients.remove i)
    permits := if client.isSome then plane.permits else plane.permits + 1 }

/-- The plane after a step of the client's `open_stream_wait`, on the slot of its
session. -/
def Plane.afterOpener (plane : Plane) (i : Nat) (client : Client) (session : Session)
    (stage : Opener) (act : OpenerAct) (after : Option Opener) (effect : Stream.Effect) :
    Plane :=
  let slot := (effect.apply (session.view plane)).setOpener i after
  { plane with
    closed := slot.closed
    sessions := plane.sessions.put client.session { session with slot := slot }
  }.setClient i (clientAfter client stage act after)

def clientStep (plane : Plane) (i : Nat) : ClientEvent → Option Plane
  | .arrive number =>
      (plane.sessions.get number).bind fun session =>
        match session.listener with
        | .bound addr =>
            if plane.clients.containsKey i then none
            else some { plane with clients := plane.clients.put i ⟨number, addr, .queued⟩ }
        | _ => none
  | .acquire =>
      (plane.clients.get i).bind fun client =>
        if client.stage = .queued ∧ 0 < plane.permits then
          (plane.sessions.get client.session).map fun session =>
            { plane with
              permits := plane.permits - 1
              clients := plane.clients.put i { client with stage := .opening }
              sessions := plane.sessions.put client.session
                { session with slot := session.slot.setOpener i (some .entering) } }
        else none
  | .opener act =>
      (plane.clients.get i).bind fun client =>
        -- nothing drops the future of `open_stream_wait`
        if client.stage = .opening ∧ ¬ act matches .leave then
          (plane.sessions.get client.session).bind fun session =>
            (session.slot.openers.get i).bind fun stage =>
              (openerStep (session.view plane) stage act).map fun (after, effect) =>
                plane.afterOpener i client session stage act after effect
        else none
  | .leave =>
      (plane.clients.get i).bind fun client =>
        match client.stage with
        | .piping _ => some (plane.setClient i none)
        | _ => none

inductive Event where
  | accept (event : AcceptEvent)
  | command (event : CommandEvent)
  | session (number : Nat) (event : SessionEvent)
  | client (i : Nat) (event : ClientEvent)
  /-- A connection dies. -/
  | die (conn : Connection)

def step (config : Config) (plane : Plane) : Event → Option Plane
  | .accept event =>
      (acceptStep config plane plane.accept event).map fun (stage, effect) =>
        { effect.apply plane with accept := stage }
  | .command event =>
      (commandStep config plane plane.command event).map fun (stage, effect) =>
        { effect.apply plane with command := stage }
  | .session number event =>
      (plane.sessions.get number).bind fun session =>
        (sessionStep plane session event).map fun (after, effect) =>
          { effect.apply plane with sessions := plane.sessions.put number after }
  | .client i event => clientStep plane i event
  | .die conn =>
      if plane.conns.containsKey conn then
        some { plane with closed := Function.update plane.closed conn true }
      else none

/-- The effect of a step on the shared cells. -/
def effectOf (config : Config) (plane : Plane) : Event → Effect
  | .accept event => ((acceptStep config plane plane.accept event).map Prod.snd).getD .silent
  | .command event => ((commandStep config plane plane.command event).map Prod.snd).getD .silent
  | .session number event =>
      (((plane.sessions.get number).bind fun session =>
        (sessionStep plane session event)).map Prod.snd).getD .silent
  | .client _ _ | .die _ => .silent

/-! ## What each step does -/

section Cases

variable {config : Config} {plane next : Plane}

theorem accept_cases {event : AcceptEvent}
    (stepped : step config plane (.accept event) = some next) :
    ∃ stage effect, acceptStep config plane plane.accept event = some (stage, effect) ∧
      effectOf config plane (.accept event) = effect ∧
      next = { effect.apply plane with accept := stage } := by
  simp only [step, Option.map_eq_some_iff] at stepped
  obtain ⟨⟨stage, effect⟩, moved, rfl⟩ := stepped
  exact ⟨stage, effect, moved, by simp [effectOf, moved], rfl⟩

theorem command_cases {event : CommandEvent}
    (stepped : step config plane (.command event) = some next) :
    ∃ stage effect, commandStep config plane plane.command event = some (stage, effect) ∧
      effectOf config plane (.command event) = effect ∧
      next = { effect.apply plane with command := stage } := by
  simp only [step, Option.map_eq_some_iff] at stepped
  obtain ⟨⟨stage, effect⟩, moved, rfl⟩ := stepped
  exact ⟨stage, effect, moved, by simp [effectOf, moved], rfl⟩

/-- The moves of the accept task. -/
inductive AcceptMove (config : Config) (plane : Plane) :
    AcceptTask → AcceptEvent → AcceptTask → Effect → Prop where
  | incoming : AcceptMove config plane .accepting .incoming .handshaking .silent
  | failed : AcceptMove config plane .handshaking .failed .accepting .silent
  | refuse {peer : EndpointId} {alpn : Alpn} {sinceUnixMs : Nat}
      (busy : plane.active.isSome = true) :
      AcceptMove config plane .handshaking (.handshaken peer alpn sinceUnixMs) .accepting
        (.arrive peer alpn true)
  | known {peer : EndpointId} {alpn : Alpn} {sinceUnixMs : Nat} (idle : plane.active.isSome = false)
      (known : config.book.isKnownContact peer = true) :
      AcceptMove config plane .handshaking (.handshaken peer alpn sinceUnixMs)
        (.answering plane.nextConn peer) (.arrive peer alpn false)
  | ring {peer : EndpointId} {alpn : Alpn} {sinceUnixMs : Nat} (idle : plane.active.isSome = false)
      (stranger : config.book.isKnownContact peer = false) :
      AcceptMove config plane .handshaking (.handshaken peer alpn sinceUnixMs)
        (.ringing ⟨peer, plane.nextConn, sinceUnixMs⟩) (.arrive peer alpn false)
  | answer (conn : Connection) (peer : EndpointId) :
      AcceptMove config plane (.answering conn peer) .next (.spawning conn peer)
        (.setPhase .connected)
  | spawn (conn : Connection) (peer : EndpointId) :
      AcceptMove config plane (.spawning conn peer) .next .accepting
        (.spawn conn peer config.defaultListen)
  | push (ring : Ringing) :
      AcceptMove config plane (.ringing ring) .next (.announcing ring.conn) (.pushRing ring)
  | announce (conn : Connection) :
      AcceptMove config plane (.announcing conn) .next .publishing (.setPhase .ringing)
  | publish : AcceptMove config plane .publishing .next .accepting .publishPending

theorem acceptStep_move {task stage : AcceptTask} {event : AcceptEvent} {effect : Effect}
    (moved : acceptStep config plane task event = some (stage, effect)) :
    AcceptMove config plane task event stage effect := by
  cases task with
  | accepting =>
      cases event <;> cases moved
      exact .incoming
  | handshaking =>
      cases event with
      | failed =>
          cases moved
          exact .failed
      | handshaken peer alpn sinceUnixMs =>
          simp only [acceptStep] at moved
          split at moved
          · rename_i busy
            cases moved
            exact .refuse busy
          · rename_i idle
            have idle := Bool.eq_false_of_not_eq_true idle
            split at moved
            · rename_i known
              cases moved
              exact .known idle known
            · rename_i stranger
              cases moved
              exact .ring idle (Bool.eq_false_of_not_eq_true stranger)
      | _ => cases moved
  | answering conn peer =>
      cases event <;> cases moved
      exact .answer conn peer
  | spawning conn peer =>
      cases event <;> cases moved
      exact .spawn conn peer
  | ringing ring =>
      cases event <;> cases moved
      exact .push ring
  | announcing conn =>
      cases event <;> cases moved
      exact .announce conn
  | publishing =>
      cases event <;> cases moved
      exact .publish

/-- The moves of the command loop. -/
inductive CommandMove (config : Config) (plane : Plane) :
    Command → CommandEvent → Command → Effect → Prop where
  | busy {target : String} {listen : Option SocketAddr} {toAddr : List SocketAddr}
      (busy : plane.active.isSome = true) :
      CommandMove config plane .selecting (.dial target listen toAddr) .selecting .silent
  | dial {target : String} {listen : Option SocketAddr} {toAddr : List SocketAddr}
      (idle : plane.active.isSome = false) :
      CommandMove config plane .selecting (.dial target listen toAddr)
        (.dialPhase target (listen.or config.defaultListen) toAddr) .silent
  | take {event : CommandEvent} {stage : Command}
      (taken : (∃ token, event = .accept token ∧ stage = .accepting token) ∨
        (∃ token, event = .reject token ∧ stage = .rejecting token) ∨
        ∃ expired, event = .tick expired ∧ stage = .ticking expired) :
      CommandMove config plane .selecting event stage .silent
  | unreachable {target : String} {listen : Option SocketAddr} {toAddr : List SocketAddr}
      (unreachable : ∀ peer, config.book.resolvePeerToken target = some peer →
        config.book.buildDialAddr peer target toAddr = false) :
      CommandMove config plane (.dialPhase target listen toAddr) .next .setIdle
        (.setPhase .dialing)
  | connect {target : String} {listen : Option SocketAddr} {toAddr : List SocketAddr}
      {peer : EndpointId} (found : config.book.resolvePeerToken target = some peer)
      (reachable : config.book.buildDialAddr peer target toAddr = true) :
      CommandMove config plane (.dialPhase target listen toAddr) .next (.connecting peer listen)
        (.setPhase .dialing)
  | connected (peer : EndpointId) (listen : Option SocketAddr) :
      CommandMove config plane (.connecting peer listen) .connected
        (.answering plane.nextConn peer listen) (.arrive peer .forward false)
  | connectFailed (peer : EndpointId) (listen : Option SocketAddr) :
      CommandMove config plane (.connecting peer listen) .connectFailed .setIdle .silent
  | answer (conn : Connection) (peer : EndpointId) (listen : Option SocketAddr) :
      CommandMove config plane (.answering conn peer listen) .next (.spawning conn peer listen)
        (.setPhase .connected)
  | spawn (conn : Connection) (peer : EndpointId) (listen : Option SocketAddr) :
      CommandMove config plane (.spawning conn peer listen) .next .selecting
        (.spawn conn peer listen)
  | idle : CommandMove config plane .setIdle .next .selecting (.setPhase .idle)
  | missing {token : String} {command : Command} (absent : findRing config plane token = none)
      (asks : command = .accepting token ∨ command = .rejecting token) :
      CommandMove config plane command .next .selecting .silent
  | accept {token : String} {ring : Ringing} (found : findRing config plane token = some ring) :
      CommandMove config plane (.accepting token) .next (.acceptPublish ring)
        (.unring (dropRing config plane token) [])
  | acceptPublish (ring : Ringing) :
      CommandMove config plane (.acceptPublish ring) .next
        (.answering ring.conn ring.peer config.defaultListen) .publishPending
  | reject {token : String} {ring : Ringing} (found : findRing config plane token = some ring) :
      CommandMove config plane (.rejecting token) .next .rejectPublish
        (.unring (dropRing config plane token) [ring.conn])
  | rejectPublish : CommandMove config plane .rejectPublish .next .rejectCheck .publishPending
  | rejectCheck :
      CommandMove config plane .rejectCheck .next
        (if plane.ringing.isEmpty then .setIdle else .selecting) .silent
  | unchanged {expired : List Connection}
      (same : (plane.ringing.filter fun ring => !expired.contains ring.conn).length =
        plane.ringing.length) :
      CommandMove config plane (.ticking expired) .next .selecting .silent
  | expire {expired : List Connection}
      (fewer : (plane.ringing.filter fun ring => !expired.contains ring.conn).length ≠
        plane.ringing.length) :
      CommandMove config plane (.ticking expired) .next .tickPublish
        (.unring (plane.ringing.filter fun ring => !expired.contains ring.conn)
          ((plane.ringing.filter fun ring => expired.contains ring.conn).map (·.conn)))
  | tickPublish : CommandMove config plane .tickPublish .next .tickCheck .publishPending
  | tickCheck :
      CommandMove config plane .tickCheck .next
        (if plane.ringing.isEmpty && plane.active.isNone then .setIdle else .selecting) .silent

theorem commandStep_move {command stage : Command} {event : CommandEvent} {effect : Effect}
    (moved : commandStep config plane command event = some (stage, effect)) :
    CommandMove config plane command event stage effect := by
  cases command with
  | selecting =>
      cases event with
      | dial target listen toAddr =>
          simp only [commandStep] at moved
          split at moved
          · rename_i busy
            cases moved
            exact .busy busy
          · rename_i idle
            cases moved
            exact .dial (Bool.eq_false_of_not_eq_true idle)
      | accept token =>
          cases moved
          exact .take (.inl ⟨token, rfl, rfl⟩)
      | reject token =>
          cases moved
          exact .take (.inr (.inl ⟨token, rfl, rfl⟩))
      | tick expired =>
          cases moved
          exact .take (.inr (.inr ⟨expired, rfl, rfl⟩))
      | _ => cases moved
  | dialPhase target listen toAddr =>
      cases event <;> simp only [commandStep, reduceCtorEq] at moved
      split at moved
      · rename_i absent
        cases moved
        exact .unreachable fun peer found => by cases absent.symm.trans found
      · rename_i peer found
        split at moved
        · rename_i reachable
          cases moved
          exact .connect found reachable
        · rename_i unreachable
          cases moved
          refine .unreachable fun other same => ?_
          cases found.symm.trans same
          exact Bool.eq_false_of_not_eq_true unreachable
  | connecting peer listen =>
      cases event with
      | connected =>
          cases moved
          exact .connected peer listen
      | connectFailed =>
          cases moved
          exact .connectFailed peer listen
      | _ => cases moved
  | answering conn peer listen =>
      cases event <;> cases moved
      exact .answer conn peer listen
  | spawning conn peer listen =>
      cases event <;> cases moved
      exact .spawn conn peer listen
  | setIdle =>
      cases event <;> cases moved
      exact .idle
  | accepting token =>
      cases event <;> simp only [commandStep, reduceCtorEq] at moved
      split at moved
      · rename_i absent
        cases moved
        exact .missing absent (.inl rfl)
      · rename_i ring found
        cases moved
        exact .accept found
  | acceptPublish ring =>
      cases event <;> cases moved
      exact .acceptPublish ring
  | rejecting token =>
      cases event <;> simp only [commandStep, reduceCtorEq] at moved
      split at moved
      · rename_i absent
        cases moved
        exact .missing absent (.inr rfl)
      · rename_i ring found
        cases moved
        exact .reject found
  | rejectPublish =>
      cases event <;> cases moved
      exact .rejectPublish
  | rejectCheck =>
      cases event <;> cases moved
      exact .rejectCheck
  | ticking expired =>
      cases event <;> simp only [commandStep, reduceCtorEq,
        List.partition_eq_filter_filter] at moved
      split at moved
      · rename_i same
        cases moved
        exact .unchanged same
      · rename_i fewer
        cases moved
        exact .expire fewer
  | tickPublish =>
      cases event <;> cases moved
      exact .tickPublish
  | tickCheck =>
      cases event <;> cases moved
      exact .tickCheck

theorem session_cases {number : Nat} {event : SessionEvent}
    (stepped : step config plane (.session number event) = some next) :
    ∃ session after effect, plane.sessions.get number = some session ∧
      sessionStep plane session event = some (after, effect) ∧
      effectOf config plane (.session number event) = effect ∧
      next = { effect.apply plane with
        sessions := plane.sessions.put number after } := by
  simp only [step, Option.bind_eq_some_iff, Option.map_eq_some_iff] at stepped
  obtain ⟨session, found, ⟨after, effect⟩, moved, rfl⟩ := stepped
  exact ⟨session, after, effect, found, moved, by simp [effectOf, found, moved], rfl⟩

/-- The moves of the tasks of a session. -/
inductive SessionMove (plane : Plane) (session : Session) :
    SessionEvent → Session → Effect → Prop where
  | publish (unpublished : session.published = false) :
      SessionMove plane session .publish { session with published := true }
        (.setPeers [session.peer])
  | clearActive (watching : session.closer = .watching)
      (gone : plane.closed session.conn = true) :
      SessionMove plane session .close { session with closer := .activeCleared } .clearActive
  | clearPeers (cleared : session.closer = .activeCleared) :
      SessionMove plane session .close { session with closer := .peersCleared } (.setPeers [])
  | clearPhase (cleared : session.closer = .peersCleared) :
      SessionMove plane session .close { session with closer := .done } (.setPhase .idle)
  | bind {addr : SocketAddr} (starting : session.listener = .starting addr)
      (free : ∀ number other, plane.sessions.get number = some other →
        other.listener ≠ .bound addr) :
      SessionMove plane session .bind { session with listener := .bound addr } .silent
  | listenFailed {event : SessionEvent} (unbinds : event = .bindFailed ∨ event = .acceptFailed) :
      SessionMove plane session event { session with listener := .ended } .silent

theorem sessionStep_move {session after : Session} {event : SessionEvent} {effect : Effect}
    (moved : sessionStep plane session event = some (after, effect)) :
    SessionMove plane session event after effect := by
  cases event with
  | publish =>
      simp only [sessionStep, Option.ite_none_left_eq_some, Option.some.injEq,
        Prod.mk.injEq] at moved
      obtain ⟨unpublished, rfl, rfl⟩ := moved
      exact .publish (Bool.eq_false_of_not_eq_true unpublished)
  | close =>
      cases place : session.closer <;> simp only [sessionStep, place, reduceCtorEq,
        Option.ite_none_right_eq_some, Option.some.injEq, Prod.mk.injEq] at moved
      · obtain ⟨gone, rfl, rfl⟩ := moved
        exact .clearActive place gone
      · obtain ⟨rfl, rfl⟩ := moved
        exact .clearPeers place
      · obtain ⟨rfl, rfl⟩ := moved
        exact .clearPhase place
  | bind =>
      cases place : session.listener <;> simp only [sessionStep, place, reduceCtorEq,
        Option.ite_none_left_eq_some, Option.some.injEq, Prod.mk.injEq] at moved
      obtain ⟨free, rfl, rfl⟩ := moved
      refine .bind place fun number other found bound => free ?_
      exact HashMap.anyValue_eq_true.mpr ⟨number, other, found, decide_eq_true bound⟩
  | bindFailed =>
      cases place : session.listener <;> simp only [sessionStep, place, reduceCtorEq,
        Option.some.injEq, Prod.mk.injEq] at moved
      obtain ⟨rfl, rfl⟩ := moved
      exact .listenFailed (Or.inl rfl)
  | acceptFailed =>
      cases place : session.listener <;> simp only [sessionStep, place, reduceCtorEq,
        Option.some.injEq, Prod.mk.injEq] at moved
      obtain ⟨rfl, rfl⟩ := moved
      exact .listenFailed (Or.inr rfl)

theorem SessionMove.conn {session after : Session} {event : SessionEvent} {effect : Effect}
    (move : SessionMove plane session event after effect) : after.conn = session.conn := by
  cases move <;> rfl

/-- The tasks of a session make no connection, no ring and no session. -/
theorem SessionMove.effect {session after : Session} {event : SessionEvent} {effect : Effect}
    (move : SessionMove plane session event after effect) :
    effect = .silent ∨ effect = .clearActive ∨ (∃ ids, effect = .setPeers ids) ∨
      effect = .setPhase .idle := by
  cases move with
  | publish | clearPeers => exact Or.inr (Or.inr (Or.inl ⟨_, rfl⟩))
  | clearActive => exact Or.inr (Or.inl rfl)
  | clearPhase => exact Or.inr (Or.inr (Or.inr rfl))
  | bind | listenFailed => exact Or.inl rfl

/-- The moves of a client. -/
inductive ClientCase (plane : Plane) (i : Nat) : ClientEvent → Plane → Prop where
  | arrive {number : Nat} {session : Session} {addr : SocketAddr}
      (found : plane.sessions.get number = some session)
      (bound : session.listener = .bound addr) (fresh : plane.clients.get i = none) :
      ClientCase plane i (.arrive number)
        { plane with clients := plane.clients.put i ⟨number, addr, .queued⟩ }
  | acquire {client : Client} {session : Session} (present : plane.clients.get i = some client)
      (queued : client.stage = .queued)
      (found : plane.sessions.get client.session = some session) :
      ClientCase plane i .acquire
        { plane with
          permits := plane.permits - 1
          clients := plane.clients.put i { client with stage := .opening }
          sessions := plane.sessions.put client.session
            { session with slot := session.slot.setOpener i (some .entering) } }
  | opener {client : Client} {session : Session} {stage : Opener} {act : OpenerAct}
      {after : Option Opener} {effect : Stream.Effect}
      (present : plane.clients.get i = some client) (opening : client.stage = .opening)
      (found : plane.sessions.get client.session = some session)
      (stands : session.slot.openers.get i = some stage)
      (moved : openerStep (session.view plane) stage act = some (after, effect)) :
      ClientCase plane i (.opener act)
        (plane.afterOpener i client session stage act after effect)
  | leave {client : Client} {conn : Connection} (present : plane.clients.get i = some client)
      (piping : client.stage = .piping conn) :
      ClientCase plane i .leave (plane.setClient i none)

theorem client_cases {i : Nat} {event : ClientEvent}
    (stepped : step config plane (.client i event) = some next) :
    ClientCase plane i event next := by
  cases event with
  | arrive number =>
      simp only [step, clientStep, Option.bind_eq_some_iff] at stepped
      obtain ⟨session, found, stepped⟩ := stepped
      cases place : session.listener <;> simp only [place, reduceCtorEq,
        Option.ite_none_left_eq_some, Option.some.injEq] at stepped
      obtain ⟨fresh, rfl⟩ := stepped
      refine .arrive found place ?_
      rwa [HashMap.containsKey, Option.isSome_iff_ne_none, not_not] at fresh
  | acquire =>
      simp only [step, clientStep, Option.bind_eq_some_iff, Option.ite_none_right_eq_some,
        Option.map_eq_some_iff] at stepped
      obtain ⟨client, present, ⟨queued, -⟩, session, found, rfl⟩ := stepped
      exact .acquire present queued found
  | opener act =>
      simp only [step, clientStep, Option.bind_eq_some_iff, Option.ite_none_right_eq_some,
        Option.map_eq_some_iff] at stepped
      obtain ⟨client, present, ⟨opening, -⟩, session, found, stage, stands, ⟨after, effect⟩,
        moved, rfl⟩ := stepped
      exact .opener present opening found stands moved
  | leave =>
      simp only [step, clientStep, Option.bind_eq_some_iff] at stepped
      obtain ⟨client, present, stepped⟩ := stepped
      cases place : client.stage <;> simp only [place, reduceCtorEq] at stepped
      cases stepped
      exact .leave present place

/-- What a client's step may touch: the clients, the permits, the closed
connections and the slots of the sessions. -/
structure ClientMove (plane next : Plane) : Prop where
  conns : next.conns = plane.conns
  nextConn : next.nextConn = plane.nextConn
  active : next.active = plane.active
  nextSession : next.nextSession = plane.nextSession
  ringing : next.ringing = plane.ringing
  phase : next.phase = plane.phase
  peers : next.peers = plane.peers
  accept : next.accept = plane.accept
  command : next.command = plane.command
  closed : ∀ conn, plane.closed conn = true → next.closed conn = true
  sessions : next.sessions = plane.sessions ∨ ∃ number session slot,
    plane.sessions.get number = some session ∧
      next.sessions = plane.sessions.put number { session with slot := slot }

theorem effect_closed {slot : Slot} {effect : Stream.Effect} {conn : Connection}
    (gone : slot.closed conn = true) : (effect.apply slot).closed conn = true := by
  cases effect with
  | silent => exact gone
  | close dead =>
      change Function.update slot.closed dead true conn = true
      rw [Function.update_apply, gone, ite_self]
  | replace value =>
      change (slot.replace value).closed conn = true
      unfold Slot.replace
      split <;> exact gone

theorem setOpener_closed (slot : Slot) (i : Nat) (stage : Option Opener) :
    (slot.setOpener i stage).closed = slot.closed := by
  cases stage <;> rfl

theorem client_move {i : Nat} {event : ClientEvent}
    (stepped : step config plane (.client i event) = some next) : ClientMove plane next := by
  cases client_cases stepped with
  | arrive | leave =>
      exact ⟨rfl, rfl, rfl, rfl, rfl, rfl, rfl, rfl, rfl, fun _ gone => gone, Or.inl rfl⟩
  | acquire _ _ found =>
      exact ⟨rfl, rfl, rfl, rfl, rfl, rfl, rfl, rfl, rfl, fun _ gone => gone,
        Or.inr ⟨_, _, _, found, rfl⟩⟩
  | @opener client session stage act after effect _ _ found _ _ =>
      refine ⟨rfl, rfl, rfl, rfl, rfl, rfl, rfl, rfl, rfl, fun conn gone => ?_,
        Or.inr ⟨_, session, _, found, rfl⟩⟩
      change ((effect.apply (session.view plane)).setOpener i after).closed conn = true
      rw [setOpener_closed]
      exact effect_closed gone

end Cases

end LinkP2p.Stream.Phone
