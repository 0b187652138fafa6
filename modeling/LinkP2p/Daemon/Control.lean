import LinkP2p.Tun.Packet

/-!
# Requests on the control socket

The daemon answers `Status` and `Peers` from the state that the data plane
publishes, hands call commands to a phone plane, and stops on `Shutdown`. What
changes the daemon needs a privileged peer.
-/

namespace LinkP2p.Daemon

open LinkP2p.Tun

/-- `exit::USAGE` -/
def exitUsage : Int := 2

/-- `exit::DENIED` -/
def exitDenied : Int := 5

structure CtlPeer where
  vip : Ipv4Addr
  vip6 : Ipv6Addr
  id : String
  deriving DecidableEq, Repr

/-- An inbound or outbound call waiting for a decision or completion. -/
structure PendingCall where
  peer : String
  sinceUnixMs : Nat
  direction : String
  deriving DecidableEq, Repr

inductive CtlRequest where
  | status
  | peers
  | shutdown
  | call (target : String)
  | accept (peer : String)
  | reject (peer : String)
  deriving DecidableEq, Repr

inductive CtlResponse where
  | status (role : String) (uptimeSecs : Nat) (vip : Ipv4Addr) (vip6 : Ipv6Addr)
      (pathKind session : String) (pendingCalls : List PendingCall)
  | peers (peers : List CtlPeer)
  | ok
  | err (code : Int) (message : String)
  deriving DecidableEq, Repr

inductive SessionPhase where
  | starting
  | idle
  | dialing
  | ringing
  | connected
  deriving DecidableEq, Repr

def SessionPhase.asStr : SessionPhase → String
  | .starting => "starting"
  | .idle => "idle"
  | .dialing => "dialing"
  | .ringing => "ringing"
  | .connected => "connected"

/-- `TunLiveState`: what the data plane publishes. `uptimeSecs` is
`started.elapsed()` at the read. -/
structure LiveState where
  role : String
  session : String
  uptimeSecs : Nat
  vip : Option Ipv4Addr
  vip6 : Option Ipv6Addr
  phase : SessionPhase
  pathKind : String
  peers : List CtlPeer
  pendingCalls : List PendingCall
  deriving DecidableEq, Repr

/-- `TunLiveState::new` -/
def LiveState.new (role session : String) : LiveState where
  role := role
  session := session
  uptimeSecs := 0
  vip := none
  vip6 := none
  phase := .starting
  pathKind := "unknown"
  peers := []
  pendingCalls := []

def LiveState.statusResponse (live : LiveState) : CtlResponse :=
  .status live.role live.uptimeSecs (live.vip.getD 0) (live.vip6.getD 0)
    (if live.phase = .connected then live.pathKind else live.phase.asStr)
    live.session live.pendingCalls

def LiveState.peersResponse (live : LiveState) : CtlResponse := .peers live.peers

/-- Commands from the control plane into a phone plane. -/
inductive CallCmd where
  | dial (target : String)
  | accept (peer : String)
  | reject (peer : String)
  deriving DecidableEq, Repr

/-- `TUN_CTRL_QUEUE` -/
def tunCtrlQueue : Nat := 32

/-- The part of `TunHooks` that requests read: the published state and the
command queue, which only a phone plane registers. -/
structure Hooks where
  state : LiveState
  callTx : Option (List CallCmd)
  deriving DecidableEq, Repr

/-- `TunHooks::new` -/
def Hooks.new (role session : String) : Hooks := ⟨.new role session, none⟩

def Hooks.trySendCallCmd (hooks : Hooks) (cmd : CallCmd) : Except String Hooks :=
  match hooks.callTx with
  | none => .error
      "TUN daemon is not in phone mode (start with `tun up --role phone` or `tun call`)"
  | some queue =>
      if queue.length < tunCtrlQueue then .ok { hooks with callTx := some (queue ++ [cmd]) }
      else .error "TUN phone call queue is full; try again"

/-- What answering a request leaves: the reply, the hooks, and whether it raised
the shutdown watch and called `request_shutdown`. -/
structure Answer where
  response : CtlResponse
  hooks : Hooks
  shutdown : Bool

/-- Hand a command to the phone plane. -/
def answerCall (hooks : Hooks) (cmd : CallCmd) : Answer :=
  match hooks.trySendCallCmd cmd with
  | .ok sent => ⟨.ok, sent, false⟩
  | .error message => ⟨.err exitUsage message, hooks, false⟩

def denied (hooks : Hooks) : Answer :=
  ⟨.err exitDenied
    "permission denied: elevated privileges required for this TUN control operation",
    hooks, false⟩

/-- `handle_ctl_request`; `privileged` is whether it got a `PrivilegedPeer`. -/
def handleCtlRequest (req : CtlRequest) (hooks : Hooks) (privileged : Bool) : Answer :=
  match req with
  | .status => ⟨hooks.state.statusResponse, hooks, false⟩
  | .peers => ⟨hooks.state.peersResponse, hooks, false⟩
  | .call target => answerCall hooks (.dial target)
  | .accept peer => if privileged then answerCall hooks (.accept peer) else denied hooks
  | .reject peer => if privileged then answerCall hooks (.reject peer) else denied hooks
  | .shutdown => if privileged then ⟨.ok, hooks, true⟩ else denied hooks

/-- `resolve_ctl_privilege` -/
def resolveCtlPrivilege (requirePrivilege isPrivileged : Bool) : Bool :=
  !requirePrivilege || isPrivileged

theorem answerCall_shutdown (hooks : Hooks) (cmd : CallCmd) :
    (answerCall hooks cmd).shutdown = false := by
  unfold answerCall
  split <;> rfl

/-- Only a privileged `Shutdown` stops the daemon. -/
theorem handleCtlRequest_shutdown_iff {req : CtlRequest} {hooks : Hooks} {privileged : Bool} :
    (handleCtlRequest req hooks privileged).shutdown = true ↔
      req = .shutdown ∧ privileged = true := by
  cases req with
  | status | peers => exact ⟨nofun, fun both => nomatch both.1⟩
  | call target =>
      rw [handleCtlRequest, answerCall_shutdown]
      exact ⟨nofun, fun both => nomatch both.1⟩
  | accept peer | reject peer =>
      refine ⟨fun stops => ?_, fun both => nomatch both.1⟩
      rw [handleCtlRequest] at stops
      split at stops
      · rw [answerCall_shutdown] at stops
        cases stops
      · cases stops
  | shutdown => cases privileged <;> simp [handleCtlRequest, denied]

end LinkP2p.Daemon
