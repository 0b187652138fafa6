import LinkP2p.Lib.Notify

/-!
# The loops of the three data planes

Each plane creates its `cancel.notified()` future afresh in every `select!`. A
plane that handles an incoming connection, dials, exchanges addresses or runs a
command holds no such future. Only the waits and the branches that leave them
are kept here.
-/

namespace LinkP2p.Daemon

open LinkP2p.Lib

/-- A data plane as the worker sees it. -/
structure DataPlane (π α : Type*) extends Notify.Task π α where
  start : π
  /-- What the action sends through `signal_ready`: `Ok` or an error. -/
  signals : α → Option Bool
  ended : π → Bool

/-! ## Hub -/

/-- Where `run_tun_serve` stands. -/
inductive HubPoint where
  /-- Before its loop. -/
  | starting
  /-- At the loop head, before the first poll of the `select!`. -/
  | head
  /-- In the `select!`, with its `Notified` future. -/
  | selecting (marked : Bool)
  /-- In `accepting.await`, inside the accept branch. -/
  | handshake
  /-- In `endpoint.close().await`. -/
  | closing
  | ended
  deriving DecidableEq, Repr

inductive HubAct where
  | started
  | startFailed (signalled : Bool)
  | poll
  /-- The accept branch wins; branches are polled in random order. -/
  | incoming
  /-- `endpoint.accept()` returns `None`. -/
  | endpointClosed
  /-- The handshake has failed or the session is spawned. -/
  | handshaken
  | cancelled
  | closed
  deriving DecidableEq, Repr

def hubStep : HubPoint → HubAct → Option HubPoint
  | .starting, .started => some .head
  | .starting, .startFailed _ => some .closing
  | .head, .poll => some (.selecting false)
  | .head, .incoming | .selecting _, .incoming => some .handshake
  | .head, .endpointClosed | .selecting _, .endpointClosed => some .ended
  | .handshake, .handshaken => some .head
  | .selecting true, .cancelled => some .closing
  | .closing, .closed => some .ended
  | _, _ => none

def HubPoint.waiter : HubPoint → Option Bool
  | .selecting marked => some marked
  | _ => none

def HubPoint.notifyWaiters : HubPoint → HubPoint
  | .selecting _ => .selecting true
  | point => point

def HubPoint.left : HubPoint → Bool
  | .closing | .ended => true
  | _ => false

def hubPlane : DataPlane HubPoint HubAct where
  step := hubStep
  waiter := HubPoint.waiter
  notifyWaiters := HubPoint.notifyWaiters
  left := HubPoint.left
  drops _ act := act = .incoming
  waiter_notify point := by cases point <;> rfl
  left_notify point := by cases point <;> rfl
  left_step point act next stepped stopped := by
    cases point <;> cases stopped <;> cases act <;> cases stepped
    rfl
  leaves point marked := by
    cases point <;> cases marked
    exact ⟨[.cancelled], .closing, rfl, rfl⟩
  drops_iff point act next stepped marked := by
    cases point <;> cases marked
    cases act <;> cases stepped <;> simp [HubPoint.left, HubPoint.waiter]
  start := .starting
  signals
    | .started => some true
    | .startFailed true => some false
    | _ => none
  ended point := point = .ended

/-! ## Spoke -/

/-- Where `run_tun_connect_inner` stands. -/
inductive SpokePoint where
  | starting
  /-- At the head of the dial loop, with or without a delay to sleep. -/
  | head (delay : Bool)
  /-- In the `select!` around `time::sleep(d)`. -/
  | backoff (marked : Bool)
  /-- In `endpoint.connect`. -/
  | dialing
  /-- In the VIP exchange and the set-up of the session. -/
  | exchanging
  /-- Before the first poll of the session's `select!`. -/
  | sessionHead
  /-- In the session's `select!`, which polls the cancel branch first. -/
  | session (marked : Bool)
  /-- In a poll of that `select!`, past its cancel branch. -/
  | polled (marked : Bool)
  /-- In the timer branch. -/
  | refreshing
  | closing
  | ended
  deriving DecidableEq, Repr

inductive SpokeAct where
  | started
  | startFailed (signalled : Bool)
  | poll
  | park
  | slept
  | dial
  | connected
  /-- The dial, the exchange or the set-up has failed. -/
  | failed
  | established
  /-- `conn.closed()` -/
  | peerGone
  | timer
  | refreshed
  | cancelled
  | closed
  deriving DecidableEq, Repr

def spokeStep : SpokePoint → SpokeAct → Option SpokePoint
  | .starting, .started => some (.head false)
  | .starting, .startFailed _ => some .closing
  | .head false, .dial => some .dialing
  | .head true, .poll => some (.backoff false)
  | .backoff _, .slept => some .dialing
  | .backoff true, .cancelled => some .closing
  | .dialing, .connected => some .exchanging
  | .dialing, .failed | .exchanging, .failed => some (.head true)
  | .exchanging, .established => some .sessionHead
  | .sessionHead, .poll | .session false, .poll => some (.polled false)
  | .session true, .cancelled => some .closing
  | .polled marked, .park => some (.session marked)
  | .polled _, .peerGone => some (.head true)
  | .polled _, .timer => some .refreshing
  | .refreshing, .refreshed => some .sessionHead
  | .closing, .closed => some .ended
  | _, _ => none

def SpokePoint.waiter : SpokePoint → Option Bool
  | .backoff marked | .session marked | .polled marked => some marked
  | _ => none

def SpokePoint.notifyWaiters : SpokePoint → SpokePoint
  | .backoff _ => .backoff true
  | .session _ => .session true
  | .polled _ => .polled true
  | point => point

def SpokePoint.left : SpokePoint → Bool
  | .closing | .ended => true
  | _ => false

def spokePlane : DataPlane SpokePoint SpokeAct where
  step := spokeStep
  waiter := SpokePoint.waiter
  notifyWaiters := SpokePoint.notifyWaiters
  left := SpokePoint.left
  drops _ act := act = .slept || act = .peerGone || act = .timer
  waiter_notify point := by cases point <;> rfl
  left_notify point := by cases point <;> rfl
  left_step point act next stepped stopped := by
    cases point <;> cases stopped <;> cases act <;> cases stepped
    rfl
  leaves point marked := by
    cases point <;> cases marked
    · exact ⟨[.cancelled], .closing, rfl, rfl⟩
    · exact ⟨[.cancelled], .closing, rfl, rfl⟩
    · exact ⟨[.park, .cancelled], .closing, rfl, rfl⟩
  drops_iff point act next stepped marked := by
    cases point <;> cases marked <;> cases act <;> cases stepped <;>
      simp [SpokePoint.left, SpokePoint.waiter]
  start := .starting
  signals
    | .started => some true
    | .startFailed true => some false
    | _ => none
  ended point := point = .ended

/-! ## Phone -/

/-- Where `run_tun_phone` stands. -/
inductive PhonePoint where
  | starting
  | head
  | selecting (marked : Bool)
  /-- Inside the accept, the command or the tick branch. -/
  | serving
  | closing
  | ended
  deriving DecidableEq, Repr

inductive PhoneAct where
  | started
  | startFailed (signalled : Bool)
  | poll
  | incoming
  | command
  | tick
  | endpointClosed
  /-- The command channel has no sender left. -/
  | commandsClosed
  | served
  | cancelled
  | closed
  deriving DecidableEq, Repr

/-- The branches that serve something and go on with the loop. -/
def PhoneAct.serves : PhoneAct → Bool
  | .incoming | .command | .tick => true
  | _ => false

def phoneStep (point : PhonePoint) (act : PhoneAct) : Option PhonePoint :=
  match point, act with
  | .starting, .started => some .head
  | .starting, .startFailed _ => some .closing
  | .head, .poll => some (.selecting false)
  | .head, .endpointClosed | .selecting _, .endpointClosed => some .ended
  | .head, .commandsClosed | .selecting _, .commandsClosed => some .closing
  | .serving, .served => some .head
  | .selecting true, .cancelled => some .closing
  | .closing, .closed => some .ended
  | .head, act | .selecting _, act => if act.serves then some .serving else none
  | _, _ => none

def PhonePoint.waiter : PhonePoint → Option Bool
  | .selecting marked => some marked
  | _ => none

def PhonePoint.notifyWaiters : PhonePoint → PhonePoint
  | .selecting _ => .selecting true
  | point => point

def PhonePoint.left : PhonePoint → Bool
  | .closing | .ended => true
  | _ => false

def phonePlane : DataPlane PhonePoint PhoneAct where
  step := phoneStep
  waiter := PhonePoint.waiter
  notifyWaiters := PhonePoint.notifyWaiters
  left := PhonePoint.left
  drops _ act := act.serves
  waiter_notify point := by cases point <;> rfl
  left_notify point := by cases point <;> rfl
  left_step point act next stepped stopped := by
    cases point <;> cases stopped <;> cases act <;> cases stepped
    rfl
  leaves point marked := by
    cases point <;> cases marked
    exact ⟨[.cancelled], .closing, rfl, rfl⟩
  drops_iff point act next stepped marked := by
    cases point <;> cases marked
    cases act <;> cases stepped <;> simp [PhonePoint.left, PhonePoint.waiter, PhoneAct.serves]
  start := .starting
  signals
    | .started => some true
    | .startFailed true => some false
    | _ => none
  ended point := point = .ended

end LinkP2p.Daemon
