import LinkP2p.Lib.Rcu
import LinkP2p.Tun.HubPacket
import LinkP2p.Tun.Roster

/-!
# Sessions of the hub

Every accepted connection runs `hub_run_spoke` as a task of its own. The tasks
share the peer index, the roster fans and the host routes of the TUN; each
access to one of them is one step, and the steps of all tasks interleave.
-/

namespace LinkP2p.Tun.Hub

open LinkP2p.Lib LinkP2p.Lib.Transition LinkP2p.Lib.Rcu

/-- What `run_tun_serve` fixes before it accepts. -/
structure HubConfig where
  ownId : EndpointId
  own : OwnVips
  allow : Option (Finset EndpointId)

/-- A hub at 172.24.0.254 that admits every peer. -/
def openHub : HubConfig :=
  ⟨9, ⟨0xAC1800FE, 0xfd24ac180000000000000000000000fe⟩, none⟩

/-- Where `hub_run_spoke` stands once it has built its `HubPeer`. -/
inductive Point where
  | claim
  | verify
  | insertFan
  | addRoute4
  | addRoute6
  | routeFailed
  | routeFailedFan
  | snapshot
  | collectJoined
  /-- The senders that `broadcast_roster` has yet to serve. -/
  | sendJoined (rest : Multiset Sender)
  | running
  | remove
  | reload
  | removeFan (removed : Bool)
  | collectLeft (removed : Bool)
  | sendLeft (removed : Bool) (rest : Multiset Sender)
  | delRoute4 (removed : Bool)
  | delRoute6
  /-- `try_claim_peer` returned `Err`. -/
  | rejected
  /-- `add_peer_route` returned `Err`. -/
  | routeErr
  | finished

inductive Task where
  | exchanging (peerId : EndpointId)
  /-- Before the control stream and its HELLO. -/
  | opening (peerId : EndpointId) (peer : OwnVips)
  | at (peer : HubPeer) (point : Point)
  /-- Returned before the claim. -/
  | aborted

/-- The state that all tasks share, and the tasks by session number. `replaced`
is history: the index that a session's claim replaced when it stored its entries. -/
structure State where
  sessionSeq : Nat
  peers : HubPeerIndex
  fans : HashMap EndpointId Sender
  routes4 : Finset Ipv4Addr
  routes6 : Finset Ipv6Addr
  tasks : Nat → Option Task
  replaced : Nat → Option HubPeerIndex

/-- A hub that has accepted nothing yet. -/
def State.start : State where
  sessionSeq := 0
  peers := .empty
  fans := ∅
  routes4 := ∅
  routes6 := ∅
  tasks := fun _ => none
  replaced := fun _ => none

inductive Act where
  | exchanged (peer : OwnVips)
  | exchangeFailed
  /-- The control stream is open; `none` when no HELLO could be read in time. -/
  | controlOpened (hello : Option Bool)
  | controlFailed
  | claim
  | verify
  | insertFan
  /-- One `ip route replace`. -/
  | addRoute (ok : Bool)
  /-- The swap of `peers_remove_if_owned`. -/
  | remove
  /-- Its read of the index afterwards. -/
  | reload
  | removeFan
  | snapshot (entries : List RosterEntry)
  /-- `broadcast_roster` copies the senders, -/
  | collect
  /-- sends to one of them, -/
  | send (fan : Sender)
  /-- and has served them all. -/
  | sent
  | packet (pkt : List UInt8)
  | closed
  /-- One `ip route del`. -/
  | delRoute

/-- What a step does to the shared state or sends out. -/
inductive Effect where
  | silent
  | store (idx : HubPeerIndex) (installs : Option Nat)
  | insertFan (id : EndpointId) (fan : Sender)
  | removeFan (id : EndpointId)
  | addRoute4 (vip : Ipv4Addr)
  | addRoute6 (vip6 : Ipv6Addr)
  | delRoute4 (vip : Ipv4Addr)
  | delRoute6 (vip6 : Ipv6Addr)
  | write (msg : RosterMsg)
  | enqueue (fan : Sender) (msg : RosterMsg)
  | transmit (verdict : Verdict)

def Effect.apply (hub : State) : Effect → State
  | .store idx installs =>
      { hub with
        peers := idx
        replaced := match installs with
          | none => hub.replaced
          | some session => Function.update hub.replaced session (some hub.peers) }
  | .insertFan id fan => { hub with fans := hub.fans.put id fan }
  | .removeFan id => { hub with fans := hub.fans.remove id }
  | .addRoute4 vip => { hub with routes4 := insert vip hub.routes4 }
  | .addRoute6 vip6 => { hub with routes6 := insert vip6 hub.routes6 }
  | .delRoute4 vip => { hub with routes4 := hub.routes4.erase vip }
  | .delRoute6 vip6 => { hub with routes6 := hub.routes6.erase vip6 }
  | .silent | .write _ | .enqueue _ _ | .transmit _ => hub

def HubPeer.entry (peer : HubPeer) : RosterEntry := ⟨peer.vip, peer.vip6, peer.id⟩

/-- `hub_roster_snapshot`, in the order in which the map happens to iterate. -/
def hubRosterSnapshot (cfg : HubConfig) (idx : HubPeerIndex) : Multiset RosterEntry :=
  ⟨cfg.own.v4, cfg.own.v6, cfg.ownId⟩ ::ₘ
    (idx.byV4.values.filter fun p => p.hidden = false).map HubPeer.entry

/-- The session that the claim closure installs when it runs on `idx`. -/
def installs (peer : HubPeer) (idx : HubPeerIndex) : Option Nat :=
  if foreign peer.id (idx.byV4.get peer.vip) || foreign peer.id (idx.byV6.get peer.vip6) then
    none
  else some peer.session

theorem installs_of_admits {peer : HubPeer} {idx : HubPeerIndex} (admits : Admits peer idx) :
    installs peer idx = some peer.session := by
  rw [installs, if_neg]
  rw [Bool.or_eq_true, foreign_iff, foreign_iff, not_or]
  exact admits

theorem installs_of_not_admits {peer : HubPeer} {idx : HubPeerIndex}
    (refused : ¬ Admits peer idx) : installs peer idx = none := by
  rw [installs, if_pos]
  rw [Bool.or_eq_true, foreign_iff, foreign_iff]
  by_contra free
  exact refused (not_or.mp free)

/-- One step of `hub_run_spoke`; `seen` is the index that an `rcu` closure runs on. -/
def pointStep (cfg : HubConfig) (seen : HubPeerIndex) (hub : State) (peer : HubPeer) :
    Point → Act → Option (Point × Effect)
  | .claim, .claim => some (.verify, .store (claimClosure peer seen) (installs peer seen))
  | .verify, .verify =>
      match claimVerdict peer hub.peers with
      | .ok _ => some (.insertFan, .silent)
      | .error _ => some (.rejected, .silent)
  | .insertFan, .insertFan => some (.addRoute4, .insertFan peer.id (.roster peer.session))
  | .addRoute4, .addRoute ok =>
      if ok then some (.addRoute6, .addRoute4 peer.vip) else some (.routeFailed, .silent)
  | .addRoute6, .addRoute ok =>
      if ok then some (.snapshot, .addRoute6 peer.vip6) else some (.routeFailed, .silent)
  | .routeFailed, .remove =>
      some (.routeFailedFan, .store (removeClosure peer.vip peer.vip6 peer.session seen) none)
  | .routeFailedFan, .removeFan => some (.routeErr, .removeFan peer.id)
  | .snapshot, .snapshot entries =>
      if (entries : Multiset RosterEntry) = hubRosterSnapshot cfg hub.peers then
        some (if peer.hidden then .running else .collectJoined,
          .write (encodeSnapshot entries))
      else none
  | .collectJoined, .collect => some (.sendJoined hub.fans.values, .silent)
  | .sendJoined rest, .send fan =>
      if fan ∈ rest then some (.sendJoined (rest.erase fan), .enqueue fan (.joined peer.entry))
      else none
  | .sendJoined rest, .sent => if rest = 0 then some (.running, .silent) else none
  | .running, .packet pkt =>
      some (.running, .transmit (hubPeerToMesh cfg.own hub.peers peer pkt))
  | .running, .closed => some (.remove, .silent)
  | .remove, .remove =>
      some (.reload, .store (removeClosure peer.vip peer.vip6 peer.session seen) none)
  | .reload, .reload => some (.removeFan (slotsEmpty peer.vip peer.vip6 hub.peers), .silent)
  | .removeFan removed, .removeFan =>
      some (if peer.hidden then .delRoute4 removed else .collectLeft removed,
        .removeFan peer.id)
  | .collectLeft removed, .collect => some (.sendLeft removed hub.fans.values, .silent)
  | .sendLeft removed rest, .send fan =>
      if fan ∈ rest then
        some (.sendLeft removed (rest.erase fan), .enqueue fan (.left peer.entry))
      else none
  | .sendLeft removed rest, .sent =>
      if rest = 0 then some (.delRoute4 removed, .silent) else none
  | .delRoute4 removed, .delRoute =>
      if removed then some (.delRoute6, .delRoute4 peer.vip) else some (.finished, .silent)
  | .delRoute6, .delRoute => some (.finished, .delRoute6 peer.vip6)
  | _, _ => none

/-- The check that `hub_run_spoke` makes on the announced addresses. -/
def usable (own peer : OwnVips) : Bool :=
  !(peer.v4 == own.v4 || peer.v6 == own.v6 || !vipInMesh peer.v4 || !vip6InMesh peer.v6)

/-- One step of the task of session `i`. -/
def taskStep (cfg : HubConfig) (seen : HubPeerIndex) (hub : State) (i : Nat) :
    Task → Act → Option (Task × Effect)
  | .exchanging peerId, .exchanged peer =>
      some (if usable cfg.own peer then .opening peerId peer else .aborted, .silent)
  | .exchanging _, .exchangeFailed => some (.aborted, .silent)
  | .opening peerId peer, .controlOpened hello =>
      some (.at ⟨peerId, i, peer.v4, peer.v6, .outbound i, hello.getD false⟩ .claim, .silent)
  | .opening _ _, .controlFailed => some (.aborted, .silent)
  | .at peer point, act =>
      (pointStep cfg seen hub peer point act).map fun (next, effect) => (.at peer next, effect)
  | _, _ => none

inductive Event where
  /-- The accept loop completed a handshake that is not a ping probe. -/
  | accept (peerId : EndpointId)
  | act (session : Nat) (act : Act)

/-- `check_allow` -/
def checkAllow (allow : Option (Finset EndpointId)) (peerId : EndpointId) : Bool :=
  match allow with
  | none => true
  | some set => decide (peerId ∈ set)

/-- One step of the hub; `seen` is the index that an `rcu` closure runs on. -/
def step (cfg : HubConfig) (seen : HubPeerIndex) (hub : State) : Event → Option State
  | .accept peerId =>
      -- the number is used up even when the peer is denied
      let session := hub.sessionSeq + 1
      some { hub with
        sessionSeq := session
        tasks := if checkAllow cfg.allow peerId then
            Function.update hub.tasks session (some (.exchanging peerId))
          else hub.tasks }
  | .act i act =>
      (hub.tasks i).bind fun task =>
        (taskStep cfg seen hub i task act).map fun (next, effect) =>
          { effect.apply hub with tasks := Function.update hub.tasks i (some next) }

/-- What the step of an event sends out or does to the shared state. -/
def effectOf (cfg : HubConfig) (seen : HubPeerIndex) (hub : State) : Event → Effect
  | .accept _ => .silent
  | .act i act =>
      ((hub.tasks i).bind fun task => (taskStep cfg seen hub i task act).map Prod.snd).getD .silent

/-- The session whose compare-and-swap on the index the event is. -/
def Event.swaps : Event → Option Nat
  | .act i .claim => some i
  | .act i .remove => some i
  | _ => none

/-! ## Inversion -/

/-- The moves of `hub_run_spoke`, one constructor for each branch. -/
inductive Moves (cfg : HubConfig) (seen : HubPeerIndex) (hub : State) (peer : HubPeer) :
    Point → Act → Point → Effect → Prop where
  | claim : Moves cfg seen hub peer .claim .claim .verify
      (.store (claimClosure peer seen) (installs peer seen))
  | verified (ok : OwnSlot peer.id (hub.peers.byV4.get peer.vip)) :
      Moves cfg seen hub peer .verify .verify .insertFan .silent
  | rejected (lost : ¬ OwnSlot peer.id (hub.peers.byV4.get peer.vip)) :
      Moves cfg seen hub peer .verify .verify .rejected .silent
  | insertFan : Moves cfg seen hub peer .insertFan .insertFan .addRoute4
      (.insertFan peer.id (.roster peer.session))
  | addRoute4 : Moves cfg seen hub peer .addRoute4 (.addRoute true) .addRoute6
      (.addRoute4 peer.vip)
  | failRoute4 : Moves cfg seen hub peer .addRoute4 (.addRoute false) .routeFailed .silent
  | addRoute6 : Moves cfg seen hub peer .addRoute6 (.addRoute true) .snapshot
      (.addRoute6 peer.vip6)
  | failRoute6 : Moves cfg seen hub peer .addRoute6 (.addRoute false) .routeFailed .silent
  | removeFailed : Moves cfg seen hub peer .routeFailed .remove .routeFailedFan
      (.store (removeClosure peer.vip peer.vip6 peer.session seen) none)
  | removeFanFailed : Moves cfg seen hub peer .routeFailedFan .removeFan .routeErr
      (.removeFan peer.id)
  | snapshotHidden (entries : List RosterEntry) (hidden : peer.hidden = true)
      (listed : (entries : Multiset RosterEntry) = hubRosterSnapshot cfg hub.peers) :
      Moves cfg seen hub peer .snapshot (.snapshot entries) .running
        (.write (encodeSnapshot entries))
  | snapshotShown (entries : List RosterEntry) (shown : peer.hidden = false)
      (listed : (entries : Multiset RosterEntry) = hubRosterSnapshot cfg hub.peers) :
      Moves cfg seen hub peer .snapshot (.snapshot entries) .collectJoined
        (.write (encodeSnapshot entries))
  | collectJoined : Moves cfg seen hub peer .collectJoined .collect
      (.sendJoined hub.fans.values) .silent
  | sendJoined (rest : Multiset Sender) (fan : Sender) (waiting : fan ∈ rest) :
      Moves cfg seen hub peer (.sendJoined rest) (.send fan) (.sendJoined (rest.erase fan))
        (.enqueue fan (.joined peer.entry))
  | joined : Moves cfg seen hub peer (.sendJoined 0) .sent .running .silent
  | packet (pkt : List UInt8) : Moves cfg seen hub peer .running (.packet pkt) .running
      (.transmit (hubPeerToMesh cfg.own hub.peers peer pkt))
  | closed : Moves cfg seen hub peer .running .closed .remove .silent
  | remove : Moves cfg seen hub peer .remove .remove .reload
      (.store (removeClosure peer.vip peer.vip6 peer.session seen) none)
  | reload : Moves cfg seen hub peer .reload .reload
      (.removeFan (slotsEmpty peer.vip peer.vip6 hub.peers)) .silent
  | removeFanHidden (removed : Bool) (hidden : peer.hidden = true) :
      Moves cfg seen hub peer (.removeFan removed) .removeFan (.delRoute4 removed)
        (.removeFan peer.id)
  | removeFanShown (removed : Bool) (shown : peer.hidden = false) :
      Moves cfg seen hub peer (.removeFan removed) .removeFan (.collectLeft removed)
        (.removeFan peer.id)
  | collectLeft (removed : Bool) : Moves cfg seen hub peer (.collectLeft removed) .collect
      (.sendLeft removed hub.fans.values) .silent
  | sendLeft (removed : Bool) (rest : Multiset Sender) (fan : Sender) (waiting : fan ∈ rest) :
      Moves cfg seen hub peer (.sendLeft removed rest) (.send fan)
        (.sendLeft removed (rest.erase fan)) (.enqueue fan (.left peer.entry))
  | left (removed : Bool) : Moves cfg seen hub peer (.sendLeft removed 0) .sent
      (.delRoute4 removed) .silent
  | keepRoutes : Moves cfg seen hub peer (.delRoute4 false) .delRoute .finished .silent
  | delRoute4 : Moves cfg seen hub peer (.delRoute4 true) .delRoute .delRoute6
      (.delRoute4 peer.vip)
  | delRoute6 : Moves cfg seen hub peer .delRoute6 .delRoute .finished (.delRoute6 peer.vip6)

variable {cfg : HubConfig} {seen : HubPeerIndex} {hub next : State}

theorem pointStep_moves {peer : HubPeer} {point point' : Point} {act : Act} {effect : Effect}
    (stepped : pointStep cfg seen hub peer point act = some (point', effect)) :
    Moves cfg seen hub peer point act point' effect := by
  cases point with
  | claim => cases act <;> cases stepped; exact .claim
  | verify =>
      cases act <;> simp only [pointStep, reduceCtorEq] at stepped
      split at stepped <;> rename_i verdict <;> cases stepped
      · exact .verified (claimVerdict_ok_iff.mp verdict)
      · refine .rejected fun own => ?_
        rw [claimVerdict_ok_iff.mpr own] at verdict
        cases verdict
  | insertFan => cases act <;> cases stepped; exact .insertFan
  | addRoute4 =>
      cases act <;> simp only [pointStep, reduceCtorEq] at stepped
      rename_i ok
      cases ok <;> cases stepped
      · exact .failRoute4
      · exact .addRoute4
  | addRoute6 =>
      cases act <;> simp only [pointStep, reduceCtorEq] at stepped
      rename_i ok
      cases ok <;> cases stepped
      · exact .failRoute6
      · exact .addRoute6
  | routeFailed => cases act <;> cases stepped; exact .removeFailed
  | routeFailedFan => cases act <;> cases stepped; exact .removeFanFailed
  | snapshot =>
      cases act <;> simp only [pointStep, reduceCtorEq, Option.ite_none_right_eq_some] at stepped
      obtain ⟨listed, stepped⟩ := stepped
      cases shown : peer.hidden <;> simp only [shown] at stepped <;> cases stepped
      · exact .snapshotShown _ shown listed
      · exact .snapshotHidden _ shown listed
  | collectJoined => cases act <;> cases stepped; exact .collectJoined
  | sendJoined rest =>
      cases act <;> simp only [pointStep, reduceCtorEq, Option.ite_none_right_eq_some] at stepped
      · obtain ⟨waiting, stepped⟩ := stepped
        cases stepped
        exact .sendJoined _ _ waiting
      · obtain ⟨rfl, stepped⟩ := stepped
        cases stepped
        exact .joined
  | running =>
      cases act <;> cases stepped
      · exact .packet _
      · exact .closed
  | remove => cases act <;> cases stepped; exact .remove
  | reload => cases act <;> cases stepped; exact .reload
  | removeFan removed =>
      cases act <;> simp only [pointStep, reduceCtorEq] at stepped
      cases shown : peer.hidden <;> simp only [shown] at stepped <;> cases stepped
      · exact .removeFanShown _ shown
      · exact .removeFanHidden _ shown
  | collectLeft removed => cases act <;> cases stepped; exact .collectLeft _
  | sendLeft removed rest =>
      cases act <;> simp only [pointStep, reduceCtorEq, Option.ite_none_right_eq_some] at stepped
      · obtain ⟨waiting, stepped⟩ := stepped
        cases stepped
        exact .sendLeft _ _ _ waiting
      · obtain ⟨rfl, stepped⟩ := stepped
        cases stepped
        exact .left _
  | delRoute4 removed =>
      cases act <;> simp only [pointStep, reduceCtorEq] at stepped
      cases removed <;> cases stepped
      · exact .keepRoutes
      · exact .delRoute4
  | delRoute6 => cases act <;> cases stepped; exact .delRoute6
  | rejected | routeErr | finished => cases act <;> cases stepped

/-- A task's step: it builds its `HubPeer`, aborts, or moves. -/
inductive TaskMoves (cfg : HubConfig) (seen : HubPeerIndex) (hub : State) (i : Nat) :
    Task → Act → Task → Effect → Prop where
  | exchanged (peerId : EndpointId) (peer : OwnVips) (fits : usable cfg.own peer = true) :
      TaskMoves cfg seen hub i (.exchanging peerId) (.exchanged peer) (.opening peerId peer)
        .silent
  | aborted (task : Task) (act : Act) (early : ∀ peer point, task ≠ .at peer point) :
      TaskMoves cfg seen hub i task act .aborted .silent
  | opened (peerId : EndpointId) (peer : OwnVips) (hello : Option Bool) :
      TaskMoves cfg seen hub i (.opening peerId peer) (.controlOpened hello)
        (.at ⟨peerId, i, peer.v4, peer.v6, .outbound i, hello.getD false⟩ .claim) .silent
  | moved (peer : HubPeer) {point point' : Point} {act : Act} {effect : Effect}
      (move : Moves cfg seen hub peer point act point' effect) :
      TaskMoves cfg seen hub i (.at peer point) act (.at peer point') effect

theorem taskStep_moves {i : Nat} {task task' : Task} {act : Act} {effect : Effect}
    (stepped : taskStep cfg seen hub i task act = some (task', effect)) :
    TaskMoves cfg seen hub i task act task' effect := by
  cases task with
  | exchanging peerId =>
      cases act <;> simp only [taskStep, reduceCtorEq, Option.some.injEq, Prod.mk.injEq] at stepped
      · obtain ⟨rfl, rfl⟩ := stepped
        split
        · exact .exchanged _ _ ‹_›
        · exact .aborted _ _ nofun
      · obtain ⟨rfl, rfl⟩ := stepped
        exact .aborted _ _ nofun
  | opening peerId peer =>
      cases act <;> simp only [taskStep, reduceCtorEq, Option.some.injEq, Prod.mk.injEq] at stepped
      · obtain ⟨rfl, rfl⟩ := stepped
        exact .opened _ _ _
      · obtain ⟨rfl, rfl⟩ := stepped
        exact .aborted _ _ nofun
  | «at» peer point =>
      simp only [taskStep, Option.map_eq_some_iff, Prod.mk.injEq] at stepped
      obtain ⟨⟨point', effect'⟩, stepped, rfl, rfl⟩ := stepped
      exact .moved peer (pointStep_moves stepped)
  | aborted => cases act <;> cases stepped

theorem act_cases {i : Nat} {act : Act}
    (stepped : step cfg seen hub (.act i act) = some next) :
    ∃ task task' effect, hub.tasks i = some task ∧
      TaskMoves cfg seen hub i task act task' effect ∧
      next = { effect.apply hub with tasks := Function.update hub.tasks i (some task') } ∧
      effectOf cfg seen hub (.act i act) = effect := by
  simp only [step, Option.bind_eq_some_iff, Option.map_eq_some_iff] at stepped
  obtain ⟨task, found, ⟨task', effect⟩, moved, rfl⟩ := stepped
  refine ⟨task, task', effect, found, taskStep_moves moved, rfl, ?_⟩
  simp [effectOf, found, moved]

end LinkP2p.Tun.Hub
