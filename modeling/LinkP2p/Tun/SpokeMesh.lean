import LinkP2p.Lib.HashMap
import LinkP2p.Lib.Transition
import LinkP2p.Tun.Roster

/-!
# The direct links of a spoke

A spoke dials the peers on its roster with a higher id and accepts those with a
lower one. After the VIP exchange a link is entered under the addresses that the
peer has announced. The session loop, the roster readers and the tasks of the
links change one table, each by loading it, changing a copy and storing that.
-/

namespace LinkP2p.Tun.Spoke

open LinkP2p.Lib LinkP2p.Lib.Bytes LinkP2p.Lib.Transition

/-! ## The VIP exchange -/

/-- `MAGIC` of `exchange_peer_vips`: `L3VP` -/
def vipMagic : List UInt8 := [0x4c, 0x33, 0x56, 0x50]

/-- The frame that both sides of `exchange_peer_vips` write. -/
def encodeVips (own : OwnVips) : List UInt8 :=
  vipMagic ++ Ipv4Addr.octets own.v4 ++ Ipv6Addr.octets own.v6

/-- Unspecified, broadcast or multicast. -/
def unusable4 (ip : Ipv4Addr) : Bool := ip == 0 || ip == 0xFFFFFFFF || ip >>> 28 == 0xE

/-- Unspecified or multicast. -/
def unusable6 (ip : Ipv6Addr) : Bool := ip == 0 || ip >>> 120 == 0xFF

/-- What `exchange_peer_vips` makes of the 24 bytes that it reads. -/
def decodeVips (frame : List UInt8) : Option OwnVips :=
  let peer : OwnVips := ⟨.ofOctets (slice frame 4 4), .ofOctets (slice frame 8 16)⟩
  if frame.length ≠ 24 || frame.take 4 ≠ vipMagic then none
  else if unusable4 peer.v4 || unusable6 peer.v6 then none
  else some peer

theorem decodeVips_encodeVips (own : OwnVips) :
    decodeVips (encodeVips own) =
      if unusable4 own.v4 || unusable6 own.v6 then none else some own := by
  have v4 : slice (encodeVips own) 4 4 = Ipv4Addr.octets own.v4 :=
    slice_append rfl (length_toBytes _ _) _
  have v6 : slice (encodeVips own) 8 16 = Ipv6Addr.octets own.v6 := by
    refine slice_suffix ?_ (length_toBytes _ _)
    rw [List.length_append, Ipv4Addr.octets, length_toBytes]
    rfl
  have width : (encodeVips own).length = 24 := by
    rw [encodeVips, List.length_append, List.length_append, Ipv4Addr.octets, Ipv6Addr.octets,
      length_toBytes, length_toBytes]
    rfl
  have magic : (encodeVips own).take 4 = vipMagic := by
    rw [encodeVips, List.append_assoc]
    exact List.take_left' rfl
  rw [decodeVips, v4, v6, width, magic, Ipv4Addr.ofOctets_octets, Ipv6Addr.ofOctets_octets]
  rfl

/-! ## The table -/

/-- What one spoke process is started with. -/
structure Config where
  ownId : EndpointId
  own : OwnVips
  hubId : EndpointId
  hidden : Bool
  allow : Option (List EndpointId)

/-- Sending half of a packet queue: of the `s`-th hub session or of link `n`. -/
inductive Out where
  | hub (s : Nat)
  | link (n : Nat)
  deriving DecidableEq, Repr

structure SpokeMesh where
  hubVip : Option Ipv4Addr
  hubVip6 : Option Ipv6Addr
  /-- The hub session whose sender is in use. -/
  hubOut : Option Nat
  direct : HashMap Ipv4Addr Nat
  direct6 : HashMap Ipv6Addr Nat
  roster : HashMap EndpointId OwnVips

def SpokeMesh.new : SpokeMesh := ⟨none, none, none, ∅, ∅, ∅⟩

def SpokeMesh.clearHub (mesh : SpokeMesh) : SpokeMesh :=
  { mesh with hubVip := none, hubVip6 := none, hubOut := none }

def SpokeMesh.lookupOut (mesh : SpokeMesh) (pkt : List UInt8) : Option Out :=
  match ipv4Dst pkt with
  | some dst =>
      if mesh.hubVip = some dst then mesh.hubOut.map .hub
      else match mesh.direct.get dst with
        | some n => some (.link n)
        | none => if vipInMesh dst then mesh.hubOut.map .hub else none
  | none =>
      match ipv6Dst pkt with
      | some dst =>
          if mesh.hubVip6 = some dst then mesh.hubOut.map .hub
          else match mesh.direct6.get dst with
            | some n => some (.link n)
            | none => if vip6InMesh dst then mesh.hubOut.map .hub else none
      | none => none

def packetIsOwn (pkt : List UInt8) (own : OwnVips) : Bool :=
  match ipv4Dst pkt with
  | some dst => dst == own.v4
  | none =>
      match ipv6Dst pkt with
      | some dst => dst == own.v6
      | none => false

/-- The TUN demux task: where a packet from the TUN is sent. -/
def SpokeMesh.forward (mesh : SpokeMesh) (own : OwnVips) (pkt : List UInt8) : Option Out :=
  if packetIsOwn pkt own then none else mesh.lookupOut pkt

/-- What a link takes from its peer: only packets from the announced addresses. -/
def accepts (peer : OwnVips) (pkt : List UInt8) : Bool :=
  (ipv4Src pkt).any (· == peer.v4) || (ipv6Src pkt).any (· == peer.v6)

/-- The hub is connected. -/
def SpokeMesh.enter (hubId : EndpointId) (hub : OwnVips) (session : Nat) (mesh : SpokeMesh) :
    SpokeMesh :=
  { mesh with
    hubVip := some hub.v4
    hubVip6 := some hub.v6
    hubOut := some session
    roster := mesh.roster.put hubId hub }

/-- `spoke_install_direct` -/
def SpokeMesh.install (n : Nat) (peerId : EndpointId) (peer : OwnVips) (mesh : SpokeMesh) :
    SpokeMesh :=
  { mesh with
    roster := mesh.roster.put peerId peer
    direct := mesh.direct.put peer.v4 n
    direct6 := mesh.direct6.put peer.v6 n }

/-- The end of a direct link. -/
def SpokeMesh.drop (peer : OwnVips) (mesh : SpokeMesh) : SpokeMesh :=
  { mesh with direct := mesh.direct.remove peer.v4, direct6 := mesh.direct6.remove peer.v6 }

/-- What is left to do of a roster message. -/
inductive Todo where
  | insert (e : RosterEntry)
  | left (e : RosterEntry)
  deriving DecidableEq, Repr

def Todo.apply (mesh : SpokeMesh) : Todo → SpokeMesh
  | .insert e => { mesh with roster := mesh.roster.put e.id ⟨e.vip, e.vip6⟩ }
  | .left e =>
      { mesh with
        roster := mesh.roster.remove e.id
        direct := mesh.direct.remove e.vip
        direct6 := mesh.direct6.remove e.vip6 }

/-- `spoke_apply_roster_msg`, one `mesh_update` each. -/
def todoOf (ownId : EndpointId) : RosterMsg → List Todo
  | .snapshot entries => (entries.filter fun e => e.id ≠ ownId).map .insert
  | .joined e => if e.id = ownId then [] else [.insert e]
  | .left e => [.left e]

/-- The effect of a message on the roster that the hub announces. -/
def received (roster : HashMap EndpointId OwnVips) : RosterMsg → HashMap EndpointId OwnVips
  | .snapshot entries => entries.foldl (fun roster e => roster.put e.id ⟨e.vip, e.vip6⟩) ∅
  | .joined e => roster.put e.id ⟨e.vip, e.vip6⟩
  | .left e => roster.remove e.id

/-! ## The tasks -/

inductive Alpn where
  | tun
  | ping
  | other
  deriving DecidableEq, Repr

/-- Where a dial, an accepted connection or a direct link stands. -/
inductive Task where
  /-- `spoke_try_dial_peer` is spawned. -/
  | dial (e : RosterEntry)
  /-- The checks are passed. -/
  | connecting (e : RosterEntry)
  /-- The dialer has written its frame. -/
  | offering (e : RosterEntry)
  /-- The acceptor waits for the peer's frame. -/
  | answering (peerId : EndpointId)
  /-- In `spoke_install_direct`. -/
  | installing (peerId : EndpointId) (peer : OwnVips)
  | opened (peerId : EndpointId) (peer : OwnVips)
  /-- The connection is gone, the entries not yet removed. -/
  | closing (peerId : EndpointId) (peer : OwnVips)
  | closed (peerId : EndpointId) (peer : OwnVips)
  | done
  deriving DecidableEq, Repr

/-- Where the session loop stands. -/
inductive Session where
  | idle
  /-- The frame to the hub is written. -/
  | offering
  | entering (hub : OwnVips)
  | joined
  | leaving
  deriving DecidableEq, Repr

/-- Who calls `mesh_update`. -/
inductive Updater where
  | session
  /-- The roster reader of the `s`-th hub session. -/
  | reader (s : Nat)
  | task (n : Nat)
  deriving DecidableEq, Repr

structure State where
  table : SpokeMesh
  /-- What a `mesh_update` under way has loaded. -/
  loaded : Updater → Option SpokeMesh
  session : Session
  /-- The hub sessions that have started their reader. -/
  sessions : Nat
  todo : Nat → List Todo
  tasks : List Task
  /-- The effect of the roster messages received so far. -/
  hubRoster : HashMap EndpointId OwnVips
  /-- The last link that has installed its entry under the address. -/
  last : HashMap Ipv4Addr Nat
  last6 : HashMap Ipv6Addr Nat

def State.start : State :=
  ⟨.new, fun _ => none, .idle, 0, fun _ => [], [], ∅, ∅, ∅⟩

inductive Effect where
  | silent
  | send (peer : EndpointId) (frame : List UInt8)
  deriving DecidableEq, Repr

inductive TaskAct where
  /-- The checks of `spoke_try_dial_peer_inner`. -/
  | check
  /-- The connection is up and the dialer's frame is written. -/
  | connected
  /-- The dialer reads the answer. -/
  | answer (frame : List UInt8)
  /-- The acceptor reads the peer's frame and writes its own. -/
  | heard (frame : List UInt8)
  /-- An error or a timeout. -/
  | failed
  | closed
  deriving DecidableEq, Repr

inductive Event where
  /-- The session loop connects to the hub and writes its frame. -/
  | dialHub
  | hubAnswer (frame : List UInt8)
  | hubFailed
  | hubGone
  /-- The reader of session `s` takes a message from the hub. -/
  | take (s : Nat) (msg : RosterMsg)
  /-- The first half of `mesh_update`. -/
  | load (updater : Updater)
  /-- The second half. -/
  | store (updater : Updater)
  /-- An inbound connection. -/
  | accept (alpn : Alpn) (peerId : EndpointId)
  | task (n : Nat) (act : TaskAct)

def checkAllow (config : Config) (peer : EndpointId) : Bool :=
  match config.allow with
  | some set => set.contains peer
  | none => true

def shouldDial (own peer : EndpointId) : Bool := own < peer

/-- The checks before a dial. -/
def passes (config : Config) (table : SpokeMesh) (e : RosterEntry) : Bool :=
  !(e.id == config.ownId || e.vip == config.own.v4 || e.vip6 == config.own.v6) &&
    checkAllow config e.id && shouldDial config.ownId e.id && !table.direct.containsKey e.vip

/-- `spoke_install_direct` refuses the spoke's own addresses. -/
def Task.arrived (own : OwnVips) (peerId : EndpointId) (peer : OwnVips) : Task :=
  if peer.v4 = own.v4 ∨ peer.v6 = own.v6 then .done else .installing peerId peer

/-- The task of a dial after the answer. -/
def Task.answered (own : OwnVips) (e : RosterEntry) (frame : List UInt8) : Task :=
  match decodeVips frame with
  | some peer => if peer.v4 = e.vip ∧ peer.v6 = e.vip6 then .arrived own e.id peer else .done
  | none => .done

/-- The task of an accepted connection after the peer's frame. -/
def Task.replied (own : OwnVips) (peerId : EndpointId) (frame : List UInt8) : Task :=
  match decodeVips frame with
  | some peer => .arrived own peerId peer
  | none => .done

def taskStep (config : Config) (table : SpokeMesh) : Task → TaskAct → Option (Task × Effect)
  | .dial e, .check => some (if passes config table e then .connecting e else .done, .silent)
  | .connecting e, .connected => some (.offering e, .send e.id (encodeVips config.own))
  | .offering e, .answer frame => some (.answered config.own e frame, .silent)
  | .answering peerId, .heard frame =>
      -- the magic is looked at only after the own frame is written
      if frame.length = 24 then
        some (.replied config.own peerId frame, .send peerId (encodeVips config.own))
      else none
  | .connecting _, .failed | .offering _, .failed | .answering _, .failed => some (.done, .silent)
  | .opened peerId peer, .closed => some (.closing peerId peer, .silent)
  | _, _ => none

/-- The closure that an updater hands to `mesh_update`. -/
def closure (config : Config) (state : State) : Updater → Option (SpokeMesh → SpokeMesh)
  | .session =>
      match state.session with
      | .entering hub => some (.enter config.hubId hub state.sessions)
      | .leaving => some .clearHub
      | _ => none
  | .reader s => (state.todo s).head?.map fun todo mesh => todo.apply mesh
  | .task n =>
      match state.tasks[n]? with
      | some (.installing peerId peer) => some (.install n peerId peer)
      | some (.closing _ peer) => some (.drop peer)
      | _ => none

/-- What else changes when an updater is through. -/
def advance (state : State) : Updater → State
  | .session =>
      match state.session with
      | .entering _ => { state with session := .joined, sessions := state.sessions + 1 }
      | _ => { state with session := .idle }
  | .reader s =>
      match state.todo s with
      | .insert e :: rest =>
          { state with
            todo := Function.update state.todo s rest
            tasks := state.tasks ++ [.dial e] }
      | .left _ :: rest => { state with todo := Function.update state.todo s rest }
      | [] => state
  | .task n =>
      match state.tasks[n]? with
      | some (.installing peerId peer) =>
          { state with
            tasks := state.tasks.set n (.opened peerId peer)
            last := state.last.put peer.v4 n
            last6 := state.last6.put peer.v6 n }
      | some (.closing peerId peer) =>
          { state with tasks := state.tasks.set n (.closed peerId peer) }
      | _ => state

/-- One step of the spoke. -/
def step (config : Config) (state : State) : Event → Option State
  | .dialHub => if state.session = .idle then some { state with session := .offering } else none
  | .hubAnswer frame =>
      if state.session = .offering then
        some { state with session := ((decodeVips frame).map .entering).getD .idle }
      else none
  | .hubFailed =>
      match state.session with
      | .offering => some { state with session := .idle }
      | .entering _ =>
          if (state.loaded .session).isNone then some { state with session := .idle } else none
      | _ => none
  | .hubGone => if state.session = .joined then some { state with session := .leaving } else none
  | .take s msg =>
      -- a reader that is aborted stops only at its next wait
      if s < state.sessions ∧ state.todo s = [] then
        some { state with
          todo := Function.update state.todo s (todoOf config.ownId msg)
          hubRoster := received state.hubRoster msg }
      else none
  | .load updater =>
      if (closure config state updater).isSome then
        some { state with loaded := Function.update state.loaded updater (some state.table) }
      else none
  | .store updater =>
      (closure config state updater).bind fun f =>
        (state.loaded updater).map fun base =>
          { advance state updater with
            table := f base
            loaded := Function.update state.loaded updater none }
  | .accept alpn peerId =>
      some (if alpn = .tun ∧ checkAllow config peerId ∧ ¬ shouldDial config.ownId peerId then
        { state with tasks := state.tasks ++ [.answering peerId] }
      else state)
  | .task n act =>
      (state.tasks[n]?).bind fun task =>
        (taskStep config state.table task act).map fun (task, _) =>
          { state with tasks := state.tasks.set n task }

/-- What a step writes to a peer. -/
def effectOf (config : Config) (state : State) : Event → Effect
  | .dialHub => .send config.hubId (encodeVips config.own)
  | .hubAnswer frame =>
      if (decodeVips frame).isSome then .send config.hubId (encodeHello config.hidden) else .silent
  | .task n act =>
      (((state.tasks[n]?).bind fun task => taskStep config state.table task act).map
        Prod.snd).getD .silent
  | _ => .silent

/-! ## Inversion -/

/-- The closure that an updater stores with, and what else it changes. -/
inductive Stores (config : Config) (state : State) :
    Updater → (SpokeMesh → SpokeMesh) → State → Prop where
  | enter (hub : OwnVips) (here : state.session = .entering hub) :
      Stores config state .session (.enter config.hubId hub state.sessions)
        { state with session := .joined, sessions := state.sessions + 1 }
  | clear (here : state.session = .leaving) :
      Stores config state .session .clearHub { state with session := .idle }
  | insert (s : Nat) (e : RosterEntry) (rest : List Todo)
      (here : state.todo s = .insert e :: rest) :
      Stores config state (.reader s) (fun mesh => Todo.apply mesh (.insert e))
        { state with
          todo := Function.update state.todo s rest
          tasks := state.tasks ++ [.dial e] }
  | left (s : Nat) (e : RosterEntry) (rest : List Todo) (here : state.todo s = .left e :: rest) :
      Stores config state (.reader s) (fun mesh => Todo.apply mesh (.left e))
        { state with todo := Function.update state.todo s rest }
  | install (n : Nat) (peerId : EndpointId) (peer : OwnVips)
      (here : state.tasks[n]? = some (.installing peerId peer)) :
      Stores config state (.task n) (.install n peerId peer)
        { state with
          tasks := state.tasks.set n (.opened peerId peer)
          last := state.last.put peer.v4 n
          last6 := state.last6.put peer.v6 n }
  | drop (n : Nat) (peerId : EndpointId) (peer : OwnVips)
      (here : state.tasks[n]? = some (.closing peerId peer)) :
      Stores config state (.task n) (.drop peer)
        { state with tasks := state.tasks.set n (.closed peerId peer) }

inductive Move (config : Config) (state : State) : Event → State → Prop where
  | dialHub (session : Session) : Move config state .dialHub { state with session := session }
  | hubAnswer (frame : List UInt8) (session : Session) :
      Move config state (.hubAnswer frame) { state with session := session }
  | hubFailed (session : Session) : Move config state .hubFailed { state with session := session }
  | hubGone (session : Session) : Move config state .hubGone { state with session := session }
  | take (s : Nat) (msg : RosterMsg) :
      Move config state (.take s msg)
        { state with
          todo := Function.update state.todo s (todoOf config.ownId msg)
          hubRoster := received state.hubRoster msg }
  | load (updater : Updater) :
      Move config state (.load updater)
        { state with loaded := Function.update state.loaded updater (some state.table) }
  | store (updater : Updater) (f : SpokeMesh → SpokeMesh) (base : SpokeMesh) (advanced : State)
      (stores : Stores config state updater f advanced)
      (loaded : state.loaded updater = some base) :
      Move config state (.store updater)
        { advanced with
          table := f base
          loaded := Function.update state.loaded updater none }
  | ignored (alpn : Alpn) (peerId : EndpointId) : Move config state (.accept alpn peerId) state
  | admitted (peerId : EndpointId) (allowed : checkAllow config peerId = true) :
      Move config state (.accept .tun peerId)
        { state with tasks := state.tasks ++ [.answering peerId] }
  | task (n : Nat) (act : TaskAct) (task task' : Task) (effect : Effect)
      (here : state.tasks[n]? = some task)
      (moved : taskStep config state.table task act = some (task', effect)) :
      Move config state (.task n act) { state with tasks := state.tasks.set n task' }

variable {config : Config} {state next : State} {event : Event}

theorem stores_of_closure {updater : Updater} {f : SpokeMesh → SpokeMesh}
    (found : closure config state updater = some f) :
    Stores config state updater f (advance state updater) := by
  cases updater with
  | session =>
      cases here : state.session with
      | entering hub =>
          simp only [closure, advance, here] at found ⊢
          cases found
          exact .enter hub here
      | leaving =>
          simp only [closure, advance, here] at found ⊢
          cases found
          exact .clear here
      | _ =>
          simp only [closure, here] at found
          cases found
  | reader s =>
      cases here : state.todo s with
      | nil =>
          simp only [closure, here] at found
          cases found
      | cons todo rest =>
          cases todo with
          | insert e =>
              simp only [closure, advance, here] at found ⊢
              cases found
              exact .insert s e rest here
          | left e =>
              simp only [closure, advance, here] at found ⊢
              cases found
              exact .left s e rest here
  | task n =>
      cases here : state.tasks[n]? with
      | none =>
          simp only [closure, here] at found
          cases found
      | some task =>
          cases task with
          | installing peerId peer =>
              simp only [closure, advance, here] at found ⊢
              cases found
              exact .install n peerId peer here
          | closing peerId peer =>
              simp only [closure, advance, here] at found ⊢
              cases found
              exact .drop n peerId peer here
          | _ =>
              simp only [closure, here] at found
              cases found

theorem step_move (stepped : step config state event = some next) :
    Move config state event next := by
  cases event with
  | dialHub =>
      obtain ⟨_, same⟩ := Option.ite_none_right_eq_some.mp stepped
      cases same
      exact .dialHub _
  | hubAnswer frame =>
      obtain ⟨_, same⟩ := Option.ite_none_right_eq_some.mp stepped
      cases same
      exact .hubAnswer frame _
  | hubFailed =>
      simp only [step] at stepped
      split at stepped
      · cases stepped
        exact .hubFailed _
      · obtain ⟨_, same⟩ := Option.ite_none_right_eq_some.mp stepped
        cases same
        exact .hubFailed _
      · cases stepped
  | hubGone =>
      obtain ⟨_, same⟩ := Option.ite_none_right_eq_some.mp stepped
      cases same
      exact .hubGone _
  | take s msg =>
      obtain ⟨_, same⟩ := Option.ite_none_right_eq_some.mp stepped
      cases same
      exact .take s msg
  | load updater =>
      obtain ⟨_, same⟩ := Option.ite_none_right_eq_some.mp stepped
      cases same
      exact .load updater
  | store updater =>
      obtain ⟨f, found, stepped⟩ := Option.bind_eq_some_iff.mp stepped
      obtain ⟨base, loaded, rfl⟩ := Option.map_eq_some_iff.mp stepped
      exact .store updater f base _ (stores_of_closure found) loaded
  | accept alpn peerId =>
      cases stepped
      split
      · rename_i admitted
        obtain ⟨rfl, allowed, _⟩ := admitted
        exact .admitted peerId allowed
      · exact .ignored alpn peerId
  | task n act =>
      obtain ⟨task, here, stepped⟩ := Option.bind_eq_some_iff.mp stepped
      obtain ⟨⟨task', effect⟩, moved, rfl⟩ := Option.map_eq_some_iff.mp stepped
      exact .task n act task task' effect here moved

end LinkP2p.Tun.Spoke
