import LinkP2p.Tun.HubPacket
import LinkP2p.Tun.PeerSender
import LinkP2p.Tun.PhoneCalls

/-!
# The packets between phones

A packet from the TUN of a phone leaves on the connection of the entry that has its
destination, and the phone at the other end reads what comes on the connections of its
running sessions. The entry belongs to a session whose claim failed and a running session
has none, so the two ends of one connection never both take part.
-/

namespace LinkP2p.Tun.Phone

open LinkP2p.Lib LinkP2p.Lib.Transition
open LinkP2p.Tun.Sender (Wire)

/-- What is at the other end of a connection. -/
structure Far where
  id : EndpointId
  own : OwnVips
  deriving DecidableEq, Repr

/-- A phone, and the connection that each of its sessions was spawned for, which the
sender of the session goes on writing to. -/
structure Station where
  daemon : Daemon
  sessions : HashMap Nat Connection

def Station.start : Station := ⟨.start, ∅⟩

/-- QUIC authenticates the peer at the other end, and it announces its own addresses. -/
def genuine (far : Connection → Far) (daemon : Daemon) : DaemonEvent → Bool
  | .main (.handshaken peer _) => peer = (far daemon.nextConn).id
  | .dial i .connected =>
      (daemon.dials.get i).all fun task => task.peer = (far daemon.nextConn).id
  | .call i (.exchanged peer) => (daemon.calls.get i).all fun task => peer = (far task.conn).own
  | _ => true

/-- The sessions after a step, which spawns at most one. -/
def Station.record (station : Station) (daemon : Daemon) : HashMap Nat Connection :=
  match daemon.calls.get station.daemon.nextTask with
  | some task => station.sessions.put station.daemon.nextTask task.conn
  | none => station.sessions

def stationStep (config : PhoneConfig) (far : Connection → Far) (station : Station)
    (event : DaemonEvent) : Option Station :=
  if genuine far station.daemon event then
    (daemonStep config station.daemon event).map fun daemon => ⟨daemon, station.record daemon⟩
  else none

/-! ## The way of a packet -/

/-- The packet is for this entry: the tests on its destination and that of `find`. -/
def isFor (own : OwnVips) (p : ActivePeer) (pkt : List UInt8) : Bool :=
  match ipv4Dst pkt, ipv6Dst pkt with
  | some dst, _ => if dst == own.v4 || !vipInMesh dst then false else p.vip == dst
  | none, some dst => if dst == own.v6 || !vip6InMesh dst then false else p.vip6 == dst
  | none, none => false

/-- The task between the TUN and the peers hands the packet to the sender of an entry that
it is for, whichever `find` meets first. -/
def Outbound (own : OwnVips) (peers : ActivePeers) (pkt : List UInt8) (sender : Sender) : Prop :=
  ∃ p ∈ peers.values, isFor own p pkt = true ∧ p.outbound = sender

/-- What a running session lets through to the TUN. -/
def letsIn (own : OwnVips) (peer : ActivePeer) (pkt : List UInt8) : Bool :=
  ((ipv4Src pkt).any (· == peer.vip) || (ipv6Src pkt).any (· == peer.vip6)) &&
    ((ipv4Dst pkt).any (· == own.v4) || (ipv6Dst pkt).any (· == own.v6))

/-- The packet goes from the one to the other, in either family. -/
def Addressed (source target : OwnVips) (pkt : List UInt8) : Prop :=
  ipv4Src pkt = some source.v4 ∧ ipv4Dst pkt = some target.v4 ∨
    ipv6Src pkt = some source.v6 ∧ ipv6Dst pkt = some target.v6

/-- Phones by their ids, and how their connections are joined. -/
structure Phones where
  config : EndpointId → PhoneConfig
  ownId : ∀ s, (config s).ownId = s
  /-- The other end of each end. -/
  far : EndpointId × Connection → EndpointId × Connection
  far_far : ∀ place, far (far place) = place

def Phones.farOf (phones : Phones) (s : EndpointId) (conn : Connection) : Far :=
  ⟨(phones.far (s, conn)).1, (phones.config (phones.far (s, conn)).1).own⟩

/-- One step of one phone. -/
def phonesStep (phones : Phones) (state : EndpointId → Station)
    (event : EndpointId × DaemonEvent) : Option (EndpointId → Station) :=
  (stationStep (phones.config event.1) (phones.farOf event.1) (state event.1) event.2).map
    (Function.update state event.1)

def Phones.start : EndpointId → Station := fun _ => .start

/-- A packet from the TUN of phone `s` comes out of the TUN of phone `t`, as the phones and
the senders stand. -/
def ComesOut (phones : Phones) (state : EndpointId → Station)
    (wires : EndpointId → Connection → Wire) (s : EndpointId) (pkt : List UInt8)
    (t : EndpointId) : Prop :=
  ∃ sender conn i task peer,
    Outbound (phones.config s).own (state s).daemon.peers pkt sender ∧
      (state s).sessions.get sender.chan = some conn ∧ (wires s conn).passes pkt = true ∧
      phones.far (s, conn) = (t, task.conn) ∧ (state t).daemon.calls.get i = some task ∧
      task.stage = .running peer ∧ letsIn (phones.config t).own peer pkt = true

/-- Phone `s` sends to phone `t` on this connection, and `t` reads it. -/
def Carries (phones : Phones) (state : EndpointId → Station) (s : EndpointId) (conn : Connection)
    (t : EndpointId) : Prop :=
  ∃ p i task peer,
    (state s).daemon.peers.get t = some p ∧
      (state s).sessions.get p.outbound.chan = some conn ∧
      phones.far (s, conn) = (t, task.conn) ∧ (state t).daemon.calls.get i = some task ∧
      task.stage = .running peer

/-! ## One phone -/

section Station

variable {config : PhoneConfig} {far : Connection → Far} {station next : Station}

/-- Different connections, with numbers below the next one. -/
structure Distinct (conns : Multiset Connection) (nextConn : Connection) : Prop where
  once : conns.Nodup
  bound : ∀ conn ∈ conns, conn < nextConn

theorem Distinct.mono {conns fewer : Multiset Connection} {nextConn later : Connection}
    (distinct : Distinct conns nextConn) (less : fewer ≤ conns) (grows : nextConn ≤ later) :
    Distinct fewer later where
  once := Multiset.nodup_of_le less distinct.once
  bound conn member :=
    Nat.lt_of_lt_of_le (distinct.bound conn (Multiset.mem_of_le less member)) grows

theorem Distinct.cons {conns : Multiset Connection} {nextConn later : Connection}
    (distinct : Distinct conns nextConn) (grows : nextConn < later) :
    Distinct (nextConn ::ₘ conns) later where
  once := Multiset.nodup_cons.mpr
    ⟨fun member => Nat.lt_irrefl _ (distinct.bound _ member), distinct.once⟩
  bound conn member := by
    rcases Multiset.mem_cons.mp member with rfl | old
    · exact grows
    · exact Nat.lt_trans (distinct.bound conn old) grows

/-- The connections that wait, and those that got a session. -/
def Station.held (station : Station) : Multiset Connection :=
  station.daemon.waiting.map Prod.snd + station.sessions.values

/-- No connection has two holders. -/
structure Station.Numbered (station : Station) : Prop where
  started : Started station.daemon
  fresh : ∀ i, station.daemon.nextTask ≤ i → station.sessions.get i = none
  conn : ∀ i task, station.daemon.calls.get i = some task →
    station.sessions.get i = some task.conn
  held : Distinct station.held station.daemon.nextConn

theorem numbered_start : Station.start.Numbered where
  started := started_start
  fresh i _ := HashMap.get_empty i
  conn i task found := by cases (HashMap.get_empty i).symm.trans found
  held := ⟨Multiset.nodup_zero, fun conn member => absurd member (Multiset.notMem_zero conn)⟩

theorem station_cases {event : DaemonEvent}
    (stepped : stationStep config far station event = some next) :
    genuine far station.daemon event = true ∧
      daemonStep config station.daemon event = some next.daemon ∧
      next.sessions = station.record next.daemon := by
  obtain ⟨allowed, stepped⟩ := Option.ite_none_right_eq_some.mp stepped
  obtain ⟨daemon, moved, rfl⟩ := Option.map_eq_some_iff.mp stepped
  exact ⟨allowed, moved, rfl⟩

theorem record_same {daemon : Daemon} (absent : daemon.calls.get station.daemon.nextTask = none) :
    station.record daemon = station.sessions := by
  rw [Station.record, absent]

theorem record_spawn {daemon : Daemon} {task : Call}
    (calls : daemon.calls = station.daemon.calls.put station.daemon.nextTask task) :
    station.record daemon = station.sessions.put station.daemon.nextTask task.conn := by
  rw [Station.record, calls, HashMap.get_put_self]

/-- A step of a session spawns no other. -/
theorem record_call {daemon : Daemon} {i : Nat} {task : Call} {stage : Option CallStage}
    (numbered : station.Numbered) (found : station.daemon.calls.get i = some task)
    (calls : daemon.calls = (station.daemon.setCall i task stage).calls) :
    station.record daemon = station.sessions := by
  have old := numbered.started.calls station.daemon.nextTask (Nat.le_refl _)
  have other : station.daemon.nextTask ≠ i := by
    rintro rfl
    cases old.symm.trans found
  exact record_same (by rw [calls, get_setCall_of_ne other, old])

/-- A connection that comes with a step is new. -/
theorem Offer.distinct {daemon : Daemon} {event : DaemonEvent}
    {offer : Multiset (EndpointId × Connection)} (numbered : station.Numbered)
    (offers : Offer station.daemon daemon event offer) :
    Distinct (offer.map Prod.snd + station.sessions.values) daemon.nextConn := by
  cases offers with
  | old conns => exact numbered.held.mono (le_refl _) conns
  | incoming free conns =>
      rw [Multiset.map_cons, Multiset.cons_add]
      exact numbered.held.cons conns
  | dialled found connecting conns =>
      rw [Multiset.map_cons, Multiset.cons_add]
      exact numbered.held.cons conns

theorem numbered_step {event : DaemonEvent} (numbered : station.Numbered)
    (stepped : stationStep config far station event = some next) : next.Numbered := by
  obtain ⟨-, moved, sessions⟩ := station_cases stepped
  have started := started_step numbered.started moved
  cases step_moved moved with
  | rests offers waiting calls peers tasks =>
      rw [record_same (calls ▸ numbered.started.calls _ (Nat.le_refl _))] at sessions
      refine ⟨started, fun i bound => ?_, fun i task found => ?_, ?_⟩
      · rw [sessions, numbered.fresh i (Nat.le_trans tasks bound)]
      · rw [sessions, numbered.conn i task (calls ▸ found)]
      · rw [Station.held, sessions]
        exact (offers.distinct numbered).mono
          (add_le_add_left (Multiset.map_le_map waiting) _) (Nat.le_refl _)
  | @spawns offer peer conn dialer offers waiting calls peers tasks =>
      rw [record_spawn calls] at sessions
      have absent := numbered.fresh _ (Nat.le_refl _)
      refine ⟨started, fun i bound => ?_, fun i task found => ?_, ?_⟩
      · rw [tasks] at bound
        rw [sessions, HashMap.get_put_of_ne (Nat.ne_of_gt bound)]
        exact numbered.fresh i (Nat.le_of_succ_le bound)
      · rw [calls, HashMap.get_put] at found
        rw [sessions, HashMap.get_put]
        split at found
        · rw [if_pos ‹_›]
          cases found
          rfl
        · rw [if_neg ‹_›]
          exact numbered.conn i task found
      · rw [Station.held, sessions, HashMap.values_put absent, Multiset.add_cons,
          ← Multiset.cons_add]
        have less := Multiset.map_le_map waiting (f := Prod.snd)
        rw [Multiset.map_cons] at less
        exact (offers.distinct numbered).mono (add_le_add_left less _) (Nat.le_refl _)
  | @call i own task stage effect is present moved waiting calls peers conns tasks =>
      rw [record_call numbered present calls] at sessions
      refine ⟨started, fun j bound => ?_, fun j other found => ?_, ?_⟩
      · rw [sessions, numbered.fresh j (tasks ▸ bound)]
      · rw [sessions]
        rw [calls] at found
        rcases get_setCall found with ⟨rfl, after, -, rfl⟩ | ⟨-, old⟩
        · exact numbered.conn j task present
        · exact numbered.conn j other old
      · rw [Station.held, sessions, waiting, conns]
        exact numbered.held

/-- The peer of a connection is the one at its other end. -/
structure Station.Facing (far : Connection → Far) (station : Station) : Prop where
  waiting : ∀ peer conn, (peer, conn) ∈ station.daemon.waiting → peer = (far conn).id
  calls : ∀ i task, station.daemon.calls.get i = some task → task.peer = (far task.conn).id

theorem facing_start : Station.start.Facing far where
  waiting peer conn member := absurd member (Multiset.notMem_zero _)
  calls i task found := by cases (HashMap.get_empty i).symm.trans found

theorem Offer.facing {daemon : Daemon} {event : DaemonEvent}
    {offer : Multiset (EndpointId × Connection)} (facing : station.Facing far)
    (allowed : genuine far station.daemon event = true)
    (offers : Offer station.daemon daemon event offer) {peer : EndpointId} {conn : Connection}
    (member : (peer, conn) ∈ offer) : peer = (far conn).id := by
  cases offers with
  | old conns => exact facing.waiting peer conn member
  | incoming free conns =>
      rcases Multiset.mem_cons.mp member with fresh | old
      · cases fresh
        exact of_decide_eq_true allowed
      · exact facing.waiting peer conn old
  | dialled found connecting conns =>
      rcases Multiset.mem_cons.mp member with fresh | old
      · cases fresh
        rw [genuine, found] at allowed
        exact of_decide_eq_true allowed
      · exact facing.waiting peer conn old

theorem facing_step {event : DaemonEvent} (facing : station.Facing far)
    (stepped : stationStep config far station event = some next) : next.Facing far := by
  obtain ⟨allowed, moved, -⟩ := station_cases stepped
  cases step_moved moved with
  | rests offers waiting calls peers tasks =>
      refine ⟨fun peer conn member => ?_, fun i task found => facing.calls i task (calls ▸ found)⟩
      exact offers.facing facing allowed (Multiset.mem_of_le waiting member)
  | spawns offers waiting calls peers tasks =>
      refine ⟨fun peer conn member => ?_, fun i task found => ?_⟩
      · exact offers.facing facing allowed
          (Multiset.mem_of_le waiting (Multiset.mem_cons_of_mem member))
      · rw [calls, HashMap.get_put] at found
        split at found
        · cases found
          exact offers.facing facing allowed
            (Multiset.mem_of_le waiting (Multiset.mem_cons_self _ _))
        · exact facing.calls i task found
  | @call i own task stage effect is present moved waiting calls peers conns tasks =>
      refine ⟨fun peer conn member => facing.waiting peer conn (waiting ▸ member), ?_⟩
      intro j other found
      rw [calls] at found
      rcases get_setCall found with ⟨rfl, after, -, rfl⟩ | ⟨-, old⟩
      · exact facing.calls j task present
      · exact facing.calls j other old

/-- Whose the entries of the map are: of sessions that are over, as their claims have
failed. A session that was told of its success has met the entry of another one. -/
structure Booked (config : PhoneConfig) (far : Connection → Far) (peers : ActivePeers)
    (calls : HashMap Nat Call) (sessions : HashMap Nat Connection) : Prop where
  entries : ∀ key p, peers.get key = some p →
    ∃ conn, sessions.get p.outbound.chan = some conn ∧ key = (far conn).id ∧
      p.vip = (far conn).own.v4 ∧ p.vip6 = (far conn).own.v6 ∧
      unusable config.own (far conn).own = false
  ended : ∀ key p task, peers.get key = some p → calls.get p.outbound.chan = some task →
    ∃ at_, task.stage = .reconciling at_
  told : ∀ i task entry, calls.get i = some task → task.stage.entry = some entry →
    entry.vip = (far task.conn).own.v4 ∧ entry.vip6 = (far task.conn).own.v6 ∧
      ∃ j conn, j ≠ i ∧ sessions.get j = some conn ∧ (far conn).id = task.peer

section Booked

variable {peers : ActivePeers} {calls : HashMap Nat Call} {sessions : HashMap Nat Connection}

theorem booked_start : Booked config far ∅ ∅ ∅ where
  entries key p found := by cases (HashMap.get_empty key).symm.trans found
  ended key p task found := by cases (HashMap.get_empty key).symm.trans found
  told i task entry found := by cases (HashMap.get_empty i).symm.trans found

theorem Booked.spawn (booked : Booked config far peers calls sessions) {n : Nat} {task : Call}
    (absent : sessions.get n = none) (untold : task.stage.entry = none) :
    Booked config far peers (calls.put n task) (sessions.put n task.conn) := by
  have old : ∀ {i conn}, sessions.get i = some conn →
      i ≠ n ∧ (sessions.put n task.conn).get i = some conn := by
    intro i conn found
    have other : i ≠ n := by
      rintro rfl
      cases absent.symm.trans found
    exact ⟨other, (HashMap.get_put_of_ne other _ _).trans found⟩
  constructor
  · intro key p found
    obtain ⟨conn, session, facts⟩ := booked.entries key p found
    exact ⟨conn, (old session).2, facts⟩
  · intro key p other found there
    obtain ⟨conn, session, -⟩ := booked.entries key p found
    rw [HashMap.get_put_of_ne (old session).1] at there
    exact booked.ended key p other found there
  · intro i other entry found held
    rw [HashMap.get_put] at found
    split at found
    · cases found
      cases untold.symm.trans held
    · obtain ⟨vip, vip6, j, conn, apart, session, same⟩ := booked.told i other entry found held
      exact ⟨vip, vip6, j, conn, apart, (old session).2, same⟩

/-- An entry is removed. -/
theorem Booked.remove (booked : Booked config far peers calls sessions) (entry : ActivePeer) :
    Booked config far (removeClosure entry peers) calls sessions where
  entries key p found := booked.entries key p (HashMap.get_of_get_remove found).2
  ended key p task found := booked.ended key p task (HashMap.get_of_get_remove found).2
  told := booked.told

/-- A failed claim has left its entry. -/
theorem Booked.put (booked : Booked config far peers calls sessions) {entry : ActivePeer}
    {conn : Connection} (session : sessions.get entry.outbound.chan = some conn)
    (id : entry.id = (far conn).id) (vip : entry.vip = (far conn).own.v4)
    (vip6 : entry.vip6 = (far conn).own.v6) (usable : unusable config.own (far conn).own = false)
    (ended : ∀ task, calls.get entry.outbound.chan = some task →
      ∃ at_, task.stage = .reconciling at_) :
    Booked config far (HashMap.put peers entry.id entry) calls sessions where
  entries key p found := by
    rcases HashMap.get_of_get_put found with ⟨rfl, rfl⟩ | ⟨-, old⟩
    · exact ⟨conn, session, id, vip, vip6, usable⟩
    · exact booked.entries key p old
  ended key p task found := by
    rcases HashMap.get_of_get_put found with ⟨rfl, rfl⟩ | ⟨-, old⟩
    · exact ended task
    · exact booked.ended key p task old
  told := booked.told

end Booked

def Station.Booked (config : PhoneConfig) (far : Connection → Far) (station : Station) : Prop :=
  Phone.Booked config far station.daemon.peers station.daemon.calls station.sessions

/-- A session goes on without a change of the map. -/
theorem Station.Booked.stage (booked : station.Booked config far) {i : Nat} {task : Call}
    {stage : Option CallStage} (present : station.daemon.calls.get i = some task)
    (ended : ∀ at_ after, task.stage = .reconciling at_ → stage = some after →
      ∃ later, after = .reconciling later)
    (told : ∀ after entry, stage = some after → after.entry = some entry →
      task.stage.entry = some entry ∨
        entry.vip = (far task.conn).own.v4 ∧ entry.vip6 = (far task.conn).own.v6 ∧
          ∃ j conn, j ≠ i ∧ station.sessions.get j = some conn ∧ (far conn).id = task.peer) :
    Phone.Booked config far station.daemon.peers (station.daemon.setCall i task stage).calls
      station.sessions where
  entries := booked.entries
  ended key p other found there := by
    rcases get_setCall there with ⟨same, after, left, rfl⟩ | ⟨-, old⟩
    · obtain ⟨at_, place⟩ := booked.ended key p task found (same ▸ present)
      exact ended at_ after place left
    · exact booked.ended key p other found old
  told j other entry found held := by
    rcases get_setCall found with ⟨rfl, after, left, rfl⟩ | ⟨-, old⟩
    · rcases told after entry left held with before | facts
      · exact booked.told j task entry present before
      · exact facts
    · exact booked.told j other entry old held

theorem call_booked {i : Nat} {own : CallEvent} {task : Call} {stage : Option CallStage}
    {effect : Effect} (numbered : station.Numbered) (facing : station.Facing far)
    (booked : station.Booked config far) (allowed : genuine far station.daemon (.call i own) = true)
    (present : station.daemon.calls.get i = some task)
    (moved : callStep config station.daemon i task.peer task.stage own = some (stage, effect)) :
    Phone.Booked config far (effect.apply station.daemon).peers
      (station.daemon.setCall i task stage).calls station.sessions := by
  have move := callStep_move moved
  have mine := numbered.conn i task present
  have announced : ∀ vips, own = .exchanged vips → vips = (far task.conn).own := by
    rintro vips rfl
    rw [genuine, present] at allowed
    exact of_decide_eq_true allowed
  have told : ∀ after entry, stage = some after → after.entry = some entry →
      task.stage.entry = some entry ∨
        entry.vip = (far task.conn).own.v4 ∧ entry.vip6 = (far task.conn).own.v6 ∧
          ∃ j conn, j ≠ i ∧ station.sessions.get j = some conn ∧ (far conn).id = task.peer := by
    intro after entry left held
    rcases move.told left held with before | ⟨vips, exchanged, place, rfl, succeeded⟩
    · exact .inl before
    · -- the entry that the claim has met belongs to a session that is over
      obtain ⟨p, found, -⟩ := claimSucceeded_iff.mp succeeded
      obtain ⟨conn, session, same, -⟩ := booked.entries _ p found
      have apart : p.outbound.chan ≠ i := by
        intro chan
        obtain ⟨at_, ended⟩ := booked.ended _ p task found (chan ▸ present)
        cases place.symm.trans ended
      rw [announced vips exchanged]
      exact .inr ⟨rfl, rfl, p.outbound.chan, conn, apart, session, same.symm⟩
  have staged := booked.stage present (fun at_ after place left => (place ▸ move).ended left) told
  generalize task.stage = place at move
  cases move with
  | fails | routes | announces => exact staged
  | leaves => exact staged.remove _
  | @reconciles at_ => cases at_ <;> exact staged
  | @claims vips entry usable is =>
      change Phone.Booked config far (claimClosure entry station.daemon.peers) _ _
      by_cases conflict : Taken station.daemon.peers entry
      · rw [claimClosure_of_taken conflict]
        exact staged
      · rw [claimClosure, if_neg fun taken => conflict (taken_iff.mp taken)]
        have vips_eq := announced vips rfl
        subst is
        refine staged.put mine (facing.calls i task present) (by rw [vips_eq]) (by rw [vips_eq])
          (vips_eq ▸ usable) fun other there => ?_
        rcases get_setCall there with ⟨-, after, left, rfl⟩ | ⟨apart, -⟩
        · rw [claimSucceeded_of_free conflict] at left
          cases left
          exact ⟨.peers, rfl⟩
        · exact absurd rfl apart

theorem booked_step {event : DaemonEvent} (numbered : station.Numbered)
    (facing : station.Facing far) (booked : station.Booked config far)
    (stepped : stationStep config far station event = some next) : next.Booked config far := by
  obtain ⟨allowed, moved, sessions⟩ := station_cases stepped
  unfold Station.Booked
  cases step_moved moved with
  | rests offers waiting calls peers tasks =>
      rw [sessions, record_same (calls ▸ numbered.started.calls _ (Nat.le_refl _)), calls, peers]
      exact booked
  | spawns offers waiting calls peers tasks =>
      rw [sessions, record_spawn calls, calls, peers]
      exact booked.spawn (numbered.fresh _ (Nat.le_refl _)) rfl
  | @call i own task stage effect is present moved waiting calls peers conns tasks =>
      rw [sessions, record_call numbered present calls, calls, peers]
      exact call_booked numbered facing booked (is ▸ allowed) present moved

/-- What holds of a phone in every run. -/
structure Station.Sound (config : PhoneConfig) (far : Connection → Far) (station : Station) :
    Prop where
  numbered : station.Numbered
  facing : station.Facing far
  booked : station.Booked config far

theorem sound_start : Station.start.Sound config far := ⟨numbered_start, facing_start, booked_start⟩

theorem sound_step {event : DaemonEvent} (sound : station.Sound config far)
    (stepped : stationStep config far station event = some next) : next.Sound config far :=
  ⟨numbered_step sound.numbered stepped, facing_step sound.facing stepped,
    booked_step sound.numbered sound.facing sound.booked stepped⟩

/-- Two sessions have two connections. -/
theorem Station.Numbered.apart (numbered : station.Numbered) {i j : Nat} {conn other : Connection}
    (first : station.sessions.get i = some conn) (second : station.sessions.get j = some other)
    (distinct : i ≠ j) : conn ≠ other := by
  rintro rfl
  have once : station.sessions.values.Nodup :=
    Multiset.nodup_of_le (Multiset.le_add_left _ _) numbered.held.once
  exact distinct (HashMap.key_unique once first second)

end Station

/-! ## All phones -/

section Phones

variable {phones : Phones} {state next : EndpointId → Station}

def AllSound (phones : Phones) (state : EndpointId → Station) : Prop :=
  ∀ s, (state s).Sound (phones.config s) (phones.farOf s)

theorem allSound_step {event : EndpointId × DaemonEvent} (sound : AllSound phones state)
    (stepped : phonesStep phones state event = some next) : AllSound phones next := by
  obtain ⟨station, moved, rfl⟩ := Option.map_eq_some_iff.mp stepped
  intro s
  by_cases same : s = event.1
  · subst same
    rw [Function.update_self]
    exact sound_step (sound event.1) moved
  · rw [Function.update_of_ne same]
    exact sound s

theorem allSound_run {events : List (EndpointId × DaemonEvent)}
    (ran : run (phonesStep phones) Phones.start events = some state) : AllSound phones state :=
  (allStates_of_invariant (fun _ _ _ => allSound_step) (fun _ => sound_start) events).final ran

/-- What the entries and the running sessions at the two ends of a connection have. -/
structure Ends (phones : Phones) (s t : EndpointId) (p peer : ActivePeer) : Prop where
  vip : p.vip = (phones.config t).own.v4
  vip6 : p.vip6 = (phones.config t).own.v6
  usable : unusable (phones.config s).own (phones.config t).own = false
  back : peer.vip = (phones.config s).own.v4
  back6 : peer.vip6 = (phones.config s).own.v6

theorem farOf_far {s t : EndpointId} {conn other : Connection}
    (joined : phones.far (s, conn) = (t, other)) :
    phones.farOf s conn = ⟨t, (phones.config t).own⟩ ∧
      phones.farOf t other = ⟨s, (phones.config s).own⟩ := by
  have back : phones.far (t, other) = (s, conn) := by rw [← joined, phones.far_far]
  rw [Phones.farOf, Phones.farOf, joined, back]
  exact ⟨rfl, rfl⟩

theorem AllSound.ends (sound : AllSound phones state) {s t key : EndpointId} {i : Nat}
    {conn : Connection} {p peer : ActivePeer} {task : Call}
    (entry : (state s).daemon.peers.get key = some p)
    (sends : (state s).sessions.get p.outbound.chan = some conn)
    (joined : phones.far (s, conn) = (t, task.conn))
    (session : (state t).daemon.calls.get i = some task) (runs : task.stage = .running peer) :
    key = t ∧ Ends phones s t p peer := by
  obtain ⟨there, here⟩ := farOf_far joined
  obtain ⟨conn', sends', named, vip, vip6, usable⟩ := (sound s).booked.entries key p entry
  cases sends.symm.trans sends'
  rw [there] at named vip vip6 usable
  obtain ⟨back, back6, -⟩ := (sound t).booked.told i task peer session (by rw [runs]; rfl)
  rw [here] at back back6
  exact ⟨named, vip, vip6, usable, back, back6⟩

/-- Both filters in one family of addresses. -/
theorem passes_family {A : Type} [DecidableEq A] {inMesh : A → Bool} {own there src dst : A}
    (apart : there ≠ own) (inside : inMesh there = true) :
    (if dst == own || !inMesh dst then false else there == dst) = true ∧
        (src == own && dst == there) = true ↔ src = own ∧ dst = there := by
  constructor
  · rintro ⟨-, lets⟩
    rwa [Bool.and_eq_true, beq_iff_eq, beq_iff_eq] at lets
  · rintro ⟨rfl, rfl⟩
    simp [apart, inside]

/-- Both filters together let exactly the packets between the two addresses pass. -/
theorem Ends.passes_iff {s t : EndpointId} {p peer : ActivePeer} (ends : Ends phones s t p peer)
    (pkt : List UInt8) :
    isFor (phones.config s).own p pkt = true ∧ letsIn (phones.config t).own peer pkt = true ↔
      Addressed (phones.config s).own (phones.config t).own pkt := by
  have usable := ends.usable
  simp only [unusable, Bool.or_eq_false_iff, beq_eq_false_iff_ne, Bool.not_eq_false'] at usable
  obtain ⟨⟨⟨apart, apart6⟩, inside⟩, inside6⟩ := usable
  unfold isFor letsIn Addressed
  rw [ends.vip, ends.vip6, ends.back, ends.back6]
  rcases family_cases pkt with ⟨src, dst, from4, to4⟩ | ⟨src, dst, from6, to6⟩ |
    ⟨none4, none4', none6, none6'⟩
  · have none6' : ipv6Dst pkt = none := by
      cases found : ipv6Dst pkt with
      | none => rfl
      | some other => cases (ipv4Dst_eq_none found).symm.trans to4
    simp only [from4, to4, ipv6Src_eq_none from4, none6', Option.any_some, Option.any_none,
      Bool.or_false, Option.some.injEq, reduceCtorEq, false_and, or_false]
    exact passes_family apart inside
  · simp only [from6, to6, ipv4Src_eq_none from6, ipv4Dst_eq_none to6, Option.any_some,
      Option.any_none, Bool.false_or, Option.some.injEq, reduceCtorEq, false_and, false_or]
    exact passes_family apart6 inside6
  · simp [none4, none4', none6, none6']

/-! ## Two phones that call each other twice -/

def lowVips : OwnVips := ⟨0xAC180001, 0xfd24ac18000000000000000000000001⟩

def highVips : OwnVips := ⟨0xAC180002, 0xfd24ac18000000000000000000000002⟩

def otherOf (s : EndpointId) : EndpointId := if s = 1 then 2 else if s = 2 then 1 else s

/-- The phones 1 and 2, with one number for both ends of a connection. -/
def twoPhones : Phones where
  config s := ⟨s, if s = 1 then lowVips else highVips, none, fun _ => true,
    fun _ => some (otherOf s), fun _ _ => true, fun _ => true⟩
  ownId _ := rfl
  far place := (otherOf place.1, place.2)
  far_far place := by
    refine Prod.ext ?_ rfl
    change otherOf (otherOf place.1) = place.1
    unfold otherOf
    split
    · simp [*]
    · split <;> simp [*]

/-- Phone 1 dials twice; the claims of the two connections come in different orders. -/
def crossing : List (EndpointId × DaemonEvent) :=
  [(1, .main (.dial "2")), (1, .main .next), (1, .main (.dial "2")), (1, .main .next),
    (1, .dial 0 .connected), (2, .main .incoming), (2, .main (.handshaken 1 .tun)),
    (1, .dial 1 .connected), (2, .main .incoming), (2, .main (.handshaken 1 .tun)),
    (1, .call 2 (.exchanged highVips)), (1, .call 3 (.exchanged highVips)),
    (2, .call 1 (.exchanged lowVips)), (2, .call 0 (.exchanged lowVips)),
    (2, .call 0 (.routed true)), (2, .call 0 .next)]

theorem crossing_carries :
    ∃ state, run (phonesStep twoPhones) Phones.start crossing = some state ∧
      Carries twoPhones state 1 0 2 := by
  have ends : (run (phonesStep twoPhones) Phones.start crossing).map (fun state =>
      ((state 1).daemon.peers.get 2, (state 1).sessions.get 2, (state 2).daemon.calls.get 0)) =
      some (some ⟨2, highVips.v4, highVips.v6, ⟨2⟩⟩, some 0,
        some ⟨1, 0, false, .running ⟨1, lowVips.v4, lowVips.v6, ⟨0⟩⟩⟩) := by decide +kernel
  obtain ⟨state, ran, values⟩ := Option.map_eq_some_iff.mp ends
  simp only [Prod.mk.injEq] at values
  obtain ⟨entry, sends, session⟩ := values
  exact ⟨state, ran, _, 0, _, _, entry, sends, rfl, session, rfl⟩

/-! ## What the packets do -/

/-- **The packets between phones.** At every moment of every run, a packet from the TUN of
one phone comes out of the TUN of another exactly when it goes from the address of the one
to that of the other, some connection carries what the one sends to the other, and its
sender lets the packet through. -/
theorem phone_packets_iff {events : List (EndpointId × DaemonEvent)}
    (ran : run (phonesStep phones) Phones.start events = some state)
    (wires : EndpointId → Connection → Wire) (s t : EndpointId) (pkt : List UInt8) :
    ComesOut phones state wires s pkt t ↔
      Addressed (phones.config s).own (phones.config t).own pkt ∧
        ∃ conn, Carries phones state s conn t ∧ (wires s conn).passes pkt = true := by
  have sound := allSound_run ran
  constructor
  · rintro ⟨sender, conn, i, task, peer, ⟨p, member, meant, rfl⟩, sends, fits, joined, session,
      runs, lets⟩
    obtain ⟨key, entry⟩ := HashMap.mem_values.mp member
    obtain ⟨named, ends⟩ := sound.ends entry sends joined session runs
    refine ⟨(ends.passes_iff pkt).mp ⟨meant, lets⟩, conn, ?_, fits⟩
    exact ⟨p, i, task, peer, named ▸ entry, sends, joined, session, runs⟩
  · rintro ⟨addressed, conn, ⟨p, i, task, peer, entry, sends, joined, session, runs⟩, fits⟩
    obtain ⟨-, ends⟩ := sound.ends entry sends joined session runs
    obtain ⟨meant, lets⟩ := (ends.passes_iff pkt).mpr addressed
    exact ⟨p.outbound, conn, i, task, peer, ⟨p, HashMap.mem_values.mpr ⟨_, entry⟩, meant, rfl⟩,
      sends, fits, joined, session, runs, lets⟩

/-- A packet of phone 1 gets to phone 2. -/
theorem phone_packets_iff_crossing :
    ∃ state, run (phonesStep twoPhones) Phones.start crossing = some state ∧
      ComesOut twoPhones state (fun _ _ => ⟨true, some 1162, true⟩) 1
        (Hub.ipv4Packet lowVips.v4 highVips.v4) 2 := by
  obtain ⟨state, ran, carries⟩ := crossing_carries
  have fits : (⟨true, some 1162, true⟩ : Wire).passes
      (Hub.ipv4Packet lowVips.v4 highVips.v4) = true := by
    rw [Wire.passes, Sender.fits, Hub.length_ipv4Packet]
    rfl
  refine ⟨state, ran, (phone_packets_iff ran _ 1 2 _).mpr ⟨.inl ⟨?_, ?_⟩, 0, carries, fits⟩⟩
  · exact Hub.ipv4Src_packet ..
  · exact Hub.ipv4Dst_packet ..

/-- **A connection carries packets one way, and never alone.** In every run, the phone that
sends on a connection never reads it, and the one that reads it has got another connection
with the sender before. -/
theorem carries_one_way {events : List (EndpointId × DaemonEvent)}
    (ran : run (phonesStep phones) Phones.start events = some state) {s t : EndpointId}
    {conn : Connection} (carries : Carries phones state s conn t) :
    (∀ i task peer, (state s).daemon.calls.get i = some task → task.conn = conn →
      task.stage ≠ .running peer) ∧
    ∃ j other, (state t).sessions.get j = some other ∧ (phones.far (t, other)).1 = s ∧
      phones.far (t, other) ≠ (s, conn) := by
  have sound := allSound_run ran
  obtain ⟨p, i, task, peer, entry, sends, joined, session, runs⟩ := carries
  constructor
  · rintro j mine other there rfl reads
    have same : j = p.outbound.chan := by
      by_contra apart
      exact (sound s).numbered.apart ((sound s).numbered.conn j mine there) sends apart rfl
    subst same
    obtain ⟨at_, ended⟩ := (sound s).booked.ended _ p mine entry there
    cases ended.symm.trans reads
  · obtain ⟨-, -, j, other, apart, there, same⟩ :=
      (sound t).booked.told i task peer session (by rw [runs]; rfl)
    refine ⟨j, other, there, ?_, ?_⟩
    · have back := (farOf_far joined).2
      have mine := (sound t).facing.calls i task session
      rw [back] at mine
      exact same.trans mine
    · intro there'
      have distinct := (sound t).numbered.apart there ((sound t).numbered.conn i task session) apart
      have both : (t, other) = (t, task.conn) := by
        rw [← phones.far_far (t, other), there', joined]
      exact distinct (Prod.mk.inj both).2

/-- The other connection of phone 2 to phone 1. -/
theorem carries_one_way_crossing :
    ∃ state, run (phonesStep twoPhones) Phones.start crossing = some state ∧
      ∃ j other, (state 2).sessions.get j = some other ∧ other ≠ 0 := by
  obtain ⟨state, ran, carries⟩ := crossing_carries
  obtain ⟨-, j, other, there, -, apart⟩ := carries_one_way ran carries
  refine ⟨state, ran, j, other, there, ?_⟩
  rintro rfl
  exact apart rfl

end Phones

end LinkP2p.Tun.Phone
