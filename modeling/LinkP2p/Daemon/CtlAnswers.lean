import LinkP2p.Daemon.CtlFrame
import LinkP2p.Tun.HubInvariant
import LinkP2p.Tun.PhoneDaemon
import LinkP2p.Tun.SpokeMesh

/-!
# Answers that the client reads

A data plane publishes its peers from a map that it keeps: the hub its index, a
spoke its roster, a phone its calls. The answer to `Peers` lists all of them, the
client takes at most `CTL_MAX_PEERS`.
-/

namespace LinkP2p.Daemon

open LinkP2p.Lib LinkP2p.Lib.Bytes LinkP2p.Lib.Transition LinkP2p.Lib.Rcu
open LinkP2p.Tun

/-! ## What is published -/

/-- The map that a data plane publishes its peers from. -/
inductive Plane where
  | hub (idx : Hub.HubPeerIndex)
  | spoke (roster : HashMap EndpointId OwnVips)
  | phone (active : Phone.ActivePeers)

/-- A session of the hub is where `hub_run_spoke` calls `refresh_hub_peers_state`:
past its `Joined`, or past its `Left`. -/
def Refreshing (hub : Hub.State) : Prop :=
  ∃ i peer, hub.At i peer .running ∨ ∃ removed, hub.At i peer (.delRoute4 removed)

/-- The planes that a running daemon publishes. -/
inductive Plane.Reachable : Plane → Prop where
  | hub {cfg : Hub.HubConfig} {events : List Hub.Event} {hub : Hub.State}
      (ran : run (Hub.hubSystem cfg).atomic .start events = some hub)
      (refreshing : Refreshing hub) : Reachable (.hub hub.peers)
  | spoke {config : Spoke.Config} {events : List Spoke.Event} {state : Spoke.State}
      (ran : run (Spoke.step config) .start events = some state)
      (joined : state.session = .joined) : Reachable (.spoke state.table.roster)
  | phone {config : Phone.PhoneConfig} {events : List Phone.DaemonEvent} {daemon : Phone.Daemon}
      (ran : run (Phone.daemonStep config) .start events = some daemon) :
      Reachable (.phone daemon.peers)

/-- The addresses with their endpoint, as `refresh_hub_peers_state`, the session loop
of the spoke and `refresh_active_peers` collect them. -/
def Plane.entries : Plane → Multiset RosterEntry
  | .hub idx => idx.byV4.values.map Hub.HubPeer.entry
  | .spoke roster => roster.entries.map fun item => ⟨item.2.v4, item.2.v6, item.1⟩
  | .phone active => active.values.map fun p => ⟨p.vip, p.vip6, p.id⟩

/-- `CtlPeer::from`; `idText` is `EndpointId::to_string`. -/
def CtlPeer.of (idText : EndpointId → String) (e : RosterEntry) : CtlPeer :=
  ⟨e.vip, e.vip6, idText e.id⟩

/-- The state that a daemon answers from, once the plane is published. -/
def Publishes (idText : EndpointId → String) (plane : Plane) (live : LiveState) : Prop :=
  (live.peers : Multiset CtlPeer) = plane.entries.map (CtlPeer.of idText)

/-! ## Limits of the two sides -/

/-- A response that is sent is read as it was, and what is too large for the one side
is too large for the other. -/
structure ClientReads (serde : Serde CtlResponse) (resp : CtlResponse) : Prop where
  returns : ∀ frame, encodeResponse serde resp = .ok frame →
    ∀ longer suffix, longer.flatten = frame ++ suffix →
      decodeResponseFrame serde longer.flatten = .ok resp ∧
        ∃ later, readResponse serde longer = .ok (resp, later) ∧ later.flatten = suffix
  limits : ∀ body, serde.toVec resp = some body → body.length < 2 ^ 32 →
    ((∃ frame, encodeResponse serde resp = .ok frame) ↔
      decodeResponseFrame serde
        (ctlMagic ++ [ctlVersion] ++ toBytes 4 body.length ++ body) = .ok resp)

theorem decode_written_iff {serde : Serde CtlResponse} (sound : serde.Sound) {resp : CtlResponse}
    {body : List UInt8} (written : serde.toVec resp = some body) (small : body.length < 2 ^ 32) :
    decodeResponseFrame serde (ctlMagic ++ [ctlVersion] ++ toBytes 4 body.length ++ body) =
        .ok resp ↔
      body.length ≤ ctlMaxBody ∧ ¬ TooManyPeers resp := by
  rw [decodeResponseFrame, decodeFrame_ok_iff, bodyLength_encoded ctlVersion small, slice_encoded,
    parseResponse_written_iff sound written]
  constructor
  · rintro ⟨framed, few⟩
    have fits := framed.fits
    rw [bodyLength_encoded ctlVersion small] at fits
    exact ⟨fits, few⟩
  · rintro ⟨fits, few⟩
    exact ⟨framed_encoded fits, few⟩

/-- The client reads a response unless it is a list of peers that the encoder lets
through and the decoder does not. -/
theorem clientReads_iff {serde : Serde CtlResponse} (sound : serde.Sound) {resp : CtlResponse} :
    ClientReads serde resp ↔ (Fits serde resp → ¬ TooManyPeers resp) := by
  constructor
  · rintro reads ⟨body, written, fits⟩
    have small := small_of_fits fits
    have sent : ∃ frame, encodeResponse serde resp = .ok frame :=
      encodes_iff.mpr ⟨body, written, fits⟩
    have decoded := (reads.limits body written small).mp sent
    exact ((decode_written_iff sound written small).mp decoded).2
  · intro few
    constructor
    · intro frame encoded
      obtain ⟨body, written, -⟩ := encodeMessage_ok_iff.mp encoded
      refine (encoding_returns_iff written encoded).mpr ?_
      exact (parseResponse_written_iff sound written).mpr (few (encodes_iff.mp ⟨frame, encoded⟩))
    · intro body written small
      rw [decode_written_iff sound written small, encodeResponse, encodes_iff]
      constructor
      · rintro ⟨body', same, fits⟩
        obtain rfl : body = body' := Option.some.inj (written.symm.trans same)
        exact ⟨fits, few ⟨body, written, fits⟩⟩
      · rintro ⟨fits, -⟩
        exact ⟨body, written, fits⟩

/-- Only the answer to `Peers` can be too long. -/
theorem tooManyPeers_answer_iff {req : CtlRequest} {hooks : Hooks} {privileged : Bool} :
    TooManyPeers (handleCtlRequest req hooks privileged).response ↔
      req = .peers ∧ ctlMaxPeers < hooks.state.peers.length := by
  have call : ∀ cmd, ¬ TooManyPeers (answerCall hooks cmd).response := by
    intro cmd
    unfold answerCall
    split <;> exact id
  cases req with
  | peers => exact (and_iff_right rfl).symm
  | status => exact iff_of_false id nofun
  | call target => exact iff_of_false (call _) nofun
  | accept peer | reject peer | shutdown =>
      refine iff_of_false ?_ nofun
      unfold handleCtlRequest
      cases privileged
      · exact id
      · first | exact call _ | exact id

/-! ## A crowded hub -/

/-- Addresses number `n` of the mesh. -/
def crowdVips (n : Nat) : OwnVips :=
  ⟨0xAC18#16 ++ BitVec.ofNat 16 n, 0xfd24ac1800000000#64 ++ BitVec.ofNat 64 n⟩

theorem vipInMesh_crowd (n : Nat) : vipInMesh (crowdVips n).v4 = true := by
  have mask : ~~~vipHostMask = 0xFFFF#16 ++ 0#16 := rfl
  have base : vipBase = 0xAC18#16 ++ 0#16 := rfl
  rw [vipInMesh, mask, base, crowdVips, beq_iff_eq]
  dsimp only
  rw [BitVec.and_append]
  simp

theorem toNat_crowd6 {n : Nat} (small : n < 2 ^ 16) :
    (crowdVips n).v6.toNat = 0xfd24ac1800000000 * 2 ^ 64 + n := by
  have low : (BitVec.ofNat 64 n).toNat = n := by
    rw [BitVec.toNat_ofNat]
    omega
  rw [crowdVips, BitVec.toNat_append, low, ← Nat.shiftLeft_add_eq_or_of_lt (by omega),
    Nat.shiftLeft_eq]
  rfl

theorem toNat_crowd4 {n : Nat} (small : n < 2 ^ 16) :
    (crowdVips n).v4.toNat = 0xAC18 * 2 ^ 16 + n := by
  have low : (BitVec.ofNat 16 n).toNat = n := by
    rw [BitVec.toNat_ofNat]
    omega
  rw [crowdVips, BitVec.toNat_append, low, ← Nat.shiftLeft_add_eq_or_of_lt (by omega),
    Nat.shiftLeft_eq]
  rfl

theorem vip6InMesh_crowd {n : Nat} (small : n < 2 ^ 16) :
    vip6InMesh (crowdVips n).v6 = true := by
  rw [vip6InMesh, Ipv6Addr.octets, toNat_crowd6 small, toBytes_append 8 8,
    List.take_left' (length_toBytes 8 _)]
  have quotient : (0xfd24ac1800000000 * 2 ^ 64 + n) / 256 ^ 8 = 0xfd24ac1800000000 := by omega
  rw [quotient]
  decide

/-- A hub with the last addresses but one. -/
def crowdHub : Hub.HubConfig := ⟨0, crowdVips 65534, none⟩

def crowdSpoke (n : Nat) : Hub.HubPeer :=
  ⟨BitVec.ofNat 256 n, n, (crowdVips n).v4, (crowdVips n).v6, .outbound n, true⟩

theorem usable_crowd {n : Nat} (small : n < 65534) :
    Hub.usable crowdHub.own (crowdVips n) = true := by
  have four : (crowdVips n).v4 ≠ (crowdVips 65534).v4 := by
    intro same
    have equal := congrArg BitVec.toNat same
    rw [toNat_crowd4 (by omega), toNat_crowd4 (by omega)] at equal
    omega
  have six : (crowdVips n).v6 ≠ (crowdVips 65534).v6 := by
    intro same
    have equal := congrArg BitVec.toNat same
    rw [toNat_crowd6 (by omega), toNat_crowd6 (by omega)] at equal
    omega
  change (!((crowdVips n).v4 == (crowdVips 65534).v4 || (crowdVips n).v6 == (crowdVips 65534).v6 ||
    !vipInMesh (crowdVips n).v4 || !vip6InMesh (crowdVips n).v6)) = true
  rw [vipInMesh_crowd, vip6InMesh_crowd (by omega), beq_false_of_ne four, beq_false_of_ne six]
  rfl

def crowdJoin (n : Nat) : List Hub.Event :=
  .accept (BitVec.ofNat 256 n) ::
    [.exchanged (crowdVips n), .controlOpened (some true), .claim, .verify, .insertFan,
      .addRoute true, .addRoute true,
      .snapshot [⟨crowdHub.own.v4, crowdHub.own.v6, crowdHub.ownId⟩]].map (.act n)

/-- Session `n` is the last to be accepted and stands at `task`. -/
structure Latest (hub : Hub.State) (n : Nat) (idx : Hub.HubPeerIndex) (task : Hub.Task) :
    Prop where
  number : hub.sessionSeq = n
  index : hub.peers = idx
  here : hub.tasks n = some task

variable {hub : Hub.State} {n : Nat} {idx idx' : Hub.HubPeerIndex} {task task' : Hub.Task}

/-- The session moves on, then the rest of the run follows. -/
theorem Latest.act {act : Hub.Act} {rest : List Hub.Event} {effect : Hub.Effect}
    {goal : Hub.State → Prop} (latest : Latest hub n idx task)
    (moved : Hub.taskStep crowdHub hub.peers hub n task act = some (task', effect))
    (stored : (effect.apply hub).peers = idx')
    (later : ∀ next, Latest next n idx' task' →
      ∃ final, run (Hub.hubSystem crowdHub).atomic next rest = some final ∧ goal final) :
    ∃ final, run (Hub.hubSystem crowdHub).atomic hub (.act n act :: rest) = some final ∧
      goal final := by
  have stepped : (Hub.hubSystem crowdHub).atomic hub (.act n act) =
      some { effect.apply hub with tasks := Function.update hub.tasks n (some task') } := by
    change ((hub.tasks n).bind fun task =>
      (Hub.taskStep crowdHub hub.peers hub n task act).map _) = _
    rw [latest.here, Option.bind_some, moved]
    rfl
  obtain ⟨final, ran, reached⟩ := later
    { effect.apply hub with tasks := Function.update hub.tasks n (some task') }
    ⟨by cases effect <;> exact latest.number, stored, Function.update_self n _ _⟩
  refine ⟨final, ?_, reached⟩
  rw [run_cons, stepped]
  exact ran

/-- A hidden spoke with free addresses joins a hub whose spokes are all hidden. -/
theorem run_crowdJoin (small : n + 1 < 65534) (number : hub.sessionSeq = n)
    (admits : Hub.Admits (crowdSpoke (n + 1)) hub.peers)
    (hidden : ∀ p ∈ (Hub.claimClosure (crowdSpoke (n + 1)) hub.peers).byV4.values,
      p.hidden = true) :
    ∃ next, run (Hub.hubSystem crowdHub).atomic hub (crowdJoin (n + 1)) = some next ∧
      Latest next (n + 1) (Hub.claimClosure (crowdSpoke (n + 1)) hub.peers)
        (.at (crowdSpoke (n + 1)) .running) := by
  have own := Hub.claimVerdict_ok_iff.mpr (Hub.holds_claimClosure admits).own
  have none : (Hub.claimClosure (crowdSpoke (n + 1)) hub.peers).byV4.values.filter
      (fun p => p.hidden = false) = 0 := by
    refine Multiset.filter_eq_nil.mpr fun p member shown => ?_
    rw [hidden p member] at shown
    cases shown
  have accepted : (Hub.hubSystem crowdHub).atomic hub (.accept (BitVec.ofNat 256 (n + 1))) =
      some { hub with
        sessionSeq := hub.sessionSeq + 1
        tasks := Function.update hub.tasks (hub.sessionSeq + 1)
          (some (.exchanging (BitVec.ofNat 256 (n + 1)))) } := rfl
  unfold crowdJoin
  rw [run_cons, accepted, number]
  set hub' : Hub.State := { hub with
    sessionSeq := n + 1
    tasks := Function.update hub.tasks (n + 1) (some (.exchanging (BitVec.ofNat 256 (n + 1)))) }
  have exchanging : Latest hub' (n + 1) hub.peers (.exchanging (BitVec.ofNat 256 (n + 1))) :=
    ⟨rfl, rfl, Function.update_self _ _ _⟩
  have exchanged : Hub.taskStep crowdHub hub.peers hub' (n + 1)
      (.exchanging (BitVec.ofNat 256 (n + 1))) (.exchanged (crowdVips (n + 1))) =
        some (.opening (BitVec.ofNat 256 (n + 1)) (crowdVips (n + 1)), .silent) := by
    simp only [Hub.taskStep, usable_crowd small]
    rfl
  refine exchanging.act exchanged rfl fun hub1 opening => ?_
  refine opening.act rfl opening.index fun hub2 claiming => ?_
  refine claiming.act rfl (congrArg (Hub.claimClosure _) claiming.index) fun hub3 verifying => ?_
  have claimed : hub3.peers = Hub.claimClosure (crowdSpoke (n + 1)) hub.peers := verifying.index
  have verified : Hub.taskStep crowdHub hub3.peers hub3 (n + 1)
      (.at (crowdSpoke (n + 1)) .verify) .verify =
        some (.at (crowdSpoke (n + 1)) .insertFan, .silent) := by
    simp only [Hub.taskStep, Hub.pointStep, claimed, own]
    rfl
  refine verifying.act verified verifying.index fun hub4 inserting => ?_
  refine inserting.act rfl inserting.index fun hub5 routing4 => ?_
  refine routing4.act rfl routing4.index fun hub6 routing6 => ?_
  refine routing6.act rfl routing6.index fun hub7 listing => ?_
  have kept : hub7.peers = Hub.claimClosure (crowdSpoke (n + 1)) hub.peers := listing.index
  have listed : Hub.taskStep crowdHub hub7.peers hub7 (n + 1)
      (.at (crowdSpoke (n + 1)) .snapshot)
      (.snapshot [⟨crowdHub.own.v4, crowdHub.own.v6, crowdHub.ownId⟩]) =
        some (.at (crowdSpoke (n + 1)) .running,
          .write (encodeSnapshot [⟨crowdHub.own.v4, crowdHub.own.v6, crowdHub.ownId⟩])) := by
    simp only [Hub.taskStep, Hub.pointStep, Hub.hubRosterSnapshot, kept, none]
    rfl
  exact listing.act listed listing.index fun hub8 running => ⟨hub8, rfl, running⟩

/-- The index with spokes 1 to `n`. -/
def crowdIndex : Nat → Hub.HubPeerIndex
  | 0 => .empty
  | n + 1 => Hub.claimClosure (crowdSpoke (n + 1)) (crowdIndex n)

def crowd : Nat → List Hub.Event
  | 0 => []
  | n + 1 => crowd n ++ crowdJoin (n + 1)

theorem crowdVips_inj4 {m n : Nat} (small : m < 2 ^ 16) (small' : n < 2 ^ 16)
    (same : (crowdVips m).v4 = (crowdVips n).v4) : m = n := by
  have equal := congrArg BitVec.toNat same
  rw [toNat_crowd4 small, toNat_crowd4 small'] at equal
  omega

theorem crowdVips_inj6 {m n : Nat} (small : m < 2 ^ 16) (small' : n < 2 ^ 16)
    (same : (crowdVips m).v6 = (crowdVips n).v6) : m = n := by
  have equal := congrArg BitVec.toNat same
  rw [toNat_crowd6 small, toNat_crowd6 small'] at equal
  omega

/-- The addresses from `n + 1` on are free. -/
theorem crowd_free {n k : Nat} (small : k < 2 ^ 16) (free : n < k) :
    (crowdIndex n).byV4.get (crowdVips k).v4 = none ∧
      (crowdIndex n).byV6.get (crowdVips k).v6 = none := by
  induction n with
  | zero => exact ⟨rfl, rfl⟩
  | succ n ih =>
      obtain ⟨free4, free6⟩ := ih (Nat.lt_of_succ_lt free)
      have other4 : (crowdVips k).v4 ≠ (crowdSpoke (n + 1)).vip := fun same =>
        absurd (crowdVips_inj4 small (by omega) same) (by omega)
      have other6 : (crowdVips k).v6 ≠ (crowdSpoke (n + 1)).vip6 := fun same =>
        absurd (crowdVips_inj6 small (by omega) same) (by omega)
      by_cases admits : Hub.Admits (crowdSpoke (n + 1)) (crowdIndex n)
      · rw [crowdIndex, Hub.claimClosure_of_admits admits]
        rw [HashMap.get_put_of_ne other4, HashMap.get_put_of_ne other6]
        exact ⟨free4, free6⟩
      · rw [crowdIndex, Hub.claimClosure_of_not_admits admits]
        exact ⟨free4, free6⟩

theorem crowd_admits {n : Nat} (small : n + 1 < 2 ^ 16) :
    Hub.Admits (crowdSpoke (n + 1)) (crowdIndex n) := by
  obtain ⟨free4, free6⟩ := crowd_free small (Nat.lt_succ_self n)
  constructor
  · rintro ⟨p, found, -⟩
    exact absurd (found.symm.trans free4) nofun
  · rintro ⟨p, found, -⟩
    exact absurd (found.symm.trans free6) nofun

theorem crowd_values {n : Nat} (small : n < 2 ^ 16) :
    (crowdIndex n).byV4.values = (Multiset.range n).map fun i => crowdSpoke (i + 1) := by
  induction n with
  | zero => rfl
  | succ n ih =>
      have absent := (crowd_free small (Nat.lt_succ_self n)).1
      rw [Multiset.range_succ, Multiset.map_cons, ← ih (by omega), crowdIndex,
        Hub.claimClosure_of_admits (crowd_admits small)]
      exact HashMap.values_put absent _

/-- Spokes 1 to `n` join a hub one after the other. -/
theorem run_crowd {n : Nat} (small : n < 65534) :
    ∃ hub, run (Hub.hubSystem crowdHub).atomic .start (crowd n) = some hub ∧
      hub.sessionSeq = n ∧ hub.peers = crowdIndex n ∧
      (0 < n → hub.At n (crowdSpoke n) .running) := by
  induction n with
  | zero => exact ⟨.start, rfl, rfl, rfl, nofun⟩
  | succ n ih =>
      obtain ⟨hub, ran, number, index, -⟩ := ih (by omega)
      have hidden : ∀ p ∈ (crowdIndex (n + 1)).byV4.values, p.hidden = true := by
        rw [crowd_values (by omega)]
        intro p member
        obtain ⟨i, -, rfl⟩ := Multiset.mem_map.mp member
        rfl
      have admits := crowd_admits (n := n) (by omega)
      rw [← index] at admits
      rw [crowdIndex, ← index] at hidden
      obtain ⟨next, joined, latest⟩ := run_crowdJoin small number admits hidden
      refine ⟨next, ?_, latest.number, ?_, fun _ => latest.here⟩
      · rw [crowd, run_append, ran]
        exact joined
      · rw [latest.index, index]
        rfl

/-! ## The answer of the crowded hub -/

/-- `EndpointId::to_string`: the bytes in hex -/
def hexDigits (id : EndpointId) : List Char :=
  (toBytes 32 id.toNat).flatMap fun b =>
    [Nat.digitChar (b.toNat / 16), Nat.digitChar (b.toNat % 16)]

def hexText (id : EndpointId) : String := String.ofList (hexDigits id)

/-- A member of a JSON object whose value is a plain string. -/
def member (name : String) (value : List Char) : List Char :=
  '"' :: name.toList ++ "\":\"".toList ++ value ++ ['"']

/-- The JSON object of spoke `n`. -/
def crowdPeerText (n : Nat) : List Char :=
  '\x7b' :: member "vip" ("172.24.".toList ++ Nat.toDigits 10 (n / 256) ++
      '.' :: Nat.toDigits 10 (n % 256)) ++
    ',' :: member "vip6" ("fd24:ac18::".toList ++ Nat.toDigits 16 n) ++
    ',' :: member "id" (hexDigits (BitVec.ofNat 256 n)) ++ ['\x7d']

def answerHead : List Char := "\x7b\"op\":\"peers\",\"peers\":[".toList

def answerTail : List Char := "]\x7d".toList

/-- The JSON text of the answer with spokes 1 to `n + 1`. -/
def crowdText (n : Nat) : List UInt8 :=
  (answerHead ++ crowdPeerText 1 ++
    ((List.range n).flatMap fun i => ',' :: crowdPeerText (i + 2)) ++ answerTail).map
      fun c => UInt8.ofNat c.toNat

def crowdPeers (n : Nat) : List CtlPeer :=
  (List.range n).map fun i => .of hexText (crowdSpoke (i + 1)).entry

/-- `serde_json` on the answer with spokes 1 to `n + 1`. -/
def crowdSerde (n : Nat) : Serde CtlResponse := .single (.peers (crowdPeers (n + 1))) (crowdText n)

theorem length_hexDigits (id : EndpointId) : (hexDigits id).length = 64 := by
  rw [hexDigits, List.length_flatMap]
  change ((toBytes 32 id.toNat).map fun _ => 2).sum = 64
  rw [List.map_const', List.sum_replicate, length_toBytes]
  rfl

theorem length_member (name : String) (value : List Char) :
    (member name value).length = name.toList.length + value.length + 5 := by
  have separator : "\":\"".toList.length = 3 := rfl
  simp only [member, List.length_append, List.length_cons, List.length_nil, separator]
  omega

theorem length_crowdPeerText {n : Nat} (small : n < 2 ^ 16) :
    (crowdPeerText n).length ≤ 140 := by
  have high : (Nat.toDigits 10 (n / 256)).length ≤ 3 :=
    (Nat.length_toDigits_le_iff (by omega) (by omega)).mpr (by omega)
  have low : (Nat.toDigits 10 (n % 256)).length ≤ 3 :=
    (Nat.length_toDigits_le_iff (by omega) (by omega)).mpr (by omega)
  have group : (Nat.toDigits 16 n).length ≤ 4 :=
    (Nat.length_toDigits_le_iff (by omega) (by omega)).mpr (by omega)
  have names : "vip".toList.length = 3 ∧ "vip6".toList.length = 4 ∧ "id".toList.length = 2 :=
    ⟨rfl, rfl, rfl⟩
  have networks : "172.24.".toList.length = 7 ∧ "fd24:ac18::".toList.length = 11 := ⟨rfl, rfl⟩
  simp only [crowdPeerText, List.length_append, List.length_cons, List.length_nil, length_member,
    length_hexDigits, names, networks]
  omega

theorem length_flatMap_le {α β : Type} {f : α → List β} {bound : Nat} {xs : List α}
    (each : ∀ x ∈ xs, (f x).length ≤ bound) : (xs.flatMap f).length ≤ bound * xs.length := by
  induction xs with
  | nil => exact Nat.le_refl 0
  | cons x rest ih =>
      obtain ⟨head, tail⟩ := List.forall_mem_cons.mp each
      rw [List.flatMap_cons, List.length_append, List.length_cons, Nat.mul_succ]
      exact (Nat.add_le_add head (ih tail)).trans_eq (Nat.add_comm _ _)

theorem length_crowdText {n : Nat} (small : n + 1 < 2 ^ 16) :
    (crowdText n).length ≤ 141 * n + 200 := by
  have first := length_crowdPeerText (n := 1) (by omega)
  have each : ∀ i ∈ List.range n, (',' :: crowdPeerText (i + 2)).length ≤ 141 := by
    intro i inside
    rw [List.mem_range] at inside
    exact Nat.succ_le_succ (length_crowdPeerText (by omega))
  have others := length_flatMap_le each
  have head : answerHead.length = 23 := rfl
  have tail : answerTail.length = 2 := rfl
  rw [List.length_range] at others
  rw [crowdText, List.length_map, List.length_append, List.length_append, List.length_append, head,
    tail]
  generalize (crowdPeerText 1).length = a at first ⊢
  omega

/-- What a hub with spokes 1 to `n` answers from. -/
def crowdHooks (n : Nat) : Hooks where
  state := { LiveState.new "hub" "" with peers := crowdPeers n }
  callTx := none

theorem crowd_publishes {n : Nat} (small : n < 2 ^ 16) :
    Publishes hexText (.hub (crowdIndex n)) (crowdHooks n).state := by
  change ((crowdPeers n : List CtlPeer) : Multiset CtlPeer) = _
  rw [Plane.entries, crowd_values small, crowdPeers, ← Multiset.map_coe, Multiset.map_map,
    Multiset.map_map]
  rfl

/-- **Answers.** Whatever a hub, a spoke or a phone publishes, the client reads the
answer to every request, unless it asks for the peers, there are more than it takes,
and the encoder sends them nevertheless. -/
theorem answers_read_iff {serde : Serde CtlResponse} (sound : serde.Sound)
    {idText : EndpointId → String} {plane : Plane} {hooks : Hooks}
    (publishes : Publishes idText plane hooks.state) (req : CtlRequest) (privileged : Bool) :
    ClientReads serde (handleCtlRequest req hooks privileged).response ↔
      (req = .peers → Fits serde hooks.state.peersResponse →
        Multiset.card plane.entries ≤ ctlMaxPeers) := by
  have size : hooks.state.peers.length = Multiset.card plane.entries := by
    rw [← Multiset.coe_card, publishes, Multiset.card_map]
  rw [clientReads_iff sound, tooManyPeers_answer_iff, size]
  constructor
  · rintro reads rfl fits
    exact Nat.not_lt.mp fun many => reads fits ⟨rfl, many⟩
  · rintro few fits ⟨rfl, many⟩
    exact absurd (few rfl fits) (Nat.not_le.mpr many)

/-- A hub with two spokes, and what the client reads when it asks for the peers. -/
theorem answers_read_pair : (Plane.hub (crowdIndex 2)).Reachable ∧
    ClientReads (crowdSerde 1) (handleCtlRequest .peers (crowdHooks 2) false).response := by
  constructor
  · obtain ⟨hub, ran, -, index, running⟩ := @run_crowd 2 (by omega)
    rw [← index]
    exact .hub ran ⟨2, _, Or.inl (running (by omega))⟩
  · refine (answers_read_iff (Serde.single_sound _ _) (crowd_publishes (by omega)) .peers
      false).mpr fun _ _ => ?_
    rw [Plane.entries, crowd_values (by omega), Multiset.card_map, Multiset.card_map,
      Multiset.card_range]
    decide

theorem crowd_not_read {n : Nat} (many : ctlMaxPeers ≤ n)
    (fits : 141 * n + 200 ≤ ctlMaxBody) :
    ¬ ClientReads (crowdSerde n) (handleCtlRequest .peers (crowdHooks (n + 1)) false).response := by
  intro reads
  have body : ctlMaxBody = 1048576 := rfl
  refine (clientReads_iff (Serde.single_sound _ _)).mp reads (Serde.single_fits _ ?_) ?_
  · exact (length_crowdText (by omega)).trans fits
  · refine tooManyPeers_answer_iff.mpr ⟨rfl, ?_⟩
    change ctlMaxPeers < (crowdPeers (n + 1)).length
    rw [crowdPeers, List.length_map, List.length_range]
    omega

/-- 4097 spokes join, and the client does not read the answer to `Peers`. -/
theorem crowded_hub_not_read :
    (Plane.hub (crowdIndex 4097)).Reachable ∧
      Publishes hexText (.hub (crowdIndex 4097)) (crowdHooks 4097).state ∧
      (crowdSerde 4096).Sound ∧
      ¬ ClientReads (crowdSerde 4096)
        (handleCtlRequest .peers (crowdHooks 4097) false).response := by
  refine ⟨?_, crowd_publishes (by omega), Serde.single_sound _ _,
    crowd_not_read (by decide) (by decide)⟩
  obtain ⟨hub, ran, -, index, running⟩ := run_crowd (n := 4097) (by omega)
  rw [← index]
  exact .hub ran ⟨4097, _, Or.inl (running (by omega))⟩

end LinkP2p.Daemon
