import LinkP2p.Tun.HubInvariant
import LinkP2p.Tun.PeerSender
import LinkP2p.Tun.SpokeAuthentic

/-!
# The way of a packet through the mesh

A packet from the TUN of a spoke takes a direct link to another spoke or goes to
the hub, which delivers it or sends it on. Every sender drops what does not fit,
and every station filters by addresses. In a mesh whose tables are right a packet
comes out where its destination is, if its source is the spoke it came from, and
nowhere else.
-/

namespace LinkP2p.Tun.Journey

open LinkP2p.Lib LinkP2p.Lib.Rcu
open LinkP2p.Tun.Sender (Wire)
open LinkP2p.Tun.Hub (HubPeer HubPeerIndex hubPeerToMesh hubTunToPeers packetSrcMatchesPeer
  packetDestinedHere meshDstOk lookupHubPeer)
open LinkP2p.Tun.Spoke (Out SpokeMesh accepts packetIsOwn lookupOut_ipv4 lookupOut_ipv6)

/-- The addresses of the hub and of the spokes. -/
structure Plan where
  hubId : EndpointId
  hub : OwnVips
  spoke : EndpointId → Option OwnVips
  separate : spoke hubId = none
  apart4 : ∀ p q a b, spoke p = some a → spoke q = some b → a.v4 = b.v4 → p = q
  apart6 : ∀ p q a b, spoke p = some a → spoke q = some b → a.v6 = b.v6 → p = q
  notHub : ∀ p a, spoke p = some a → a.v4 ≠ hub.v4 ∧ a.v6 ≠ hub.v6
  inMesh : ∀ p a, spoke p = some a → vipInMesh a.v4 = true ∧ vip6InMesh a.v6 = true

/-! ## Stations and connections -/

/-- The hub and the spokes at some moment, and where their connections lead. -/
structure Fleet where
  hub : Retrying Hub.State Nat HubPeerIndex
  spoke : EndpointId → Spoke.State
  /-- The hub's session at the other end of the connection that the session loop of a spoke
  uses, once the hub has accepted it. -/
  conn : EndpointId → Option Nat
  /-- That of the `s`-th session of a spoke. -/
  serves : EndpointId → Nat → Option Nat
  /-- The task at the other end of a direct link. -/
  far : EndpointId → Nat → Option (EndpointId × Nat)

/-- The end of a connection that sends. -/
inductive Hop where
  /-- The `s`-th session of a spoke, to the hub. -/
  | hubward (p : EndpointId) (s : Nat)
  /-- Session `i` of the hub, to its spoke. -/
  | spokeward (i : Nat)
  /-- Task `n` of a spoke, to another spoke. -/
  | direct (p : EndpointId) (n : Nat)

/-- The filter of `hub_read` on what the hub sends. -/
def acceptsFromHub (hub : OwnVips) (pkt : List UInt8) : Bool :=
  match ipv4Src pkt, ipv6Src pkt with
  | some src, _ => vipInMesh src || src == hub.v4
  | none, some src => vip6InMesh src || src == hub.v6
  | none, none => false

/-- The TUN that a packet comes out of. -/
inductive Exit where
  | hub
  | spoke (id : EndpointId)
  deriving DecidableEq, Repr

namespace Fleet

variable (fleet : Fleet) (hub : OwnVips) (wires : Hop → Wire)

/-- The hub's session that reads what the `s`-th session of a spoke sends. -/
def reader (p : EndpointId) (s : Nat) : Option HubPeer :=
  match fleet.serves p s with
  | none => none
  | some i =>
      match fleet.hub.base.tasks i with
      | some (.at peer .running) => some peer
      | _ => none

/-- `hub_read` of the spoke reads what session `i` of the hub sends. -/
def hears (q : EndpointId) (i : Nat) : Bool :=
  decide ((fleet.spoke q).session = .joined) && decide (fleet.conn q = some i)

/-- A packet that the hub hands to an entry of its index gets to the spoke. -/
def toEntry (other : HubPeer) (pkt : List UInt8) : Bool :=
  (wires (.spokeward other.session)).passes pkt && fleet.hears other.id other.session

/-- Where a packet comes out that the hub hands to an entry of its index. -/
def fromEntry (other : HubPeer) (pkt : List UInt8) : Option Exit :=
  if fleet.toEntry wires other pkt && acceptsFromHub hub pkt then some (.spoke other.id) else none

/-- Where a packet comes out that a spoke sends to the hub. -/
def overHub (p : EndpointId) (s : Nat) (pkt : List UInt8) : Option Exit :=
  match fleet.reader p s with
  | none => none
  | some peer =>
      if (wires (.hubward p s)).passes pkt then
        match hubPeerToMesh hub fleet.hub.base.peers peer pkt with
        | .drop => none
        | .deliver => some .hub
        | .forward other => fleet.fromEntry hub wires other pkt
      else none

/-- Where a packet comes out that a spoke sends over a direct link. -/
def overLink (p : EndpointId) (n : Nat) (pkt : List UInt8) : Option Exit :=
  match fleet.far p n with
  | none => none
  | some (q, m) =>
      match (fleet.spoke q).tasks[m]? with
      | some (.opened _ peer) =>
          if (wires (.direct p n)).passes pkt && accepts peer pkt then some (.spoke q) else none
      | _ => none

/-- A packet that the spoke sends to the hub gets there. -/
def toHub (p : EndpointId) (table : SpokeMesh) (pkt : List UInt8) : Bool :=
  match table.hubOut with
  | none => false
  | some s => (fleet.reader p s).isSome && (wires (.hubward p s)).passes pkt

/-- The spoke that a packet gets to over a direct link. -/
def linkEnd (p : EndpointId) (n : Nat) (pkt : List UInt8) : Option EndpointId :=
  match fleet.far p n with
  | none => none
  | some (q, m) =>
      match (fleet.spoke q).tasks[m]? with
      | some (.opened _ _) => if (wires (.direct p n)).passes pkt then some q else none
      | _ => none

/-- Where a packet from the TUN of a spoke with this table comes out, as the stations stand. -/
def fromSpoke (p : EndpointId) (own : OwnVips) (table : SpokeMesh) (pkt : List UInt8) :
    Option Exit :=
  match table.forward own pkt with
  | none => none
  | some (.link n) => fleet.overLink wires p n pkt
  | some (.hub s) => fleet.overHub hub wires p s pkt

/-- Where a packet from the TUN of the hub comes out. -/
def fromHub (pkt : List UInt8) : Option Exit :=
  match hubTunToPeers hub fleet.hub.base.peers pkt with
  | .forward other => fleet.fromEntry hub wires other pkt
  | .deliver | .drop => none

end Fleet

/-! ## One family of addresses -/

/-- What decides about the packets of one family from a spoke. -/
structure View (A : Type) where
  own : A
  hub : A
  inMesh : A → Bool
  hubVip : Option A
  /-- The way to the hub is open. -/
  connected : Bool
  /-- The direct links, and where they lead. -/
  direct : A → Option (Option EndpointId)
  /-- The spokes that the hub reaches. -/
  claimed : A → Option EndpointId

namespace View

variable {A : Type}

/-- The tables agree with the addresses of the spokes. -/
structure Consistent (view : View A) (me : EndpointId) (address : EndpointId → Option A) :
    Prop where
  mine : address me = some view.own
  apart : ∀ p q x, address p = some x → address q = some x → p = q
  notHub : ∀ p x, address p = some x → x ≠ view.hub
  inMesh : ∀ p x, address p = some x → view.inMesh x = true
  claimed : ∀ x q, view.claimed x = some q → address q = some x
  linked : ∀ x q, view.direct x = some (some q) → address q = some x
  entered : ∀ x, view.hubVip = some x → x = view.hub
  hubbed : view.connected = true → view.hubVip = some view.hub

/-- A packet to this address ends here, and there is a way. -/
def Ends (view : View A) (me : EndpointId) (address : EndpointId → Option A) (dst : A) :
    Exit → Prop
  | .hub => view.connected = true ∧ dst = view.hub
  | .spoke q => q ≠ me ∧ address q = some dst ∧
      (view.direct dst = some (some q) ∨
        view.direct dst = none ∧ view.connected = true ∧ view.claimed dst ≠ none)

variable {view : View A} {me : EndpointId} {address : EndpointId → Option A} {src dst : A}
  {exit : Exit}

/-- What the hub's index has is the address of a spoke. -/
theorem Consistent.spoke (consistent : view.Consistent me address) {q : EndpointId}
    (claim : view.claimed dst = some q) :
    address q = some dst ∧ dst ≠ view.hub ∧ view.inMesh dst = true := by
  have found := consistent.claimed dst q claim
  exact ⟨found, consistent.notHub _ _ found, consistent.inMesh _ _ found⟩

variable [DecidableEq A]

/-- The way over the hub. -/
def viaHub (view : View A) (src dst : A) : Option Exit :=
  if view.connected = false ∨ src ≠ view.own then none
  else if dst = view.hub then some .hub
  else if view.inMesh dst = false ∨ dst = view.own then none
  else if view.inMesh src = true ∨ src = view.hub then (view.claimed dst).map .spoke
  else none

def route (view : View A) (src dst : A) : Option Exit :=
  if dst = view.own then none
  else if view.hubVip = some dst then view.viaHub src dst
  else match view.direct dst with
    | some peer => if src = view.own then peer.map .spoke else none
    | none => if view.inMesh dst = true then view.viaHub src dst else none

theorem viaHub_iff (consistent : view.Consistent me address) (other : dst ≠ view.own) :
    view.viaHub src dst = some exit ↔ src = view.own ∧ view.connected = true ∧
      (exit = .hub ∧ dst = view.hub ∨
        ∃ q, exit = .spoke q ∧ view.claimed dst = some q) := by
  rw [viaHub]
  by_cases shut : view.connected = false ∨ src ≠ view.own
  · rw [if_pos shut]
    refine ⟨nofun, fun ⟨own, connected, _⟩ => ?_⟩
    rcases shut with off | foreign
    · cases off.symm.trans connected
    · exact absurd own foreign
  · rw [if_neg shut]
    obtain ⟨connected, own⟩ := not_or.mp shut
    rw [Bool.not_eq_false] at connected
    rw [not_not] at own
    simp only [own, connected, true_and]
    by_cases here : dst = view.hub
    · rw [if_pos here, Option.some.injEq]
      constructor
      · rintro rfl
        exact .inl ⟨rfl, here⟩
      · rintro (⟨rfl, _⟩ | ⟨q, rfl, claim⟩)
        · rfl
        · exact absurd here (consistent.spoke claim).2.1
    · rw [if_neg here]
      have meshed : view.inMesh view.own = true := consistent.inMesh _ _ consistent.mine
      by_cases inside : view.inMesh dst = true
      · rw [if_neg (by simp [inside, other]), if_pos (.inl meshed), Option.map_eq_some_iff]
        constructor
        · rintro ⟨q, claim, rfl⟩
          exact .inr ⟨q, rfl, claim⟩
        · rintro (⟨_, same⟩ | ⟨q, rfl, claim⟩)
          · exact absurd same here
          · exact ⟨q, claim, rfl⟩
      · rw [if_pos (.inl (Bool.not_eq_true _ ▸ inside))]
        refine ⟨nofun, ?_⟩
        rintro (⟨_, same⟩ | ⟨q, _, claim⟩)
        · exact absurd same here
        · exact absurd (consistent.spoke claim).2.2 inside

/-- A packet leaves the mesh where its destination is, and only with the source
address of the spoke it came from. -/
theorem route_iff (consistent : view.Consistent me address) :
    view.route src dst = some exit ↔ src = view.own ∧ view.Ends me address dst exit := by
  rw [route]
  by_cases own : dst = view.own
  · rw [if_pos own]
    refine ⟨nofun, fun ⟨_, ends⟩ => ?_⟩
    cases exit with
    | hub => exact absurd (own.symm.trans ends.2) (consistent.notHub _ _ consistent.mine)
    | spoke q =>
        rw [own] at ends
        exact absurd (consistent.apart _ _ _ ends.2.1 consistent.mine) ends.1
  · rw [if_neg own]
    have elsewhere : ∀ q, address q = some dst → q ≠ me := by
      rintro q found rfl
      exact own (Option.some.inj (found.symm.trans consistent.mine))
    by_cases hub : view.hubVip = some dst
    · -- the packet is for the hub, over the hub's own connection
      have same := consistent.entered _ hub
      rw [if_pos hub, viaHub_iff consistent own]
      constructor
      · rintro ⟨mine, connected, ⟨rfl, _⟩ | ⟨q, _, claim⟩⟩
        · exact ⟨mine, connected, same⟩
        · exact absurd same (consistent.spoke claim).2.1
      · rintro ⟨mine, ends⟩
        cases exit with
        | hub => exact ⟨mine, ends.1, .inl ⟨rfl, same⟩⟩
        | spoke q => exact absurd same (consistent.notHub _ _ ends.2.1)
    · rw [if_neg hub]
      have notHub : view.connected = true → dst ≠ view.hub := by
        rintro connected rfl
        exact hub (consistent.hubbed connected)
      cases found : view.direct dst with
      | some peer =>
          rw [Option.ite_none_right_eq_some]
          refine and_congr_right fun _ => ?_
          rw [Option.map_eq_some_iff]
          constructor
          · rintro ⟨q, rfl, rfl⟩
            have there := consistent.linked _ _ found
            exact ⟨elsewhere q there, there, .inl found⟩
          · intro ends
            cases exit with
            | hub => exact absurd ends.2 (notHub ends.1)
            | spoke q =>
                obtain ⟨_, _, link | ⟨unlinked, _⟩⟩ := ends
                · exact ⟨q, Option.some.inj (found.symm.trans link), rfl⟩
                · cases found.symm.trans unlinked
      | none =>
          rw [Option.ite_none_right_eq_some, viaHub_iff consistent own]
          constructor
          · rintro ⟨_, mine, connected, ⟨_, same⟩ | ⟨q, rfl, claim⟩⟩
            · exact absurd same (notHub connected)
            · have there := (consistent.spoke claim).1
              exact ⟨mine, elsewhere q there, there, .inr ⟨found, connected, by rw [claim]; nofun⟩⟩
          · rintro ⟨mine, ends⟩
            cases exit with
            | hub => exact absurd ends.2 (notHub ends.1)
            | spoke q =>
                obtain ⟨_, there, link | ⟨_, connected, claim⟩⟩ := ends
                · cases found.symm.trans link
                · obtain ⟨p, claim⟩ := Option.ne_none_iff_exists'.mp claim
                  rw [consistent.apart _ _ _ there (consistent.spoke claim).1]
                  exact ⟨(consistent.spoke claim).2.2, mine, connected, .inr ⟨p, rfl, claim⟩⟩

/-- A direct link is a shortcut: where it leads to a spoke that the hub reaches, the hub
takes packets to the same place. -/
theorem route_unlinked (consistent : view.Consistent me address)
    (connected : view.connected = true)
    (shortcut : ∀ link, view.direct dst = some link →
      dst = view.hub ∨ link ≠ none ∧ view.claimed dst ≠ none) :
    { view with direct := fun _ => none }.route src dst = view.route src dst := by
  have unlinked : { view with direct := fun _ => none }.Consistent me address :=
    { consistent with linked := nofun }
  refine Option.ext fun exit => ?_
  rw [route_iff unlinked, route_iff consistent]
  refine and_congr_right fun _ => ?_
  cases exit with
  | hub => exact Iff.rfl
  | spoke q =>
      refine and_congr_right fun _ => and_congr_right fun there => ?_
      have notHub := consistent.notHub _ _ there
      constructor
      · rintro (link | ⟨_, hub⟩)
        · cases link
        · cases found : view.direct dst with
          | none => exact .inr ⟨rfl, hub⟩
          | some link =>
              obtain ⟨leads, _⟩ := (shortcut link found).resolve_left notHub
              obtain ⟨r, rfl⟩ := Option.ne_none_iff_exists'.mp leads
              rw [consistent.apart _ _ _ there (consistent.linked _ _ found)]
              exact .inl rfl
      · rintro (link | ⟨_, hub⟩)
        · exact .inr ⟨rfl, connected, ((shortcut _ link).resolve_left notHub).2⟩
        · exact .inr ⟨rfl, hub⟩

end View

/-! ## The mesh -/

/-- The tables of all stations are right about the addresses of one family: no
two have the same, and whatever a table has of an address leads to its owner. -/
structure Right {A : Type} (vip : OwnVips → A) (inMesh : A → Bool) (plan : Plan) (fleet : Fleet)
    (claimed : A → Option HubPeer) (hubVip : SpokeMesh → Option A)
    (direct : SpokeMesh → A → Option Nat) : Prop where
  apart : ∀ p q a b, plan.spoke p = some a → plan.spoke q = some b → vip a = vip b → p = q
  notHub : ∀ p a, plan.spoke p = some a → vip a ≠ vip plan.hub
  inMesh : ∀ p a, plan.spoke p = some a → inMesh (vip a) = true
  claimed : ∀ x peer, claimed x = some peer → ∃ b, plan.spoke peer.id = some b ∧ vip b = x
  linked : ∀ p own x n q m, plan.spoke p = some own →
    direct (fleet.spoke p).table x = some n → fleet.far p n = some (q, m) →
      ∃ b, plan.spoke q = some b ∧ vip b = x
  entered : ∀ p own x, plan.spoke p = some own → hubVip (fleet.spoke p).table = some x →
    x = vip plan.hub
  hubbed : ∀ p own, plan.spoke p = some own → (fleet.spoke p).table.hubOut.isSome = true →
    hubVip (fleet.spoke p).table = some (vip plan.hub)

/-- The tables are right, and every session and link knows the spoke at its other end. -/
structure Fleet.Sound (plan : Plan) (fleet : Fleet) : Prop where
  right4 : Right OwnVips.v4 vipInMesh plan fleet fleet.hub.base.peers.byV4.get SpokeMesh.hubVip
    fun table => table.direct.get
  right6 : Right OwnVips.v6 vip6InMesh plan fleet fleet.hub.base.peers.byV6.get
    SpokeMesh.hubVip6 fun table => table.direct6.get
  reads : ∀ p own s peer, plan.spoke p = some own → fleet.reader p s = some peer →
    own = ⟨peer.vip, peer.vip6⟩
  heard : ∀ p own n q m r peer, plan.spoke p = some own → fleet.far p n = some (q, m) →
    (fleet.spoke q).tasks[m]? = some (.opened r peer) → own = peer

section Packets

variable {plan : Plan} {fleet : Fleet} {wires : Hop → Wire} {p : EndpointId} {own : OwnVips}
  {table : SpokeMesh} {pkt : List UInt8} {exit : Exit}

theorem linkEnd_eq_some {n : Nat} {q : EndpointId} :
    fleet.linkEnd wires p n pkt = some q ↔
      ∃ m r peer, fleet.far p n = some (q, m) ∧
        (fleet.spoke q).tasks[m]? = some (.opened r peer) ∧
          (wires (.direct p n)).passes pkt = true := by
  unfold Fleet.linkEnd
  constructor
  · intro found
    split at found
    · cases found
    · rename_i r m far
      split at found
      · rename_i opened
        obtain ⟨passes, same⟩ := Option.ite_none_right_eq_some.mp found
        cases same
        exact ⟨m, _, _, far, opened, passes⟩
      · cases found
  · rintro ⟨m, r, peer, far, opened, passes⟩
    simp only [far, opened, passes, if_true]

section Family

variable {A : Type} (vip : OwnVips → A) (inMesh : A → Bool) (claimed : A → Option HubPeer)
  (hubVip : SpokeMesh → Option A) (direct : SpokeMesh → A → Option Nat)

/-- What decides about a packet of one family from a spoke. -/
def viewOf (plan : Plan) (fleet : Fleet) (wires : Hop → Wire) (p : EndpointId) (own : OwnVips)
    (table : SpokeMesh) (pkt : List UInt8) : View A where
  own := vip own
  hub := vip plan.hub
  inMesh := inMesh
  hubVip := hubVip table
  connected := fleet.toHub wires p table pkt
  direct x := (direct table x).map fun n => fleet.linkEnd wires p n pkt
  claimed x := (claimed x).bind fun other =>
    if fleet.toEntry wires other pkt then some other.id else none

variable {vip inMesh claimed hubVip direct}

theorem Right.consistent (right : Right vip inMesh plan fleet claimed hubVip direct)
    (here : plan.spoke p = some own) (wires : Hop → Wire) (pkt : List UInt8) :
    (viewOf vip inMesh claimed hubVip direct plan fleet wires p own (fleet.spoke p).table
      pkt).Consistent p fun q => (plan.spoke q).map vip where
  mine := by rw [here]; rfl
  apart q r x first second := by
    obtain ⟨a, one, rfl⟩ := Option.map_eq_some_iff.mp first
    obtain ⟨b, two, same⟩ := Option.map_eq_some_iff.mp second
    exact right.apart q r a b one two same.symm
  notHub q x first := by
    obtain ⟨a, one, rfl⟩ := Option.map_eq_some_iff.mp first
    exact right.notHub q a one
  inMesh q x first := by
    obtain ⟨a, one, rfl⟩ := Option.map_eq_some_iff.mp first
    exact right.inMesh q a one
  claimed x q claim := by
    obtain ⟨other, found, same⟩ := Option.bind_eq_some_iff.mp claim
    obtain ⟨_, same⟩ := Option.ite_none_right_eq_some.mp same
    cases same
    obtain ⟨b, there, rfl⟩ := right.claimed x other found
    rw [there]
    rfl
  linked x q link := by
    obtain ⟨n, found, leads⟩ := Option.map_eq_some_iff.mp link
    obtain ⟨m, _, _, far, _⟩ := linkEnd_eq_some.mp leads
    obtain ⟨b, there, rfl⟩ := right.linked p own x n q m here found far
    rw [there]
    rfl
  entered x found := right.entered p own x here found
  hubbed connected := by
    refine right.hubbed p own here ?_
    change fleet.toHub wires p (fleet.spoke p).table pkt = true at connected
    unfold Fleet.toHub at connected
    split at connected
    · cases connected
    · rename_i up
      rw [up]
      rfl

end Family

/-! ## Packets of a spoke -/

/-- What the filters read of a packet of one family. -/
structure Reads {A : Type} [DecidableEq A] (plan : Plan) (fleet : Fleet) (wires : Hop → Wire)
    (p : EndpointId) (own : OwnVips) (table : SpokeMesh) (view : View A) (pkt : List UInt8)
    (src dst : A) : Prop where
  source : ∀ peer : HubPeer, own = ⟨peer.vip, peer.vip6⟩ →
    packetSrcMatchesPeer pkt peer = decide (src = view.own)
  here : packetDestinedHere pkt plan.hub = decide (dst = view.hub)
  passes : ∀ peer : HubPeer, own = ⟨peer.vip, peer.vip6⟩ →
    meshDstOk pkt peer = (view.inMesh dst && !decide (dst = view.own))
  claimed : view.claimed dst = (lookupHubPeer fleet.hub.base.peers pkt).bind fun other =>
    if fleet.toEntry wires other pkt then some other.id else none
  fromHub : acceptsFromHub plan.hub pkt = (view.inMesh src || decide (src = view.hub))
  isOwn : packetIsOwn pkt own = decide (dst = view.own)
  accepts : accepts own pkt = decide (src = view.own)
  connected : view.connected = fleet.toHub wires p table pkt
  lookup : ∃ n, view.direct dst = Option.map (fleet.linkEnd wires p · pkt) n ∧
    table.lookupOut pkt = if view.hubVip = some dst then table.hubOut.map .hub
      else n.elim (if view.inMesh dst then table.hubOut.map .hub else none)
        fun n => some (.link n)

section Reads

variable {A : Type} [DecidableEq A] {view : View A} {src dst : A}

theorem Reads.overHub (reads : Reads plan fleet wires p own table view pkt src dst)
    (sound : fleet.Sound plan) (me : plan.spoke p = some own) {s : Nat}
    (up : table.hubOut = some s) :
    fleet.overHub plan.hub wires p s pkt = view.viaHub src dst := by
  have connected := reads.connected
  simp only [Fleet.toHub, up] at connected
  cases at_hub : fleet.reader p s with
  | none =>
      rw [at_hub] at connected
      rw [View.viaHub, if_pos (.inl connected), Fleet.overHub, at_hub]
  | some peer =>
      have named := sound.reads p own s peer me at_hub
      rw [at_hub, Option.isSome_some, Bool.true_and] at connected
      cases passes : (wires (.hubward p s)).passes pkt with
      | false =>
          rw [passes] at connected
          simp only [Fleet.overHub, at_hub, passes, View.viaHub, connected, true_or, if_true,
            Bool.false_eq_true, if_false]
      | true =>
          rw [passes] at connected
          simp only [Fleet.overHub, at_hub, passes, if_true, hubPeerToMesh, View.viaHub,
            reads.source peer named, reads.here, reads.passes peer named, connected,
            Fleet.fromEntry, reads.fromHub, reads.claimed]
          by_cases mine : src = view.own
          · by_cases here : dst = view.hub
            · simp [mine, here]
            · cases inside : view.inMesh dst with
              | false => simp [mine, here]
              | true =>
                  by_cases own : dst = view.own
                  · have notHub : view.own ≠ view.hub := own ▸ here
                    simp [mine, own, notHub]
                  · cases claim : lookupHubPeer fleet.hub.base.peers pkt with
                    | none => simp [mine, here, own]
                    | some other =>
                        cases reached : fleet.toEntry wires other pkt with
                        | false => simp [mine, here, own, reached]
                        | true => simp [mine, here, own, reached]
          · simp [mine]

theorem Reads.overLink (reads : Reads plan fleet wires p own table view pkt src dst)
    (sound : fleet.Sound plan) (me : plan.spoke p = some own) (n : Nat) :
    fleet.overLink wires p n pkt =
      if src = view.own then (fleet.linkEnd wires p n pkt).map .spoke else none := by
  unfold Fleet.overLink Fleet.linkEnd
  cases far : fleet.far p n with
  | none => simp
  | some ends =>
      obtain ⟨q, m⟩ := ends
      cases there : (fleet.spoke q).tasks[m]? with
      | none => simp [there]
      | some task =>
          cases task with
          | opened r peer =>
              have same := sound.heard p own n q m r peer me far there
              subst same
              by_cases mine : src = view.own
              · cases passes : (wires (.direct p n)).passes pkt with
                | false => simp [there]
                | true => simp [there, reads.accepts, mine]
              · simp [there, reads.accepts, mine]
          | _ => simp [there]

theorem Reads.fromSpoke (reads : Reads plan fleet wires p own table view pkt src dst)
    (sound : fleet.Sound plan) (me : plan.spoke p = some own) :
    fleet.fromSpoke plan.hub wires p own table pkt = view.route src dst := by
  have hubWay : (match table.hubOut.map Out.hub with
      | none => none
      | some (.link n) => fleet.overLink wires p n pkt
      | some (.hub s) => fleet.overHub plan.hub wires p s pkt) = view.viaHub src dst := by
    cases up : table.hubOut with
    | none =>
        have off : view.connected = false := by rw [reads.connected, Fleet.toHub, up]
        rw [View.viaHub, if_pos (.inl off)]
        rfl
    | some s => exact reads.overHub sound me up
  obtain ⟨n, direct, lookup⟩ := reads.lookup
  rw [Fleet.fromSpoke, SpokeMesh.forward, reads.isOwn, lookup, View.route, direct]
  by_cases own : dst = view.own
  · rw [if_pos own, if_pos (decide_eq_true own)]
  · rw [if_neg own, if_neg (by simpa using own)]
    by_cases hub : view.hubVip = some dst
    · rw [if_pos hub, if_pos hub]
      exact hubWay
    · rw [if_neg hub, if_neg hub]
      cases n with
      | some n => exact reads.overLink sound me n
      | none =>
          cases inside : view.inMesh dst with
          | true => exact hubWay
          | false => rfl

end Reads

variable (plan fleet wires p own table pkt) in
def view4 : View Ipv4Addr :=
  viewOf OwnVips.v4 vipInMesh fleet.hub.base.peers.byV4.get SpokeMesh.hubVip
    (fun table => table.direct.get) plan fleet wires p own table pkt

variable (plan fleet wires p own table pkt) in
def view6 : View Ipv6Addr :=
  viewOf OwnVips.v6 vip6InMesh fleet.hub.base.peers.byV6.get SpokeMesh.hubVip6
    (fun table => table.direct6.get) plan fleet wires p own table pkt

theorem Fleet.Sound.consistent4 (sound : fleet.Sound plan) (me : plan.spoke p = some own) :
    (view4 plan fleet wires p own (fleet.spoke p).table pkt).Consistent p
      fun q => (plan.spoke q).map OwnVips.v4 :=
  sound.right4.consistent me wires pkt

theorem Fleet.Sound.consistent6 (sound : fleet.Sound plan) (me : plan.spoke p = some own) :
    (view6 plan fleet wires p own (fleet.spoke p).table pkt).Consistent p
      fun q => (plan.spoke q).map OwnVips.v6 :=
  sound.right6.consistent me wires pkt

/-- What the filters read of an IPv4 packet. -/
theorem reads_ipv4 {src dst : Ipv4Addr} (from4 : ipv4Src pkt = some src)
    (to4 : ipv4Dst pkt = some dst) : Reads plan fleet wires p own table
      (view4 plan fleet wires p own table pkt) pkt src dst where
  source peer named := by
    rw [packetSrcMatchesPeer, from4, named]
    rfl
  here := by
    rw [packetDestinedHere, to4]
    rfl
  passes peer named := by
    rw [meshDstOk, to4, named]
    rfl
  claimed := by
    rw [lookupHubPeer, to4]
    rfl
  fromHub := by
    rw [acceptsFromHub, from4]
    rfl
  isOwn := by
    rw [packetIsOwn, to4]
    rfl
  accepts := by
    rw [accepts, from4, ipv6Src_eq_none from4]
    exact Bool.or_false _
  connected := rfl
  lookup := ⟨table.direct.get dst, rfl, lookupOut_ipv4 to4⟩

theorem reads_ipv6 {src dst : Ipv6Addr} (from6 : ipv6Src pkt = some src)
    (to6 : ipv6Dst pkt = some dst) : Reads plan fleet wires p own table
      (view6 plan fleet wires p own table pkt) pkt src dst where
  source peer named := by
    rw [packetSrcMatchesPeer, ipv4Src_eq_none from6, from6, named]
    rfl
  here := by
    rw [packetDestinedHere, ipv4Dst_eq_none to6, to6]
    rfl
  passes peer named := by
    rw [meshDstOk, ipv4Dst_eq_none to6, to6, named]
    rfl
  claimed := by
    rw [lookupHubPeer, ipv4Dst_eq_none to6, to6]
    rfl
  fromHub := by
    rw [acceptsFromHub, ipv4Src_eq_none from6, from6]
    rfl
  isOwn := by
    rw [packetIsOwn, ipv4Dst_eq_none to6, to6]
    rfl
  accepts := by
    rw [accepts, ipv4Src_eq_none from6, from6]
    rfl
  connected := rfl
  lookup := ⟨table.direct6.get dst, rfl, lookupOut_ipv6 to6⟩

theorem fromSpoke_of_none (none4 : ipv4Dst pkt = none) (none6 : ipv6Dst pkt = none) :
    fleet.fromSpoke plan.hub wires p own table pkt = none := by
  simp [Fleet.fromSpoke, SpokeMesh.forward, packetIsOwn, SpokeMesh.lookupOut, none4, none6]

/-- The packet gets from spoke `p` to spoke `q`: over a link that the address is entered with,
or, where there is none, to the hub and from an entry of its index. -/
def Fleet.Way (fleet : Fleet) (wires : Hop → Wire) (p q : EndpointId) (pkt : List UInt8)
    (direct : Option Nat) (claimed : Option HubPeer) : Prop :=
  (∃ n, direct = some n ∧ fleet.linkEnd wires p n pkt = some q) ∨
    direct = none ∧ fleet.toHub wires p (fleet.spoke p).table pkt = true ∧
      ∃ other, claimed = some other ∧ fleet.toEntry wires other pkt = true

theorem ends_iff {A : Type} {vip : OwnVips → A} {inMesh : A → Bool}
    {claimed : A → Option HubPeer} {hubVip : SpokeMesh → Option A}
    {direct : SpokeMesh → A → Option Nat} {dst : A} {q : EndpointId} :
    (viewOf vip inMesh claimed hubVip direct plan fleet wires p own (fleet.spoke p).table
        pkt).Ends p (fun q => (plan.spoke q).map vip) dst (.spoke q) ↔
      q ≠ p ∧ (∃ b, plan.spoke q = some b ∧ vip b = dst) ∧
        fleet.Way wires p q pkt (direct (fleet.spoke p).table dst) (claimed dst) := by
  refine and_congr_right fun _ => and_congr Option.map_eq_some_iff (or_congr ?_ ?_)
  · exact Option.map_eq_some_iff
  · refine and_congr Option.map_eq_none_iff (and_congr_right fun _ => ?_)
    change ((claimed dst).bind fun other =>
      if fleet.toEntry wires other pkt then some other.id else none) ≠ none ↔ _
    cases claimed dst with
    | none => simp
    | some other => simp

/-- Where a packet from a spoke's TUN comes out: at the station that has its destination
address, if it carries the spoke's own address as its source and gets there. -/
theorem fromSpoke_iff (sound : fleet.Sound plan) (me : plan.spoke p = some own) :
    fleet.fromSpoke plan.hub wires p own (fleet.spoke p).table pkt = some exit ↔
      (∃ dst, ipv4Src pkt = some own.v4 ∧ ipv4Dst pkt = some dst ∧
        (view4 plan fleet wires p own (fleet.spoke p).table pkt).Ends p
          (fun q => (plan.spoke q).map OwnVips.v4) dst exit) ∨
      ∃ dst, ipv6Src pkt = some own.v6 ∧ ipv6Dst pkt = some dst ∧
        (view6 plan fleet wires p own (fleet.spoke p).table pkt).Ends p
          (fun q => (plan.spoke q).map OwnVips.v6) dst exit := by
  rcases family_cases pkt with ⟨src, dst, from4, to4⟩ | ⟨src, dst, from6, to6⟩ |
    ⟨none4, none4', none6, none6'⟩
  · rw [(reads_ipv4 from4 to4).fromSpoke sound me, View.route_iff (sound.consistent4 me)]
    simp only [from4, to4, ipv6Src_eq_none from4, Option.some.injEq, reduceCtorEq, false_and,
      exists_false, or_false, exists_and_left, exists_eq_left']
    rfl
  · rw [(reads_ipv6 from6 to6).fromSpoke sound me, View.route_iff (sound.consistent6 me)]
    simp only [from6, to6, ipv4Src_eq_none from6, Option.some.injEq, reduceCtorEq, false_and,
      exists_false, false_or, exists_and_left, exists_eq_left']
    rfl
  · rw [fromSpoke_of_none none4' none6', none4, none6]
    simp

/-! ## Packets of the hub -/

/-- What decides about the packets of one family from the hub. -/
def hubRoute {A : Type} [DecidableEq A] (fleet : Fleet) (wires : Hop → Wire) (pkt : List UInt8)
    (own : A) (inMesh : A → Bool) (claimed : A → Option HubPeer) (src dst : A) : Option Exit :=
  if dst = own ∨ inMesh dst = false then none
  else (claimed dst).bind fun other =>
    if fleet.toEntry wires other pkt = true ∧ (inMesh src = true ∨ src = own) then
      some (.spoke other.id)
    else none

theorem hubRoute_iff {A : Type} [DecidableEq A] {vip : OwnVips → A} {inMesh : A → Bool}
    {claimed : A → Option HubPeer} {hubVip : SpokeMesh → Option A}
    {direct : SpokeMesh → A → Option Nat}
    (right : Right vip inMesh plan fleet claimed hubVip direct) {src dst : A} :
    hubRoute fleet wires pkt (vip plan.hub) inMesh claimed src dst = some exit ↔
      (inMesh src = true ∨ src = vip plan.hub) ∧
        ∃ q b, exit = .spoke q ∧ plan.spoke q = some b ∧ vip b = dst ∧
          ∃ other, claimed dst = some other ∧ fleet.toEntry wires other pkt = true := by
  unfold hubRoute
  cases claim : claimed dst with
  | none => simp
  | some peer =>
      obtain ⟨b, there, rfl⟩ := right.claimed _ _ claim
      have apart := right.notHub _ _ there
      have inside := right.inMesh _ _ there
      rw [if_neg (by simp [apart, inside]), Option.bind_some, Option.ite_none_right_eq_some,
        Option.some.injEq]
      constructor
      · rintro ⟨⟨reached, source⟩, rfl⟩
        exact ⟨source, peer.id, b, rfl, there, rfl, peer, rfl, reached⟩
      · rintro ⟨source, q, other, rfl, found, same, _, ⟨⟩, reached⟩
        exact ⟨⟨reached, source⟩, by rw [right.apart _ _ _ _ found there same]⟩

theorem fromHub_ipv4 {src dst : Ipv4Addr} (from4 : ipv4Src pkt = some src)
    (to4 : ipv4Dst pkt = some dst) :
    fleet.fromHub plan.hub wires pkt = hubRoute fleet wires pkt plan.hub.v4 vipInMesh
      fleet.hub.base.peers.byV4.get src dst := by
  simp only [Fleet.fromHub, Fleet.fromEntry, hubTunToPeers, hubRoute, packetDestinedHere,
    acceptsFromHub, lookupHubPeer, from4, to4]
  by_cases here : dst = plan.hub.v4
  · simp [here]
  · cases inside : vipInMesh dst with
    | false => simp [here]
    | true =>
        cases claim : fleet.hub.base.peers.byV4.get dst with
        | none => simp [here]
        | some other => simp [here]

theorem fromHub_ipv6 {src dst : Ipv6Addr} (from6 : ipv6Src pkt = some src)
    (to6 : ipv6Dst pkt = some dst) :
    fleet.fromHub plan.hub wires pkt = hubRoute fleet wires pkt plan.hub.v6 vip6InMesh
      fleet.hub.base.peers.byV6.get src dst := by
  simp only [Fleet.fromHub, Fleet.fromEntry, hubTunToPeers, hubRoute, packetDestinedHere,
    acceptsFromHub, lookupHubPeer, ipv4Src_eq_none from6, ipv4Dst_eq_none to6, from6, to6]
  by_cases here : dst = plan.hub.v6
  · simp [here]
  · cases inside : vip6InMesh dst with
    | false => simp [here]
    | true =>
        cases claim : fleet.hub.base.peers.byV6.get dst with
        | none => simp [here]
        | some other => simp [here]

/-- A packet from the hub's TUN comes out at the station that has its destination address, if
the hub has that in its index and reaches it, whatever address of the mesh it has as its
source. -/
theorem fromHub_iff (sound : fleet.Sound plan) :
    fleet.fromHub plan.hub wires pkt = some exit ↔
      (∃ src dst, ipv4Src pkt = some src ∧ ipv4Dst pkt = some dst ∧
        (vipInMesh src = true ∨ src = plan.hub.v4) ∧
          ∃ q b, exit = .spoke q ∧ plan.spoke q = some b ∧ b.v4 = dst ∧
            ∃ other, fleet.hub.base.peers.byV4.get dst = some other ∧
              fleet.toEntry wires other pkt = true) ∨
      ∃ src dst, ipv6Src pkt = some src ∧ ipv6Dst pkt = some dst ∧
        (vip6InMesh src = true ∨ src = plan.hub.v6) ∧
          ∃ q b, exit = .spoke q ∧ plan.spoke q = some b ∧ b.v6 = dst ∧
            ∃ other, fleet.hub.base.peers.byV6.get dst = some other ∧
              fleet.toEntry wires other pkt = true := by
  rcases family_cases pkt with ⟨src, dst, from4, to4⟩ | ⟨src, dst, from6, to6⟩ |
    ⟨none4, none4', none6, none6'⟩
  · rw [fromHub_ipv4 from4 to4, hubRoute_iff sound.right4]
    simp only [from4, to4, ipv6Src_eq_none from4, Option.some.injEq, reduceCtorEq, false_and,
      exists_false, or_false, exists_and_left, exists_eq_left']
  · rw [fromHub_ipv6 from6 to6, hubRoute_iff sound.right6]
    simp only [from6, to6, ipv4Src_eq_none from6, Option.some.injEq, reduceCtorEq, false_and,
      exists_false, false_or, exists_and_left, exists_eq_left']
  · simp [Fleet.fromHub, hubTunToPeers, packetDestinedHere, none4, none4', none6, none6']

/-! ## The shortcut -/

/-- The table without its direct links. -/
def withoutLinks (table : SpokeMesh) : SpokeMesh := { table with direct := ∅, direct6 := ∅ }

/-- A live link for these addresses: it gets the packet to a spoke, and so does the hub. -/
def Fleet.Doubled (fleet : Fleet) (wires : Hop → Wire) (p : EndpointId) (pkt : List UInt8) (n : Nat)
    (claimed : Option HubPeer) : Prop :=
  (fleet.linkEnd wires p n pkt).isSome = true ∧
    ∃ other, claimed = some other ∧ fleet.toEntry wires other pkt = true

section Family

variable {A : Type} {vip : OwnVips → A} {inMesh : A → Bool} {claimed : A → Option HubPeer}
  {hubVip : SpokeMesh → Option A} {direct : SpokeMesh → A → Option Nat}

theorem viewOf_withoutLinks (same : hubVip (withoutLinks table) = hubVip table)
    (empty : ∀ x, direct (withoutLinks table) x = none) :
    viewOf vip inMesh claimed hubVip direct plan fleet wires p own (withoutLinks table) pkt =
      { viewOf vip inMesh claimed hubVip direct plan fleet wires p own table pkt with
        direct := fun _ => none } := by
  have unlinked : (fun x => (direct (withoutLinks table) x).map fun n =>
      fleet.linkEnd wires p n pkt) = fun _ => none := by
    funext x
    rw [empty]
    rfl
  rw [viewOf, viewOf, same, unlinked]
  rfl

/-- A live link leads to a spoke that the hub reaches. -/
theorem shortcut_of_doubled {x : A} {link : Option EndpointId}
    (live : ∀ n, direct table x = some n →
      x = vip plan.hub ∨ fleet.Doubled wires p pkt n (claimed x))
    (found : (viewOf vip inMesh claimed hubVip direct plan fleet wires p own table pkt).direct x =
      some link) :
    x = vip plan.hub ∨ link ≠ none ∧
      (viewOf vip inMesh claimed hubVip direct plan fleet wires p own table pkt).claimed x ≠
        none := by
  obtain ⟨n, entry, rfl⟩ := Option.map_eq_some_iff.mp found
  refine (live n entry).imp_right ?_
  rintro ⟨leads, other, claim, reached⟩
  refine ⟨Option.isSome_iff_ne_none.mp leads, ?_⟩
  change (claimed x).bind _ ≠ none
  rw [claim, Option.bind_some, if_pos reached]
  nofun

end Family

/-- Direct links change nothing about where a packet comes out, as long as the way over the
hub is open to it and a link for its destination gets it to a spoke that the hub reaches too. -/
theorem fromSpoke_withoutLinks (sound : fleet.Sound plan) (me : plan.spoke p = some own)
    (connected : fleet.toHub wires p (fleet.spoke p).table pkt = true)
    (live4 : ∀ x n, ipv4Dst pkt = some x → (fleet.spoke p).table.direct.get x = some n →
      x = plan.hub.v4 ∨ fleet.Doubled wires p pkt n (fleet.hub.base.peers.byV4.get x))
    (live6 : ∀ x n, ipv6Dst pkt = some x → (fleet.spoke p).table.direct6.get x = some n →
      x = plan.hub.v6 ∨ fleet.Doubled wires p pkt n (fleet.hub.base.peers.byV6.get x)) :
    fleet.fromSpoke plan.hub wires p own (withoutLinks (fleet.spoke p).table) pkt =
      fleet.fromSpoke plan.hub wires p own (fleet.spoke p).table pkt := by
  rcases family_cases pkt with ⟨src, dst, from4, to4⟩ | ⟨src, dst, from6, to6⟩ |
    ⟨_, none4, _, none6⟩
  · rw [(reads_ipv4 from4 to4).fromSpoke sound me, (reads_ipv4 from4 to4).fromSpoke sound me,
      view4, viewOf_withoutLinks rfl fun x => HashMap.get_empty x]
    exact View.route_unlinked (sound.consistent4 me) connected fun link found =>
      shortcut_of_doubled (fun n => live4 dst n to4) found
  · rw [(reads_ipv6 from6 to6).fromSpoke sound me, (reads_ipv6 from6 to6).fromSpoke sound me,
      view6, viewOf_withoutLinks rfl fun x => HashMap.get_empty x]
    exact View.route_unlinked (sound.consistent6 me) connected fun link found =>
      shortcut_of_doubled (fun n => live6 dst n to6) found
  · rw [fromSpoke_of_none none4 none6, fromSpoke_of_none none4 none6]

end Packets

end LinkP2p.Tun.Journey
