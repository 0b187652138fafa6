import LinkP2p.Tun.HubIndex

/-!
# What the hub does with one packet

The filters read the source and destination of a packet, the addresses that the
session captured when it started, and the peer index at that moment.
-/

namespace LinkP2p.Tun.Hub

open LinkP2p.Lib LinkP2p.Lib.Bytes

def lookupHubPeer (idx : HubPeerIndex) (pkt : List UInt8) : Option HubPeer :=
  match ipv4Dst pkt with
  | some dst => idx.byV4.get dst
  | none =>
      match ipv6Dst pkt with
      | some dst => idx.byV6.get dst
      | none => none

def packetDestinedHere (pkt : List UInt8) (own : OwnVips) : Bool :=
  match ipv4Dst pkt with
  | some dst => dst == own.v4
  | none =>
      match ipv6Dst pkt with
      | some dst => dst == own.v6
      | none => false

def packetSrcMatchesPeer (pkt : List UInt8) (peer : HubPeer) : Bool :=
  match ipv4Src pkt with
  | some src => src == peer.vip
  | none =>
      match ipv6Src pkt with
      | some src => src == peer.vip6
      | none => false

def meshDstOk (pkt : List UInt8) (peer : HubPeer) : Bool :=
  match ipv4Dst pkt with
  | some dst => vipInMesh dst && dst != peer.vip
  | none =>
      match ipv6Dst pkt with
      | some dst => vip6InMesh dst && dst != peer.vip6
      | none => false

/-- Where a packet goes. -/
inductive Verdict where
  | drop
  | deliver
  | forward (other : HubPeer)
  deriving DecidableEq

/-- `hub_peer_to_mesh` on one datagram of `peer`'s connection. -/
def hubPeerToMesh (own : OwnVips) (idx : HubPeerIndex) (peer : HubPeer) (pkt : List UInt8) :
    Verdict :=
  if !packetSrcMatchesPeer pkt peer then .drop
  else if packetDestinedHere pkt own then .deliver
  else if !meshDstOk pkt peer then .drop
  else
    match lookupHubPeer idx pkt with
    | none => .drop
    | some other => .forward other

/-- `hub_tun_to_peers` on one packet of the local TUN. -/
def hubTunToPeers (own : OwnVips) (idx : HubPeerIndex) (pkt : List UInt8) : Verdict :=
  if packetDestinedHere pkt own then .drop
  else
    let skip :=
      match ipv4Dst pkt, ipv6Dst pkt with
      | some dst, _ => !vipInMesh dst
      | none, some dst => !vip6InMesh dst
      | none, none => true
    if skip then .drop
    else
      match lookupHubPeer idx pkt with
      | none => .drop
      | some peer => .forward peer

theorem lookup_ipv4 {pkt : List UInt8} {dst : Ipv4Addr} (idx : HubPeerIndex)
    (found : ipv4Dst pkt = some dst) : lookupHubPeer idx pkt = idx.byV4.get dst := by
  rw [lookupHubPeer, found]

theorem lookup_ipv6 {pkt : List UInt8} {dst : Ipv6Addr} (idx : HubPeerIndex)
    (found : ipv6Dst pkt = some dst) : lookupHubPeer idx pkt = idx.byV6.get dst := by
  rw [lookupHubPeer, ipv4Dst_eq_none found, found]

/-! ## Addresses of accepted packets -/

theorem srcMatches_iff {pkt : List UInt8} {peer : HubPeer} :
    packetSrcMatchesPeer pkt peer = true ↔
      ipv4Src pkt = some peer.vip ∨ ipv6Src pkt = some peer.vip6 := by
  unfold packetSrcMatchesPeer
  cases four : ipv4Src pkt with
  | some src =>
      rw [ipv6Src_eq_none four]
      simp
  | none =>
      cases ipv6Src pkt with
      | none => simp
      | some src => simp

/-- A packet that is not dropped carries an address that its session announced. -/
theorem src_of_not_dropped {own : OwnVips} {idx : HubPeerIndex} {peer : HubPeer}
    {pkt : List UInt8} (passed : hubPeerToMesh own idx peer pkt ≠ .drop) :
    ipv4Src pkt = some peer.vip ∨ ipv6Src pkt = some peer.vip6 := by
  rw [← srcMatches_iff]
  by_contra mismatch
  apply passed
  rw [hubPeerToMesh, if_pos]
  simpa using mismatch

/-- The destination of the packet is inside the mesh prefix of its family, and
the index assigns it to `other`. -/
def RoutedTo (idx : HubPeerIndex) (pkt : List UInt8) (other : HubPeer) : Prop :=
  (∃ dst, ipv4Dst pkt = some dst ∧ vipInMesh dst = true ∧ idx.byV4.get dst = some other) ∨
    ∃ dst, ipv6Dst pkt = some dst ∧ vip6InMesh dst = true ∧ idx.byV6.get dst = some other

theorem routed_of_lookup {idx : HubPeerIndex} {pkt : List UInt8} {other : HubPeer}
    (found : lookupHubPeer idx pkt = some other)
    (four : ∀ dst, ipv4Dst pkt = some dst → vipInMesh dst = true)
    (six : ∀ dst, ipv6Dst pkt = some dst → vip6InMesh dst = true) : RoutedTo idx pkt other := by
  unfold lookupHubPeer at found
  split at found
  · rename_i dst carried
    exact Or.inl ⟨dst, carried, four dst carried, found⟩
  · split at found
    · rename_i dst carried
      exact Or.inr ⟨dst, carried, six dst carried, found⟩
    · cases found

theorem forward_of_lookup {found : Option HubPeer} {other : HubPeer}
    (forwarded : (match found with
      | none => Verdict.drop
      | some peer => .forward peer) = .forward other) : found = some other := by
  cases found with
  | none => cases forwarded
  | some peer =>
      cases forwarded
      rfl

theorem inMesh_of_dstOk {pkt : List UInt8} {peer : HubPeer} (ok : meshDstOk pkt peer = true) :
    (∀ dst, ipv4Dst pkt = some dst → vipInMesh dst = true) ∧
      ∀ dst, ipv6Dst pkt = some dst → vip6InMesh dst = true := by
  unfold meshDstOk at ok
  constructor
  · intro dst carried
    simp only [carried, Bool.and_eq_true] at ok
    exact ok.1
  · intro dst carried
    simp only [ipv4Dst_eq_none carried, carried, Bool.and_eq_true] at ok
    exact ok.1

theorem routed_of_forward {own : OwnVips} {idx : HubPeerIndex} {peer other : HubPeer}
    {pkt : List UInt8} (forwarded : hubPeerToMesh own idx peer pkt = .forward other) :
    RoutedTo idx pkt other := by
  unfold hubPeerToMesh at forwarded
  split at forwarded
  · cases forwarded
  · split at forwarded
    · cases forwarded
    · split at forwarded
      · cases forwarded
      · rename_i destOk
        obtain ⟨four, six⟩ := inMesh_of_dstOk (by simpa using destOk)
        exact routed_of_lookup (forward_of_lookup forwarded) four six

/-! ## Packets with given addresses -/

/-- A bare IPv4 header. -/
def ipv4Packet (src dst : Ipv4Addr) : List UInt8 :=
  0x45 :: List.replicate 11 0 ++ Ipv4Addr.octets src ++ Ipv4Addr.octets dst

/-- A bare IPv6 header. -/
def ipv6Packet (src dst : Ipv6Addr) : List UInt8 :=
  0x60 :: List.replicate 7 0 ++ Ipv6Addr.octets src ++ Ipv6Addr.octets dst

theorem length_ipv4Packet (src dst : Ipv4Addr) : (ipv4Packet src dst).length = 20 := by
  simp [ipv4Packet, Ipv4Addr.octets]

theorem length_ipv6Packet (src dst : Ipv6Addr) : (ipv6Packet src dst).length = 40 := by
  simp [ipv6Packet, Ipv6Addr.octets]

theorem version_ipv4Packet (src dst : Ipv4Addr) : version (ipv4Packet src dst) = 4 := by
  have first : (ipv4Packet src dst).headD 0 = 0x45 := by simp [ipv4Packet]
  rw [version, first]
  decide

theorem version_ipv6Packet (src dst : Ipv6Addr) : version (ipv6Packet src dst) = 6 := by
  have first : (ipv6Packet src dst).headD 0 = 0x60 := by simp [ipv6Packet]
  rw [version, first]
  decide

theorem ipv4Src_packet (src dst : Ipv4Addr) : ipv4Src (ipv4Packet src dst) = some src := by
  have header : slice (ipv4Packet src dst) 12 4 = Ipv4Addr.octets src :=
    slice_append (by simp) (length_toBytes 4 _) _
  rw [ipv4Src, header, Ipv4Addr.ofOctets_octets, length_ipv4Packet, version_ipv4Packet]
  rfl

theorem ipv4Dst_packet (src dst : Ipv4Addr) : ipv4Dst (ipv4Packet src dst) = some dst := by
  have header : slice (ipv4Packet src dst) 16 4 = Ipv4Addr.octets dst :=
    slice_suffix (by simp [Ipv4Addr.octets]) (length_toBytes 4 _)
  rw [ipv4Dst, header, Ipv4Addr.ofOctets_octets, length_ipv4Packet, version_ipv4Packet]
  rfl

theorem ipv6Src_packet (src dst : Ipv6Addr) : ipv6Src (ipv6Packet src dst) = some src := by
  have header : slice (ipv6Packet src dst) 8 16 = Ipv6Addr.octets src :=
    slice_append (by simp) (length_toBytes 16 _) _
  rw [ipv6Src, header, Ipv6Addr.ofOctets_octets, length_ipv6Packet, version_ipv6Packet]
  rfl

theorem ipv6Dst_packet (src dst : Ipv6Addr) : ipv6Dst (ipv6Packet src dst) = some dst := by
  have header : slice (ipv6Packet src dst) 24 16 = Ipv6Addr.octets dst :=
    slice_suffix (by simp [Ipv6Addr.octets]) (length_toBytes 16 _)
  rw [ipv6Dst, header, Ipv6Addr.ofOctets_octets, length_ipv6Packet, version_ipv6Packet]
  rfl

/-- A header from the session's own IPv4 address to the hub is delivered. -/
theorem deliver_ipv4Packet (own : OwnVips) (idx : HubPeerIndex) (peer : HubPeer) :
    hubPeerToMesh own idx peer (ipv4Packet peer.vip own.v4) = .deliver := by
  simp [hubPeerToMesh, packetSrcMatchesPeer, packetDestinedHere, ipv4Src_packet, ipv4Dst_packet]

theorem deliver_ipv6Packet (own : OwnVips) (idx : HubPeerIndex) (peer : HubPeer) :
    hubPeerToMesh own idx peer (ipv6Packet peer.vip6 own.v6) = .deliver := by
  have noV4Src : ipv4Src (ipv6Packet peer.vip6 own.v6) = none := by
    rw [ipv4Src, version_ipv6Packet]
    exact if_pos (by simp)
  have noV4Dst : ipv4Dst (ipv6Packet peer.vip6 own.v6) = none := by
    rw [ipv4Dst, version_ipv6Packet]
    exact if_pos (by simp)
  simp [hubPeerToMesh, packetSrcMatchesPeer, packetDestinedHere, noV4Src, noV4Dst,
    ipv6Src_packet, ipv6Dst_packet]

end LinkP2p.Tun.Hub
