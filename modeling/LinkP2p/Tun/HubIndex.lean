import LinkP2p.Lib.HashMap
import LinkP2p.Tun.Packet

/-!
# The hub's peer index

`HubPeerIndex` keeps every attached spoke under its IPv4 and under its IPv6
address. `try_claim_peer` inserts under both keys in one `rcu` closure and then
reads the index again; `peers_remove_if_owned` takes out what one session put in.
-/

namespace LinkP2p.Tun.Hub

open LinkP2p.Lib

/-- Sending half of a channel that one session made: its datagram queue or its
roster queue. Clones share the channel. -/
inductive Sender where
  | outbound (session : Nat)
  | roster (session : Nat)
  deriving DecidableEq, Repr

/-- One spoke attached to the hub. The session number is the accept counter's
`u64`, which no run of the program exhausts. -/
structure HubPeer where
  id : EndpointId
  session : Nat
  vip : Ipv4Addr
  vip6 : Ipv6Addr
  outbound : Sender
  hidden : Bool
  deriving DecidableEq, Repr

@[ext]
structure HubPeerIndex where
  byV4 : HashMap Ipv4Addr HubPeer
  byV6 : HashMap Ipv6Addr HubPeer
  deriving DecidableEq

/-- `HubPeerIndex::default()` -/
def HubPeerIndex.empty : HubPeerIndex := ⟨∅, ∅⟩

/-- The error of a refused claim: "virtual IP {0} / {1} is already claimed by
another peer". -/
inductive ClaimError where
  | alreadyClaimed (vip : Ipv4Addr) (vip6 : Ipv6Addr)
  deriving DecidableEq, Repr

/-- `slot.map(|p| p.id != peer_id).unwrap_or(false)` -/
def foreign (peerId : EndpointId) (slot : Option HubPeer) : Bool :=
  (slot.map fun p => p.id != peerId).getD false

/-- The closure that `try_claim_peer` hands to `rcu`. -/
def claimClosure (peer : HubPeer) (idx : HubPeerIndex) : HubPeerIndex :=
  if foreign peer.id (idx.byV4.get peer.vip) || foreign peer.id (idx.byV6.get peer.vip6) then
    idx
  else
    { byV4 := idx.byV4.put peer.vip peer
      byV6 := idx.byV6.put peer.vip6 peer }

/-- The check on the reloaded index. -/
def claimVerdict (peer : HubPeer) (after : HubPeerIndex) : Except ClaimError Unit :=
  match after.byV4.get peer.vip with
  | some p =>
      if p.id = peer.id then .ok () else .error (.alreadyClaimed peer.vip peer.vip6)
  | none => .error (.alreadyClaimed peer.vip peer.vip6)

/-- A call of `try_claim_peer` with no other update between its two accesses. -/
def tryClaimPeer (peers : HubPeerIndex) (peer : HubPeer) :
    HubPeerIndex × Except ClaimError Unit :=
  let after := claimClosure peer peers
  (after, claimVerdict peer after)

/-- `slot.map(|p| p.session == session).unwrap_or(false)` -/
def ours (session : Nat) (slot : Option HubPeer) : Bool :=
  (slot.map fun p => p.session == session).getD false

/-- The closure that `peers_remove_if_owned` hands to `rcu`. -/
def removeClosure (vip : Ipv4Addr) (vip6 : Ipv6Addr) (session : Nat) (idx : HubPeerIndex) :
    HubPeerIndex :=
  let oursV4 := ours session (idx.byV4.get vip)
  let oursV6 := ours session (idx.byV6.get vip6)
  if !oursV4 && !oursV6 then idx
  else
    { byV4 := if oursV4 then idx.byV4.remove vip else idx.byV4
      byV6 := if oursV6 then idx.byV6.remove vip6 else idx.byV6 }

/-- What `peers_remove_if_owned` returns from the reloaded index. -/
def slotsEmpty (vip : Ipv4Addr) (vip6 : Ipv6Addr) (after : HubPeerIndex) : Bool :=
  !after.byV4.containsKey vip && !after.byV6.containsKey vip6

/-! ## The two checks in terms of the slots -/

/-- The slot holds an entry of the same peer. -/
def OwnSlot (peerId : EndpointId) (slot : Option HubPeer) : Prop :=
  ∃ p, slot = some p ∧ p.id = peerId

/-- The slot holds an entry of another peer. -/
def ForeignSlot (peerId : EndpointId) (slot : Option HubPeer) : Prop :=
  ∃ p, slot = some p ∧ p.id ≠ peerId

theorem foreign_iff {peerId : EndpointId} {slot : Option HubPeer} :
    foreign peerId slot = true ↔ ForeignSlot peerId slot := by
  cases slot with
  | none => simp [foreign, ForeignSlot]
  | some p => simp [foreign, ForeignSlot]

theorem ours_iff {session : Nat} {slot : Option HubPeer} :
    ours session slot = true ↔ ∃ p, slot = some p ∧ p.session = session := by
  cases slot with
  | none => simp [ours]
  | some p => simp [ours]

/-- The claim closure stores: neither slot belongs to another peer. -/
def Admits (peer : HubPeer) (idx : HubPeerIndex) : Prop :=
  ¬ ForeignSlot peer.id (idx.byV4.get peer.vip) ∧
    ¬ ForeignSlot peer.id (idx.byV6.get peer.vip6)

theorem claimClosure_of_admits {peer : HubPeer} {idx : HubPeerIndex} (admits : Admits peer idx) :
    claimClosure peer idx =
      ⟨idx.byV4.put peer.vip peer, idx.byV6.put peer.vip6 peer⟩ := by
  rw [claimClosure, if_neg]
  rw [Bool.or_eq_true, foreign_iff, foreign_iff, not_or]
  exact admits

theorem claimClosure_of_not_admits {peer : HubPeer} {idx : HubPeerIndex}
    (refused : ¬ Admits peer idx) : claimClosure peer idx = idx := by
  rw [claimClosure, if_pos]
  rw [Bool.or_eq_true, foreign_iff, foreign_iff]
  by_contra free
  exact refused (not_or.mp free)

/-- One of the two maps: the claim stores the peer under its own address. -/
theorem get_put_claimed {K : Type} [DecidableEq K] {slots : HashMap K HubPeer} {own key : K}
    {peer p : HubPeer} {idx : HubPeerIndex} (admits : Admits peer idx)
    (found : (slots.put own peer).get key = some p) :
    (key = own ∧ p = peer ∧ Admits peer idx) ∨ slots.get key = some p := by
  rcases HashMap.get_of_get_put found with ⟨rfl, rfl⟩ | ⟨_, kept⟩
  · exact Or.inl ⟨rfl, rfl, admits⟩
  · exact Or.inr kept

theorem get_claimClosure {peer p : HubPeer} {idx : HubPeerIndex} {key : Ipv4Addr}
    (found : (claimClosure peer idx).byV4.get key = some p) :
    (key = peer.vip ∧ p = peer ∧ Admits peer idx) ∨ idx.byV4.get key = some p := by
  by_cases admits : Admits peer idx
  · rw [claimClosure_of_admits admits] at found
    exact get_put_claimed admits found
  · rw [claimClosure_of_not_admits admits] at found
    exact Or.inr found

theorem get_claimClosure6 {peer p : HubPeer} {idx : HubPeerIndex} {key : Ipv6Addr}
    (found : (claimClosure peer idx).byV6.get key = some p) :
    (key = peer.vip6 ∧ p = peer ∧ Admits peer idx) ∨ idx.byV6.get key = some p := by
  by_cases admits : Admits peer idx
  · rw [claimClosure_of_admits admits] at found
    exact get_put_claimed admits found
  · rw [claimClosure_of_not_admits admits] at found
    exact Or.inr found

/-- One of the two maps: the removal takes out the entry under the session's
address when it is the session's own, and nothing else. -/
theorem get_remove_ours {K : Type} [DecidableEq K] {slots : HashMap K HubPeer} {own key : K}
    {session : Nat} {p : HubPeer} :
    (if ours session (slots.get own) then slots.remove own else slots).get key = some p ↔
      slots.get key = some p ∧ ¬ (key = own ∧ p.session = session) := by
  split
  · rename_i mine
    obtain ⟨q, held, mine⟩ := ours_iff.mp mine
    rw [HashMap.get_remove]
    split
    · rename_i same
      subst same
      constructor
      · intro impossible
        cases impossible
      · rintro ⟨found, other⟩
        cases held.symm.trans found
        exact absurd ⟨rfl, mine⟩ other
    · rename_i distinct
      exact ⟨fun found => ⟨found, fun both => distinct both.1⟩, fun both => both.1⟩
  · rename_i notOurs
    refine ⟨fun found => ⟨found, ?_⟩, fun both => both.1⟩
    rintro ⟨rfl, mine⟩
    exact notOurs (ours_iff.mpr ⟨p, found, mine⟩)

theorem removeClosure_eq (vip : Ipv4Addr) (vip6 : Ipv6Addr) (session : Nat)
    (idx : HubPeerIndex) :
    removeClosure vip vip6 session idx =
      ⟨if ours session (idx.byV4.get vip) then idx.byV4.remove vip else idx.byV4,
        if ours session (idx.byV6.get vip6) then idx.byV6.remove vip6 else idx.byV6⟩ := by
  unfold removeClosure
  cases ours session (idx.byV4.get vip) <;> cases ours session (idx.byV6.get vip6) <;> rfl

theorem get_removeClosure {vip key : Ipv4Addr} {vip6 : Ipv6Addr} {session : Nat}
    {idx : HubPeerIndex} {p : HubPeer} :
    (removeClosure vip vip6 session idx).byV4.get key = some p ↔
      idx.byV4.get key = some p ∧ ¬ (key = vip ∧ p.session = session) := by
  rw [removeClosure_eq]
  exact get_remove_ours

theorem get_removeClosure6 {vip : Ipv4Addr} {vip6 key : Ipv6Addr} {session : Nat}
    {idx : HubPeerIndex} {p : HubPeer} :
    (removeClosure vip vip6 session idx).byV6.get key = some p ↔
      idx.byV6.get key = some p ∧ ¬ (key = vip6 ∧ p.session = session) := by
  rw [removeClosure_eq]
  exact get_remove_ours

/-- The check looks at the IPv4 slot only. -/
theorem claimVerdict_ok_iff {peer : HubPeer} {after : HubPeerIndex} :
    claimVerdict peer after = .ok () ↔ OwnSlot peer.id (after.byV4.get peer.vip) := by
  unfold claimVerdict OwnSlot
  cases after.byV4.get peer.vip with
  | none => simp
  | some p =>
      by_cases same : p.id = peer.id
      · simp [same]
      · simp [same]

/-! ## One call of `try_claim_peer` -/

/-- Both slots hold exactly this session's entry. -/
def Holds (idx : HubPeerIndex) (peer : HubPeer) : Prop :=
  idx.byV4.get peer.vip = some peer ∧ idx.byV6.get peer.vip6 = some peer

/-- `Ok` means that the session holds both slots, `Err` that nothing changed. -/
structure ClaimContract (peers : HubPeerIndex) (peer : HubPeer) : Prop where
  ok_iff : (tryClaimPeer peers peer).2 = .ok () ↔ Holds (tryClaimPeer peers peer).1 peer
  unchanged : (tryClaimPeer peers peer).2 ≠ .ok () → (tryClaimPeer peers peer).1 = peers

/-- The IPv4 slot is held by an older session of the same peer and the IPv6
slot by another peer. -/
def HalfTaken (peers : HubPeerIndex) (peer : HubPeer) : Prop :=
  OwnSlot peer.id (peers.byV4.get peer.vip) ∧ ForeignSlot peer.id (peers.byV6.get peer.vip6)

theorem holds_claimClosure {peer : HubPeer} {idx : HubPeerIndex} (admits : Admits peer idx) :
    Holds (claimClosure peer idx) peer := by
  rw [claimClosure_of_admits admits]
  exact ⟨HashMap.get_put_self _ _ _, HashMap.get_put_self _ _ _⟩

/-- No slot but the two of the claim or the removal is emptied. -/
theorem occupied_claimClosure {peer : HubPeer} {idx : HubPeerIndex} :
    (∀ key, idx.byV4.get key ≠ none →
        (claimClosure peer idx).byV4.get key ≠ none ∨ key = peer.vip) ∧
      ∀ key, idx.byV6.get key ≠ none →
        (claimClosure peer idx).byV6.get key ≠ none ∨ key = peer.vip6 := by
  by_cases admits : Admits peer idx
  · rw [claimClosure_of_admits admits]
    refine ⟨fun key occupied => or_iff_not_imp_right.mpr fun distinct => ?_,
      fun key occupied => or_iff_not_imp_right.mpr fun distinct => ?_⟩
    · rwa [HashMap.get_put_of_ne distinct]
    · rwa [HashMap.get_put_of_ne distinct]
  · rw [claimClosure_of_not_admits admits]
    exact ⟨fun _ occupied => Or.inl occupied, fun _ occupied => Or.inl occupied⟩

theorem occupied_removeClosure {vip : Ipv4Addr} {vip6 : Ipv6Addr} {session : Nat}
    {idx : HubPeerIndex} :
    (∀ key, idx.byV4.get key ≠ none →
        (removeClosure vip vip6 session idx).byV4.get key ≠ none ∨ key = vip) ∧
      ∀ key, idx.byV6.get key ≠ none →
        (removeClosure vip vip6 session idx).byV6.get key ≠ none ∨ key = vip6 := by
  refine ⟨fun key occupied => or_iff_not_imp_right.mpr fun distinct => ?_,
    fun key occupied => or_iff_not_imp_right.mpr fun distinct => ?_⟩
  · obtain ⟨p, found⟩ := Option.ne_none_iff_exists'.mp occupied
    rw [get_removeClosure.mpr ⟨found, fun both => distinct both.1⟩]
    exact nofun
  · obtain ⟨p, found⟩ := Option.ne_none_iff_exists'.mp occupied
    rw [get_removeClosure6.mpr ⟨found, fun both => distinct both.1⟩]
    exact nofun

/-- A claim or a removal gives nobody else an entry. -/
theorem holds_of_claimClosure {peer q : HubPeer} {idx : HubPeerIndex} (distinct : q ≠ peer)
    (holds : Holds (claimClosure peer idx) q) : Holds idx q := by
  constructor
  · rcases get_claimClosure holds.1 with ⟨_, same, _⟩ | old
    · exact absurd same distinct
    · exact old
  · rcases get_claimClosure6 holds.2 with ⟨_, same, _⟩ | old
    · exact absurd same distinct
    · exact old

theorem holds_of_removeClosure {q : HubPeer} {idx : HubPeerIndex} {vip : Ipv4Addr}
    {vip6 : Ipv6Addr} {session : Nat} (holds : Holds (removeClosure vip vip6 session idx) q) :
    Holds idx q :=
  ⟨(get_removeClosure.mp holds.1).1, (get_removeClosure6.mp holds.2).1⟩

theorem Holds.own {idx : HubPeerIndex} {peer : HubPeer} (holds : Holds idx peer) :
    OwnSlot peer.id (idx.byV4.get peer.vip) :=
  ⟨peer, holds.1, rfl⟩

/-- **One call.** For every index and candidate the contract holds unless the
claim is half taken: then the closure stores nothing, and the check, which
sees the older session's entry in the IPv4 slot, answers `Ok`. -/
theorem tryClaimPeer_contract_iff (peers : HubPeerIndex) (peer : HubPeer) :
    ClaimContract peers peer ↔ ¬ HalfTaken peers peer := by
  have verdict : (tryClaimPeer peers peer).2 = .ok () ↔
      OwnSlot peer.id ((tryClaimPeer peers peer).1.byV4.get peer.vip) := claimVerdict_ok_iff
  constructor
  · rintro contract ⟨ownV4, q, heldV6, other⟩
    have refused : ¬ Admits peer peers := fun admits => admits.2 ⟨q, heldV6, other⟩
    have same : (tryClaimPeer peers peer).1 = peers := claimClosure_of_not_admits refused
    rw [same] at verdict
    have holds := contract.ok_iff.mp (verdict.mpr ownV4)
    rw [same] at holds
    have found := holds.2.symm.trans heldV6
    cases found
    exact other rfl
  · intro whole
    by_cases admits : Admits peer peers
    · have holds : Holds (tryClaimPeer peers peer).1 peer := holds_claimClosure admits
      have ok := verdict.mpr holds.own
      exact ⟨⟨fun _ => holds, fun _ => ok⟩, fun failed => absurd ok failed⟩
    · have same : (tryClaimPeer peers peer).1 = peers := claimClosure_of_not_admits admits
      have notOwn : ¬ OwnSlot peer.id (peers.byV4.get peer.vip) := by
        rintro ⟨p, heldV4, own⟩
        apply admits
        refine ⟨?_, fun foreignV6 => whole ⟨⟨p, heldV4, own⟩, foreignV6⟩⟩
        rintro ⟨q, again, other⟩
        cases heldV4.symm.trans again
        exact other own
      rw [same] at verdict
      refine ⟨⟨fun ok => absurd (verdict.mp ok) notOwn, fun holds => ?_⟩, fun _ => same⟩
      rw [same] at holds
      exact absurd holds.own notOwn

/-- Peer 1 reconnects with its IPv4 address and the IPv6 address of peer 2. -/
def halfTakenIndex : HubPeerIndex :=
  ⟨(∅ : HashMap Ipv4Addr HubPeer).put 0xAC180001
      ⟨1, 1, 0xAC180001, 0xfd24ac18000000000000000000000001, .outbound 1, false⟩,
    (∅ : HashMap Ipv6Addr HubPeer).put 0xfd24ac18000000000000000000000002
      ⟨2, 2, 0xAC180002, 0xfd24ac18000000000000000000000002, .outbound 2, false⟩⟩

def halfTakenPeer : HubPeer :=
  ⟨1, 3, 0xAC180001, 0xfd24ac18000000000000000000000002, .outbound 3, false⟩

/-- The hub answers `Ok` to the half-taken claim and stores nothing. -/
theorem tryClaimPeer_half_taken : ¬ ClaimContract halfTakenIndex halfTakenPeer := by
  intro contract
  have holds := contract.ok_iff.mp (by decide)
  exact absurd holds.2 (by decide)

end LinkP2p.Tun.Hub
