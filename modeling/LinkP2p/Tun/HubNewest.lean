import LinkP2p.Tun.HubInvariant

/-!
# Which session of a peer receives its packets

Numbers are handed out at accept, but a session claims only after its VIP
exchange, so the claims of one peer reach the index in any order. The claim
compares peer ids and not numbers.
-/

namespace LinkP2p.Tun.Hub

open LinkP2p.Lib LinkP2p.Lib.Transition LinkP2p.Lib.Rcu

variable {cfg : HubConfig} {hub next : State} {event : Event}

/-- Session `i` has stored its entries, and may have left since. -/
def Stored (hub : State) (i : Nat) (peer : HubPeer) : Prop :=
  hub.replaced i ≠ none ∧ ∃ point, hub.At i peer point

/-- Session `i` has stored its entries and not yet removed them. -/
def Active (hub : State) (i : Nat) (peer : HubPeer) : Prop :=
  hub.replaced i ≠ none ∧ ∃ point, hub.At i peer point ∧ point.holds = true

/-- Packets to an address of a session that has claimed are never enqueued to
an older session of its peer, and they are enqueued to the session itself unless
a newer session of the peer has claimed the address. -/
structure NewestReceives (hub : State) : Prop where
  notOlder : ∀ i peer pkt q, Active hub i peer →
    ipv4Dst pkt = some peer.vip ∨ ipv6Dst pkt = some peer.vip6 →
      lookupHubPeer hub.peers pkt = some q → q.id = peer.id → i ≤ q.session
  receives4 : ∀ i peer pkt, Active hub i peer → ipv4Dst pkt = some peer.vip →
    (∃ q, lookupHubPeer hub.peers pkt = some q ∧ q.outbound = .outbound i) ∨
      ∃ j q, Stored hub j q ∧ q.id = peer.id ∧ i < j ∧ q.vip = peer.vip
  receives6 : ∀ i peer pkt, Active hub i peer → ipv6Dst pkt = some peer.vip6 →
    (∃ q, lookupHubPeer hub.peers pkt = some q ∧ q.outbound = .outbound i) ∨
      ∃ j q, Stored hub j q ∧ q.id = peer.id ∧ i < j ∧ q.vip6 = peer.vip6

/-- An accepted session gets a number above all earlier ones, and no entry is
replaced by one of an older session of its peer. -/
structure NeverOlder (cfg : HubConfig) (hub : State) (event : Event) : Prop where
  accept : ∀ peerId next, event = .accept peerId →
    (hubSystem cfg).atomic hub event = some next →
      (∀ i, hub.tasks i ≠ none → i < next.sessionSeq) ∧
        ∀ i, i ≠ next.sessionSeq → next.tasks i = hub.tasks i
  four : ∀ next key p q, (hubSystem cfg).atomic hub event = some next →
    hub.peers.byV4.get key = some p → next.peers.byV4.get key = some q → q.id = p.id →
      p.session ≤ q.session
  six : ∀ next key p q, (hubSystem cfg).atomic hub event = some next →
    hub.peers.byV6.get key = some p → next.peers.byV6.get key = some q → q.id = p.id →
      p.session ≤ q.session

/-- A claim that stores its entries finds no newer session of its peer that has
claimed one of the two addresses and not removed it, and no newer entry in the
IPv6 slot. -/
def ClaimsNewest (hub : State) (event : Event) : Prop :=
  ∀ i peer, event = .act i .claim → hub.At i peer .claim → Admits peer hub.peers →
    (∀ p, hub.peers.byV6.get peer.vip6 = some p → p.session ≤ i) ∧
      ∀ j q, Active hub j q → q.id = peer.id → i < j → q.vip ≠ peer.vip ∧ q.vip6 ≠ peer.vip6

/-! ## One address family -/

/-- The two slots of each active session, for one of the two maps. -/
def NewestIn {K : Type} [DecidableEq K] (hub : State) (slots : HashMap K HubPeer)
    (addr : HubPeer → K) : Prop :=
  ∀ i peer, Active hub i peer →
    (∀ q, slots.get (addr peer) = some q → q.id = peer.id → i ≤ q.session) ∧
      (slots.get (addr peer) = some peer ∨
        ∃ j q, Stored hub j q ∧ q.id = peer.id ∧ i < j ∧ addr q = addr peer)

section Family

variable {K : Type} [DecidableEq K] {slots slots' : HashMap K HubPeer} {addr : HubPeer → K}

/-- A step that stores no new entry and keeps those of active sessions. -/
theorem newestIn_of_shrink (newest : NewestIn hub slots addr)
    (shrinks : ∀ key p, slots'.get key = some p → slots.get key = some p)
    (keeps : ∀ i peer, Active next i peer → slots.get (addr peer) = some peer →
      slots'.get (addr peer) = some peer)
    (back : ∀ i peer, Active next i peer → Active hub i peer)
    (onward : ∀ i peer, Stored hub i peer → Stored next i peer) :
    NewestIn next slots' addr := by
  intro i peer active
  obtain ⟨notOlder, receives⟩ := newest i peer (back i peer active)
  refine ⟨fun q found => notOlder q (shrinks _ q found), ?_⟩
  rcases receives with own | ⟨j, q, stored, rest⟩
  · exact Or.inl (keeps i peer active own)
  · exact Or.inr ⟨j, q, onward j q stored, rest⟩

/-- A claim that stores its entry and overtakes no newer session. -/
theorem newestIn_of_put {i : Nat} {peer : HubPeer} (newest : NewestIn hub slots addr)
    (number : peer.session = i)
    (admits : ¬ ForeignSlot peer.id (slots.get (addr peer)))
    (newer : ∀ j q, Active hub j q → q.id = peer.id → i < j → addr q ≠ addr peer)
    (back : ∀ j q, Active next j q → (j = i ∧ q = peer) ∨ (j ≠ i ∧ Active hub j q))
    (onward : ∀ j q, Stored hub j q → Stored next j q) (own : Stored next i peer) :
    NewestIn next (slots.put (addr peer) peer) addr := by
  intro j q active
  rcases back j q active with ⟨rfl, rfl⟩ | ⟨distinct, before⟩
  · rw [HashMap.get_put_self]
    refine ⟨fun p found _ => ?_, Or.inl rfl⟩
    cases found
    omega
  · obtain ⟨notOlder, receives⟩ := newest j q before
    rw [HashMap.get_put]
    split
    · rename_i same
      have behind : q.id = peer.id → j < i := fun peers => by
        have := mt (newer j q before peers) (not_not.mpr same)
        omega
      refine ⟨fun p found peers => ?_, Or.inr ?_⟩
      · cases found
        have := behind peers.symm
        omega
      · rcases receives with held | ⟨k, r, stored, rest⟩
        · have peers : q.id = peer.id := by
            by_contra other
            exact admits ⟨q, same ▸ held, other⟩
          exact ⟨i, peer, own, peers.symm, behind peers, same.symm⟩
        · exact ⟨k, r, onward k r stored, rest⟩
    · refine ⟨notOlder, ?_⟩
      rcases receives with held | ⟨k, r, stored, rest⟩
      · exact Or.inl held
      · exact Or.inr ⟨k, r, onward k r stored, rest⟩

end Family

/-! ## Packets and slots -/

theorem eq_of_outbound (wf : Wf hub) {i : Nat} {peer q : HubPeer} {point point' : Point}
    (here : hub.At i peer point) (there : hub.At q.session q point')
    (outbound : q.outbound = .outbound i) : q = peer := by
  have sent := (wf.number _ q _ there).2.symm.trans outbound
  have same : q.session = i := Sender.outbound.inj sent
  rw [same] at there
  exact (there.unique here).1

theorem newestReceives_iff (wf : Wf hub) :
    NewestReceives hub ↔
      NewestIn hub hub.peers.byV4 HubPeer.vip ∧ NewestIn hub hub.peers.byV6 HubPeer.vip6 := by
  constructor
  · intro newest
    constructor
    · intro i peer active
      have dst := ipv4Dst_packet 0 peer.vip
      have lookup := lookup_ipv4 hub.peers dst
      refine ⟨fun q found =>
        newest.notOlder i peer _ q active (Or.inl dst) (lookup.trans found), ?_⟩
      obtain ⟨_, point, here, _⟩ := id active
      rcases newest.receives4 i peer _ active dst with ⟨q, found, outbound⟩ | later
      · rw [lookup] at found
        obtain ⟨_, there, _⟩ := wf.owner4 _ q found
        rw [eq_of_outbound wf here there outbound] at found
        exact Or.inl found
      · exact Or.inr later
    · intro i peer active
      have dst := ipv6Dst_packet 0 peer.vip6
      have lookup := lookup_ipv6 hub.peers dst
      refine ⟨fun q found =>
        newest.notOlder i peer _ q active (Or.inr dst) (lookup.trans found), ?_⟩
      obtain ⟨_, point, here, _⟩ := id active
      rcases newest.receives6 i peer _ active dst with ⟨q, found, outbound⟩ | later
      · rw [lookup] at found
        obtain ⟨_, there, _⟩ := wf.owner6 _ q found
        rw [eq_of_outbound wf here there outbound] at found
        exact Or.inl found
      · exact Or.inr later
  · rintro ⟨four, six⟩
    refine ⟨?_, ?_, ?_⟩
    · rintro i peer pkt q active (dst | dst) found
      · rw [lookup_ipv4 hub.peers dst] at found
        exact (four i peer active).1 q found
      · rw [lookup_ipv6 hub.peers dst] at found
        exact (six i peer active).1 q found
    · intro i peer pkt active dst
      obtain ⟨_, point, here, _⟩ := id active
      rw [lookup_ipv4 hub.peers dst]
      exact (four i peer active).2.imp_left fun own => ⟨peer, own, (wf.number i peer _ here).2⟩
    · intro i peer pkt active dst
      obtain ⟨_, point, here, _⟩ := id active
      rw [lookup_ipv6 hub.peers dst]
      exact (six i peer active).2.imp_left fun own => ⟨peer, own, (wf.number i peer _ here).2⟩

/-! ## Steps -/

theorem stored_step (wf : Wf hub) (taken : (hubSystem cfg).atomic hub event = some next)
    {j : Nat} {q : HubPeer} (stored : Stored hub j q) : Stored next j q := by
  obtain ⟨history, place⟩ := stored
  cases atomic_cases wf taken with
  | quiet _ quiet =>
      obtain ⟨p, point, there, late⟩ := wf.claimed history
      obtain ⟨_, here⟩ := place
      obtain ⟨rfl, rfl⟩ := there.unique here
      exact ⟨by rw [quiet.replaced]; exact history, point, (quiet.at_iff j p point late).mpr there⟩
  | moved i peer here move =>
      refine ⟨stored_of_index move.index history, ?_⟩
      obtain ⟨point, there⟩ := place
      obtain ⟨point', after, _⟩ := at_after (fun _ => True) here
        (fun _ _ => id) ⟨point, there, trivial⟩
      exact ⟨point', after⟩

/-- An active session was active before, or its claim has just stored. -/
theorem active_back (wf : Wf hub) (taken : (hubSystem cfg).atomic hub event = some next)
    {j : Nat} {q : HubPeer} (active : Active next j q) :
    Active hub j q ∨ event = .act j .claim ∧ hub.At j q .claim ∧ Admits q hub.peers := by
  obtain ⟨history, point, there, held⟩ := active
  cases atomic_cases wf taken with
  | quiet _ quiet =>
      refine Or.inl ⟨by rwa [quiet.replaced] at history, point,
        (quiet.at_iff j q point ?_).mp there,
        held⟩
      rintro rfl
      cases held
  | moved i peer here move =>
      cases move.index with
      | claim =>
          rcases replaced_claim hub peer j with ⟨admits, same, _⟩ | ⟨_, now⟩
          · rw [(wf.number i peer _ here).1] at same
            subst same
            obtain ⟨rfl, _⟩ := there.unique at_advance_self
            exact Or.inr ⟨rfl, here, admits⟩
          · rw [advance_replaced, now] at history
            obtain ⟨p, point', before, late⟩ := wf.claimed history
            rcases at_advance there with ⟨rfl, rfl, _⟩ | ⟨_, before⟩
            · exact absurd (before.unique here).2 late
            · exact Or.inl ⟨history, point, before, held⟩
      | rejected lost =>
          rcases at_advance there with ⟨_, _, rfl⟩ | ⟨_, before⟩
          · cases held
          · exact Or.inl ⟨history, point, before, held⟩
      | remove _ given =>
          rcases at_advance there with ⟨_, _, rfl⟩ | ⟨_, before⟩
          · cases held.symm.trans given
          · exact Or.inl ⟨history, point, before, held⟩
      | keep _ replaced same =>
          rw [advance_replaced, replaced] at history
          rcases at_advance there with ⟨rfl, rfl, rfl⟩ | ⟨_, before⟩
          · exact Or.inl ⟨history, _, here, same.symm.trans held⟩
          · exact Or.inl ⟨history, point, before, held⟩

/-- The event is a claim that stores its entries. -/
def Installing (hub : State) (event : Event) : Prop :=
  ∃ i peer, event = .act i .claim ∧ hub.At i peer .claim ∧ Admits peer hub.peers

theorem atomic_claim {i : Nat} {peer : HubPeer} (here : hub.At i peer .claim) :
    (hubSystem cfg).atomic hub (.act i .claim) = some (advance hub i peer .verify
      (.store (claimClosure peer hub.peers) (installs peer hub.peers))) := by
  change ((hub.tasks i).bind fun _ => _) = _
  rw [here]
  rfl

/-- Any other step leaves the index alone or is a removal. -/
theorem peers_of_not_installing (wf : Wf hub) (other : ¬ Installing hub event)
    (taken : (hubSystem cfg).atomic hub event = some next) :
    next.peers = hub.peers ∨ ∃ i peer point, hub.At i peer point ∧
      next.peers = removeClosure peer.vip peer.vip6 peer.session hub.peers ∧
        ∀ q, ¬ Active next i q := by
  cases atomic_cases wf taken with
  | quiet _ quiet => exact Or.inl quiet.peers
  | moved i peer here move =>
      cases move.index with
      | claim =>
          refine Or.inl (claimClosure_of_not_admits fun admits => ?_)
          exact other ⟨i, peer, rfl, here, admits⟩
      | rejected => exact Or.inl rfl
      | remove _ given =>
          refine Or.inr ⟨i, peer, _, here, rfl, ?_⟩
          rintro q ⟨_, point, there, held⟩
          obtain ⟨_, rfl⟩ := there.unique at_advance_self
          cases held.symm.trans given
      | keep peers => exact Or.inl peers

theorem back_of_not_installing (wf : Wf hub) (other : ¬ Installing hub event)
    (taken : (hubSystem cfg).atomic hub event = some next) (j : Nat) (q : HubPeer)
    (active : Active next j q) : Active hub j q := by
  rcases active_back wf taken active with before | ⟨rfl, here, admits⟩
  · exact before
  · exact absurd ⟨j, q, rfl, here, admits⟩ other

theorem accept_numbers (wf : Wf hub) {peerId : EndpointId}
    (taken : (hubSystem cfg).atomic hub (.accept peerId) = some next) :
    (∀ i, hub.tasks i ≠ none → i < next.sessionSeq) ∧
      ∀ i, i ≠ next.sessionSeq → next.tasks i = hub.tasks i := by
  cases taken
  constructor
  · intro i used
    have known : ¬ hub.sessionSeq < i := fun above => used (wf.fresh i above)
    change i < hub.sessionSeq + 1
    omega
  · intro i distinct
    dsimp only
    split
    · exact Function.update_of_ne distinct _ _
    · rfl

theorem newest_of_not_installing (wf : Wf hub) (newest : NewestReceives hub)
    (other : ¬ Installing hub event) (taken : (hubSystem cfg).atomic hub event = some next) :
    NewestReceives next ∧ NeverOlder cfg hub event := by
  obtain ⟨four, six⟩ := (newestReceives_iff wf).mp newest
  have back := back_of_not_installing wf other taken
  have onward := fun j q => stored_step (j := j) (q := q) wf taken
  have shrinks : (∀ key p, next.peers.byV4.get key = some p → hub.peers.byV4.get key = some p) ∧
      ∀ key p, next.peers.byV6.get key = some p → hub.peers.byV6.get key = some p := by
    rcases peers_of_not_installing wf other taken with same | ⟨i, peer, _, _, removed, _⟩
    · rw [same]
      exact ⟨fun _ _ => id, fun _ _ => id⟩
    · rw [removed]
      exact ⟨fun _ _ found => (get_removeClosure.mp found).1,
        fun _ _ found => (get_removeClosure6.mp found).1⟩
  have keeps : ∀ j q, Active next j q →
      (hub.peers.byV4.get q.vip = some q → next.peers.byV4.get q.vip = some q) ∧
        (hub.peers.byV6.get q.vip6 = some q → next.peers.byV6.get q.vip6 = some q) := by
    intro j q active
    rcases peers_of_not_installing wf other taken with same | ⟨i, peer, _, here, removed, gone⟩
    · rw [same]
      exact ⟨id, id⟩
    · have distinct : q.session ≠ peer.session := by
        obtain ⟨_, _, there, _⟩ := back j q active
        rw [(wf.number j q _ there).1, (wf.number i peer _ here).1]
        rintro rfl
        exact gone q active
      rw [removed]
      exact ⟨fun found => get_removeClosure.mpr ⟨found, fun both => distinct both.2⟩,
        fun found => get_removeClosure6.mpr ⟨found, fun both => distinct both.2⟩⟩
  refine ⟨(newestReceives_iff (wf_step wf taken)).mpr ⟨?_, ?_⟩, ?_, ?_, ?_⟩
  · exact newestIn_of_shrink four shrinks.1 (fun j q active => (keeps j q active).1) back onward
  · exact newestIn_of_shrink six shrinks.2 (fun j q active => (keeps j q active).2) back onward
  · rintro peerId after rfl again
    exact accept_numbers wf again
  · intro after key p q again before found _
    cases again.symm.trans taken
    cases before.symm.trans (shrinks.1 key q found)
    exact Nat.le_refl _
  · intro after key p q again before found _
    cases again.symm.trans taken
    cases before.symm.trans (shrinks.2 key q found)
    exact Nat.le_refl _

section Install

variable {i : Nat} {peer : HubPeer}

/-- A slot that the claim writes is newer if the claim is newer than what the slot held. -/
theorem session_le_of_put {κ : Type*} [DecidableEq κ] {table : HashMap κ HubPeer} {slot key : κ}
    {p q : HubPeer} (found : (table.put slot peer).get key = some q)
    (before : table.get key = some p) (older : key = slot → q = peer → p.session ≤ peer.session) :
    p.session ≤ q.session := by
  rcases HashMap.get_of_get_put found with ⟨slot, rfl⟩ | ⟨_, kept⟩
  · exact older slot rfl
  · cases before.symm.trans kept
    exact Nat.le_refl _

/-- After the claim the active sessions are those before, or its own. -/
theorem active_back_installed (wf : Wf hub) (own : Stored next i peer)
    (taken : (hubSystem cfg).atomic hub (.act i .claim) = some next) {j : Nat} {q : HubPeer}
    (active : Active next j q) : (j = i ∧ q = peer) ∨ (j ≠ i ∧ Active hub j q) := by
  by_cases same : j = i
  · subst same
    obtain ⟨_, point, there, _⟩ := active
    obtain ⟨_, _, mine⟩ := own
    exact Or.inl ⟨rfl, (there.unique mine).1⟩
  · rcases active_back wf taken active with before | ⟨impossible, _⟩
    · exact Or.inr ⟨same, before⟩
    · cases impossible
      exact absurd rfl same

/-- The claim that stores its entries, against what the slots held before. -/
theorem newest_of_installing (wf : Wf hub) (newest : NewestReceives hub)
    (here : hub.At i peer .claim) (admits : Admits peer hub.peers)
    (taken : (hubSystem cfg).atomic hub (.act i .claim) = some next) :
    NewestReceives next ∧ NeverOlder cfg hub (.act i .claim) ↔
      (∀ p, hub.peers.byV6.get peer.vip6 = some p → p.session ≤ i) ∧
        ∀ j q, Active hub j q → q.id = peer.id → i < j →
          q.vip ≠ peer.vip ∧ q.vip6 ≠ peer.vip6 := by
  have number := (wf.number i peer _ here).1
  have wfNext := wf_step wf taken
  have onward := fun j q => stored_step (j := j) (q := q) wf taken
  have own : Stored next i peer := by
    have result := Option.some.inj (taken.symm.trans (atomic_claim here))
    rw [result]
    refine ⟨?_, _, at_advance_self⟩
    rcases replaced_claim hub peer i with ⟨_, _, now⟩ | ⟨other, _⟩
    · rw [advance_replaced, now]
      exact nofun
    · exact absurd ⟨admits, number.symm⟩ other
  have peers : next.peers =
      ⟨hub.peers.byV4.put peer.vip peer, hub.peers.byV6.put peer.vip6 peer⟩ := by
    have result := Option.some.inj (taken.symm.trans (atomic_claim here))
    rw [result]
    exact claimClosure_of_admits admits
  have back := fun j q => active_back_installed (j := j) (q := q) wf own taken
  constructor
  · rintro ⟨after, never⟩
    obtain ⟨four, six⟩ := (newestReceives_iff wfNext).mp after
    rw [peers] at four six
    refine ⟨fun p found => ?_, fun j q active peerSame newer => ?_⟩
    · have mine : p.id = peer.id := by
        by_contra other
        exact admits.2 ⟨p, found, other⟩
      rw [← number]
      refine never.six next peer.vip6 p peer taken found ?_ mine.symm
      rw [peers]
      exact HashMap.get_put_self _ _ _
    · have still : Active next j q := by
        obtain ⟨history, point, there, held⟩ := active
        have distinct : j ≠ i := by omega
        obtain ⟨stored, _⟩ := onward j q ⟨history, point, there⟩
        refine ⟨stored, point, ?_, held⟩
        rw [Option.some.inj (taken.symm.trans (atomic_claim here))]
        exact (at_advance_of_ne distinct).mpr there
      constructor
      · intro same
        have order := (four j q still).1 peer (by rw [same, HashMap.get_put_self]) peerSame.symm
        omega
      · intro same
        have order := (six j q still).1 peer (by rw [same, HashMap.get_put_self]) peerSame.symm
        omega
  · rintro ⟨slot6, newer⟩
    obtain ⟨four, six⟩ := (newestReceives_iff wf).mp newest
    refine ⟨(newestReceives_iff wfNext).mpr ?_, nofun, ?_, ?_⟩
    · rw [peers]
      exact ⟨newestIn_of_put four number admits.1
          (fun j q active same above => (newer j q active same above).1) back onward own,
        newestIn_of_put six number admits.2
          (fun j q active same above => (newer j q active same above).2) back onward own⟩
    · intro after key p q again before found same
      cases again.symm.trans taken
      rw [peers] at found
      refine session_le_of_put found before fun slot mine => ?_
      rw [number]
      by_contra above
      rw [mine] at same
      obtain ⟨point, there, held⟩ := wf.owner4 _ p before
      have active : Active hub p.session p := ⟨wf.stored4 _ p before, point, there, held⟩
      have apart := newer p.session p active same.symm (by omega)
      exact apart.1 ((wf.key4 _ p before).trans slot)
    · intro after key p q again before found same
      cases again.symm.trans taken
      rw [peers] at found
      refine session_le_of_put found before fun slot _ => ?_
      rw [number]
      exact slot6 p (slot ▸ before)

end Install

theorem newest_step_iff (wf : Wf hub) (newest : NewestReceives hub)
    (taken : (hubSystem cfg).atomic hub event = some next) :
    NewestReceives next ∧ NeverOlder cfg hub event ↔ ClaimsNewest hub event := by
  by_cases installing : Installing hub event
  · obtain ⟨i, peer, rfl, here, admits⟩ := installing
    rw [newest_of_installing wf newest here admits taken]
    constructor
    · rintro clear _ p ⟨⟩ there _
      obtain ⟨rfl, _⟩ := there.unique here
      exact clear
    · exact fun met => met i peer rfl here admits
  · refine ⟨fun _ i peer same here admits => ?_,
      fun _ => newest_of_not_installing wf newest installing taken⟩
    exact absurd ⟨i, peer, same, here, admits⟩ installing

theorem newest_start : NewestReceives .start :=
  ⟨fun _ _ _ _ active => absurd rfl active.1, fun _ _ _ active => absurd rfl active.1,
    fun _ _ _ active => absurd rfl active.1⟩

/-- **The newest session over whole runs.** Numbers follow the accept order, no
entry is replaced by an older session's, and packets reach the session that
claimed their address until it leaves or is overtaken by a newer one, exactly
when no claim stores over a newer session of its peer. -/
theorem hub_newest_wins_iff (cfg : HubConfig) (events : List (RetryEvent Event Nat)) :
    AllStates (retryStep (hubSystem cfg)) (fun state => NewestReceives state.base)
          (.start .start) events ∧
        AllSteps (retryStep (hubSystem cfg)) (OnActs (NeverOlder cfg)) (.start .start) events ↔
      AllSteps (retryStep (hubSystem cfg)) (OnActs ClaimsNewest) (.start .start) events :=
  retry_exchange (fun _ _ _ => wf_step) (fun _ _ _ => newest_step_iff) wf_start newest_start
    events

/-- The VIP exchange of the first session takes longer than that of the second. -/
def overtakenRun : List (RetryEvent Event Nat) :=
  [.act (.accept 1)] ++
  attach 2 1 ⟨0xAC180001, 0xfd24ac18000000000000000000000001⟩ none ++
  swap 2 .claim ++
  [.act (.act 1 (.exchanged ⟨0xAC180001, 0xfd24ac18000000000000000000000001⟩)),
    .act (.act 1 (.controlOpened none))] ++
  swap 1 .claim

/-- Session 1 replaces the entry of session 2, and packets go to session 1. -/
theorem hub_newest_overtaken :
    ¬ AllStates (retryStep (hubSystem openHub))
      (fun state => NewestReceives state.base) (.start .start) overtakenRun := by
  intro all
  have ran : run (retryStep (hubSystem openHub)) (.start .start) overtakenRun = some _ := rfl
  have dst := ipv4Dst_packet 0 0xAC180001
  have order := (all.final ran).notOlder 2
    ⟨1, 2, 0xAC180001, 0xfd24ac18000000000000000000000001, .outbound 2, false⟩
    (ipv4Packet 0 0xAC180001) _ ⟨nofun, .verify, rfl, rfl⟩ (Or.inl dst)
    ((lookup_ipv4 _ dst).trans rfl) rfl
  exact absurd order (by decide)

end LinkP2p.Tun.Hub
