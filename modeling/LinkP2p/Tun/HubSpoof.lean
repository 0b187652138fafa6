import LinkP2p.Tun.HubInvariant

/-!
# Source addresses of forwarded packets

The filters compare a packet with the addresses that its session captured,
while the index goes on changing. They agree as long as no running session's
address is assigned to another peer.
-/

namespace LinkP2p.Tun.Hub

open LinkP2p.Lib LinkP2p.Lib.Transition LinkP2p.Lib.Rcu

variable {cfg : HubConfig} {hub next : State} {event : Event}

/-- What every packet of every running session meets in this state. -/
structure NoSpoof (cfg : HubConfig) (hub : State) : Prop where
  source4 : ∀ i peer pkt src p, hub.At i peer .running →
    hubPeerToMesh cfg.own hub.peers peer pkt ≠ .drop → ipv4Src pkt = some src →
      hub.peers.byV4.get src = some p → p.id = peer.id
  source6 : ∀ i peer pkt src p, hub.At i peer .running →
    hubPeerToMesh cfg.own hub.peers peer pkt ≠ .drop → ipv6Src pkt = some src →
      hub.peers.byV6.get src = some p → p.id = peer.id
  routed : ∀ i peer pkt other, hub.At i peer .running →
    hubPeerToMesh cfg.own hub.peers peer pkt = .forward other →
      RoutedTo hub.peers pkt other ∧ other.outbound = .outbound other.session

/-- The move at which `hub_peer_to_mesh` starts. -/
def Starts (peer : HubPeer) : Point → Act → Prop
  | .sendJoined _, .sent => True
  | .snapshot, .snapshot _ => peer.hidden = true
  | _, _ => False

/-- No session starts its packet loop with an address that is another peer's by
then, and no claim stores an address that a running session of another peer
announced. -/
structure SourcesClear (hub : State) (event : Event) : Prop where
  starts : ∀ i peer point act, event = .act i act → hub.At i peer point →
    Starts peer point act → Admits peer hub.peers
  claims : ∀ i peer, event = .act i .claim → hub.At i peer .claim → Admits peer hub.peers →
    ∀ j other, hub.At j other .running → other.id ≠ peer.id →
      other.vip ≠ peer.vip ∧ other.vip6 ≠ peer.vip6

theorem src_of_ipv6 {pkt : List UInt8} {src : Ipv6Addr} (six : ipv6Src pkt = some src) :
    ipv4Src pkt = none := by
  cases four : ipv4Src pkt with
  | none => rfl
  | some other =>
      rw [ipv6Src_eq_none four] at six
      cases six

/-- The packets add nothing to the two slots of the running sessions. -/
theorem noSpoof_iff (wf : Wf hub) :
    NoSpoof cfg hub ↔ ∀ i peer, hub.At i peer .running → Admits peer hub.peers := by
  constructor
  · intro clear i peer here
    constructor
    · rintro ⟨p, held, other⟩
      refine other (clear.source4 i peer _ peer.vip p here ?_ (ipv4Src_packet _ cfg.own.v4) held)
      rw [deliver_ipv4Packet]
      exact nofun
    · rintro ⟨p, held, other⟩
      refine other (clear.source6 i peer _ peer.vip6 p here ?_ (ipv6Src_packet _ cfg.own.v6) held)
      rw [deliver_ipv6Packet]
      exact nofun
  · intro admits
    refine ⟨?_, ?_, ?_⟩
    · intro i peer pkt src p here passed source held
      have own : src = peer.vip := by
        rcases src_of_not_dropped passed with four | six
        · exact Option.some.inj (source.symm.trans four)
        · rw [src_of_ipv6 six] at source
          cases source
      subst own
      by_contra other
      exact (admits i peer here).1 ⟨p, held, other⟩
    · intro i peer pkt src p here passed source held
      have own : src = peer.vip6 := by
        rcases src_of_not_dropped passed with four | six
        · rw [src_of_ipv6 source] at four
          cases four
        · exact Option.some.inj (source.symm.trans six)
      subst own
      by_contra other
      exact (admits i peer here).2 ⟨p, held, other⟩
    · intro i peer pkt other here forwarded
      have routed := routed_of_forward forwarded
      refine ⟨routed, ?_⟩
      rcases routed with ⟨dst, _, _, held⟩ | ⟨dst, _, _, held⟩
      · obtain ⟨_, there, _⟩ := wf.owner4 dst other held
        exact (wf.number _ other _ there).2
      · obtain ⟨_, there, _⟩ := wf.owner6 dst other held
        exact (wf.number _ other _ there).2

theorem admits_removeClosure {peer : HubPeer} {idx : HubPeerIndex} {vip : Ipv4Addr}
    {vip6 : Ipv6Addr} {session : Nat} (admits : Admits peer idx) :
    Admits peer (removeClosure vip vip6 session idx) := by
  constructor
  · rintro ⟨p, held, other⟩
    exact admits.1 ⟨p, (get_removeClosure.mp held).1, other⟩
  · rintro ⟨p, held, other⟩
    exact admits.2 ⟨p, (get_removeClosure6.mp held).1, other⟩

/-- A claim leaves a session of its own peer, and one with other addresses, alone. -/
theorem admits_claimClosure {peer other : HubPeer} {idx : HubPeerIndex}
    (before : Admits other idx)
    (clear : Admits peer idx → other.id ≠ peer.id →
      other.vip ≠ peer.vip ∧ other.vip6 ≠ peer.vip6) :
    Admits other (claimClosure peer idx) := by
  constructor
  · rintro ⟨p, held, distinct⟩
    rcases get_claimClosure held with ⟨same, rfl, admits⟩ | old
    · exact (clear admits fun own => distinct own.symm).1 same
    · exact before.1 ⟨p, old, distinct⟩
  · rintro ⟨p, held, distinct⟩
    rcases get_claimClosure6 held with ⟨same, rfl, admits⟩ | old
    · exact (clear admits fun own => distinct own.symm).2 same
    · exact before.2 ⟨p, old, distinct⟩

theorem running_of_starts {seen : HubPeerIndex} {peer : HubPeer} {point point' : Point}
    {act : Act} {effect : Effect} (move : Moves cfg seen hub peer point act point' effect) :
    (Starts peer point act → point' = .running) ∧
      (point' = .running → point = .running ∨ Starts peer point act) := by
  cases move with
  | snapshotHidden entries hidden => exact ⟨fun _ => rfl, fun _ => Or.inr hidden⟩
  | snapshotShown entries shown =>
      exact ⟨fun hidden => absurd (shown.symm.trans hidden) nofun, nofun⟩
  | joined => exact ⟨fun _ => rfl, fun _ => Or.inr trivial⟩
  | packet => exact ⟨nofun, fun _ => Or.inl rfl⟩
  | _ => exact ⟨nofun, nofun⟩

theorem noSpoof_step_iff (wf : Wf hub) (clear : NoSpoof cfg hub)
    (taken : (hubSystem cfg).atomic hub event = some next) :
    NoSpoof cfg next ↔ SourcesClear hub event := by
  rw [noSpoof_iff (wf_step wf taken)]
  have admitted := (noSpoof_iff wf).mp clear
  cases atomic_cases wf taken with
  | quiet early quiet =>
      constructor
      · intro _
        exact ⟨fun i peer point _ same here => absurd here (early i _ peer point same),
          fun i peer same here => absurd here (early i _ peer _ same)⟩
      · intro _ j p there
        rw [quiet.peers]
        exact admitted j p ((quiet.at_iff j p .running nofun).mp there)
  | moved i peer here move =>
      obtain ⟨starting, started⟩ := running_of_starts move
      cases move.index with
      | claim =>
          constructor
          · intro after
            refine ⟨?_, ?_⟩
            · rintro _ p point _ ⟨⟩ there starts
              obtain ⟨rfl, rfl⟩ := there.unique here
              cases starts
            · rintro _ p ⟨⟩ there admits j other running distinct
              obtain ⟨rfl, _⟩ := there.unique here
              have stays : j ≠ i := by
                rintro rfl
                cases (running.unique here).2
              have holds := holds_claimClosure admits
              have slots := after j other ((at_advance_of_ne stays).mpr running)
              refine ⟨fun same => slots.1 ?_, fun same => slots.2 ?_⟩
              · rw [same]
                exact ⟨p, holds.1, fun own => distinct own.symm⟩
              · rw [same]
                exact ⟨p, holds.2, fun own => distinct own.symm⟩
          · intro met j p there
            rcases at_advance there with ⟨_, _, impossible⟩ | ⟨_, before⟩
            · cases impossible
            · exact admits_claimClosure (admitted j p before)
                fun admits => met.claims i peer rfl here admits j p before
      | rejected lost =>
          refine ⟨fun _ => ⟨?_, nofun⟩, fun _ j p there => ?_⟩
          · rintro _ p point _ ⟨⟩ there starts
            obtain ⟨rfl, rfl⟩ := there.unique here
            cases starts
          · rcases at_advance there with ⟨_, _, impossible⟩ | ⟨_, before⟩
            · cases impossible
            · exact admitted j p before
      | remove held given =>
          refine ⟨fun _ => ⟨?_, nofun⟩, fun _ j p there => ?_⟩
          · rintro _ p point _ ⟨⟩ there starts
            obtain ⟨rfl, rfl⟩ := there.unique here
            rw [starting starts] at given
            cases given
          · rcases at_advance there with ⟨_, _, rfl⟩ | ⟨_, before⟩
            · cases given
            · exact admits_removeClosure (admitted j p before)
      | keep peers _ _ later =>
          constructor
          · intro after
            refine ⟨?_, ?_⟩
            · rintro _ p point _ ⟨⟩ there starts
              obtain ⟨rfl, rfl⟩ := there.unique here
              have slots := after i p (by rw [starting starts]; exact at_advance_self)
              rw [advance_peers, peers] at slots
              exact slots
            · rintro _ p ⟨⟩ there
              exact absurd (there.unique here).2.symm later
          · intro met j p there
            rw [advance_peers, peers]
            rcases at_advance there with ⟨rfl, rfl, same⟩ | ⟨_, before⟩
            · rcases started same.symm with rfl | starts
              · exact admitted j p here
              · exact met.starts j p _ _ rfl here starts
            · exact admitted j p before

theorem noSpoof_start : NoSpoof cfg .start := ⟨nofun, nofun, nofun⟩

/-- **Sources over whole runs.** In every state no packet of a running session
passes with an address that the index assigns to another peer, and forwarded
packets go where the index says, exactly when no session starts with an address
taken by another peer and no claim stores an address that another peer's
running session announced. -/
theorem hub_no_spoof_iff (cfg : HubConfig) (events : List (RetryEvent Event Nat)) :
    AllStates (retryStep (hubSystem cfg)) (fun state => NoSpoof cfg state.base)
        (.start .start) events ↔
      AllSteps (retryStep (hubSystem cfg)) (OnActs SourcesClear) (.start .start) events :=
  retry_states_iff (fun _ _ _ => wf_step) (fun _ _ _ => noSpoof_step_iff) wf_start
    noSpoof_start events

/-- Peers 1 and 2 attach; peer 1 reconnects with its IPv4 address and the IPv6
address of peer 2. -/
def spoofRun : List (RetryEvent Event Nat) :=
  attach 1 1 ⟨0xAC180001, 0xfd24ac18000000000000000000000001⟩ (some true) ++ swap 1 .claim ++
  attach 2 2 ⟨0xAC180002, 0xfd24ac18000000000000000000000002⟩ (some true) ++ swap 2 .claim ++
  attach 3 1 ⟨0xAC180001, 0xfd24ac18000000000000000000000002⟩ (some true) ++ swap 3 .claim ++
  [.act (.act 3 .verify), .act (.act 3 .insertFan), .act (.act 3 (.addRoute true)),
    .act (.act 3 (.addRoute true)),
    .act (.act 3 (.snapshot [⟨0xAC1800FE, 0xfd24ac180000000000000000000000fe, 9⟩]))]

/-- The half-taken claim passes, and peer 1 sends from peer 2's IPv6 address. -/
theorem hub_spoofed :
    ¬ AllStates (retryStep (hubSystem openHub)) (fun state => NoSpoof openHub state.base)
      (.start .start) spoofRun := by
  intro all
  have ran : run (retryStep (hubSystem openHub)) (.start .start) spoofRun = some _ := rfl
  have sent := (all.final ran).source6 3 _
    (ipv6Packet 0xfd24ac18000000000000000000000002 openHub.own.v6)
    0xfd24ac18000000000000000000000002 _ rfl
    (by rw [deliver_ipv6Packet]; exact nofun) (ipv6Src_packet _ _) rfl
  exact absurd sent (by decide)

end LinkP2p.Tun.Hub
