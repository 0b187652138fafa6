import LinkP2p.Tun.HubInvariant

/-!
# Who owns the entries of the index

A removal takes out exactly what its session put in, however often the closure
is retried. An entry whose session was refused has nobody left to remove it.
-/

namespace LinkP2p.Tun.Hub

open LinkP2p.Lib LinkP2p.Lib.Transition LinkP2p.Lib.Rcu

variable {cfg : HubConfig} {hub next : State} {event : Event}

/-! ## Session generations -/

/-- After the swap of `peers_remove_if_owned`. -/
def Point.tornDown : Point → Bool
  | .routeFailedFan | .routeErr | .reload | .removeFan _ | .collectLeft _ | .sendLeft _ _
  | .delRoute4 _ | .delRoute6 | .finished => true
  | _ => false

theorem Point.not_holds_of_tornDown {point : Point} (torn : point.tornDown = true) :
    point.holds = false := by
  cases point <;> first | rfl | cases torn

/-- Entries sit under their own addresses, and a session that has torn down has
no entry in either map. -/
structure Generations (hub : State) : Prop where
  key4 : ∀ key p, hub.peers.byV4.get key = some p → p.vip = key
  key6 : ∀ key p, hub.peers.byV6.get key = some p → p.vip6 = key
  gone : ∀ i peer point, hub.At i peer point → point.tornDown = true →
    (∀ key p, hub.peers.byV4.get key = some p → p.session ≠ i) ∧
      ∀ key p, hub.peers.byV6.get key = some p → p.session ≠ i

/-- The removal of session `i` takes out the entries under its two addresses
that carry its number, and every other entry stays. -/
structure RemovesOwn (peer : HubPeer) (i : Nat) (before after : HubPeerIndex) : Prop where
  four : ∀ key p, after.byV4.get key = some p ↔
    before.byV4.get key = some p ∧ ¬ (key = peer.vip ∧ p.session = i)
  six : ∀ key p, after.byV6.get key = some p ↔
    before.byV6.get key = some p ∧ ¬ (key = peer.vip6 ∧ p.session = i)
  others4 : ∀ key p, p.session ≠ i →
    (after.byV4.get key = some p ↔ before.byV4.get key = some p)
  others6 : ∀ key p, p.session ≠ i →
    (after.byV6.get key = some p ↔ before.byV6.get key = some p)

/-- Every executed swap of `peers_remove_if_owned`, against the index that its
compare-and-swap replaced. -/
def RemovalExact (cfg : HubConfig) (state : Retrying State Nat HubPeerIndex)
    (event : RetryEvent Event Nat) : Prop :=
  ∀ i peer point next, event = .act (.act i .remove) → state.base.At i peer point →
    retryStep (hubSystem cfg) state event = some next →
      RemovesOwn peer i state.base.peers next.base.peers

theorem generations_of_wf (wf : Wf hub) : Generations hub where
  key4 := wf.key4
  key6 := wf.key6
  gone := by
    intro i peer point here torn
    have given := Point.not_holds_of_tornDown torn
    constructor
    · intro key p found mine
      obtain ⟨q, there, held⟩ := wf.owner4 key p found
      rw [mine] at there
      obtain ⟨-, rfl⟩ := there.unique here
      cases held.symm.trans given
    · intro key p found mine
      obtain ⟨q, there, held | rejected⟩ := wf.owner6 key p found
      · rw [mine] at there
        obtain ⟨-, rfl⟩ := there.unique here
        cases held.symm.trans given
      · rw [mine, rejected] at there
        obtain ⟨-, rfl⟩ := there.unique here
        cases torn

theorem removesOwn_closure (peer : HubPeer) (before : HubPeerIndex) :
    RemovesOwn peer peer.session before
      (removeClosure peer.vip peer.vip6 peer.session before) where
  four := fun _ _ => get_removeClosure
  six := fun _ _ => get_removeClosure6
  others4 := fun _ _ other => get_removeClosure.trans
    ⟨fun both => both.1, fun found => ⟨found, fun both => other both.2⟩⟩
  others6 := fun _ _ other => get_removeClosure6.trans
    ⟨fun both => both.1, fun found => ⟨found, fun both => other both.2⟩⟩

theorem removesOwn_step (wf : Wf hub) {i : Nat} {peer : HubPeer} {point : Point}
    (here : hub.At i peer point)
    (taken : (hubSystem cfg).atomic hub (.act i .remove) = some next) :
    RemovesOwn peer i hub.peers next.peers := by
  obtain ⟨task, task', effect, found, moves, rfl, _⟩ := act_cases taken
  cases here.symm.trans found
  have number := (wf.number i peer point here).1
  cases moves with
  | aborted _ _ early => exact absurd rfl (early peer point)
  | moved _ move =>
      cases move with
      | removeFailed | remove =>
          rw [← number]
          exact removesOwn_closure peer hub.peers

/-- **Session generations over whole runs.** -/
theorem hub_session_generations (cfg : HubConfig) (events : List (RetryEvent Event Nat)) :
    AllStates (retryStep (hubSystem cfg)) (fun state => Generations state.base)
        (.start .start) events ∧
      AllSteps (retryStep (hubSystem cfg)) (RemovalExact cfg) (.start .start) events := by
  have kept : ∀ hub event next, Wf hub → (hubSystem cfg).atomic hub event = some next → Wf next :=
    fun _ _ _ => wf_step
  have sound := retry_invariant kept wf_start events
  refine ⟨sound.mono fun state held => generations_of_wf held.2, ?_⟩
  refine sound.allSteps fun state event held => ?_
  rintro i peer point next rfl here taken
  exact removesOwn_step held.2 here (act_atomic held.1 taken)

/-! ## Orphans -/

/-- Between the claim and the end of the teardown. -/
def Point.live : Point → Bool
  | .claim | .rejected | .routeErr | .finished => false
  | _ => true

theorem Point.live_of_holds {point : Point} (held : point.holds = true) : point.live = true := by
  cases point <;> first | rfl | cases held

/-- Every entry, in either map, belongs to a session that is still between its
claim and the end of its teardown. -/
structure NoOrphan (hub : State) : Prop where
  four : ∀ key p, hub.peers.byV4.get key = some p →
    ∃ point, hub.At p.session p point ∧ point.live = true
  six : ∀ key p, hub.peers.byV6.get key = some p →
    ∃ point, hub.At p.session p point ∧ point.live = true

/-- A refused or ended session has no entry. -/
theorem NoOrphan.gone (none : NoOrphan hub) {i : Nat} {peer : HubPeer} {point : Point}
    (here : hub.At i peer point) (ended : point.live = false) :
    (∀ key p, hub.peers.byV4.get key = some p → p.session ≠ i) ∧
      ∀ key p, hub.peers.byV6.get key = some p → p.session ≠ i := by
  constructor
  · intro key p found mine
    obtain ⟨q, there, live⟩ := none.four key p found
    rw [mine] at there
    obtain ⟨-, rfl⟩ := there.unique here
    cases live.symm.trans ended
  · intro key p found mine
    obtain ⟨q, there, live⟩ := none.six key p found
    rw [mine] at there
    obtain ⟨-, rfl⟩ := there.unique here
    cases live.symm.trans ended

/-- When a session reads the index back, it does not find its own entry under
its IPv6 address while the IPv4 slot has passed to nobody of its peer. -/
def VerifiesWhole (hub : State) (event : Event) : Prop :=
  ∀ i peer, event = .act i .verify → hub.At i peer .verify →
    hub.peers.byV6.get peer.vip6 = some peer → OwnSlot peer.id (hub.peers.byV4.get peer.vip)

/-- The only entries that can be orphans are IPv6 entries of refused sessions. -/
theorem noOrphan_iff (wf : Wf hub) :
    NoOrphan hub ↔ ∀ i peer, hub.At i peer .rejected →
      hub.peers.byV6.get peer.vip6 ≠ some peer := by
  constructor
  · intro none i peer here found
    exact (none.gone here rfl).2 _ _ found (wf.number i peer _ here).1
  · intro clean
    refine ⟨fun key p found => ?_, fun key p found => ?_⟩
    · obtain ⟨point, here, held⟩ := wf.owner4 key p found
      exact ⟨point, here, Point.live_of_holds held⟩
    · obtain ⟨point, here, held | rfl⟩ := wf.owner6 key p found
      · exact ⟨point, here, Point.live_of_holds held⟩
      · rw [← wf.key6 key p found] at found
        exact absurd found (clean _ p here)

theorem noOrphan_step_iff (wf : Wf hub) (none : NoOrphan hub)
    (taken : (hubSystem cfg).atomic hub event = some next) :
    NoOrphan next ↔ VerifiesWhole hub event := by
  rw [noOrphan_iff (wf_step wf taken)]
  have clean := (noOrphan_iff wf).mp none
  cases atomic_cases wf taken with
  | quiet early quiet =>
      constructor
      · intro _ i p same there
        exact absurd there (early i _ p _ same)
      · intro _ j p there
        rw [quiet.peers]
        exact clean j p ((quiet.at_iff j p .rejected nofun).mp there)
  | moved i peer here move =>
      cases move.index with
      | claim =>
          refine ⟨fun _ _ _ other => (by cases other), fun _ j p there found => ?_⟩
          rcases at_advance there with ⟨_, _, impossible⟩ | ⟨distinct, before⟩
          · cases impossible
          · rcases get_claimClosure6 found with ⟨_, rfl, _⟩ | old
            · exact distinct ((wf.number j p _ before).1.symm.trans (wf.number i p _ here).1)
            · exact clean j p before old
      | rejected lost =>
          constructor
          · rintro clean' _ p ⟨⟩ there found
            obtain ⟨rfl, _⟩ := there.unique here
            exact absurd found (clean' i p at_advance_self)
          · intro whole j p there found
            rcases at_advance there with ⟨rfl, rfl, _⟩ | ⟨_, before⟩
            · exact lost (whole j p rfl here found)
            · exact clean j p before found
      | remove _ _ _ cleaned =>
          refine ⟨fun _ _ _ other => (by cases other), fun _ j p there found => ?_⟩
          rcases at_advance there with ⟨_, _, rfl⟩ | ⟨_, before⟩
          · exact cleaned rfl
          · exact clean j p before (session_ne_of_removed6 wf here found).1
      | keep peers _ _ _ _ cleaned _ checked =>
          constructor
          · rintro _ _ p ⟨⟩ there _
            obtain ⟨rfl, _⟩ := there.unique here
            exact checked rfl
          · intro _ j p there
            rw [advance_peers, peers]
            rcases at_advance there with ⟨_, _, rfl⟩ | ⟨_, before⟩
            · exact absurd rfl cleaned
            · exact clean j p before

theorem noOrphan_start : NoOrphan .start := ⟨nofun, nofun⟩

/-- **Orphans over whole runs.** No reachable index holds an orphan entry
exactly when no session that lost its IPv4 slot before it read the index back
still finds its own entry in the IPv6 slot. -/
theorem hub_no_orphan_iff (cfg : HubConfig) (events : List (RetryEvent Event Nat)) :
    AllStates (retryStep (hubSystem cfg)) (fun state => NoOrphan state.base)
        (.start .start) events ↔
      AllSteps (retryStep (hubSystem cfg)) (OnActs VerifiesWhole) (.start .start) events :=
  retry_states_iff (fun _ _ _ => wf_step) (fun _ _ _ => noOrphan_step_iff) wf_start
    noOrphan_start events

/-- Peer 1 reconnects with another IPv6 address while its first session is
still between its claim and its check; the second session takes the IPv4 slot
over and leaves again. -/
def orphanRun : List (RetryEvent Event Nat) :=
  attach 1 1 ⟨0xAC180001, 0xfd24ac18000000000000000000000001⟩ (some true) ++
  attach 2 1 ⟨0xAC180001, 0xfd24ac18000000000000000000000002⟩ (some true) ++
  swap 1 .claim ++ swap 2 .claim ++
  [.act (.act 2 .verify), .act (.act 2 .insertFan), .act (.act 2 (.addRoute true)),
    .act (.act 2 (.addRoute true)),
    .act (.act 2 (.snapshot [⟨0xAC1800FE, 0xfd24ac180000000000000000000000fe, 9⟩])),
    .act (.act 2 .closed)] ++
  swap 2 .remove ++ [.act (.act 1 .verify)]

/-- The refused first session leaves its IPv6 entry in the index. -/
theorem hub_orphan_left :
    ¬ AllStates (retryStep (hubSystem openHub)) (fun state => NoOrphan state.base)
      (.start .start) orphanRun := by
  intro all
  have ran : run (retryStep (hubSystem openHub)) (.start .start) orphanRun = some _ := rfl
  obtain ⟨point, here, live⟩ := (all.final ran).six 0xfd24ac18000000000000000000000001 _ rfl
  cases here
  cases live

end LinkP2p.Tun.Hub
