import LinkP2p.Tun.HubOwnership

/-!
# Host routes of the hub's peers

A session adds its two routes after its claim and deletes both on its way out
when it found both slots empty. The index and the routes are updated by separate
steps, and other sessions come in between.
-/

namespace LinkP2p.Tun.Hub

open LinkP2p.Lib LinkP2p.Lib.Transition LinkP2p.Lib.Rcu

variable {cfg : HubConfig} {hub next : State} {event : Event}

/-- Past `add_peer_route`, before the teardown. -/
def Point.established : Point → Bool
  | .snapshot | .collectJoined | .sendJoined _ | .running => true
  | _ => false

/-- Past `add_peer_route`, before the removal of the entries. -/
def Point.passed : Point → Bool
  | .snapshot | .collectJoined | .sendJoined _ | .running | .remove => true
  | _ => false

theorem Point.live_of_passed {point : Point} (passed : point.passed = true) :
    point.live = true := by
  cases point <;> first | rfl | cases passed

/-- Session `i` passed `add_peer_route`, and the index holds its entries. -/
def Routed (hub : State) (i : Nat) (peer : HubPeer) : Prop :=
  Holds hub.peers peer ∧ ∃ point, hub.At i peer point ∧ point.passed = true

/-- A session other than `i` with this address is between its claim and the end
of its teardown. -/
def InUse (hub : State) (i : Nat) (address : HubPeer → Prop) : Prop :=
  ∃ j q place, j ≠ i ∧ hub.At j q place ∧ place.live = true ∧ address q

/-- Of one family: a route is left only while an entry holds its address or a
session that uses the address has not finished. -/
def StaleFree {K : Type} [DecidableEq K] (hub : State) (routes : Finset K)
    (slots : HashMap K HubPeer) (addr : HubPeer → K) : Prop :=
  ∀ key ∈ routes, slots.get key ≠ none ∨
    ∃ i peer point, hub.At i peer point ∧ point.live = true ∧ addr peer = key

structure RoutesFollow (hub : State) : Prop where
  installed : ∀ i peer, Routed hub i peer →
    peer.vip ∈ hub.routes4 ∧ peer.vip6 ∈ hub.routes6
  stale4 : StaleFree hub hub.routes4 hub.peers.byV4 HubPeer.vip
  stale6 : StaleFree hub hub.routes6 hub.peers.byV6 HubPeer.vip6

/-- A failed `add_peer_route`: the session's claim and the removal that follows
put an established earlier session's entries back as they were, and nothing on
that path touches a route or another session's entry. -/
structure FailureHarmless (cfg : HubConfig) (hub : State) (event : Event) : Prop where
  net : ∀ i peer point before, event = .act i (.addRoute false) → hub.At i peer point →
    hub.replaced i = some before → ∀ e q place, e < i → hub.At e q place →
      place.established = true →
        let after := removeClosure peer.vip peer.vip6 peer.session (claimClosure peer before)
        (∀ key, before.byV4.get key = some q → after.byV4.get key = some q) ∧
          ∀ key, before.byV6.get key = some q → after.byV6.get key = some q
  path : ∀ i peer point act next, event = .act i act → hub.At i peer point →
    act = .addRoute false ∨ point = .routeFailed ∨ point = .routeFailedFan →
      (hubSystem cfg).atomic hub event = some next →
        next.routes4 = hub.routes4 ∧ next.routes6 = hub.routes6 ∧
          (∀ key p, p.session ≠ i →
            (next.peers.byV4.get key = some p ↔ hub.peers.byV4.get key = some p)) ∧
          ∀ key p, p.session ≠ i →
            (next.peers.byV6.get key = some p ↔ hub.peers.byV6.get key = some p)

/-- The moves that end a session. -/
def Ends (hub : State) (peer : HubPeer) : Point → Act → Prop
  | .verify, .verify => ¬ OwnSlot peer.id (hub.peers.byV4.get peer.vip)
  | .routeFailedFan, .removeFan => True
  | .delRoute4 false, .delRoute => True
  | .delRoute6, .delRoute => True
  | _, _ => False

/-- The route of the first family is still there when the second is added, no
route of a session that passed is deleted, and a session ends without deleting a
route only when the address is still held or used. -/
structure RoutesKept (hub : State) (event : Event) : Prop where
  adds : ∀ i peer, event = .act i (.addRoute true) → hub.At i peer .addRoute6 →
    Holds hub.peers peer → peer.vip ∈ hub.routes4
  deletes4 : ∀ i peer, event = .act i .delRoute → hub.At i peer (.delRoute4 true) →
    ∀ j q, Routed hub j q → q.vip ≠ peer.vip
  deletes6 : ∀ i peer, event = .act i .delRoute → hub.At i peer .delRoute6 →
    ∀ j q, Routed hub j q → q.vip6 ≠ peer.vip6
  leaves4 : ∀ i peer point act, event = .act i act → hub.At i peer point →
    Ends hub peer point act → peer.vip ∈ hub.routes4 →
      hub.peers.byV4.get peer.vip ≠ none ∨ InUse hub i fun q => q.vip = peer.vip
  leaves6 : ∀ i peer point act, event = .act i act → hub.At i peer point →
    Ends hub peer point act → point ≠ .delRoute6 → peer.vip6 ∈ hub.routes6 →
      hub.peers.byV6.get peer.vip6 ≠ none ∨ InUse hub i fun q => q.vip6 = peer.vip6

/-- Besides, a session whose routes fail took no entry of an earlier established
session. -/
structure RoutesClear (hub : State) (event : Event) : Prop where
  kept : RoutesKept hub event
  fails : ∀ i peer point before, event = .act i (.addRoute false) → hub.At i peer point →
    hub.replaced i = some before → ∀ e q place, e < i → hub.At e q place →
      place.established = true →
        before.byV4.get peer.vip ≠ some q ∧ before.byV6.get peer.vip6 ≠ some q

/-! ## Moves -/

inductive RouteMove (hub : State) (peer : HubPeer) : Point → Act → Point → Effect → Prop where
  | claim : RouteMove hub peer .claim .claim .verify
      (.store (claimClosure peer hub.peers) (installs peer hub.peers))
  | addRoute4 : RouteMove hub peer .addRoute4 (.addRoute true) .addRoute6 (.addRoute4 peer.vip)
  | addRoute6 : RouteMove hub peer .addRoute6 (.addRoute true) .snapshot (.addRoute6 peer.vip6)
  | remove {point point' : Point} (before : point.live = true) (after : point'.live = true)
      (up : point'.passed = false) (goes : ¬ Ends hub peer point .remove) :
      RouteMove hub peer point .remove point'
        (.store (removeClosure peer.vip peer.vip6 peer.session hub.peers) none)
  | delRoute4 : RouteMove hub peer (.delRoute4 true) .delRoute .delRoute6 (.delRoute4 peer.vip)
  | delRoute6 : RouteMove hub peer .delRoute6 .delRoute .finished (.delRoute6 peer.vip6)
  | ends {point point' : Point} {act : Act} {effect : Effect}
      (peers : (effect.apply hub).peers = hub.peers)
      (routes4 : (effect.apply hub).routes4 = hub.routes4)
      (routes6 : (effect.apply hub).routes6 = hub.routes6) (goes : Ends hub peer point act)
      (out : point'.live = false) (notAdd : ∀ ok, act ≠ .addRoute ok)
      (notDel4 : point ≠ .delRoute4 true) (notDel6 : point ≠ .delRoute6) :
      RouteMove hub peer point act point' effect
  | keep {point point' : Point} {act : Act} {effect : Effect}
      (peers : (effect.apply hub).peers = hub.peers)
      (routes4 : (effect.apply hub).routes4 = hub.routes4)
      (routes6 : (effect.apply hub).routes6 = hub.routes6) (stays : ¬ Ends hub peer point act)
      (before : point.live = true) (after : point'.live = true)
      (up : point'.passed = true → point.passed = true) (notAdd : act ≠ .addRoute true)
      (notDel : act ≠ .delRoute) :
      RouteMove hub peer point act point' effect

theorem Moves.route {peer : HubPeer} {point point' : Point} {act : Act} {effect : Effect}
    (move : Moves cfg hub.peers hub peer point act point' effect) :
    RouteMove hub peer point act point' effect := by
  cases move with
  | claim => exact .claim
  | addRoute4 => exact .addRoute4
  | addRoute6 => exact .addRoute6
  | removeFailed | remove => exact .remove rfl rfl rfl nofun
  | delRoute4 => exact .delRoute4
  | delRoute6 => exact .delRoute6
  | rejected lost => exact .ends rfl rfl rfl lost rfl nofun nofun nofun
  | removeFanFailed => exact .ends rfl rfl rfl trivial rfl nofun nofun nofun
  | keepRoutes => exact .ends rfl rfl rfl trivial rfl nofun nofun nofun
  | verified ok => exact .keep rfl rfl rfl (fun lost => lost ok) rfl rfl nofun nofun nofun
  | _ => exact .keep rfl rfl rfl nofun rfl rfl (by first | exact fun _ => rfl | nofun) nofun nofun

/-! ## Stale routes of one family -/

section Family

variable {K : Type} [DecidableEq K] {routes routes' : Finset K} {slots slots' : HashMap K HubPeer}
  {addr : HubPeer → K} {i : Nat} {peer : HubPeer} {point point' : Point} {effect : Effect}

/-- A move that ends no session. -/
theorem staleFree_of_live (free : StaleFree hub routes slots addr) (here : hub.At i peer point)
    (after : point'.live = true) (grows : ∀ key ∈ routes', key ∈ routes ∨ key = addr peer)
    (held : ∀ key, slots.get key ≠ none → slots'.get key ≠ none ∨ key = addr peer) :
    StaleFree (advance hub i peer point' effect) routes' slots' addr := by
  intro key member
  have mine : key = addr peer → slots'.get key ≠ none ∨
      ∃ j q place, (advance hub i peer point' effect).At j q place ∧ place.live = true ∧
        addr q = key :=
    fun same => Or.inr ⟨i, peer, point', at_advance_self, after, same.symm⟩
  rcases grows key member with old | same
  · rcases free key old with occupied | ⟨j, q, place, there, live, rfl⟩
    · rcases held key occupied with still | same
      · exact Or.inl still
      · exact mine same
    · obtain ⟨place', there', live'⟩ := at_after (fun place => place.live = true) here
        (fun _ _ _ => after) ⟨place, there, live⟩
      exact Or.inr ⟨j, q, place', there', live', rfl⟩
  · exact mine same

/-- A move that ends its session. -/
theorem staleFree_of_end (effect : Effect) (free : StaleFree hub routes slots addr)
    (here : hub.At i peer point) (out : point'.live = false) (shrinks : routes' ⊆ routes) :
    StaleFree (advance hub i peer point' effect) routes' slots addr ↔
      (addr peer ∈ routes' → slots.get (addr peer) ≠ none ∨
        InUse hub i fun q => addr q = addr peer) := by
  constructor
  · intro after member
    rcases after _ member with occupied | ⟨j, q, place, there, live, same⟩
    · exact Or.inl occupied
    · rcases at_advance there with ⟨_, _, rfl⟩ | ⟨distinct, before⟩
      · cases live.symm.trans out
      · exact Or.inr ⟨j, q, place, distinct, before, live, same⟩
  · intro covered key member
    rcases free key (shrinks member) with occupied | ⟨j, q, place, there, live, rfl⟩
    · exact Or.inl occupied
    · by_cases same : j = i
      · subst same
        obtain ⟨rfl, _⟩ := there.unique here
        rcases covered member with occupied | ⟨k, r, place', distinct, before, live', shared⟩
        · exact Or.inl occupied
        · exact Or.inr ⟨k, r, place', (at_advance_of_ne distinct).mpr before, live', shared⟩
      · exact Or.inr ⟨j, q, place, (at_advance_of_ne same).mpr there, live, rfl⟩

theorem staleFree_quiet (free : StaleFree hub routes slots addr) (quiet : Quiet hub next) :
    StaleFree next routes slots addr := by
  intro key member
  rcases free key member with occupied | ⟨j, q, place, there, live, same⟩
  · exact Or.inl occupied
  · refine Or.inr ⟨j, q, place, (quiet.at_iff j q place ?_).mpr there, live, same⟩
    rintro rfl
    cases live

end Family

/-! ## Routed sessions -/

section Move

variable {i : Nat} {peer : HubPeer} {point point' : Point} {effect : Effect}

/-- A move after which no session passes anew leaves no session newly routed. -/
theorem routed_of_keep {j : Nat} {q : HubPeer} (here : hub.At i peer point)
    (routed : Routed (advance hub i peer point' effect) j q)
    (peers : (effect.apply hub).peers = hub.peers)
    (up : point'.passed = true → point.passed = true) : Routed hub j q := by
  obtain ⟨held, place, there, passed⟩ := routed
  rw [advance_peers, peers] at held
  rcases at_advance there with ⟨rfl, rfl, rfl⟩ | ⟨_, before⟩
  · exact ⟨held, _, here, up passed⟩
  · exact ⟨held, place, before, passed⟩

theorem routed_of_store {j : Nat} {q : HubPeer} (wf : Wf hub) (here : hub.At i peer point)
    (routed : Routed (advance hub i peer point' effect) j q) (up : point'.passed = false)
    (holds : ∀ q, q ≠ peer → Holds (effect.apply hub).peers q → Holds hub.peers q) :
    Routed hub j q := by
  obtain ⟨held, place, there, passed⟩ := routed
  rcases at_advance there with ⟨_, _, rfl⟩ | ⟨distinct, before⟩
  · cases passed.symm.trans up
  · refine ⟨holds q ?_ held, place, before, passed⟩
    rintro rfl
    exact distinct ((wf.number j q _ before).1.symm.trans (wf.number i q _ here).1)

/-! ## Failures -/

/-- The claim and the failure of one session, against the entry of another. -/
theorem net_iff {before : HubPeerIndex} {q : HubPeer} (admits : Admits peer before)
    (distinct : q.session ≠ peer.session) :
    ((∀ key, before.byV4.get key = some q → (removeClosure peer.vip peer.vip6 peer.session
          (claimClosure peer before)).byV4.get key = some q) ∧
        ∀ key, before.byV6.get key = some q → (removeClosure peer.vip peer.vip6 peer.session
          (claimClosure peer before)).byV6.get key = some q) ↔
      before.byV4.get peer.vip ≠ some q ∧ before.byV6.get peer.vip6 ≠ some q := by
  have held := holds_claimClosure admits
  constructor
  · rintro ⟨four, six⟩
    constructor
    · intro found
      have same := held.1.symm.trans (get_removeClosure.mp (four _ found)).1
      cases same
      exact distinct rfl
    · intro found
      have same := held.2.symm.trans (get_removeClosure6.mp (six _ found)).1
      cases same
      exact distinct rfl
  · rintro ⟨four, six⟩
    refine ⟨fun key found => get_removeClosure.mpr ⟨?_, fun both => distinct both.2⟩,
      fun key found => get_removeClosure6.mpr ⟨?_, fun both => distinct both.2⟩⟩
    · rw [claimClosure_of_admits admits, HashMap.get_put_of_ne, found]
      rintro rfl
      exact four found
    · rw [claimClosure_of_admits admits, HashMap.get_put_of_ne, found]
      rintro rfl
      exact six found

end Move

theorem failure_path (wf : Wf hub) {i : Nat} {peer : HubPeer} {point : Point} {act : Act}
    (here : hub.At i peer point)
    (failing : act = .addRoute false ∨ point = .routeFailed ∨ point = .routeFailedFan)
    (taken : (hubSystem cfg).atomic hub (.act i act) = some next) :
    next.routes4 = hub.routes4 ∧ next.routes6 = hub.routes6 ∧
      (∀ key p, p.session ≠ i →
        (next.peers.byV4.get key = some p ↔ hub.peers.byV4.get key = some p)) ∧
      ∀ key p, p.session ≠ i →
        (next.peers.byV6.get key = some p ↔ hub.peers.byV6.get key = some p) := by
  cases atomic_cases wf taken with
  | quiet early => exact absurd here (early i act peer point rfl)
  | moved _ p there move =>
      obtain ⟨rfl, rfl⟩ := there.unique here
      cases move with
      | failRoute4 | failRoute6 | removeFanFailed =>
          exact ⟨rfl, rfl, fun _ _ _ => Iff.rfl, fun _ _ _ => Iff.rfl⟩
      | removeFailed =>
          have removes := removesOwn_closure p hub.peers
          have number := (wf.number i p _ here).1
          exact ⟨rfl, rfl, fun key r other => removes.others4 key r (by rwa [number]),
            fun key r other => removes.others6 key r (by rwa [number])⟩
      | _ => rcases failing with impossible | impossible | impossible <;> cases impossible

theorem failureHarmless_iff (wf : Wf hub) :
    FailureHarmless cfg hub event ↔
      ∀ i peer point before, event = .act i (.addRoute false) → hub.At i peer point →
        hub.replaced i = some before → ∀ e q place, e < i → hub.At e q place →
          place.established = true →
            before.byV4.get peer.vip ≠ some q ∧ before.byV6.get peer.vip6 ≠ some q := by
  have net : ∀ i peer point before, hub.At i peer point → hub.replaced i = some before →
      ∀ e q place, e < i → hub.At e q place → Admits peer before ∧ q.session ≠ peer.session := by
    intro i peer point before here stored e q place earlier there
    obtain ⟨p, admits, point', here', _⟩ := wf.history i before stored
    obtain ⟨rfl, _⟩ := here'.unique here
    refine ⟨admits, ?_⟩
    rw [(wf.number i p _ here).1, (wf.number e q _ there).1]
    omega
  constructor
  · intro harmless i peer point before same here stored e q place earlier there up
    obtain ⟨admits, distinct⟩ := net i peer point before here stored e q place earlier there
    exact (net_iff admits distinct).mp
      (harmless.net i peer point before same here stored e q place earlier there up)
  · intro clear
    refine ⟨fun i peer point before same here stored e q place earlier there up => ?_, ?_⟩
    · obtain ⟨admits, distinct⟩ := net i peer point before here stored e q place earlier there
      exact (net_iff admits distinct).mpr
        (clear i peer point before same here stored e q place earlier there up)
    · rintro i peer point act next rfl here failing taken
      exact failure_path wf here failing taken

/-! ## Steps -/

section Step

variable {i : Nat} {peer : HubPeer} {point point' : Point} {act : Act} {effect : Effect}

/-- A move that completes, deletes and ends nothing meets the condition. -/
theorem routesKept_of_stays (here : hub.At i peer point)
    (notAdd : act = .addRoute true → point ≠ .addRoute6) (notDel : act ≠ .delRoute)
    (stays : ¬ Ends hub peer point act) : RoutesKept hub (.act i act) := by
  refine ⟨?_, ?_, ?_, ?_, ?_⟩
  · rintro _ p ⟨⟩ there
    exact absurd (here.unique there).2 (notAdd rfl)
  · rintro _ p ⟨⟩
    exact absurd rfl notDel
  · rintro _ p ⟨⟩
    exact absurd rfl notDel
  · rintro _ p place _ ⟨⟩ there goes
    obtain ⟨rfl, rfl⟩ := here.unique there
    exact absurd goes stays
  · rintro _ p place _ ⟨⟩ there goes
    obtain ⟨rfl, rfl⟩ := here.unique there
    exact absurd goes stays

/-- A move that keeps the index and the routes and after which the session is
still in use. -/
theorem follow_of_keep (follow : RoutesFollow hub) (here : hub.At i peer point)
    (peers : (effect.apply hub).peers = hub.peers)
    (routes4 : (effect.apply hub).routes4 = hub.routes4)
    (routes6 : (effect.apply hub).routes6 = hub.routes6)
    (up : point'.passed = true → point.passed = true) (after : point'.live = true) :
    RoutesFollow (advance hub i peer point' effect) where
  installed := by
    rw [advance_routes4, advance_routes6, routes4, routes6]
    exact fun j q routed => follow.installed j q (routed_of_keep here routed peers up)
  stale4 := by
    rw [advance_routes4, advance_peers, routes4, peers]
    exact staleFree_of_live follow.stale4 here after (fun _ => Or.inl) (fun _ => Or.inl)
  stale6 := by
    rw [advance_routes6, advance_peers, routes6, peers]
    exact staleFree_of_live follow.stale6 here after (fun _ => Or.inl) (fun _ => Or.inl)

theorem follow_of_claim (wf : Wf hub) (follow : RoutesFollow hub) (here : hub.At i peer .claim) :
    RoutesFollow (advance hub i peer .verify
      (.store (claimClosure peer hub.peers) (installs peer hub.peers))) where
  installed := fun j q routed =>
    follow.installed j q (routed_of_store wf here routed rfl fun _ => holds_of_claimClosure)
  stale4 := staleFree_of_live follow.stale4 here rfl (fun _ => Or.inl) occupied_claimClosure.1
  stale6 := staleFree_of_live follow.stale6 here rfl (fun _ => Or.inl) occupied_claimClosure.2

theorem follow_of_remove (wf : Wf hub) (follow : RoutesFollow hub) (here : hub.At i peer point)
    (after : point'.live = true) (up : point'.passed = false) :
    RoutesFollow (advance hub i peer point'
      (.store (removeClosure peer.vip peer.vip6 peer.session hub.peers) none)) where
  installed := fun j q routed =>
    follow.installed j q (routed_of_store wf here routed up fun _ _ => holds_of_removeClosure)
  stale4 := staleFree_of_live follow.stale4 here after (fun _ => Or.inl) occupied_removeClosure.1
  stale6 := staleFree_of_live follow.stale6 here after (fun _ => Or.inl) occupied_removeClosure.2

theorem follow_of_addRoute4 (follow : RoutesFollow hub) (here : hub.At i peer .addRoute4) :
    RoutesFollow (advance hub i peer .addRoute6 (.addRoute4 peer.vip)) where
  installed := fun j q routed =>
    (follow.installed j q (routed_of_keep here routed rfl nofun)).imp_left
      Finset.mem_insert_of_mem
  stale4 := staleFree_of_live follow.stale4 here rfl
    (fun _ member => (Finset.mem_insert.mp member).symm) (fun _ => Or.inl)
  stale6 := staleFree_of_live follow.stale6 here rfl (fun _ => Or.inl) (fun _ => Or.inl)

theorem follow_addRoute6_iff (follow : RoutesFollow hub) (here : hub.At i peer .addRoute6) :
    RoutesFollow (advance hub i peer .snapshot (.addRoute6 peer.vip6)) ↔
      (Holds hub.peers peer → peer.vip ∈ hub.routes4) := by
  constructor
  · intro after holds
    exact (after.installed i peer ⟨holds, .snapshot, at_advance_self, rfl⟩).1
  · intro kept
    refine ⟨?_, ?_, ?_⟩
    · rintro j q ⟨held, place, there, passed⟩
      rcases at_advance there with ⟨rfl, rfl, _⟩ | ⟨_, before⟩
      · exact ⟨kept held, Finset.mem_insert_self _ _⟩
      · exact (follow.installed j q ⟨held, place, before, passed⟩).imp_right
          Finset.mem_insert_of_mem
    · exact staleFree_of_live follow.stale4 here rfl (fun _ => Or.inl) (fun _ => Or.inl)
    · exact staleFree_of_live follow.stale6 here rfl
        (fun _ member => (Finset.mem_insert.mp member).symm) (fun _ => Or.inl)

/-- A session that is routed when another one moves is still routed afterwards. -/
theorem routed_advance {j : Nat} {q : HubPeer} (here : hub.At i peer point)
    (down : point.passed = false) (peers : (effect.apply hub).peers = hub.peers)
    (routed : Routed hub j q) : Routed (advance hub i peer point' effect) j q := by
  obtain ⟨held, place, there, passed⟩ := routed
  refine ⟨by rw [advance_peers, peers]; exact held, place, (at_advance_of_ne ?_).mpr there, passed⟩
  rintro rfl
  obtain ⟨_, rfl⟩ := there.unique here
  cases passed.symm.trans down

theorem follow_delRoute4_iff (follow : RoutesFollow hub)
    (here : hub.At i peer (.delRoute4 true)) :
    RoutesFollow (advance hub i peer .delRoute6 (.delRoute4 peer.vip)) ↔
      ∀ j q, Routed hub j q → q.vip ≠ peer.vip := by
  constructor
  · intro after j q routed
    exact Finset.ne_of_mem_erase (after.installed j q (routed_advance here rfl rfl routed)).1
  · intro clear
    refine ⟨fun j q routed => ?_, ?_, ?_⟩
    · have before := routed_of_keep here routed rfl nofun
      exact (follow.installed j q before).imp_left
        (Finset.mem_erase_of_ne_of_mem (clear j q before))
    · exact staleFree_of_live follow.stale4 here rfl
        (fun _ member => Or.inl (Finset.mem_of_mem_erase member)) (fun _ => Or.inl)
    · exact staleFree_of_live follow.stale6 here rfl (fun _ => Or.inl) (fun _ => Or.inl)

theorem follow_delRoute6_iff (follow : RoutesFollow hub) (here : hub.At i peer .delRoute6) :
    RoutesFollow (advance hub i peer .finished (.delRoute6 peer.vip6)) ↔
      (∀ j q, Routed hub j q → q.vip6 ≠ peer.vip6) ∧
        (peer.vip ∈ hub.routes4 → hub.peers.byV4.get peer.vip ≠ none ∨
          InUse hub i fun q => q.vip = peer.vip) := by
  have four := staleFree_of_end (.delRoute6 peer.vip6) follow.stale4 here
    (show Point.finished.live = false from rfl) (Finset.Subset.refl hub.routes4)
  constructor
  · intro after
    refine ⟨fun j q routed => ?_, four.mp after.stale4⟩
    exact Finset.ne_of_mem_erase (after.installed j q (routed_advance here rfl rfl routed)).2
  · rintro ⟨clear, covered⟩
    refine ⟨fun j q routed => ?_, four.mpr covered, ?_⟩
    · have before := routed_of_keep here routed rfl nofun
      exact (follow.installed j q before).imp_right
        (Finset.mem_erase_of_ne_of_mem (clear j q before))
    · refine (staleFree_of_end _ follow.stale6 here rfl (Finset.erase_subset _ _)).mpr ?_
      exact fun member => absurd rfl (Finset.ne_of_mem_erase member)

theorem follow_ends_iff (follow : RoutesFollow hub) (here : hub.At i peer point)
    (peers : (effect.apply hub).peers = hub.peers)
    (routes4 : (effect.apply hub).routes4 = hub.routes4)
    (routes6 : (effect.apply hub).routes6 = hub.routes6) (out : point'.live = false) :
    RoutesFollow (advance hub i peer point' effect) ↔
      (peer.vip ∈ hub.routes4 → hub.peers.byV4.get peer.vip ≠ none ∨
          InUse hub i fun q => q.vip = peer.vip) ∧
        (peer.vip6 ∈ hub.routes6 → hub.peers.byV6.get peer.vip6 ≠ none ∨
          InUse hub i fun q => q.vip6 = peer.vip6) := by
  have four := staleFree_of_end effect follow.stale4 here out
    (Finset.Subset.refl hub.routes4)
  have six := staleFree_of_end effect follow.stale6 here out
    (Finset.Subset.refl hub.routes6)
  constructor
  · intro after
    have stale4 := after.stale4
    have stale6 := after.stale6
    rw [advance_routes4, advance_peers, routes4, peers] at stale4
    rw [advance_routes6, advance_peers, routes6, peers] at stale6
    exact ⟨four.mp stale4, six.mp stale6⟩
  · rintro ⟨covered4, covered6⟩
    refine ⟨fun j q routed => ?_, ?_, ?_⟩
    · rw [advance_routes4, advance_routes6, routes4, routes6]
      refine follow.installed j q (routed_of_keep here routed peers fun up => ?_)
      cases (Point.live_of_passed up).symm.trans out
    · rw [advance_routes4, advance_peers, routes4, peers]
      exact four.mpr covered4
    · rw [advance_routes6, advance_peers, routes6, peers]
      exact six.mpr covered6

end Step

theorem follow_quiet (follow : RoutesFollow hub) (quiet : Quiet hub next) : RoutesFollow next where
  installed := by
    rintro j q ⟨held, place, there, passed⟩
    rw [quiet.peers] at held
    rw [quiet.routes4, quiet.routes6]
    refine follow.installed j q ⟨held, place, (quiet.at_iff j q place ?_).mp there, passed⟩
    rintro rfl
    cases passed
  stale4 := by rw [quiet.routes4, quiet.peers]; exact staleFree_quiet follow.stale4 quiet
  stale6 := by rw [quiet.routes6, quiet.peers]; exact staleFree_quiet follow.stale6 quiet

theorem follow_step_iff (wf : Wf hub) (follow : RoutesFollow hub)
    (taken : (hubSystem cfg).atomic hub event = some next) :
    RoutesFollow next ↔ RoutesKept hub event := by
  cases atomic_cases wf taken with
  | quiet early quiet =>
      refine ⟨fun _ => ⟨?_, ?_, ?_, ?_, ?_⟩, fun _ => follow_quiet follow quiet⟩
      · exact fun i peer same here => absurd here (early i _ peer _ same)
      · exact fun i peer same here => absurd here (early i _ peer _ same)
      · exact fun i peer same here => absurd here (early i _ peer _ same)
      · exact fun i peer point _ same here => absurd here (early i _ peer point same)
      · exact fun i peer point _ same here => absurd here (early i _ peer point same)
  | moved i peer here move =>
      cases move.route with
      | claim =>
          exact ⟨fun _ => routesKept_of_stays here nofun nofun nofun,
            fun _ => follow_of_claim wf follow here⟩
      | addRoute4 =>
          exact ⟨fun _ => routesKept_of_stays here (fun _ => nofun) nofun nofun,
            fun _ => follow_of_addRoute4 follow here⟩
      | addRoute6 =>
          rw [follow_addRoute6_iff follow here]
          refine ⟨fun kept => ⟨?_, nofun, nofun, ?_, ?_⟩, fun met => met.adds i peer rfl here⟩
          · rintro _ p ⟨⟩ there
            obtain ⟨rfl, _⟩ := here.unique there
            exact kept
          · rintro _ p place _ ⟨⟩ there goes
            obtain ⟨rfl, rfl⟩ := here.unique there
            cases goes
          · rintro _ p place _ ⟨⟩ there goes
            obtain ⟨rfl, rfl⟩ := here.unique there
            cases goes
      | remove before after up goes =>
          exact ⟨fun _ => routesKept_of_stays here nofun nofun goes,
            fun _ => follow_of_remove wf follow here after up⟩
      | delRoute4 =>
          rw [follow_delRoute4_iff follow here]
          refine ⟨fun clear => ⟨nofun, ?_, ?_, ?_, ?_⟩, fun met => met.deletes4 i peer rfl here⟩
          · rintro _ p ⟨⟩ there
            obtain ⟨rfl, _⟩ := here.unique there
            exact clear
          · rintro _ p ⟨⟩ there
            cases (here.unique there).2
          · rintro _ p place _ ⟨⟩ there goes
            obtain ⟨rfl, rfl⟩ := here.unique there
            cases goes
          · rintro _ p place _ ⟨⟩ there goes
            obtain ⟨rfl, rfl⟩ := here.unique there
            cases goes
      | delRoute6 =>
          rw [follow_delRoute6_iff follow here]
          refine ⟨fun ⟨clear, covered⟩ => ⟨nofun, ?_, ?_, ?_, ?_⟩,
            fun met => ⟨met.deletes6 i peer rfl here, met.leaves4 i peer _ _ rfl here trivial⟩⟩
          · rintro _ p ⟨⟩ there
            cases (here.unique there).2
          · rintro _ p ⟨⟩ there
            obtain ⟨rfl, _⟩ := here.unique there
            exact clear
          · rintro _ p place _ ⟨⟩ there _
            obtain ⟨rfl, _⟩ := here.unique there
            exact covered
          · rintro _ p place _ ⟨⟩ there _ other
            exact absurd (here.unique there).2.symm other
      | ends peers routes4 routes6 goes out notAdd notDel4 notDel6 =>
          rw [follow_ends_iff follow here peers routes4 routes6 out]
          refine ⟨fun ⟨covered4, covered6⟩ => ⟨?_, ?_, ?_, ?_, ?_⟩,
            fun met => ⟨met.leaves4 i peer _ _ rfl here goes,
              met.leaves6 i peer _ _ rfl here goes notDel6⟩⟩
          · rintro _ p ⟨⟩
            exact absurd rfl (notAdd true)
          · rintro _ p ⟨⟩ there
            exact absurd (here.unique there).2 notDel4
          · rintro _ p ⟨⟩ there
            exact absurd (here.unique there).2 notDel6
          · rintro _ p place _ ⟨⟩ there _
            obtain ⟨rfl, _⟩ := here.unique there
            exact covered4
          · rintro _ p place _ ⟨⟩ there _ _
            obtain ⟨rfl, _⟩ := here.unique there
            exact covered6
      | keep peers routes4 routes6 stays before after up notAdd notDel =>
          exact ⟨fun _ => routesKept_of_stays here (fun same => absurd same notAdd) notDel stays,
            fun _ => follow_of_keep follow here peers routes4 routes6 up after⟩

theorem routes_step_iff (wf : Wf hub) (follow : RoutesFollow hub)
    (taken : (hubSystem cfg).atomic hub event = some next) :
    RoutesFollow next ∧ FailureHarmless cfg hub event ↔ RoutesClear hub event := by
  rw [follow_step_iff wf follow taken, failureHarmless_iff wf]
  exact ⟨fun both => ⟨both.1, both.2⟩, fun met => ⟨met.kept, met.fails⟩⟩

theorem routesFollow_start : RoutesFollow .start where
  installed := by
    rintro i peer ⟨_, _, there, _⟩
    cases there
  stale4 := nofun
  stale6 := nofun

/-- **Routes over whole runs.** Sessions whose entries are in the index have both
routes, no route outlives the users of its address, and a failed
`add_peer_route` harms no earlier session, exactly when no step deletes or
misses a route of a routed session, ends with a route that nobody else needs, or
fails after taking an established session's entry. -/
theorem hub_routes_follow_iff (cfg : HubConfig) (events : List (RetryEvent Event Nat)) :
    AllStates (retryStep (hubSystem cfg)) (fun state => RoutesFollow state.base)
          (.start .start) events ∧
        AllSteps (retryStep (hubSystem cfg)) (OnActs (FailureHarmless cfg))
          (.start .start) events ↔
      AllSteps (retryStep (hubSystem cfg)) (OnActs RoutesClear) (.start .start) events :=
  retry_exchange (fun _ _ _ => wf_step) (fun _ _ _ => routes_step_iff) wf_start
    routesFollow_start events

/-- Peer 1 leaves and reconnects with the same addresses; the second session has
added its routes when the first one's teardown reaches `del_peer_route`. -/
def staleRouteRun : List (RetryEvent Event Nat) :=
  attach 1 1 ⟨0xAC180001, 0xfd24ac18000000000000000000000001⟩ (some true) ++ swap 1 .claim ++
  [.act (.act 1 .verify), .act (.act 1 .insertFan), .act (.act 1 (.addRoute true)),
    .act (.act 1 (.addRoute true)),
    .act (.act 1 (.snapshot [⟨0xAC1800FE, 0xfd24ac180000000000000000000000fe, 9⟩])),
    .act (.act 1 .closed)] ++
  swap 1 .remove ++ [.act (.act 1 .reload), .act (.act 1 .removeFan)] ++
  attach 2 1 ⟨0xAC180001, 0xfd24ac18000000000000000000000001⟩ (some true) ++ swap 2 .claim ++
  [.act (.act 2 .verify), .act (.act 2 .insertFan), .act (.act 2 (.addRoute true)),
    .act (.act 2 (.addRoute true)), .act (.act 1 .delRoute)]

/-- The first session deletes the IPv4 route of the second. -/
theorem hub_stale_route_deleted :
    ¬ AllStates (retryStep (hubSystem openHub)) (fun state => RoutesFollow state.base)
      (.start .start) staleRouteRun := by
  intro all
  have ran : run (retryStep (hubSystem openHub)) (.start .start) staleRouteRun = some _ :=
    rfl
  have routed := (all.final ran).installed 2
    ⟨1, 2, 0xAC180001, 0xfd24ac18000000000000000000000001, .outbound 2, true⟩
    ⟨⟨rfl, rfl⟩, .snapshot, rfl, rfl⟩
  exact absurd routed.1 (by decide)

end LinkP2p.Tun.Hub
