import LinkP2p.Tun.HubInvariant

/-!
# Who receives roster broadcasts

`RosterFans` is keyed by peer id alone. A session registers its sender after its
claim, and every way out of a session unregisters whatever sender is there.
-/

namespace LinkP2p.Tun.Hub

open LinkP2p.Lib LinkP2p.Lib.Transition LinkP2p.Lib.Rcu

variable {cfg : HubConfig} {hub next : State} {event : Event}

/-- The peer's entries are exactly this session's two. -/
structure Owns (idx : HubPeerIndex) (peer : HubPeer) : Prop where
  holds : Holds idx peer
  four : ∀ key q, idx.byV4.get key = some q → q.id = peer.id → q = peer
  six : ∀ key q, idx.byV6.get key = some q → q.id = peer.id → q = peer

/-- Session `i` is up and owns its peer's entries. -/
def Owner (hub : State) (i : Nat) (peer : HubPeer) : Prop :=
  Owns hub.peers peer ∧ ∃ point, hub.At i peer point ∧ point.attached = true

/-- Every owner's sender is the registered one, and a broadcast serves it. -/
def FansOwned (hub : State) : Prop :=
  ∀ i peer, Owner hub i peer →
    hub.fans.get peer.id = some (.roster i) ∧ Sender.roster i ∈ hub.fans.values

/-- The way out of one session keeps the registered sender of every other
session that owns its peer's entries. -/
def KeepsFans (cfg : HubConfig) (hub : State) (event : Event) : Prop :=
  ∀ i next, event = .act i .removeFan → (hubSystem cfg).atomic hub event = some next →
    ∀ j peer, j ≠ i → Owner hub j peer → next.fans.get peer.id = hub.fans.get peer.id

/-- A sender is registered or unregistered only while no other session owns the
peer's entries, and a removal that makes another session the owner finds that
session's sender registered. -/
structure FansClear (hub : State) (event : Event) : Prop where
  inserts : ∀ i peer, event = .act i .insertFan → hub.At i peer .insertFan →
    ∀ j q, Owner hub j q → q.id ≠ peer.id
  removes : ∀ i peer point, event = .act i .removeFan → hub.At i peer point →
    ∀ j q, Owner hub j q → q.id ≠ peer.id
  passes : ∀ i peer point, event = .act i .remove → hub.At i peer point →
    ∀ j q place, j ≠ i → hub.At j q place → place.attached = true → Holds hub.peers q →
      (∀ key r, hub.peers.byV4.get key = some r → r.id = q.id → r = q ∨ r = peer) →
      (∀ key r, hub.peers.byV6.get key = some r → r.id = q.id → r = q ∨ r = peer) →
        hub.fans.get q.id = some (.roster j)

/-! ## Moves -/

inductive FanMove (hub : State) (peer : HubPeer) : Point → Act → Point → Effect → Prop where
  | claim : FanMove hub peer .claim .claim .verify
      (.store (claimClosure peer hub.peers) (installs peer hub.peers))
  | insertFan : FanMove hub peer .insertFan .insertFan .addRoute4
      (.insertFan peer.id (.roster peer.session))
  | removeFan {point point' : Point} (down : point.attached = false)
      (out : point'.attached = false) :
      FanMove hub peer point .removeFan point' (.removeFan peer.id)
  | remove {point point' : Point} (down : point.attached = false)
      (out : point'.attached = false) :
      FanMove hub peer point .remove point'
        (.store (removeClosure peer.vip peer.vip6 peer.session hub.peers) none)
  | keep {point point' : Point} {act : Act} {effect : Effect}
      (peers : (effect.apply hub).peers = hub.peers) (fans : (effect.apply hub).fans = hub.fans)
      (stays : point'.attached = true → point.attached = true)
      (notInsert : act ≠ .insertFan) (notRemoveFan : act ≠ .removeFan)
      (notRemove : act ≠ .remove) :
      FanMove hub peer point act point' effect

theorem Moves.fan {peer : HubPeer} {point point' : Point} {act : Act} {effect : Effect}
    (move : Moves cfg hub.peers hub peer point act point' effect) :
    FanMove hub peer point act point' effect := by
  cases move with
  | claim => exact .claim
  | insertFan => exact .insertFan
  | removeFanFailed | removeFanHidden | removeFanShown => exact .removeFan rfl rfl
  | removeFailed | remove => exact .remove rfl rfl
  | _ => exact .keep rfl rfl (by first | exact fun _ => rfl | nofun) nofun nofun nofun

/-! ## Owners -/

section Move

variable {i : Nat} {peer : HubPeer} {point point' : Point} {act : Act} {effect : Effect}

/-- Another session's own moves do not decide whether a session is up. -/
theorem owner_of_advance {j : Nat} {q : HubPeer} (peers : (effect.apply hub).peers = hub.peers)
    (here : hub.At i peer point) (stays : point'.attached = true → point.attached = true)
    (owner : Owner (advance hub i peer point' effect) j q) : Owner hub j q := by
  obtain ⟨owns, place, there, up⟩ := owner
  rw [advance_peers, peers] at owns
  rcases at_advance there with ⟨rfl, rfl, rfl⟩ | ⟨_, before⟩
  · exact ⟨owns, _, here, stays up⟩
  · exact ⟨owns, place, before, up⟩

theorem owner_advance_of_ne {j : Nat} {q : HubPeer}
    (peers : (effect.apply hub).peers = hub.peers) (distinct : j ≠ i) (owner : Owner hub j q) :
    Owner (advance hub i peer point' effect) j q := by
  obtain ⟨owns, place, there, up⟩ := owner
  exact ⟨by rw [advance_peers, peers]; exact owns, place, (at_advance_of_ne distinct).mpr there, up⟩

/-- A claim makes no other session the owner of its peer's entries. -/
theorem owns_of_claim {q : HubPeer} (distinct : q.session ≠ peer.session)
    (owns : Owns (claimClosure peer hub.peers) q) : Owns hub.peers q := by
  by_cases admits : Admits peer hub.peers
  · have held := holds_claimClosure admits
    have other : peer.id ≠ q.id := fun same =>
      distinct (congrArg HubPeer.session (owns.four _ peer held.1 same)).symm
    refine ⟨holds_of_claimClosure ?_ owns.holds, fun key r found same => ?_,
      fun key r found same => ?_⟩
    · rintro rfl
      exact distinct rfl
    · refine owns.four key r ?_ same
      rw [claimClosure_of_admits admits, HashMap.get_put_of_ne, found]
      rintro rfl
      refine admits.1 ⟨r, found, fun mine => other (mine.symm.trans same)⟩
    · refine owns.six key r ?_ same
      rw [claimClosure_of_admits admits, HashMap.get_put_of_ne, found]
      rintro rfl
      refine admits.2 ⟨r, found, fun mine => other (mine.symm.trans same)⟩
  · rwa [claimClosure_of_not_admits admits] at owns

/-- Who owns its peer's entries once the entries of session `i` are gone. -/
theorem owns_removed_iff (wf : Wf hub) (here : hub.At i peer point) {j : Nat} {q : HubPeer}
    {place : Point} (distinct : j ≠ i) (there : hub.At j q place) :
    Owns (removeClosure peer.vip peer.vip6 peer.session hub.peers) q ↔
      Holds hub.peers q ∧
        (∀ key r, hub.peers.byV4.get key = some r → r.id = q.id → r = q ∨ r = peer) ∧
        ∀ key r, hub.peers.byV6.get key = some r → r.id = q.id → r = q ∨ r = peer := by
  have number := (wf.number i peer _ here).1
  have other : q.session ≠ peer.session := by
    rw [number, (wf.number j q _ there).1]
    exact distinct
  have mine : ∀ r, r.session = peer.session →
      (∃ place, hub.At r.session r place) → r = peer := by
    rintro r same ⟨place, there⟩
    rw [same, number] at there
    exact (there.unique here).1
  constructor
  · intro owns
    refine ⟨holds_of_removeClosure owns.holds,
      fun key r found same => ?_, fun key r found same => ?_⟩
    · by_cases own : r.session = peer.session
      · obtain ⟨place, there, _⟩ := wf.owner4 key r found
        exact Or.inr (mine r own ⟨place, there⟩)
      · exact Or.inl (owns.four key r
          (get_removeClosure.mpr ⟨found, fun both => own both.2⟩) same)
    · by_cases own : r.session = peer.session
      · obtain ⟨place, there, _⟩ := wf.owner6 key r found
        exact Or.inr (mine r own ⟨place, there⟩)
      · exact Or.inl (owns.six key r
          (get_removeClosure6.mpr ⟨found, fun both => own both.2⟩) same)
  · rintro ⟨holds, four, six⟩
    refine ⟨⟨get_removeClosure.mpr ⟨holds.1, fun both => other both.2⟩,
      get_removeClosure6.mpr ⟨holds.2, fun both => other both.2⟩⟩,
      fun key r found same => ?_, fun key r found same => ?_⟩
    · obtain ⟨before, notMine⟩ := session_ne_of_removed wf here found
      rcases four key r before same with own | rfl
      · exact own
      · exact absurd number notMine
    · obtain ⟨before, notMine⟩ := session_ne_of_removed6 wf here found
      rcases six key r before same with own | rfl
      · exact own
      · exact absurd number notMine

end Move

theorem fansOwned_iff :
    FansOwned hub ↔ ∀ i peer, Owner hub i peer → hub.fans.get peer.id = some (.roster i) := by
  constructor
  · exact fun owned i peer owner => (owned i peer owner).1
  · intro registered i peer owner
    have found := registered i peer owner
    exact ⟨found, HashMap.mem_values.mpr ⟨peer.id, found⟩⟩

/-! ## Steps -/

section Step

variable {i : Nat} {peer : HubPeer} {point point' : Point} {act : Act} {effect : Effect}

/-- The registration, against the owner there is. -/
theorem fans_of_insert (wf : Wf hub) (owned : FansOwned hub) (here : hub.At i peer .insertFan) :
    FansOwned (advance hub i peer .addRoute4 (.insertFan peer.id (.roster peer.session))) ↔
      ∀ j q, Owner hub j q → q.id ≠ peer.id := by
  have number := (wf.number i peer _ here).1
  constructor
  · intro after j q owner same
    have distinct : j ≠ i := by
      rintro rfl
      obtain ⟨_, place, there, up⟩ := owner
      obtain ⟨_, rfl⟩ := there.unique here
      cases up
    have found := (after j q (owner_advance_of_ne rfl distinct owner)).1
    rw [same, advance_fans] at found
    have sender := (HashMap.get_put_self hub.fans peer.id (.roster peer.session)).symm.trans found
    rw [number] at sender
    exact distinct (Sender.roster.inj (Option.some.inj sender)).symm
  · intro clear
    rw [fansOwned_iff]
    rintro j q ⟨owns, place, there, up⟩
    rcases at_advance there with ⟨rfl, rfl, _⟩ | ⟨_, before⟩
    · rw [advance_fans, ← number]
      exact HashMap.get_put_self _ _ _
    · have owner : Owner hub j q := ⟨owns, place, before, up⟩
      rw [advance_fans]
      exact (HashMap.get_put_of_ne (clear j q owner) _ _).trans (owned j q owner).1

/-- The way out of a session, against the owner there is. -/
theorem fans_of_remove (owned : FansOwned hub) (here : hub.At i peer point)
    (down : point.attached = false) (out : point'.attached = false) :
    FansOwned (advance hub i peer point' (.removeFan peer.id)) ↔
      ∀ j q, Owner hub j q → q.id ≠ peer.id := by
  constructor
  · intro after j q owner same
    have distinct : j ≠ i := by
      rintro rfl
      obtain ⟨_, place, there, up⟩ := owner
      obtain ⟨_, rfl⟩ := there.unique here
      cases up.symm.trans down
    have found := (after j q (owner_advance_of_ne rfl distinct owner)).1
    rw [same, advance_fans] at found
    cases (HashMap.get_remove_self hub.fans peer.id).symm.trans found
  · intro clear
    rw [fansOwned_iff]
    intro j q owner
    have before : Owner hub j q :=
      owner_of_advance rfl here (fun up => by cases up.symm.trans out) owner
    rw [advance_fans]
    exact (HashMap.get_remove_of_ne (clear j q before) _).trans (owned j q before).1

/-- The removal of the entries, against the session that is left the owner. -/
theorem fans_of_pass (wf : Wf hub) (here : hub.At i peer point)
    (out : point'.attached = false) :
    FansOwned (advance hub i peer point'
        (.store (removeClosure peer.vip peer.vip6 peer.session hub.peers) none)) ↔
      ∀ j q place, j ≠ i → hub.At j q place → place.attached = true → Holds hub.peers q →
        (∀ key r, hub.peers.byV4.get key = some r → r.id = q.id → r = q ∨ r = peer) →
        (∀ key r, hub.peers.byV6.get key = some r → r.id = q.id → r = q ∨ r = peer) →
          hub.fans.get q.id = some (.roster j) := by
  rw [fansOwned_iff]
  constructor
  · intro after j q place distinct there up holds four six
    exact after j q ⟨(owns_removed_iff wf here distinct there).mpr ⟨holds, four, six⟩, place,
      (at_advance_of_ne distinct).mpr there, up⟩
  · rintro clear j q ⟨owns, place, there, up⟩
    rcases at_advance there with ⟨_, _, rfl⟩ | ⟨distinct, before⟩
    · cases up.symm.trans out
    · obtain ⟨holds, four, six⟩ := (owns_removed_iff wf here distinct before).mp owns
      exact clear j q place distinct before up holds four six

theorem fans_of_claim (wf : Wf hub) (owned : FansOwned hub) (here : hub.At i peer .claim) :
    FansOwned (advance hub i peer .verify
      (.store (claimClosure peer hub.peers) (installs peer hub.peers))) := by
  rw [fansOwned_iff]
  rintro j q ⟨owns, place, there, up⟩
  rcases at_advance there with ⟨_, _, rfl⟩ | ⟨distinct, before⟩
  · cases up
  · refine (owned j q ⟨owns_of_claim ?_ owns, place, before, up⟩).1
    rw [(wf.number i peer _ here).1, (wf.number j q _ before).1]
    exact distinct

end Step

theorem fans_step_iff (wf : Wf hub) (owned : FansOwned hub)
    (taken : (hubSystem cfg).atomic hub event = some next) :
    FansOwned next ∧ KeepsFans cfg hub event ↔ FansClear hub event := by
  cases atomic_cases wf taken with
  | quiet early quiet =>
      constructor
      · exact fun _ => ⟨fun i peer same here => absurd here (early i _ peer _ same),
          fun i peer point same here => absurd here (early i _ peer point same),
          fun i peer point same here => absurd here (early i _ peer point same)⟩
      · refine fun _ => ⟨fansOwned_iff.mpr ?_, fun i after _ again j peer _ _ => ?_⟩
        · rintro j q ⟨owns, place, there, up⟩
          rw [quiet.peers] at owns
          rw [quiet.fans]
          refine (owned j q ⟨owns, place, (quiet.at_iff j q place ?_).mp there, up⟩).1
          rintro rfl
          cases up
        · cases again.symm.trans taken
          rw [quiet.fans]
  | moved i peer here move =>
      cases move.fan with
      | claim =>
          exact ⟨fun _ => ⟨nofun, nofun, nofun⟩, fun _ => ⟨fans_of_claim wf owned here, nofun⟩⟩
      | insertFan =>
          rw [fans_of_insert wf owned here]
          constructor
          · rintro ⟨clear, _⟩
            refine ⟨?_, nofun, nofun⟩
            rintro _ p ⟨⟩ there
            obtain ⟨rfl, _⟩ := there.unique here
            exact clear
          · exact fun met => ⟨met.inserts i peer rfl here, nofun⟩
      | removeFan down out =>
          rw [fans_of_remove owned here down out]
          constructor
          · rintro ⟨clear, _⟩
            refine ⟨nofun, ?_, nofun⟩
            rintro _ p point ⟨⟩ there
            obtain ⟨rfl, _⟩ := there.unique here
            exact clear
          · intro met
            have clear := met.removes i peer _ rfl here
            refine ⟨clear, ?_⟩
            rintro _ after ⟨⟩ again j q _ owner
            cases again.symm.trans taken
            exact HashMap.get_remove_of_ne (clear j q owner) _
      | remove down out =>
          rw [fans_of_pass wf here out]
          constructor
          · rintro ⟨clear, _⟩
            refine ⟨nofun, nofun, ?_⟩
            rintro _ p point ⟨⟩ there
            obtain ⟨rfl, _⟩ := there.unique here
            exact clear
          · exact fun met => ⟨met.passes i peer _ rfl here, nofun⟩
      | keep peers fans stays notInsert notRemoveFan notRemove =>
          constructor
          · intro _
            refine ⟨?_, ?_, ?_⟩
            · rintro _ _ ⟨⟩
              exact absurd rfl notInsert
            · rintro _ _ _ ⟨⟩
              exact absurd rfl notRemoveFan
            · rintro _ _ _ ⟨⟩
              exact absurd rfl notRemove
          · intro _
            refine ⟨fansOwned_iff.mpr fun j q owner => ?_, ?_⟩
            · rw [advance_fans, fans]
              exact (owned j q (owner_of_advance peers here stays owner)).1
            · rintro _ _ ⟨⟩
              exact absurd rfl notRemoveFan

theorem fansOwned_start : FansOwned .start := by
  rintro i peer ⟨_, _, there, _⟩
  cases there

/-- **Fan ownership over whole runs.** Every session that is up and owns its
peer's entries has its own sender registered, and no other session's way out
takes it away, exactly when senders are registered and unregistered only while
no other session owns the entries, and a removal leaves the entries to a session
whose sender is the registered one. -/
theorem hub_fans_owned_iff (cfg : HubConfig) (events : List (RetryEvent Event Nat)) :
    AllStates (retryStep (hubSystem cfg)) (fun state => FansOwned state.base)
          (.start .start) events ∧
        AllSteps (retryStep (hubSystem cfg)) (OnActs (KeepsFans cfg)) (.start .start) events ↔
      AllSteps (retryStep (hubSystem cfg)) (OnActs FansClear) (.start .start) events :=
  retry_exchange (fun _ _ _ => wf_step) (fun _ _ _ => fans_step_iff) wf_start fansOwned_start
    events

/-- Peer 1 reconnects with the same addresses; the first session's connection
closes after the second session has registered its sender. -/
def staleFanRun : List (RetryEvent Event Nat) :=
  attach 1 1 ⟨0xAC180001, 0xfd24ac18000000000000000000000001⟩ (some true) ++ swap 1 .claim ++
  [.act (.act 1 .verify), .act (.act 1 .insertFan), .act (.act 1 (.addRoute true)),
    .act (.act 1 (.addRoute true)),
    .act (.act 1 (.snapshot [⟨0xAC1800FE, 0xfd24ac180000000000000000000000fe, 9⟩]))] ++
  attach 2 1 ⟨0xAC180001, 0xfd24ac18000000000000000000000001⟩ (some true) ++ swap 2 .claim ++
  [.act (.act 2 .verify), .act (.act 2 .insertFan), .act (.act 1 .closed)] ++
  swap 1 .remove ++ [.act (.act 1 .reload), .act (.act 1 .removeFan)]

/-- The entry of the second session. -/
def staleFanPeer : HubPeer :=
  ⟨1, 2, 0xAC180001, 0xfd24ac18000000000000000000000001, .outbound 2, true⟩

/-- The first session's teardown unregisters the second session's sender. -/
theorem hub_stale_fan_removed :
    ¬ AllStates (retryStep (hubSystem openHub)) (fun state => FansOwned state.base)
      (.start .start) staleFanRun := by
  intro all
  have ran : run (retryStep (hubSystem openHub)) (.start .start) staleFanRun = some _ := rfl
  refine absurd (all.final ran 2 staleFanPeer
    ⟨⟨⟨rfl, rfl⟩, fun key q found _ => ?_, fun key q found _ => ?_⟩, .addRoute4, rfl, rfl⟩).1 ?_
  · exact Multiset.mem_singleton.mp (HashMap.mem_values.mpr ⟨key, found⟩)
  · exact Multiset.mem_singleton.mp (HashMap.mem_values.mpr ⟨key, found⟩)
  · exact nofun

end LinkP2p.Tun.Hub
