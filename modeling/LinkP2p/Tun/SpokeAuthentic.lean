import LinkP2p.Tun.SpokeLinks

/-!
# Whose link an address leads to

The hub's roster says which peer an address belongs to. A link is entered under
whatever addresses its peer announces, and stays there while the roster changes.
-/

namespace LinkP2p.Tun.Spoke

open LinkP2p.Lib LinkP2p.Lib.Transition

variable {config : Config} {state next : State} {event : Event}

/-! ## Authentic tables -/

section Family

variable {A : Type} [DecidableEq A]

/-- The roster assigns the address to the peer. -/
def Assigned (vip : OwnVips → A) (roster : HashMap EndpointId OwnVips) (v : A) (p : EndpointId) :
    Prop :=
  ∃ vips, roster.get p = some vips ∧ vip vips = v

/-- What the entries under the addresses of one family are like. -/
structure Genuine (vip : OwnVips → A) (inMesh : A → Bool) (own : A) (hub : Option A)
    (tasks : List Task) (roster : HashMap EndpointId OwnVips) (table : HashMap A Nat) : Prop where
  owner : ∀ v n q peer, table.get v = some n → Linked tasks n q peer →
    ∀ p, Assigned vip roster v p → p = q
  inMesh : ∀ v n, table.get v = some n → inMesh v = true
  notHub : ∀ v n, table.get v = some n → hub ≠ some v
  notOwn : ∀ v n, table.get v = some n → v ≠ own

end Family

/-- Both tables, over the present tasks and the present roster of the hub. -/
structure GenuineTable (config : Config) (state : State) (mesh : SpokeMesh) : Prop where
  v4 : Genuine OwnVips.v4 vipInMesh config.own.v4 mesh.hubVip state.tasks state.hubRoster
    mesh.direct
  v6 : Genuine OwnVips.v6 vip6InMesh config.own.v6 mesh.hubVip6 state.tasks state.hubRoster
    mesh.direct6

/-- The roster assigns the addresses to no other peer. -/
def Unclaimed (roster : HashMap EndpointId OwnVips) (peerId : EndpointId) (peer : OwnVips) : Prop :=
  (∀ p, Assigned OwnVips.v4 roster peer.v4 p → p = peerId) ∧
    ∀ p, Assigned OwnVips.v6 roster peer.v6 p → p = peerId

structure Authentic (config : Config) (state : State) : Prop where
  table : GenuineTable config state state.table
  /-- An open link takes packets from the addresses of its peer. -/
  opened : ∀ (n : Nat) peerId peer, state.tasks[n]? = some (Task.opened peerId peer) →
    Unclaimed state.hubRoster peerId peer

/-- Packets for and from an address that is on the roster go over a link of its peer. -/
structure Delivers (config : Config) (state : State) : Prop where
  handed4 : ∀ pkt n q peer v p, state.table.forward config.own pkt = some (.link n) →
    Linked state.tasks n q peer → ipv4Dst pkt = some v →
    Assigned OwnVips.v4 state.hubRoster v p → p = q
  handed6 : ∀ pkt n q peer v p, state.table.forward config.own pkt = some (.link n) →
    Linked state.tasks n q peer → ipv6Dst pkt = some v →
    Assigned OwnVips.v6 state.hubRoster v p → p = q
  accepted4 : ∀ pkt (n : Nat) q peer v p, state.tasks[n]? = some (Task.opened q peer) →
    accepts peer pkt = true → ipv4Src pkt = some v →
    Assigned OwnVips.v4 state.hubRoster v p → p = q
  accepted6 : ∀ pkt (n : Nat) q peer v p, state.tasks[n]? = some (Task.opened q peer) →
    accepts peer pkt = true → ipv6Src pkt = some v →
    Assigned OwnVips.v6 state.hubRoster v p → p = q

/-- A packet goes over a link only where the link is entered under its address. -/
theorem entry_of_link {toHub : Prop} (inMesh : Prop) [Decidable toHub] [Decidable inMesh]
    {hub entry : Option Nat} {n : Nat}
    (found : (if toHub then hub.map Out.hub
      else entry.elim (if inMesh then hub.map Out.hub else none) fun m => some (.link m)) =
        some (.link n)) : entry = some n := by
  have notHub : hub.map Out.hub ≠ some (.link n) := by
    intro same
    obtain ⟨_, _, apart⟩ := Option.map_eq_some_iff.mp same
    cases apart
  split at found
  · exact absurd found notHub
  · cases entry with
    | some m =>
        cases found
        rfl
    | none =>
        change (if inMesh then hub.map Out.hub else none) = some (.link n) at found
        split at found
        · exact absurd found notHub
        · cases found

theorem lookupOut_ipv4 {mesh : SpokeMesh} {pkt : List UInt8} {v : Ipv4Addr}
    (to4 : ipv4Dst pkt = some v) :
    mesh.lookupOut pkt = if mesh.hubVip = some v then mesh.hubOut.map .hub
      else (mesh.direct.get v).elim (if vipInMesh v then mesh.hubOut.map .hub else none)
        fun n => some (.link n) := by
  simp only [SpokeMesh.lookupOut, to4]
  cases mesh.direct.get v with
  | some n => rfl
  | none => rfl

theorem lookupOut_ipv6 {mesh : SpokeMesh} {pkt : List UInt8} {v : Ipv6Addr}
    (to6 : ipv6Dst pkt = some v) :
    mesh.lookupOut pkt = if mesh.hubVip6 = some v then mesh.hubOut.map .hub
      else (mesh.direct6.get v).elim (if vip6InMesh v then mesh.hubOut.map .hub else none)
        fun n => some (.link n) := by
  simp only [SpokeMesh.lookupOut, ipv4Dst_eq_none to6, to6]
  cases mesh.direct6.get v with
  | some n => rfl
  | none => rfl

theorem direct_of_forward {mesh : SpokeMesh} {own : OwnVips} {pkt : List UInt8} {n : Nat}
    {v : Ipv4Addr} (forwarded : mesh.forward own pkt = some (.link n))
    (to4 : ipv4Dst pkt = some v) : mesh.direct.get v = some n := by
  obtain ⟨_, found⟩ := Option.ite_none_left_eq_some.mp forwarded
  rw [lookupOut_ipv4 to4] at found
  exact entry_of_link (vipInMesh v = true) found

theorem direct6_of_forward {mesh : SpokeMesh} {own : OwnVips} {pkt : List UInt8} {n : Nat}
    {v : Ipv6Addr} (forwarded : mesh.forward own pkt = some (.link n))
    (to6 : ipv6Dst pkt = some v) : mesh.direct6.get v = some n := by
  obtain ⟨_, found⟩ := Option.ite_none_left_eq_some.mp forwarded
  rw [lookupOut_ipv6 to6] at found
  exact entry_of_link (vip6InMesh v = true) found

/-- A link takes packets of both families from its peer's addresses only. -/
theorem src_of_accepts {peer : OwnVips} {pkt : List UInt8} (taken : accepts peer pkt = true) :
    (∀ v, ipv4Src pkt = some v → v = peer.v4) ∧ (∀ v, ipv6Src pkt = some v → v = peer.v6) := by
  rw [accepts, Bool.or_eq_true] at taken
  constructor
  · intro v src
    rw [src, ipv6Src_eq_none src] at taken
    simpa using taken
  · intro v src
    have none4 : ipv4Src pkt = none := by
      cases found : ipv4Src pkt with
      | none => rfl
      | some w => cases (ipv6Src_eq_none found).symm.trans src
    rw [src, none4] at taken
    simpa using taken

theorem Authentic.delivers (authentic : Authentic config state) : Delivers config state where
  handed4 _ _ _ _ _ _ forwarded linked dst assigned :=
    authentic.table.v4.owner _ _ _ _ (direct_of_forward forwarded dst) linked _ assigned
  handed6 _ _ _ _ _ _ forwarded linked dst assigned :=
    authentic.table.v6.owner _ _ _ _ (direct6_of_forward forwarded dst) linked _ assigned
  accepted4 _ _ _ _ _ _ here taken src assigned := by
    rw [(src_of_accepts taken).1 _ src] at assigned
    exact (authentic.opened _ _ _ here).1 _ assigned
  accepted6 _ _ _ _ _ _ here taken src assigned := by
    rw [(src_of_accepts taken).2 _ src] at assigned
    exact (authentic.opened _ _ _ here).2 _ assigned

/-! ## When a step keeps the tables authentic -/

/-- A link may be installed over this table: its addresses are in the mesh, are
not the hub's and belong to no other peer. -/
structure Fit (state : State) (base : SpokeMesh) (q : EndpointId) (peer : OwnVips) : Prop where
  inMesh : vipInMesh peer.v4 = true ∧ vip6InMesh peer.v6 = true
  notHub : base.hubVip ≠ some peer.v4 ∧ base.hubVip6 ≠ some peer.v6
  unclaimed : Unclaimed state.hubRoster q peer

/-- What an updater adds to the table that it has loaded. -/
def Safe (state : State) (base : SpokeMesh) : Updater → Prop
  | .session => ∀ hub, state.session = .entering hub →
      base.direct.get hub.v4 = none ∧ base.direct6.get hub.v6 = none
  | .reader _ => True
  | .task n => ∀ q peer, state.tasks[n]? = some (Task.installing q peer) → Fit state base q peer

/-- The hub assigns an address only to the peer whose link is entered under it or
takes its packets; an update adds only what is safe, to a table that is authentic
by the time it is stored. -/
def Honest (config : Config) (state : State) : Event → Prop
  | .take _ msg =>
      (∀ v n q peer, state.table.direct.get v = some n → Linked state.tasks n q peer →
        ∀ p, Assigned OwnVips.v4 (received state.hubRoster msg) v p → p = q) ∧
      (∀ v n q peer, state.table.direct6.get v = some n → Linked state.tasks n q peer →
        ∀ p, Assigned OwnVips.v6 (received state.hubRoster msg) v p → p = q) ∧
      ∀ (n : Nat) q peer, state.tasks[n]? = some (Task.opened q peer) →
        Unclaimed (received state.hubRoster msg) q peer
  | .store updater => ∀ base, state.loaded updater = some base →
      GenuineTable config state base ∧ Safe state base updater
  | _ => True

section Family

variable {A : Type} [DecidableEq A] {vip : OwnVips → A} {inMesh : A → Bool} {own : A}
  {hub : Option A} {tasks tasks' : List Task} {roster : HashMap EndpointId OwnVips}
  {table table' : HashMap A Nat}

theorem genuine_empty : Genuine vip inMesh own hub tasks roster ∅ where
  owner _ _ _ _ found := absurd found nofun
  inMesh _ _ found := absurd found nofun
  notHub _ _ found := absurd found nofun
  notOwn _ _ found := absurd found nofun

/-- Fewer entries, over the same links. -/
theorem Genuine.weaken (genuine : Genuine vip inMesh own hub tasks roster table)
    (linked : ∀ n q peer, Linked tasks' n q peer → Linked tasks n q peer)
    (fewer : ∀ v n, table'.get v = some n → table.get v = some n) :
    Genuine vip inMesh own hub tasks' roster table' where
  owner v n q peer found link := genuine.owner v n q peer (fewer v n found) (linked n q peer link)
  inMesh v n found := genuine.inMesh v n (fewer v n found)
  notHub v n found := genuine.notHub v n (fewer v n found)
  notOwn v n found := genuine.notOwn v n (fewer v n found)

theorem Genuine.clear (genuine : Genuine vip inMesh own hub tasks roster table) :
    Genuine vip inMesh own none tasks roster table :=
  ⟨genuine.owner, genuine.inMesh, nofun, genuine.notOwn⟩

theorem Genuine.enter (genuine : Genuine vip inMesh own hub tasks roster table) {entered : A}
    (free : table.get entered = none) :
    Genuine vip inMesh own (some entered) tasks roster table := by
  refine ⟨genuine.owner, genuine.inMesh, fun v n found same => ?_, genuine.notOwn⟩
  cases same
  cases free.symm.trans found

theorem not_linked_of_installing {n : Nat} {q p : EndpointId} {peer other : OwnVips}
    (here : tasks[n]? = some (.installing q peer)) : ¬ Linked tasks n p other := by
  rintro ⟨task, again, link⟩
  cases here.symm.trans again
  cases link

/-- One entry more, of a link that is being installed. -/
theorem Genuine.install (genuine : Genuine vip inMesh own hub tasks roster table) {n : Nat}
    {q : EndpointId} {peer : OwnVips} (here : tasks[n]? = some (.installing q peer))
    (sourced : ∀ v m, table.get v = some m → ∃ q peer, Linked tasks m q peer ∧ vip peer = v)
    (meshed : inMesh (vip peer) = true) (notHub : hub ≠ some (vip peer))
    (unclaimed : ∀ p, Assigned vip roster (vip peer) p → p = q) (notOwn : vip peer ≠ own) :
    Genuine vip inMesh own hub (tasks.set n (.opened q peer)) roster (table.put (vip peer) n) where
  owner v m q' peer' found link p assigned := by
    rcases HashMap.get_of_get_put found with ⟨rfl, rfl⟩ | ⟨_, old⟩
    · rcases (linked_install here).mp link with before | ⟨_, rfl, _⟩
      · exact absurd before (not_linked_of_installing here)
      · exact unclaimed p assigned
    · rcases (linked_install here).mp link with before | ⟨rfl, _, _⟩
      · exact genuine.owner v m q' peer' old before p assigned
      · obtain ⟨_, _, before, _⟩ := sourced v m old
        exact absurd before (not_linked_of_installing here)
  inMesh v m found := by
    rcases HashMap.get_of_get_put found with ⟨rfl, _⟩ | ⟨_, old⟩
    · exact meshed
    · exact genuine.inMesh v m old
  notHub v m found := by
    rcases HashMap.get_of_get_put found with ⟨rfl, _⟩ | ⟨_, old⟩
    · exact notHub
    · exact genuine.notHub v m old
  notOwn v m found := by
    rcases HashMap.get_of_get_put found with ⟨rfl, _⟩ | ⟨_, old⟩
    · exact notOwn
    · exact genuine.notOwn v m old

end Family

/-- What a safe update stores is authentic, if what it has loaded is. -/
theorem authentic_store (wired : Wired config state) (authentic : Authentic config state)
    {updater : Updater} {f : SpokeMesh → SpokeMesh} {base : SpokeMesh} {advanced : State}
    (stores : Stores config state updater f advanced) (loaded : state.loaded updater = some base)
    (genuine : GenuineTable config state base) (safe : Safe state base updater)
    (slots : Updater → Option SpokeMesh) :
    Authentic config { advanced with table := f base, loaded := slots } := by
  have sourced := wired.loaded updater base loaded
  cases stores with
  | enter hub here =>
      obtain ⟨free, free6⟩ := safe hub here
      exact ⟨⟨genuine.v4.enter free, genuine.v6.enter free6⟩, authentic.opened⟩
  | clear here => exact ⟨⟨genuine.v4.clear, genuine.v6.clear⟩, authentic.opened⟩
  | insert s e rest here =>
      have linked : ∀ n q peer, Linked (state.tasks ++ [.dial e]) n q peer →
          Linked state.tasks n q peer := fun _ _ _ => (linked_append rfl).mp
      refine ⟨⟨genuine.v4.weaken linked fun _ _ => id, genuine.v6.weaken linked fun _ _ => id⟩, ?_⟩
      intro n q peer here
      rcases task_append here with old | fresh
      · exact authentic.opened n q peer old
      · cases fresh
  | left s e rest here =>
      refine ⟨⟨genuine.v4.weaken (fun _ _ _ => id) fun _ _ found => ?_,
        genuine.v6.weaken (fun _ _ _ => id) fun _ _ found => ?_⟩, authentic.opened⟩
      · exact (HashMap.get_of_get_remove found).2
      · exact (HashMap.get_of_get_remove found).2
  | install n q peer here =>
      obtain ⟨meshed, notHub, unclaimed⟩ := safe q peer here
      have apart := wired.apart n q peer here
      refine ⟨⟨genuine.v4.install here sourced.v4 meshed.1 notHub.1 unclaimed.1 apart.1,
        genuine.v6.install here sourced.v6 meshed.2 notHub.2 unclaimed.2 apart.2⟩, ?_⟩
      intro m q' peer' there
      rcases task_set there with ⟨_, same⟩ | ⟨_, old⟩
      · cases same
        exact unclaimed
      · exact authentic.opened m q' peer' old
  | drop n q peer here =>
      have linked : ∀ m q' peer', Linked (state.tasks.set n (.closed q peer)) m q' peer' →
          Linked state.tasks m q' peer' := fun _ _ _ => (linked_drop here).mp
      refine ⟨⟨genuine.v4.weaken linked fun _ _ found => (HashMap.get_of_get_remove found).2,
        genuine.v6.weaken linked fun _ _ found => (HashMap.get_of_get_remove found).2⟩, ?_⟩
      intro m q' peer' there
      rcases task_set there with ⟨_, same⟩ | ⟨_, old⟩
      · cases same
      · exact authentic.opened m q' peer' old

theorem authentic_step (wired : Wired config state) (authentic : Authentic config state)
    (honest : Honest config state event) (stepped : step config state event = some next) :
    Authentic config next := by
  cases step_move stepped with
  | dialHub | hubAnswer | hubFailed | hubGone | load | ignored =>
      exact ⟨⟨authentic.table.v4, authentic.table.v6⟩, authentic.opened⟩
  | take s msg =>
      obtain ⟨v4, v6, opened⟩ := honest
      have table := authentic.table
      exact ⟨⟨⟨v4, table.v4.inMesh, table.v4.notHub, table.v4.notOwn⟩,
        ⟨v6, table.v6.inMesh, table.v6.notHub, table.v6.notOwn⟩⟩, opened⟩
  | store updater f base advanced stores loaded =>
      obtain ⟨genuine, safe⟩ := honest base loaded
      exact authentic_store wired authentic stores loaded genuine safe _
  | admitted peerId allowed =>
      have linked : ∀ n q peer, Linked (state.tasks ++ [.answering peerId]) n q peer →
          Linked state.tasks n q peer := fun _ _ _ => (linked_append rfl).mp
      refine ⟨⟨authentic.table.v4.weaken linked fun _ _ => id,
        authentic.table.v6.weaken linked fun _ _ => id⟩, ?_⟩
      intro n q peer here
      rcases task_append here with old | fresh
      · exact authentic.opened n q peer old
      · cases fresh
  | task n act before after effect here moved =>
      have move := task_move moved
      have linked : ∀ m q peer, Linked (state.tasks.set n after) m q peer →
          Linked state.tasks m q peer := fun _ _ _ => (linked_set here move.link).mp
      refine ⟨⟨authentic.table.v4.weaken linked fun _ _ => id,
        authentic.table.v6.weaken linked fun _ _ => id⟩, ?_⟩
      intro m q peer there
      rcases task_set there with ⟨_, same⟩ | ⟨_, old⟩
      · exact absurd same.symm (move.unopened q peer)
      · exact authentic.opened m q peer old

/-- What the tables are like after a step says what the step was like. -/
theorem honest_of_authentic (authentic : Authentic config state) (current : Current state event)
    (kept : Authentic config next) (stepped : step config state event = some next) :
    Honest config state event := by
  cases step_move stepped with
  | take s msg => exact ⟨kept.table.v4.owner, kept.table.v6.owner, kept.opened⟩
  | store updater f base advanced stores loaded =>
      intro copy found
      cases loaded.symm.trans found
      have same := current base loaded
      subst same
      refine ⟨authentic.table, ?_⟩
      cases stores with
      | enter hub here =>
          intro other entering
          cases here.symm.trans entering
          constructor
          · exact Option.eq_none_iff_forall_ne_some.mpr fun n held =>
              kept.table.v4.notHub hub.v4 n held rfl
          · exact Option.eq_none_iff_forall_ne_some.mpr fun n held =>
              kept.table.v6.notHub hub.v6 n held rfl
      | clear here =>
          intro hub entering
          cases here.symm.trans entering
      | insert | left => trivial
      | install n q peer here =>
          intro q' peer' again
          cases here.symm.trans again
          have v4 : ((state.table.direct.put peer.v4 n).get peer.v4) = some n :=
            HashMap.get_put_self _ _ _
          have v6 : ((state.table.direct6.put peer.v6 n).get peer.v6) = some n :=
            HashMap.get_put_self _ _ _
          exact ⟨⟨kept.table.v4.inMesh _ n v4, kept.table.v6.inMesh _ n v6⟩,
            ⟨kept.table.v4.notHub _ n v4, kept.table.v6.notHub _ n v6⟩,
            kept.opened n q peer (getElem?_set_of_some here)⟩
      | drop n q peer here =>
          intro q' peer' again
          cases here.symm.trans again
  | _ => trivial

theorem authentic_start : Authentic config .start where
  table := ⟨genuine_empty, genuine_empty⟩
  opened _ _ _ here := absurd here nofun

/-- **Authentic links.** In a run whose messages and updates are honest, no
address of the hub's roster leads to another peer's link in any state; and where
updates do not overlap, only in such a run. -/
theorem direct_links_authentic (config : Config) :
    (∀ events, AllSteps (step config) (Honest config) .start events →
      AllStates (step config) (fun state => Authentic config state ∧ Delivers config state)
        .start events) ∧
    ∀ events, AllSteps (step config) Current .start events →
      (AllStates (step config) (Authentic config) .start events ↔
        AllSteps (step config) (Honest config) .start events) := by
  have enough : ∀ events, AllSteps (step config) (Honest config) .start events →
      AllStates (step config) (fun state => Wired config state ∧ Authentic config state)
        .start events := by
    intro events honest
    refine honest.allStates ?_ ⟨wired_start, authentic_start⟩
    intro state event next held met stepped
    exact ⟨wired_step held.1 stepped, authentic_step held.1 held.2 met stepped⟩
  refine ⟨fun events honest => ?_, fun events current => ⟨fun states => ?_, fun honest => ?_⟩⟩
  · exact (enough events honest).mono fun _ held => ⟨held.2, held.2.delivers⟩
  · refine states.edges current fun state event next held again met stepped => ?_
    exact honest_of_authentic held met again stepped
  · exact (enough events honest).mono fun _ held => held.2

/-- A spoke with id 4 at 172.24.0.4, which allows everybody. -/
def plainConfig : Config :=
  ⟨4, ⟨0xAC180004, 0xFD24AC18000000000000000000000004⟩, 9, false, none⟩

/-- The hub names peer 5 at these addresses. -/
def named : RosterEntry := ⟨0xAC180005, 0xFD24AC18000000000000000000000005, 5⟩

/-- Peer 3 connects and announces the addresses of peer 5. -/
def impersonation : List Event :=
  [.dialHub, .hubAnswer (encodeVips ⟨0xAC180009, 0xFD24AC18000000000000000000000009⟩),
    .load .session, .store .session, .take 0 (.joined named), .accept .tun 3,
    .task 0 (.heard (encodeVips ⟨named.vip, named.vip6⟩)), .load (.task 0), .store (.task 0)]

/-- The address that the hub assigns to peer 5 leads to the link of peer 3. -/
theorem impersonation_entered :
    ∃ final, run (step plainConfig) .start impersonation = some final ∧
      final.hubRoster.get 5 = some ⟨named.vip, named.vip6⟩ ∧
      final.table.direct.get named.vip = some 0 ∧
      final.tasks[0]? = some (.opened 3 ⟨named.vip, named.vip6⟩) ∧
      ¬ AllStates (step plainConfig)
        (fun state => Authentic plainConfig state ∧ Delivers plainConfig state)
        .start impersonation := by
  have outcome : (run (step plainConfig) .start impersonation).map (fun final =>
      (final.hubRoster.get 5, final.table.direct.get named.vip, final.tasks[0]?)) =
      some (some ⟨named.vip, named.vip6⟩, some 0,
        some (.opened 3 ⟨named.vip, named.vip6⟩)) := by decide +kernel
  obtain ⟨final, ran, same⟩ := Option.map_eq_some_iff.mp outcome
  obtain ⟨assigned, entered, opened⟩ : _ ∧ _ ∧ _ := by simpa only [Prod.mk.injEq] using same
  refine ⟨final, ran, assigned, entered, opened, fun all => ?_⟩
  have kept := (all.final ran).1
  exact absurd ((kept.opened 0 3 _ opened).1 5 ⟨_, assigned, rfl⟩) (by decide)

end LinkP2p.Tun.Spoke
