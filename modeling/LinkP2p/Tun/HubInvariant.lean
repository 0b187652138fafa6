import LinkP2p.Tun.HubSession

/-!
# What holds of the index in every run

The index is the cell that all claims and removals swap. Every entry sits under
the addresses it carries and was stored by a session that has not yet taken it
out again, except that a rejected session may leave an IPv6 entry behind.
-/

namespace LinkP2p.Tun.Hub

open LinkP2p.Lib LinkP2p.Lib.Transition LinkP2p.Lib.Rcu

variable {cfg : HubConfig} {seen : HubPeerIndex} {hub next : State} {event : Event}

/-- Session `i` stands at `point`. -/
def State.At (hub : State) (i : Nat) (peer : HubPeer) (point : Point) : Prop :=
  hub.tasks i = some (.at peer point)

theorem State.At.unique {i : Nat} {p q : HubPeer} {first second : Point}
    (here : hub.At i p first) (there : hub.At i q second) : p = q ∧ first = second := by
  have same := here.symm.trans there
  cases same
  exact ⟨rfl, rfl⟩

theorem at_update_self {i : Nat} {task : Task} {p : HubPeer} {q : Point}
    (tasks : next.tasks = Function.update hub.tasks i (some task)) :
    next.At i p q ↔ task = .at p q := by
  rw [State.At, tasks, Function.update_self, Option.some.injEq]

theorem at_update_of_ne {i j : Nat} {task : Task} {p : HubPeer} {q : Point}
    (tasks : next.tasks = Function.update hub.tasks i (some task)) (distinct : j ≠ i) :
    next.At j p q ↔ hub.At j p q := by
  rw [State.At, tasks, Function.update_of_ne distinct, State.At]

/-- The move of one session, applied to the hub. -/
def advance (hub : State) (i : Nat) (peer : HubPeer) (point : Point) (effect : Effect) : State :=
  { effect.apply hub with tasks := Function.update hub.tasks i (some (.at peer point)) }

section Advance

variable {i j : Nat} {peer p : HubPeer} {point q : Point} {effect : Effect}

@[simp]
theorem advance_peers : (advance hub i peer point effect).peers = (effect.apply hub).peers := rfl

@[simp]
theorem advance_fans : (advance hub i peer point effect).fans = (effect.apply hub).fans := rfl

@[simp]
theorem advance_routes4 :
    (advance hub i peer point effect).routes4 = (effect.apply hub).routes4 := rfl

@[simp]
theorem advance_routes6 :
    (advance hub i peer point effect).routes6 = (effect.apply hub).routes6 := rfl

@[simp]
theorem advance_replaced :
    (advance hub i peer point effect).replaced = (effect.apply hub).replaced := rfl

theorem at_advance_self : (advance hub i peer point effect).At i peer point :=
  (at_update_self rfl).mpr rfl

theorem at_advance_of_ne (distinct : j ≠ i) :
    (advance hub i peer point effect).At j p q ↔ hub.At j p q :=
  at_update_of_ne rfl distinct

theorem at_advance (moved : (advance hub i peer point effect).At j p q) :
    (j = i ∧ p = peer ∧ q = point) ∨ (j ≠ i ∧ hub.At j p q) := by
  by_cases same : j = i
  · subst same
    obtain ⟨rfl, rfl⟩ := moved.unique at_advance_self
    exact Or.inl ⟨rfl, rfl, rfl⟩
  · exact Or.inr ⟨same, (at_advance_of_ne same).mp moved⟩

end Advance

/-- A step before the claim: only tasks that have not claimed change. -/
structure Quiet (hub next : State) : Prop where
  peers : next.peers = hub.peers
  fans : next.fans = hub.fans
  routes4 : next.routes4 = hub.routes4
  routes6 : next.routes6 = hub.routes6
  replaced : next.replaced = hub.replaced
  at_iff : ∀ i peer point, point ≠ .claim → (next.At i peer point ↔ hub.At i peer point)
  claim : ∀ i peer, next.At i peer .claim →
    hub.At i peer .claim ∨ peer.session = i ∧ peer.outbound = .outbound i

/-- The two kinds of steps. -/
inductive Stepped (cfg : HubConfig) (seen : HubPeerIndex) (hub : State) : Event → State → Prop where
  | quiet {event : Event} {next : State}
      (early : ∀ i act peer point, event = .act i act → ¬ hub.At i peer point)
      (quiet : Quiet hub next) (silent : effectOf cfg seen hub event = .silent) :
      Stepped cfg seen hub event next
  | moved (i : Nat) (peer : HubPeer) {point point' : Point} {act : Act} {effect : Effect}
      (here : hub.At i peer point) (move : Moves cfg seen hub peer point act point' effect)
      (sent : effectOf cfg seen hub (.act i act) = effect) :
      Stepped cfg seen hub (.act i act) (advance hub i peer point' effect)

/-- Replacing a task that has not claimed by another one. -/
theorem quiet_update {i : Nat} {task : Task}
    (before : ∀ peer point, hub.tasks i ≠ some (.at peer point))
    (after : ∀ peer point, task = .at peer point →
      point = .claim ∧ peer.session = i ∧ peer.outbound = .outbound i)
    (seq : Nat) :
    Quiet hub { hub with sessionSeq := seq, tasks := Function.update hub.tasks i (some task) } := by
  refine ⟨rfl, rfl, rfl, rfl, rfl, ?_, ?_⟩
  · intro j peer point late
    by_cases same : j = i
    · subst same
      rw [at_update_self rfl]
      exact ⟨fun here => absurd (after peer point here).1 late,
        fun here => absurd here (before peer point)⟩
    · exact at_update_of_ne rfl same
  · intro j peer here
    by_cases same : j = i
    · subst same
      rw [at_update_self rfl] at here
      exact Or.inr (after peer .claim here).2
    · exact Or.inl ((at_update_of_ne rfl same).mp here)

/-- Numbers above the accept counter are unused. -/
def Fresh (hub : State) : Prop := ∀ i, hub.sessionSeq < i → hub.tasks i = none

theorem fresh_step (fresh : Fresh hub) (taken : step cfg seen hub event = some next) :
    Fresh next := by
  intro j above
  cases event with
  | accept peerId =>
      cases taken
      change hub.sessionSeq + 1 < j at above
      have unused := fresh j (by omega)
      dsimp only
      split
      · rw [Function.update_of_ne (by omega)]
        exact unused
      · exact unused
  | act i act =>
      obtain ⟨task, task', effect, found, _, rfl, _⟩ := act_cases taken
      replace above : hub.sessionSeq < j := by cases effect <;> exact above
      have distinct : j ≠ i := by
        rintro rfl
        rw [fresh j above] at found
        cases found
      change Function.update hub.tasks i (some task') j = none
      rw [Function.update_of_ne distinct]
      exact fresh j above

theorem step_cases (fresh : Fresh hub) (taken : step cfg seen hub event = some next) :
    Stepped cfg seen hub event next := by
  cases event with
  | accept peerId =>
      cases taken
      have unused : hub.tasks (hub.sessionSeq + 1) = none := fresh _ (by omega)
      refine .quiet (fun _ _ _ _ same => by cases same) ?_ rfl
      split
      · refine quiet_update (fun peer point here => ?_) (fun _ _ same => by cases same) _
        rw [unused] at here
        cases here
      · exact ⟨rfl, rfl, rfl, rfl, rfl, fun _ _ _ _ => Iff.rfl, fun _ _ here => Or.inl here⟩
  | act i act =>
      obtain ⟨task, task', effect, found, moves, rfl, sent⟩ := act_cases taken
      have early : (∀ p q, task ≠ .at p q) → ∀ p q, hub.tasks i ≠ some (.at p q) :=
        fun other p q here => other p q (Option.some.inj (found.symm.trans here))
      cases moves with
      | exchanged peerId peer =>
          have early := early nofun
          exact .quiet (by rintro _ _ p q ⟨⟩; exact early p q)
            (quiet_update early (fun _ _ same => by cases same) _) sent
      | aborted _ _ other =>
          have early := early other
          exact .quiet (by rintro _ _ p q ⟨⟩; exact early p q)
            (quiet_update early (fun _ _ same => by cases same) _) sent
      | opened peerId peer hello =>
          have early := early nofun
          refine .quiet (by rintro _ _ p q ⟨⟩; exact early p q)
            (quiet_update early (fun p point same => ?_) _) sent
          cases same
          exact ⟨rfl, rfl, rfl⟩
      | moved peer move => exact .moved i peer found move sent

/-! ## The hub as a system with one cell -/

theorem peers_of_quiet_act {i : Nat} {act : Act} (notClaim : act ≠ .claim)
    (notRemove : act ≠ .remove) (taken : step cfg seen hub (.act i act) = some next) :
    next.peers = hub.peers := by
  obtain ⟨task, task', effect, found, moves, rfl, _⟩ := act_cases taken
  cases moves with
  | exchanged | aborted | opened => rfl
  | moved peer move =>
      cases move <;> first | rfl | contradiction

/-- The tasks of the hub, with the index as the cell they swap. -/
def hubSystem (cfg : HubConfig) : System State Event Nat HubPeerIndex where
  cell := State.peers
  step := step cfg
  thread := Event.swaps
  frame := by
    intro value state event next alone taken
    cases event with
    | accept peerId =>
        cases taken
        rfl
    | act i act =>
        refine peers_of_quiet_act ?_ ?_ taken
        · rintro rfl
          cases alone
        · rintro rfl
          cases alone

/-- The events up to the claim of a session that announces the addresses `peer`. -/
def attach (i : Nat) (peerId : EndpointId) (peer : OwnVips) (hello : Option Bool) :
    List (RetryEvent Event Nat) :=
  [.act (.accept peerId), .act (.act i (.exchanged peer)), .act (.act i (.controlOpened hello))]

/-- A read-copy-update that succeeds at the first try. -/
def swap (i : Nat) (act : Act) : List (RetryEvent Event Nat) :=
  [.load i, .act (.act i act)]

/-! ## Index moves -/

/-- Between the claim's swap and the removal's. -/
def Point.holds : Point → Bool
  | .verify | .insertFan | .addRoute4 | .addRoute6 | .routeFailed | .snapshot
  | .collectJoined | .sendJoined _ | .running | .remove => true
  | .claim | .routeFailedFan | .reload | .removeFan _ | .collectLeft _ | .sendLeft _ _
  | .delRoute4 _ | .delRoute6 | .rejected | .routeErr | .finished => false

/-- After the insert into `RosterFans`, before the teardown or the failure of
the routes. -/
def Point.attached : Point → Bool
  | .addRoute4 | .addRoute6 | .snapshot | .collectJoined | .sendJoined _ | .running => true
  | _ => false

/-- A move as far as the index is concerned. -/
inductive IndexMove (hub : State) (peer : HubPeer) : Point → Act → Point → Effect → Prop where
  | claim : IndexMove hub peer .claim .claim .verify
      (.store (claimClosure peer hub.peers) (installs peer hub.peers))
  | rejected (lost : ¬ OwnSlot peer.id (hub.peers.byV4.get peer.vip)) :
      IndexMove hub peer .verify .verify .rejected .silent
  | remove {point point' : Point} (held : point.holds = true) (given : point'.holds = false)
      (late : point' ≠ .claim) (cleaned : point' ≠ .rejected) :
      IndexMove hub peer point .remove point'
        (.store (removeClosure peer.vip peer.vip6 peer.session hub.peers) none)
  | keep {point point' : Point} {act : Act} {effect : Effect}
      (peers : (effect.apply hub).peers = hub.peers)
      (replaced : (effect.apply hub).replaced = hub.replaced)
      (same : point'.holds = point.holds) (later : point ≠ .claim) (late : point' ≠ .claim)
      (cleaned : point' ≠ .rejected) (stays : point ≠ .rejected)
      (checked : act = .verify → OwnSlot peer.id (hub.peers.byV4.get peer.vip)) :
      IndexMove hub peer point act point' effect

theorem Moves.index {peer : HubPeer} {point point' : Point} {act : Act} {effect : Effect}
    (move : Moves cfg hub.peers hub peer point act point' effect) :
    IndexMove hub peer point act point' effect := by
  cases move with
  | claim => exact .claim
  | rejected lost => exact .rejected lost
  | removeFailed => exact .remove rfl rfl nofun nofun
  | remove => exact .remove rfl rfl nofun nofun
  | verified ok => exact .keep rfl rfl rfl nofun nofun nofun nofun fun _ => ok
  | _ => exact .keep rfl rfl rfl nofun nofun nofun nofun nofun

/-! ## The invariant -/

structure Wf (hub : State) : Prop where
  fresh : Fresh hub
  number : ∀ i peer point, hub.At i peer point →
    peer.session = i ∧ peer.outbound = .outbound i
  key4 : ∀ key p, hub.peers.byV4.get key = some p → p.vip = key
  key6 : ∀ key p, hub.peers.byV6.get key = some p → p.vip6 = key
  owner4 : ∀ key p, hub.peers.byV4.get key = some p →
    ∃ point, hub.At p.session p point ∧ point.holds = true
  owner6 : ∀ key p, hub.peers.byV6.get key = some p →
    ∃ point, hub.At p.session p point ∧ (point.holds = true ∨ point = .rejected)
  stored4 : ∀ key p, hub.peers.byV4.get key = some p → hub.replaced p.session ≠ none
  stored6 : ∀ key p, hub.peers.byV6.get key = some p → hub.replaced p.session ≠ none
  history : ∀ i before, hub.replaced i = some before →
    ∃ peer, Admits peer before ∧ ∃ point, hub.At i peer point ∧ point ≠ .claim

theorem wf_start : Wf .start where
  fresh := fun _ _ => rfl
  number := nofun
  key4 := nofun
  key6 := nofun
  owner4 := nofun
  owner6 := nofun
  stored4 := nofun
  stored6 := nofun
  history := nofun

theorem Wf.claimed (wf : Wf hub) {i : Nat} (stored : hub.replaced i ≠ none) :
    ∃ peer point, hub.At i peer point ∧ point ≠ .claim := by
  obtain ⟨before, known⟩ := Option.ne_none_iff_exists'.mp stored
  obtain ⟨peer, _, place⟩ := wf.history i before known
  exact ⟨peer, place⟩

theorem atomic_cases (wf : Wf hub) (taken : (hubSystem cfg).atomic hub event = some next) :
    Stepped cfg hub.peers hub event next :=
  step_cases wf.fresh taken

theorem wf_quiet (wf : Wf hub) (fresh : Fresh next) (quiet : Quiet hub next) : Wf next where
  fresh := fresh
  number := by
    intro i peer point here
    by_cases early : point = .claim
    · subst early
      rcases quiet.claim i peer here with before | numbered
      · exact wf.number i peer _ before
      · exact numbered
    · exact wf.number i peer point ((quiet.at_iff i peer point early).mp here)
  key4 := by rw [quiet.peers]; exact wf.key4
  key6 := by rw [quiet.peers]; exact wf.key6
  owner4 := by
    rw [quiet.peers]
    intro key p found
    obtain ⟨point, here, held⟩ := wf.owner4 key p found
    refine ⟨point, (quiet.at_iff _ p point ?_).mpr here, held⟩
    rintro rfl
    cases held
  owner6 := by
    rw [quiet.peers]
    intro key p found
    obtain ⟨point, here, held⟩ := wf.owner6 key p found
    refine ⟨point, (quiet.at_iff _ p point ?_).mpr here, held⟩
    rintro rfl
    rcases held with held | held <;> cases held
  stored4 := by rw [quiet.peers, quiet.replaced]; exact wf.stored4
  stored6 := by rw [quiet.peers, quiet.replaced]; exact wf.stored6
  history := by
    rw [quiet.replaced]
    intro i before stored
    obtain ⟨peer, admits, point, here, late⟩ := wf.history i before stored
    exact ⟨peer, admits, point, (quiet.at_iff i peer point late).mpr here, late⟩

section Moved

variable {i : Nat} {peer : HubPeer} {point point' : Point} {act : Act} {effect : Effect}

theorem number_advance (wf : Wf hub) (here : hub.At i peer point) (j : Nat) (p : HubPeer)
    (q : Point) (there : (advance hub i peer point' effect).At j p q) :
    p.session = j ∧ p.outbound = .outbound j := by
  rcases at_advance there with ⟨rfl, rfl, rfl⟩ | ⟨_, before⟩
  · exact wf.number j p point here
  · exact wf.number j p q before

/-- After a move a session still stands at a point like the one it stood at. -/
theorem at_after (good : Point → Prop) (here : hub.At i peer point) {j : Nat} {p : HubPeer}
    (moves : j = i → p = peer → good point → good point')
    (there : ∃ q, hub.At j p q ∧ good q) :
    ∃ q, (advance hub i peer point' effect).At j p q ∧ good q := by
  obtain ⟨q, there, met⟩ := there
  by_cases same : j = i
  · subst same
    obtain ⟨rfl, rfl⟩ := there.unique here
    exact ⟨point', at_advance_self, moves rfl rfl met⟩
  · exact ⟨q, (at_advance_of_ne same).mpr there, met⟩

theorem history_advance (wf : Wf hub) (here : hub.At i peer point) (late : point' ≠ .claim)
    (replaced : ∀ j before, (effect.apply hub).replaced j = some before →
      (j = i ∧ Admits peer before) ∨ hub.replaced j = some before)
    (j : Nat) (before : HubPeerIndex)
    (stored : (advance hub i peer point' effect).replaced j = some before) :
    ∃ p, Admits p before ∧ ∃ q, (advance hub i peer point' effect).At j p q ∧ q ≠ .claim := by
  rcases replaced j before stored with ⟨rfl, admits⟩ | old
  · exact ⟨peer, admits, point', at_advance_self, late⟩
  · obtain ⟨p, admits, there⟩ := wf.history j before old
    exact ⟨p, admits, at_after (fun q => q ≠ .claim) here (fun _ _ _ => late) there⟩

/-- The moves that leave the index alone. -/
theorem wf_keep (wf : Wf hub) (here : hub.At i peer point)
    (fresh : Fresh (advance hub i peer point' effect))
    (peers : (effect.apply hub).peers = hub.peers)
    (replaced : (effect.apply hub).replaced = hub.replaced)
    (holds4 : ∀ key, hub.peers.byV4.get key = some peer → point.holds = true →
      point'.holds = true)
    (holds6 : point.holds = true ∨ point = .rejected → point'.holds = true ∨ point' = .rejected)
    (late : point' ≠ .claim) :
    Wf (advance hub i peer point' effect) where
  fresh := fresh
  number := number_advance wf here
  key4 := by rw [advance_peers, peers]; exact wf.key4
  key6 := by rw [advance_peers, peers]; exact wf.key6
  owner4 := by
    rw [advance_peers, peers]
    intro key p found
    refine at_after (fun q => q.holds = true) here (fun _ same => ?_) (wf.owner4 key p found)
    subst same
    exact holds4 key found
  owner6 := by
    rw [advance_peers, peers]
    intro key p found
    exact at_after (fun q => q.holds = true ∨ q = .rejected) here (fun _ _ => holds6)
      (wf.owner6 key p found)
  stored4 := by rw [advance_peers, advance_replaced, peers, replaced]; exact wf.stored4
  stored6 := by rw [advance_peers, advance_replaced, peers, replaced]; exact wf.stored6
  history := history_advance wf here late
    fun j before stored => Or.inr (by rwa [replaced] at stored)

/-- The history after a claim's swap. -/
theorem replaced_claim (hub : State) (peer : HubPeer) (j : Nat) :
    (Admits peer hub.peers ∧ j = peer.session ∧
        ((Effect.store (claimClosure peer hub.peers) (installs peer hub.peers)).apply
          hub).replaced j = some hub.peers) ∨
      ¬ (Admits peer hub.peers ∧ j = peer.session) ∧
        ((Effect.store (claimClosure peer hub.peers) (installs peer hub.peers)).apply
          hub).replaced j = hub.replaced j := by
  by_cases admits : Admits peer hub.peers
  · simp only [Effect.apply, installs_of_admits admits]
    by_cases same : j = peer.session
    · subst same
      exact Or.inl ⟨admits, rfl, Function.update_self _ _ _⟩
    · exact Or.inr ⟨fun both => same both.2, Function.update_of_ne same _ _⟩
  · simp only [Effect.apply, installs_of_not_admits admits]
    exact Or.inr ⟨fun both => admits both.1, trivial⟩

theorem wf_claim (wf : Wf hub) (here : hub.At i peer .claim)
    (fresh : Fresh (advance hub i peer .verify
      (.store (claimClosure peer hub.peers) (installs peer hub.peers)))) :
    Wf (advance hub i peer .verify
      (.store (claimClosure peer hub.peers) (installs peer hub.peers))) := by
  have number := (wf.number i peer _ here).1
  have kept : ∀ j, hub.replaced j ≠ none →
      ((Effect.store (claimClosure peer hub.peers) (installs peer hub.peers)).apply
        hub).replaced j ≠ none := by
    intro j stored
    rcases replaced_claim hub peer j with ⟨_, _, now⟩ | ⟨_, now⟩
    · rw [now]; exact nofun
    · rw [now]; exact stored
  have own : Admits peer hub.peers →
      ((Effect.store (claimClosure peer hub.peers) (installs peer hub.peers)).apply
        hub).replaced peer.session ≠ none := by
    intro admits
    rcases replaced_claim hub peer peer.session with ⟨_, _, now⟩ | ⟨other, _⟩
    · rw [now]; exact nofun
    · exact absurd ⟨admits, rfl⟩ other
  refine ⟨fresh, number_advance wf here, ?_, ?_, ?_, ?_, ?_, ?_, ?_⟩
  · intro key p found
    rcases get_claimClosure found with ⟨rfl, rfl, _⟩ | before
    · rfl
    · exact wf.key4 key p before
  · intro key p found
    rcases get_claimClosure6 found with ⟨rfl, rfl, _⟩ | before
    · rfl
    · exact wf.key6 key p before
  · intro key p found
    rcases get_claimClosure found with ⟨_, rfl, _⟩ | before
    · rw [number]
      exact ⟨_, at_advance_self, rfl⟩
    · exact at_after (fun q => q.holds = true) here (fun _ _ _ => rfl) (wf.owner4 key p before)
  · intro key p found
    rcases get_claimClosure6 found with ⟨_, rfl, _⟩ | before
    · rw [number]
      exact ⟨_, at_advance_self, Or.inl rfl⟩
    · exact at_after (fun q => q.holds = true ∨ q = .rejected) here
        (fun _ _ _ => Or.inl rfl) (wf.owner6 key p before)
  · intro key p found
    rcases get_claimClosure found with ⟨_, rfl, admits⟩ | before
    · exact own admits
    · exact kept _ (wf.stored4 key p before)
  · intro key p found
    rcases get_claimClosure6 found with ⟨_, rfl, admits⟩ | before
    · exact own admits
    · exact kept _ (wf.stored6 key p before)
  · refine history_advance wf here nofun fun j before stored => ?_
    rcases replaced_claim hub peer j with ⟨admits, same, now⟩ | ⟨_, now⟩
    · cases now.symm.trans stored
      exact Or.inl ⟨same.trans number, admits⟩
    · exact Or.inr (now.symm.trans stored)

/-- The removal leaves no entry of its session, and no other entry goes. -/
theorem session_ne_of_removed (wf : Wf hub) (here : hub.At i peer point)
    {key : Ipv4Addr} {p : HubPeer}
    (found : (removeClosure peer.vip peer.vip6 peer.session hub.peers).byV4.get key = some p) :
    hub.peers.byV4.get key = some p ∧ p.session ≠ i := by
  obtain ⟨before, other⟩ := get_removeClosure.mp found
  refine ⟨before, fun mine => other ?_⟩
  obtain ⟨q, there, _⟩ := wf.owner4 key p before
  rw [mine] at there
  obtain ⟨rfl, _⟩ := there.unique here
  exact ⟨(wf.key4 key p before).symm, rfl⟩

theorem session_ne_of_removed6 (wf : Wf hub) (here : hub.At i peer point)
    {key : Ipv6Addr} {p : HubPeer}
    (found : (removeClosure peer.vip peer.vip6 peer.session hub.peers).byV6.get key = some p) :
    hub.peers.byV6.get key = some p ∧ p.session ≠ i := by
  obtain ⟨before, other⟩ := get_removeClosure6.mp found
  refine ⟨before, fun mine => other ?_⟩
  obtain ⟨q, there, _⟩ := wf.owner6 key p before
  rw [mine] at there
  obtain ⟨rfl, _⟩ := there.unique here
  exact ⟨(wf.key6 key p before).symm, rfl⟩

theorem wf_remove (wf : Wf hub) (here : hub.At i peer point) (late : point' ≠ .claim)
    (fresh : Fresh (advance hub i peer point'
      (.store (removeClosure peer.vip peer.vip6 peer.session hub.peers) none))) :
    Wf (advance hub i peer point'
      (.store (removeClosure peer.vip peer.vip6 peer.session hub.peers) none)) where
  fresh := fresh
  number := number_advance wf here
  key4 := fun key p found => wf.key4 key p (session_ne_of_removed wf here found).1
  key6 := fun key p found => wf.key6 key p (session_ne_of_removed6 wf here found).1
  owner4 := by
    intro key p found
    obtain ⟨before, other⟩ := session_ne_of_removed wf here found
    exact at_after (fun q => q.holds = true) here (fun same => absurd same other)
      (wf.owner4 key p before)
  owner6 := by
    intro key p found
    obtain ⟨before, other⟩ := session_ne_of_removed6 wf here found
    exact at_after (fun q => q.holds = true ∨ q = .rejected) here
      (fun same => absurd same other) (wf.owner6 key p before)
  stored4 := fun key p found => wf.stored4 key p (session_ne_of_removed wf here found).1
  stored6 := fun key p found => wf.stored6 key p (session_ne_of_removed6 wf here found).1
  history := history_advance wf here late fun _ _ stored => Or.inr stored

/-- A swap keeps the history of every claim before it. -/
theorem stored_of_index (move : IndexMove hub peer point act point' effect) {j : Nat}
    (stored : hub.replaced j ≠ none) : (effect.apply hub).replaced j ≠ none := by
  cases move with
  | claim =>
      rcases replaced_claim hub peer j with ⟨_, _, now⟩ | ⟨_, now⟩
      · rw [now]; exact nofun
      · rw [now]; exact stored
  | rejected | remove => exact stored
  | keep _ replaced => rw [replaced]; exact stored

end Moved

theorem wf_step (wf : Wf hub) (taken : (hubSystem cfg).atomic hub event = some next) :
    Wf next := by
  have fresh := fresh_step wf.fresh taken
  cases atomic_cases wf taken with
  | quiet _ quiet => exact wf_quiet wf fresh quiet
  | moved i peer here move =>
      cases move.index with
      | claim => exact wf_claim wf here fresh
      | rejected lost =>
          refine wf_keep wf here fresh rfl rfl (fun key found _ => ?_) (fun _ => Or.inr rfl) nofun
          rw [← wf.key4 key peer found] at found
          exact absurd ⟨peer, found, rfl⟩ lost
      | remove _ _ late _ => exact wf_remove wf here late fresh
      | keep peers replaced same later late cleaned stays =>
          refine wf_keep wf here fresh peers replaced (fun _ _ held => by rw [same]; exact held)
            ?_ late
          rintro (held | lost)
          · exact Or.inl (by rw [same]; exact held)
          · exact absurd lost stays

end LinkP2p.Tun.Hub
