import LinkP2p.Tun.HubInvariant

/-!
# Hidden spokes on the roster

The hub learns that a spoke wants to be hidden from the HELLO on its control
stream, and takes a spoke whose HELLO it cannot read in time for a visible one.
-/

namespace LinkP2p.Tun.Hub

open LinkP2p.Lib LinkP2p.Lib.Transition LinkP2p.Lib.Rcu

variable {cfg : HubConfig} {seen : HubPeerIndex} {hub next : State} {event : Event}
  {p : EndpointId} {own : OwnVips}

def entriesOf : RosterMsg → List RosterEntry
  | .snapshot entries => entries
  | .joined e | .left e => [e]

/-- The message contains the peer's id or one of its addresses. -/
def Names (p : EndpointId) (own : OwnVips) (msg : RosterMsg) : Prop :=
  ∃ e ∈ entriesOf msg, e.id = p ∨ e.vip = own.v4 ∨ e.vip6 = own.v6

/-- No roster message that the step sends to another spoke names `p`. -/
structure Conceals (cfg : HubConfig) (p : EndpointId) (own : OwnVips) (hub : State)
    (event : Event) : Prop where
  written : ∀ i act peer point msg, event = .act i act → hub.At i peer point → peer.id ≠ p →
    effectOf cfg hub.peers hub event = .write msg → ¬ Names p own msg
  queued : ∀ j msg, effectOf cfg hub.peers hub event = .enqueue (.roster j) msg →
    ∀ peer point, hub.At j peer point → peer.id ≠ p → ¬ Names p own msg

/-- Every session of `p` announces its addresses and sends HELLO with the hidden
flag, of which some part arrives in time. -/
def Hides (p : EndpointId) (own : OwnVips) (hub : State) : Event → Prop
  | .act i (.exchanged peer) => hub.tasks i = some (.exchanging p) → peer = own
  | .act i (.controlOpened hello) => ∀ peer, hub.tasks i = some (.opening p peer) →
      ∃ arrived, arrived <+: encodeHello true ∧ hello = readHello arrived
  | _ => True

/-- The hub reads the HELLO of `p`, and no visible peer has the addresses of `p`. -/
def Heard (p : EndpointId) (own : OwnVips) (hub : State) : Event → Prop
  | .act i (.controlOpened hello) => ∀ q peer, hub.tasks i = some (.opening q peer) →
      if q = p then hello ≠ none
      else hello = some true ∨ peer.v4 ≠ own.v4 ∧ peer.v6 ≠ own.v6
  | _ => True

/-- The peer is hidden, or has neither the id nor an address of `p`. -/
def Masked (p : EndpointId) (own : OwnVips) (peer : HubPeer) : Prop :=
  peer.hidden = true ∨ peer.id ≠ p ∧ peer.vip ≠ own.v4 ∧ peer.vip6 ≠ own.v6

/-- The session is sending `Joined` or `Left`, or about to. -/
def Point.broadcasts : Point → Bool
  | .collectJoined | .sendJoined _ | .collectLeft _ | .sendLeft _ _ => true
  | _ => false

structure Concealed (p : EndpointId) (own : OwnVips) (hub : State) : Prop where
  masked : ∀ i peer point, hub.At i peer point → Masked p own peer
  shown : ∀ i peer point, hub.At i peer point → point.broadcasts = true → peer.hidden = false

theorem concealed_start : Concealed p own .start where
  masked _ _ _ here := absurd here nofun
  shown _ _ _ here := absurd here nofun

/-- Only a visible session comes to broadcast. -/
theorem Moves.shown {peer : HubPeer} {point point' : Point} {act : Act} {effect : Effect}
    (move : Moves cfg seen hub peer point act point' effect)
    (before : point.broadcasts = true → peer.hidden = false)
    (broadcasts : point'.broadcasts = true) : peer.hidden = false := by
  cases move with
  | snapshotShown _ shown | removeFanShown _ shown => exact shown
  | collectJoined | sendJoined | collectLeft | sendLeft => exact before rfl
  | _ => cases broadcasts

/-- A HELLO of `p` that is read has the hidden flag. -/
theorem masked_opened {i : Nat} {q : EndpointId} {peer : OwnVips} {hello : Option Bool}
    (hides : Hides p own hub (.act i (.controlOpened hello)))
    (heard : Heard p own hub (.act i (.controlOpened hello)))
    (here : hub.tasks i = some (.opening q peer)) :
    Masked p own ⟨q, i, peer.v4, peer.v6, .outbound i, hello.getD false⟩ := by
  have told := heard q peer here
  split at told
  · rename_i same
    subst same
    obtain ⟨arrived, sent, rfl⟩ := hides peer here
    rw [readHello_encodeHello true sent] at told ⊢
    split
    · exact Or.inl rfl
    · rename_i cut
      exact absurd (if_neg cut) told
  · rename_i other
    rcases told with rfl | ⟨v4, v6⟩
    · exact Or.inl rfl
    · exact Or.inr ⟨other, v4, v6⟩

/-- A task that is replaced by one that meets the invariant. -/
theorem Concealed.update (concealed : Concealed p own hub) {i : Nat} {task : Task}
    (tasks : next.tasks = Function.update hub.tasks i (some task))
    (masked : ∀ peer point, task = .at peer point → Masked p own peer)
    (shown : ∀ peer point, task = .at peer point → point.broadcasts = true →
      peer.hidden = false) : Concealed p own next where
  masked j peer point here := by
    by_cases same : j = i
    · subst same
      exact masked peer point ((at_update_self tasks).mp here)
    · exact concealed.masked j peer point ((at_update_of_ne tasks same).mp here)
  shown j peer point here broadcasts := by
    by_cases same : j = i
    · subst same
      exact shown peer point ((at_update_self tasks).mp here) broadcasts
    · exact concealed.shown j peer point ((at_update_of_ne tasks same).mp here) broadcasts

theorem concealed_step (concealed : Concealed p own hub) (hides : Hides p own hub event)
    (heard : Heard p own hub event) (stepped : step cfg seen hub event = some next) :
    Concealed p own next := by
  cases event with
  | accept peerId =>
      cases stepped
      by_cases allowed : checkAllow cfg.allow peerId = true
      · refine concealed.update (if_pos allowed) ?_ ?_
        · rintro _ _ ⟨⟩
        · rintro _ _ ⟨⟩
      · have tasks : (if checkAllow cfg.allow peerId = true then
            Function.update hub.tasks (hub.sessionSeq + 1) (some (.exchanging peerId))
          else hub.tasks) = hub.tasks := if_neg allowed
        refine ⟨fun j peer point here => concealed.masked j peer point ?_,
          fun j peer point here => concealed.shown j peer point ?_⟩
        · rw [State.At, tasks] at here
          exact here
        · rw [State.At, tasks] at here
          exact here
  | act i act =>
      obtain ⟨task, task', effect, found, moves, rfl, _⟩ := act_cases stepped
      cases moves with
      | exchanged | aborted =>
          refine concealed.update rfl ?_ ?_
          · rintro _ _ ⟨⟩
          · rintro _ _ ⟨⟩
      | opened q peer hello =>
          have masked := masked_opened hides heard found
          refine concealed.update rfl ?_ ?_
          · rintro _ _ ⟨⟩
            exact masked
          · rintro _ _ ⟨⟩ broadcasts
            cases broadcasts
      | moved peer move =>
          refine concealed.update rfl ?_ ?_
          · rintro _ _ ⟨⟩
            exact concealed.masked i peer _ found
          · rintro _ _ ⟨⟩
            exact move.shown (concealed.shown i peer _ found)

/-! ## What the messages contain -/

/-- A visible peer that is masked has nothing of `p`. -/
theorem not_names_entry {peer : HubPeer} (masked : Masked p own peer)
    (shown : peer.hidden = false) :
    ¬ (peer.entry.id = p ∨ peer.entry.vip = own.v4 ∨ peer.entry.vip6 = own.v6) := by
  rcases masked with hidden | ⟨id, v4, v6⟩
  · cases hidden.symm.trans shown
  · exact not_or.mpr ⟨id, not_or.mpr ⟨v4, v6⟩⟩

/-- The hub itself is not `p`. -/
structure Elsewhere (cfg : HubConfig) (p : EndpointId) (own : OwnVips) : Prop where
  id : cfg.ownId ≠ p
  v4 : cfg.own.v4 ≠ own.v4
  v6 : cfg.own.v6 ≠ own.v6

theorem not_names_snapshot (wf : Wf hub) (concealed : Concealed p own hub)
    (elsewhere : Elsewhere cfg p own) {entries : List RosterEntry}
    (listed : (entries : Multiset RosterEntry) = hubRosterSnapshot cfg hub.peers) :
    ¬ Names p own (encodeSnapshot entries) := by
  rintro ⟨e, member, named⟩
  have inSnapshot : e ∈ hubRosterSnapshot cfg hub.peers := by
    rw [← listed]
    exact Multiset.mem_coe.mpr (List.mem_of_mem_take member)
  rcases Multiset.mem_cons.mp inSnapshot with rfl | inIndex
  · rcases named with id | v4 | v6
    · exact elsewhere.id id
    · exact elsewhere.v4 v4
    · exact elsewhere.v6 v6
  · obtain ⟨peer, kept, rfl⟩ := Multiset.mem_map.mp inIndex
    obtain ⟨present, shown⟩ := Multiset.mem_filter.mp kept
    obtain ⟨key, found⟩ := HashMap.mem_values.mp present
    obtain ⟨_, there, _⟩ := wf.owner4 key peer found
    exact not_names_entry (concealed.masked _ _ _ there) shown named

/-- What a session writes or sends does not name `p`. -/
theorem Moves.not_names (wf : Wf hub) (concealed : Concealed p own hub)
    (elsewhere : Elsewhere cfg p own) {i : Nat} {peer : HubPeer} {point point' : Point} {act : Act}
    {effect : Effect} (here : hub.At i peer point)
    (move : Moves cfg seen hub peer point act point' effect) {msg : RosterMsg}
    (sent : effect = .write msg ∨ ∃ fan, effect = .enqueue fan msg) : ¬ Names p own msg := by
  have masked := concealed.masked i peer point here
  cases move with
  | snapshotHidden entries _ listed | snapshotShown entries _ listed =>
      rcases sent with same | ⟨_, same⟩
      · cases same
        exact not_names_snapshot wf concealed elsewhere listed
      · cases same
  | sendJoined | sendLeft =>
      have shown := concealed.shown i peer _ here rfl
      rcases sent with same | ⟨_, same⟩
      · cases same
      · cases same
        rintro ⟨e, member, named⟩
        cases List.mem_singleton.mp member
        exact not_names_entry masked shown named
  | _ => rcases sent with same | ⟨_, same⟩ <;> cases same

theorem conceals_of_concealed (wf : Wf hub) (concealed : Concealed p own hub)
    (elsewhere : Elsewhere cfg p own) (stepped : step cfg hub.peers hub event = some next) :
    Conceals cfg p own hub event := by
  have silent : ∀ msg, effectOf cfg hub.peers hub event = .write msg ∨
      (∃ fan, effectOf cfg hub.peers hub event = .enqueue fan msg) → ¬ Names p own msg := by
    intro msg sent
    cases event with
    | accept peerId => rcases sent with same | ⟨_, same⟩ <;> cases same
    | act i act =>
        obtain ⟨task, task', effect, found, moves, _, same⟩ := act_cases stepped
        rw [same] at sent
        cases moves with
        | exchanged | aborted | opened => rcases sent with same | ⟨_, same⟩ <;> cases same
        | moved peer move => exact move.not_names wf concealed elsewhere found sent
  exact ⟨fun _ _ _ _ msg _ _ _ sent => silent msg (Or.inl sent),
    fun _ msg sent _ _ _ _ => silent msg (Or.inr ⟨_, sent⟩)⟩

/-- **Hidden spokes stay off the roster.** Let every session of `p` send HELLO
with the hidden flag. In a run in which the hub reads each of these HELLOs and
neither the hub nor a visible peer has an address of `p`, no roster message to
another spoke contains the id or an address of `p`. -/
theorem hidden_spoke_concealed (cfg : HubConfig) (p : EndpointId) (own : OwnVips)
    (elsewhere : Elsewhere cfg p own) (events : List (RetryEvent Event Nat))
    (hides : AllSteps (retryStep (hubSystem cfg)) (OnActs (Hides p own)) (.start .start) events)
    (heard : AllSteps (retryStep (hubSystem cfg)) (OnActs (Heard p own)) (.start .start) events) :
    AllSteps (retryStep (hubSystem cfg)) (OnActs (Conceals cfg p own)) (.start .start) events := by
  have both : AllSteps (retryStep (hubSystem cfg))
      (OnActs fun hub event => Hides p own hub event ∧ Heard p own hub event)
      (.start .start) events := by
    refine (hides.and heard).mono fun state event _ _ met => ?_
    cases event with
    | act => exact met
    | load | retry => trivial
  refine retry_allSteps (I := fun hub => Wf hub ∧ Concealed p own hub) ?_
    ⟨wf_start, concealed_start⟩ both
  intro hub event next ⟨wf, concealed⟩ ⟨hidden, told⟩ stepped
  exact ⟨⟨wf_step wf stepped, concealed_step concealed hidden told stepped⟩,
    conceals_of_concealed wf concealed elsewhere stepped⟩

/-- The addresses of peer 1. -/
def hidingVips : OwnVips := ⟨0xAC180001, 0xfd24ac18000000000000000000000001⟩

/-- Peer 2 is attached; peer 1 attaches, and `hello` is what the hub has read of
its HELLO. -/
def hidingRun (hello : Option Bool) : List (RetryEvent Event Nat) :=
  attach 1 2 ⟨0xAC180002, 0xfd24ac18000000000000000000000002⟩ (some true) ++ swap 1 .claim ++
  [.act (.act 1 .verify), .act (.act 1 .insertFan), .act (.act 1 (.addRoute true)),
    .act (.act 1 (.addRoute true)),
    .act (.act 1 (.snapshot [⟨0xAC1800FE, 0xfd24ac180000000000000000000000fe, 9⟩]))] ++
  attach 2 1 hidingVips hello ++ swap 2 .claim ++
  [.act (.act 2 .verify), .act (.act 2 .insertFan), .act (.act 2 (.addRoute true)),
    .act (.act 2 (.addRoute true))]

theorem hiding_hides {hello : Option Bool} {arrived : List UInt8}
    (sent : arrived <+: encodeHello true) (read : hello = readHello arrived) :
    AllSteps (retryStep (hubSystem openHub)) (OnActs (Hides 1 hidingVips)) (.start .start)
      (hidingRun hello) := by
  have other : (2 : EndpointId) ≠ 1 := by decide
  apply AllSteps.cons rfl trivial
  apply AllSteps.cons rfl fun same => absurd (Task.exchanging.inj (Option.some.inj same)) other
  apply AllSteps.cons rfl fun _ same => absurd (Task.opening.inj (Option.some.inj same)).1 other
  apply AllSteps.cons rfl trivial
  apply AllSteps.cons rfl trivial
  apply AllSteps.cons rfl trivial
  apply AllSteps.cons rfl trivial
  apply AllSteps.cons rfl trivial
  apply AllSteps.cons rfl trivial
  apply AllSteps.cons rfl trivial
  apply AllSteps.cons rfl trivial
  apply AllSteps.cons rfl fun _ => rfl
  apply AllSteps.cons rfl fun _ _ => ⟨arrived, sent, read⟩
  apply AllSteps.cons rfl trivial
  apply AllSteps.cons rfl trivial
  apply AllSteps.cons rfl trivial
  apply AllSteps.cons rfl trivial
  apply AllSteps.cons rfl trivial
  apply AllSteps.cons rfl trivial
  trivial

/-- A HELLO that is read with the hidden flag is heard. -/
theorem heard_hidden (i : Nat) :
    Heard p own hub (.act i (.controlOpened (some true))) := by
  intro q peer _
  split
  · exact nofun
  · exact Or.inl rfl

theorem hiding_heard :
    AllSteps (retryStep (hubSystem openHub)) (OnActs (Heard 1 hidingVips)) (.start .start)
      (hidingRun (some true)) := by
  refine AllSteps.of_mem fun event member state => ?_
  simp only [hidingRun, attach, swap, List.cons_append, List.nil_append, List.mem_cons,
    List.not_mem_nil, or_false] at member
  rcases member with rfl | rfl | rfl | rfl | rfl | rfl | rfl | rfl | rfl | rfl | rfl | rfl | rfl |
    rfl | rfl | rfl | rfl | rfl | rfl
  all_goals first | trivial | exact heard_hidden _

theorem hidden_spoke_concealed_read :
    AllSteps (retryStep (hubSystem openHub)) (OnActs (Conceals openHub 1 hidingVips))
      (.start .start) (hidingRun (some true)) :=
  hidden_spoke_concealed openHub 1 hidingVips ⟨by decide, by decide, by decide⟩ _
    (hiding_hides List.prefix_rfl rfl) hiding_heard

/-- Peer 1's HELLO does not arrive in time, and peer 2 gets its `Joined`. -/
theorem late_hello_named :
    AllSteps (retryStep (hubSystem openHub)) (OnActs (Hides 1 hidingVips)) (.start .start)
        (hidingRun none) ∧
      ¬ AllSteps (retryStep (hubSystem openHub)) (OnActs (Conceals openHub 1 hidingVips))
        (.start .start)
        (hidingRun none ++ [.act (.act 2 (.snapshot
          [⟨0xAC1800FE, 0xfd24ac180000000000000000000000fe, 9⟩,
            ⟨hidingVips.v4, hidingVips.v6, 1⟩])), .act (.act 2 .collect),
          .act (.act 2 (.send (.roster 1)))]) := by
  refine ⟨hiding_hides List.nil_prefix rfl, fun conceals => ?_⟩
  have met := allSteps_iff_prefix.mp conceals (hidingRun none ++ [.act (.act 2 (.snapshot
    [⟨0xAC1800FE, 0xfd24ac180000000000000000000000fe, 9⟩,
      ⟨hidingVips.v4, hidingVips.v6, 1⟩])), .act (.act 2 .collect)])
    (.act (.act 2 (.send (.roster 1)))) [] _ _ rfl rfl rfl
  exact met.queued 1 _ rfl _ _ rfl (by decide) ⟨_, List.mem_singleton_self _, Or.inl rfl⟩

end LinkP2p.Tun.Hub
