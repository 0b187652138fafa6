import LinkP2p.Tun.Announced

/-!
# Packets in a mesh that runs

The hub and the spokes of a mesh run with any interleaving of their tasks. A
connection has two ends: the hub accepts what a spoke has dialled, a spoke what
another one has. As long as every station announces its own addresses, the tables
are right at every moment, and a packet comes out where its destination is.
-/

namespace LinkP2p.Tun.Journey

open LinkP2p.Lib LinkP2p.Lib.Transition LinkP2p.Lib.Rcu
open LinkP2p.Tun.Sender (Wire)
open LinkP2p.Tun.Hub (HubPeer HubPeerIndex HubConfig hubSystem)
open LinkP2p.Tun.Spoke (SpokeMesh Config Linked)

/-! ## All of them together -/

/-- The mesh, and what its processes are started with. -/
structure Deployment where
  plan : Plan
  hubAllow : Option (Finset EndpointId)
  hidden : EndpointId → Bool
  allow : EndpointId → Option (List EndpointId)

/-- Nothing is connected. -/
def Fleet.start : Fleet where
  hub := .start .start
  spoke _ := .start
  conn _ := none
  serves _ _ := none
  far _ _ := none

def setFar (far : EndpointId → Nat → Option (EndpointId × Nat)) (p : EndpointId) (n : Nat)
    (q : EndpointId) (m : Nat) : EndpointId → Nat → Option (EndpointId × Nat) :=
  Function.update far p (Function.update (far p) n (some (q, m)))

namespace Deployment

inductive Event where
  /-- The hub accepts a connection of the spoke: the one that its session loop has dialled, or
  one that is of no use any more. -/
  | accept (p : EndpointId) (dialled : Bool)
  /-- A step of one of the hub's tasks. -/
  | hub (event : RetryEvent Hub.Event Nat)
  | spoke (p : EndpointId) (event : Spoke.Event)
  /-- Spoke `q` accepts the connection that task `n` of spoke `p` has dialled. -/
  | link (p : EndpointId) (n : Nat) (q : EndpointId)

variable (d : Deployment)

def hubConfig : HubConfig := ⟨d.plan.hubId, d.plan.hub, d.hubAllow⟩

def config (p : EndpointId) (own : OwnVips) : Config :=
  ⟨p, own, d.plan.hubId, d.hidden p, d.allow p⟩

def hubStep (hub : Retrying Hub.State Nat HubPeerIndex) :
    RetryEvent Hub.Event Nat → Option (Retrying Hub.State Nat HubPeerIndex) :=
  retryStep (hubSystem d.hubConfig) hub

/-- The session loop waits for the hub to accept. -/
def waits (fleet : Fleet) (p : EndpointId) : Bool :=
  decide ((fleet.spoke p).session = .offering) && (fleet.conn p).isNone

/-- Task `n` of spoke `p` is dialling spoke `q`. -/
def dials (fleet : Fleet) (p : EndpointId) (n : Nat) (q : EndpointId) : Bool :=
  match (fleet.spoke p).tasks[n]? with
  | some (.connecting e) | some (.offering e) => decide (e.id = q) && (fleet.far p n).isNone
  | _ => false

/-- The hub's end of the connection of the session loop after a step of the spoke. -/
def connAfter (fleet : Fleet) (p : EndpointId) : Spoke.Event → Option Nat
  | .dialHub => none
  | _ => fleet.conn p

/-- The hub's ends of the connections of the sessions: the table gets the connection that the
session loop has. -/
def servesAfter (fleet : Fleet) (p : EndpointId) : Spoke.Event → Nat → Option Nat
  | .store .session =>
      match (fleet.spoke p).session with
      | .entering _ =>
          Function.update (fleet.serves p) (fleet.spoke p).sessions (fleet.conn p)
      | _ => fleet.serves p
  | _ => fleet.serves p

/-- The hub answers over a connection that it has accepted. -/
def possible (fleet : Fleet) (p : EndpointId) : Spoke.Event → Bool
  | .hubAnswer _ => (fleet.conn p).isSome
  | _ => true

def step (fleet : Fleet) : Event → Option Fleet
  | .accept p dialled =>
      if dialled = true ∧ waits fleet p = false then none
      else (d.hubStep fleet.hub (.act (.accept p))).map fun hub =>
        { fleet with
          hub := hub
          conn := if dialled then Function.update fleet.conn p (some hub.base.sessionSeq)
            else fleet.conn }
  | .hub (.act (.accept _)) => none
  | .hub event => (d.hubStep fleet.hub event).map fun hub => { fleet with hub := hub }
  | .spoke p event =>
      (d.plan.spoke p).bind fun own =>
        if possible fleet p event then
          (Spoke.step (d.config p own) (fleet.spoke p) event).map fun state =>
            { fleet with
              spoke := Function.update fleet.spoke p state
              conn := Function.update fleet.conn p (connAfter fleet p event)
              serves := Function.update fleet.serves p (servesAfter fleet p event) }
        else none
  | .link p n q =>
      (d.plan.spoke q).bind fun own =>
        if (d.plan.spoke p).isSome && dials fleet p n q then
          (Spoke.step (d.config q own) (fleet.spoke q) (.accept .tun p)).map fun state =>
            let m := (fleet.spoke q).tasks.length
            { fleet with
              spoke := Function.update fleet.spoke q state
              -- a connection that is refused has no task
              far := if state.tasks.length = m then fleet.far
                else setFar (setFar fleet.far p n q m) q m p n }
        else none

/-- Every station announces its own addresses. -/
def told (fleet : Fleet) : Event → Bool
  | .hub (.act event) => d.plan.hubTold fleet.hub.base event
  | .spoke p event => d.plan.spokeTold (fleet.spoke p) event
  | _ => true

/-! ## The invariant -/

/-- Each station is right, and each end of a connection knows the other. -/
structure Sane (fleet : Fleet) : Prop where
  fresh : Fresh (hubSystem d.hubConfig) fleet.hub
  hub : d.plan.HubRight fleet.hub.base
  spoke : ∀ p own, d.plan.spoke p = some own →
    d.plan.SpokeRight (d.config p own) (fleet.spoke p)
  conn : ∀ p i, fleet.conn p = some i → Belongs fleet.hub.base p i
  serves : ∀ p s i, fleet.serves p s = some i → Belongs fleet.hub.base p i
  far : ∀ p n q m, fleet.far p n = some (q, m) → (d.plan.spoke q).isSome = true ∧
    With (fleet.spoke p).tasks n q ∧ With (fleet.spoke q).tasks m p

theorem sane_start : d.Sane .start where
  fresh := fresh_start _ _
  hub := ⟨Hub.wf_start, nofun⟩
  spoke _ _ _ := Plan.spokeRight_start
  conn := nofun
  serves := nofun
  far := nofun

variable {d} {fleet next : Fleet}

/-- What a step of the hub keeps. -/
theorem hub_step (sane : d.Sane fleet) {event : RetryEvent Hub.Event Nat}
    {hub : Retrying Hub.State Nat HubPeerIndex}
    (told : OnActs (fun hub event => d.plan.hubTold hub event = true) fleet.hub event)
    (taken : d.hubStep fleet.hub event = some hub) :
    (Fresh (hubSystem d.hubConfig) hub ∧ d.plan.HubRight hub.base) ∧
      ∀ p i, Belongs fleet.hub.base p i → Belongs hub.base p i := by
  refine ⟨lift_step (fun _ _ _ => Plan.hubRight_step) ⟨sane.fresh, sane.hub⟩ told taken, ?_⟩
  intro p i belongs
  cases event with
  | load thread =>
      rw [base_of_load taken]
      exact belongs
  | retry thread =>
      rw [base_of_retry taken]
      exact belongs
  | act event => exact belongs_step belongs (act_atomic sane.fresh taken)

theorem sane_hub (sane : d.Sane fleet) {hub : Retrying Hub.State Nat HubPeerIndex}
    (right : Fresh (hubSystem d.hubConfig) hub ∧ d.plan.HubRight hub.base)
    (kept : ∀ p i, Belongs fleet.hub.base p i → Belongs hub.base p i) :
    d.Sane { fleet with hub := hub } where
  fresh := right.1
  hub := right.2
  spoke := sane.spoke
  conn p i found := kept p i (sane.conn p i found)
  serves p s i found := kept p i (sane.serves p s i found)
  far := sane.far

/-- What a step of one spoke keeps of all of them. -/
theorem spoke_update (sane : d.Sane fleet) {p : EndpointId} {own : OwnVips} {state : Spoke.State}
    {event : Spoke.Event} (here : d.plan.spoke p = some own)
    (told : d.plan.spokeTold (fleet.spoke p) event = true)
    (taken : Spoke.step (d.config p own) (fleet.spoke p) event = some state) :
    (∀ q other, d.plan.spoke q = some other →
      d.plan.SpokeRight (d.config q other) (Function.update fleet.spoke p state q)) ∧
    ∀ q n r, With (fleet.spoke q).tasks n r →
      With (Function.update fleet.spoke p state q).tasks n r := by
  constructor
  · refine (Function.forall_update_iff fleet.spoke fun q state => ∀ other,
      d.plan.spoke q = some other → d.plan.SpokeRight (d.config q other) state).mpr
        ⟨fun other there => ?_, fun q _ => sane.spoke q⟩
    cases here.symm.trans there
    exact Plan.spokeRight_step (sane.spoke p own here) told taken
  · intro q n r facing
    rcases eq_or_ne q p with rfl | other
    · rw [Function.update_self]
      exact with_step facing taken
    · rw [Function.update_of_ne other]
      exact facing

/-- The hub's end of every connection of a spoke is a session of that spoke. -/
theorem belongs_after (sane : d.Sane fleet) (p : EndpointId) (event : Spoke.Event) :
    (∀ i, connAfter fleet p event = some i → Belongs fleet.hub.base p i) ∧
      ∀ s i, servesAfter fleet p event s = some i → Belongs fleet.hub.base p i := by
  constructor
  · intro i found
    unfold connAfter at found
    split at found
    · cases found
    · exact sane.conn p i found
  · have entered : ∀ s i, Function.update (fleet.serves p) (fleet.spoke p).sessions
        (fleet.conn p) s = some i → Belongs fleet.hub.base p i := by
      intro s i found
      by_cases new : s = (fleet.spoke p).sessions
      · subst new
        rw [Function.update_self] at found
        exact sane.conn p i found
      · rw [Function.update_of_ne new] at found
        exact sane.serves p s i found
    intro s i found
    cases event with
    | store updater =>
        cases updater with
        | session =>
            cases loop : (fleet.spoke p).session with
            | entering hub =>
                rw [servesAfter, loop] at found
                exact entered s i found
            | _ =>
                rw [servesAfter, loop] at found
                exact sane.serves p s i found
        | reader | task => exact sane.serves p s i found
    | _ => exact sane.serves p s i found

theorem setFar_cases {far : EndpointId → Nat → Option (EndpointId × Nat)} {p q a b : EndpointId}
    {n m k l : Nat} (found : setFar far p n q m a k = some (b, l)) :
    (a = p ∧ k = n ∧ b = q ∧ l = m) ∨ far a k = some (b, l) := by
  unfold setFar at found
  by_cases station : a = p
  · subst station
    rw [Function.update_self] at found
    by_cases task : k = n
    · subst task
      rw [Function.update_self] at found
      cases found
      exact .inl ⟨rfl, rfl, rfl, rfl⟩
    · rw [Function.update_of_ne task] at found
      exact .inr found
  · rw [Function.update_of_ne station] at found
    exact .inr found

theorem with_of_dials {p q : EndpointId} {n : Nat} (dialled : dials fleet p n q = true) :
    With (fleet.spoke p).tasks n q := by
  unfold dials at dialled
  split at dialled
  · rename_i e here
    rw [Bool.and_eq_true, decide_eq_true_iff] at dialled
    refine ⟨_, here, ?_⟩
    rintro _ ⟨⟩
    exact dialled.1
  · rename_i e here
    rw [Bool.and_eq_true, decide_eq_true_iff] at dialled
    refine ⟨_, here, ?_⟩
    rintro _ ⟨⟩
    exact dialled.1
  · cases dialled

/-- A connection that is admitted is the new task of the spoke. -/
theorem with_of_admitted {config : Config} {state state' : Spoke.State} {p : EndpointId}
    (taken : Spoke.step config state (.accept .tun p) = some state')
    (admitted : state'.tasks.length ≠ state.tasks.length) :
    With state'.tasks state.tasks.length p := by
  cases Spoke.step_move taken with
  | ignored => exact absurd rfl admitted
  | admitted =>
      refine ⟨.answering p, List.getElem?_concat_length, ?_⟩
      rintro _ ⟨⟩
      rfl

/-- The hub accepts a connection, which gets a session of its own. -/
theorem sane_accept (sane : d.Sane fleet) {p : EndpointId}
    {hub : Retrying Hub.State Nat HubPeerIndex}
    (accepted : d.hubStep fleet.hub (.act (.accept p)) = some hub) (dialled : Bool) :
    d.Sane { fleet with
      hub := hub
      conn := if dialled then Function.update fleet.conn p (some hub.base.sessionSeq)
        else fleet.conn } := by
  have onActs : OnActs (fun hub event => d.plan.hubTold hub event = true) fleet.hub
      (.act (.accept p)) := rfl
  obtain ⟨right, kept⟩ := hub_step sane onActs accepted
  have sane' := sane_hub sane right kept
  refine { sane' with conn := ?_ }
  cases dialled with
  | false => exact sane'.conn
  | true =>
      refine (Function.forall_update_iff fleet.conn fun q found => ∀ i,
        found = some i → Belongs hub.base q i).mpr ⟨?_, fun q _ => sane'.conn q⟩
      rintro _ ⟨⟩
      have stepped : Hub.step d.hubConfig fleet.hub.base.peers fleet.hub.base (.accept p) =
          some hub.base := act_atomic sane.fresh accepted
      exact belongs_accept sane.hub.wf.fresh stepped

theorem sane_spoke (sane : d.Sane fleet) {p : EndpointId} {own : OwnVips} {state : Spoke.State}
    {event : Spoke.Event} (here : d.plan.spoke p = some own)
    (told : d.plan.spokeTold (fleet.spoke p) event = true)
    (taken : Spoke.step (d.config p own) (fleet.spoke p) event = some state) :
    d.Sane { fleet with
      spoke := Function.update fleet.spoke p state
      conn := Function.update fleet.conn p (connAfter fleet p event)
      serves := Function.update fleet.serves p (servesAfter fleet p event) } := by
  obtain ⟨right, facing⟩ := spoke_update sane here told taken
  obtain ⟨conn, serves⟩ := belongs_after sane p event
  refine ⟨sane.fresh, sane.hub, right, ?_, ?_, fun q n r m found => ?_⟩
  · exact (Function.forall_update_iff fleet.conn fun q found => ∀ i,
      found = some i → Belongs fleet.hub.base q i).mpr ⟨conn, fun q _ => sane.conn q⟩
  · exact (Function.forall_update_iff fleet.serves fun q found => ∀ s i,
      found s = some i → Belongs fleet.hub.base q i).mpr ⟨serves, fun q _ => sane.serves q⟩
  · obtain ⟨planned, near, back⟩ := sane.far q n r m found
    exact ⟨planned, facing q n r near, facing r m q back⟩

/-- A spoke accepts a connection that another one has dialled. -/
theorem sane_link (sane : d.Sane fleet) {p q : EndpointId} {n : Nat} {own : OwnVips}
    {state : Spoke.State} (there : d.plan.spoke q = some own)
    (planned : (d.plan.spoke p).isSome = true) (dialled : dials fleet p n q = true)
    (taken : Spoke.step (d.config q own) (fleet.spoke q) (.accept .tun p) = some state) :
    d.Sane { fleet with
      spoke := Function.update fleet.spoke q state
      far := if state.tasks.length = (fleet.spoke q).tasks.length then fleet.far
        else setFar (setFar fleet.far p n q (fleet.spoke q).tasks.length) q
          (fleet.spoke q).tasks.length p n } := by
  obtain ⟨right, facing⟩ := spoke_update sane there rfl taken
  have kept : ∀ a k b l, fleet.far a k = some (b, l) → (d.plan.spoke b).isSome = true ∧
      With (Function.update fleet.spoke q state a).tasks k b ∧
        With (Function.update fleet.spoke q state b).tasks l a := by
    intro a k b l found
    obtain ⟨planned, near, back⟩ := sane.far a k b l found
    exact ⟨planned, facing a k b near, facing b l a back⟩
  refine ⟨sane.fresh, sane.hub, right, sane.conn, sane.serves, fun a k b l found => ?_⟩
  dsimp only at found
  split at found
  · exact kept a k b l found
  · rename_i admitted
    have near := facing p n q (with_of_dials dialled)
    have back : With (Function.update fleet.spoke q state q).tasks
        (fleet.spoke q).tasks.length p := by
      rw [Function.update_self]
      exact with_of_admitted taken admitted
    rcases setFar_cases found with ⟨rfl, rfl, rfl, rfl⟩ | before
    · exact ⟨planned, back, near⟩
    · rcases setFar_cases before with ⟨rfl, rfl, rfl, rfl⟩ | old
      · exact ⟨Option.isSome_iff_exists.mpr ⟨own, there⟩, near, back⟩
      · exact kept a k b l old

theorem sane_step (fleet : Fleet) (event : Event) (next : Fleet) (sane : d.Sane fleet)
    (told : d.told fleet event = true) (taken : d.step fleet event = some next) :
    d.Sane next := by
  cases event with
  | accept p dialled =>
      obtain ⟨_, stepped⟩ := Option.ite_none_left_eq_some.mp taken
      obtain ⟨hub, accepted, rfl⟩ := Option.map_eq_some_iff.mp stepped
      exact sane_accept sane accepted dialled
  | hub event =>
      have stepped : (d.hubStep fleet.hub event).map (fun hub => { fleet with hub := hub }) =
          some next := by
        cases event with
        | load | retry => exact taken
        | act event =>
            cases event with
            | accept => cases taken
            | act => exact taken
      obtain ⟨hub, moved, rfl⟩ := Option.map_eq_some_iff.mp stepped
      have onActs : OnActs (fun hub event => d.plan.hubTold hub event = true) fleet.hub event := by
        cases event with
        | load | retry => trivial
        | act event => exact told
      obtain ⟨right, kept⟩ := hub_step sane onActs moved
      exact sane_hub sane right kept
  | spoke p event =>
      obtain ⟨own, here, stepped⟩ := Option.bind_eq_some_iff.mp taken
      obtain ⟨_, stepped⟩ := Option.ite_none_right_eq_some.mp stepped
      obtain ⟨state, moved, rfl⟩ := Option.map_eq_some_iff.mp stepped
      exact sane_spoke sane here told moved
  | link p n q =>
      obtain ⟨own, there, stepped⟩ := Option.bind_eq_some_iff.mp taken
      obtain ⟨dialled, stepped⟩ := Option.ite_none_right_eq_some.mp stepped
      obtain ⟨planned, dialled⟩ := (Bool.and_eq_true _ _).mp dialled
      obtain ⟨state, moved, rfl⟩ := Option.map_eq_some_iff.mp stepped
      exact sane_link sane there planned dialled moved

/-- The task at the other end of a link has the peer's addresses. -/
theorem announced_of_linked (sane : d.Sane fleet) {p q : EndpointId} {own peer : OwnVips} {n : Nat}
    (here : d.plan.spoke p = some own) {r : EndpointId} (facing : With (fleet.spoke p).tasks n q)
    (linked : Linked (fleet.spoke p).tasks n r peer) (planned : (d.plan.spoke q).isSome = true) :
    d.plan.spoke q = some peer := by
  obtain ⟨task, found, link⟩ := linked
  obtain ⟨same, found', only⟩ := facing
  cases found.symm.trans found'
  have known := (sane.spoke p own here).names n task found
  have named : d.plan.announced r = some peer ∧ toward task = some r := by
    cases task with
    | opened | closing | closed =>
        cases link
        exact ⟨known, rfl⟩
    | _ => cases link
  obtain rfl := only r named.2
  have spoke : r ≠ d.plan.hubId := by
    rintro rfl
    rw [d.plan.separate] at planned
    cases planned
  have known := named.1
  rwa [Plan.announced, if_neg spoke] at known

/-- The tables are right about one family, if the index and the links are. -/
theorem right (sane : d.Sane fleet) {A : Type} {vip : OwnVips → A} {inMesh : A → Bool}
    {claimed : A → Option HubPeer} {hubVip : SpokeMesh → Option A}
    {direct : SpokeMesh → A → Option Nat}
    (apart : ∀ p q a b, d.plan.spoke p = some a → d.plan.spoke q = some b → vip a = vip b → p = q)
    (notHub : ∀ p a, d.plan.spoke p = some a → vip a ≠ vip d.plan.hub)
    (meshed : ∀ p a, d.plan.spoke p = some a → inMesh (vip a) = true)
    (owned : ∀ x peer, claimed x = some peer → ∃ b, d.plan.spoke peer.id = some b ∧ vip b = x)
    (sourced : ∀ p own, d.plan.spoke p = some own → ∀ x n,
      direct (fleet.spoke p).table x = some n →
        ∃ q peer, Linked (fleet.spoke p).tasks n q peer ∧ vip peer = x)
    (entered : ∀ p own, d.plan.spoke p = some own → ∀ x, hubVip (fleet.spoke p).table = some x →
      x = vip d.plan.hub)
    (out : ∀ p own, d.plan.spoke p = some own → (fleet.spoke p).table.hubOut.isSome = true →
      hubVip (fleet.spoke p).table = some (vip d.plan.hub)) :
    Right vip inMesh d.plan fleet claimed hubVip direct where
  apart := apart
  notHub := notHub
  inMesh := meshed
  claimed := owned
  linked p own x n q m here found far := by
    obtain ⟨r, peer, linked, rfl⟩ := sourced p own here x n found
    obtain ⟨planned, near, _⟩ := sane.far p n q m far
    exact ⟨peer, announced_of_linked sane here near linked planned, rfl⟩
  entered p own x here found := entered p own here x found
  hubbed := out

/-- Whoever reads a packet knows the addresses of the spoke it is from. -/
theorem sound_of_sane (sane : d.Sane fleet) : fleet.Sound d.plan where
  right4 := right sane d.plan.apart4 (fun p a here => (d.plan.notHub p a here).1)
    (fun p a here => (d.plan.inMesh p a here).1) sane.hub.claimed.1
    (fun p own here => (sane.spoke p own here).wired.table.v4)
    (fun p own here => (sane.spoke p own here).table.v4)
    (fun p own here up => ((sane.spoke p own here).table.out up).1)
  right6 := right sane d.plan.apart6 (fun p a here => (d.plan.notHub p a here).2)
    (fun p a here => (d.plan.inMesh p a here).2) sane.hub.claimed.2
    (fun p own here => (sane.spoke p own here).wired.table.v6)
    (fun p own here => (sane.spoke p own here).table.v6)
    (fun p own here up => ((sane.spoke p own here).table.out up).2)
  reads p own s peer here reads := by
    unfold Fleet.reader at reads
    split at reads
    · cases reads
    · rename_i i serves
      split at reads
      · rename_i running
        cases reads
        have same : peer.id = p := (sane.serves p s i serves).serves _ running
        have known : d.plan.spoke peer.id = some ⟨peer.vip, peer.vip6⟩ :=
          sane.hub.knows i _ running
        rw [same, here] at known
        exact Option.some.inj known
      · cases reads
  heard p own n q m r peer here far opened := by
    obtain ⟨planned, _, back⟩ := sane.far p n q m far
    obtain ⟨other, there⟩ := Option.isSome_iff_exists.mp planned
    have known : (d.plan.spoke p).isSome = true := by
      rw [here]
      rfl
    have named := announced_of_linked sane there back ⟨_, opened, rfl⟩ known
    rw [here] at named
    exact Option.some.inj named

/-! ## Where packets come out -/

/-- A run in which every station announces its own addresses. -/
def Reaches (d : Deployment) (fleet : Fleet) : Prop :=
  LeadsUnder d.step (fun fleet event => d.told fleet event = true) .start fleet

theorem sound_of_reaches (reached : d.Reaches fleet) : fleet.Sound d.plan :=
  sound_of_sane (reached.holds sane_step (sane_start d))

variable {p : EndpointId} {own : OwnVips}

/-- **Packets arrive.** At every moment of every run a packet from the TUN of a spoke
comes out at the station that the plan gives its destination address, exactly if its
source is the spoke's own address and it gets there; one from the TUN of the hub comes
out at a spoke that is in the index, whatever address of the mesh it is from. -/
theorem packets_arrive (reached : d.Reaches fleet) (here : d.plan.spoke p = some own)
    (wires : Hop → Wire) (pkt : List UInt8) :
    (fleet.fromSpoke d.plan.hub wires p own (fleet.spoke p).table pkt = some .hub ↔
      fleet.toHub wires p (fleet.spoke p).table pkt = true ∧
        (ipv4Src pkt = some own.v4 ∧ ipv4Dst pkt = some d.plan.hub.v4 ∨
          ipv6Src pkt = some own.v6 ∧ ipv6Dst pkt = some d.plan.hub.v6)) ∧
    (∀ q, fleet.fromSpoke d.plan.hub wires p own (fleet.spoke p).table pkt = some (.spoke q) ↔
      q ≠ p ∧ ∃ b, d.plan.spoke q = some b ∧
        (ipv4Src pkt = some own.v4 ∧ ipv4Dst pkt = some b.v4 ∧
            fleet.Way wires p q pkt ((fleet.spoke p).table.direct.get b.v4)
              (fleet.hub.base.peers.byV4.get b.v4) ∨
          ipv6Src pkt = some own.v6 ∧ ipv6Dst pkt = some b.v6 ∧
            fleet.Way wires p q pkt ((fleet.spoke p).table.direct6.get b.v6)
              (fleet.hub.base.peers.byV6.get b.v6))) ∧
    (fleet.fromHub d.plan.hub wires pkt ≠ some .hub) ∧
    ∀ q, fleet.fromHub d.plan.hub wires pkt = some (.spoke q) ↔
      ∃ b, d.plan.spoke q = some b ∧
        ((∃ src, ipv4Src pkt = some src ∧ (vipInMesh src = true ∨ src = d.plan.hub.v4)) ∧
            ipv4Dst pkt = some b.v4 ∧ (∃ other, fleet.hub.base.peers.byV4.get b.v4 = some other ∧
              fleet.toEntry wires other pkt = true) ∨
          (∃ src, ipv6Src pkt = some src ∧ (vip6InMesh src = true ∨ src = d.plan.hub.v6)) ∧
            ipv6Dst pkt = some b.v6 ∧ ∃ other, fleet.hub.base.peers.byV6.get b.v6 = some other ∧
              fleet.toEntry wires other pkt = true) := by
  have sound := sound_of_reaches reached
  refine ⟨?_, fun q => ?_, fun same => ?_, fun q => ?_⟩
  · rw [fromSpoke_iff sound here]
    constructor
    · rintro (⟨dst, from4, to4, up, rfl⟩ | ⟨dst, from6, to6, up, rfl⟩)
      · exact ⟨up, .inl ⟨from4, to4⟩⟩
      · exact ⟨up, .inr ⟨from6, to6⟩⟩
    · rintro ⟨up, ⟨from4, to4⟩ | ⟨from6, to6⟩⟩
      · exact .inl ⟨_, from4, to4, up, rfl⟩
      · exact .inr ⟨_, from6, to6, up, rfl⟩
  · rw [fromSpoke_iff sound here]
    unfold view4 view6
    simp only [ends_iff]
    constructor
    · rintro (⟨_, from4, to4, other, ⟨b, there, rfl⟩, way⟩ |
        ⟨_, from6, to6, other, ⟨b, there, rfl⟩, way⟩)
      · exact ⟨other, b, there, .inl ⟨from4, to4, way⟩⟩
      · exact ⟨other, b, there, .inr ⟨from6, to6, way⟩⟩
    · rintro ⟨other, b, there, ⟨from4, to4, way⟩ | ⟨from6, to6, way⟩⟩
      · exact .inl ⟨_, from4, to4, other, ⟨b, there, rfl⟩, way⟩
      · exact .inr ⟨_, from6, to6, other, ⟨b, there, rfl⟩, way⟩
  · rcases (fromHub_iff sound).mp same with ⟨_, _, _, _, _, _, _, toHub, _⟩ |
      ⟨_, _, _, _, _, _, _, toHub, _⟩
    · cases toHub
    · cases toHub
  · rw [fromHub_iff sound]
    constructor
    · rintro (⟨src, _, from4, to4, meshed, _, b, ⟨⟩, there, rfl, reach⟩ |
        ⟨src, _, from6, to6, meshed, _, b, ⟨⟩, there, rfl, reach⟩)
      · exact ⟨b, there, .inl ⟨⟨src, from4, meshed⟩, to4, reach⟩⟩
      · exact ⟨b, there, .inr ⟨⟨src, from6, meshed⟩, to6, reach⟩⟩
    · rintro ⟨b, there, ⟨⟨src, from4, meshed⟩, to4, reach⟩ |
        ⟨⟨src, from6, meshed⟩, to6, reach⟩⟩
      · exact .inl ⟨src, _, from4, to4, meshed, q, b, rfl, there, rfl, reach⟩
      · exact .inr ⟨src, _, from6, to6, meshed, q, b, rfl, there, rfl, reach⟩

/-- **The shortcut agrees with the long way.** At every moment of every run the direct links of
a spoke change nothing about where a packet comes out, if the way to the hub is open to it and
the link for its destination gets it to a spoke that the hub gets it to. -/
theorem direct_agrees (reached : d.Reaches fleet) (here : d.plan.spoke p = some own)
    (wires : Hop → Wire) (pkt : List UInt8)
    (connected : fleet.toHub wires p (fleet.spoke p).table pkt = true)
    (live4 : ∀ x n, ipv4Dst pkt = some x → (fleet.spoke p).table.direct.get x = some n →
      x = d.plan.hub.v4 ∨ fleet.Doubled wires p pkt n (fleet.hub.base.peers.byV4.get x))
    (live6 : ∀ x n, ipv6Dst pkt = some x → (fleet.spoke p).table.direct6.get x = some n →
      x = d.plan.hub.v6 ∨ fleet.Doubled wires p pkt n (fleet.hub.base.peers.byV6.get x)) :
    fleet.fromSpoke d.plan.hub wires p own (withoutLinks (fleet.spoke p).table) pkt =
      fleet.fromSpoke d.plan.hub wires p own (fleet.spoke p).table pkt :=
  fromSpoke_withoutLinks (sound_of_reaches reached) here connected live4 live6

end Deployment

/-! ## Two spokes -/

def hubVips : OwnVips := ⟨0xAC180001, 0xFD24AC18000000000000000000000001⟩

def leftVips : OwnVips := ⟨0xAC180002, 0xFD24AC18000000000000000000000002⟩

def rightVips : OwnVips := ⟨0xAC180003, 0xFD24AC18000000000000000000000003⟩

def pairSpoke (p : EndpointId) : Option OwnVips :=
  if p = 2 then some leftVips else if p = 3 then some rightVips else none

theorem pairSpoke_cases {p : EndpointId} {a : OwnVips} (here : pairSpoke p = some a) :
    p = 2 ∧ a = leftVips ∨ p = 3 ∧ a = rightVips := by
  unfold pairSpoke at here
  split at here
  · exact .inl ⟨‹_›, (Option.some.inj here).symm⟩
  · obtain ⟨same, here⟩ := Option.ite_none_right_eq_some.mp here
    exact .inr ⟨same, (Option.some.inj here).symm⟩

/-- Two spokes can be told apart by anything that their addresses differ in. -/
theorem pair_apart {A : Type} {vip : OwnVips → A} (apart : vip leftVips ≠ vip rightVips)
    (p q : EndpointId) (a b : OwnVips) (here : pairSpoke p = some a)
    (there : pairSpoke q = some b) (same : vip a = vip b) : p = q := by
  rcases pairSpoke_cases here with ⟨rfl, rfl⟩ | ⟨rfl, rfl⟩ <;>
    rcases pairSpoke_cases there with ⟨rfl, rfl⟩ | ⟨rfl, rfl⟩
  · rfl
  · exact absurd same apart
  · exact absurd same.symm apart
  · rfl

def pairPlan : Plan where
  hubId := 9
  hub := hubVips
  spoke := pairSpoke
  separate := rfl
  apart4 := pair_apart (by decide)
  apart6 := pair_apart (by decide)
  notHub p a here := by
    rcases pairSpoke_cases here with ⟨_, rfl⟩ | ⟨_, rfl⟩
    · decide
    · decide
  inMesh p a here := by
    rcases pairSpoke_cases here with ⟨_, rfl⟩ | ⟨_, rfl⟩
    · decide
    · decide

def pairDeployment : Deployment where
  plan := pairPlan
  hubAllow := none
  hidden _ := false
  allow _ := none

def entryOf (id : EndpointId) (vips : OwnVips) : RosterEntry := ⟨vips.v4, vips.v6, id⟩

/-- A spoke connects to the hub as its session `i` and is announced to the sessions `hearers`. -/
def attaches (p : EndpointId) (own : OwnVips) (i : Nat) (entries : List RosterEntry)
    (hearers : List Nat) : List Deployment.Event :=
  [.spoke p .dialHub, .accept p true, .hub (.act (.act i (.exchanged own))),
    .spoke p (.hubAnswer (Spoke.encodeVips hubVips)),
    .spoke p (.load .session), .spoke p (.store .session),
    .hub (.act (.act i (.controlOpened (some false)))),
    .hub (.load i), .hub (.act (.act i .claim)), .hub (.act (.act i .verify)),
    .hub (.act (.act i .insertFan)), .hub (.act (.act i (.addRoute true))),
    .hub (.act (.act i (.addRoute true))), .hub (.act (.act i (.snapshot entries))),
    .hub (.act (.act i .collect))] ++
    hearers.map (fun j => .hub (.act (.act i (.send (.roster j))))) ++
    [.hub (.act (.act i .sent))]

/-- Both spokes connect to the hub. -/
def pairAttaches : List Deployment.Event :=
  attaches 2 leftVips 1 [entryOf 9 hubVips, entryOf 2 leftVips] [1] ++
    attaches 3 rightVips 2 [entryOf 9 hubVips, entryOf 2 leftVips, entryOf 3 rightVips] [1, 2]

/-- The left spoke hears of the right one and opens a direct link to it. -/
def pairLinks : List Deployment.Event :=
  [.spoke 2 (.take 0 (.joined (entryOf 3 rightVips))),
    .spoke 2 (.load (.reader 0)), .spoke 2 (.store (.reader 0)), .spoke 2 (.task 0 .check),
    .link 2 0 3, .spoke 2 (.task 0 .connected),
    .spoke 3 (.task 0 (.heard (Spoke.encodeVips leftVips))),
    .spoke 2 (.task 0 (.answer (Spoke.encodeVips rightVips))),
    .spoke 3 (.load (.task 0)), .spoke 3 (.store (.task 0)),
    .spoke 2 (.load (.task 0)), .spoke 2 (.store (.task 0))]

/-- Every sender has room and every connection carries packets of up to 1280 bytes. -/
def clearWires (_ : Hop) : Wire := ⟨true, some 1280, true⟩

def pairPacket : List UInt8 := Hub.ipv4Packet leftVips.v4 rightVips.v4

/-- The left spoke's packet gets to the hub, and from there to the right spoke. -/
def throughHub (fleet : Fleet) : Bool :=
  fleet.toHub clearWires 2 (fleet.spoke 2).table pairPacket &&
    (fleet.hub.base.peers.byV4.get rightVips.v4).any fun other =>
      fleet.toEntry clearWires other pairPacket

theorem throughHub_iff {fleet : Fleet} : throughHub fleet = true ↔
    fleet.toHub clearWires 2 (fleet.spoke 2).table pairPacket = true ∧
      ∃ other, fleet.hub.base.peers.byV4.get rightVips.v4 = some other ∧
        fleet.toEntry clearWires other pairPacket = true := by
  rw [throughHub, Bool.and_eq_true, Option.any_eq_true]

theorem pair_reaches {events : List Deployment.Event} {facts : Fleet → Bool}
    (told : AllSteps pairDeployment.step
      (fun fleet event => pairDeployment.told fleet event = true) .start events)
    (outcome : (run pairDeployment.step .start events).map facts = some true) :
    ∃ fleet, pairDeployment.Reaches fleet ∧ facts fleet = true := by
  obtain ⟨fleet, ran, found⟩ := Option.map_eq_some_iff.mp outcome
  exact ⟨fleet, ⟨events, told, ran⟩, found⟩

/-- From the left spoke over the hub to the right one. -/
theorem packets_arrive_attached : ∃ fleet, pairDeployment.Reaches fleet ∧
    fleet.fromSpoke hubVips clearWires 2 leftVips (fleet.spoke 2).table pairPacket =
      some (.spoke 3) := by
  have told : AllSteps pairDeployment.step
      (fun fleet event => pairDeployment.told fleet event = true) .start pairAttaches := by
    decide +kernel
  have outcome : (run pairDeployment.step .start pairAttaches).map (fun fleet =>
      throughHub fleet && ((fleet.spoke 2).table.direct.get rightVips.v4).isNone) = some true := by
    decide +kernel
  obtain ⟨fleet, reached, facts⟩ := pair_reaches told outcome
  rw [Bool.and_eq_true, throughHub_iff, Option.isNone_iff_eq_none] at facts
  obtain ⟨⟨up, reach⟩, unlinked⟩ := facts
  have arrives := (@Deployment.packets_arrive pairDeployment fleet 2 leftVips reached rfl
    clearWires pairPacket).2.1 3
  refine ⟨fleet, reached, arrives.mpr ⟨by decide, rightVips, rfl, .inl ⟨?_, ?_, .inr ?_⟩⟩⟩
  · exact Hub.ipv4Src_packet ..
  · exact Hub.ipv4Dst_packet ..
  · exact ⟨unlinked, up, reach⟩

/-- From the left spoke to the right one, with and without their link. -/
theorem direct_agrees_pair : ∃ fleet, pairDeployment.Reaches fleet ∧
    (fleet.spoke 2).table.direct.get rightVips.v4 = some 0 ∧
      fleet.fromSpoke hubVips clearWires 2 leftVips (withoutLinks (fleet.spoke 2).table)
          pairPacket =
        fleet.fromSpoke hubVips clearWires 2 leftVips (fleet.spoke 2).table pairPacket := by
  have told : AllSteps pairDeployment.step
      (fun fleet event => pairDeployment.told fleet event = true) .start
        (pairAttaches ++ pairLinks) := by
    decide +kernel
  have outcome : (run pairDeployment.step .start (pairAttaches ++ pairLinks)).map (fun fleet =>
      throughHub fleet && (decide ((fleet.spoke 2).table.direct.get rightVips.v4 = some 0) &&
        (fleet.linkEnd clearWires 2 0 pairPacket).isSome)) = some true := by
    decide +kernel
  obtain ⟨fleet, reached, facts⟩ := pair_reaches told outcome
  rw [Bool.and_eq_true, throughHub_iff, Bool.and_eq_true, decide_eq_true_iff] at facts
  obtain ⟨⟨up, reach⟩, entry, leads⟩ := facts
  have to4 : ipv4Dst pairPacket = some rightVips.v4 := Hub.ipv4Dst_packet ..
  refine ⟨fleet, reached, entry, @Deployment.direct_agrees pairDeployment fleet 2 leftVips reached
    rfl clearWires pairPacket up (fun x n named found => ?_) (fun x n named => ?_)⟩
  · cases to4.symm.trans named
    cases entry.symm.trans found
    exact .inr ⟨leads, reach⟩
  · have none6 : ipv6Dst pairPacket = none := by decide
    cases none6.symm.trans named

end LinkP2p.Tun.Journey
