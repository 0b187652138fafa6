import LinkP2p.Tun.RosterConvergence

/-!
# Roster queues of bounded length

The hub sends a roster message to a session through a queue of 32 places, and waits for a place.
The task that empties the queue starts only after the session has sent its own `Joined` to every
registered sender, its own among them.
-/

namespace LinkP2p.Tun.Mesh

open LinkP2p.Lib LinkP2p.Lib.Transition LinkP2p.Lib.Rcu LinkP2p.Tun.Hub

/-- `TUN_CTRL_QUEUE` -/
def tunCtrlQueue : Nat := 32

structure Bounded where
  net : Net
  /-- The sessions whose `ctrl_send_task` has ended, by a failed write or by its abort. -/
  stopped : Finset Nat

def Bounded.start : Bounded := ⟨.start, ∅⟩

/-- The session's `ctrl_send_task` has been started. -/
def spawned : Option Task → Bool
  | some (.at _ point) =>
      match point with
      | .running | .remove | .reload | .removeFan _ | .collectLeft _ | .sendLeft _ _
      | .delRoute4 _ | .delRoute6 | .finished => true
      | _ => false
  | _ => false

/-- The session has returned before it started the task, and dropped its receiver. -/
def returned : Option Task → Bool
  | some (.at _ .rejected) | some (.at _ .routeErr) => true
  | _ => false

/-- The receiver of the session's queue is gone, and a send to it fails at once. -/
def Bounded.gone (b : Bounded) (i : Nat) : Bool :=
  decide (i ∈ b.stopped) || returned (b.net.hub.tasks i)

inductive QueueEvent where
  | mesh (event : MeshEvent)
  /-- The session's `ctrl_send_task` ends. -/
  | stop (i : Nat)

/-- `Sender::send` waits for a place; the task that ended writes nothing more. -/
def proceeds (b : Bounded) : MeshEvent → Bool
  | .hub (.act _ (.send (.roster j))) =>
      b.gone j || decide ((b.net.queue j).length < tunCtrlQueue)
  | .forward i => decide (i ∉ b.stopped)
  | _ => true

/-- One step of the mesh with bounded queues. What is sent to a receiver that is gone stays in
`queue`, where nothing reads it. -/
def boundedStep (cfg : HubConfig) (seen : HubPeerIndex) (b : Bounded) :
    QueueEvent → Option Bounded
  | .mesh event =>
      if proceeds b event then (meshStep cfg seen b.net event).map fun net => { b with net := net }
      else none
  | .stop i =>
      if spawned (b.net.hub.tasks i) then some { b with stopped := insert i b.stopped } else none

def QueueEvent.swaps : QueueEvent → Option Nat
  | .mesh event => event.swaps
  | .stop _ => none

/-! ## Inversion -/

inductive BoundedMoves (cfg : HubConfig) (seen : HubPeerIndex) (b : Bounded) :
    QueueEvent → Bounded → Prop where
  | mesh (event : MeshEvent) (net : Net) (ready : proceeds b event = true)
      (stepped : meshStep cfg seen b.net event = some net) :
      BoundedMoves cfg seen b (.mesh event) { b with net := net }
  | stop (i : Nat) (started : spawned (b.net.hub.tasks i) = true) :
      BoundedMoves cfg seen b (.stop i) { b with stopped := insert i b.stopped }

variable {cfg : HubConfig} {seen : HubPeerIndex} {b next : Bounded} {event : QueueEvent}

theorem boundedStep_moves (taken : boundedStep cfg seen b event = some next) :
    BoundedMoves cfg seen b event next := by
  cases event with
  | mesh event =>
      simp only [boundedStep, Option.ite_none_right_eq_some, Option.map_eq_some_iff] at taken
      obtain ⟨ready, net, stepped, rfl⟩ := taken
      exact .mesh event net ready stepped
  | stop i =>
      simp only [boundedStep, Option.ite_none_right_eq_some, Option.some.injEq] at taken
      obtain ⟨started, rfl⟩ := taken
      exact .stop i started

/-- The bounded mesh, with the index as the cell its sessions swap. -/
def boundedSystem (cfg : HubConfig) : System Bounded QueueEvent Nat HubPeerIndex where
  cell := fun b => b.net.hub.peers
  step := boundedStep cfg
  thread := QueueEvent.swaps
  frame := by
    intro value b event next alone taken
    cases boundedStep_moves taken with
    | mesh event net ready stepped =>
        exact (meshSystem cfg).frame value b.net event net alone stepped
    | stop i started => rfl

theorem posted_bounded (posted : Posted b.net)
    (taken : (boundedSystem cfg).atomic b event = some next) : Posted next.net := by
  cases boundedStep_moves taken with
  | mesh event net ready stepped => exact posted_step posted stepped
  | stop i started => exact posted

/-! ## Sessions that wait for each other -/

/-- Sessions that have filled each other's queues before any of them empties its own. One session
alone is enough, since it sends to itself too. -/
structure Jam (b : Bounded) (stuck : Set Nat) : Prop where
  sending : ∀ i ∈ stuck, ∃ peer rest, b.net.hub.At i peer (.sendJoined rest) ∧
    ∃ j ∈ stuck, .roster j ∈ rest
  full : ∀ i ∈ stuck, tunCtrlQueue ≤ (b.net.queue i).length
  alive : ∀ i ∈ stuck, i ∉ b.stopped

/-- The broadcast of the session has yet to serve one of them. -/
def Blocked (hub : State) (stuck : Set Nat) (k : Nat) : Prop :=
  ∃ peer point, hub.At k peer point ∧ ∃ j ∈ stuck, .roster j ∈ waiting point

/-- A jam, a broadcast that runs into it, and what the jammed sessions have been sent. -/
structure Held (stuck : Set Nat) (k : Nat) (mail : Nat → List RosterMsg) (b : Bounded) : Prop where
  jam : Jam b stuck
  blocked : Blocked b.net.hub stuck k
  queues : ∀ i ∈ stuck, b.net.queue i = mail i

variable {stuck : Set Nat} {k : Nat} {mail : Nat → List RosterMsg}

theorem Jam.not_gone (jam : Jam b stuck) {i : Nat} (member : i ∈ stuck) : b.gone i = false := by
  obtain ⟨peer, rest, here, -⟩ := jam.sending i member
  have task : b.net.hub.tasks i = some (.at peer (.sendJoined rest)) := here
  rw [Bounded.gone, task, decide_eq_false (jam.alive i member)]
  rfl

/-- No send to a jammed session goes through. -/
theorem Jam.shut (jam : Jam b stuck) {i s : Nat} (member : i ∈ stuck) :
    proceeds b (.hub (.act s (.send (.roster i)))) = false := by
  rw [proceeds, jam.not_gone member, Bool.false_or]
  exact decide_eq_false (Nat.not_lt.mpr (jam.full i member))

/-- A broadcast that has yet to serve the session stays in its loop, and does not get to it. -/
structure Lags (j : Nat) (point point' : Point) : Prop where
  owed : .roster j ∈ waiting point'
  joining : ∀ rest, point = .sendJoined rest → ∃ rest', point' = .sendJoined rest'

theorem Lags.refl {j : Nat} {point : Point} (owed : .roster j ∈ waiting point) :
    Lags j point point := ⟨owed, fun rest same => ⟨rest, same⟩⟩

/-- A broadcast that is blocked serves another sender first, and is still blocked. -/
theorem Jam.waits (jam : Jam b stuck) {s : Nat} {peer : HubPeer} {point point' : Point} {act : Act}
    {effect : Effect} (ready : proceeds b (.hub (.act s act)) = true)
    (move : Moves cfg seen b.net.hub peer point act point' effect)
    {j : Nat} (member : j ∈ stuck) (owed : .roster j ∈ waiting point) :
    Lags j point point' := by
  cases move with
  | sendJoined rest fan among =>
      have other : .roster j ≠ fan := by
        rintro rfl
        exact Bool.false_ne_true ((jam.shut member).symm.trans ready)
      exact ⟨(Multiset.mem_erase_of_ne other).mpr owed, fun _ _ => ⟨_, rfl⟩⟩
  | sendLeft removed rest fan among =>
      have other : .roster j ≠ fan := by
        rintro rfl
        exact Bool.false_ne_true ((jam.shut member).symm.trans ready)
      exact ⟨(Multiset.mem_erase_of_ne other).mpr owed, nofun⟩
  | _ => exact absurd owed (Multiset.notMem_zero _)

theorem Held.carry (held : Held stuck k mail b)
    (lags : ∀ s peer point j, j ∈ stuck → b.net.hub.At s peer point → .roster j ∈ waiting point →
      ∃ point', next.net.hub.At s peer point' ∧ Lags j point point')
    (queues : ∀ i ∈ stuck, next.net.queue i = b.net.queue i)
    (alive : ∀ i ∈ stuck, i ∈ next.stopped → i ∈ b.stopped) : Held stuck k mail next where
  jam := {
    sending := by
      intro i member
      obtain ⟨peer, rest, here, j, among, owed⟩ := held.jam.sending i member
      obtain ⟨point', there, lag⟩ := lags i peer _ j among here owed
      obtain ⟨rest', rfl⟩ := lag.joining rest rfl
      exact ⟨peer, rest', there, j, among, lag.owed⟩
    full := by
      intro i member
      rw [queues i member]
      exact held.jam.full i member
    alive := fun i member ended => held.jam.alive i member (alive i member ended) }
  blocked := by
    obtain ⟨peer, point, here, j, among, owed⟩ := held.blocked
    obtain ⟨point', there, lag⟩ := lags k peer point j among here owed
    exact ⟨peer, point', there, j, among, lag.owed⟩
  queues := by
    intro i member
    rw [queues i member]
    exact held.queues i member

theorem held_hub (posted : Posted b.net) (held : Held stuck k mail b) {event : Event}
    (ready : proceeds b (.hub event) = true) {hub : State}
    (stepped : step cfg b.net.hub.peers b.net.hub event = some hub) :
    Held stuck k mail { b with
      net := Net.post { b.net with hub := hub } (sessionOf event)
        (effectOf cfg b.net.hub.peers b.net.hub event) } := by
  have queues : ∀ effect, (∀ i ∈ stuck, ∀ msg, effect ≠ .enqueue (.roster i) msg) → ∀ i ∈ stuck,
      (Net.post { b.net with hub := hub } (sessionOf event) effect).queue i = b.net.queue i := by
    intro effect away i member
    obtain same | ⟨msg, sent, -⟩ :=
      post_queue { b.net with hub := hub } (sessionOf event) effect i
    · exact same
    · exact absurd sent (away i member msg)
  cases step_cases posted.wf.fresh stepped with
  | quiet early quiet silent =>
      rw [silent]
      refine held.carry ?_ (queues .silent fun _ _ _ => nofun) (fun _ _ ended => ended)
      intro s peer point j member here owed
      refine ⟨point, ?_, .refl owed⟩
      dsimp only
      rw [post_hub]
      refine (quiet.at_iff s peer point ?_).mpr here
      rintro rfl
      exact Multiset.notMem_zero _ owed
  | moved t p there move sent =>
      rw [sent]
      refine held.carry ?_ (queues _ ?_) (fun _ _ ended => ended)
      · intro s peer point j member here owed
        dsimp only
        rw [post_hub]
        by_cases same : s = t
        · subst same
          obtain ⟨rfl, rfl⟩ := here.unique there
          exact ⟨_, at_advance_self, held.jam.waits ready move member owed⟩
        · exact ⟨point, (at_advance_of_ne same).mpr here, .refl owed⟩
      · rintro i member msg rfl
        cases move with
        | sendJoined | sendLeft =>
            exact Bool.false_ne_true ((held.jam.shut member).symm.trans ready)

theorem held_step (posted : Posted b.net) (held : Held stuck k mail b)
    (taken : (boundedSystem cfg).atomic b event = some next) : Held stuck k mail next := by
  cases boundedStep_moves taken with
  | stop i started =>
      refine held.carry (fun s peer point j _ here owed => ⟨point, here, .refl owed⟩)
        (fun _ _ => rfl) ?_
      intro j member ended
      rcases Finset.mem_insert.mp ended with rfl | before
      · -- a jammed session has not started the task
        obtain ⟨peer, rest, here, -⟩ := held.jam.sending j member
        have task : b.net.hub.tasks j = some (.at peer (.sendJoined rest)) := here
        rw [task] at started
        cases started
      · exact before
  | mesh event net ready stepped =>
      have still {later : Net} (hub : later.hub = b.net.hub)
          (queues : ∀ i ∈ stuck, later.queue i = b.net.queue i) :
          Held stuck k mail { b with net := later } := by
        refine held.carry ?_ queues (fun _ _ ended => ended)
        intro s peer point j _ here owed
        exact ⟨point, by rw [hub]; exact here, .refl owed⟩
      cases meshStep_moves stepped with
      | hub event hub advanced => exact held_hub posted held ready advanced
      | forward i peer msg rest here queued =>
          refine still rfl fun j member => Function.update_of_ne ?_ _ _
          rintro rfl
          obtain ⟨peer', rest', sending, -⟩ := held.jam.sending j member
          cases (here.unique sending).2
      | spawn | quit => exact still rfl fun _ _ => rfl
      | spoke id spoke act net found moves =>
          cases moves <;> exact still rfl fun _ _ => rfl

/-- **A jam is for good.** Whatever happens after a reachable state in which sessions that have
not yet started to empty their queues wait for each other: no broadcast that has one of them
still to serve ever gets past it, none of them ever comes to run, and none is sent anything
more. -/
theorem jam_lasts (cfg : HubConfig) {before after : List (RetryEvent QueueEvent Nat)}
    {state : Retrying Bounded Nat HubPeerIndex}
    (ran : run (retryStep (boundedSystem cfg)) (.start .start) before = some state)
    (jam : Jam state.base stuck) (blocked : Blocked state.base.net.hub stuck k) :
    AllStates (retryStep (boundedSystem cfg))
      (fun later => Held stuck k state.base.net.queue later.base) state after := by
  have posted : Rcu.Fresh (boundedSystem cfg) state ∧ Posted state.base.net :=
    (retry_invariant (I := fun b => Posted b.net) (fun _ _ _ => posted_bounded) posted_start
      before).final ran
  let I (b : Bounded) : Prop := Posted b.net ∧ Held stuck k state.base.net.queue b
  have kept : ∀ b event next, I b → True → (boundedSystem cfg).atomic b event = some next →
      I next :=
    fun b event next held _ taken => ⟨posted_bounded held.1 taken, held_step held.1 held.2 taken⟩
  have all := allStates_of_invariant
    (fun later event next held taken =>
      lift_step kept held (onActs_of_forall (fun _ _ => trivial) later event) taken)
    ⟨posted.1, posted.2, jam, blocked, fun _ _ => rfl⟩ after
  exact all.mono fun later held => held.2.2

/-! ## A run into a jam -/

/-- Peer 1 before its routes are added. -/
def slowPeer : HubPeer := ⟨1, 1, staleVips1.v4, staleVips1.v6, .outbound 1, false⟩

/-- Peer 2 in session `m`. -/
def returning (m : Nat) : HubPeer := ⟨2, m, staleVips2.v4, staleVips2.v6, .outbound m, false⟩

/-- Session 1 has registered its sender and been told of `told` joins; peer 2 may come back. -/
structure Slow (b : Bounded) (sessions told : Nat) : Prop where
  seq : b.net.hub.sessionSeq = sessions
  later : 1 ≤ sessions
  first : b.net.hub.At 1 slowPeer .addRoute4
  fan : b.net.hub.fans.get 1 = some (.roster 1)
  free : ∀ m, Admits (returning m) b.net.hub.peers
  unopened : ∀ i, sessions < i → i ∉ b.net.opened
  queue : (b.net.queue 1).length = told
  stopped : b.stopped = ∅

variable {sessions told told' m : Nat} {point point' : Point} {effect : Effect}

theorem leads_act (cfg : HubConfig) {peer : HubPeer} (here : b.net.hub.At m peer point) (act : Act)
    (point' : Point) (effect : Effect)
    (moved : pointStep cfg b.net.hub.peers b.net.hub peer point act = some (point', effect))
    (ready : Mesh.ready b.net (.act m act) = true)
    (go : proceeds b (.hub (.act m act)) = true) :
    Leads (boundedSystem cfg).atomic b { b with
      net := Net.post { b.net with hub := advance b.net.hub m peer point' effect } m effect } := by
  have task : b.net.hub.tasks m = some (.at peer point) := here
  have stepped : step cfg b.net.hub.peers b.net.hub (.act m act) =
      some (advance b.net.hub m peer point' effect) := by
    simp only [step, task, Option.bind_some, taskStep, moved, Option.map_some]
    rfl
  have sent : effectOf cfg b.net.hub.peers b.net.hub (.act m act) = effect := by
    simp only [effectOf, task, Option.bind_some, taskStep, moved, Option.map_some, Option.getD_some]
  have taken : (boundedSystem cfg).atomic b (.mesh (.hub (.act m act))) = some { b with
      net := Net.post { b.net with hub := advance b.net.hub m peer point' effect } m effect } := by
    change boundedStep cfg b.net.hub.peers b (.mesh (.hub (.act m act))) = _
    simp only [boundedStep, go, if_true, meshStep, ready, stepped, Option.map_some, sent]
    rfl
  exact (Leads.refl b).tail taken

/-- A snapshot lists the entries in some order. -/
theorem snapshot_shown (cfg : HubConfig) (hub : State) {peer : HubPeer}
    (shown : peer.hidden = false) :
    ∃ entries, pointStep cfg hub.peers hub peer .snapshot (.snapshot entries) =
      some (.collectJoined, .write (encodeSnapshot entries)) := by
  obtain ⟨entries, listed⟩ : ∃ entries : List RosterEntry,
      (entries : Multiset RosterEntry) = hubRosterSnapshot cfg hub.peers := Quot.exists_rep _
  refine ⟨entries, ?_⟩
  rw [pointStep, if_pos listed, shown]
  rfl

/-- A step of a session of peer 2. -/
theorem Slow.acts (slow : Slow b sessions told) (here : b.net.hub.At m (returning m) point)
    (other : m ≠ 1) (act : Act)
    (moved : pointStep openHub b.net.hub.peers b.net.hub (returning m) point act =
      some (point', effect))
    (ready : Mesh.ready b.net (.act m act) = true)
    (go : proceeds b (.hub (.act m act)) = true)
    (fan : (effect.apply b.net.hub).fans.get 1 = some (.roster 1))
    (free : ∀ m, Admits (returning m) (effect.apply b.net.hub).peers)
    (queue : ((Net.post b.net m effect).queue 1).length = told') :
    ∃ next, Leads (boundedSystem openHub).atomic b next ∧ Slow next sessions told' ∧
      next.net.hub.At m (returning m) point' ∧
      next.net.hub = advance b.net.hub m (returning m) point' effect := by
  let hub := advance b.net.hub m (returning m) point' effect
  let net := Net.post { b.net with hub := hub } m effect
  have hubs : net.hub = hub := post_hub _ _ _
  refine ⟨{ b with net := net }, leads_act _ here act _ _ moved ready go, ?_, ?_, hubs⟩
  · exact {
      seq := by
        change net.hub.sessionSeq = sessions
        rw [hubs, ← slow.seq]
        cases effect <;> rfl
      later := slow.later
      first := by
        change net.hub.At 1 slowPeer .addRoute4
        rw [hubs]
        exact (at_advance_of_ne (Ne.symm other)).mpr slow.first
      fan := by
        change net.hub.fans.get 1 = _
        rw [hubs]
        exact fan
      free := by
        intro m
        change Admits (returning m) net.hub.peers
        rw [hubs]
        exact free m
      unopened := by
        have same : net.opened = b.net.opened := by
          cases effect with
          | enqueue sender => cases sender <;> rfl
          | _ => rfl
        change ∀ i, sessions < i → i ∉ net.opened
        rw [same]
        exact slow.unopened
      queue := by
        change (net.queue 1).length = told'
        rw [← queue]
        cases effect with
        | enqueue sender => cases sender <;> rfl
        | _ => rfl
      stopped := slow.stopped }
  · change net.hub.At m (returning m) point'
    rw [hubs]
    exact at_advance_self

/-- Peer 2 connects again. -/
theorem Slow.returns (slow : Slow b sessions told) :
    ∃ next, Leads (boundedSystem openHub).atomic b next ∧ Slow next (sessions + 1) told ∧
      next.net.hub.At (sessions + 1) (returning (sessions + 1)) .claim := by
  obtain rfl := slow.seq
  let m := b.net.hub.sessionSeq + 1
  let task (hub : State) (task : Task) : State :=
    { hub with tasks := Function.update hub.tasks m (some task) }
  let quit : Net := { b.net with spokes := Function.update b.net.spokes 2 none }
  let spawned := quit.put 2 (.new staleVips2)
  let accepted : Net := { spawned with
    hub := task { b.net.hub with sessionSeq := m } (.exchanging 2) }
  let exchanged : Net := { accepted with hub := task accepted.hub (.opening 2 staleVips2) }
  let opened : Net := {
    exchanged.put 2 ⟨staleVips2, ∅, some m, false, ∅, fun _ => [], fun _ => none⟩ with
    opened := insert m b.net.opened }
  let claiming : Net := { opened with hub := task opened.hub (.at (returning m) .claim) }
  have first : (boundedSystem openHub).atomic b (.mesh (.quit 2)) =
      some { b with net := quit } := rfl
  have second : (boundedSystem openHub).atomic { b with net := quit }
      (.mesh (.spawn 2 staleVips2)) = some { b with net := spawned } := rfl
  have third : (boundedSystem openHub).atomic { b with net := spawned }
      (.mesh (.hub (.accept 2))) = some { b with net := accepted } := rfl
  have fourth : (boundedSystem openHub).atomic { b with net := accepted }
      (.mesh (.hub (.act m (.exchanged staleVips2)))) = some { b with net := exchanged } := by
    have found : accepted.hub.tasks m = some (.exchanging 2) := Function.update_self ..
    change Option.map _ (Option.map _ ((accepted.hub.tasks m).bind _)) = _
    simp only [found, Option.bind_some, effectOf]
    rfl
  have fifth : (boundedSystem openHub).atomic { b with net := exchanged }
      (.mesh (.spoke 2 (.openControl m))) = some { b with net := opened } := by
    have found : exchanged.hub.tasks m = some (.opening 2 staleVips2) := Function.update_self ..
    have unopened : m ∉ b.net.opened := slow.unopened m (Nat.lt_succ_self _)
    have waits : awaits 2 (exchanged.hub.tasks m) = true := by
      rw [found]
      rfl
    change Option.map _ (spokeStep openHub exchanged 2
      (.new staleVips2) (.openControl m)) = _
    rw [spokeStep, if_pos ⟨rfl, unopened, waits⟩]
    rfl
  have sixth : (boundedSystem openHub).atomic { b with net := opened }
      (.mesh (.hub (.act m (.controlOpened none)))) = some { b with net := claiming } := by
    have found : opened.hub.tasks m = some (.opening 2 staleVips2) := Function.update_self ..
    have ready : Mesh.ready opened (.act m (.controlOpened none)) = true :=
      decide_eq_true (Finset.mem_insert_self m _)
    change Option.map _ (if _ then Option.map _ ((opened.hub.tasks m).bind _) else none) = _
    rw [if_pos ready]
    simp only [found, Option.bind_some, effectOf]
    rfl
  have leads := (((((Leads.refl b).tail first).tail second).tail third).tail fourth).tail fifth
  have distinct : 1 ≠ m := by
    have later := slow.later
    omega
  refine ⟨_, leads.tail sixth, ?_, Function.update_self ..⟩
  exact {
    seq := rfl
    later := Nat.le_succ_of_le slow.later
    first := by
      have before : accepted.hub.tasks 1 = b.net.hub.tasks 1 := Function.update_of_ne distinct _ _
      have after : claiming.hub.tasks 1 = exchanged.hub.tasks 1 :=
        Function.update_of_ne distinct _ _
      exact (after.trans (Function.update_of_ne distinct _ _)).trans (before.trans slow.first)
    fan := slow.fan
    free := slow.free
    unopened := by
      intro i above member
      rcases Finset.mem_insert.mp member with rfl | before
      · exact Nat.lt_irrefl _ above
      · exact slow.unopened i (Nat.lt_of_succ_lt above) before
    queue := slow.queue
    stopped := slow.stopped }

theorem admits_claimed {idx : HubPeerIndex} (free : ∀ m, Admits (returning m) idx) (m k : Nat) :
    Admits (returning k) (claimClosure (returning m) idx) := by
  rw [claimClosure_of_admits (free m)]
  constructor
  · rintro ⟨p, found, other⟩
    cases (HashMap.get_put_self idx.byV4 staleVips2.v4 (returning m)).symm.trans found
    exact other rfl
  · rintro ⟨p, found, other⟩
    cases (HashMap.get_put_self idx.byV6 staleVips2.v6 (returning m)).symm.trans found
    exact other rfl

/-- Peer 2 connects again, and session 1 is told that it joined. -/
theorem Slow.joins (slow : Slow b sessions told) (room : told < tunCtrlQueue) :
    ∃ next, Leads (boundedSystem openHub).atomic b next ∧
      Slow next (sessions + 1) (told + 1) := by
  have other : sessions + 1 ≠ 1 := by
    have later := slow.later
    omega
  have notPeer1 : (1 : EndpointId) ≠ 2 := by decide
  obtain ⟨b1, lead1, slow1, here1⟩ := slow.returns
  obtain ⟨b2, lead2, slow2, here2, hub2⟩ := slow1.acts here1 other .claim rfl rfl rfl slow1.fan
    (admits_claimed slow1.free _) slow1.queue
  have own : OwnSlot 2 (b2.net.hub.peers.byV4.get staleVips2.v4) := by
    rw [hub2, advance_peers]
    change OwnSlot 2 ((claimClosure (returning (sessions + 1)) b1.net.hub.peers).byV4.get _)
    rw [claimClosure_of_admits (slow1.free _)]
    exact ⟨_, HashMap.get_put_self _ _ _, rfl⟩
  have verified : pointStep openHub b2.net.hub.peers b2.net.hub (returning (sessions + 1))
      .verify .verify = some (.insertFan, .silent) := by
    rw [pointStep, claimVerdict_ok_iff.mpr own]
  obtain ⟨b3, lead3, slow3, here3, -⟩ := slow2.acts here2 other .verify verified rfl rfl slow2.fan
    slow2.free slow2.queue
  obtain ⟨b4, lead4, slow4, here4, -⟩ := slow3.acts here3 other .insertFan rfl rfl rfl
    ((HashMap.get_put_of_ne notPeer1 _ _).trans slow3.fan) slow3.free slow3.queue
  obtain ⟨b5, lead5, slow5, here5, -⟩ := slow4.acts here4 other (.addRoute true) rfl rfl rfl
    slow4.fan slow4.free slow4.queue
  obtain ⟨b6, lead6, slow6, here6, -⟩ := slow5.acts here5 other (.addRoute true) rfl rfl rfl
    slow5.fan slow5.free slow5.queue
  obtain ⟨entries, listed⟩ := snapshot_shown openHub b6.net.hub
    (rfl : (returning (sessions + 1)).hidden = false)
  obtain ⟨b7, lead7, slow7, here7, -⟩ := slow6.acts here6 other (.snapshot entries) listed rfl rfl
    slow6.fan slow6.free slow6.queue
  obtain ⟨b8, lead8, slow8, here8, -⟩ := slow7.acts here7 other .collect rfl rfl rfl slow7.fan
    slow7.free slow7.queue
  have registered : Sender.roster 1 ∈ b7.net.hub.fans.values :=
    HashMap.mem_values.mpr ⟨1, slow7.fan⟩
  have go : proceeds b8 (.hub (.act (sessions + 1) (.send (.roster 1)))) = true := by
    rw [proceeds, slow8.queue, decide_eq_true room, Bool.or_true]
  have queued : (Net.post b8.net (sessions + 1)
      (.enqueue (.roster 1) (.joined (returning (sessions + 1)).entry))).queue 1 =
        b8.net.queue 1 ++ [.joined (returning (sessions + 1)).entry] :=
    Function.update_self 1 _ b8.net.queue
  have longer : ((Net.post b8.net (sessions + 1)
      (.enqueue (.roster 1) (.joined (returning (sessions + 1)).entry))).queue 1).length =
        told + 1 := by
    rw [queued, List.length_append, slow8.queue]
    rfl
  obtain ⟨b9, lead9, slow9, -, -⟩ := slow8.acts here8 other (.send (.roster 1))
    (if_pos registered) rfl go slow8.fan slow8.free longer
  exact ⟨b9, (((((((lead1.trans lead2).trans lead3).trans lead4).trans lead5).trans lead6).trans
    lead7).trans lead8).trans lead9, slow9⟩

/-- Session 1 registers its sender before anything else happens. -/
theorem slow_reached : ∃ b, Leads (boundedSystem openHub).atomic .start b ∧ Slow b 1 0 := by
  let events : List QueueEvent := [.mesh (.spawn 1 staleVips1), .mesh (.hub (.accept 1)),
    .mesh (.hub (.act 1 (.exchanged staleVips1))), .mesh (.spoke 1 (.openControl 1)),
    .mesh (.hub (.act 1 (.controlOpened none))), .mesh (.hub (.act 1 .claim)),
    .mesh (.hub (.act 1 .verify)), .mesh (.hub (.act 1 .insertFan))]
  have ran : run (boundedSystem openHub).atomic .start events = some _ := rfl
  refine ⟨_, ⟨events, ran⟩, ?_⟩
  exact {
    seq := rfl
    later := Nat.le_refl 1
    first := rfl
    fan := rfl
    free := fun m => ⟨by rintro ⟨p, ⟨⟩, -⟩, by rintro ⟨p, ⟨⟩, -⟩⟩
    unopened := by
      intro i above member
      obtain rfl := Finset.mem_singleton.mp member
      exact Nat.lt_irrefl _ above
    queue := rfl
    stopped := rfl }

theorem slow_full : ∀ told ≤ tunCtrlQueue, ∃ b,
    Leads (boundedSystem openHub).atomic .start b ∧ Slow b (told + 1) told
  | 0, _ => slow_reached
  | told + 1, room => by
      obtain ⟨b, leads, slow⟩ := slow_full told (Nat.le_of_succ_le room)
      obtain ⟨next, joins, later⟩ := slow.joins room
      exact ⟨next, leads.trans joins, later⟩

/-- With its queue full, session 1 goes on to tell itself that it joined. -/
theorem Slow.jams (slow : Slow b sessions told) (full : tunCtrlQueue ≤ told) :
    ∃ next, Leads (boundedSystem openHub).atomic b next ∧ Jam next {1} ∧
      Blocked next.net.hub {1} 1 := by
  let hub1 := advance b.net.hub 1 slowPeer .addRoute6 (.addRoute4 slowPeer.vip)
  let hub2 := advance hub1 1 slowPeer .snapshot (.addRoute6 slowPeer.vip6)
  obtain ⟨entries, listed⟩ :=
    snapshot_shown openHub hub2 (rfl : slowPeer.hidden = false)
  let hub3 := advance hub2 1 slowPeer .collectJoined (.write (encodeSnapshot entries))
  let hub4 := advance hub3 1 slowPeer (.sendJoined b.net.hub.fans.values) .silent
  let b1 : Bounded := { b with net := { b.net with hub := hub1 } }
  let b2 : Bounded := { b with net := { b.net with hub := hub2 } }
  let b3 : Bounded := { b with
    net := Net.post { b.net with hub := hub3 } 1 (.write (encodeSnapshot entries)) }
  let b4 : Bounded := { b with net := { b3.net with hub := hub4 } }
  have lead1 : Leads (boundedSystem openHub).atomic b b1 :=
    leads_act _ slow.first (.addRoute true) .addRoute6 (.addRoute4 slowPeer.vip) rfl rfl rfl
  have lead2 : Leads (boundedSystem openHub).atomic b1 b2 :=
    leads_act _ (at_advance_self : hub1.At 1 slowPeer .addRoute6) (.addRoute true) .snapshot
      (.addRoute6 slowPeer.vip6) rfl rfl rfl
  have lead3 : Leads (boundedSystem openHub).atomic b2 b3 :=
    leads_act _ (at_advance_self : hub2.At 1 slowPeer .snapshot) _ .collectJoined _ listed rfl rfl
  have lead4 : Leads (boundedSystem openHub).atomic b3 b4 :=
    leads_act _ (at_advance_self : hub3.At 1 slowPeer .collectJoined) .collect
      (.sendJoined b.net.hub.fans.values) .silent rfl rfl rfl
  have here : b4.net.hub.At 1 slowPeer (.sendJoined b.net.hub.fans.values) := at_advance_self
  have owed : Sender.roster 1 ∈ b.net.hub.fans.values := HashMap.mem_values.mpr ⟨1, slow.fan⟩
  refine ⟨b4, ((lead1.trans lead2).trans lead3).trans lead4, ?_, slowPeer, _, here, 1, rfl, owed⟩
  exact {
    sending := by
      rintro _ rfl
      exact ⟨slowPeer, _, here, 1, rfl, owed⟩
    full := by
      rintro _ rfl
      exact slow.queue ▸ full
    alive := by
      rintro _ rfl member
      rw [slow.stopped] at member
      exact Finset.notMem_empty 1 member }

/-- **The hub can jam.** Session 1 registers its sender, 32 sessions of another peer come in
before it goes on, and then it waits for good for a place in its own queue. -/
theorem hub_jams : ∃ before state,
    run (retryStep (boundedSystem openHub)) (.start .start) before = some state ∧
      Jam state.base {1} ∧ ∀ after,
        AllStates (retryStep (boundedSystem openHub))
          (fun later => Held {1} 1 state.base.net.queue later.base) state after := by
  obtain ⟨b, leads, slow⟩ := slow_full tunCtrlQueue (Nat.le_refl _)
  obtain ⟨next, jams, jam, blocked⟩ := slow.jams (Nat.le_refl _)
  obtain ⟨state, ⟨before, ran⟩, rfl⟩ := leads_lift (Retrying.start Bounded.start) (leads.trans jams)
  exact ⟨before, state, ran, jam, fun after => jam_lasts openHub ran jam blocked⟩

end LinkP2p.Tun.Mesh
