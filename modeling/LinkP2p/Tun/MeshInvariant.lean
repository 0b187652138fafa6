import LinkP2p.Tun.Mesh

/-!
# Queues and streams in every run

Nobody sends to a session before it has registered its queue, and nothing is on
its control stream before the snapshot.
-/

namespace LinkP2p.Tun.Mesh

open LinkP2p.Lib LinkP2p.Lib.Transition LinkP2p.Lib.Rcu LinkP2p.Lib.KeyedUpdates LinkP2p.Tun.Hub

variable {cfg : HubConfig} {seen : HubPeerIndex} {net next : Net} {event : MeshEvent}

/-! ## The mesh as a system with one cell -/

def meshSystem (cfg : HubConfig) : System Net MeshEvent Nat HubPeerIndex where
  cell := fun net => net.hub.peers
  step := meshStep cfg
  thread := MeshEvent.swaps
  frame := by
    intro value net event next alone taken
    cases meshStep_moves taken with
    | hub event hub stepped =>
        rw [post_hub]
        exact (hubSystem cfg).frame value net.hub event hub alone stepped
    | spoke id spoke act next found moves => cases moves <;> rfl
    | forward | spawn | quit => rfl

/-! ## What a move sends, and to whom -/

/-- The session has inserted its sender into `RosterFans`. -/
def registered : Point → Bool
  | .claim | .verify | .insertFan | .rejected => false
  | _ => true

/-- The session has written the snapshot. -/
def snapshotted : Point → Bool
  | .collectJoined | .sendJoined _ | .running | .remove | .reload | .removeFan _
  | .collectLeft _ | .sendLeft _ _ | .delRoute4 _ | .delRoute6 | .finished => true
  | _ => false

/-- The senders that a broadcast under way has yet to serve. -/
def waiting : Point → Multiset Sender
  | .sendJoined rest | .sendLeft _ rest => rest
  | _ => 0

def Registered (hub : State) (i : Nat) : Prop :=
  ∃ peer point, hub.At i peer point ∧ registered point = true

def Snapshotted (hub : State) (i : Nat) : Prop :=
  ∃ peer point, hub.At i peer point ∧ snapshotted point = true

structure MailMove (hub : State) (peer : HubPeer) (point point' : Point) (effect : Effect) :
    Prop where
  registered : registered point = true → registered point' = true
  snapshotted : snapshotted point = true → snapshotted point' = true
  late : point' ≠ .claim
  collected : ∀ fan ∈ waiting point', fan ∈ waiting point ∨ fan ∈ hub.fans.values
  fans : ∀ id fan, (effect.apply hub).fans.get id = some fan →
    hub.fans.get id = some fan ∨ fan = .roster peer.session ∧ Mesh.registered point' = true
  enqueued : ∀ fan msg, effect = .enqueue fan msg → fan ∈ waiting point
  written : ∀ msg, effect = .write msg → Mesh.snapshotted point' = true

theorem mailMove {hub : State} {peer : HubPeer} {point point' : Point} {act : Act}
    {effect : Effect} (move : Moves cfg hub.peers hub peer point act point' effect) :
    MailMove hub peer point point' effect := by
  cases move with
  | insertFan =>
      refine ⟨nofun, nofun, nofun, nofun, fun id fan found => ?_, nofun, nofun⟩
      rcases HashMap.get_of_get_put found with ⟨_, rfl⟩ | ⟨_, old⟩
      · exact Or.inr ⟨rfl, rfl⟩
      · exact Or.inl old
  | removeFanFailed | removeFanHidden | removeFanShown =>
      refine ⟨id, id, nofun, nofun, fun id fan found => ?_, nofun, nofun⟩
      exact Or.inl (HashMap.get_of_get_remove found).2
  | snapshotHidden | snapshotShown =>
      exact ⟨id, nofun, nofun, nofun, fun _ _ => Or.inl, nofun, fun _ _ => rfl⟩
  | collectJoined | collectLeft =>
      exact ⟨id, id, nofun, fun _ => Or.inr, fun _ _ => Or.inl, nofun, nofun⟩
  | sendJoined rest fan member | sendLeft removed rest fan member =>
      refine ⟨id, id, nofun, fun _ kept => Or.inl (Multiset.mem_of_mem_erase kept),
        fun _ _ => Or.inl, ?_, nofun⟩
      rintro _ _ ⟨⟩
      exact member
  | _ =>
      refine ⟨?_, ?_, nofun, nofun, fun _ _ => Or.inl, nofun, nofun⟩
      · first | exact fun _ => rfl | exact nofun
      · first | exact fun _ => rfl | exact nofun

/-! ## The invariant -/

/-- The task serves a connection of this peer. -/
def Serves (id : EndpointId) (task : Option Task) : Prop :=
  task = some (.exchanging id) ∨ (∃ peer, task = some (.opening id peer)) ∨
    task = some .aborted ∨ ∃ peer point, task = some (.at peer point) ∧ peer.id = id

theorem id_of_serves {hub : State} {id : EndpointId} {i : Nat} {peer : HubPeer} {point : Point}
    (serves : Serves id (hub.tasks i)) (here : hub.At i peer point) : peer.id = id := by
  rcases serves with same | ⟨_, same⟩ | same | ⟨_, _, same, own⟩ <;> cases here.symm.trans same
  exact own

structure Posted (net : Net) : Prop where
  wf : Wf net.hub
  fans : ∀ id fan, net.hub.fans.get id = some fan → ∃ i, fan = .roster i ∧ Registered net.hub i
  collected : ∀ s peer point fan, net.hub.At s peer point → fan ∈ waiting point →
    ∃ i, fan = .roster i ∧ Registered net.hub i
  queue : ∀ i, ¬ Registered net.hub i → net.queue i = []
  wire : ∀ i, ¬ Snapshotted net.hub i → net.wire i = []
  conn : ∀ id spoke i, net.spokes id = some spoke → spoke.conn = some i →
    Serves id (net.hub.tasks i)
  readers : ∀ id spoke i, net.spokes id = some spoke → i ∈ spoke.readers →
    Serves id (net.hub.tasks i)
  todo : ∀ id spoke i, net.spokes id = some spoke → ¬ Snapshotted net.hub i →
    spoke.todo i = []

theorem posted_start : Posted .start where
  wf := wf_start
  fans := nofun
  collected := nofun
  queue := fun _ _ => rfl
  wire := fun _ _ => rfl
  conn := nofun
  readers := nofun
  todo := nofun

/-! ## Steps of the hub -/

section Hub

variable {hub : State} {event : Event}

theorem serves_step {id : EndpointId} {i : Nat} (fresh : Fresh net.hub)
    (stepped : step cfg seen net.hub event = some hub) (serves : Serves id (net.hub.tasks i)) :
    Serves id (hub.tasks i) := by
  cases event with
  | accept peerId =>
      cases stepped
      have used : i ≠ net.hub.sessionSeq + 1 := by
        rintro rfl
        rw [fresh _ (by omega)] at serves
        rcases serves with impossible | ⟨_, impossible⟩ | impossible | ⟨_, _, impossible, _⟩ <;>
          cases impossible
      dsimp only
      split
      · rwa [Function.update_of_ne used]
      · exact serves
  | act s act =>
      obtain ⟨task, task', effect, found, moves, rfl, _⟩ := act_cases stepped
      change Serves id (Function.update net.hub.tasks s (some task') i)
      by_cases same : i = s
      · subst same
        rw [Function.update_self]
        rw [found] at serves
        cases moves with
        | exchanged peerId peer =>
            rcases serves with same | ⟨_, same⟩ | same | ⟨_, _, same, _⟩ <;> cases same
            exact Or.inr (Or.inl ⟨peer, rfl⟩)
        | aborted => exact Or.inr (Or.inr (Or.inl rfl))
        | opened peerId peer hello =>
            rcases serves with same | ⟨_, same⟩ | same | ⟨_, _, same, _⟩ <;> cases same
            exact Or.inr (Or.inr (Or.inr ⟨_, _, rfl, rfl⟩))
        | moved peer move =>
            rcases serves with same | ⟨_, same⟩ | same | ⟨_, _, same, own⟩ <;> cases same
            exact Or.inr (Or.inr (Or.inr ⟨_, _, rfl, own⟩))
      · rwa [Function.update_of_ne same]

/-- What a session has done stays done. -/
theorem done_step {done : Point → Bool} (notClaim : done .claim = false)
    (fresh : Fresh net.hub) (stepped : step cfg net.hub.peers net.hub event = some hub)
    (keeps : ∀ peer point point' effect, MailMove net.hub peer point point' effect →
      done point = true → done point' = true)
    {i : Nat} (before : ∃ peer point, net.hub.At i peer point ∧ done point = true) :
    ∃ peer point, hub.At i peer point ∧ done point = true := by
  obtain ⟨p, q, there, met⟩ := before
  cases step_cases fresh stepped with
  | quiet _ quiet =>
      refine ⟨p, q, (quiet.at_iff i p q ?_).mpr there, met⟩
      rintro rfl
      cases met.symm.trans notClaim
  | moved s peer here move =>
      obtain ⟨q', there', met'⟩ := at_after (fun q => done q = true) here
        (fun _ _ => keeps _ _ _ _ (mailMove move)) ⟨q, there, met⟩
      exact ⟨p, q', there', met'⟩

theorem registered_step (fresh : Fresh net.hub)
    (stepped : step cfg net.hub.peers net.hub event = some hub) {i : Nat}
    (before : Registered net.hub i) : Registered hub i :=
  done_step rfl fresh stepped (fun _ _ _ _ mail => mail.registered) before

theorem snapshotted_step (fresh : Fresh net.hub)
    (stepped : step cfg net.hub.peers net.hub event = some hub) {i : Nat}
    (before : Snapshotted net.hub i) : Snapshotted hub i :=
  done_step rfl fresh stepped (fun _ _ _ _ mail => mail.snapshotted) before

end Hub

theorem post_queue (net : Net) (s : Nat) (effect : Effect) (i : Nat) :
    (net.post s effect).queue i = net.queue i ∨
      ∃ msg, effect = .enqueue (.roster i) msg ∧
        (net.post s effect).queue i = net.queue i ++ [msg] := by
  cases effect with
  | enqueue fan msg =>
      cases fan with
      | outbound j => exact Or.inl rfl
      | roster j =>
          by_cases same : i = j
          · subst same
            exact Or.inr ⟨msg, rfl, Function.update_self _ _ _⟩
          · exact Or.inl (Function.update_of_ne same _ _)
  | _ => exact Or.inl rfl

theorem post_wire (net : Net) (s : Nat) (effect : Effect) (i : Nat) :
    (net.post s effect).wire i = net.wire i ∨
      ∃ msg, effect = .write msg ∧ i = s ∧
        (net.post s effect).wire i = net.wire i ++ [msg] := by
  cases effect with
  | enqueue fan => cases fan <;> exact Or.inl rfl
  | write msg =>
      by_cases same : i = s
      · subst same
        exact Or.inr ⟨msg, rfl, rfl, Function.update_self _ _ _⟩
      · exact Or.inl (Function.update_of_ne same _ _)
  | _ => exact Or.inl rfl

theorem posted_hub (posted : Posted net) {event : Event} {hub : State}
    (stepped : step cfg net.hub.peers net.hub event = some hub) :
    Posted (Net.post { net with hub := hub } (sessionOf event)
      (effectOf cfg net.hub.peers net.hub event)) := by
  have fresh := posted.wf.fresh
  have taken : (hubSystem cfg).atomic net.hub event = some hub := stepped
  have onward := fun i => registered_step (i := i) fresh stepped
  have sent : ∀ fan, (∃ i, fan = Sender.roster i ∧ Registered net.hub i) →
      ∃ i, fan = Sender.roster i ∧ Registered hub i :=
    fun fan ⟨i, same, known⟩ => ⟨i, same, onward i known⟩
  refine ⟨?_, ?_, ?_, ?_, ?_, ?_, ?_, ?_⟩
  · rw [post_hub]
    exact wf_step posted.wf taken
  · rw [post_hub]
    intro id fan found
    cases step_cases fresh stepped with
    | quiet _ quiet =>
        rw [quiet.fans] at found
        exact sent fan (posted.fans id fan found)
    | moved s peer here move =>
        rcases (mailMove move).fans id fan found with old | ⟨rfl, now⟩
        · exact sent fan (posted.fans id fan old)
        · rw [(posted.wf.number s peer _ here).1]
          exact ⟨s, rfl, peer, _, at_advance_self, now⟩
  · rw [post_hub]
    intro s p q fan there member
    cases step_cases fresh stepped with
    | quiet _ quiet =>
        refine sent fan (posted.collected s p q fan ((quiet.at_iff s p q ?_).mp there) member)
        rintro rfl
        exact absurd member (Multiset.notMem_zero fan)
    | moved t peer here move =>
        rcases at_advance there with ⟨rfl, rfl, rfl⟩ | ⟨_, before⟩
        · rcases (mailMove move).collected fan member with old | fromFans
          · exact sent fan (posted.collected s p _ fan here old)
          · obtain ⟨id, found⟩ := HashMap.mem_values.mp fromFans
            exact sent fan (posted.fans id fan found)
        · exact sent fan (posted.collected s p q fan before member)
  · rw [post_hub]
    intro i unregistered
    have before : ¬ Registered net.hub i := fun known => unregistered (onward i known)
    rcases post_queue { net with hub := hub } (sessionOf event)
      (effectOf cfg net.hub.peers net.hub event) i with same | ⟨msg, enqueued, _⟩
    · rw [same]
      exact posted.queue i before
    · cases step_cases fresh stepped with
      | quiet _ _ silent => cases silent.symm.trans enqueued
      | moved s peer here move sentEffect =>
          rw [sentEffect] at enqueued
          obtain ⟨j, same, known⟩ :=
            posted.collected s peer _ _ here ((mailMove move).enqueued _ msg enqueued)
          cases same
          exact absurd known before
  · rw [post_hub]
    intro i unsnapped
    have before : ¬ Snapshotted net.hub i :=
      fun known => unsnapped (snapshotted_step fresh stepped known)
    rcases post_wire { net with hub := hub } (sessionOf event)
      (effectOf cfg net.hub.peers net.hub event) i with same | ⟨msg, written, rfl, _⟩
    · rw [same]
      exact posted.wire i before
    · cases step_cases fresh stepped with
      | quiet _ _ silent => cases silent.symm.trans written
      | moved s peer here move sentEffect =>
          rw [sentEffect] at written
          exact absurd ⟨peer, _, at_advance_self, (mailMove move).written msg written⟩ unsnapped
  · rw [post_hub, post_spokes]
    intro id spoke i found conn
    exact serves_step fresh stepped (posted.conn id spoke i found conn)
  · rw [post_hub, post_spokes]
    intro id spoke i found reads
    exact serves_step fresh stepped (posted.readers id spoke i found reads)
  · rw [post_hub, post_spokes]
    intro id spoke i found unsnapped
    refine posted.todo id spoke i found fun known => ?_
    exact unsnapped (snapshotted_step fresh stepped known)

/-! ## Steps of the spokes -/

theorem spokes_of_put {id other : EndpointId} {spoke found : Spoke}
    (there : (net.put id spoke).spokes other = some found) :
    (other = id ∧ found = spoke) ∨ (other ≠ id ∧ net.spokes other = some found) := by
  change Function.update net.spokes id (some spoke) other = some found at there
  rcases eq_or_ne other id with rfl | distinct
  · rw [Function.update_self] at there
    exact Or.inl ⟨rfl, (Option.some.inj there).symm⟩
  · rw [Function.update_of_ne distinct] at there
    exact Or.inr ⟨distinct, there⟩

/-- A step that changes one spoke and puts nothing on a queue or stream. -/
theorem posted_put (posted : Posted net) {id : EndpointId} {spoke : Spoke}
    (hub : next.hub = net.hub) (queue : next.queue = net.queue)
    (wire : ∀ i, net.wire i = [] → next.wire i = [])
    (spokes : next.spokes = (net.put id spoke).spokes)
    (conn : ∀ i, spoke.conn = some i → Serves id (net.hub.tasks i))
    (readers : ∀ i ∈ spoke.readers, Serves id (net.hub.tasks i))
    (todo : ∀ i, ¬ Snapshotted net.hub i → spoke.todo i = []) :
    Posted next where
  wf := by rw [hub]; exact posted.wf
  fans := by rw [hub]; exact posted.fans
  collected := by rw [hub]; exact posted.collected
  queue := by rw [hub, queue]; exact posted.queue
  wire := by
    rw [hub]
    exact fun i unsnapped => wire i (posted.wire i unsnapped)
  conn := by
    rw [hub, spokes]
    intro other found i there
    rcases spokes_of_put there with ⟨rfl, rfl⟩ | ⟨_, old⟩
    · exact conn i
    · exact posted.conn other found i old
  readers := by
    rw [hub, spokes]
    intro other found i there
    rcases spokes_of_put there with ⟨rfl, rfl⟩ | ⟨_, old⟩
    · exact readers i
    · exact posted.readers other found i old
  todo := by
    rw [hub, spokes]
    intro other found i there
    rcases spokes_of_put there with ⟨rfl, rfl⟩ | ⟨_, old⟩
    · exact todo i
    · exact posted.todo other found i old

theorem serves_of_awaits {id : EndpointId} {task : Option Task}
    (awaiting : awaits id task = true) : Serves id task := by
  unfold awaits at awaiting
  split at awaiting
  · rw [of_decide_eq_true awaiting]
    exact Or.inl rfl
  · rw [of_decide_eq_true awaiting]
    exact Or.inr (Or.inl ⟨_, rfl⟩)
  · cases awaiting

theorem posted_spoke (posted : Posted net) {id : EndpointId} {spoke : Spoke} {act : SpokeAct}
    (found : net.spokes id = some spoke) (moves : SpokeMoves cfg net id spoke act next) :
    Posted next := by
  have conn := fun i => posted.conn id spoke i found
  have readers := fun i => posted.readers id spoke i found
  have todo := fun i => posted.todo id spoke i found
  cases moves with
  | load | link | unlink =>
      exact posted_put posted rfl rfl (fun _ empty => empty) rfl conn readers todo
  | openControl i free awaiting =>
      refine posted_put posted rfl rfl (fun _ empty => empty) rfl ?_ readers todo
      rintro _ ⟨⟩
      exact serves_of_awaits awaiting
  | connect i base connected =>
      refine posted_put posted rfl rfl (fun _ empty => empty) rfl conn (fun j reads => ?_) todo
      rcases Finset.mem_insert.mp reads with rfl | before
      · exact conn j connected
      · exact readers j before
  | disconnect | giveUp =>
      exact posted_put posted rfl rfl (fun _ empty => empty) rfl nofun readers todo
  | take i msg rest reads written idle =>
      refine posted_put posted rfl rfl (fun j empty => ?_) rfl conn readers fun j unsnapped => ?_
      · change Function.update net.wire i rest j = []
        rcases eq_or_ne j i with rfl | other
        · cases written.symm.trans empty
        · rwa [Function.update_of_ne other]
      · change Function.update spoke.todo i (updates id msg) j = []
        rcases eq_or_ne j i with rfl | other
        · cases written.symm.trans (posted.wire j unsnapped)
        · rw [Function.update_of_ne other]
          exact todo j unsnapped
  | apply i update rest base left =>
      refine posted_put posted rfl rfl (fun _ empty => empty) rfl conn readers fun j unsnapped => ?_
      change Function.update spoke.todo i rest j = []
      rcases eq_or_ne j i with rfl | other
      · cases left.symm.trans (todo j unsnapped)
      · rw [Function.update_of_ne other]
        exact todo j unsnapped
  | stop i idle =>
      refine posted_put posted rfl rfl (fun _ empty => empty) rfl conn (fun j reads => ?_) todo
      exact readers j (Finset.mem_of_mem_erase reads)

theorem posted_step (posted : Posted net)
    (taken : (meshSystem cfg).atomic net event = some next) : Posted next := by
  cases meshStep_moves taken with
  | hub event hub stepped => exact posted_hub posted stepped
  | forward i peer msg rest here queued =>
      refine { posted with queue := fun j unregistered => ?_, wire := fun j unsnapped => ?_ }
      · change Function.update net.queue i rest j = []
        rcases eq_or_ne j i with rfl | other
        · exact absurd ⟨peer, _, here, rfl⟩ unregistered
        · rw [Function.update_of_ne other]
          exact posted.queue j unregistered
      · change Function.update net.wire i (net.wire i ++ [msg]) j = []
        rcases eq_or_ne j i with rfl | other
        · exact absurd ⟨peer, _, here, rfl⟩ unsnapped
        · rw [Function.update_of_ne other]
          exact posted.wire j unsnapped
  | spawn id own =>
      exact posted_put posted rfl rfl (fun _ empty => empty) rfl nofun
        (fun _ reads => absurd reads (Finset.notMem_empty _)) fun _ _ => rfl
  | quit id =>
      have old : ∀ {other found}, Function.update net.spokes id none other = some found →
          net.spokes other = some found := by
        intro other found there
        rcases eq_or_ne other id with rfl | distinct
        · rw [Function.update_self] at there
          cases there
        · rwa [Function.update_of_ne distinct] at there
      exact { posted with
        conn := fun other found i there => posted.conn other found i (old there)
        readers := fun other found i there => posted.readers other found i (old there)
        todo := fun other found i there => posted.todo other found i (old there) }
  | spoke id spoke act next found moves => exact posted_spoke posted found moves

end LinkP2p.Tun.Mesh
