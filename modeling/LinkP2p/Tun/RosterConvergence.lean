import LinkP2p.Tun.RosterChecks

/-!
# Roster convergence

In a run whose steps all settle, every connected spoke holds what the hub lists
as soon as the sessions rest and all messages are applied.
-/

namespace LinkP2p.Tun.Mesh

open LinkP2p.Lib LinkP2p.Lib.Transition LinkP2p.Lib.Rcu LinkP2p.Lib.KeyedUpdates LinkP2p.Tun.Hub

variable {cfg : HubConfig} {net next : Net} {id e : EndpointId} {spoke : Spoke} {i s : Nat}
  {peer : HubPeer} {point : Point}

/-! ## Steps of the spokes -/

/-- A step of the spoke that leaves the outcome under `e` as it was. -/
theorem Sound.settled {idx : HubPeerIndex} {spoke' : Spoke}
    (sound : Sound cfg idx net id spoke i point e) (queue : next.queue i = net.queue i)
    (same : settle (next.pending id spoke' i) e (spoke'.roster.get e) =
      settle (net.pending id spoke i) e (spoke.roster.get e)) :
    Sound cfg idx next id spoke' i point e := by
  unfold Sound at sound ⊢
  rw [same, queue]
  exact sound

/-- The hub's own entry is what the hub lists already. -/
theorem Sound.hub_entry {idx : HubPeerIndex} {spoke' : Spoke}
    (sound : Sound cfg idx net id spoke i point e) (todo : spoke'.todo = spoke.todo)
    (roster : spoke'.roster = spoke.roster.put cfg.ownId cfg.own) :
    Sound cfg idx (net.put id spoke') id spoke' i point e := by
  have pending : (net.put id spoke').pending id spoke' i = net.pending id spoke i := by
    rw [Net.pending, Net.pending, todo]
    rfl
  by_cases told : snapshotted point = true
  · refine sound.settled rfl ?_
    rw [Sound, if_pos told] at sound
    rw [pending, roster]
    by_cases mentioned : Mentions (net.pending id spoke i) e
    · exact settle_of_mentions mentioned _ _
    · rcases eq_or_ne e cfg.ownId with rfl | other
      · rw [settle_of_not_mentions mentioned] at sound
        rw [HashMap.get_put_self, (sound cfg.own).mpr (Or.inl ⟨rfl, rfl⟩)]
      · rw [HashMap.get_put_of_ne other]
  · rw [Sound, if_neg told] at sound ⊢
    exact sound

theorem sync_put (sync : InSync cfg net) (hub : next.hub = net.hub)
    (spokes : next.spokes = (net.put id spoke).spokes) (queue : next.queue = net.queue)
    (wire : ∀ other found i peer point, other ≠ id → Reader net other found i peer point →
      next.wire i = net.wire i)
    (own : ∀ i peer point e, spoke.conn = some i → net.hub.At i peer point →
      point.attached = true → e ≠ id →
        Sound cfg net.hub.peers next id spoke i point e ∨ Owed net.hub e i) :
    InSync cfg next := by
  intro other found i peer point e reads notOwn
  have there := reads.found
  have here := reads.here
  rw [spokes] at there
  rw [hub] at here ⊢
  rcases spokes_of_put there with ⟨rfl, rfl⟩ | ⟨distinct, there⟩
  · exact own i peer point e reads.conn here reads.up notOwn
  · have old : Reader net other found i peer point := ⟨there, reads.conn, here, reads.up⟩
    refine (sync other found i peer point e old notOwn).imp_left fun sound => ?_
    refine sound.settled (by rw [queue]) ?_
    rw [Net.pending, Net.pending, wire other found i peer point distinct old, queue]

/-- An update that comes from elsewhere than the open control stream. -/
theorem sync_update (sync : InSync cfg net) (found : net.spokes id = some spoke)
    {update : Update EndpointId OwnVips} {spoke' : Spoke} (conn : spoke'.conn = spoke.conn)
    (roster : spoke'.roster = update.apply spoke.roster)
    (todo : ∀ i, spoke.conn = some i → spoke'.todo i = spoke.todo i)
    (harmless : Harmless cfg net id update.key update.value) :
    InSync cfg (net.put id spoke') := by
  refine sync_put sync rfl rfl rfl (fun _ _ _ _ _ _ _ => rfl) ?_
  intro i peer point e connected here up other
  rw [conn] at connected
  have reads : Reader net id spoke i peer point := ⟨found, connected, here, up⟩
  have pending : (net.put id spoke').pending id spoke' i = net.pending id spoke i := by
    rw [Net.pending, Net.pending, todo i connected]
    rfl
  have held : spoke'.roster.get e =
      if update.key = e then update.value else spoke.roster.get e := by
    rw [roster, get_apply]
  have kept (same : settle (net.pending id spoke i) e (spoke'.roster.get e) =
      settle (net.pending id spoke i) e (spoke.roster.get e)) :
      Sound cfg net.hub.peers (net.put id spoke') id spoke' i point e ∨ Owed net.hub e i :=
    (sync id spoke i peer point e reads other).imp_left fun sound =>
      sound.settled rfl (by rw [pending, same])
  by_cases about : update.key = e
  · subst about
    rw [if_pos rfl] at held
    by_cases told : snapshotted point = true
    · rcases harmless spoke i peer point reads told other with owed | mentioned | agrees
      · exact Or.inr owed
      · exact kept (settle_of_mentions mentioned _ _)
      · by_cases mentioned : Mentions (net.pending id spoke i) update.key
        · exact kept (settle_of_mentions mentioned _ _)
        · refine Or.inl ?_
          rw [Sound, if_pos told, pending, settle_of_not_mentions mentioned, held]
          exact agrees
    · refine (sync id spoke i peer point _ reads other).imp_left fun sound => ?_
      rw [Sound, if_neg told] at sound ⊢
      exact sound
  · rw [if_neg about] at held
    exact kept (by rw [held])

theorem sync_spoke (posted : Posted net) (sync : InSync cfg net) {act : SpokeAct}
    (settles : Settles cfg net (.spoke id act)) (found : net.spokes id = some spoke)
    (moves : SpokeMoves cfg net id spoke act next) : InSync cfg next := by
  have before : ∀ i peer point e, spoke.conn = some i → net.hub.At i peer point →
      point.attached = true → e ≠ id →
        Sound cfg net.hub.peers net id spoke i point e ∨ Owed net.hub e i :=
    fun i peer point e conn here up => sync id spoke i peer point e ⟨found, conn, here, up⟩
  cases moves with
  | load updater =>
      refine sync_put sync rfl rfl rfl (fun _ _ _ _ _ _ _ => rfl) ?_
      intro i peer point e conn here up other
      exact (before i peer point e conn here up other).imp_left fun sound => sound.settled rfl rfl
  | openControl i free awaiting =>
      refine sync_put sync rfl rfl rfl (fun _ _ _ _ _ _ _ => rfl) ?_
      rintro _ peer point e ⟨⟩ here
      rw [here] at awaiting
      cases awaiting
  | connect i base connected loaded =>
      obtain rfl := settles spoke base found loaded
      refine sync_put sync rfl rfl rfl (fun _ _ _ _ _ _ _ => rfl) ?_
      intro j peer point e conn here up other
      exact (before j peer point e conn here up other).imp_left fun sound =>
        sound.hub_entry rfl rfl
  | disconnect | giveUp =>
      refine sync_put sync rfl rfl rfl (fun _ _ _ _ _ _ _ => rfl) ?_
      rintro _ _ _ _ ⟨⟩
  | take i msg rest reading written idle =>
      refine sync_put sync rfl rfl rfl ?_ ?_
      · intro other reader j peer point distinct reads
        refine Function.update_of_ne ?_ _ _
        rintro rfl
        -- one session serves one peer
        have theirs := id_of_serves (posted.conn other reader j reads.found reads.conn) reads.here
        have own := id_of_serves (posted.readers id spoke j found reading) reads.here
        exact distinct (theirs.symm.trans own)
      · intro j peer point e connected here up other
        refine (before j peer point e connected here up other).imp_left fun sound => ?_
        refine sound.settled rfl (congrArg (fun pending => settle pending e _) ?_)
        change Function.update spoke.todo i (updates id msg) j ++
          mail id (Function.update net.wire i rest j ++ net.queue j) =
            spoke.todo j ++ mail id (net.wire j ++ net.queue j)
        rcases eq_or_ne j i with rfl | distinct
        · rw [Function.update_self, Function.update_self, idle, written, List.nil_append,
            List.cons_append]
          rfl
        · rw [Function.update_of_ne distinct, Function.update_of_ne distinct]
  | apply i update rest base left loaded =>
      obtain ⟨current, harmless⟩ := settles
      obtain rfl := current spoke base found loaded
      by_cases own : spoke.conn = some i
      · refine sync_put sync rfl rfl rfl (fun _ _ _ _ _ _ _ => rfl) ?_
        intro j peer point e connected here up other
        cases own.symm.trans connected
        refine (before i peer point e own here up other).imp_left fun sound => sound.settled rfl ?_
        change settle (Function.update spoke.todo i rest i ++ mail id (net.wire i ++ net.queue i)) e
            ((update.apply spoke.roster).get e) =
          settle (spoke.todo i ++ mail id (net.wire i ++ net.queue i)) e (spoke.roster.get e)
        rw [Function.update_self, settle_apply, left, List.cons_append]
      · refine sync_update sync found rfl rfl (fun j connected => ?_)
          (harmless spoke update rest found own left)
        refine Function.update_of_ne ?_ _ _
        rintro rfl
        exact own connected
  | stop i idle =>
      refine sync_put sync rfl rfl rfl (fun _ _ _ _ _ _ _ => rfl) ?_
      intro j peer point e conn here up other
      exact (before j peer point e conn here up other).imp_left fun sound => sound.settled rfl rfl
  | link n peerId vips base loaded =>
      obtain ⟨current, harmless⟩ := settles
      obtain rfl := current spoke base found loaded
      exact @sync_update _ _ _ _ sync found (.insert peerId vips) _ rfl rfl (fun _ _ => rfl)
        harmless
  | unlink n base loaded =>
      obtain rfl := settles spoke base found loaded
      refine sync_put sync rfl rfl rfl (fun _ _ _ _ _ _ _ => rfl) ?_
      intro i peer point e conn here up other
      exact (before i peer point e conn here up other).imp_left fun sound => sound.settled rfl rfl

/-- A message goes from the queue to the stream. -/
theorem sync_forward (sync : InSync cfg net) {msg : RosterMsg} {rest : List RosterMsg}
    (here : net.hub.At s peer .running) (queued : net.queue s = msg :: rest) :
    InSync cfg { net with
      wire := Function.update net.wire s (net.wire s ++ [msg])
      queue := Function.update net.queue s rest } := by
  intro id spoke i reader point e reads other
  have old : Reader net id spoke i reader point := ⟨reads.found, reads.conn, reads.here, reads.up⟩
  refine (sync id spoke i reader point e old other).imp_left fun sound => ?_
  rcases eq_or_ne i s with rfl | distinct
  · obtain ⟨_, rfl⟩ := here.unique old.here
    have told : snapshotted .running = true := rfl
    rw [Sound, if_pos told] at sound ⊢
    have same : Net.pending { net with
        wire := Function.update net.wire i (net.wire i ++ [msg])
        queue := Function.update net.queue i rest } id spoke i = net.pending id spoke i := by
      change spoke.todo i ++ mail id (Function.update net.wire i _ i ++
        Function.update net.queue i rest i) = _
      rw [Function.update_self, Function.update_self, List.append_assoc, List.singleton_append,
        ← queued]
      rfl
    rw [same]
    exact sound
  · refine sound.settled (Function.update_of_ne distinct _ _) ?_
    rw [Net.pending, Net.pending]
    dsimp only
    rw [Function.update_of_ne distinct, Function.update_of_ne distinct]

theorem sync_step (posted : Posted net) (sync : InSync cfg net) {event : MeshEvent}
    (settles : Settles cfg net event) (taken : (meshSystem cfg).atomic net event = some next) :
    InSync cfg next := by
  cases meshStep_moves taken with
  | hub event hub stepped =>
      cases step_cases posted.wf.fresh stepped with
      | quiet _ quiet silent =>
          rw [silent]
          exact sync_quiet sync quiet
      | moved s peer here move sent =>
          rw [sent]
          exact sync_moved posted sync settles here move
  | forward i peer msg rest here queued => exact sync_forward sync here queued
  | spawn id own => exact sync_put sync rfl rfl rfl (fun _ _ _ _ _ _ _ => rfl) nofun
  | quit id =>
      intro other spoke i peer point e reads
      have there : Function.update net.spokes id none other = some spoke := reads.found
      rcases eq_or_ne other id with rfl | distinct
      · rw [Function.update_self] at there
        cases there
      · rw [Function.update_of_ne distinct] at there
        exact sync other spoke i peer point e ⟨there, reads.conn, reads.here, reads.up⟩
  | spoke id spoke act next found moves => exact sync_spoke posted sync settles found moves

/-! ## Whole runs -/

/-- The task is neither starting nor tearing down. -/
def resting : Option Task → Bool
  | none => true
  | some .aborted => true
  | some (.at _ point) =>
      match point with
      | .running | .rejected | .routeErr | .finished => true
      | _ => false
  | _ => false

/-- With all sessions at rest, a spoke whose session is up and whose messages are
all applied holds, apart from itself, exactly what the hub lists. -/
def Converged (cfg : HubConfig) (net : Net) : Prop :=
  (∀ i, resting (net.hub.tasks i) = true) →
    ∀ id spoke i peer, net.spokes id = some spoke → spoke.conn = some i →
      net.hub.At i peer .running → spoke.todo i = [] → net.wire i = [] → net.queue i = [] →
        ∀ e, e ≠ id → ∀ vips, spoke.roster.get e = some vips ↔ Listed cfg net.hub.peers e vips

/-- At rest nothing is owed. -/
theorem not_owed_of_resting {hub : State} (rests : ∀ i, resting (hub.tasks i) = true) :
    ¬ Owed hub e i := by
  rintro ⟨t, q, point, there, _, _, owes⟩
  have rest := rests t
  rw [there] at rest
  cases point with
  | running | rejected | routeErr | finished =>
      exact owes.elim (fun both => both.2.elim) False.elim
  | _ => cases rest

theorem converged_of_inSync (sync : InSync cfg net) : Converged cfg net := by
  intro rests id spoke i peer found conn here idle wire queue e other
  rcases sync id spoke i peer .running e ⟨found, conn, here, rfl⟩ other with sound | owed
  · have told : snapshotted .running = true := rfl
    rw [Sound, if_pos told, Net.pending, idle, wire, queue] at sound
    exact sound
  · exact absurd owed (not_owed_of_resting rests)

/-- The sessions of a finished run rest when the accepted ones do. -/
theorem resting_of_run {events : List (RetryEvent MeshEvent Nat)}
    {final : Retrying Net Nat HubPeerIndex}
    (ran : run (retryStep (meshSystem cfg)) (.start .start) events = some final)
    (rests : ∀ i < final.base.hub.sessionSeq + 1, resting (final.base.hub.tasks i) = true)
    (i : Nat) : resting (final.base.hub.tasks i) = true := by
  have posted := ((retry_invariant (fun _ _ _ => posted_step) posted_start events).final ran).2
  rcases Nat.lt_or_ge i (final.base.hub.sessionSeq + 1) with accepted | beyond
  · exact rests i accepted
  · rw [posted.wf.fresh i beyond]
    rfl

theorem inSync_start : InSync cfg .start := by
  rintro id spoke i peer point e ⟨found⟩
  cases found

/-- **Roster convergence.** In every state of a run whose steps settle, the
connected spokes hold what the hub lists once the sessions rest. -/
theorem roster_converges (cfg : HubConfig) (events : List (RetryEvent MeshEvent Nat))
    (settles : AllSteps (retryStep (meshSystem cfg)) (OnActs (Settles cfg)) (.start .start)
      events) :
    AllStates (retryStep (meshSystem cfg)) (fun state => Converged cfg state.base)
      (.start .start) events := by
  have kept : ∀ net event next, Posted net ∧ InSync cfg net → Settles cfg net event →
      (meshSystem cfg).atomic net event = some next → Posted next ∧ InSync cfg next :=
    fun net event next held met taken =>
      ⟨posted_step held.1 taken, sync_step held.1 held.2 met taken⟩
  exact (retry_allStates kept ⟨posted_start, inSync_start⟩ settles).mono
    fun _ held => converged_of_inSync held.2

/-- A spoke connects as session `i`, which claims the addresses. -/
def arrive (i : Nat) (id : EndpointId) (own : OwnVips) (hidden : Bool) :
    List (RetryEvent MeshEvent Nat) :=
  [.act (.hub (.accept id)), .act (.hub (.act i (.exchanged own))),
    .act (.spoke id (.openControl i)), .act (.spoke id (.load .session)),
    .act (.spoke id .connect),
    .act (.hub (.act i (.controlOpened (some hidden)))),
    .load i, .act (.hub (.act i .claim)), .act (.hub (.act i .verify))]

/-- The rest of its start, up to the snapshot. -/
def snapshotRun (i : Nat) (entries : List RosterEntry) : List (RetryEvent MeshEvent Nat) :=
  [.act (.hub (.act i .insertFan)), .act (.hub (.act i (.addRoute true))),
    .act (.hub (.act i (.addRoute true))), .act (.hub (.act i (.snapshot entries)))]

def join (i : Nat) (id : EndpointId) (own : OwnVips) (hidden : Bool)
    (entries : List RosterEntry) : List (RetryEvent MeshEvent Nat) :=
  arrive i id own hidden ++ snapshotRun i entries

/-- Session `i` broadcasts to the sessions `hearers`. -/
def tell (i : Nat) (hearers : List Nat) : List (RetryEvent MeshEvent Nat) :=
  .act (.hub (.act i .collect)) ::
    hearers.map (fun j => .act (.hub (.act i (.send (.roster j))))) ++
    [.act (.hub (.act i .sent))]

/-- The reader of session `i` applies `n` updates. -/
def applyAll (id : EndpointId) (i n : Nat) : List (RetryEvent MeshEvent Nat) :=
  (List.replicate n
    [.act (.spoke id (.load (.reader i))), .act (.spoke id (.apply i))]).flatten

/-- The reader of session `i` reads and applies a message of `n` updates. -/
def readMessage (id : EndpointId) (i n : Nat) : List (RetryEvent MeshEvent Nat) :=
  .act (.spoke id (.take i)) :: applyAll id i n

def staleVips1 : OwnVips := ⟨0xAC180001, 0xfd24ac18000000000000000000000001⟩

/-- A broadcast message reaches the spoke. -/
def hearMessage (id : EndpointId) (i n : Nat) : List (RetryEvent MeshEvent Nat) :=
  .act (.forward i) :: readMessage id i n

/-- The hub's own entry in a snapshot. -/
def staleHubEntry : RosterEntry := ⟨0xAC1800FE, 0xfd24ac180000000000000000000000fe, 9⟩

/-- The teardown of session `i` up to the withdrawal of its sender. -/
def leave (i : Nat) : List (RetryEvent MeshEvent Nat) :=
  [.act (.hub (.act i .closed)), .load i, .act (.hub (.act i .remove)),
    .act (.hub (.act i .reload)), .act (.hub (.act i .removeFan))]

def staleVips2 : OwnVips := ⟨0xAC180002, 0xfd24ac18000000000000000000000002⟩

def staleEntry2 : RosterEntry := ⟨0xAC180002, 0xfd24ac18000000000000000000000002, 2⟩

def staleEntry1 : RosterEntry := ⟨0xAC180001, 0xfd24ac18000000000000000000000001, 1⟩

/-- Both peers join. The reader of session 2 has taken the snapshot when peer 1 loses its
connection, and session 2 tears down after session 3 has claimed and before it broadcasts;
the old reader applies the snapshot beside session 3. -/
def rejoinRun : List (RetryEvent MeshEvent Nat) :=
  [.act (.spawn 1 staleVips1), .act (.spawn 2 staleVips2)] ++
  join 1 2 staleVips2 false [staleHubEntry, staleEntry2] ++ tell 1 [1] ++
  readMessage 2 1 1 ++ hearMessage 2 1 0 ++
  join 2 1 staleVips1 false [staleHubEntry, staleEntry2, staleEntry1] ++ tell 2 [1, 2] ++
  hearMessage 2 1 1 ++
  [.act (.spoke 1 (.take 2)), .act (.spoke 1 (.load .session)), .act (.spoke 1 .disconnect)] ++
  arrive 3 1 staleVips1 false ++
  leave 2 ++ tell 2 [1] ++ [.act (.hub (.act 2 .delRoute))] ++
  snapshotRun 3 [staleHubEntry, staleEntry2, staleEntry1] ++ tell 3 [1, 3] ++
  applyAll 1 2 2 ++ [.act (.spoke 1 (.stop 2))] ++
  hearMessage 2 1 1 ++ hearMessage 2 1 1 ++
  readMessage 1 3 2 ++ hearMessage 1 3 0

/-- In the end both peers hold what the hub lists. -/
theorem rejoin_converges : ∃ final spoke1 spoke2,
    run (retryStep (meshSystem openHub)) (.start .start) rejoinRun = some final ∧
      final.base.spokes 1 = some spoke1 ∧ final.base.spokes 2 = some spoke2 ∧
      (∀ e, e ≠ 1 → ∀ vips, spoke1.roster.get e = some vips ↔
        Listed openHub final.base.hub.peers e vips) ∧
      ∀ e, e ≠ 2 → ∀ vips, spoke2.roster.get e = some vips ↔
        Listed openHub final.base.hub.peers e vips := by
  have settles : AllSteps (retryStep (meshSystem openHub))
      (OnActs fun net event => settled openHub [1, 2] net event = true) (.start .start)
      rejoinRun := by decide +kernel
  have ran : run (retryStep (meshSystem openHub)) (.start .start) rejoinRun = some _ := rfl
  have converged := (roster_converges openHub rejoinRun (allSteps_of_settled settles)).final
    ran (resting_of_run ran (by decide))
  exact ⟨_, _, _, ran, rfl, rfl, converged 1 _ 3 _ rfl rfl rfl rfl rfl rfl,
    converged 2 _ 1 _ rfl rfl rfl rfl rfl rfl⟩

/-- Peer 2 joins, and peer 1 after it; peer 1 loses its connection, peer 2 leaves
in the meantime, and peer 1 connects again. -/
def staleRosterRun : List (RetryEvent MeshEvent Nat) :=
  [.act (.spawn 1 staleVips1), .act (.spawn 2 staleVips2)] ++
  join 1 2 staleVips2 false [staleHubEntry, staleEntry2] ++
  tell 1 [1] ++
  join 2 1 staleVips1 true [staleHubEntry, staleEntry2] ++ readMessage 1 2 2 ++
  [.act (.spoke 1 (.load .session)), .act (.spoke 1 .disconnect), .act (.spoke 1 (.stop 2))] ++
  leave 2 ++
  [.act (.hub (.act 2 .delRoute)), .act (.hub (.act 2 .delRoute))] ++
  [.act (.quit 2)] ++ leave 1 ++ tell 1 [] ++
  [.act (.hub (.act 1 .delRoute)), .act (.hub (.act 1 .delRoute))] ++
  join 3 1 staleVips1 true [staleHubEntry] ++ readMessage 1 3 1

/-- The roster of peer 1 still has peer 2 in it: the second snapshot is merged
into the old roster, and nobody has told peer 1 that peer 2 left. -/
theorem roster_keeps_departed :
    ¬ AllStates (retryStep (meshSystem openHub))
      (fun state => Converged openHub state.base) (.start .start) staleRosterRun := by
  intro all
  have ran : run (retryStep (meshSystem openHub)) (.start .start) staleRosterRun =
      some _ := rfl
  have converged := all.final ran (resting_of_run ran (by decide)) 1 _ 3 _ rfl rfl rfl rfl rfl rfl
    2 (by decide) staleVips2
  rcases converged.mp rfl with ⟨same, _⟩ | ⟨key, p, found, shown, about, _⟩
  · cases same
  · have only : p = ⟨1, 3, 0xAC180001, 0xfd24ac18000000000000000000000001, .outbound 3, true⟩ :=
      Multiset.mem_singleton.mp (HashMap.mem_values.mpr ⟨key, found⟩)
    subst only
    cases shown

end LinkP2p.Tun.Mesh
