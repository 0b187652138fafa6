import LinkP2p.Tun.RosterSync

/-!
# Moves of the hub and the rosters

A move of one session can change what the hub lists about its own peer, and what
is sent to the other spokes. `Settles` names the moves after which a spoke is
left with something else than the hub lists and nobody will tell it.
-/

namespace LinkP2p.Tun.Mesh

open LinkP2p.Lib LinkP2p.Lib.Transition LinkP2p.Lib.Rcu LinkP2p.Lib.KeyedUpdates LinkP2p.Tun.Hub

/-- Session `i` serves a connected spoke other than `e`. -/
def Hears (net : Net) (e : EndpointId) (i : Nat) : Prop :=
  ∃ id spoke peer point, Reader net id spoke i peer point ∧ id ≠ e

/-- The `mesh_update` under way has loaded the roster that its store replaces. -/
def Current (net : Net) (id : EndpointId) (updater : Updater) : Prop :=
  ∀ spoke base, net.spokes id = some spoke → spoke.loaded updater = some base →
    base = spoke.roster

/-- What is put under `e` from elsewhere than the open control stream is what the hub lists,
or a message about `e` is still to be applied. -/
def Harmless (cfg : HubConfig) (net : Net) (id e : EndpointId) (now : Option OwnVips) : Prop :=
  ∀ spoke i peer point, Reader net id spoke i peer point → snapshotted point = true → e ≠ id →
    Owed net.hub e i ∨ Mentions (net.pending id spoke i) e ∨ Agrees cfg net.hub.peers e now

/-- What a step must meet for the spokes to stay in sync. -/
def Settles (cfg : HubConfig) (net : Net) : MeshEvent → Prop
  -- a hidden session takes the place of a visible one only if `Left` is to come
  | .hub (.act s .claim) =>
      ∀ q i, net.hub.At s q .claim → q.hidden = true → Admits q net.hub.peers →
        Hears net q.id i →
          (∀ p, net.hub.peers.byV4.get q.vip = some p → p.hidden = true) ∨
            ∃ t p point, net.hub.At t p point ∧ p.id = q.id ∧ p.hidden = false ∧
              retracts i point
  -- a session whose routes failed goes without `Left`, and no spoke misses it
  | .hub (.act s .remove) =>
      ∀ q id spoke i peer point, net.hub.At s q .routeFailed → q.hidden = false →
        net.hub.peers.byV4.get q.vip = some q → Reader net id spoke i peer point → id ≠ q.id →
          Sound cfg (removeClosure q.vip q.vip6 q.session net.hub.peers) net id spoke i point
            q.id ∨ OwedBut net.hub s q.id i
  -- a broadcast finds the sender of every connected spoke
  | .hub (.act s .collect) =>
      ∀ q point i, net.hub.At s q point → q.hidden = false → Hears net q.id i →
        .roster i ∈ net.hub.fans.values
  -- `Joined` says what the index says, and `Left` is not about a listed peer
  | .hub (.act s (.send (.roster i))) =>
      (∀ q rest, net.hub.At s q (.sendJoined rest) → Hears net q.id i →
        Agrees cfg net.hub.peers q.id (some ⟨q.vip, q.vip6⟩) ∨ OwedBut net.hub s q.id i) ∧
      ∀ q removed rest, net.hub.At s q (.sendLeft removed rest) → Hears net q.id i →
        Agrees cfg net.hub.peers q.id none ∨ OwedBut net.hub s q.id i
  -- a snapshot is whole, and is merged into a roster without departed peers
  | .hub (.act s (.snapshot _)) =>
      net.hub.peers.byV4.values.card < rosterMaxEntries ∧
      ∀ id spoke peer e, Reader net id spoke s peer .snapshot → e ≠ id →
        Owed net.hub e s ∨ Mentions (mail id (net.queue s)) e ∨
          (∀ v w, Listed cfg net.hub.peers e v → Listed cfg net.hub.peers e w → v = w) ∧
            ((∀ v, ¬ Listed cfg net.hub.peers e v) → spoke.roster.get e = none)
  -- no `mesh_update` overwrites another one
  | .spoke id .connect => Current net id .session
  | .spoke id (.unlink n) => Current net id (.link n)
  -- neither does a reader that has outlived its session undo what the next one has heard
  | .spoke id (.apply j) =>
      Current net id (.reader j) ∧
      ∀ spoke update rest, net.spokes id = some spoke → spoke.conn ≠ some j →
        spoke.todo j = update :: rest → Harmless cfg net id update.key update.value
  -- a direct link brings in what the hub lists
  | .spoke id (.link n e vips) => Current net id (.link n) ∧ Harmless cfg net id e (some vips)
  | _ => True

variable {cfg : HubConfig} {net next : Net} {id e : EndpointId} {spoke : Spoke} {i s t : Nat}
  {peer p : HubPeer} {point point' q : Point} {act : Act} {effect : Effect}

/-- The net after the move of one session. -/
def Net.moved (net : Net) (s : Nat) (peer : HubPeer) (point : Point) (effect : Effect) : Net :=
  Net.post { net with hub := advance net.hub s peer point effect } s effect

@[simp]
theorem moved_hub : (net.moved s peer point effect).hub = advance net.hub s peer point effect :=
  post_hub _ _ _

@[simp]
theorem moved_spokes : (net.moved s peer point effect).spokes = net.spokes :=
  post_spokes _ _ _

theorem moved_wire (unwritten : ∀ msg, effect = .write msg → i ≠ s) :
    (net.moved s peer point effect).wire i = net.wire i := by
  rcases post_wire { net with hub := advance net.hub s peer point effect } s effect i with
    same | ⟨msg, written, mine, _⟩
  · exact same
  · exact absurd mine (unwritten msg written)

theorem moved_queue (net : Net) (s : Nat) (peer : HubPeer) (point : Point) (effect : Effect)
    (i : Nat) :
    ∃ more, (net.moved s peer point effect).queue i = net.queue i ++ more ∧
      (more = [] ∨ ∃ msg, effect = .enqueue (.roster i) msg ∧ more = [msg]) := by
  rcases post_queue { net with hub := advance net.hub s peer point effect } s effect i with
    same | ⟨msg, enqueued, more⟩
  · exact ⟨[], by rw [List.append_nil]; exact same, Or.inl rfl⟩
  · exact ⟨[msg], more, Or.inr ⟨msg, enqueued, rfl⟩⟩

/-! ## What is owed -/

/-- A session keeps its entry through the moves of others, other claims for the
same peer apart. -/
theorem entry_kept (wf : Wf net.hub) (here : net.hub.At s peer point)
    (move : IndexMove net.hub peer point act point' effect)
    (found : net.hub.peers.byV4.get p.vip = some p) (other : p.session ≠ s)
    (free : act = .claim → p.id ≠ peer.id) :
    (effect.apply net.hub).peers.byV4.get p.vip = some p := by
  cases move with
  | claim =>
      change (claimClosure peer net.hub.peers).byV4.get p.vip = some p
      by_cases admits : Admits peer net.hub.peers
      · rw [claimClosure_of_admits admits]
        refine (HashMap.get_put_of_ne (fun same => ?_) _ _).trans found
        rw [same] at found
        exact admits.1 ⟨p, found, free rfl⟩
      · rwa [claimClosure_of_not_admits admits]
  | rejected => exact found
  | remove =>
      refine get_removeClosure.mpr ⟨found, fun both => other ?_⟩
      rw [both.2, (wf.number s peer _ here).1]
  | keep peers => rwa [peers]

/-- What another session owes stays owed. -/
theorem owed_other (wf : Wf net.hub) (other : t ≠ s)
    (kept : ∀ r : HubPeer, r.session = t → r.id = e → r.hidden = false →
      net.hub.peers.byV4.get r.vip = some r →
        (effect.apply net.hub).peers.byV4.get r.vip = some r)
    (owed : OwedBy net.hub t e i) :
    OwedBy (advance net.hub s peer point' effect) t e i := by
  obtain ⟨r, place, there, about, shown, owes⟩ := owed
  refine ⟨r, place, (at_advance_of_ne other).mpr there, about, shown, ?_⟩
  rcases owes with ⟨found, waits⟩ | waits
  · exact Or.inl ⟨kept r (wf.number t r place there).1 about shown found, waits⟩
  · exact Or.inr waits

theorem owed_but (wf : Wf net.hub) (here : net.hub.At s peer point)
    (move : IndexMove net.hub peer point act point' effect) (notClaim : act ≠ .claim)
    (owed : OwedBut net.hub s e i) : Owed (advance net.hub s peer point' effect) e i := by
  obtain ⟨t, other, owed⟩ := owed
  refine ⟨t, owed_other wf other (fun r number _ _ found => ?_) owed⟩
  exact entry_kept wf here move found (by rwa [number]) fun claim => absurd claim notClaim

/-! ## Moves of a session, seen by other peers' entries -/

theorem silent_of_enqueue {seen : HubPeerIndex} {fan : Sender} {msg : RosterMsg}
    (move : Moves cfg seen net.hub peer point act point' (.enqueue fan msg))
    (other : e ≠ peer.id) : ¬ Mentions (updates id msg) e := by
  cases move with
  | sendJoined => exact not_mentions_joined other
  | sendLeft => exact not_mentions_left other

/-- A move changes nothing about another peer than its own. -/
theorem sync_other (posted : Posted net) (here : net.hub.At s peer point)
    (move : Moves cfg net.hub.peers net.hub peer point act point' effect) (other : e ≠ peer.id)
    {first second : Point} (told : snapshotted second = snapshotted first)
    (unwritten : ∀ msg, effect = .write msg → i ≠ s)
    (before : Sound cfg net.hub.peers net id spoke i first e ∨ Owed net.hub e i) :
    Sound cfg (net.moved s peer point' effect).hub.peers (net.moved s peer point' effect) id spoke
        i second e ∨ Owed (net.moved s peer point' effect).hub e i := by
  have wf := posted.wf
  rw [moved_hub]
  rcases before with sound | ⟨t, owed⟩
  · obtain ⟨more, queue, sent⟩ := moved_queue net s peer point' effect i
    refine Or.inl (sound.append (listed_other wf here move.index other) told
      (moved_wire unwritten) queue ?_)
    rcases sent with rfl | ⟨msg, rfl, rfl⟩
    · exact not_mentions_nil e
    · rw [mail_singleton]
      exact silent_of_enqueue move other
  · refine Or.inr ⟨t, owed_other wf ?_ (fun r number about _ found => ?_) owed⟩
    · rintro rfl
      obtain ⟨r, place, there, about, _⟩ := owed
      obtain ⟨rfl, _⟩ := there.unique here
      exact other about.symm
    · refine entry_kept wf here move.index found ?_ fun _ => by rwa [about]
      rintro mine
      obtain ⟨_, there, _⟩ := wf.owner4 _ r found
      rw [mine] at there
      obtain ⟨rfl, _⟩ := there.unique here
      exact other about.symm

/-! ## Moves of a session, seen by its own peer's entry -/

/-- A move that leaves the listing alone and sends nothing to session `i`. -/
theorem sync_still (wf : Wf net.hub) (distinct : i ≠ s) (here : net.hub.At s peer point)
    (listed : ∀ vips, Listed cfg (effect.apply net.hub).peers peer.id vips ↔
      Listed cfg net.hub.peers peer.id vips)
    (unsent : ∀ msg, effect ≠ .enqueue (.roster i) msg)
    (kept : ∀ r : HubPeer, r.session ≠ s → r.id = peer.id → r.hidden = false →
      net.hub.peers.byV4.get r.vip = some r →
        (effect.apply net.hub).peers.byV4.get r.vip = some r)
    (own : peer.hidden = false →
      net.hub.peers.byV4.get peer.vip = some peer ∧ announces i point ∨ retracts i point →
        (effect.apply net.hub).peers.byV4.get peer.vip = some peer ∧ announces i point' ∨
          retracts i point')
    (before : Sound cfg net.hub.peers net id spoke i q peer.id ∨ Owed net.hub peer.id i) :
    Sound cfg (net.moved s peer point' effect).hub.peers (net.moved s peer point' effect) id spoke
        i q peer.id ∨ Owed (net.moved s peer point' effect).hub peer.id i := by
  rw [moved_hub]
  rcases before with sound | ⟨t, owed⟩
  · obtain ⟨more, queue, sent⟩ := moved_queue net s peer point' effect i
    refine Or.inl (sound.append listed rfl (moved_wire fun _ _ => distinct) queue ?_)
    rcases sent with rfl | ⟨msg, enqueued, _⟩
    · exact not_mentions_nil _
    · exact absurd enqueued (unsent msg)
  · refine Or.inr ⟨t, ?_⟩
    rcases eq_or_ne t s with rfl | other
    · obtain ⟨r, place, there, _, shown, owes⟩ := owed
      obtain ⟨rfl, rfl⟩ := there.unique here
      exact ⟨r, point', at_advance_self, rfl, shown, own shown owes⟩
    · exact owed_other wf other (fun r number => kept r (by rwa [number])) owed

/-- A move that leaves the index alone and sends nothing to session `i`. -/
theorem sync_keep (wf : Wf net.hub) (distinct : i ≠ s) (here : net.hub.At s peer point)
    (peers : (effect.apply net.hub).peers = net.hub.peers)
    (unsent : ∀ msg, effect ≠ .enqueue (.roster i) msg)
    (own : peer.hidden = false →
      net.hub.peers.byV4.get peer.vip = some peer ∧ announces i point ∨ retracts i point →
        net.hub.peers.byV4.get peer.vip = some peer ∧ announces i point' ∨ retracts i point')
    (before : Sound cfg net.hub.peers net id spoke i q peer.id ∨ Owed net.hub peer.id i) :
    Sound cfg (net.moved s peer point' effect).hub.peers (net.moved s peer point' effect) id spoke
        i q peer.id ∨ Owed (net.moved s peer point' effect).hub peer.id i := by
  refine sync_still wf distinct here (fun _ => by rw [peers]) unsent ?_ ?_ before
  · exact fun r _ _ _ found => by rwa [peers]
  · rwa [peers]

theorem sync_claim (posted : Posted net) (settles : Settles cfg net (.hub (.act s .claim)))
    (here : net.hub.At s peer .claim) (distinct : i ≠ s) (hears : Hears net peer.id i)
    (before : Sound cfg net.hub.peers net id spoke i q peer.id ∨ Owed net.hub peer.id i) :
    let effect := Effect.store (claimClosure peer net.hub.peers) (installs peer net.hub.peers)
    Sound cfg (net.moved s peer .verify effect).hub.peers (net.moved s peer .verify effect) id
        spoke i q peer.id ∨ Owed (net.moved s peer .verify effect).hub peer.id i := by
  intro effect
  have wf := posted.wf
  by_cases admits : Admits peer net.hub.peers
  · cases shown : peer.hidden with
    | false =>
        -- the entry is in, and the broadcast is to come
        refine Or.inr ⟨s, peer, .verify, ?_, rfl, shown, Or.inl ⟨?_, trivial⟩⟩
        · rw [moved_hub]
          exact at_advance_self
        · rw [moved_hub]
          exact (holds_claimClosure admits).1
    | true =>
        rcases settles peer i here shown admits hears with
          clear | ⟨t, r, place, there, about, visible, waits⟩
        · refine sync_still wf distinct here (listed_claimed shown clear) nofun ?_ ?_ before
          · intro r _ _ visible found
            change (claimClosure peer net.hub.peers).byV4.get r.vip = some r
            rw [claimClosure_of_admits admits]
            refine (HashMap.get_put_of_ne (fun same => ?_) _ _).trans found
            rw [same] at found
            cases visible.symm.trans (clear r found)
          · exact fun visible => by cases visible.symm.trans shown
        · have other : t ≠ s := by
            rintro rfl
            obtain ⟨_, rfl⟩ := there.unique here
            exact waits
          rw [moved_hub]
          exact Or.inr ⟨t, r, place, (at_advance_of_ne other).mpr there, about, visible,
            Or.inr waits⟩
  · have peers := claimClosure_of_not_admits admits
    exact sync_keep wf distinct here peers nofun
      (fun _ owes => owes.elim (fun both => both.2.elim) False.elim) before

/-- Once a removal has found no visible entry of its session, nothing is left to say. -/
theorem sync_removed (wf : Wf net.hub) (here : net.hub.At s peer point) (distinct : i ≠ s)
    (away : peer.hidden = false → net.hub.peers.byV4.get peer.vip ≠ some peer)
    (silent : peer.hidden = false → ¬ retracts i point)
    (before : Sound cfg net.hub.peers net id spoke i q peer.id ∨ Owed net.hub peer.id i) :
    let effect := Effect.store (removeClosure peer.vip peer.vip6 peer.session net.hub.peers) none
    Sound cfg (net.moved s peer point' effect).hub.peers (net.moved s peer point' effect) id
        spoke i q peer.id ∨ Owed (net.moved s peer point' effect).hub peer.id i := by
  intro effect
  refine sync_still wf distinct here (listed_removed wf here away) nofun ?_ ?_ before
  · intro r other _ _ found
    refine get_removeClosure.mpr ⟨found, fun both => other ?_⟩
    rw [both.2, (wf.number s peer _ here).1]
  · rintro shown (⟨found, _⟩ | waits)
    · exact absurd found (away shown)
    · exact absurd waits (silent shown)

theorem sync_about (posted : Posted net) (settles : Settles cfg net (.hub (.act s act)))
    (here : net.hub.At s peer point)
    (move : Moves cfg net.hub.peers net.hub peer point act point' effect) (distinct : i ≠ s)
    {reader : HubPeer} (reads : Reader net id spoke i reader q) (other : id ≠ peer.id)
    (before : Sound cfg net.hub.peers net id spoke i q peer.id ∨ Owed net.hub peer.id i) :
    Sound cfg (net.moved s peer point' effect).hub.peers (net.moved s peer point' effect) id spoke
        i q peer.id ∨ Owed (net.moved s peer point' effect).hub peer.id i := by
  have wf := posted.wf
  have hears : Hears net peer.id i := ⟨id, spoke, reader, q, reads, other⟩
  have index := move.index
  have owed : ∀ {point''}, act ≠ .claim → OwedBut net.hub s peer.id i →
      IndexMove net.hub peer point act point'' effect →
        Owed (net.moved s peer point'' effect).hub peer.id i := by
    intro point'' notClaim owed index
    rw [moved_hub]
    exact owed_but wf here index notClaim owed
  cases move with
  | claim => exact sync_claim posted settles here distinct hears before
  | rejected lost =>
      refine sync_keep wf distinct here rfl nofun ?_ before
      rintro _ (⟨found, _⟩ | impossible)
      · exact absurd ⟨peer, found, rfl⟩ lost
      · exact impossible.elim
  | removeFailed =>
      by_cases gone : peer.hidden = false ∧ net.hub.peers.byV4.get peer.vip = some peer
      · rcases settles peer id spoke i reader q here gone.1 gone.2 reads other with
          sound | owes
        · refine Or.inl ?_
          rw [moved_hub]
          exact sound.append (fun _ => Iff.rfl) rfl (moved_wire nofun)
            (List.append_nil _).symm (not_mentions_nil _)
        · exact Or.inr (owed nofun owes index)
      · exact sync_removed wf here distinct (fun shown found => gone ⟨shown, found⟩)
          (fun _ => nofun) before
  | remove =>
      cases shown : peer.hidden with
      | false =>
          refine Or.inr ⟨s, peer, .reload, ?_, rfl, shown, Or.inr trivial⟩
          rw [moved_hub]
          exact at_advance_self
      | true =>
          refine sync_removed wf here distinct ?_ ?_ before
          · exact fun visible => by cases visible.symm.trans shown
          · exact fun visible => by cases visible.symm.trans shown
  | snapshotHidden entries hidden | removeFanHidden removed hidden =>
      refine sync_keep wf distinct here rfl nofun (fun shown => ?_) before
      cases shown.symm.trans hidden
  | collectJoined =>
      refine sync_keep wf distinct here rfl nofun (fun shown owes => ?_) before
      refine owes.imp (fun both => ⟨both.1, ?_⟩) nofun
      exact settles peer _ i here shown hears
  | collectLeft removed =>
      refine sync_keep wf distinct here rfl nofun (fun shown _ => Or.inr ?_) before
      exact settles peer _ i here shown hears
  | sendJoined rest fan waiting =>
      by_cases mine : fan = .roster i
      · subst mine
        rcases settles.1 peer rest here hears with agrees | owes
        · refine Or.inl ?_
          rw [moved_hub]
          refine Sound.of_last net (entryUpdate peer.entry) (Function.update_self _ _ _) rfl ?_ rfl
            agrees
          exact if_neg fun same => other same.symm
        · exact Or.inr (owed nofun owes index)
      · refine sync_keep wf distinct here rfl (fun msg same => ?_) (fun _ => ?_) before
        · cases same
          exact mine rfl
        · refine Or.imp (fun both => ⟨both.1, ?_⟩) fun waits => waits
          exact (Multiset.mem_erase_of_ne (Ne.symm mine)).mpr both.2
  | sendLeft removed rest fan waiting =>
      by_cases mine : fan = .roster i
      · subst mine
        rcases settles.2 peer removed rest here hears with agrees | owes
        · refine Or.inl ?_
          rw [moved_hub]
          exact Sound.of_last net (.remove peer.id) (Function.update_self _ _ _) rfl rfl rfl agrees
        · exact Or.inr (owed nofun owes index)
      · refine sync_keep wf distinct here rfl (fun msg same => ?_) (fun _ => ?_) before
        · cases same
          exact mine rfl
        · refine Or.imp nofun fun waits => ?_
          exact (Multiset.mem_erase_of_ne (Ne.symm mine)).mpr waits
  | joined | left =>
      refine sync_keep wf distinct here rfl nofun (fun _ owes => ?_) before
      rcases owes with ⟨_, impossible⟩ | impossible <;>
        first | exact impossible.elim | exact absurd impossible (Multiset.notMem_zero _)
  | _ =>
      refine sync_keep wf distinct here rfl nofun (fun _ owes => ?_) before
      first | exact owes | exact Or.inr trivial

/-! ## Moves of the session that the spoke reads -/

theorem up_cases {seen : HubPeerIndex} {hub : State}
    (move : Moves cfg seen hub peer point act point' effect) (up : point'.attached = true) :
    point = .insertFan ∨ point = .snapshot ∨
      point.attached = true ∧ snapshotted point' = snapshotted point ∧
        ∀ msg, effect ≠ .write msg := by
  cases move with
  | insertFan => exact Or.inl rfl
  | snapshotHidden | snapshotShown => exact Or.inr (Or.inl rfl)
  | _ => first | exact Or.inr (Or.inr ⟨rfl, rfl, nofun⟩) | cases up

/-- The snapshot, merged into the roster and followed by what is queued. -/
theorem sync_snapshot (posted : Posted net) {entries : List RosterEntry}
    (settles : Settles cfg net (.hub (.act s (.snapshot entries))))
    (listed : (entries : Multiset RosterEntry) = hubRosterSnapshot cfg net.hub.peers)
    (reads : Reader net id spoke s peer .snapshot) (other : e ≠ id)
    (told : snapshotted point' = true)
    (wire : next.wire s = net.wire s ++ [encodeSnapshot entries])
    (queue : next.queue s = net.queue s)
    (before : Sound cfg net.hub.peers net id spoke s .snapshot e ∨ Owed net.hub e s) :
    Sound cfg net.hub.peers next id spoke s point' e ∨ Owed net.hub e s := by
  have unsnapped : ¬ Snapshotted net.hub s := by
    rintro ⟨_, _, there, done⟩
    obtain ⟨_, rfl⟩ := there.unique reads.here
    cases done
  have empty : net.wire s = [] := posted.wire s unsnapped
  have idle : spoke.todo s = [] := posted.todo id spoke s reads.found unsnapped
  have pending : next.pending id spoke s =
      updates id (encodeSnapshot entries) ++ mail id (net.queue s) := by
    rw [Net.pending, idle, wire, queue, empty, List.nil_append, List.nil_append, mail_append,
      mail_singleton]
  rcases before with sound | owed
  · have early : Mentions (mail id (net.queue s)) e →
        Agrees cfg net.hub.peers e (settle (mail id (net.queue s)) e none) := sound
    rcases settles.2 id spoke peer e reads other with
      owed | mentioned | ⟨once, stale⟩
    · exact Or.inr owed
    · refine Or.inl ?_
      rw [Sound, if_pos told, pending, settle_append, settle_of_mentions mentioned _ none]
      exact early mentioned
    · refine Or.inl ?_
      rw [Sound, if_pos told, pending, settle_append]
      by_cases mentioned : Mentions (mail id (net.queue s)) e
      · rw [settle_of_mentions mentioned _ none]
        exact early mentioned
      · rw [settle_of_not_mentions mentioned]
        exact agrees_snapshot listed settles.1 other once stale
  · exact Or.inr owed

theorem sync_moved (posted : Posted net) (sync : InSync cfg net)
    (settles : Settles cfg net (.hub (.act s act))) (here : net.hub.At s peer point)
    (move : Moves cfg net.hub.peers net.hub peer point act point' effect) :
    InSync cfg (net.moved s peer point' effect) := by
  intro id spoke i reader q e reads other
  have found := reads.found
  rw [moved_spokes] at found
  have there := reads.here
  rw [moved_hub] at there
  rcases at_advance there with ⟨rfl, rfl, rfl⟩ | ⟨distinct, there⟩
  · have own : reader.id = id := id_of_serves (posted.conn id spoke i found reads.conn) here
    have notOwn : e ≠ reader.id := by rwa [own]
    rcases up_cases move reads.up with rfl | rfl | ⟨up, told, unwritten⟩
    · cases move
      have unregistered : ¬ Registered net.hub i := by
        rintro ⟨_, _, there, done⟩
        obtain ⟨_, rfl⟩ := there.unique here
        cases done
      refine Or.inl fun mentioned => ?_
      change Mentions (mail id (net.queue i)) e at mentioned
      rw [posted.queue i unregistered] at mentioned
      exact absurd mentioned (not_mentions_nil e)
    · have old : Reader net id spoke i reader .snapshot := ⟨found, reads.conn, here, rfl⟩
      have owed : ∀ {q' msg}, Owed net.hub e i →
          Owed (net.moved i reader q' (.write msg)).hub e i := by
        rintro q' msg ⟨t, owes⟩
        refine ⟨t, owed_other posted.wf ?_ (fun _ _ _ _ found => found) owes⟩
        rintro rfl
        obtain ⟨r, _, there, about, _⟩ := owes
        obtain ⟨rfl, _⟩ := there.unique here
        exact notOwn about.symm
      cases move with
      | snapshotHidden entries hidden listed | snapshotShown entries shown listed =>
          refine (sync_snapshot posted settles listed old other ?_ ?_ ?_
            (sync id spoke i reader _ e old other)).imp (fun sound => sound) owed
          · rfl
          · exact Function.update_self _ _ _
          · rfl
    · exact sync_other posted here move notOwn told (fun msg same => absurd same (unwritten msg))
        (sync id spoke i reader point e ⟨found, reads.conn, here, up⟩ other)
  · have old : Reader net id spoke i reader q := ⟨found, reads.conn, there, reads.up⟩
    have before := sync id spoke i reader q e old other
    by_cases about : e = peer.id
    · subst about
      exact sync_about posted settles here move distinct old (Ne.symm other) before
    · exact sync_other posted here move about rfl (fun _ _ => distinct) before

theorem sync_quiet (sync : InSync cfg net) {hub : State} (quiet : Quiet net.hub hub) :
    InSync cfg { net with hub := hub } := by
  intro id spoke i peer point e reads other
  have late : point ≠ .claim := by
    rintro rfl
    cases reads.up
  have old : Reader net id spoke i peer point :=
    ⟨reads.found, reads.conn, (quiet.at_iff i peer point late).mp reads.here, reads.up⟩
  refine (sync id spoke i peer point e old other).imp (fun sound => ?_) ?_
  · change Sound cfg hub.peers _ _ _ _ _ _
    rw [quiet.peers]
    exact sound
  · rintro ⟨t, q, place, there, about, shown, owes⟩
    refine ⟨t, q, place, (quiet.at_iff t q place ?_).mpr there, about, shown, ?_⟩
    · rintro rfl
      rcases owes with ⟨_, impossible⟩ | impossible <;> exact impossible
    · change hub.peers.byV4.get q.vip = some q ∧ _ ∨ _
      rw [quiet.peers]
      exact owes

end LinkP2p.Tun.Mesh
