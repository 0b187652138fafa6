import LinkP2p.Tun.MeshInvariant

/-!
# What a spoke will hold

A spoke's roster is a snapshot merged into the old roster, then joins and
leaves. What counts is the roster after everything sent to the spoke has
arrived, and which sessions have yet to send to it.
-/

namespace LinkP2p.Tun.Mesh

open LinkP2p.Lib LinkP2p.Lib.Rcu LinkP2p.Lib.KeyedUpdates LinkP2p.Tun.Hub

/-- The updates that the messages make one after the other. -/
def mail (id : EndpointId) (msgs : List RosterMsg) : List (Update EndpointId OwnVips) :=
  msgs.flatMap (updates id)

/-- The updates under way to a spoke that reads the stream of session `i`. -/
def Net.pending (net : Net) (id : EndpointId) (spoke : Spoke) (i : Nat) :
    List (Update EndpointId OwnVips) :=
  spoke.todo i ++ mail id (net.wire i ++ net.queue i)

/-- The hub's own entry, or an entry of the index that is not hidden. -/
def Listed (cfg : HubConfig) (idx : HubPeerIndex) (e : EndpointId) (vips : OwnVips) : Prop :=
  (e = cfg.ownId ∧ vips = cfg.own) ∨
    ∃ key p, idx.byV4.get key = some p ∧ p.hidden = false ∧ p.id = e ∧ vips = ⟨p.vip, p.vip6⟩

/-- The roster has under `e` what the hub lists. -/
def Agrees (cfg : HubConfig) (idx : HubPeerIndex) (e : EndpointId) (now : Option OwnVips) : Prop :=
  ∀ vips, now = some vips ↔ Listed cfg idx e vips

/-- The spoke reads the stream of a session that has inserted its sender into
`RosterFans` and is not on its way out. -/
structure Reader (net : Net) (id : EndpointId) (spoke : Spoke) (i : Nat) (peer : HubPeer)
    (point : Point) : Prop where
  found : net.spokes id = some spoke
  conn : spoke.conn = some i
  here : net.hub.At i peer point
  up : point.attached = true

/-- What has been sent to the spoke about `e` ends in what the hub lists. A
spoke that is still to get the snapshot needs this only of what is queued. -/
def Sound (cfg : HubConfig) (idx : HubPeerIndex) (net : Net) (id : EndpointId) (spoke : Spoke)
    (i : Nat) (point : Point) (e : EndpointId) : Prop :=
  if snapshotted point = true then
    Agrees cfg idx e (settle (net.pending id spoke i) e (spoke.roster.get e))
  else
    Mentions (mail id (net.queue i)) e →
      Agrees cfg idx e (settle (mail id (net.queue i)) e none)

/-- A visible session at this point has yet to send `Joined` to session `i`. -/
def announces (i : Nat) : Point → Prop
  | .verify | .insertFan | .addRoute4 | .addRoute6 | .routeFailed | .snapshot
  | .collectJoined => True
  | .sendJoined rest => .roster i ∈ rest
  | _ => False

/-- A visible session at this point has yet to send `Left` to session `i`. -/
def retracts (i : Nat) : Point → Prop
  | .remove | .reload | .removeFan _ | .collectLeft _ => True
  | .sendLeft _ rest => .roster i ∈ rest
  | _ => False

/-- Session `t` has yet to tell session `i` about its peer `e`: that it is listed,
while its entry is in the index, or that it has left. -/
def OwedBy (hub : State) (t : Nat) (e : EndpointId) (i : Nat) : Prop :=
  ∃ q point, hub.At t q point ∧ q.id = e ∧ q.hidden = false ∧
    (hub.peers.byV4.get q.vip = some q ∧ announces i point ∨ retracts i point)

def Owed (hub : State) (e : EndpointId) (i : Nat) : Prop := ∃ t, OwedBy hub t e i

/-- Another session than `s` owes it. -/
def OwedBut (hub : State) (s : Nat) (e : EndpointId) (i : Nat) : Prop :=
  ∃ t, t ≠ s ∧ OwedBy hub t e i

/-- Every spoke that is connected holds what the hub lists, or will hold it once
what has been sent to it is applied, or is still to be told. -/
def InSync (cfg : HubConfig) (net : Net) : Prop :=
  ∀ id spoke i peer point e, Reader net id spoke i peer point → e ≠ id →
    Sound cfg net.hub.peers net id spoke i point e ∨ Owed net.hub e i

variable {cfg : HubConfig} {idx idx' : HubPeerIndex} {net next : Net} {hub : State}
  {id e : EndpointId} {spoke : Spoke} {i s t : Nat} {peer : HubPeer} {point point' : Point}
  {act : Act} {effect : Effect}

/-! ## Messages and updates -/

theorem mail_append (id : EndpointId) (first second : List RosterMsg) :
    mail id (first ++ second) = mail id first ++ mail id second :=
  List.flatMap_append

@[simp]
theorem mail_singleton (id : EndpointId) (msg : RosterMsg) : mail id [msg] = updates id msg :=
  List.flatMap_singleton _ _

theorem not_mentions_joined (other : e ≠ peer.id) :
    ¬ Mentions (updates id (.joined peer.entry)) e := by
  rintro ⟨update, member, about⟩
  dsimp only [updates] at member
  split at member
  · cases member
  · obtain rfl := List.mem_singleton.mp member
    exact other about.symm

theorem not_mentions_left (other : e ≠ peer.id) :
    ¬ Mentions (updates id (.left peer.entry)) e := by
  rintro ⟨update, member, about⟩
  obtain rfl := List.mem_singleton.mp member
  exact other about.symm

theorem Agrees.congr (listed : ∀ vips, Listed cfg idx' e vips ↔ Listed cfg idx e vips)
    {now : Option OwnVips} (agrees : Agrees cfg idx e now) : Agrees cfg idx' e now :=
  fun vips => (agrees vips).trans (listed vips).symm

/-- Messages that are not about `e` leave the outcome under `e` as it was. -/
theorem Sound.append (sound : Sound cfg idx net id spoke i point e)
    (listed : ∀ vips, Listed cfg idx' e vips ↔ Listed cfg idx e vips)
    (told : snapshotted point' = snapshotted point) {more : List RosterMsg}
    (wire : next.wire i = net.wire i) (queue : next.queue i = net.queue i ++ more)
    (silent : ¬ Mentions (mail id more) e) :
    Sound cfg idx' next id spoke i point' e := by
  unfold Sound at sound ⊢
  rw [told]
  split
  · rename_i snapped
    rw [if_pos snapped] at sound
    rw [Net.pending, wire, queue, ← List.append_assoc, mail_append, ← List.append_assoc,
      settle_append, settle_of_not_mentions silent]
    exact sound.congr listed
  · rename_i early
    rw [if_neg early] at sound
    rw [queue, mail_append, mentions_append]
    rintro (before | impossible)
    · rw [settle_append, settle_of_not_mentions silent]
      exact (sound before).congr listed
    · exact absurd impossible silent

/-- The last message about `e` decides. -/
theorem Sound.of_last {msg : RosterMsg} (net : Net) (update : Update EndpointId OwnVips)
    (queue : next.queue i = net.queue i ++ [msg]) (wire : next.wire i = net.wire i)
    (only : updates id msg = [update]) (about : update.key = e)
    (agrees : Agrees cfg idx e update.value) :
    Sound cfg idx next id spoke i point e := by
  have last : ∀ before now, settle (before ++ updates id msg) e now = update.value := by
    intro before now
    rw [settle_append, only, settle_cons, if_pos about, settle_nil]
  unfold Sound
  split
  · rw [Net.pending, wire, queue, ← List.append_assoc, mail_append, ← List.append_assoc,
      mail_singleton, last]
    exact agrees
  · intro _
    rw [queue, mail_append, mail_singleton, last]
    exact agrees

/-! ## The snapshot -/

theorem listed_snapshot (cfg : HubConfig) (idx : HubPeerIndex) (e : EndpointId)
    (vips : OwnVips) :
    Listed cfg idx e vips ↔
      ∃ r ∈ hubRosterSnapshot cfg idx, r.id = e ∧ vips = ⟨r.vip, r.vip6⟩ := by
  constructor
  · rintro (⟨rfl, rfl⟩ | ⟨key, p, found, shown, rfl, rfl⟩)
    · exact ⟨_, Multiset.mem_cons_self _ _, rfl, rfl⟩
    · refine ⟨p.entry, Multiset.mem_cons_of_mem (Multiset.mem_map_of_mem _ ?_), rfl, rfl⟩
      exact Multiset.mem_filter.mpr ⟨HashMap.mem_values.mpr ⟨key, found⟩, shown⟩
  · rintro ⟨r, member, rfl, rfl⟩
    rcases Multiset.mem_cons.mp member with rfl | member
    · exact Or.inl ⟨rfl, rfl⟩
    · obtain ⟨p, kept, rfl⟩ := Multiset.mem_map.mp member
      obtain ⟨inIndex, shown⟩ := Multiset.mem_filter.mp kept
      obtain ⟨key, found⟩ := HashMap.mem_values.mp inIndex
      exact Or.inr ⟨key, p, found, shown, rfl, rfl⟩

theorem card_hubRosterSnapshot (cfg : HubConfig) (idx : HubPeerIndex) :
    (hubRosterSnapshot cfg idx).card ≤ idx.byV4.values.card + 1 := by
  rw [hubRosterSnapshot, Multiset.card_cons, Multiset.card_map]
  exact Nat.succ_le_succ (Multiset.card_le_card (Multiset.filter_le _ _))

/-- A snapshot that is not cut off settles every peer that it lists once. -/
theorem agrees_snapshot {entries : List RosterEntry}
    (listed : (entries : Multiset RosterEntry) = hubRosterSnapshot cfg idx)
    (few : idx.byV4.values.card < rosterMaxEntries) (other : e ≠ id)
    (once : ∀ v w, Listed cfg idx e v → Listed cfg idx e w → v = w) {now : Option OwnVips}
    (stale : (∀ v, ¬ Listed cfg idx e v) → now = none) :
    Agrees cfg idx e (settle (updates id (encodeSnapshot entries)) e now) := by
  have whole : entries.take rosterMaxEntries = entries := by
    refine List.take_of_length_le ?_
    have bound := card_hubRosterSnapshot cfg idx
    rw [← listed, Multiset.coe_card] at bound
    omega
  have inSnapshot : ∀ update ∈ updates id (encodeSnapshot entries), update.key = e →
      ∃ v, update.value = some v ∧ Listed cfg idx e v := by
    intro update member about
    simp only [encodeSnapshot, whole, updates, List.mem_map, List.mem_filter] at member
    obtain ⟨r, ⟨member, _⟩, rfl⟩ := member
    refine ⟨⟨r.vip, r.vip6⟩, rfl, (listed_snapshot cfg idx e _).mpr ⟨r, ?_, about, rfl⟩⟩
    rw [← listed]
    exact member
  by_cases known : ∃ v, Listed cfg idx e v
  · obtain ⟨v, known⟩ := known
    have mentioned : Mentions (updates id (encodeSnapshot entries)) e := by
      obtain ⟨r, member, about, _⟩ := (listed_snapshot cfg idx e v).mp known
      rw [← listed] at member
      refine ⟨entryUpdate r, ?_, about⟩
      simp only [encodeSnapshot, whole, updates]
      refine List.mem_map_of_mem (List.mem_filter.mpr ⟨member, ?_⟩)
      rw [about]
      exact decide_eq_true other
    have agree : ∀ update ∈ updates id (encodeSnapshot entries), update.key = e →
        update.value = some v := by
      intro update member about
      obtain ⟨w, carries, also⟩ := inSnapshot update member about
      rw [carries, once w v also known]
    rw [settle_of_agree mentioned agree]
    intro w
    exact ⟨fun same => Option.some.inj same ▸ known,
      fun also => congrArg some (once v w known also)⟩
  · rw [settle_of_not_mentions, stale fun v there => known ⟨v, there⟩]
    · exact fun v => ⟨nofun, fun there => absurd ⟨v, there⟩ known⟩
    · rintro ⟨update, member, about⟩
      obtain ⟨v, _, there⟩ := inSnapshot update member about
      exact known ⟨v, there⟩

/-! ## What a move does to the listing -/

/-- Entries of other peers stay, and none comes in. -/
theorem listed_other (wf : Wf hub) (here : hub.At s peer point)
    (move : IndexMove hub peer point act point' effect) (other : e ≠ peer.id) (vips : OwnVips) :
    Listed cfg (effect.apply hub).peers e vips ↔ Listed cfg hub.peers e vips := by
  have same : ∀ key p, p.id = e →
      ((effect.apply hub).peers.byV4.get key = some p ↔ hub.peers.byV4.get key = some p) := by
    rintro key p rfl
    cases move with
    | claim =>
        change (claimClosure peer hub.peers).byV4.get key = some p ↔ _
        by_cases admits : Admits peer hub.peers
        · rw [claimClosure_of_admits admits, HashMap.get_put]
          split
          · rename_i taken
            subst taken
            constructor
            · rintro ⟨⟩
              exact absurd rfl other
            · exact fun found => absurd ⟨p, found, other⟩ admits.1
          · exact Iff.rfl
        · rw [claimClosure_of_not_admits admits]
    | rejected => exact Iff.rfl
    | remove =>
        refine ⟨fun found => (get_removeClosure.mp found).1,
          fun found => get_removeClosure.mpr ⟨found, fun both => other ?_⟩⟩
        obtain ⟨_, there, _⟩ := wf.owner4 key p found
        rw [both.2, (wf.number s peer _ here).1] at there
        rw [(there.unique here).1]
    | keep peers => rw [peers]
  constructor
  · rintro (own | ⟨key, p, found, shown, about, rfl⟩)
    · exact Or.inl own
    · exact Or.inr ⟨key, p, (same key p about).mp found, shown, about, rfl⟩
  · rintro (own | ⟨key, p, found, shown, about, rfl⟩)
    · exact Or.inl own
    · exact Or.inr ⟨key, p, (same key p about).mpr found, shown, about, rfl⟩

/-- A removal that finds no visible entry of its session leaves the listing alone. -/
theorem listed_removed (wf : Wf hub) (here : hub.At s peer point)
    (away : peer.hidden = false → hub.peers.byV4.get peer.vip ≠ some peer) (vips : OwnVips) :
    Listed cfg (removeClosure peer.vip peer.vip6 peer.session hub.peers) e vips ↔
      Listed cfg hub.peers e vips := by
  constructor
  · rintro (own | ⟨key, p, found, rest⟩)
    · exact Or.inl own
    · exact Or.inr ⟨key, p, (get_removeClosure.mp found).1, rest⟩
  · rintro (own | ⟨key, p, found, shown, rest⟩)
    · exact Or.inl own
    · refine Or.inr ⟨key, p, get_removeClosure.mpr ⟨found, ?_⟩, shown, rest⟩
      rintro ⟨rfl, mine⟩
      obtain ⟨_, there, _⟩ := wf.owner4 _ p found
      rw [mine, (wf.number s peer _ here).1] at there
      obtain ⟨rfl, _⟩ := there.unique here
      exact away shown found

/-- A hidden claim that meets no visible entry leaves the listing alone. -/
theorem listed_claimed {q : HubPeer} (hidden : q.hidden = true)
    (clear : ∀ p, idx.byV4.get q.vip = some p → p.hidden = true) (vips : OwnVips) :
    Listed cfg (claimClosure q idx) e vips ↔ Listed cfg idx e vips := by
  by_cases admits : Admits q idx
  · rw [claimClosure_of_admits admits]
    constructor
    · rintro (own | ⟨key, p, found, shown, rest⟩)
      · exact Or.inl own
      · rcases HashMap.get_of_get_put found with ⟨_, rfl⟩ | ⟨_, old⟩
        · cases shown.symm.trans hidden
        · exact Or.inr ⟨key, p, old, shown, rest⟩
    · rintro (own | ⟨key, p, found, shown, rest⟩)
      · exact Or.inl own
      · refine Or.inr ⟨key, p, ?_, shown, rest⟩
        refine (HashMap.get_put_of_ne ?_ _ _).trans found
        rintro rfl
        cases shown.symm.trans (clear p found)
  · rw [claimClosure_of_not_admits admits]

end LinkP2p.Tun.Mesh
