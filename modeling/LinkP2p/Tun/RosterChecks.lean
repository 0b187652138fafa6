import LinkP2p.Tun.RosterMoves

/-!
# Checking that a step settles

What `Settles` asks for is about all spokes and all peers. With a list of the
spokes that run, and with the entries that the hub lists, it can be computed.
-/

namespace LinkP2p.Tun.Mesh

open LinkP2p.Lib LinkP2p.Lib.Transition LinkP2p.Lib.Rcu LinkP2p.Lib.KeyedUpdates LinkP2p.Tun.Hub

/-- Every spoke that runs is in the list. -/
def Within (ids : List EndpointId) (net : Net) : Prop :=
  ∀ id spoke, net.spokes id = some spoke → id ∈ ids

/-- The open session of a spoke, up to its teardown. -/
def reading (net : Net) (id : EndpointId) : Option (Spoke × Nat × HubPeer × Point) :=
  match net.spokes id with
  | none => none
  | some spoke =>
      match spoke.conn with
      | none => none
      | some i =>
          match net.hub.tasks i with
          | some (.at peer point) =>
              if point.attached then some (spoke, i, peer, point) else none
          | _ => none

instance (i : Nat) (point : Point) : Decidable (announces i point) := by
  cases point <;> unfold announces <;> infer_instance

instance (i : Nat) (point : Point) : Decidable (retracts i point) := by
  cases point <;> unfold retracts <;> infer_instance

instance (msgs : List (Update EndpointId OwnVips)) (e : EndpointId) :
    Decidable (Mentions msgs e) :=
  inferInstanceAs (Decidable (∃ update ∈ msgs, update.key = e))

/-- The addresses that the hub lists for `e`. -/
def listedVips (cfg : HubConfig) (idx : HubPeerIndex) (e : EndpointId) : Multiset OwnVips :=
  ((hubRosterSnapshot cfg idx).filter fun r => r.id = e).map fun r => ⟨r.vip, r.vip6⟩

theorem mem_listedVips {cfg : HubConfig} {idx : HubPeerIndex} {e : EndpointId} {vips : OwnVips} :
    vips ∈ listedVips cfg idx e ↔ Listed cfg idx e vips := by
  rw [listed_snapshot, listedVips, Multiset.mem_map]
  constructor
  · rintro ⟨r, member, rfl⟩
    obtain ⟨inSnapshot, about⟩ := Multiset.mem_filter.mp member
    exact ⟨r, inSnapshot, about, rfl⟩
  · rintro ⟨r, inSnapshot, about, rfl⟩
    exact ⟨r, Multiset.mem_filter.mpr ⟨inSnapshot, about⟩, rfl⟩

instance (cfg : HubConfig) (idx : HubPeerIndex) (e : EndpointId) (now : Option OwnVips) :
    Decidable (Agrees cfg idx e now) :=
  decidable_of_iff
    ((∀ vips ∈ now, vips ∈ listedVips cfg idx e) ∧ ∀ vips ∈ listedVips cfg idx e, now = some vips)
    (by simp only [mem_listedVips, Option.mem_def, Agrees, ← forall_and, iff_def])

/-- Session `t` has yet to tell session `i` about `e`. -/
def owing (hub : State) (t : Nat) (e : EndpointId) (i : Nat) : Bool :=
  match hub.tasks t with
  | some (.at q point) =>
      decide (q.id = e ∧ q.hidden = false ∧
        (hub.peers.byV4.get q.vip = some q ∧ announces i point ∨ retracts i point))
  | _ => false

/-- Some session apart from `s` has yet to. -/
def owedBut (hub : State) (s : Nat) (e : EndpointId) (i : Nat) : Bool :=
  (List.range (hub.sessionSeq + 1)).any fun t => decide (t ≠ s) && owing hub t e i

/-- The session of some spoke other than `e`. -/
def heard (ids : List EndpointId) (net : Net) (e : EndpointId) (i : Nat) : Bool :=
  ids.any fun id => decide (id ≠ e) && (reading net id).any fun found => found.2.1 == i

def current (net : Net) (id : EndpointId) (updater : Updater) : Bool :=
  (net.spokes id).all fun spoke =>
    (spoke.loaded updater).all fun base => decide (base = spoke.roster)

/-- An update from elsewhere than the open control stream. -/
def harmless (cfg : HubConfig) (net : Net) (id e : EndpointId) (now : Option OwnVips) : Bool :=
  (reading net id).all fun (spoke, i, _, point) =>
    !snapshotted point || decide (e = id) || owedBut net.hub i e i ||
      decide (Mentions (net.pending id spoke i) e) || decide (Agrees cfg net.hub.peers e now)

/-- The snapshot that session `s` writes is whole, names no peer twice, and every peer in the
roster of its spoke is named. -/
def snapshotSettles (cfg : HubConfig) (ids : List EndpointId) (net : Net) (s : Nat) : Bool :=
  decide (net.hub.peers.byV4.values.card < rosterMaxEntries) &&
    decide (∀ r ∈ hubRosterSnapshot cfg net.hub.peers,
      ∀ vips ∈ listedVips cfg net.hub.peers r.id, vips = ⟨r.vip, r.vip6⟩) &&
    ids.all fun id => (reading net id).all fun (spoke, i, _, _) =>
      decide (i ≠ s) || decide (spoke.roster.keys ⊆
        ((hubRosterSnapshot cfg net.hub.peers).map RosterEntry.id).toFinset)

/-- A test that a step has to pass to settle. -/
def settled (cfg : HubConfig) (ids : List EndpointId) (net : Net) : MeshEvent → Bool
  | .spawn id _ => decide (id ∈ ids)
  | .hub (.act s .claim) =>
      match net.hub.tasks s with
      | some (.at q _) => !q.hidden || (net.hub.peers.byV4.get q.vip).all HubPeer.hidden
      | _ => true
  | .hub (.act s .remove) =>
      match net.hub.tasks s with
      | some (.at q .routeFailed) => q.hidden || decide (net.hub.peers.byV4.get q.vip ≠ some q)
      | _ => true
  | .hub (.act s .collect) =>
      match net.hub.tasks s with
      | some (.at q _) => q.hidden || ids.all fun id => decide (id = q.id) ||
          (reading net id).all fun found => decide (.roster found.2.1 ∈ net.hub.fans.values)
      | _ => true
  | .hub (.act s (.send (.roster i))) =>
      match net.hub.tasks s with
      | some (.at q (.sendJoined _)) => !heard ids net q.id i || owedBut net.hub s q.id i ||
          decide (Agrees cfg net.hub.peers q.id (some ⟨q.vip, q.vip6⟩))
      | some (.at q (.sendLeft _ _)) => !heard ids net q.id i || owedBut net.hub s q.id i ||
          decide (Agrees cfg net.hub.peers q.id none)
      | _ => true
  | .hub (.act s (.snapshot _)) => snapshotSettles cfg ids net s
  | .spoke id .connect => current net id .session
  | .spoke id (.unlink n) => current net id (.link n)
  | .spoke id (.apply j) =>
      current net id (.reader j) && (net.spokes id).all fun spoke =>
        decide (spoke.conn = some j) ||
          (spoke.todo j).head?.all fun update => harmless cfg net id update.key update.value
  | .spoke id (.link n e vips) => current net id (.link n) && harmless cfg net id e (some vips)
  | _ => true

variable {cfg : HubConfig} {ids : List EndpointId} {net next : Net} {id e : EndpointId}
  {spoke : Spoke} {i s t : Nat} {peer : HubPeer} {point : Point}

theorem Reader.reading (reads : Reader net id spoke i peer point) :
    reading net id = some (spoke, i, peer, point) := by
  obtain ⟨found, conn, here, up⟩ := reads
  simp only [Mesh.reading, found, conn]
  rw [show net.hub.tasks i = some (.at peer point) from here]
  exact if_pos up

theorem owedBy_of_owing (owing : owing net.hub t e i = true) : OwedBy net.hub t e i := by
  unfold Mesh.owing at owing
  split at owing
  · rename_i q point here
    exact ⟨q, point, here, of_decide_eq_true owing⟩
  · cases owing

theorem owedBut_of_test : owedBut net.hub s e i = true → OwedBut net.hub s e i := by
  intro owed
  obtain ⟨t, _, test⟩ := List.any_eq_true.mp owed
  obtain ⟨other, owing⟩ := Bool.and_eq_true_iff.mp test
  exact ⟨t, of_decide_eq_true other, owedBy_of_owing owing⟩

theorem heard_of_hears (within : Within ids net) (hears : Hears net e i) :
    heard ids net e i = true := by
  obtain ⟨id, spoke, peer, point, reads, other⟩ := hears
  refine List.any_eq_true.mpr ⟨id, within id spoke reads.found, ?_⟩
  rw [reads.reading, decide_eq_true other]
  exact beq_self_eq_true i

theorem current_of_test {updater : Updater} (test : current net id updater = true) :
    Current net id updater := by
  intro spoke base found loaded
  simpa [current, found, loaded] using test

theorem harmless_of_test {now : Option OwnVips} (test : harmless cfg net id e now = true) :
    Harmless cfg net id e now := by
  intro spoke i peer point reads told other
  rw [harmless, reads.reading] at test
  simp only [Option.all_some, told, Bool.not_true, Bool.false_or, Bool.or_eq_true,
    decide_eq_true_eq] at test
  rcases test with ((own | owed) | mentioned) | agrees
  · exact absurd own other
  · obtain ⟨t, _, owes⟩ := owedBut_of_test owed
    exact Or.inl ⟨t, owes⟩
  · exact Or.inr (Or.inl mentioned)
  · exact Or.inr (Or.inr agrees)

theorem owed_or_agrees {now : Option OwnVips} (within : Within ids net)
    (test : (!heard ids net e i || owedBut net.hub s e i ||
      decide (Agrees cfg net.hub.peers e now)) = true) (hears : Hears net e i) :
    Agrees cfg net.hub.peers e now ∨ OwedBut net.hub s e i := by
  rw [heard_of_hears within hears, Bool.not_true, Bool.false_or, Bool.or_eq_true] at test
  rcases test with owed | agrees
  · exact Or.inr (owedBut_of_test owed)
  · exact Or.inl (of_decide_eq_true agrees)

theorem settles_snapshot (within : Within ids net) (test : snapshotSettles cfg ids net s = true)
    (entries : List RosterEntry) : Settles cfg net (.hub (.act s (.snapshot entries))) := by
  simp only [snapshotSettles, Bool.and_eq_true, decide_eq_true_eq] at test
  obtain ⟨⟨few, once⟩, known⟩ := test
  refine ⟨few, fun id spoke peer e reads other => Or.inr (Or.inr ⟨?_, ?_⟩)⟩
  · intro v w first second
    obtain ⟨r, inSnapshot, rfl, rfl⟩ := (listed_snapshot cfg _ _ _).mp first
    exact (once r inSnapshot w (mem_listedVips.mpr second)).symm
  · intro unlisted
    have named := List.all_eq_true.mp known id (within id spoke reads.found)
    simp only [reads.reading, Option.all_some, ne_eq, not_true, decide_false, Bool.false_or,
      decide_eq_true_eq] at named
    by_contra held
    obtain ⟨vips, holds⟩ := Option.ne_none_iff_exists'.mp held
    have member := named (Finmap.mem_keys.mpr (Finmap.mem_of_lookup_eq_some holds))
    obtain ⟨r, inSnapshot, about⟩ := Multiset.mem_map.mp (Multiset.mem_toFinset.mp member)
    exact unlisted _ ((listed_snapshot cfg _ e _).mpr ⟨r, inSnapshot, about, rfl⟩)

/-- The test is sound. -/
theorem settles_of_settled (within : Within ids net) {event : MeshEvent}
    (test : settled cfg ids net event = true) : Settles cfg net event := by
  cases event with
  | hub event =>
      cases event with
      | accept => trivial
      | act s act =>
          cases act with
          | claim =>
              intro q i here hidden _ _
              refine Or.inl fun p found => ?_
              rw [settled, show net.hub.tasks s = _ from here] at test
              simpa [hidden, found] using test
          | remove =>
              intro q id spoke i peer point here shown found
              rw [settled, show net.hub.tasks s = _ from here] at test
              simp [shown, found] at test
          | collect =>
              intro q point i here shown hears
              obtain ⟨id, spoke, peer, place, reads, other⟩ := hears
              rw [settled, show net.hub.tasks s = _ from here] at test
              simp only [shown, Bool.false_or] at test
              have member := List.all_eq_true.mp test id (within id spoke reads.found)
              simpa [reads.reading, other] using member
          | send fan =>
              cases fan with
              | outbound => trivial
              | roster i =>
                  refine ⟨fun q rest here hears => ?_, fun q removed rest here hears => ?_⟩
                  · rw [settled, show net.hub.tasks s = _ from here] at test
                    exact owed_or_agrees within test hears
                  · rw [settled, show net.hub.tasks s = _ from here] at test
                    exact owed_or_agrees within test hears
          | snapshot entries => exact settles_snapshot within test entries
          | _ => trivial
  | spoke id act =>
      cases act with
      | connect => exact current_of_test test
      | unlink => exact current_of_test test
      | apply j =>
          obtain ⟨current, rest⟩ := Bool.and_eq_true_iff.mp test
          refine ⟨current_of_test current, fun spoke update later found other left => ?_⟩
          rw [found] at rest
          simp only [Option.all_some, left, List.head?_cons, other, decide_false,
            Bool.false_or] at rest
          exact harmless_of_test rest
      | link n e vips =>
          obtain ⟨current, rest⟩ := Bool.and_eq_true_iff.mp test
          exact ⟨current_of_test current, harmless_of_test rest⟩
      | _ => trivial
  | _ => trivial

theorem Within.put (within : Within ids net) (member : id ∈ ids) (spoke : Spoke) :
    Within ids (net.put id spoke) := by
  intro other found there
  rcases spokes_of_put there with ⟨rfl, _⟩ | ⟨_, old⟩
  · exact member
  · exact within other found old

/-- A step that passes starts no spoke outside the list. -/
theorem within_step (within : Within ids net) {event : MeshEvent}
    (test : settled cfg ids net event = true)
    (taken : (meshSystem cfg).atomic net event = some next) : Within ids next := by
  cases meshStep_moves taken with
  | hub event hub stepped =>
      intro id spoke found
      rw [post_spokes] at found
      exact within id spoke found
  | forward => exact within
  | spawn id own => exact within.put (of_decide_eq_true test) _
  | quit id =>
      intro other spoke found
      rcases eq_or_ne other id with rfl | distinct
      · cases found.symm.trans (Function.update_self _ _ _)
      · exact within other spoke (found.symm.trans (Function.update_of_ne distinct _ _)).symm
  | spoke id spoke act next found moves =>
      have member := within id spoke found
      cases moves <;> exact within.put member _

/-- A run that passes is one whose steps all settle. -/
theorem allSteps_of_settled {events : List (RetryEvent MeshEvent Nat)}
    (test : AllSteps (retryStep (meshSystem cfg))
      (OnActs fun net event => settled cfg ids net event = true) (.start .start) events) :
    AllSteps (retryStep (meshSystem cfg)) (OnActs (Settles cfg)) (.start .start) events :=
  retry_allSteps (I := Within ids)
    (fun _ _ _ within test taken => ⟨within_step within test taken, settles_of_settled within test⟩)
    (by rintro id spoke ⟨⟩) test

end LinkP2p.Tun.Mesh
