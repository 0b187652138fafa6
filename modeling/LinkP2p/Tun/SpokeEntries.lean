import LinkP2p.Tun.SpokeLinks

/-!
# Whether an open link keeps its entries

A link that ends removes what stands under the addresses of its peer, whichever
link has installed it. The state remembers the last installer of each address.
-/

namespace LinkP2p.Tun.Spoke

open LinkP2p.Lib LinkP2p.Lib.Transition

variable {config : Config} {state next : State} {event : Event}

/-- Both entries of link `n` are in the table. -/
def Entered (mesh : SpokeMesh) (n : Nat) (peer : OwnVips) : Prop :=
  mesh.direct.get peer.v4 = some n ∧ mesh.direct6.get peer.v6 = some n

/-- The link is open, and no later link has installed an entry under its addresses. -/
structure Lasting (state : State) (n : Nat) (q : EndpointId) (peer : OwnVips) : Prop where
  opened : state.tasks[n]? = some (.opened q peer)
  last : state.last.get peer.v4 = some n
  last6 : state.last6.get peer.v6 = some n

def Rostered (mesh : SpokeMesh) (q : EndpointId) : Prop := ∃ vips, mesh.roster.get q = some vips

/-- An open link to a rostered peer that was the last to install its entries has them. -/
def Present (state : State) (mesh : SpokeMesh) : Prop :=
  ∀ n q peer, Lasting state n q peer → Rostered mesh q → Entered mesh n peer

/-- Link `n` is open and has an entry of the first table in the second one too. -/
structure Retains (state : State) (first second : SpokeMesh) (n : Nat) : Prop where
  v4 : ∀ v q peer, state.tasks[n]? = some (.opened q peer) → first.direct.get v = some n →
    second.direct.get v = some n
  v6 : ∀ v q peer, state.tasks[n]? = some (.opened q peer) → first.direct6.get v = some n →
    second.direct6.get v = some n

/-- The end of a link leaves the entries of the other open links. -/
def ClosesOwn (config : Config) (state : State) (event : Event) : Prop :=
  ∀ n q peer next, event = .store (.task n) → state.tasks[n]? = some (Task.closing q peer) →
    step config state event = some next →
      ∀ m, m ≠ n → Retains state state.table next.table m

/-- What an updater removes or adds touches no entry that is to stay. -/
def Careful (config : Config) (state : State) (base : SpokeMesh) : Updater → Prop
  | .session => ∀ hub, state.session = .entering hub →
      ∀ n peer, Lasting state n config.hubId peer → Entered base n peer
  | .reader s =>
      match state.todo s with
      | .insert e :: _ => ∀ n peer, Lasting state n e.id peer → Entered base n peer
      | .left e :: _ => ∀ n q peer, Lasting state n q peer → q ≠ e.id → Rostered base q →
          peer.v4 ≠ e.vip ∧ peer.v6 ≠ e.vip6
      | [] => True
  | .task n =>
      match state.tasks[n]? with
      | some (.installing q peer) => ∀ m other, Lasting state m q other →
          other.v4 ≠ peer.v4 → other.v6 ≠ peer.v6 → Entered base m other
      | some (.closing _ peer) => ∀ m, m ≠ n → Retains state state.table base m ∧
          ∀ q other, state.tasks[m]? = some (Task.opened q other) →
            base.direct.get peer.v4 ≠ some m ∧ base.direct6.get peer.v6 ≠ some m
      | _ => True

/-- An update is careful, and the table it has loaded has the entries of the
links that are open by the time it is stored. -/
def Tidy (config : Config) (state : State) : Event → Prop
  | .store updater => ∀ base, state.loaded updater = some base →
      Present state base ∧ Careful config state base updater
  | _ => True

/-! ## What a step keeps -/

theorem Lasting.of_set {n m : Nat} {q : EndpointId} {peer : OwnVips}
    {task : Task} (unopened : ∀ q peer, task ≠ .opened q peer)
    (lasting : Lasting { state with tasks := state.tasks.set m task } n q peer) :
    n ≠ m ∧ Lasting state n q peer := by
  rcases task_set lasting.opened with ⟨_, same⟩ | ⟨distinct, old⟩
  · exact absurd same.symm (unopened q peer)
  · exact ⟨distinct, old, lasting.last, lasting.last6⟩

/-- A link that lasts beside one that is being installed has other addresses. -/
theorem Lasting.of_install {n m : Nat} {q p : EndpointId} {peer other : OwnVips}
    (lasting : Lasting { state with
      tasks := state.tasks.set n (.opened p peer)
      last := state.last.put peer.v4 n
      last6 := state.last6.put peer.v6 n } m q other) :
    m = n ∧ q = p ∧ other = peer ∨
      (other.v4 ≠ peer.v4 ∧ other.v6 ≠ peer.v6) ∧ Lasting state m q other := by
  rcases task_set lasting.opened with ⟨rfl, same⟩ | ⟨distinct, old⟩
  · cases same
    exact Or.inl ⟨rfl, rfl, rfl⟩
  · rcases HashMap.get_of_get_put lasting.last with ⟨_, mine⟩ | ⟨apart, last⟩
    · exact absurd mine distinct
    · rcases HashMap.get_of_get_put lasting.last6 with ⟨_, mine⟩ | ⟨apart6, last6⟩
      · exact absurd mine distinct
      · exact Or.inr ⟨⟨apart, apart6⟩, old, last, last6⟩

/-- The peers of a roster after one more entry. -/
theorem rostered_put {mesh : SpokeMesh} {p q : EndpointId} {vips vips' : OwnVips}
    (found : (mesh.roster.put p vips).get q = some vips') : q = p ∨ Rostered mesh q := by
  rcases HashMap.get_of_get_put found with ⟨same, _⟩ | ⟨_, old⟩
  · exact Or.inl same
  · exact Or.inr ⟨vips', old⟩

/-- A careful update stores a table that has the entries it should have. -/
theorem present_store {updater : Updater} {f : SpokeMesh → SpokeMesh} {base : SpokeMesh}
    {advanced : State} (stores : Stores config state updater f advanced)
    (present : Present state base) (careful : Careful config state base updater)
    (slots : Updater → Option SpokeMesh) :
    Present { advanced with table := f base, loaded := slots } (f base) := by
  rintro m q other ⟨opened, last, last6⟩ ⟨vips, rostered⟩
  cases stores with
  | enter hub here =>
      have lasting : Lasting state m q other := ⟨opened, last, last6⟩
      rcases rostered_put rostered with rfl | before
      · exact careful hub here m other lasting
      · exact present m q other lasting before
  | clear here => exact present m q other ⟨opened, last, last6⟩ ⟨vips, rostered⟩
  | insert s e rest here =>
      simp only [Careful, here] at careful
      have lasting : Lasting state m q other := by
        rcases task_append opened with old | fresh
        · exact ⟨old, last, last6⟩
        · cases fresh
      rcases rostered_put rostered with rfl | before
      · exact careful m other lasting
      · exact present m q other lasting before
  | left s e rest here =>
      simp only [Careful, here] at careful
      have lasting : Lasting state m q other := ⟨opened, last, last6⟩
      obtain ⟨distinct, before⟩ := HashMap.get_of_get_remove rostered
      obtain ⟨apart, apart6⟩ := careful m q other lasting distinct ⟨vips, before⟩
      obtain ⟨entry, entry6⟩ := present m q other lasting ⟨vips, before⟩
      exact ⟨(HashMap.get_remove_of_ne apart _).trans entry,
        (HashMap.get_remove_of_ne apart6 _).trans entry6⟩
  | install n p peer here =>
      simp only [Careful, here] at careful
      have later : Lasting { state with
          tasks := state.tasks.set n (.opened p peer)
          last := state.last.put peer.v4 n
          last6 := state.last6.put peer.v6 n } m q other := ⟨opened, last, last6⟩
      rcases later.of_install with ⟨rfl, rfl, rfl⟩ | ⟨⟨apart, apart6⟩, lasting⟩
      · exact ⟨HashMap.get_put_self _ _ _, HashMap.get_put_self _ _ _⟩
      · have entered : Entered base m other := by
          rcases rostered_put rostered with rfl | before
          · exact careful m other lasting apart apart6
          · exact present m q other lasting before
        exact ⟨(HashMap.get_put_of_ne apart _ _).trans entered.1,
          (HashMap.get_put_of_ne apart6 _ _).trans entered.2⟩
  | drop n p peer here =>
      simp only [Careful, here] at careful
      have unopened : ∀ q' peer', Task.closed p peer ≠ .opened q' peer' := by
        rintro _ _ ⟨⟩
      obtain ⟨distinct, lasting⟩ : m ≠ n ∧ Lasting state m q other :=
        Lasting.of_set unopened ⟨opened, last, last6⟩
      obtain ⟨entry, entry6⟩ := present m q other lasting ⟨vips, rostered⟩
      obtain ⟨free, free6⟩ := (careful m distinct).2 q other lasting.opened
      have apart : other.v4 ≠ peer.v4 := fun same => free (same ▸ entry)
      have apart6 : other.v6 ≠ peer.v6 := fun same => free6 (same ▸ entry6)
      exact ⟨(HashMap.get_remove_of_ne apart _).trans entry,
        (HashMap.get_remove_of_ne apart6 _).trans entry6⟩

theorem present_step (present : Present state state.table) (tidy : Tidy config state event)
    (stepped : step config state event = some next) : Present next next.table := by
  cases step_move stepped with
  | dialHub | hubAnswer | hubFailed | hubGone | take | load | ignored =>
      exact fun n q peer lasting =>
        present n q peer ⟨lasting.opened, lasting.last, lasting.last6⟩
  | store updater f base advanced stores loaded =>
      obtain ⟨covered, careful⟩ := tidy base loaded
      exact present_store stores covered careful _
  | admitted peerId allowed =>
      rintro n q peer ⟨opened, last, last6⟩
      rcases task_append opened with old | fresh
      · exact present n q peer ⟨old, last, last6⟩
      · cases fresh
  | task n act before after effect here moved =>
      intro m q peer lasting
      exact present m q peer (lasting.of_set (task_move moved).unopened).2

/-- The closure of a link that ends is the removal. -/
theorem table_of_close {n : Nat} {q : EndpointId} {peer : OwnVips}
    (here : state.tasks[n]? = some (.closing q peer))
    (stepped : step config state (.store (.task n)) = some next) :
    ∃ base, state.loaded (.task n) = some base ∧ next.table = base.drop peer := by
  cases step_move stepped with
  | store updater f base advanced stores loaded =>
      refine ⟨base, loaded, ?_⟩
      cases stores with
      | install n q peer installing => cases here.symm.trans installing
      | drop n q peer closing =>
          cases here.symm.trans closing
          rfl

theorem closesOwn_of_tidy (tidy : Tidy config state event) : ClosesOwn config state event := by
  rintro n q peer next rfl here stepped m distinct
  obtain ⟨base, loaded, table⟩ := table_of_close here stepped
  have careful := (tidy base loaded).2
  simp only [Careful, here] at careful
  obtain ⟨retains, free⟩ := careful m distinct
  rw [table]
  constructor
  · intro v p other opened found
    have held := retains.v4 v p other opened found
    refine (HashMap.get_remove_of_ne ?_ _).trans held
    rintro rfl
    exact (free p other opened).1 held
  · intro v p other opened found
    have held := retains.v6 v p other opened found
    refine (HashMap.get_remove_of_ne ?_ _).trans held
    rintro rfl
    exact (free p other opened).2 held

/-- What has become of the entries after a step says what the step was like. -/
theorem tidy_of_present (present : Present state state.table) (current : Current state event)
    (kept : Present next next.table) (own : ClosesOwn config state event)
    (stepped : step config state event = some next) : Tidy config state event := by
  cases step_move stepped with
  | store updater f base advanced stores loaded =>
      intro copy found
      cases loaded.symm.trans found
      have same := current base loaded
      subst same
      refine ⟨present, ?_⟩
      cases stores with
      | enter hub here =>
          intro other entering n peer lasting
          cases here.symm.trans entering
          exact kept n config.hubId peer ⟨lasting.opened, lasting.last, lasting.last6⟩
            ⟨_, HashMap.get_put_self _ _ _⟩
      | clear here =>
          intro hub entering
          cases here.symm.trans entering
      | insert s e rest here =>
          simp only [Careful, here]
          intro n peer lasting
          refine kept n e.id peer ⟨?_, lasting.last, lasting.last6⟩
            ⟨_, HashMap.get_put_self _ _ _⟩
          obtain ⟨inside, _⟩ := List.getElem?_eq_some_iff.mp lasting.opened
          exact (List.getElem?_append_left inside).trans lasting.opened
      | left s e rest here =>
          simp only [Careful, here]
          intro n q peer lasting distinct rostered
          obtain ⟨vips, before⟩ := rostered
          obtain ⟨entry, entry6⟩ := kept n q peer ⟨lasting.opened, lasting.last, lasting.last6⟩
            ⟨vips, (HashMap.get_remove_of_ne distinct _).trans before⟩
          exact ⟨(HashMap.get_of_get_remove entry).1, (HashMap.get_of_get_remove entry6).1⟩
      | install n q peer here =>
          simp only [Careful, here]
          intro m other lasting apart apart6
          have distinct : n ≠ m := by
            rintro rfl
            cases here.symm.trans lasting.opened
          obtain ⟨entry, entry6⟩ := kept m q other
            ⟨(List.getElem?_set_ne distinct).trans lasting.opened,
              (HashMap.get_put_of_ne apart _ _).trans lasting.last,
              (HashMap.get_put_of_ne apart6 _ _).trans lasting.last6⟩
            ⟨peer, HashMap.get_put_self _ _ _⟩
          exact ⟨(HashMap.get_put_of_ne apart _ _).symm.trans entry,
            (HashMap.get_put_of_ne apart6 _ _).symm.trans entry6⟩
      | drop n q peer here =>
          simp only [Careful, here]
          intro m distinct
          have retains := own n q peer _ rfl here stepped m distinct
          refine ⟨⟨fun _ _ _ _ => id, fun _ _ _ _ => id⟩, fun p other opened => ⟨?_, ?_⟩⟩
          · intro found
            exact (HashMap.get_of_get_remove (retains.v4 _ p other opened found)).1 rfl
          · intro found
            exact (HashMap.get_of_get_remove (retains.v6 _ p other opened found)).1 rfl
  | _ => trivial

/-- **Entries of open links.** In a run whose updates are tidy, an open link to a
rostered peer that was the last to install its entries has both, in every state,
and the end of a link leaves the entries of the other open links; and where
updates do not overlap, only in such a run. -/
theorem open_links_keep_entries (config : Config) :
    (∀ events, AllSteps (step config) (Tidy config) .start events →
      AllStates (step config) (fun state => Present state state.table) .start events ∧
        AllSteps (step config) (ClosesOwn config) .start events) ∧
    ∀ events, AllSteps (step config) Current .start events →
      (AllStates (step config) (fun state => Present state state.table) .start events ∧
          AllSteps (step config) (ClosesOwn config) .start events ↔
        AllSteps (step config) (Tidy config) .start events) := by
  have initial : Present .start State.start.table := fun _ _ _ lasting =>
    absurd lasting.opened nofun
  have enough : ∀ events, AllSteps (step config) (Tidy config) .start events →
      AllStates (step config) (fun state => Present state state.table) .start events ∧
        AllSteps (step config) (ClosesOwn config) .start events := by
    intro events tidy
    refine AllSteps.exchange (fun state event next held met stepped => ?_) initial tidy
    exact ⟨present_step held met stepped, closesOwn_of_tidy met⟩
  refine ⟨enough, fun events current => ⟨fun ⟨states, own⟩ => ?_, enough events⟩⟩
  refine states.edges (current.and own) fun state event next held again met stepped => ?_
  exact tidy_of_present held met.1 again met.2 stepped

/-- A spoke with id 4, which allows everybody. -/
def openConfig : Config :=
  ⟨4, ⟨0xAC180004, 0xFD24AC18000000000000000000000004⟩, 9, false, none⟩

/-- The addresses of peer 3. -/
def vips3 : OwnVips := ⟨0xAC180003, 0xFD24AC18000000000000000000000003⟩

/-- Peer 3 connects, and connects again while its old link is closing. -/
def redialled : List Event :=
  [.accept .tun 3, .task 0 (.heard (encodeVips vips3)), .load (.task 0), .store (.task 0),
    .accept .tun 3, .task 1 (.heard (encodeVips vips3)), .load (.task 1), .store (.task 1),
    .task 0 .closed, .load (.task 0)]

theorem redialled_before :
    (run (step openConfig) .start redialled).map (fun reached =>
      (reached.table.direct.get vips3.v4, reached.tasks[0]?, reached.tasks[1]?)) =
      some (some 1, some (.closing 3 vips3), some (.opened 3 vips3)) := by
  decide +kernel

theorem redialled_after :
    (run (step openConfig) .start (redialled ++ [.store (.task 0)])).map (fun final =>
      (final.table.direct.get vips3.v4, final.tasks[1]?, final.last.get vips3.v4,
        final.last6.get vips3.v6, final.table.roster.get 3)) =
      some (none, some (.opened 3 vips3), some 1, some 1, some vips3) := by
  decide +kernel

/-- The end of the old link removes the entries of the new one. -/
theorem redial_loses_entries :
    ¬ AllSteps (step openConfig) (ClosesOwn openConfig) .start
        (redialled ++ [.store (.task 0)]) ∧
      ¬ AllStates (step openConfig) (fun state => Present state state.table) .start
        (redialled ++ [.store (.task 0)]) := by
  obtain ⟨reached, ran, facts⟩ := Option.map_eq_some_iff.mp redialled_before
  obtain ⟨final, ended, outcome⟩ := Option.map_eq_some_iff.mp redialled_after
  simp only [Prod.mk.injEq] at facts outcome
  obtain ⟨entry, closing, opened⟩ := facts
  obtain ⟨gone, still, last, last6, rostered⟩ := outcome
  constructor
  · intro own
    have stepped : step openConfig reached (.store (.task 0)) = some final := by
      rw [run_append, ran, Option.bind_some, run_cons] at ended
      obtain ⟨next, stepped, same⟩ := Option.bind_eq_some_iff.mp ended
      cases same
      exact stepped
    have met := allSteps_iff_prefix.mp own redialled _ [] reached final rfl ran stepped
    have retains := met 0 3 vips3 final rfl closing stepped 1 (by decide)
    cases gone.symm.trans (retains.v4 _ 3 vips3 opened entry)
  · intro present
    have entered := present.final ended 1 3 vips3 ⟨still, last, last6⟩ ⟨vips3, rostered⟩
    cases gone.symm.trans entered.1

end LinkP2p.Tun.Spoke
