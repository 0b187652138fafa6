import LinkP2p.Tun.Journey

/-!
# What the stations know of each other

What the hub and the spokes know of the addresses of others they have been told in
VIP exchanges. As long as every station tells its own, their tables, sessions and
links have it right. A session of the hub and a link of a spoke keep their peer.
-/

namespace LinkP2p.Tun.Journey

open LinkP2p.Lib LinkP2p.Lib.Transition LinkP2p.Lib.Rcu
open LinkP2p.Tun.Hub (HubPeer HubPeerIndex HubConfig hubSystem)
open LinkP2p.Tun.Spoke (SpokeMesh Config Task Updater Linked Wired decodeVips)

namespace Plan

variable (plan : Plan)

/-- What a station announces. A spoke may have a second connection to the hub. -/
def announced (q : EndpointId) : Option OwnVips :=
  if q = plan.hubId then some plan.hub else plan.spoke q

/-! ## The hub -/

/-- A peer of the hub announces its own addresses. -/
def hubTold (hub : Hub.State) : Hub.Event → Bool
  | .act i (.exchanged peer) =>
      match hub.tasks i with
      | some (.exchanging p) => decide (plan.spoke p = some peer)
      | _ => true
  | _ => true

/-- What a session of the hub has of its peer's addresses. -/
def Knows : Hub.Task → Prop
  | .opening p peer => plan.spoke p = some peer
  | .at peer _ => plan.spoke peer.id = some ⟨peer.vip, peer.vip6⟩
  | .exchanging _ | .aborted => True

structure HubRight (hub : Hub.State) : Prop where
  wf : Hub.Wf hub
  knows : ∀ i task, hub.tasks i = some task → plan.Knows task

variable {plan}

theorem knows_update {tasks : Nat → Option Hub.Task}
    (knows : ∀ i task, tasks i = some task → plan.Knows task) {i : Nat} {task : Hub.Task}
    (known : plan.Knows task) (j : Nat) (found : Hub.Task)
    (here : Function.update tasks i (some task) j = some found) : plan.Knows found := by
  by_cases same : j = i
  · subst same
    rw [Function.update_self] at here
    cases here
    exact known
  · rw [Function.update_of_ne same] at here
    exact knows j found here

theorem knows_step {cfg : HubConfig} {seen : HubPeerIndex} {hub next : Hub.State}
    {event : Hub.Event} (knows : ∀ i task, hub.tasks i = some task → plan.Knows task)
    (told : plan.hubTold hub event = true) (taken : Hub.step cfg seen hub event = some next) :
    ∀ i task, next.tasks i = some task → plan.Knows task := by
  cases event with
  | accept p =>
      cases taken
      dsimp only
      split
      · exact knows_update knows trivial
      · exact knows
  | act i act =>
      obtain ⟨task, task', effect, found, moves, rfl, _⟩ := Hub.act_cases taken
      refine knows_update knows ?_
      cases moves with
      | exchanged p peer =>
          rw [hubTold, found] at told
          have known : plan.spoke p = some peer := of_decide_eq_true told
          exact known
      | aborted => trivial
      | opened p peer hello =>
          have known := knows i _ found
          exact known
      | moved peer move =>
          have known := knows i _ found
          exact known

theorem hubRight_step {cfg : HubConfig} {hub next : Hub.State} {event : Hub.Event}
    (right : plan.HubRight hub) (told : plan.hubTold hub event = true)
    (taken : (hubSystem cfg).atomic hub event = some next) : plan.HubRight next :=
  ⟨Hub.wf_step right.wf taken, knows_step right.knows told taken⟩

/-- What the index has under an address belongs to the spoke that has it. -/
theorem HubRight.claimed {hub : Hub.State} (right : plan.HubRight hub) :
    (∀ x peer, hub.peers.byV4.get x = some peer →
      ∃ b, plan.spoke peer.id = some b ∧ b.v4 = x) ∧
    ∀ x peer, hub.peers.byV6.get x = some peer →
      ∃ b, plan.spoke peer.id = some b ∧ b.v6 = x := by
  constructor
  · intro x peer found
    obtain ⟨point, here, _⟩ := right.wf.owner4 x peer found
    exact ⟨_, right.knows _ _ here, right.wf.key4 x peer found⟩
  · intro x peer found
    obtain ⟨point, here, _⟩ := right.wf.owner6 x peer found
    exact ⟨_, right.knows _ _ here, right.wf.key6 x peer found⟩

/-! ## The spokes -/

variable (plan)

/-- The hub and the peers of direct links announce their own addresses. -/
def spokeTold (state : Spoke.State) : Spoke.Event → Bool
  | .hubAnswer frame => (decodeVips frame).all fun hub => decide (hub = plan.hub)
  | .task n (.answer frame) =>
      match state.tasks[n]? with
      | some (.offering e) =>
          (decodeVips frame).all fun peer => decide (plan.announced e.id = some peer)
      | _ => true
  | .task n (.heard frame) =>
      match state.tasks[n]? with
      | some (.answering q) =>
          (decodeVips frame).all fun peer => decide (plan.announced q = some peer)
      | _ => true
  | _ => true

/-- What the table has of the hub is the hub's. -/
structure Entered (mesh : SpokeMesh) : Prop where
  v4 : ∀ x, mesh.hubVip = some x → x = plan.hub.v4
  v6 : ∀ x, mesh.hubVip6 = some x → x = plan.hub.v6
  out : mesh.hubOut.isSome = true →
    mesh.hubVip = some plan.hub.v4 ∧ mesh.hubVip6 = some plan.hub.v6

/-- What a task has of its peer. -/
def Names : Task → Prop
  | .installing q peer | .opened q peer | .closing q peer | .closed q peer =>
      plan.announced q = some peer
  | .dial _ | .connecting _ | .offering _ | .answering _ | .done => True

structure SpokeRight (config : Config) (state : Spoke.State) : Prop where
  wired : Wired config state
  table : plan.Entered state.table
  loaded : ∀ updater base, state.loaded updater = some base → plan.Entered base
  entering : ∀ hub, state.session = .entering hub → hub = plan.hub
  names : ∀ (n : Nat) task, state.tasks[n]? = some task → plan.Names task

variable {plan} {config : Config} {state next : Spoke.State} {event : Spoke.Event}

theorem entered_new : plan.Entered .new where
  v4 := nofun
  v6 := nofun
  out := nofun

theorem spokeRight_start : plan.SpokeRight config .start where
  wired := Spoke.wired_start
  table := entered_new
  loaded := nofun
  entering := nofun
  names n task here := by
    change ([] : List Task)[n]? = some task at here
    cases here

theorem names_arrived {own : OwnVips} {q : EndpointId} {peer : OwnVips}
    (told : plan.announced q = some peer) : plan.Names (.arrived own q peer) := by
  rcases Spoke.arrived_cases own q peer with same | ⟨same, _⟩
  · rw [same]
    trivial
  · rw [same]
    exact told

/-- A task hears nothing but what its peer announces. -/
theorem names_task {table : SpokeMesh} {n : Nat} {task task' : Task} {act : Spoke.TaskAct}
    {effect : Spoke.Effect} (here : state.tasks[n]? = some task) (known : plan.Names task)
    (told : plan.spokeTold state (.task n act) = true)
    (moved : Spoke.taskStep config table task act = some (task', effect)) :
    plan.Names task' := by
  unfold Spoke.taskStep at moved
  split at moved
  case h_1 e =>
      cases moved
      split
      · trivial
      · trivial
  case h_3 e frame =>
      cases moved
      unfold Spoke.Task.answered
      split
      · rename_i peer heard
        split
        · rw [spokeTold, here, heard] at told
          exact names_arrived (of_decide_eq_true told)
        · trivial
      · trivial
  case h_4 q frame =>
      obtain ⟨_, same⟩ := Option.ite_none_right_eq_some.mp moved
      cases same
      unfold Spoke.Task.replied
      split
      · rename_i peer heard
        rw [spokeTold, here, heard] at told
        exact names_arrived (of_decide_eq_true told)
      · trivial
  case h_8 q peer =>
      cases moved
      exact known
  case h_9 => cases moved
  all_goals
    cases moved
    trivial

/-- The session loop enters what the hub has answered. -/
theorem entering_step (told : plan.spokeTold state event = true)
    (entering : ∀ hub, state.session = .entering hub → hub = plan.hub)
    (taken : Spoke.step config state event = some next) (hub : OwnVips)
    (here : next.session = .entering hub) : hub = plan.hub := by
  cases event with
  | hubAnswer frame =>
      obtain ⟨_, same⟩ := Option.ite_none_right_eq_some.mp taken
      cases same
      cases heard : decodeVips frame with
      | none =>
          rw [heard] at here
          cases here
      | some peer =>
          rw [heard] at here
          cases here
          rw [spokeTold, heard] at told
          exact of_decide_eq_true told
  | dialHub | hubGone =>
      obtain ⟨_, same⟩ := Option.ite_none_right_eq_some.mp taken
      cases same
      cases here
  | hubFailed =>
      simp only [Spoke.step] at taken
      split at taken
      · cases taken
        cases here
      · obtain ⟨_, same⟩ := Option.ite_none_right_eq_some.mp taken
        cases same
        cases here
      · cases taken
  | store updater =>
      cases Spoke.step_move taken with
      | store _ f base advanced stores loaded =>
          cases stores with
          | enter | clear => cases here
          | insert | left | install | drop => exact entering hub here
  | _ =>
      cases Spoke.step_move taken
      all_goals exact entering hub here

theorem names_append {tasks : List Task}
    (names : ∀ (n : Nat) task, tasks[n]? = some task → plan.Names task) {task : Task}
    (known : plan.Names task) (n : Nat) (found : Task) (here : (tasks ++ [task])[n]? = some found) :
    plan.Names found := by
  rcases Spoke.task_append here with old | rfl
  · exact names n found old
  · exact known

theorem names_set {tasks : List Task}
    (names : ∀ (n : Nat) task, tasks[n]? = some task → plan.Names task) {task : Task} {m : Nat}
    (known : plan.Names task) (n : Nat) (found : Task)
    (here : (tasks.set m task)[n]? = some found) : plan.Names found := by
  rcases Spoke.task_set here with ⟨_, rfl⟩ | ⟨_, old⟩
  · exact known
  · exact names n found old

/-- Every update keeps what the table has of the hub, and no task forgets its peer. -/
theorem right_stores (right : plan.SpokeRight config state) {updater : Updater}
    {f : SpokeMesh → SpokeMesh} {advanced : Spoke.State} {base : SpokeMesh}
    (stores : Spoke.Stores config state updater f advanced) (entered : plan.Entered base) :
    plan.Entered (f base) ∧
      ∀ (n : Nat) task, advanced.tasks[n]? = some task → plan.Names task := by
  cases stores with
  | enter hub here =>
      cases right.entering hub here
      refine ⟨⟨?_, ?_, fun _ => ⟨rfl, rfl⟩⟩, right.names⟩
      · rintro _ ⟨⟩
        rfl
      · rintro _ ⟨⟩
        rfl
  | clear => exact ⟨⟨nofun, nofun, nofun⟩, right.names⟩
  | insert s e rest here =>
      exact ⟨⟨entered.v4, entered.v6, entered.out⟩, names_append right.names trivial⟩
  | left => exact ⟨⟨entered.v4, entered.v6, entered.out⟩, right.names⟩
  | install n q peer here | drop n q peer here =>
      have known := right.names n _ here
      exact ⟨⟨entered.v4, entered.v6, entered.out⟩, names_set right.names known⟩

theorem spokeRight_step (right : plan.SpokeRight config state)
    (told : plan.spokeTold state event = true) (taken : Spoke.step config state event = some next) :
    plan.SpokeRight config next := by
  have wired := Spoke.wired_step right.wired taken
  have entering := entering_step told right.entering taken
  cases Spoke.step_move taken with
  | dialHub | hubAnswer | hubFailed | hubGone | take | ignored =>
      exact ⟨wired, right.table, right.loaded, entering, right.names⟩
  | load updater =>
      refine ⟨wired, right.table, fun other base found => ?_, entering, right.names⟩
      rcases Spoke.loaded_cases found with fresh | old
      · cases fresh
        exact right.table
      · exact right.loaded other base old
  | store updater f base advanced stores loaded =>
      obtain ⟨entered, names⟩ := right_stores right stores (right.loaded updater base loaded)
      refine ⟨wired, entered, fun other copy found => ?_, entering, names⟩
      rcases Spoke.loaded_cases found with fresh | old
      · cases fresh
      · exact right.loaded other copy old
  | admitted q =>
      exact ⟨wired, right.table, right.loaded, entering, names_append right.names trivial⟩
  | task n act task task' effect here moved =>
      have known := names_task here (right.names n task here) told moved
      exact ⟨wired, right.table, right.loaded, entering, names_set right.names known⟩

end Plan

/-! ## Both ends of a connection -/

/-- The peer of a session of the hub. -/
def Serves (p : EndpointId) : Hub.Task → Prop
  | .exchanging q | .opening q _ => q = p
  | .at peer _ => peer.id = p
  | .aborted => True

/-- The hub has given the number `i` to a connection of spoke `p`. -/
structure Belongs (hub : Hub.State) (p : EndpointId) (i : Nat) : Prop where
  drawn : i ≤ hub.sessionSeq
  serves : ∀ task, hub.tasks i = some task → Serves p task

theorem belongs_update {hub : Hub.State} {p : EndpointId} {i j : Nat} {task : Hub.Task}
    (belongs : Belongs hub p i) (serves : i = j → Serves p task) :
    ∀ found, Function.update hub.tasks j (some task) i = some found → Serves p found := by
  intro found here
  by_cases same : i = j
  · subst same
    rw [Function.update_self] at here
    cases here
    exact serves rfl
  · rw [Function.update_of_ne same] at here
    exact belongs.serves found here

/-- A session keeps its peer. -/
theorem belongs_step {cfg : HubConfig} {seen : HubPeerIndex} {hub next : Hub.State}
    {event : Hub.Event} {p : EndpointId} {i : Nat} (belongs : Belongs hub p i)
    (taken : Hub.step cfg seen hub event = some next) : Belongs next p i := by
  cases event with
  | accept q =>
      cases taken
      refine ⟨Nat.le_succ_of_le belongs.drawn, ?_⟩
      dsimp only
      split
      · refine belongs_update belongs fun same => ?_
        exact absurd (same ▸ belongs.drawn) (Nat.not_succ_le_self _)
      · exact belongs.serves
  | act j act =>
      obtain ⟨task, task', effect, found, moves, rfl, _⟩ := Hub.act_cases taken
      have drawn : i ≤ (effect.apply hub).sessionSeq := by
        cases effect with
        | _ => exact belongs.drawn
      refine ⟨drawn, ?_⟩
      refine belongs_update belongs fun same => ?_
      subst same
      have known := belongs.serves task found
      cases moves with
      | exchanged | opened | moved => exact known
      | aborted => trivial

/-- The session of a connection that the hub accepts now. -/
theorem belongs_accept {cfg : HubConfig} {seen : HubPeerIndex} {hub next : Hub.State}
    {p : EndpointId} (fresh : Hub.Fresh hub)
    (taken : Hub.step cfg seen hub (.accept p) = some next) : Belongs next p next.sessionSeq := by
  cases taken
  refine ⟨Nat.le_refl _, fun task here => ?_⟩
  dsimp only at here
  split at here
  · rw [Function.update_self] at here
    cases here
    rfl
  · rw [fresh _ (Nat.lt_succ_self _)] at here
    cases here

/-- The peer of a dial, of an accepted connection or of a link. -/
def toward : Task → Option EndpointId
  | .dial e | .connecting e | .offering e => some e.id
  | .answering q | .installing q _ | .opened q _ | .closing q _ | .closed q _ => some q
  | .done => none

/-- Task `n` has no peer but `q`. -/
def With (tasks : List Task) (n : Nat) (q : EndpointId) : Prop :=
  ∃ task, tasks[n]? = some task ∧ ∀ r, toward task = some r → r = q

theorem with_append {tasks : List Task} {n : Nat} {q : EndpointId} (facing : With tasks n q)
    (task : Task) : With (tasks ++ [task]) n q := by
  obtain ⟨old, here, only⟩ := facing
  have bound := (List.getElem?_eq_some_iff.mp here).1
  exact ⟨old, (List.getElem?_append_left bound).trans here, only⟩

theorem with_set {tasks : List Task} {n m : Nat} {q : EndpointId} (facing : With tasks n q)
    {task task' : Task} (here : tasks[m]? = some task)
    (same : ∀ r, toward task' = some r → toward task = some r) : With (tasks.set m task') n q := by
  obtain ⟨old, found, only⟩ := facing
  by_cases at_m : m = n
  · subst at_m
    cases here.symm.trans found
    exact ⟨task', Spoke.getElem?_set_of_some here, fun r named => only r (same r named)⟩
  · exact ⟨old, (List.getElem?_set_ne at_m).trans found, only⟩

theorem toward_arrived {own : OwnVips} {q r : EndpointId} {peer : OwnVips}
    (named : toward (.arrived own q peer) = some r) : r = q := by
  rcases Spoke.arrived_cases own q peer with same | ⟨same, _⟩
  · rw [same] at named
    cases named
  · rw [same] at named
    cases named
    rfl

/-- A task changes its peer for none but nobody. -/
theorem toward_task {config : Config} {table : SpokeMesh} {task task' : Task}
    {act : Spoke.TaskAct} {effect : Spoke.Effect}
    (moved : Spoke.taskStep config table task act = some (task', effect)) (r : EndpointId)
    (named : toward task' = some r) : toward task = some r := by
  unfold Spoke.taskStep at moved
  split at moved
  case h_1 e =>
      cases moved
      split at named
      · exact named
      · cases named
  case h_3 e frame =>
      cases moved
      unfold Spoke.Task.answered at named
      split at named
      · split at named
        · rw [toward_arrived named]
          rfl
        · cases named
      · cases named
  case h_4 q frame =>
      obtain ⟨_, same⟩ := Option.ite_none_right_eq_some.mp moved
      cases same
      unfold Spoke.Task.replied at named
      split at named
      · rw [toward_arrived named]
        rfl
      · cases named
  case h_9 => cases moved
  all_goals
    cases moved
    first
      | exact named
      | cases named

theorem with_step {config : Config} {state next : Spoke.State} {event : Spoke.Event} {n : Nat}
    {q : EndpointId} (facing : With state.tasks n q)
    (taken : Spoke.step config state event = some next) : With next.tasks n q := by
  cases Spoke.step_move taken with
  | dialHub | hubAnswer | hubFailed | hubGone | take | ignored | load => exact facing
  | admitted p => exact with_append facing _
  | task m act task task' effect here moved => exact with_set facing here (toward_task moved)
  | store updater f base advanced stores loaded =>
      cases stores with
      | enter | clear | left => exact facing
      | insert s e => exact with_append facing _
      | install m r peer here | drop m r peer here => exact with_set facing here fun _ same => same

end LinkP2p.Tun.Journey
