import LinkP2p.Tun.SpokeMesh

/-!
# Links

A task becomes a link when it installs its entries, and is that link for good.
The entries of a table, and of every copy under way, are links that announced
the address.
-/

namespace LinkP2p.Tun.Spoke

open LinkP2p.Lib LinkP2p.Lib.Transition

variable {config : Config} {state next : State} {event : Event}

/-- The peer of a link that has been installed, and the addresses it announced. -/
def Task.link : Task → Option (EndpointId × OwnVips)
  | .opened peerId peer | .closing peerId peer | .closed peerId peer => some (peerId, peer)
  | _ => none

/-- Task `n` is a link of this peer. -/
def Linked (tasks : List Task) (n : Nat) (peerId : EndpointId) (peer : OwnVips) : Prop :=
  ∃ task, tasks[n]? = some task ∧ task.link = some (peerId, peer)

variable {tasks : List Task} {n m : Nat} {q p : EndpointId} {peer other : OwnVips}

theorem task_append {task found : Task} (here : (tasks ++ [task])[n]? = some found) :
    tasks[n]? = some found ∨ found = task := by
  rcases Nat.lt_or_ge n tasks.length with inside | beyond
  · exact Or.inl ((List.getElem?_append_left inside).symm.trans here)
  · rw [List.getElem?_append_right beyond] at here
    exact Or.inr (List.mem_singleton.mp (List.mem_of_getElem? here))

theorem task_set {task found : Task} (here : (tasks.set m task)[n]? = some found) :
    n = m ∧ found = task ∨ n ≠ m ∧ tasks[n]? = some found := by
  by_cases mover : n = m
  · subst mover
    rw [List.getElem?_set] at here
    simp only [if_true, Option.ite_none_right_eq_some] at here
    exact Or.inl ⟨rfl, (Option.some.inj here.2).symm⟩
  · rw [List.getElem?_set_ne (Ne.symm mover)] at here
    exact Or.inr ⟨mover, here⟩

theorem linked_append {task : Task} (fresh : task.link = none) :
    Linked (tasks ++ [task]) n q peer ↔ Linked tasks n q peer := by
  constructor
  · rintro ⟨found, here, link⟩
    rcases task_append here with old | rfl
    · exact ⟨found, old, link⟩
    · cases fresh.symm.trans link
  · rintro ⟨found, here, link⟩
    obtain ⟨inside, _⟩ := List.getElem?_eq_some_iff.mp here
    exact ⟨found, (List.getElem?_append_left inside).trans here, link⟩

theorem getElem?_set_of_some {before task : Task} (here : tasks[m]? = some before) :
    (tasks.set m task)[m]? = some task := by
  obtain ⟨inside, _⟩ := List.getElem?_eq_some_iff.mp here
  exact List.getElem?_set_self inside

/-- A task that stays the link it was, or stays none. -/
theorem linked_set {before task : Task} (here : tasks[m]? = some before)
    (same : task.link = before.link) :
    Linked (tasks.set m task) n q peer ↔ Linked tasks n q peer := by
  by_cases mover : n = m
  · subst mover
    constructor
    · rintro ⟨_, again, link⟩
      cases (getElem?_set_of_some here).symm.trans again
      exact ⟨before, here, same.symm.trans link⟩
    · rintro ⟨_, again, link⟩
      cases here.symm.trans again
      exact ⟨task, getElem?_set_of_some here, same.trans link⟩
  · unfold Linked
    rw [List.getElem?_set_ne (Ne.symm mover)]

theorem linked_drop (here : tasks[m]? = some (.closing p other)) :
    Linked (tasks.set m (.closed p other)) n q peer ↔ Linked tasks n q peer :=
  linked_set here rfl

/-- A link that is installed. -/
theorem linked_install (here : tasks[m]? = some (.installing p other)) :
    Linked (tasks.set m (.opened p other)) n q peer ↔
      Linked tasks n q peer ∨ n = m ∧ q = p ∧ peer = other := by
  by_cases mover : n = m
  · subst mover
    constructor
    · rintro ⟨_, again, link⟩
      cases (getElem?_set_of_some here).symm.trans again
      cases link
      exact Or.inr ⟨rfl, rfl, rfl⟩
    · rintro (⟨_, again, link⟩ | ⟨_, rfl, rfl⟩)
      · cases here.symm.trans again
        cases link
      · exact ⟨_, getElem?_set_of_some here, rfl⟩
  · unfold Linked
    rw [List.getElem?_set_ne (Ne.symm mover)]
    exact ⟨Or.inl, fun either => either.elim id fun both => absurd both.1 mover⟩

theorem arrived_cases (own : OwnVips) (peerId : EndpointId) (peer : OwnVips) :
    Task.arrived own peerId peer = .done ∨
      Task.arrived own peerId peer = .installing peerId peer ∧
        peer.v4 ≠ own.v4 ∧ peer.v6 ≠ own.v6 := by
  unfold Task.arrived
  split
  · exact Or.inl rfl
  · rename_i apart
    exact Or.inr ⟨rfl, not_or.mp apart⟩

theorem answered_cases (own : OwnVips) (e : RosterEntry) (frame : List UInt8) :
    Task.answered own e frame = .done ∨ ∃ peer,
      Task.answered own e frame = .installing e.id peer ∧ peer.v4 ≠ own.v4 ∧ peer.v6 ≠ own.v6 := by
  unfold Task.answered
  split
  · split
    · exact (arrived_cases own e.id _).imp_right fun installs => ⟨_, installs⟩
    · exact Or.inl rfl
  · exact Or.inl rfl

theorem replied_cases (own : OwnVips) (peerId : EndpointId) (frame : List UInt8) :
    Task.replied own peerId frame = .done ∨ ∃ peer,
      Task.replied own peerId frame = .installing peerId peer ∧
        peer.v4 ≠ own.v4 ∧ peer.v6 ≠ own.v6 := by
  unfold Task.replied
  split
  · exact (arrived_cases own peerId _).imp_right fun installs => ⟨_, installs⟩
  · exact Or.inl rfl

/-- A task that moves on its own stays the link it was, opens none, and is about
to install one only with addresses that are not the spoke's. -/
structure TaskMove (own : OwnVips) (task task' : Task) : Prop where
  link : task'.link = task.link
  unopened : ∀ peerId peer, task' ≠ .opened peerId peer
  apart : ∀ peerId peer, task' = .installing peerId peer → peer.v4 ≠ own.v4 ∧ peer.v6 ≠ own.v6

theorem taskMove_of_ends {own : OwnVips} {task task' : Task} (unlinked : task.link = none)
    (ends : task' = .done ∨ ∃ peerId peer, task' = .installing peerId peer ∧
      peer.v4 ≠ own.v4 ∧ peer.v6 ≠ own.v6) : TaskMove own task task' := by
  rcases ends with rfl | ⟨peerId, peer, rfl, apart⟩
  · exact ⟨unlinked.symm, nofun, nofun⟩
  · refine ⟨unlinked.symm, nofun, ?_⟩
    rintro _ _ ⟨⟩
    exact apart

theorem task_move {table : SpokeMesh} {task task' : Task} {act : TaskAct} {effect : Effect}
    (moved : taskStep config table task act = some (task', effect)) :
    TaskMove config.own task task' := by
  unfold taskStep at moved
  split at moved
  case h_1 e =>
      obtain ⟨rfl, rfl⟩ := Prod.mk.inj (Option.some.inj moved)
      split
      · exact ⟨rfl, nofun, nofun⟩
      · exact ⟨rfl, nofun, nofun⟩
  case h_3 e frame =>
      obtain ⟨rfl, rfl⟩ := Prod.mk.inj (Option.some.inj moved)
      exact taskMove_of_ends rfl
        ((answered_cases config.own e frame).imp_right fun installs => ⟨_, installs⟩)
  case h_4 peerId frame =>
      obtain ⟨_, same⟩ := Option.ite_none_right_eq_some.mp moved
      obtain ⟨rfl, rfl⟩ := Prod.mk.inj (Option.some.inj same)
      exact taskMove_of_ends rfl
        ((replied_cases config.own peerId frame).imp_right fun installs => ⟨_, installs⟩)
  case h_9 => cases moved
  all_goals
    cases moved
    exact ⟨rfl, nofun, nofun⟩

/-- Each entry of the table is a link that announced the address. -/
structure Sourced (tasks : List Task) (mesh : SpokeMesh) : Prop where
  v4 : ∀ v n, mesh.direct.get v = some n → ∃ q peer, Linked tasks n q peer ∧ peer.v4 = v
  v6 : ∀ v n, mesh.direct6.get v = some n → ∃ q peer, Linked tasks n q peer ∧ peer.v6 = v

structure Wired (config : Config) (state : State) : Prop where
  table : Sourced state.tasks state.table
  loaded : ∀ updater base, state.loaded updater = some base → Sourced state.tasks base
  apart : ∀ (n : Nat) q peer, state.tasks[n]? = some (Task.installing q peer) →
    peer.v4 ≠ config.own.v4 ∧ peer.v6 ≠ config.own.v6

theorem Sourced.mono {tasks' : List Task} {mesh : SpokeMesh} (sourced : Sourced tasks mesh)
    (linked : ∀ n q peer, Linked tasks n q peer → Linked tasks' n q peer) :
    Sourced tasks' mesh where
  v4 v n found := by
    obtain ⟨q, peer, here, same⟩ := sourced.v4 v n found
    exact ⟨q, peer, linked n q peer here, same⟩
  v6 v n found := by
    obtain ⟨q, peer, here, same⟩ := sourced.v6 v n found
    exact ⟨q, peer, linked n q peer here, same⟩

/-- The table that a store leaves has its entries from the one it has loaded,
or from the link that is being installed. -/
theorem Stores.sourced {updater : Updater} {f : SpokeMesh → SpokeMesh} {advanced : State}
    (stores : Stores config state updater f advanced) {base : SpokeMesh}
    (sourced : Sourced state.tasks base) : Sourced advanced.tasks (f base) := by
  cases stores with
  | enter | clear => exact ⟨sourced.v4, sourced.v6⟩
  | insert s e rest here =>
      have fresh : (Task.dial e).link = none := rfl
      have kept := sourced.mono fun _ _ _ => (linked_append fresh).mpr
      exact ⟨kept.v4, kept.v6⟩
  | left s e rest here =>
      exact ⟨fun v n found => sourced.v4 v n (HashMap.get_of_get_remove found).2,
        fun v n found => sourced.v6 v n (HashMap.get_of_get_remove found).2⟩
  | install n peerId peer here =>
      have kept := sourced.mono fun _ _ _ linked => (linked_install here).mpr (Or.inl linked)
      have new : Linked (state.tasks.set n (.opened peerId peer)) n peerId peer :=
        (linked_install here).mpr (Or.inr ⟨rfl, rfl, rfl⟩)
      constructor
      · intro v m found
        rcases HashMap.get_of_get_put found with ⟨rfl, rfl⟩ | ⟨_, old⟩
        · exact ⟨peerId, peer, new, rfl⟩
        · exact kept.v4 v m old
      · intro v m found
        rcases HashMap.get_of_get_put found with ⟨rfl, rfl⟩ | ⟨_, old⟩
        · exact ⟨peerId, peer, new, rfl⟩
        · exact kept.v6 v m old
  | drop n peerId peer here =>
      have kept := sourced.mono fun _ _ _ => (linked_drop here).mpr
      exact ⟨fun v m found => kept.v4 v m (HashMap.get_of_get_remove found).2,
        fun v m found => kept.v6 v m (HashMap.get_of_get_remove found).2⟩

/-- A link stays the link of its peer. -/
theorem Stores.linked {updater : Updater} {f : SpokeMesh → SpokeMesh} {advanced : State}
    (stores : Stores config state updater f advanced) (linked : Linked state.tasks n q peer) :
    Linked advanced.tasks n q peer := by
  cases stores with
  | enter | clear | left => exact linked
  | insert => exact (linked_append rfl).mpr linked
  | install n peerId peer here => exact (linked_install here).mpr (Or.inl linked)
  | drop n peerId peer here => exact (linked_drop here).mpr linked

/-- An update stores before another one has stored since its load. -/
def Current (state : State) : Event → Prop
  | .store updater => ∀ base, state.loaded updater = some base → base = state.table
  | _ => True

/-- A store makes no task install a link. -/
theorem Stores.installing {updater : Updater} {f : SpokeMesh → SpokeMesh} {advanced : State}
    (stores : Stores config state updater f advanced)
    (here : advanced.tasks[n]? = some (.installing q peer)) :
    state.tasks[n]? = some (.installing q peer) := by
  cases stores with
  | enter | clear | left => exact here
  | insert =>
      rcases task_append here with old | fresh
      · exact old
      · cases fresh
  | install | drop =>
      rcases task_set here with ⟨_, fresh⟩ | ⟨_, old⟩
      · cases fresh
      · exact old

theorem wired_start : Wired config .start where
  table := ⟨fun _ _ found => absurd found nofun, fun _ _ found => absurd found nofun⟩
  loaded _ _ found := absurd found nofun
  apart _ _ _ found := absurd found nofun

/-- A copy of the table after one updater's slot is set. -/
theorem loaded_cases {slots : Updater → Option SpokeMesh} {slot : Option SpokeMesh}
    {updater reader : Updater} {base : SpokeMesh}
    (found : Function.update slots updater slot reader = some base) :
    slot = some base ∨ slots reader = some base := by
  by_cases same : reader = updater
  · subst same
    rw [Function.update_self] at found
    exact Or.inl found
  · rw [Function.update_of_ne same] at found
    exact Or.inr found

/-- More tasks, with the same links among the old ones. -/
theorem Wired.of_tasks (wired : Wired config state)
    (linked : ∀ n q peer, Linked state.tasks n q peer → Linked tasks n q peer)
    (apart : ∀ (n : Nat) q peer, tasks[n]? = some (Task.installing q peer) →
      peer.v4 ≠ config.own.v4 ∧ peer.v6 ≠ config.own.v6) :
    Wired config { state with tasks := tasks } where
  table := wired.table.mono linked
  loaded updater base found := (wired.loaded updater base found).mono linked
  apart := apart

theorem wired_step (wired : Wired config state) (stepped : step config state event = some next) :
    Wired config next := by
  cases step_move stepped with
  | dialHub | hubAnswer | hubFailed | hubGone | take | ignored =>
      exact ⟨wired.table, wired.loaded, wired.apart⟩
  | load updater =>
      refine ⟨wired.table, fun other base found => ?_, wired.apart⟩
      rcases loaded_cases found with fresh | old
      · cases fresh
        exact wired.table
      · exact wired.loaded other base old
  | store updater f base advanced stores loaded =>
      refine ⟨stores.sourced (wired.loaded updater base loaded), fun other copy found => ?_,
        fun n q peer here => wired.apart n q peer (stores.installing here)⟩
      rcases loaded_cases found with fresh | old
      · cases fresh
      · exact (wired.loaded other copy old).mono fun _ _ _ => stores.linked
  | admitted peerId allowed =>
      refine wired.of_tasks (fun _ _ _ => (linked_append rfl).mpr) fun n q peer here => ?_
      rcases task_append here with old | fresh
      · exact wired.apart n q peer old
      · cases fresh
  | task n act before after effect here moved =>
      have move := task_move moved
      refine wired.of_tasks (fun _ _ _ => (linked_set here move.link).mpr) fun m q peer there => ?_
      rcases task_set there with ⟨_, same⟩ | ⟨_, old⟩
      · exact move.apart q peer same.symm
      · exact wired.apart m q peer old

end LinkP2p.Tun.Spoke
