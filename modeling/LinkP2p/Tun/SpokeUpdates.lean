import LinkP2p.Lib.LoadStore
import LinkP2p.Tun.SpokeMesh

/-!
# Lost updates of a spoke's table

`mesh_update` loads the table, lets its closure work on a copy and stores the
copy without looking at the table again. What another task has stored in between
survives only where the closure itself writes.
-/

namespace LinkP2p.Tun.Spoke

open LinkP2p.Lib LinkP2p.Lib.LoadStore LinkP2p.Lib.Transition

/-- The parts of the table that a closure writes. -/
structure Footprint where
  hub : Bool
  ids : List EndpointId
  vips : List Ipv4Addr
  vips6 : List Ipv6Addr

/-- What the closure of an updater writes. -/
def footprint (config : Config) (state : State) : Updater → Footprint
  | .session =>
      match state.session with
      | .entering _ => ⟨true, [config.hubId], [], []⟩
      | _ => ⟨true, [], [], []⟩
  | .reader s =>
      match state.todo s with
      | .insert e :: _ => ⟨false, [e.id], [], []⟩
      | .left e :: _ => ⟨false, [e.id], [e.vip], [e.vip6]⟩
      | [] => ⟨false, [], [], []⟩
  | .task n =>
      match state.tasks[n]? with
      | some (.installing peerId peer) => ⟨false, [peerId], [peer.v4], [peer.v6]⟩
      | some (.closing _ peer) => ⟨false, [], [peer.v4], [peer.v6]⟩
      | _ => ⟨false, [], [], []⟩

/-- The tables differ at most in the parts of the footprint. -/
structure SameOutside (written : Footprint) (mesh mesh' : SpokeMesh) : Prop where
  hub : written.hub = false →
    mesh.hubVip = mesh'.hubVip ∧ mesh.hubVip6 = mesh'.hubVip6 ∧ mesh.hubOut = mesh'.hubOut
  roster : ∀ id, id ∉ written.ids → mesh.roster.get id = mesh'.roster.get id
  direct : ∀ vip, vip ∉ written.vips → mesh.direct.get vip = mesh'.direct.get vip
  direct6 : ∀ vip, vip ∉ written.vips6 → mesh.direct6.get vip = mesh'.direct6.get vip

/-- When an update stores, nothing outside what it writes has changed since it loaded. -/
def Undisturbed (config : Config) (state : State) (event : Event) : Prop :=
  ∀ updater base, event = .store updater → state.loaded updater = some base →
    SameOutside (footprint config state updater) base state.table

variable {config : Config} {state next : State}

theorem sameOutside_iff {written : Footprint} {mesh mesh' : SpokeMesh} :
    SameOutside written mesh mesh' ↔
      (written.hub = false →
        mesh.hubVip = mesh'.hubVip ∧ mesh.hubVip6 = mesh'.hubVip6 ∧ mesh.hubOut = mesh'.hubOut) ∧
      (∀ vip, vip ∉ written.vips → mesh.direct.get vip = mesh'.direct.get vip) ∧
      (∀ vip, vip ∉ written.vips6 → mesh.direct6.get vip = mesh'.direct6.get vip) ∧
      ∀ id, id ∉ written.ids → mesh.roster.get id = mesh'.roster.get id :=
  ⟨fun same => ⟨same.hub, same.direct, same.direct6, same.roster⟩,
    fun ⟨hub, direct, direct6, roster⟩ => ⟨hub, roster, direct, direct6⟩⟩

/-- A closure has one result on two tables exactly when they agree on all it does not write. -/
theorem Stores.same_iff {updater : Updater} {f : SpokeMesh → SpokeMesh} {advanced : State}
    (stores : Stores config state updater f advanced) (mesh mesh' : SpokeMesh) :
    f mesh = f mesh' ↔ SameOutside (footprint config state updater) mesh mesh' := by
  rw [sameOutside_iff]
  obtain ⟨hubVip, hubVip6, hubOut, direct, direct6, roster⟩ := mesh
  obtain ⟨hubVip', hubVip6', hubOut', direct', direct6', roster'⟩ := mesh'
  cases stores with
  | enter hub here =>
      simp [footprint, here, SpokeMesh.enter, HashMap.put_inj_iff, ← HashMap.ext_get_iff]
  | clear here =>
      simp [footprint, here, SpokeMesh.clearHub, ← HashMap.ext_get_iff]
  | insert s e rest here =>
      simp [footprint, here, Todo.apply, HashMap.put_inj_iff, ← HashMap.ext_get_iff, and_assoc]
  | left s e rest here =>
      simp [footprint, here, Todo.apply, HashMap.remove_inj_iff, and_assoc]
  | install n peerId peer here =>
      simp [footprint, here, SpokeMesh.install, HashMap.put_inj_iff, and_assoc]
  | drop n peerId peer here =>
      simp [footprint, here, SpokeMesh.drop, HashMap.remove_inj_iff, ← HashMap.ext_get_iff,
        and_assoc]

/-- `mesh_update` on the table of the spoke. -/
def meshSystem (config : Config) : LoadStore.System State Event SpokeMesh where
  step := step config
  cell := State.table
  stores state event :=
    match event with
    | .store updater =>
        (closure config state updater).bind fun f =>
          (state.loaded updater).map fun base => (f, base)
    | _ => none
  storing := by
    intro state event next f base stores stepped
    cases event with
    | store updater =>
        obtain ⟨g, found, loaded⟩ := Option.bind_eq_some_iff.mp stores
        obtain ⟨value, loaded, same⟩ := Option.map_eq_some_iff.mp loaded
        cases same
        simp only [step, found, loaded, Option.bind_some, Option.map_some] at stepped
        cases stepped
        rfl
    | _ => cases stores
  frame := by
    intro state event next stores stepped
    cases event with
    | store updater =>
        obtain ⟨f, found, stepped⟩ := Option.bind_eq_some_iff.mp stepped
        obtain ⟨base, loaded, -⟩ := Option.map_eq_some_iff.mp stepped
        simp only [found, loaded, Option.bind_some, Option.map_some, reduceCtorEq] at stores
    | _ =>
        cases step_move stepped
        all_goals rfl

theorem undisturbed_iff {event : Event} (stepped : step config state event = some next) :
    (meshSystem config).Undisturbed state event ↔ Undisturbed config state event := by
  cases event with
  | store updater =>
      obtain ⟨f, found, stepped⟩ := Option.bind_eq_some_iff.mp stepped
      obtain ⟨base, loaded, -⟩ := Option.map_eq_some_iff.mp stepped
      have same := (stores_of_closure found).same_iff base state.table
      constructor
      · intro undisturbed updater' base' here loaded'
        cases here
        cases loaded.symm.trans loaded'
        refine same.mp (undisturbed f base ?_)
        simp only [meshSystem, found, loaded, Option.bind_some, Option.map_some]
      · intro undisturbed g base' stores
        simp only [meshSystem, found, loaded, Option.bind_some, Option.map_some] at stores
        cases stores
        exact same.mpr (undisturbed updater base rfl loaded)
  | _ =>
      constructor
      · intro _ updater base here
        cases here
      · intro _ f base stores
        cases stores

/-- The table is what the stored updates make of it, in the order of their
stores, exactly when no store is disturbed; and then it is what they make of it
one after the other. -/
theorem mesh_updates_serial_iff (config : Config) (state : State) (events : List Event) :
    ((meshSystem config).InOrder state events ↔
      AllSteps (step config) (Undisturbed config) state events) ∧
    (AllSteps (step config) (Undisturbed config) state events →
      ∀ final, run (step config) state events = some final →
        ∃ order, order.Perm ((meshSystem config).updates state events) ∧
          final.table = applyAll order state.table) := by
  have conditions : AllSteps (step config) (meshSystem config).Undisturbed state events ↔
      AllSteps (step config) (Undisturbed config) state events :=
    ⟨.mono fun _ _ _ stepped => (undisturbed_iff stepped).mp,
      .mono fun _ _ _ stepped => (undisturbed_iff stepped).mpr⟩
  refine ⟨inOrder_iff.trans conditions, fun undisturbed final ran => ?_⟩
  exact serial (conditions.mpr undisturbed) ran

/-- A reader enters a spoke of the roster while an accepted link is entered; the
second store takes the first one back. -/
theorem mesh_update_lost :
    ¬ ∀ (config : Config) (events : List Event) (final : State),
      run (step config) State.start events = some final →
        ∃ order, order.Perm ((meshSystem config).updates State.start events) ∧
          final.table = applyAll order State.start.table := by
  intro serial
  let hub : OwnVips := ⟨0xAC180009, 9⟩
  let entry : RosterEntry := ⟨0xAC180007, 7, 7⟩
  let peer : OwnVips := ⟨0xAC180003, 3⟩
  let config : Config := ⟨5, ⟨0xAC180005, 5⟩, 9, false, none⟩
  let events : List Event :=
    [.dialHub, .hubAnswer (encodeVips hub), .load .session, .store .session,
      .take 0 (.snapshot [entry]), .accept .tun 3, .task 0 (.heard (encodeVips peer)),
      .load (.reader 0), .load (.task 0), .store (.reader 0), .store (.task 0)]
  have lost : (run (step config) State.start events).map (fun final =>
      final.table.roster.get 7) = some none := by decide +kernel
  have hubRead : decodeVips (encodeVips hub) = some hub := by decide +kernel
  have width : (encodeVips peer).length = 24 := by decide +kernel
  have replied :
      Task.replied ⟨0xAC180005#32, 5#128⟩ 3#256 (encodeVips peer) = .installing 3 peer := by
    decide +kernel
  have updates : (meshSystem config).updates State.start events =
      [.enter 9 hub 0, fun mesh => Todo.apply mesh (.insert entry), .install 0 3 peer] := by
    simp [LoadStore.System.updates, meshSystem, step, closure, State.start, events, advance,
      config, hubRead, width, replied, todoOf, checkAllow, shouldDial, taskStep, entry]
  have known : ∀ order, order.Perm ((meshSystem config).updates State.start events) →
      (applyAll order State.start.table).roster.get 7 ≠ none := by
    intro order perm
    rw [updates] at perm
    refine applyAll_establishes (P := fun mesh => mesh.roster.get 7 ≠ none) ?_
      ⟨_, perm.mem_iff.mpr (.tail _ (.head _)), fun mesh => ?_⟩ _
    · intro f member mesh present
      have kept : ∀ (id : EndpointId) (vips : OwnVips),
          (mesh.roster.put id vips).get 7 ≠ none := by
        intro id vips
        rw [HashMap.get_put]
        split
        · exact Option.some_ne_none _
        · exact present
      rcases List.mem_cons.mp (perm.mem_iff.mp member) with rfl | member
      · exact kept _ _
      · rcases List.mem_pair.mp member with rfl | rfl
        · exact kept _ _
        · exact kept _ _
    · change (mesh.roster.put 7 _).get 7 ≠ none
      rw [HashMap.get_put_self]
      exact Option.some_ne_none _
  obtain ⟨final, ran, missing⟩ := Option.map_eq_some_iff.mp lost
  obtain ⟨order, perm, same⟩ := serial config events final ran
  exact known order perm (same ▸ missing)

end LinkP2p.Tun.Spoke
