import LinkP2p.Tun.SpokeMesh

/-!
# Whom a hidden spoke tells its addresses

The hidden flag goes into the HELLO to the hub and nowhere else: a dial of a
rostered peer and the answer to an inbound connection only ask for the allow list
and the order of the ids.
-/

namespace LinkP2p.Tun.Spoke

open LinkP2p.Lib LinkP2p.Lib.Transition

variable {config : Config} {state next : State} {event : Event}

/-- The spoke writes its frame to nobody but the hub. -/
def Discreet (config : Config) (state : State) (event : Event) : Prop :=
  ∀ peer, effectOf config state event = .send peer (encodeVips config.own) → peer = config.hubId

/-- The peer that the task will write its frame to. -/
def Task.addressee : Task → Option EndpointId
  | .connecting e => some e.id
  | .answering peerId => some peerId
  | _ => none

/-- Only allowed peers are dialled and answered. -/
def Vetted (config : Config) (state : State) : Prop :=
  ∀ task ∈ state.tasks, ∀ peer, task.addressee = some peer → checkAllow config peer = true

theorem addressee_arrived (own : OwnVips) (peerId : EndpointId) (peer : OwnVips) :
    (Task.arrived own peerId peer).addressee = none := by
  unfold Task.arrived
  split
  · rfl
  · rfl

theorem addressee_answered (own : OwnVips) (e : RosterEntry) (frame : List UInt8) :
    (Task.answered own e frame).addressee = none := by
  unfold Task.answered
  split
  · split
    · exact addressee_arrived _ _ _
    · rfl
  · rfl

theorem addressee_replied (own : OwnVips) (peerId : EndpointId) (frame : List UInt8) :
    (Task.replied own peerId frame).addressee = none := by
  unfold Task.replied
  split
  · exact addressee_arrived _ _ _
  · rfl

/-- A task gets an addressee only by passing the checks of a dial. -/
theorem allowed_of_taskStep {table : SpokeMesh} {task task' : Task} {act : TaskAct}
    {effect : Effect} (moved : taskStep config table task act = some (task', effect))
    {peer : EndpointId} (speaks : task'.addressee = some peer) : checkAllow config peer = true := by
  unfold taskStep at moved
  split at moved
  case h_1 e =>
      obtain ⟨rfl, rfl⟩ := Prod.mk.inj (Option.some.inj moved)
      split at speaks
      · rename_i passed
        cases speaks
        simp only [passes, Bool.and_eq_true] at passed
        exact passed.1.1.2
      · cases speaks
  case h_3 e frame =>
      obtain ⟨rfl, rfl⟩ := Prod.mk.inj (Option.some.inj moved)
      cases (addressee_answered _ _ _).symm.trans speaks
  case h_4 peerId frame =>
      split at moved
      · obtain ⟨rfl, rfl⟩ := Prod.mk.inj (Option.some.inj moved)
        cases (addressee_replied _ _ _).symm.trans speaks
      · cases moved
  case h_9 => cases moved
  all_goals
    cases moved
    cases speaks

/-- The frame of a task goes to its addressee. -/
theorem addressee_of_send {table : SpokeMesh} {task task' : Task} {act : TaskAct}
    {peer : EndpointId} {frame : List UInt8}
    (moved : taskStep config table task act = some (task', .send peer frame)) :
    task.addressee = some peer := by
  unfold taskStep at moved
  split at moved
  case h_4 =>
      split at moved
      · cases moved
        rfl
      · cases moved
  case h_2 =>
      cases moved
      rfl
  all_goals cases moved

/-- What a store adds to the tasks has no addressee. -/
theorem addressee_of_stores {updater : Updater} {f : SpokeMesh → SpokeMesh} {advanced : State}
    (stores : Stores config state updater f advanced) {task : Task}
    (member : task ∈ advanced.tasks) : task ∈ state.tasks ∨ task.addressee = none := by
  cases stores with
  | enter | clear | left => exact Or.inl member
  | insert s e rest here =>
      rcases List.mem_append.mp member with old | fresh
      · exact Or.inl old
      · cases List.mem_singleton.mp fresh
        exact Or.inr rfl
  | install | drop =>
      rcases List.mem_or_eq_of_mem_set member with old | rfl
      · exact Or.inl old
      · exact Or.inr rfl

theorem vetted_step (vetted : Vetted config state) (stepped : step config state event = some next) :
    Vetted config next := by
  intro task member peer speaks
  cases step_move stepped with
  | store updater f base advanced stores loaded =>
      rcases addressee_of_stores stores member with old | mute
      · exact vetted task old peer speaks
      · cases mute.symm.trans speaks
  | admitted peerId allowed =>
      rcases List.mem_append.mp member with old | fresh
      · exact vetted task old peer speaks
      · cases List.mem_singleton.mp fresh
        cases speaks
        exact allowed
  | task n act before after effect here moved =>
      rcases List.mem_or_eq_of_mem_set member with old | rfl
      · exact vetted task old peer speaks
      · exact allowed_of_taskStep moved speaks
  | _ => exact vetted task member peer speaks

/-- If only the hub is allowed, a vetted spoke is discreet. -/
theorem discreet_of_vetted (only : ∀ peer, checkAllow config peer = true → peer = config.hubId)
    (vetted : Vetted config state) : Discreet config state event := by
  intro peer sent
  cases event with
  | dialHub => exact (Effect.send.inj sent).1.symm
  | hubAnswer frame =>
      simp only [effectOf] at sent
      split at sent
      · exact (Effect.send.inj sent).1.symm
      · cases sent
  | task n act =>
      simp only [effectOf] at sent
      cases here : state.tasks[n]? with
      | none =>
          rw [here] at sent
          cases sent
      | some task =>
          rw [here, Option.bind_some] at sent
          cases moved : taskStep config state.table task act with
          | none =>
              rw [moved] at sent
              cases sent
          | some outcome =>
              obtain ⟨task', effect⟩ := outcome
              rw [moved] at sent
              cases sent
              exact only peer
                (vetted task (List.mem_of_getElem? here) peer (addressee_of_send moved))
  | _ => cases sent

/-- The hub is connected. -/
def joining : List Event :=
  [.dialHub, .hubAnswer (encodeVips ⟨1, 1⟩), .load .session, .store .session]

/-- The hub names the peer, and the spoke dials it. -/
def dialling (e : RosterEntry) : List Event :=
  joining ++ [.take 0 (.joined e), .load (.reader 0), .store (.reader 0), .task 0 .check]

theorem run_dialling {e : RosterEntry} (other : e.id ≠ config.ownId)
    (passed : ∀ table : SpokeMesh, table.direct = ∅ → passes config table e = true) :
    ∃ reached, run (step config) .start (dialling e) = some reached ∧
      reached.tasks = [.connecting e] := by
  obtain ⟨first, ran, sessions, idle, tasks, direct⟩ :
      ∃ first, run (step config) .start joining = some first ∧ first.sessions = 1 ∧
        first.todo 0 = [] ∧ first.tasks = [] ∧ first.table.direct = ∅ :=
    ⟨_, rfl, rfl, rfl, rfl, rfl⟩
  have todo : todoOf config.ownId (.joined e) = [.insert e] := if_neg other
  have checked : passes config (Todo.apply first.table (.insert e)) e = true := passed _ direct
  rw [dialling, run_append, ran]
  simp [run, step, closure, advance, sessions, idle, todo, tasks, taskStep, checked]

theorem ne_of_shouldDial {own peer : EndpointId} (higher : shouldDial own peer = true) :
    peer ≠ own := by
  rintro rfl
  exact BitVec.lt_irrefl _ (of_decide_eq_true higher)

/-- An entry of a higher peer, away from the spoke's own addresses, passes the checks. -/
theorem passes_of_higher {peer : EndpointId} (allowed : checkAllow config peer = true)
    (higher : shouldDial config.ownId peer = true) {table : SpokeMesh} (empty : table.direct = ∅) :
    passes config table ⟨config.own.v4 + 1, config.own.v6 + 1, peer⟩ = true := by
  have other := ne_of_shouldDial higher
  simp [passes, other, allowed, higher, empty, HashMap.containsKey]

/-- The dial writes its frame. -/
theorem dialling_sends (config : Config) {reached : State} {e : RosterEntry}
    (tasks : reached.tasks = [.connecting e]) :
    (∃ next, step config reached (.task 0 .connected) = some next) ∧
      effectOf config reached (.task 0 .connected) = .send e.id (encodeVips config.own) := by
  simp [step, effectOf, tasks, taskStep]

/-- A discreet spoke dials no peer but the hub, and answers none. -/
theorem hub_of_higher (discreet : ∀ events, AllSteps (step config) (Discreet config) .start events)
    {peer : EndpointId} (allowed : checkAllow config peer = true)
    (higher : shouldDial config.ownId peer = true) : peer = config.hubId := by
  obtain ⟨reached, ran, tasks⟩ :=
    run_dialling (e := ⟨config.own.v4 + 1, config.own.v6 + 1, peer⟩) (ne_of_shouldDial higher)
      fun _ => passes_of_higher allowed higher
  obtain ⟨⟨next, stepped⟩, sends⟩ := dialling_sends config tasks
  exact allSteps_iff_prefix.mp (discreet (dialling _ ++ [.task 0 .connected])) (dialling _)
    (.task 0 .connected) [] reached next rfl ran stepped peer sends

theorem hub_of_lower (discreet : ∀ events, AllSteps (step config) (Discreet config) .start events)
    {peer : EndpointId} (allowed : checkAllow config peer = true)
    (lower : shouldDial config.ownId peer = false) : peer = config.hubId := by
  have accepted : step config .start (.accept .tun peer) =
      some { State.start with tasks := [.answering peer] } := by
    simp [step, allowed, lower, State.start]
  have met := allSteps_iff_prefix.mp
    (discreet [.accept .tun peer, .task 0 (.heard (List.replicate 24 0))])
    [.accept .tun peer] (.task 0 (.heard (List.replicate 24 0))) [] _ _ rfl
    (by rw [run_cons, accepted]; rfl) rfl
  exact met peer rfl

/-- **A spoke told to hide.** Hidden or not, a spoke writes its frame in every run
to nobody but the hub exactly when its allow list admits nobody but the hub. -/
theorem hidden_spoke_discreet_iff (config : Config) :
    (∀ events, AllSteps (step config) (Discreet config) .start events) ↔
      ∀ peer, checkAllow config peer = true → peer = config.hubId := by
  constructor
  · intro discreet peer allowed
    cases higher : shouldDial config.ownId peer with
    | true => exact hub_of_higher discreet allowed higher
    | false => exact hub_of_lower discreet allowed higher
  · intro only events
    have all : AllStates (step config) (Vetted config) .start events :=
      allStates_of_invariant (fun _ _ _ => vetted_step)
        (fun _ member => absurd member List.not_mem_nil) events
    exact all.allSteps fun _ _ => discreet_of_vetted only

/-- A hidden spoke with id 1, whose hub has id 9, and which allows everybody. -/
def hiddenConfig : Config := ⟨1, ⟨0xAC180001, 1⟩, 9, true, none⟩

/-- It dials a peer that the hub names, and answers one that dials it. -/
theorem hidden_spoke_tells :
    hiddenConfig.hidden = true ∧
      ¬ AllSteps (step hiddenConfig) (Discreet hiddenConfig) .start
        (dialling ⟨0xAC180002, 2, 2⟩ ++ [.task 0 .connected]) ∧
      ¬ AllSteps (step hiddenConfig) (Discreet hiddenConfig) .start
        [.accept .tun 0, .task 0 (.heard (encodeVips ⟨0xAC180003, 3⟩))] := by
  refine ⟨rfl, fun discreet => ?_, fun discreet => ?_⟩
  · have met := allSteps_iff_prefix.mp discreet (dialling ⟨0xAC180002, 2, 2⟩)
      (.task 0 .connected) [] _ _ rfl rfl rfl
    exact absurd (met 2 rfl) (by decide)
  · have met := allSteps_iff_prefix.mp discreet [.accept .tun 0]
      (.task 0 (.heard (encodeVips ⟨0xAC180003, 3⟩))) [] _ _ rfl rfl rfl
    exact absurd (met 0 rfl) (by decide)

end LinkP2p.Tun.Spoke
