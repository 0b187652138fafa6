import LinkP2p.Tun.PhoneDaemon

/-!
# The phase of the phone daemon

Tasks that have changed the map, the ring list or the dials write the phase
afterwards. Some write the phase that their own event leads to, some read the
lists first and write later; none of them knows what the others are about to do.
-/

namespace LinkP2p.Tun.Phone

open LinkP2p.Lib LinkP2p.Lib.Transition

variable {config : PhoneConfig} {daemon next : Daemon}

/-- A dial is in flight. -/
def Daemon.dialing (daemon : Daemon) : Bool :=
  daemon.dials.anyValue fun task => task.stage = .connecting

/-- The phase that the map, the rings and the dials call for. -/
def Daemon.duePhase (daemon : Daemon) : SessionPhase :=
  if daemon.active then .connected
  else if daemon.ringing ≠ [] then .ringing
  else if daemon.dialing then .dialing
  else .idle

/-! ## Updates that are still to run -/

/-- The loop is on its way to an update, or has left one to a session that it spawns. -/
def MainLoop.due : MainLoop → Bool
  | .pushing _ _ | .ringPhase | .publishing (.answer _) | .publishing .reconcile | .spawning _
  | .dialPhase _ | .reconciling _ => true
  | _ => false

def DialStage.due : DialStage → Bool
  | .connecting => false
  | .reconciling _ => true

/-- A session that is not yet up will write the phase whether it gets up or fails. -/
def CallStage.due : CallStage → Bool
  | .running _ => false
  | _ => true

inductive Task where
  | main
  | dial (i : Nat)
  | call (i : Nat)
  deriving DecidableEq, Repr

def dueAt (daemon : Daemon) : Task → Bool
  | .main => daemon.main.due
  | .dial i => (daemon.dials.get i).any fun task => task.stage.due
  | .call i => (daemon.calls.get i).any fun task => task.stage.due

/-- No update of the phase is still to run. -/
def Settled (daemon : Daemon) : Prop := ∀ task, dueAt daemon task = false

def Reconcile.update : Reconcile → Option PhaseEvent
  | .connected => some .connected
  | .ring => some .ring
  | .peerLeft => some .peerLeft
  | _ => none

def MainLoop.update : MainLoop → Option PhaseEvent
  | .ringPhase => some .ring
  | .dialPhase _ => some .beginDial
  | .reconciling at_ => at_.update
  | _ => none

def DialStage.update : DialStage → Option PhaseEvent
  | .connecting => none
  | .reconciling at_ => at_.update

def CallStage.update : CallStage → Option PhaseEvent
  | .announcing _ => some .connected
  | .reconciling at_ => at_.update
  | _ => none

def DaemonEvent.task : DaemonEvent → Task
  | .main _ => .main
  | .dial i _ => .dial i
  | .call i _ => .call i

/-- The phase event that a task applies with its next step. -/
def updateOf (daemon : Daemon) : Task → Option PhaseEvent
  | .main => daemon.main.update
  | .dial i => (daemon.dials.get i).bind fun task => task.stage.update
  | .call i => (daemon.calls.get i).bind fun task => task.stage.update

/-! ## What is to hold and what it takes -/

/-- With no update still to run, the phase is the one that the lists call for. -/
def Tracks (daemon : Daemon) : Prop := Settled daemon → daemon.phase = daemon.duePhase

/-- The step needs no refused transition, and leaves `Connected` only without active peers. -/
def Orderly (config : PhoneConfig) (daemon : Daemon) (event : DaemonEvent) : Prop :=
  (∀ update, updateOf daemon event.task = some update →
    ∃ phase, daemon.phase.transition update = .ok phase) ∧
  ∀ next, daemonStep config daemon event = some next →
    daemon.phase = .connected → next.phase ≠ .connected → next.active = false

/-- The lists call for the phase that the update leads to. -/
def Fits (daemon : Daemon) : PhaseEvent → Prop
  | .beginDial => daemon.active = false ∧ daemon.ringing = []
  | .ring => daemon.active = false ∧ daemon.ringing ≠ []
  | .connected => daemon.active = true
  | .peerLeft => daemon.active = false ∧ daemon.ringing = [] ∧ daemon.dialing = false
  | .ready | .reset => False

/-- A dial does not begin while the phase is `Dialing` or `Ringing`; no other update comes
while `Connected` with an active peer; and the last update still to run finds the lists as it
supposes them. -/
def Timely (daemon : Daemon) (event : DaemonEvent) : Prop :=
  ∀ update, updateOf daemon event.task = some update →
    (update = .beginDial → daemon.phase ≠ .dialing ∧ daemon.phase ≠ .ringing) ∧
    (daemon.phase = .connected → daemon.active = true → update = .connected) ∧
    ((∀ task, task ≠ event.task → dueAt daemon task = false) → Fits daemon update)

/-! ## What each step does to the phase and to the updates -/

/-- Tasks are numbered in the order they appear, and the daemon is past `Ready`. -/
structure Started (daemon : Daemon) : Prop where
  phase : daemon.phase ≠ .starting
  dials : ∀ i, daemon.nextTask ≤ i → daemon.dials.get i = none
  calls : ∀ i, daemon.nextTask ≤ i → daemon.calls.get i = none

/-- Nothing that the phase depends on changes. -/
structure Rests (daemon next : Daemon) : Prop where
  active : next.active = daemon.active
  ringing : next.ringing = daemon.ringing
  dialing : next.dialing = daemon.dialing
  due : ∀ task, dueAt next task = dueAt daemon task

/-- The task applies its update and has no other to run. -/
structure Pays (daemon next : Daemon) (task : Task) (update : PhaseEvent) : Prop where
  phase : next.phase = daemon.phase.apply update
  active : next.active = daemon.active
  ringing : next.ringing = daemon.ringing
  dialing : next.dialing = (update == .beginDial || daemon.dialing)
  due : ∀ other, dueAt next other = if other = task then false else dueAt daemon other

/-- The effect leaves all that the phase depends on. -/
def Effect.rests (effect : Effect) : Prop :=
  effect = .silent ∨ effect = .arrive ∨ effect = .publishPending

/-- The updates that do more than the phase event are not among these. -/
def PhaseEvent.plain (event : PhaseEvent) : Prop :=
  event = .ring ∨ event = .connected ∨ event = .peerLeft

/-- A step of a task that is due, or not, after it: it goes on owing an update, leaves one
to a new session, or applies its own. -/
inductive TaskMove (after : Bool) (update : Option PhaseEvent) : Effect → Prop where
  | busy {effect : Effect} (due : after = true) (none : update = none)
      (quiet : ∀ daemon, (effect.apply daemon).phase = daemon.phase) : TaskMove after update effect
  | spawns {peer : EndpointId} {conn : Connection} {dialer : Bool} (none : update = none) :
      TaskMove after update (.spawn peer conn dialer)
  | pays {event : PhaseEvent} (paid : after = false) (applies : update = some event)
      (plain : event.plain) : TaskMove after update (.applyPhase event)

/-- A task that reconciles goes on with it or applies what it has found. -/
theorem reconcileStep_task (daemon : Daemon) (at_ : Reconcile) {after : Bool}
    (goes : after = (reconcileStep daemon at_).1.isSome) :
    TaskMove after at_.update (reconcileStep daemon at_).2 := by
  cases at_ with
  | peers | rings => exact .busy goes rfl fun _ => rfl
  | connected => exact .pays goes rfl (.inr (.inl rfl))
  | ring => exact .pays goes rfl (.inl rfl)
  | peerLeft => exact .pays goes rfl (.inr (.inr rfl))

/-- The loop moves as every task does, begins a dial, or leaves everything. -/
theorem MainMove.task {main after : MainLoop} {event : MainEvent} {effect : Effect}
    (move : MainMove config daemon main event after effect) :
    TaskMove after.due main.update effect ∨
      (∃ peer, after.due = false ∧ main.update = some .beginDial ∧ effect = .beginDial peer) ∨
      (main.due = after.due ∧ main.update = none ∧ effect.rests) := by
  cases move with
  | incoming | failed | ignored | accept | reject | tick | ticked =>
      exact .inr (.inr ⟨rfl, rfl, .inl rfl⟩)
  | refused => exact .inr (.inr ⟨rfl, rfl, .inr (.inl rfl)⟩)
  | known | spawn => exact .inl (.spawns rfl)
  | stranger | push | dial | accepted | rejected | timedOut =>
      exact .inl (.busy rfl rfl fun _ => rfl)
  | ringPhase => exact .inl (.pays rfl rfl (.inl rfl))
  | @dialPhase peer => exact .inr (.inl ⟨peer, rfl, rfl, rfl⟩)
  | missed asks => rcases asks with rfl | rfl <;> exact .inr (.inr ⟨rfl, rfl, .inl rfl⟩)
  | @publish after =>
      cases after with
      | select => exact .inr (.inr ⟨rfl, rfl, .inr (.inr rfl)⟩)
      | answer | reconcile => exact .inl (.busy rfl rfl fun _ => rfl)
  | @reconcile at_ =>
      refine .inl (reconcileStep_task daemon at_ ?_)
      cases (reconcileStep daemon at_).1 <;> rfl

theorem dialStep_task {peer : EndpointId} {stage : DialStage} {after : Option DialStage}
    {event : DialEvent} {effect : Effect}
    (moved : dialStep daemon peer stage event = some (after, effect)) :
    TaskMove (after.any DialStage.due) stage.update effect := by
  cases stage with
  | connecting =>
      cases event <;> cases moved
      · exact .spawns rfl
      · exact .busy rfl rfl fun _ => rfl
  | reconciling at_ =>
      cases event <;> simp only [dialStep, reduceCtorEq, Option.some.injEq, Prod.mk.injEq] at moved
      obtain ⟨rfl, rfl⟩ := moved
      refine reconcileStep_task daemon at_ ?_
      cases (reconcileStep daemon at_).1 <;> rfl

theorem callStep_task {i : Nat} {peer : EndpointId} {stage : CallStage}
    {after : Option CallStage} {event : CallEvent} {effect : Effect}
    (moved : callStep config daemon i peer stage event = some (after, effect)) :
    TaskMove (after.any CallStage.due) stage.update effect := by
  cases stage with
  | exchanging =>
      cases event with
      | exchanged vips =>
          simp only [callStep] at moved
          split at moved
          · cases moved
            exact .busy rfl rfl fun _ => rfl
          · cases moved
            refine .busy ?_ rfl fun _ => rfl
            simp only [Option.any_some]
            split <;> rfl
      | exchangeFailed =>
          cases moved
          exact .busy rfl rfl fun _ => rfl
      | _ => cases moved
  | routing entry =>
      cases event <;> simp only [callStep, reduceCtorEq] at moved
      split at moved <;> cases moved <;> exact .busy rfl rfl fun _ => rfl
  | announcing entry =>
      cases event <;> cases moved
      exact .pays rfl rfl (.inr (.inl rfl))
  | running entry =>
      cases event <;> cases moved
      exact .busy rfl rfl fun _ => rfl
  | reconciling at_ =>
      cases event <;> simp only [callStep, reduceCtorEq, Option.some.injEq, Prod.mk.injEq] at moved
      obtain ⟨rfl, rfl⟩ := moved
      refine reconcileStep_task daemon at_ ?_
      cases (reconcileStep daemon at_).1 <;> rfl

/-- A dial that applies its update is not in flight and ends. -/
theorem dialStep_paid {peer : EndpointId} {stage : DialStage} {after : Option DialStage}
    {event : DialEvent} {effect : Effect} {update : PhaseEvent}
    (moved : dialStep daemon peer stage event = some (after, effect))
    (applies : stage.update = some update) : stage ≠ .connecting ∧ after = none := by
  cases stage with
  | connecting => cases applies
  | reconciling at_ =>
      refine ⟨DialStage.noConfusion, ?_⟩
      cases event <;> cases moved
      cases at_ <;> first | rfl | cases applies

theorem get_setDial_of_ne {i j : Nat} (other : j ≠ i) (daemon : Daemon) (task : Dial)
    (stage : Option DialStage) :
    (daemon.setDial i task stage).dials.get j = daemon.dials.get j := by
  cases stage with
  | none => exact HashMap.get_remove_of_ne other _
  | some stage => exact HashMap.get_put_of_ne other _ _

theorem get_setCall_of_ne {i j : Nat} (other : j ≠ i) (daemon : Daemon) (task : Call)
    (stage : Option CallStage) :
    (daemon.setCall i task stage).calls.get j = daemon.calls.get j := by
  cases stage with
  | none => exact HashMap.get_remove_of_ne other _
  | some stage => exact HashMap.get_put_of_ne other _ _

theorem dueAt_setDial (daemon : Daemon) (i : Nat) (task : Dial) (stage : Option DialStage)
    (other : Task) :
    dueAt (daemon.setDial i task stage) other =
      if other = .dial i then stage.any DialStage.due else dueAt daemon other := by
  cases other with
  | main | call j => rfl
  | dial j =>
      unfold dueAt
      by_cases same : j = i
      · subst same
        cases stage <;> simp [Daemon.setDial]
      · simp only [if_neg fun equal => same (Task.dial.inj equal), get_setDial_of_ne same]

theorem dueAt_setCall (daemon : Daemon) (i : Nat) (task : Call) (stage : Option CallStage)
    (other : Task) :
    dueAt (daemon.setCall i task stage) other =
      if other = .call i then stage.any CallStage.due else dueAt daemon other := by
  cases other with
  | main | dial j => rfl
  | call j =>
      unfold dueAt
      by_cases same : j = i
      · subst same
        cases stage <;> simp [Daemon.setCall]
      · simp only [if_neg fun equal => same (Task.call.inj equal), get_setCall_of_ne same]

/-- A session that has just been spawned owes an update. -/
theorem dueAt_spawn (daemon : Daemon) (peer : EndpointId) (conn : Connection) (dialer : Bool) :
    dueAt ((Effect.spawn peer conn dialer).apply daemon) (.call daemon.nextTask) = true := by
  simp only [dueAt, Effect.apply, HashMap.get_put_self, Option.any_some]
  rfl

theorem dialing_remove {i : Nat} {task : Dial} (found : daemon.dials.get i = some task)
    (landed : task.stage ≠ .connecting) :
    (daemon.setDial i task none).dialing = daemon.dialing := by
  rw [Bool.eq_iff_iff]
  unfold Daemon.dialing Daemon.setDial
  rw [HashMap.anyValue_eq_true, HashMap.anyValue_eq_true]
  constructor
  · rintro ⟨j, other, present, flies⟩
    exact ⟨j, other, (HashMap.get_of_get_remove present).2, flies⟩
  · rintro ⟨j, other, present, flies⟩
    refine ⟨j, other, ?_, flies⟩
    change (daemon.dials.remove i).get j = some other
    rw [HashMap.get_remove_of_ne, present]
    rintro rfl
    cases found.symm.trans present
    exact landed (of_decide_eq_true flies)

theorem plain_ne_beginDial {event : PhaseEvent} (plain : event.plain) :
    (event == .beginDial) = false := by
  rcases plain with rfl | rfl | rfl <;> rfl

theorem Effect.rests.same {effect : Effect} (rests : effect.rests) (daemon : Daemon) :
    (effect.apply daemon).phase = daemon.phase ∧ Rests daemon (effect.apply daemon) := by
  rcases rests with rfl | rfl | rfl <;>
    exact ⟨rfl, rfl, rfl, rfl, fun task => by cases task <;> rfl⟩

theorem beginDial_pays (started : Started daemon) {peer : EndpointId} {main : MainLoop}
    (paid : main.due = false) :
    Pays daemon { (Effect.beginDial peer).apply daemon with main := main } .main .beginDial where
  phase := rfl
  active := rfl
  ringing := rfl
  dialing := HashMap.anyValue_eq_true.mpr
    ⟨daemon.nextTask, ⟨peer, .connecting⟩, HashMap.get_put_self _ _ _, rfl⟩
  due := by
    intro other
    cases other with
    | main => exact paid
    | call i => rfl
    | dial i =>
        rw [if_neg Task.noConfusion]
        change ((daemon.dials.put daemon.nextTask ⟨peer, .connecting⟩).get i).any _ =
          (daemon.dials.get i).any _
        by_cases new : i = daemon.nextTask
        · rw [new, HashMap.get_put_self, started.dials _ (Nat.le_refl _)]
          rfl
        · rw [HashMap.get_put_of_ne new]

/-- A step applies its update; or it leaves the phase, and either some update is still to
run or nothing has changed. -/
def Advances (daemon next : Daemon) (task : Task) : Prop :=
  (updateOf daemon task = none ∧ next.phase = daemon.phase ∧
    ((∃ task, dueAt next task = true) ∨ Rests daemon next)) ∨
  ∃ update, updateOf daemon task = some update ∧ (update.plain ∨ update = .beginDial) ∧
    Pays daemon next task update

theorem main_advances {event : MainEvent} (started : Started daemon)
    (stepped : daemonStep config daemon (.main event) = some next) :
    Advances daemon next .main := by
  obtain ⟨main, effect, moved, rfl⟩ := main_cases stepped
  rcases (mainStep_move moved).task with move | ⟨peer, paid, applies, rfl⟩ | ⟨same, none, rests⟩
  · cases move with
    | busy due none quiet => exact .inl ⟨none, quiet daemon, .inl ⟨.main, due⟩⟩
    | spawns none => exact .inl ⟨none, rfl, .inl ⟨.call daemon.nextTask, dueAt_spawn ..⟩⟩
    | @pays update paid applies plain =>
        refine .inr ⟨update, applies, .inl plain, rfl, rfl, rfl, ?_, fun other => ?_⟩
        · rw [plain_ne_beginDial plain]
          rfl
        · cases other with
          | main => exact paid
          | dial | call => rfl
  · exact .inr ⟨.beginDial, applies, .inr rfl, beginDial_pays started paid⟩
  · obtain ⟨phase, kept⟩ := rests.same daemon
    refine .inl ⟨none, phase, .inr ⟨kept.active, kept.ringing, kept.dialing, fun task => ?_⟩⟩
    cases task with
    | main => exact same.symm
    | dial i => exact kept.due (.dial i)
    | call i => exact kept.due (.call i)

theorem dial_advances {i : Nat} {event : DialEvent}
    (stepped : daemonStep config daemon (.dial i event) = some next) :
    Advances daemon next (.dial i) := by
  obtain ⟨task, stage, effect, found, moved, rfl⟩ := dial_cases stepped
  have update : updateOf daemon (.dial i) = task.stage.update := by
    simp only [updateOf, found, Option.bind_some]
  rw [Advances, update]
  cases dialStep_task moved with
  | busy due none quiet =>
      refine .inl ⟨none, quiet daemon, .inl ⟨.dial i, ?_⟩⟩
      rw [dueAt_setDial, if_pos rfl, due]
  | spawns none =>
      refine .inl ⟨none, rfl, .inl ⟨.call daemon.nextTask, ?_⟩⟩
      rw [dueAt_setDial, if_neg Task.noConfusion, dueAt_spawn]
  | @pays update paid applies plain =>
      obtain ⟨landed, rfl⟩ := dialStep_paid moved applies
      refine .inr ⟨update, applies, .inl plain, rfl, rfl, rfl, ?_, fun other => ?_⟩
      · rw [plain_ne_beginDial plain, Bool.false_or]
        exact dialing_remove found landed
      · rw [dueAt_setDial]
        cases other <;> rfl

theorem call_advances {i : Nat} {event : CallEvent} (started : Started daemon)
    (stepped : daemonStep config daemon (.call i event) = some next) :
    Advances daemon next (.call i) := by
  obtain ⟨task, stage, effect, found, moved, rfl⟩ := call_cases stepped
  have update : updateOf daemon (.call i) = task.stage.update := by
    simp only [updateOf, found, Option.bind_some]
  rw [Advances, update]
  cases callStep_task moved with
  | busy due none quiet =>
      refine .inl ⟨none, quiet daemon, .inl ⟨.call i, ?_⟩⟩
      rw [dueAt_setCall, if_pos rfl, due]
  | @spawns peer conn dialer none =>
      refine .inl ⟨none, rfl, .inl ⟨.call daemon.nextTask, ?_⟩⟩
      have old : Task.call daemon.nextTask ≠ .call i := by
        rintro same
        rw [← Task.call.inj same, started.calls _ (Nat.le_refl _)] at found
        cases found
      rw [dueAt_setCall, if_neg old, dueAt_spawn]
  | @pays update paid applies plain =>
      refine .inr ⟨update, applies, .inl plain, rfl, rfl, rfl, ?_, fun other => ?_⟩
      · rw [plain_ne_beginDial plain]
        rfl
      · rw [dueAt_setCall, paid]
        cases other <;> rfl

theorem step_advances {event : DaemonEvent} (started : Started daemon)
    (stepped : daemonStep config daemon event = some next) :
    Advances daemon next event.task := by
  cases event with
  | main event => exact main_advances started stepped
  | dial i event => exact dial_advances stepped
  | call i event => exact call_advances started stepped

/-! ## Exactly when the phase is right -/

theorem transition_ok_iff {phase : SessionPhase} (started : phase ≠ .starting)
    {update : PhaseEvent} (kind : update.plain ∨ update = .beginDial) :
    (∃ next, phase.transition update = .ok next) ↔
      (update = .beginDial → phase ≠ .dialing ∧ phase ≠ .ringing) := by
  rcases kind with (rfl | rfl | rfl) | rfl <;> cases phase <;>
    simp_all [SessionPhase.transition]

/-- Where an accepted update leads. -/
theorem apply_eq_connected_iff {phase : SessionPhase} (started : phase ≠ .starting)
    {update : PhaseEvent} (kind : update.plain ∨ update = .beginDial)
    (accepted : update = .beginDial → phase ≠ .dialing ∧ phase ≠ .ringing) :
    phase.apply update = .connected ↔ update = .connected := by
  rcases kind with (rfl | rfl | rfl) | rfl <;> cases phase <;>
    simp_all [SessionPhase.apply, SessionPhase.transition]

/-- An accepted update leads to the due phase exactly when it fits the lists. -/
theorem Pays.due_iff {task : Task} {update : PhaseEvent} (pays : Pays daemon next task update)
    (started : Started daemon) (kind : update.plain ∨ update = .beginDial)
    (accepted : update = .beginDial → daemon.phase ≠ .dialing ∧ daemon.phase ≠ .ringing) :
    next.phase = next.duePhase ↔ Fits daemon update := by
  have started := started.phase
  rw [pays.phase, Daemon.duePhase, pays.active, pays.ringing, pays.dialing]
  rcases kind with (rfl | rfl | rfl) | rfl <;> cases place : daemon.phase <;>
    cases active : daemon.active <;> cases dialing : daemon.dialing <;>
    by_cases rings : daemon.ringing = [] <;>
    simp_all [SessionPhase.apply, SessionPhase.transition, Fits]

theorem Rests.duePhase (rests : Rests daemon next) : next.duePhase = daemon.duePhase := by
  rw [Daemon.duePhase, Daemon.duePhase, rests.active, rests.ringing, rests.dialing]

theorem tracks_step_iff {event : DaemonEvent} (started : Started daemon) (tracks : Tracks daemon)
    (stepped : daemonStep config daemon event = some next) :
    Tracks next ∧ Orderly config daemon event ↔ Timely daemon event := by
  rcases step_advances started stepped with ⟨none, phase, quiet⟩ | ⟨update, applies, kind, pays⟩
  · have idle : ∀ update, updateOf daemon event.task ≠ some update := by
      intro update applies
      cases none.symm.trans applies
    refine ⟨fun _ update applies => absurd applies (idle update), fun _ => ⟨fun settled => ?_,
      fun update applies => absurd applies (idle update), fun other stepped' connected left => ?_⟩⟩
    · rcases quiet with ⟨task, due⟩ | rests
      · cases due.symm.trans (settled task)
      · rw [phase, rests.duePhase]
        exact tracks fun task => (rests.due task).symm.trans (settled task)
    · cases stepped.symm.trans stepped'
      exact absurd (phase.trans connected) left
  · constructor
    · rintro ⟨tracks', accepts, keeps⟩ update' applies'
      cases applies.symm.trans applies'
      have accepted := (transition_ok_iff started.phase kind).mp (accepts update applies)
      refine ⟨accepted, fun connected active => ?_, fun alone => ?_⟩
      · by_contra other
        have left : next.phase ≠ .connected := by
          rw [pays.phase, Ne, apply_eq_connected_iff started.phase kind accepted]
          exact other
        cases active.symm.trans (pays.active.symm.trans (keeps next stepped connected left))
      · refine (pays.due_iff started kind accepted).mp (tracks' fun task => ?_)
        rw [pays.due]
        split
        · rfl
        · exact alone task ‹_›
    · intro timely
      obtain ⟨accepted, keeps, fits⟩ := timely update applies
      refine ⟨fun settled => (pays.due_iff started kind accepted).mpr (fits fun task other => ?_),
        fun update' applies' => ?_, fun other stepped' connected left => ?_⟩
      · have paid := settled task
        rwa [pays.due, if_neg other] at paid
      · cases applies.symm.trans applies'
        exact (transition_ok_iff started.phase kind).mpr accepted
      · cases stepped.symm.trans stepped'
        rw [pays.active]
        refine Bool.eq_false_iff.mpr fun active => left ?_
        rw [pays.phase, apply_eq_connected_iff started.phase kind accepted]
        exact keeps connected active

/-! ## Over runs -/

theorem started_start : Started .start where
  phase := SessionPhase.noConfusion
  dials := fun _ _ => HashMap.get_empty _
  calls := fun _ _ => HashMap.get_empty _

theorem apply_ne_starting {phase : SessionPhase} (started : phase ≠ .starting)
    {update : PhaseEvent} (kind : update.plain ∨ update = .beginDial) :
    phase.apply update ≠ .starting := by
  rcases kind with (rfl | rfl | rfl) | rfl <;> cases phase <;>
    simp_all [SessionPhase.apply, SessionPhase.transition]

/-- An effect uses up the numbers of the tasks that it spawns. -/
theorem apply_fresh (started : Started daemon) (effect : Effect) :
    daemon.nextTask ≤ (effect.apply daemon).nextTask ∧
      ∀ i, (effect.apply daemon).nextTask ≤ i →
        (effect.apply daemon).dials.get i = none ∧ (effect.apply daemon).calls.get i = none := by
  cases effect with
  | beginDial peer =>
      refine ⟨Nat.le_succ _, fun i bound => ⟨?_, started.calls i (Nat.le_of_succ_le bound)⟩⟩
      change (daemon.dials.put daemon.nextTask _).get i = none
      rw [HashMap.get_put_of_ne (Nat.ne_of_gt bound)]
      exact started.dials i (Nat.le_of_succ_le bound)
  | spawn peer conn dialer =>
      refine ⟨Nat.le_succ _, fun i bound => ⟨started.dials i (Nat.le_of_succ_le bound), ?_⟩⟩
      change (daemon.calls.put daemon.nextTask _).get i = none
      rw [HashMap.get_put_of_ne (Nat.ne_of_gt bound)]
      exact started.calls i (Nat.le_of_succ_le bound)
  | _ => exact ⟨Nat.le_refl _, fun i bound => ⟨started.dials i bound, started.calls i bound⟩⟩

theorem started_step {event : DaemonEvent} (started : Started daemon)
    (stepped : daemonStep config daemon event = some next) : Started next := by
  have phase : next.phase ≠ .starting := by
    rcases step_advances started stepped with ⟨-, phase, -⟩ | ⟨update, -, kind, pays⟩
    · rw [phase]
      exact started.phase
    · rw [pays.phase]
      exact apply_ne_starting started.phase kind
  cases event with
  | main event =>
      obtain ⟨main, effect, -, rfl⟩ := main_cases stepped
      obtain ⟨-, fresh⟩ := apply_fresh started effect
      exact ⟨phase, fun i bound => (fresh i bound).1, fun i bound => (fresh i bound).2⟩
  | dial i event =>
      obtain ⟨task, stage, effect, found, -, rfl⟩ := dial_cases stepped
      obtain ⟨grows, fresh⟩ := apply_fresh started effect
      refine ⟨phase, fun j bound => ?_, fun j bound => (fresh j bound).2⟩
      have old : j ≠ i := by
        rintro rfl
        rw [started.dials j (Nat.le_trans grows bound)] at found
        cases found
      exact (get_setDial_of_ne old ..).trans (fresh j bound).1
  | call i event =>
      obtain ⟨task, stage, effect, found, -, rfl⟩ := call_cases stepped
      obtain ⟨grows, fresh⟩ := apply_fresh started effect
      refine ⟨phase, fun j bound => (fresh j bound).1, fun j bound => ?_⟩
      have old : j ≠ i := by
        rintro rfl
        rw [started.calls j (Nat.le_trans grows bound)] at found
        cases found
      exact (get_setCall_of_ne old ..).trans (fresh j bound).2

theorem tracks_start : Tracks .start := fun _ => rfl

/-- **The phase over whole runs.** After `Ready`, over every interleaving of rings, dials,
accepts, rejects, timeouts and sessions: the phase is the due one whenever no update is
still to run, stays `Connected` while a peer is active and needs no refused transition,
exactly when every update is timely. -/
theorem phone_phase_iff (config : PhoneConfig) (events : List DaemonEvent) :
    AllStates (daemonStep config) Tracks .start events ∧
        AllSteps (daemonStep config) (Orderly config) .start events ↔
      AllSteps (daemonStep config) Timely .start events :=
  allStates_and_allSteps_iff (fun _ _ _ => started_step)
    (fun _ _ _ started tracks stepped => tracks_step_iff started tracks stepped)
    started_start tracks_start events

/-- Two dials in flight, of which the first fails. -/
def twoDials : List DaemonEvent :=
  [.main (.dial "2"), .main .next, .main (.dial "3"), .main .next,
    .dial 0 .failed, .dial 0 .next, .dial 0 .next, .dial 0 .next]

theorem settled_of_values (main : daemon.main.due = false)
    (dials : (daemon.dials.anyValue fun task => task.stage.due) = false)
    (calls : (daemon.calls.anyValue fun task => task.stage.due) = false) : Settled daemon := by
  intro task
  refine Bool.eq_false_iff.mpr fun due => ?_
  cases task with
  | main => cases main.symm.trans due
  | dial i =>
      obtain ⟨task, found, due⟩ := (Option.any_eq_true _ _).mp due
      cases dials.symm.trans (HashMap.anyValue_eq_true.mpr ⟨i, task, found, due⟩)
  | call i =>
      obtain ⟨task, found, due⟩ := (Option.any_eq_true _ _).mp due
      cases calls.symm.trans (HashMap.anyValue_eq_true.mpr ⟨i, task, found, due⟩)

/-- The dial that failed has set the phase to idle with the other one in flight. -/
theorem failed_dial_hides_other :
    ¬ ∀ (config : PhoneConfig) (events : List DaemonEvent),
      AllStates (daemonStep config) Tracks .start events ∧
        AllSteps (daemonStep config) (Orderly config) .start events := by
  intro right
  let config : PhoneConfig :=
    ⟨0, ⟨0xAC180001, 0xfd24ac18000000000000000000000001⟩, none, fun _ => false,
      fun token => if token = "2" then some 2 else some 3, fun _ _ => false, fun _ => true⟩
  have ends : (run (daemonStep config) .start twoDials).map (fun daemon =>
      (daemon.phase, daemon.duePhase, daemon.main.due,
        daemon.dials.anyValue fun task => task.stage.due,
        daemon.calls.anyValue fun task => task.stage.due)) =
      some (.idle, .dialing, false, false, false) := by decide +kernel
  obtain ⟨daemon, ran, values⟩ := Option.map_eq_some_iff.mp ends
  simp only [Prod.mk.injEq] at values
  obtain ⟨idle, dialing, main, dials, calls⟩ := values
  have tracks : Tracks daemon := (right config _).1.final ran
  cases idle.symm.trans ((tracks (settled_of_values main dials calls)).trans dialing)

end LinkP2p.Tun.Phone
