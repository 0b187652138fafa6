import LinkP2p.Daemon.Probe

/-!
# What a probe does to a live daemon

A live daemon holds the lock and listens. A client threatens a file once it has
taken the daemon for dead; the invariant keeps live daemons and such clients
apart, which is as much as the timeouts of the handshake allow.
-/

namespace LinkP2p.Daemon.Liveness

open LinkP2p.Lib LinkP2p.Lib.Transition

/-- The daemon holds the lock and its control socket is bound. -/
def Live (state : State) (number : Nat) : Prop :=
  state.lock = some number ∧
    ∃ daemon, state.daemons.get number = some daemon ∧ daemon.stage.listens = true

/-- No other process harms a live daemon or takes it for dead. -/
structure Spares (state : State) (event : Event) : Prop where
  sock : ∀ number, Live state number → effectOf state event = .unlinkSock →
    state.sock ≠ some number
  pidFile : ∀ number, Live state number → effectOf state event = .removePid →
    ∀ pidRec, state.pidFile ≠ some (number, pidRec)
  /-- `probe` answers `NotRunning`. -/
  notRunning : ∀ i caller, event = .client i .next →
    state.clients.get i = some (.unlinking caller) → ∀ number, ¬ Live state number
  /-- `cmd_down` reports the daemon stopped. -/
  stopped : ∀ i asked, event = .client i .next →
    state.clients.get i = some (.stopped asked) → state.lock ≠ some asked

/-- A handshake fails only after the daemon has gone, and no daemon comes up
while a probe cleans up after an older one. -/
def Timely (state : State) : Event → Prop
  | .client i (.handshake outcome) => ∀ client, state.clients.get i = some client →
      (outcome = .failed → (∀ number, ¬ Live state number) ∧
        ∀ asked, client.asked = some asked → state.lock ≠ some asked) ∧
      (outcome.isStatus = false → (∃ pidRec reached, client = .waiting .cleanup pidRec reached) →
        ∀ number, ¬ Live state number)
  | .daemon _ .bind => ∀ i client, state.clients.get i = some client →
      client.threatensSock = false
  | .daemon _ (.pidWritten _) => ∀ i client, state.clients.get i = some client →
      client.threatensPid = false
  | _ => True

structure Sound (state : State) : Prop where
  holder : ∀ number daemon, state.daemons.get number = some daemon →
    daemon.stage.holds = true → state.lock = some number
  writer : ∀ number pidRec, state.pidFile = some (number, pidRec) →
    ∃ daemon, state.daemons.get number = some daemon ∧ daemon.stage.published = true
  sock : ∀ i client, state.clients.get i = some client → client.threatensSock = true →
    ∀ number daemon, state.daemons.get number = some daemon → daemon.stage.listens = false
  pidFile : ∀ i client, state.clients.get i = some client → client.threatensPid = true →
    ∀ number daemon, state.daemons.get number = some daemon → daemon.stage ≠ .serving
  asked : ∀ i client number, state.clients.get i = some client → client.asked = some number →
    ∃ daemon, state.daemons.get number = some daemon ∧ daemon.stage ≠ .starting
  ended : ∀ i client number, state.clients.get i = some client → client.ended = some number →
    state.lock ≠ some number

theorem sound_start : Sound .start where
  holder _ _ found := absurd found nofun
  writer _ _ written := absurd written nofun
  sock _ _ found := absurd found nofun
  pidFile _ _ found := absurd found nofun
  asked _ _ _ found := absurd found nofun
  ended _ _ _ found := absurd found nofun

theorem Worker.holds_of_listens {stage : Worker} (listens : stage.listens = true) :
    stage.holds = true := by
  cases stage with
  | bound | serving => rfl
  | _ => cases listens

/-- With no live daemon no worker listens. -/
theorem Sound.deaf {state : State} (sound : Sound state) (none : ∀ number, ¬ Live state number)
    {number : Nat} {daemon : Process} (found : state.daemons.get number = some daemon) :
    daemon.stage.listens = false := by
  cases listens : daemon.stage.listens with
  | false => rfl
  | true =>
      have held := sound.holder number daemon found (Worker.holds_of_listens listens)
      exact absurd ⟨held, daemon, found, listens⟩ (none number)

@[simp]
theorem Process.goto_stage (daemon : Process) (stage : Worker) :
    (daemon.goto stage).stage = stage := rfl

/-- The worker that moves holds the lock afterwards if its stage says so. -/
theorem WorkerMove.holder {state : State} {number : Nat} {before after : Worker} {act : WorkerAct}
    {effect : Effect} (moved : WorkerMove state number before act after effect)
    (holder : before.holds = true → state.lock = some number) (holds : after.holds = true) :
    (effect.apply state).lock = some number := by
  cases moved with
  | locks free => rfl
  | leaves released => cases holds
  | goesOn held _ _ _ tidy =>
      rcases tidy with rfl | ⟨_, rfl | rfl⟩
      all_goals exact holder held
  | binds free => exact holder rfl
  | publishes pidRec startedUnixMs => exact holder rfl

/-- The lock of another worker stays. -/
theorem WorkerMove.lock_other {state : State} {number other : Nat} {before after : Worker}
    {act : WorkerAct} {effect : Effect} (moved : WorkerMove state number before act after effect)
    (distinct : other ≠ number) (locked : state.lock = some other) :
    (effect.apply state).lock = some other := by
  cases moved with
  | locks free => cases free.symm.trans locked
  | leaves released =>
      rcases released with rfl | ⟨_, rfl⟩
      · have kept : state.lock ≠ some number := by
          rw [locked]
          exact fun same => distinct (Option.some.inj same)
        exact (if_neg kept).trans locked
      · exact locked
  | goesOn _ _ _ _ tidy =>
      rcases tidy with rfl | ⟨_, rfl | rfl⟩
      all_goals exact locked
  | binds free => exact locked
  | publishes pidRec startedUnixMs => exact locked

/-- Only a worker that starts takes the lock. -/
theorem WorkerMove.lock_fresh {state : State} {number other : Nat} {before after : Worker}
    {act : WorkerAct} {effect : Effect} (moved : WorkerMove state number before act after effect)
    (started : other = number → before ≠ .starting) (unlocked : state.lock ≠ some other) :
    (effect.apply state).lock ≠ some other := by
  cases moved with
  | locks free => exact fun same => started (Option.some.inj same).symm rfl
  | leaves released =>
      rcases released with rfl | ⟨_, rfl⟩
      · change (if state.lock = some number then none else state.lock) ≠ some other
        split
        · exact nofun
        · exact unlocked
      · exact unlocked
  | goesOn _ _ _ _ tidy =>
      rcases tidy with rfl | ⟨_, rfl | rfl⟩
      all_goals exact unlocked
  | binds free => exact unlocked
  | publishes pidRec startedUnixMs => exact unlocked

/-- A client leaves the lock alone and writes no pid file. -/
theorem ClientMove.files {state : State} {before after : Client} {act : ClientAct}
    {effect : Effect} (moved : ClientMove state before act after effect) :
    (effect.apply state).lock = state.lock ∧
      ((effect.apply state).pidFile = state.pidFile ∨ (effect.apply state).pidFile = none) := by
  cases moved with
  | goesOn _ _ _ _ tidy =>
      rcases tidy with rfl | ⟨_, rfl⟩ | ⟨_, rfl⟩
      · exact ⟨rfl, Or.inl rfl⟩
      · exact ⟨rfl, Or.inl rfl⟩
      · exact ⟨rfl, Or.inr rfl⟩
  | requests | fails | confuses => exact ⟨rfl, Or.inl rfl⟩

theorem holder_step {state next : State} {event : Event} (sound : Sound state)
    (moved : Move state event next) {number : Nat} {daemon : Process}
    (found : next.daemons.get number = some daemon) (holds : daemon.stage.holds = true) :
    next.lock = some number := by
  cases moved with
  | spawn fresh =>
      rcases HashMap.get_of_get_put found with ⟨_, rfl⟩ | ⟨_, found⟩
      · cases holds
      · exact sound.holder number daemon found holds
  | daemon here moved =>
      rcases HashMap.get_of_get_put found with ⟨rfl, rfl⟩ | ⟨distinct, found⟩
      · exact moved.holder (sound.holder number _ here) holds
      · exact moved.lock_other distinct (sound.holder number daemon found holds)
  | command => exact sound.holder number daemon found holds
  | client here moved =>
      rw [Effect.apply_daemons] at found
      exact moved.files.1.trans (sound.holder number daemon found holds)

/-- The pid file of another worker, or of this one if it stays published. -/
theorem WorkerMove.writer {state : State} {number writer : Nat} {before after : Worker}
    {act : WorkerAct} {effect : Effect} (moved : WorkerMove state number before act after effect)
    {pidRec : PidRecord} (written : (effect.apply state).pidFile = some (writer, pidRec)) :
    (writer = number ∧ after.published = true) ∨ state.pidFile = some (writer, pidRec) := by
  cases moved with
  | locks free => exact Or.inr written
  | leaves released =>
      rcases released with rfl | ⟨_, rfl⟩
      · exact Or.inr written
      · exact Or.inr written
  | goesOn _ _ _ _ tidy =>
      rcases tidy with rfl | ⟨_, rfl | rfl⟩
      · exact Or.inr written
      · exact Or.inr written
      · cases written
  | binds free => exact Or.inr written
  | publishes =>
      cases written
      exact Or.inl ⟨rfl, rfl⟩

/-- A published worker stays published. -/
theorem WorkerMove.published {state : State} {number : Nat} {before after : Worker}
    {act : WorkerAct} {effect : Effect} (moved : WorkerMove state number before act after effect)
    (published : before.published = true) : after.published = true := by
  cases moved with
  | locks | binds => cases published
  | leaves | publishes => rfl
  | goesOn _ _ _ kept _ => exact kept published

theorem writer_step {state next : State} {event : Event} (sound : Sound state)
    (moved : Move state event next) {number : Nat} {pidRec : PidRecord}
    (written : next.pidFile = some (number, pidRec)) :
    ∃ daemon, next.daemons.get number = some daemon ∧ daemon.stage.published = true := by
  cases moved with
  | @spawn fresh _ _ unused =>
      obtain ⟨daemon, found, published⟩ := sound.writer number pidRec written
      have distinct : number ≠ fresh := by
        rintro rfl
        cases unused.symm.trans found
      exact ⟨daemon, (HashMap.get_put_of_ne distinct _ _).trans found, published⟩
  | @daemon mover _ _ _ _ here moved =>
      by_cases same : number = mover
      · subst same
        refine ⟨_, HashMap.get_put_self _ _ _, ?_⟩
        rcases moved.writer written with ⟨_, published⟩ | before
        · exact published
        · obtain ⟨daemon, found, published⟩ := sound.writer number pidRec before
          cases here.symm.trans found
          exact moved.published published
      · rcases moved.writer written with ⟨rfl, _⟩ | before
        · exact absurd rfl same
        · obtain ⟨daemon, found, published⟩ := sound.writer number pidRec before
          exact ⟨daemon, (HashMap.get_put_of_ne same _ _).trans found, published⟩
  | command => exact sound.writer number pidRec written
  | client here moved =>
      rw [Effect.apply_daemons]
      obtain ⟨_, kept | removed⟩ := moved.files
      · exact sound.writer number pidRec (kept.symm.trans written)
      · cases removed.symm.trans written

/-- A worker that listens after its step did so before, or has just bound. -/
theorem WorkerMove.listens {state : State} {number : Nat} {before after : Worker}
    {act : WorkerAct} {effect : Effect} (moved : WorkerMove state number before act after effect)
    (listens : after.listens = true) : act = .bind ∨ before.listens = true := by
  cases moved with
  | locks | leaves => cases listens
  | goesOn _ _ deaf _ _ => cases listens.symm.trans deaf
  | binds => exact Or.inl rfl
  | publishes => exact Or.inr rfl

theorem WorkerMove.serves {state : State} {number : Nat} {before after : Worker}
    {act : WorkerAct} {effect : Effect} (moved : WorkerMove state number before act after effect)
    (serves : after = .serving) : ∃ startedUnixMs, act = .pidWritten startedUnixMs := by
  subst serves
  cases moved with
  | goesOn _ _ deaf _ _ => cases deaf
  | publishes _ startedUnixMs => exact ⟨startedUnixMs, rfl⟩

/-- A client that threatens the files after its step did so before, or gives up
while no daemon is live. -/
theorem ClientMove.threatens {state : State} {i : Nat} {before after : Client} {act : ClientAct}
    {effect : Effect} (moved : ClientMove state before act after effect)
    (found : state.clients.get i = some before) (timely : Timely state (.client i act)) :
    ((after.threatensSock = true → before.threatensSock = true) ∧
      (after.threatensPid = true → before.threatensPid = true)) ∨
    ∀ number, ¬ Live state number := by
  cases moved with
  | goesOn sock pid _ _ _ => exact Or.inl ⟨sock, pid⟩
  | requests => exact Or.inl ⟨nofun, nofun⟩
  | fails asked => exact Or.inr ((timely before found).1 rfl).1
  | confuses status => exact Or.inr ((timely _ found).2 status ⟨_, _, rfl⟩)

theorem sock_step {state next : State} {event : Event} (sound : Sound state)
    (timely : Timely state event) (moved : Move state event next) {i number : Nat}
    {client : Client} {daemon : Process} (waits : next.clients.get i = some client)
    (threat : client.threatensSock = true) (found : next.daemons.get number = some daemon) :
    daemon.stage.listens = false := by
  cases moved with
  | spawn fresh =>
      rcases HashMap.get_of_get_put found with ⟨_, rfl⟩ | ⟨_, found⟩
      · rfl
      · exact sound.sock i client waits threat number daemon found
  | daemon here moved =>
      rw [Effect.apply_clients] at waits
      rcases HashMap.get_of_get_put found with ⟨rfl, rfl⟩ | ⟨_, found⟩
      · refine Bool.eq_false_iff.mpr fun listens => ?_
        rcases moved.listens listens with rfl | before
        · cases threat.symm.trans (timely i client waits)
        · cases before.symm.trans (sound.sock i client waits threat number _ here)
      · exact sound.sock i client waits threat number daemon found
  | command =>
      rcases HashMap.get_of_get_put waits with ⟨_, rfl⟩ | ⟨_, waits⟩
      · cases threat
      · exact sound.sock i client waits threat number daemon found
  | client here moved =>
      rw [Effect.apply_daemons] at found
      rcases HashMap.get_of_get_put waits with ⟨rfl, rfl⟩ | ⟨_, waits⟩
      · rcases moved.threatens here timely with ⟨earlier, _⟩ | none
        · exact sound.sock i _ here (earlier threat) number daemon found
        · exact sound.deaf none found
      · exact sound.sock i client waits threat number daemon found

theorem pidFile_step {state next : State} {event : Event} (sound : Sound state)
    (timely : Timely state event) (moved : Move state event next) {i number : Nat}
    {client : Client} {daemon : Process} (waits : next.clients.get i = some client)
    (threat : client.threatensPid = true) (found : next.daemons.get number = some daemon) :
    daemon.stage ≠ .serving := by
  cases moved with
  | spawn fresh =>
      rcases HashMap.get_of_get_put found with ⟨_, rfl⟩ | ⟨_, found⟩
      · exact nofun
      · exact sound.pidFile i client waits threat number daemon found
  | daemon here moved =>
      rw [Effect.apply_clients] at waits
      rcases HashMap.get_of_get_put found with ⟨rfl, rfl⟩ | ⟨_, found⟩
      · intro serves
        obtain ⟨startedUnixMs, rfl⟩ := moved.serves serves
        cases threat.symm.trans (timely i client waits)
      · exact sound.pidFile i client waits threat number daemon found
  | command =>
      rcases HashMap.get_of_get_put waits with ⟨_, rfl⟩ | ⟨_, waits⟩
      · cases threat
      · exact sound.pidFile i client waits threat number daemon found
  | client here moved =>
      rw [Effect.apply_daemons] at found
      rcases HashMap.get_of_get_put waits with ⟨rfl, rfl⟩ | ⟨_, waits⟩
      · rcases moved.threatens here timely with ⟨_, earlier⟩ | none
        · exact sound.pidFile i _ here (earlier threat) number daemon found
        · intro serves
          have deaf := sound.deaf none found
          rw [serves] at deaf
          cases deaf
      · exact sound.pidFile i client waits threat number daemon found

theorem WorkerMove.started {state : State} {number : Nat} {before after : Worker}
    {act : WorkerAct} {effect : Effect} (moved : WorkerMove state number before act after effect) :
    after ≠ .starting := by
  cases moved with
  | goesOn _ holds _ _ _ =>
      rintro rfl
      cases holds
  | _ => exact nofun

theorem State.starts_of_listening {state : State} {number : Nat}
    (listens : state.listening = some number) :
    ∃ daemon, state.daemons.get number = some daemon ∧ daemon.stage ≠ .starting := by
  obtain ⟨_, reached⟩ := Option.filter_eq_some_iff.mp listens
  obtain ⟨daemon, found, opened⟩ := (Option.any_eq_true _ _).mp reached
  refine ⟨daemon, found, ?_⟩
  intro starts
  rw [starts] at opened
  cases opened

/-- A daemon that has started stays in the table and does not start again. -/
theorem started_step {state next : State} {event : Event} (moved : Move state event next)
    {number : Nat}
    (started : ∃ daemon, state.daemons.get number = some daemon ∧ daemon.stage ≠ .starting) :
    ∃ daemon, next.daemons.get number = some daemon ∧ daemon.stage ≠ .starting := by
  obtain ⟨daemon, found, started⟩ := started
  cases moved with
  | @spawn fresh _ _ unused =>
      have distinct : number ≠ fresh := by
        rintro rfl
        cases unused.symm.trans found
      exact ⟨daemon, (HashMap.get_put_of_ne distinct _ _).trans found, started⟩
  | @daemon mover _ _ _ _ here moved =>
      by_cases same : number = mover
      · subst same
        exact ⟨_, HashMap.get_put_self _ _ _, moved.started⟩
      · exact ⟨daemon, (HashMap.get_put_of_ne same _ _).trans found, started⟩
  | command => exact ⟨daemon, found, started⟩
  | client =>
      rw [Effect.apply_daemons]
      exact ⟨daemon, found, started⟩

theorem asked_step {state next : State} {event : Event} (sound : Sound state)
    (moved : Move state event next) {i number : Nat} {client : Client}
    (waits : next.clients.get i = some client) (asked : client.asked = some number) :
    ∃ daemon, next.daemons.get number = some daemon ∧ daemon.stage ≠ .starting := by
  refine started_step moved ?_
  cases moved with
  | spawn => exact sound.asked i client number waits asked
  | daemon =>
      rw [Effect.apply_clients] at waits
      exact sound.asked i client number waits asked
  | command fresh outer =>
      rcases HashMap.get_of_get_put waits with ⟨_, rfl⟩ | ⟨_, waits⟩
      · cases outer.symm.trans asked
      · exact sound.asked i client number waits asked
  | client here moved =>
      rcases HashMap.get_of_get_put waits with ⟨rfl, rfl⟩ | ⟨_, waits⟩
      · cases moved with
        | goesOn _ _ earlier _ _ => exact sound.asked i _ number here (earlier number asked)
        | requests listens =>
            cases asked
            exact State.starts_of_listening listens
        | fails same => exact sound.asked i _ number here (same.trans asked)
        | confuses => cases asked
      · exact sound.asked i client number waits asked

theorem Client.asked_of_ended {client : Client} {number : Nat}
    (ended : client.ended = some number) : client.asked = some number := by
  cases client with
  | dead | unlinking | removingPid | stopped => exact ended
  | _ => cases ended

theorem ended_step {state next : State} {event : Event} (sound : Sound state)
    (timely : Timely state event) (moved : Move state event next) {i number : Nat}
    {client : Client} (waits : next.clients.get i = some client)
    (ended : client.ended = some number) : next.lock ≠ some number := by
  cases moved with
  | spawn => exact sound.ended i client number waits ended
  | daemon here moved =>
      rw [Effect.apply_clients] at waits
      refine moved.lock_fresh ?_ (sound.ended i client number waits ended)
      rintro rfl
      obtain ⟨daemon, found, started⟩ :=
        sound.asked i client number waits (Client.asked_of_ended ended)
      cases here.symm.trans found
      exact started
  | command =>
      rcases HashMap.get_of_get_put waits with ⟨_, rfl⟩ | ⟨_, waits⟩
      · cases ended
      · exact sound.ended i client number waits ended
  | client here moved =>
      rw [moved.files.1]
      rcases HashMap.get_of_get_put waits with ⟨rfl, rfl⟩ | ⟨_, waits⟩
      · cases moved with
        | goesOn _ _ _ earlier _ => exact sound.ended i _ number here (earlier number ended)
        | requests | confuses => cases ended
        | fails same => exact ((timely _ here).1 rfl).2 number (same.trans ended)
      · exact sound.ended i client number waits ended

theorem sound_step {state next : State} {event : Event} (sound : Sound state)
    (timely : Timely state event) (moved : Move state event next) : Sound next where
  holder _ _ found holds := holder_step sound moved found holds
  writer _ _ written := writer_step sound moved written
  sock _ _ waits threat _ _ found := sock_step sound timely moved waits threat found
  pidFile _ _ waits threat _ _ found := pidFile_step sound timely moved waits threat found
  asked _ _ _ waits asked := asked_step sound moved waits asked
  ended _ _ _ waits ended := ended_step sound timely moved waits ended

/-- A worker clears files only while it holds the lock and does not listen. -/
theorem WorkerMove.spares {state : State} {number live : Nat} {daemon : Process} {after : Worker}
    {act : WorkerAct} {effect : Effect} (sound : Sound state)
    (here : state.daemons.get number = some daemon)
    (moved : WorkerMove state number daemon.stage act after effect)
    (clears : effect = .unlinkSock ∨ effect = .removePid) : ¬ Live state live := by
  rintro ⟨locked, found, present, listens⟩
  obtain ⟨held, deaf⟩ : daemon.stage.holds = true ∧ daemon.stage.listens = false := by
    generalize daemon.stage = stage at moved
    cases moved with
    | goesOn held _ _ _ tidy =>
        rcases tidy with rfl | ⟨deaf, _⟩
        · rcases clears with cleared | cleared <;> cases cleared
        · exact ⟨held, deaf⟩
    | leaves released =>
        rcases released with rfl | ⟨_, rfl⟩
        all_goals rcases clears with cleared | cleared <;> cases cleared
    | _ => rcases clears with cleared | cleared <;> cases cleared
  have same := Option.some.inj (locked.symm.trans (sound.holder number daemon here held))
  subst same
  cases here.symm.trans present
  cases listens.symm.trans deaf

/-- A client that clears a file is one that threatens it. -/
theorem ClientMove.clears {state : State} {before after : Client} {act : ClientAct}
    {effect : Effect} (moved : ClientMove state before act after effect) :
    (effect = .unlinkSock → before.threatensSock = true) ∧
      (effect = .removePid → before.threatensPid = true) := by
  cases moved with
  | goesOn _ _ _ _ tidy =>
      rcases tidy with rfl | ⟨threat, rfl⟩ | ⟨threat, rfl⟩
      · exact ⟨nofun, nofun⟩
      · exact ⟨fun _ => threat, nofun⟩
      · exact ⟨nofun, fun _ => threat⟩
  | requests | fails | confuses => exact ⟨nofun, nofun⟩

/-- A live daemon whose pid file is written is serving. -/
theorem Sound.serves {state : State} (sound : Sound state) {number : Nat} {pidRec : PidRecord}
    (live : Live state number) (written : state.pidFile = some (number, pidRec)) :
    ∃ daemon, state.daemons.get number = some daemon ∧ daemon.stage = .serving := by
  obtain ⟨_, daemon, found, listens⟩ := live
  obtain ⟨writer, here, published⟩ := sound.writer number pidRec written
  cases here.symm.trans found
  refine ⟨daemon, found, ?_⟩
  cases stage : daemon.stage with
  | serving => rfl
  | bound => cases stage ▸ published
  | _ => cases stage ▸ listens

theorem spares_of_sound {state next : State} {event : Event} (sound : Sound state)
    (moved : Move state event next) : Spares state event where
  sock number live clears bound := by
    cases moved with
    | spawn | command => cases clears
    | daemon here moved wrought =>
        exact moved.spares sound here (Or.inl (wrought.symm.trans clears)) live
    | client here moved wrought =>
        have threat := moved.clears.1 (wrought.symm.trans clears)
        obtain ⟨_, daemon, found, listens⟩ := live
        cases listens.symm.trans (sound.sock _ _ here threat number daemon found)
  pidFile number live clears pidRec written := by
    cases moved with
    | spawn | command => cases clears
    | daemon here moved wrought =>
        exact moved.spares sound here (Or.inr (wrought.symm.trans clears)) live
    | client here moved wrought =>
        have threat := moved.clears.2 (wrought.symm.trans clears)
        obtain ⟨daemon, found, serves⟩ := sound.serves live written
        exact sound.pidFile _ _ here threat number daemon found serves
  notRunning i caller named waits number live := by
    obtain ⟨_, daemon, found, listens⟩ := live
    cases listens.symm.trans (sound.sock i _ waits rfl number daemon found)
  stopped i asked named waits := sound.ended i _ asked waits rfl

/-- **Probing spares a live daemon.** In a run in which every failed handshake
comes after the daemon has gone (for `cmd_down`: after it has released its lock)
and no daemon comes up beside a probe that still has leftovers to remove, no
process removes the socket or the pid file of a live daemon, `probe` answers
`NotRunning` only without one, and `cmd_down` reports a daemon stopped only after
it has released its lock. -/
theorem probing_spares_live (events : List Event)
    (timely : AllSteps step Timely .start events) :
    AllSteps step Spares .start events := by
  refine (AllSteps.exchange (I := Sound) ?_ sound_start timely).2
  intro state event next sound timely stepped
  have moved := step_move stepped
  exact ⟨sound_step sound timely moved, spares_of_sound sound moved⟩

/-- A daemon comes up and is stopped with `tun down`. -/
def orderlyDown : List Event :=
  [.spawn 0 77 "s", .daemon 0 .lock, .daemon 0 .look, .daemon 0 .bind, .daemon 0 (.pidWritten 5),
    .command 0 .down, .client 0 .next, .client 0 .connect,
    .client 0 (.handshake (.replied (.status "hub" 1 0 0 "direct" "s" []))), .client 0 .connect,
    .client 0 .shutdownSent, .daemon 0 .closed, .daemon 0 .joined, .daemon 0 .next,
    .daemon 0 .next, .daemon 0 .next, .client 0 .next, .client 0 (.handshake .failed),
    .client 0 .next, .client 0 .next, .client 0 .next, .client 0 .next]

theorem orderly_down_spares :
    AllSteps step Spares .start orderlyDown ∧ ∃ final, run step .start orderlyDown = some final ∧
      final.lock = none ∧ final.clients.get 0 = some (.returned .stopped) := by
  have alone : ∀ (i : Nat) (client : Client), (∅ : HashMap Nat Client).get i = some client →
      client.threatensSock = false ∧ client.threatensPid = false :=
    fun _ _ found => absurd found nofun
  refine ⟨probing_spares_live _ ?_, _, rfl, rfl, rfl⟩
  apply AllSteps.cons rfl trivial
  apply AllSteps.cons rfl trivial
  apply AllSteps.cons rfl trivial
  apply AllSteps.cons rfl fun i client found => (alone i client found).1
  apply AllSteps.cons rfl fun i client found => (alone i client found).2
  apply AllSteps.cons rfl trivial
  apply AllSteps.cons rfl trivial
  apply AllSteps.cons rfl trivial
  apply AllSteps.cons rfl fun client _ => ⟨nofun, nofun⟩
  apply AllSteps.cons rfl trivial
  apply AllSteps.cons rfl trivial
  apply AllSteps.cons rfl trivial
  apply AllSteps.cons rfl trivial
  apply AllSteps.cons rfl trivial
  apply AllSteps.cons rfl trivial
  apply AllSteps.cons rfl trivial
  apply AllSteps.cons rfl trivial
  -- the lock is free by now
  apply AllSteps.cons rfl fun client _ =>
    ⟨fun _ => ⟨fun _ live => absurd live.1 nofun, fun _ _ => nofun⟩,
      fun _ _ _ live => absurd live.1 nofun⟩
  apply AllSteps.cons rfl trivial
  apply AllSteps.cons rfl trivial
  apply AllSteps.cons rfl trivial
  apply AllSteps.cons rfl trivial
  trivial

/-- A `tun status` gives up on the answer of a daemon that serves. -/
def slowStatus : List Event :=
  [.spawn 0 77 "s", .daemon 0 .lock, .daemon 0 .look, .daemon 0 .bind, .daemon 0 (.pidWritten 5),
    .command 0 .status, .client 0 .next, .client 0 .connect, .client 0 (.handshake .failed),
    .client 0 (.checked true)]

/-- A `tun down` whose daemon has closed its listener but not ended its data plane. -/
def earlyDown : List Event :=
  [.spawn 0 77 "s", .daemon 0 .lock, .daemon 0 .look, .daemon 0 .bind, .daemon 0 (.pidWritten 5),
    .command 0 .down, .client 0 .next, .client 0 .connect,
    .client 0 (.handshake (.replied (.status "hub" 1 0 0 "direct" "s" []))), .client 0 .connect,
    .client 0 .shutdownSent, .daemon 0 .closed, .client 0 .next, .client 0 (.handshake .failed),
    .client 0 (.checked true), .client 0 .next, .client 0 .next]

/-- The slow daemon loses its socket, and the stopping one is reported stopped
while it holds the lock. -/
theorem slow_daemon_loses_socket :
    (∃ reached, run step .start slowStatus = some reached ∧ Live reached 0 ∧
      ∃ next, step reached (.client 0 .next) = some next ∧ next.sock = none ∧ Live next 0 ∧
        next.clients.get 0 = some (.returned .notRunning)) ∧
    ¬ AllSteps step Spares .start (slowStatus ++ [.client 0 .next]) ∧
    ¬ AllSteps step Spares .start (earlyDown ++ [.client 0 .next]) := by
  refine ⟨⟨_, rfl, ⟨rfl, _, rfl, rfl⟩, _, rfl, rfl, ⟨rfl, _, rfl, rfl⟩, rfl⟩, fun all => ?_,
    fun all => ?_⟩
  · have spares := allSteps_iff_prefix.mp all slowStatus (.client 0 .next) [] _ _ rfl rfl rfl
    exact spares.sock 0 ⟨rfl, _, rfl, rfl⟩ rfl rfl
  · have spares := allSteps_iff_prefix.mp all earlyDown (.client 0 .next) [] _ _ rfl rfl rfl
    exact spares.stopped 0 0 rfl rfl rfl

end LinkP2p.Daemon.Liveness
