import LinkP2p.Stream.PhoneStatus

/-!
# The local listeners of the phone plane

Each session with a listen address starts a listener of its own on the slot of
its connection. Nothing tells the listener that the session has ended: it keeps
the address, and its clients wait on a slot that no watcher will write to.
-/

namespace LinkP2p.Stream

/-- The connection an opener works on. -/
def Opener.conn : Opener → Option Connection
  | .opening conn _ | .clearing conn _ => some conn
  | _ => none

theorem effect_openers (slot : Slot) (effect : Effect) :
    (effect.apply slot).openers = slot.openers := by
  cases effect with
  | silent | close conn => rfl
  | replace conn =>
      change (slot.replace conn).openers = slot.openers
      unfold Slot.replace
      split <;> rfl

/-- An opener works on the connection that it has read in the slot. -/
theorem openerStep_conn {slot : Slot} {stage after : Opener} {act : OpenerAct} {effect : Effect}
    {conn : Connection} (moved : openerStep slot stage act = some (some after, effect))
    (works : after.conn = some conn) : slot.value = some conn ∨ stage.conn = some conn := by
  cases openerStep_move moved with
  | absent | wake | dead | clear => cases works
  | found here =>
      cases works
      exact Or.inl here
  | timeout => exact Or.inr works

/-- An opener puts no connection into the slot. -/
theorem openerStep_value {slot : Slot} {stage : Opener} {act : OpenerAct}
    {after : Option Opener} {effect : Effect} {conn : Connection}
    (moved : openerStep slot stage act = some (after, effect))
    (stored : (effect.apply slot).value = some conn) : slot.value = some conn := by
  rcases openerStep_effect moved with ⟨-, rfl | ⟨dead, rfl⟩⟩ | ⟨-, -, rfl⟩
  · exact stored
  · exact stored
  · change (slot.replace none).value = some conn at stored
    rw [replace_value] at stored
    split at stored
    · cases stored
    · exact stored

end LinkP2p.Stream

namespace LinkP2p.Stream.Phone

open LinkP2p.Lib LinkP2p.Lib.Transition
open LinkP2p.Tun (EndpointId)

variable {config : Config} {plane next : Plane} {addr : SocketAddr}

/-! ## What serving the current call means -/

/-- The client waits for a redial, with its permit. -/
def Awaits (i : Nat) (client : Client) (session : Session) : Prop :=
  client.stage = .opening ∧ ∃ seen, session.slot.openers.get i = some (.waiting seen)

/-- The address serves the current call: it is bound only by the listener of a
session that has not ended, and of no session but the active one; while a session
is active every client accepted there is its client, piped over its connection;
and no client of an ended session waits for a redial. -/
structure ServesCurrent (addr : SocketAddr) (plane : Plane) : Prop where
  bound : ∀ number session, plane.sessions.get number = some session →
    session.listener = .bound addr →
      session.closer = .watching ∧ ∀ active, plane.active = some active → active = number
  accepted : ∀ i client, plane.clients.get i = some client → client.addr = addr →
    ∀ active, plane.active = some active → client.session = active
  piped : ∀ i client session conn, plane.clients.get i = some client →
    plane.sessions.get client.session = some session → client.stage = .piping conn →
      conn = session.conn
  waiting : ∀ i client session, plane.clients.get i = some client → client.addr = addr →
    plane.sessions.get client.session = some session → Awaits i client session →
      session.closer = .watching

/-- The clients of a session use its connection. -/
structure Wired (plane : Plane) : Prop where
  numbered : Numbered plane
  clients : ∀ i client, plane.clients.get i = some client →
    ∃ session, plane.sessions.get client.session = some session ∧
      ∀ conn, client.stage = .piping conn → conn = session.conn
  value : ∀ number session conn, plane.sessions.get number = some session →
    session.slot.value = some conn → conn = session.conn
  openers : ∀ number session i stage conn, plane.sessions.get number = some session →
    session.slot.openers.get i = some stage → stage.conn = some conn → conn = session.conn

/-- When the address is left to the sessions in turn: a listener binds it only for
a session that has not ended while no other session is active; a session is
spawned only while nobody listens there and no client of an earlier one is left;
and the close task of a session runs only while its listener has not bound the
address and no client waits on its slot, nor begins to wait there later. -/
def LeavesAddress (addr : SocketAddr) (config : Config) (plane : Plane) (event : Event) : Prop :=
  match event, effectOf config plane event with
  | _, .spawn _ _ _ =>
      (∀ number session, plane.sessions.get number = some session →
        session.listener ≠ .bound addr) ∧
        ∀ i client, plane.clients.get i = some client → client.addr ≠ addr
  | .session number .bind, _ =>
      ∀ session, plane.sessions.get number = some session → session.listener = .starting addr →
        session.closer = .watching ∧ ∀ active, plane.active = some active → active = number
  | .session number .close, .clearActive =>
      ∀ session, plane.sessions.get number = some session → session.listener ≠ .bound addr ∧
        ∀ i client, plane.clients.get i = some client → client.addr = addr →
          client.session = number → ¬ Awaits i client session
  | .client i (.opener act), _ =>
      ∀ client session stage seen effect, plane.clients.get i = some client →
        client.addr = addr → plane.sessions.get client.session = some session →
          session.slot.openers.get i = some stage →
            openerStep (session.view plane) stage act = some (some (.waiting seen), effect) →
              session.closer = .watching
  | _, _ => True

/-! ## The wiring -/

theorem wired_start (config : Config) : Wired (.start config) where
  numbered := numbered_start config
  clients i client found := absurd found (by simp [Plane.start])
  value number session conn found := absurd found (by simp [Plane.start])
  openers number session i stage conn found := absurd found (by simp [Plane.start])

/-- A task of a session does not touch its connection and its slot. -/
theorem SessionMove.slot {session after : Session} {event : SessionEvent} {effect : Effect}
    (move : SessionMove plane session event after effect) : after.slot = session.slot := by
  cases move <;> rfl

theorem setOpener_openers (slot : Slot) (i : Nat) (stage : Option Opener) :
    (slot.setOpener i stage).openers =
      (stage.map (slot.openers.put i)).getD (slot.openers.remove i) := by
  cases stage <;> rfl

/-- The wiring depends on the sessions' connections and slots and on the clients. -/
theorem Wired.put (wired : Wired plane) (numbered : Numbered next) {number : Nat}
    {session after : Session} (found : plane.sessions.get number = some session)
    (sessions : next.sessions = plane.sessions.put number after)
    (conn : after.conn = session.conn)
    (value : ∀ conn, after.slot.value = some conn → session.slot.value = some conn)
    (openers : ∀ i stage conn, after.slot.openers.get i = some stage →
      stage.conn = some conn → conn = session.conn)
    (clients : ∀ i client, next.clients.get i = some client →
      plane.clients.get i = some client ∨ client.session = number ∧
        ∀ conn, client.stage = .piping conn → conn = session.conn) : Wired next where
  numbered := numbered
  clients i client present := by
    rw [sessions]
    rcases clients i client present with old | ⟨rfl, pipes⟩
    · obtain ⟨stored, was, pipes⟩ := wired.clients i client old
      by_cases mine : client.session = number
      · rw [mine] at was
        cases found.symm.trans was
        exact ⟨after, by rw [mine, HashMap.get_put_self], by rw [conn]; exact pipes⟩
      · exact ⟨stored, (HashMap.get_put_of_ne mine _ _).trans was, pipes⟩
    · exact ⟨after, HashMap.get_put_self _ _ _, by rw [conn]; exact pipes⟩
  value other stored content present holds := by
    rw [sessions] at present
    rcases HashMap.get_of_get_put present with ⟨rfl, rfl⟩ | ⟨-, before⟩
    · rw [conn]
      exact wired.value other session content found (value content holds)
    · exact wired.value other stored content before holds
  openers other stored i stage content present stands works := by
    rw [sessions] at present
    rcases HashMap.get_of_get_put present with ⟨rfl, rfl⟩ | ⟨-, before⟩
    · rw [conn]
      exact openers i stage content stands works
    · exact wired.openers other stored i stage content before stands works

theorem Wired.piped (wired : Wired plane) {i : Nat} {client : Client} {session : Session}
    {conn : Connection} (present : plane.clients.get i = some client)
    (found : plane.sessions.get client.session = some session)
    (piping : client.stage = .piping conn) : conn = session.conn := by
  obtain ⟨stored, was, pipes⟩ := wired.clients i client present
  cases found.symm.trans was
  exact pipes conn piping

/-- Steps that keep the sessions and pipe no client keep the wiring. -/
theorem Wired.keep (wired : Wired plane) (numbered : Numbered next)
    (sessions : next.sessions = plane.sessions)
    (clients : ∀ i client, next.clients.get i = some client →
      plane.clients.get i = some client ∨ client.stage = .queued ∧
        ∃ session, plane.sessions.get client.session = some session) :
    Wired next where
  numbered := numbered
  clients i client present := by
    rw [sessions]
    rcases clients i client present with old | ⟨queued, session, found⟩
    · exact wired.clients i client old
    · refine ⟨session, found, fun conn piping => ?_⟩
      cases queued.symm.trans piping
  value := by
    rw [sessions]
    exact wired.value
  openers := by
    rw [sessions]
    exact wired.openers

theorem Wired.spawn (wired : Wired plane) (numbered : Numbered next) {conn : Connection}
    {peer : EndpointId} {listen : Option SocketAddr}
    (sessions : next.sessions = plane.sessions.put plane.nextSession (.new conn peer listen))
    (clients : next.clients = plane.clients) : Wired next where
  numbered := numbered
  clients i client present := by
    rw [clients] at present
    obtain ⟨session, found, pipes⟩ := wired.clients i client present
    have older : client.session ≠ plane.nextSession :=
      Nat.ne_of_lt (wired.numbered.sessions _ session found)
    rw [sessions]
    exact ⟨session, (HashMap.get_put_of_ne older _ _).trans found, pipes⟩
  value number session content found holds := by
    rw [sessions] at found
    rcases HashMap.get_of_get_put found with ⟨-, rfl⟩ | ⟨-, before⟩
    · exact (Option.some.inj holds).symm
    · exact wired.value number session content before holds
  openers number session i stage content found stands works := by
    rw [sessions] at found
    rcases HashMap.get_of_get_put found with ⟨-, rfl⟩ | ⟨-, before⟩
    · exact absurd stands (by simp [Session.new, Slot.new])
    · exact wired.openers number session i stage content before stands works

theorem apply_clients (effect : Effect) (plane : Plane) :
    (effect.apply plane).clients = plane.clients := by
  cases effect <;> rfl

theorem Wired.perform (wired : Wired plane) (numbered : Numbered next) {effect : Effect}
    (sessions : next.sessions = (effect.apply plane).sessions)
    (clients : next.clients = (effect.apply plane).clients) : Wired next := by
  rw [apply_clients] at clients
  cases effect with
  | spawn conn peer listen => exact wired.spawn numbered sessions clients
  | _ => exact wired.keep numbered sessions fun _ _ present => Or.inl (clients ▸ present)

/-- A client that goes on is the one before, or pipes on the connection it opened. -/
theorem clientAfter_some {client becomes : Client} {stage : Opener} {act : OpenerAct}
    {after : Option Opener} (goes : clientAfter client stage act after = some becomes) :
    becomes.session = client.session ∧ becomes.addr = client.addr ∧
      (becomes = client ∨
        ∃ conn seen, stage = .opening conn seen ∧ becomes.stage = .piping conn) := by
  cases after with
  | some later =>
      cases goes
      exact ⟨rfl, rfl, Or.inl rfl⟩
  | none =>
      cases stage with
      | opening conn seen =>
          cases act <;> cases goes
          exact ⟨rfl, rfl, Or.inr ⟨conn, seen, rfl, rfl⟩⟩
      | _ => cases goes

theorem get_setClient {i j : Nat} {client : Option Client} {stored : Client} {base : Plane}
    (held : (base.setClient i client).clients.get j = some stored) :
    j = i ∧ client = some stored ∨ j ≠ i ∧ base.clients.get j = some stored := by
  cases client with
  | none => exact Or.inr (HashMap.get_of_get_remove held)
  | some mine =>
      rcases HashMap.get_of_get_put held with ⟨same, rfl⟩ | before
      · exact Or.inl ⟨same, rfl⟩
      · exact Or.inr before

theorem wired_client {i : Nat} {event : ClientEvent} (wired : Wired plane)
    (stepped : step config plane (.client i event) = some next) : Wired next := by
  have numbered := numbered_step wired.numbered stepped
  cases client_cases stepped with
  | arrive found bound fresh =>
      refine wired.keep numbered rfl fun j client present => ?_
      rcases HashMap.get_of_get_put present with ⟨-, rfl⟩ | ⟨-, before⟩
      · exact Or.inr ⟨rfl, _, found⟩
      · exact Or.inl before
  | @acquire client session present queued found =>
      refine wired.put numbered found rfl rfl (fun conn holds => ?_)
        (fun j stage conn stands works => ?_) (fun j other held => ?_)
      · rw [setOpener_value] at holds
        exact holds
      · rw [setOpener_openers] at stands
        rcases HashMap.get_of_get_put stands with ⟨-, rfl⟩ | ⟨-, before⟩
        · cases works
        · exact wired.openers _ session j stage conn found before works
      · rcases HashMap.get_of_get_put held with ⟨-, rfl⟩ | ⟨-, before⟩
        · exact Or.inr ⟨rfl, nofun⟩
        · exact Or.inl before
  | @opener client session stage act after effect present opening found stands moved =>
      refine wired.put numbered found rfl rfl (fun conn holds => ?_)
        (fun j other conn listed works => ?_) (fun j other held => ?_)
      · rw [setOpener_value] at holds
        have read : (session.view plane).value = some conn := openerStep_value moved holds
        exact read
      · rw [setOpener_openers, effect_openers] at listed
        cases after with
        | none =>
            exact wired.openers _ session j other conn found
              (HashMap.get_of_get_remove listed).2 works
        | some later =>
            rcases HashMap.get_of_get_put listed with ⟨-, rfl⟩ | ⟨-, before⟩
            · rcases openerStep_conn moved works with read | worked
              · exact wired.value _ session conn found read
              · exact wired.openers _ session i stage conn found stands worked
            · exact wired.openers _ session j other conn found before works
      · rcases get_setClient held with ⟨rfl, becomes⟩ | ⟨-, before⟩
        · obtain ⟨same, -, kept | ⟨conn, seen, rfl, pipes⟩⟩ := clientAfter_some becomes
          · rw [kept]
            exact Or.inl present
          · refine Or.inr ⟨same, fun content piping => ?_⟩
            cases pipes.symm.trans piping
            exact wired.openers _ session _ _ _ found stands rfl
        · exact Or.inl before
  | leave present piping =>
      refine wired.keep numbered rfl fun j client held => Or.inl ?_
      exact (HashMap.get_of_get_remove held).2

theorem wired_step {event : Event} (wired : Wired plane)
    (stepped : step config plane event = some next) : Wired next := by
  have numbered := numbered_step wired.numbered stepped
  cases event with
  | accept event =>
      obtain ⟨stage, effect, -, -, rfl⟩ := accept_cases stepped
      exact wired.perform numbered rfl rfl
  | command event =>
      obtain ⟨stage, effect, -, -, rfl⟩ := command_cases stepped
      exact wired.perform numbered rfl rfl
  | session number event =>
      obtain ⟨session, after, effect, found, moved, -, rfl⟩ := session_cases stepped
      have move := sessionStep_move moved
      refine wired.put numbered found rfl move.conn (fun conn holds => ?_)
        (fun i stage conn stands works => ?_) (fun i client present => Or.inl ?_)
      · rw [move.slot] at holds
        exact holds
      · rw [move.slot] at stands
        exact wired.openers number session i stage conn found stands works
      · change (effect.apply plane).clients.get i = some client at present
        rw [apply_clients] at present
        exact present
  | client i event => exact wired_client wired stepped
  | die conn =>
      simp only [step, Option.ite_none_right_eq_some, Option.some.injEq] at stepped
      obtain ⟨-, rfl⟩ := stepped
      exact wired.keep numbered rfl fun _ _ present => Or.inl present

/-! ## Serving, step by step -/

theorem ServesCurrent.congr (serves : ServesCurrent addr plane)
    (active : next.active = plane.active) (sessions : next.sessions = plane.sessions)
    (clients : next.clients = plane.clients) : ServesCurrent addr next where
  bound := by
    rw [active, sessions]
    exact serves.bound
  accepted := by
    rw [active, clients]
    exact serves.accepted
  piped := by
    rw [sessions, clients]
    exact serves.piped
  waiting := by
    rw [sessions, clients]
    exact serves.waiting

/-- A step of a session's task that binds nothing, ends nothing and keeps the slot. -/
theorem ServesCurrent.put (serves : ServesCurrent addr plane) (wired : Wired next)
    {number : Nat} {session after : Session} (found : plane.sessions.get number = some session)
    (active : next.active = plane.active)
    (sessions : next.sessions = plane.sessions.put number after)
    (clients : next.clients = plane.clients) (slot : after.slot = session.slot)
    (bound : after.listener = .bound addr → session.listener = .bound addr)
    (closer : session.closer = .watching → after.closer = .watching) :
    ServesCurrent addr next where
  bound other stored present listens := by
    rw [sessions] at present
    rw [active]
    rcases HashMap.get_of_get_put present with ⟨rfl, rfl⟩ | ⟨-, before⟩
    · obtain ⟨watching, only⟩ := serves.bound other session found (bound listens)
      exact ⟨closer watching, only⟩
    · exact serves.bound other stored before listens
  accepted := by
    rw [active, clients]
    exact serves.accepted
  piped _ _ _ _ present found piping := wired.piped present found piping
  waiting i client stored present here listed awaits := by
    rw [clients] at present
    rw [sessions] at listed
    rcases HashMap.get_of_get_put listed with ⟨same, rfl⟩ | ⟨-, before⟩
    · rw [← same] at found
      rw [Awaits, slot] at awaits
      exact closer (serves.waiting i client session present here found awaits)
    · exact serves.waiting i client stored present here before awaits

theorem serves_spawn_iff {conn : Connection} {peer : EndpointId} {listen : Option SocketAddr}
    (wired : Wired plane) (after : Wired next)
    (active : next.active = some plane.nextSession)
    (sessions : next.sessions = plane.sessions.put plane.nextSession (.new conn peer listen))
    (clients : next.clients = plane.clients) :
    ServesCurrent addr next ↔
      (∀ number session, plane.sessions.get number = some session →
        session.listener ≠ .bound addr) ∧
        ∀ i client, plane.clients.get i = some client → client.addr ≠ addr := by
  constructor
  · intro serves
    refine ⟨fun number session found listens => ?_, fun i client present here => ?_⟩
    · have older : number ≠ plane.nextSession :=
        Nat.ne_of_lt (wired.numbered.sessions number session found)
      have still : next.sessions.get number = some session := by
        rw [sessions, HashMap.get_put_of_ne older]
        exact found
      exact older ((serves.bound number session still listens).2 _ active).symm
    · obtain ⟨session, found, -⟩ := wired.clients i client present
      rw [← clients] at present
      have mine := serves.accepted i client present here _ active
      exact Nat.ne_of_lt (wired.numbered.sessions _ session found) mine
  · rintro ⟨unbound, nobody⟩
    refine ⟨fun number session found listens => ?_, fun i client present here => ?_,
      fun _ _ _ _ present found piping => after.piped present found piping,
      fun i client _ present here => ?_⟩
    · rw [sessions] at found
      rcases HashMap.get_of_get_put found with ⟨-, rfl⟩ | ⟨-, before⟩
      · cases listen <;> cases listens
      · exact absurd listens (unbound number session before)
    · rw [clients] at present
      exact absurd here (nobody i client present)
    · rw [clients] at present
      exact absurd here (nobody i client present)

theorem serves_clearActive_iff {number : Nat} {session : Session}
    (serves : ServesCurrent addr plane) (after : Wired next) (active : next.active = none)
    (sessions : next.sessions = plane.sessions.put number
      { session with closer := .activeCleared })
    (clients : next.clients = plane.clients) :
    ServesCurrent addr next ↔
      session.listener ≠ .bound addr ∧
        ∀ i client, plane.clients.get i = some client → client.addr = addr →
          client.session = number → ¬ Awaits i client session := by
  have mine : next.sessions.get number = some { session with closer := .activeCleared } := by
    rw [sessions, HashMap.get_put_self]
  constructor
  · intro good
    refine ⟨fun listens => ?_, fun i client present here same awaits => ?_⟩
    · exact absurd (good.bound number _ mine listens).1 nofun
    · rw [← same] at mine
      rw [← clients] at present
      exact absurd (good.waiting i client _ present here mine awaits) nofun
  · rintro ⟨unbound, nobody⟩
    refine ⟨fun other stored present listens => ?_, fun i client _ _ held taken => ?_,
      fun _ _ _ _ present found piping => after.piped present found piping,
      fun i client stored present here listed awaits => ?_⟩
    · rw [sessions] at present
      rcases HashMap.get_of_get_put present with ⟨-, rfl⟩ | ⟨-, before⟩
      · exact absurd listens unbound
      · exact ⟨(serves.bound other stored before listens).1,
          fun held taken => by cases active.symm.trans taken⟩
    · cases active.symm.trans taken
    · rw [clients] at present
      rw [sessions] at listed
      rcases HashMap.get_of_get_put listed with ⟨same, rfl⟩ | ⟨-, before⟩
      · exact absurd awaits (nobody i client present here same)
      · exact serves.waiting i client stored present here before awaits

theorem serves_bind_iff {number : Nat} {session : Session} {bound : SocketAddr}
    (serves : ServesCurrent addr plane) (after : Wired next)
    (found : plane.sessions.get number = some session)
    (starting : session.listener = .starting bound) (active : next.active = plane.active)
    (sessions : next.sessions = plane.sessions.put number { session with listener := .bound bound })
    (clients : next.clients = plane.clients) :
    ServesCurrent addr next ↔
      ∀ stored, plane.sessions.get number = some stored → stored.listener = .starting addr →
        stored.closer = .watching ∧ ∀ active, plane.active = some active → active = number := by
  have mine : next.sessions.get number = some { session with listener := .bound bound } := by
    rw [sessions, HashMap.get_put_self]
  constructor
  · intro good stored present here
    cases found.symm.trans present
    cases starting.symm.trans here
    obtain ⟨watching, only⟩ := good.bound number _ mine rfl
    exact ⟨watching, active ▸ only⟩
  · intro free
    refine ⟨fun other stored present listens => ?_, fun i client present => ?_,
      fun _ _ _ _ present found piping => after.piped present found piping,
      fun i client stored present here listed awaits => ?_⟩
    · rw [active]
      rw [sessions] at present
      rcases HashMap.get_of_get_put present with ⟨rfl, rfl⟩ | ⟨-, before⟩
      · cases listens
        exact free session found starting
      · exact serves.bound other stored before listens
    · rw [clients] at present
      rw [active]
      exact serves.accepted i client present
    · rw [clients] at present
      rw [sessions] at listed
      rcases HashMap.get_of_get_put listed with ⟨same, rfl⟩ | ⟨-, before⟩
      · rw [← same] at found
        exact serves.waiting i client session present here found awaits
      · exact serves.waiting i client stored present here before awaits

theorem serves_session_iff {number : Nat} {event : SessionEvent} (wired : Wired plane)
    (serves : ServesCurrent addr plane)
    (stepped : step config plane (.session number event) = some next) :
    ServesCurrent addr next ↔ LeavesAddress addr config plane (.session number event) := by
  have after := wired_step wired stepped
  obtain ⟨session, becomes, effect, found, moved, named, rfl⟩ := session_cases stepped
  unfold LeavesAddress
  rw [named]
  cases sessionStep_move moved with
  | publish unpublished =>
      exact ⟨fun _ => trivial, fun _ => serves.put after found rfl rfl rfl rfl id id⟩
  | clearActive watching gone =>
      rw [serves_clearActive_iff serves after rfl rfl rfl]
      refine ⟨fun both stored present => ?_, fun each => each session found⟩
      cases found.symm.trans present
      exact both
  | clearPeers cleared =>
      refine ⟨fun _ => trivial, fun _ => ?_⟩
      refine serves.put after found rfl rfl rfl rfl id fun watching => ?_
      cases watching.symm.trans cleared
  | clearPhase cleared =>
      refine ⟨fun _ => trivial, fun _ => ?_⟩
      refine serves.put after found rfl rfl rfl rfl id fun watching => ?_
      cases watching.symm.trans cleared
  | bind starting free => exact serves_bind_iff serves after found starting rfl rfl rfl
  | listenFailed unbinds =>
      have kept := serves.put after found rfl rfl rfl rfl nofun id
      rcases unbinds with rfl | rfl <;> exact ⟨fun _ => trivial, fun _ => kept⟩

theorem acceptStep_calls {task stage : AcceptTask} {event : AcceptEvent} {effect : Effect}
    (moved : acceptStep config plane task event = some (stage, effect)) :
    effect.keepsCalls = true ∨ ∃ conn peer listen, effect = .spawn conn peer listen := by
  cases acceptStep_pays moved with
  | owing owes keeps => exact Or.inl keeps
  | spawns conn peer listen => exact Or.inr ⟨conn, peer, listen, rfl⟩
  | announces => exact Or.inl rfl
  | apart free same =>
      rcases same with rfl | rfl | ⟨peer, alpn, refused, rfl⟩ <;> exact Or.inl rfl

theorem commandStep_calls {command stage : Command} {event : CommandEvent} {effect : Effect}
    (moved : commandStep config plane command event = some (stage, effect)) :
    effect.keepsCalls = true ∨ ∃ conn peer listen, effect = .spawn conn peer listen := by
  cases commandStep_pays moved with
  | owing owes keeps => exact Or.inl keeps
  | spawns conn peer listen => exact Or.inr ⟨conn, peer, listen, rfl⟩
  | idles | unrings => exact Or.inl rfl
  | apart free same => rcases same with rfl | rfl <;> exact Or.inl rfl

theorem serves_opener_iff {i : Nat} {client : Client} {session : Session} {stage : Opener}
    {act : OpenerAct} {later : Option Opener} {effect : Stream.Effect}
    (serves : ServesCurrent addr plane)
    (after : Wired (plane.afterOpener i client session stage act later effect))
    (present : plane.clients.get i = some client) (opening : client.stage = .opening)
    (found : plane.sessions.get client.session = some session)
    (stands : session.slot.openers.get i = some stage)
    (moved : openerStep (session.view plane) stage act = some (later, effect)) :
    ServesCurrent addr (plane.afterOpener i client session stage act later effect) ↔
      LeavesAddress addr config plane (.client i (.opener act)) := by
  have mine : (plane.afterOpener i client session stage act later effect).sessions.get
      client.session = some { session with
        slot := (effect.apply (session.view plane)).setOpener i later } :=
    HashMap.get_put_self _ _ _
  constructor
  · intro good other stored place seen result listed here kept stands' waits
    cases present.symm.trans listed
    cases found.symm.trans kept
    cases stands.symm.trans stands'
    cases moved.symm.trans waits
    have queue : ((effect.apply (session.view plane)).setOpener i
        (some (.waiting seen))).openers.get i = some (.waiting seen) := by
      rw [setOpener_openers]
      exact HashMap.get_put_self _ _ _
    have watching := good.waiting i client _ (HashMap.get_put_self _ _ _) here mine
      ⟨opening, seen, queue⟩
    exact watching
  · intro leaves
    refine ⟨fun other stored listed listens => ?_, fun j other held here => ?_,
      fun _ _ _ _ present found piping => after.piped present found piping,
      fun j other stored held here listed awaits => ?_⟩
    · rcases HashMap.get_of_get_put listed with ⟨rfl, rfl⟩ | ⟨-, before⟩
      · exact serves.bound _ session found listens
      · exact serves.bound other stored before listens
    · rcases get_setClient held with ⟨rfl, becomes⟩ | ⟨-, before⟩
      · obtain ⟨same, address, -⟩ := clientAfter_some becomes
        rw [same]
        exact serves.accepted j client present (address.symm.trans here)
      · exact serves.accepted j other before here
    · obtain ⟨still, seen, waits⟩ := awaits
      rcases get_setClient held with ⟨rfl, becomes⟩ | ⟨apart, before⟩
      · -- the client itself: it waits only if this step made it wait
        obtain ⟨same, address, kept | ⟨conn, seen, -, piping⟩⟩ := clientAfter_some becomes
        · rw [kept] at listed here
          cases mine.symm.trans listed
          rw [setOpener_openers] at waits
          cases later with
          | none => cases (HashMap.get_remove_self _ _).symm.trans waits
          | some place =>
              cases (HashMap.get_put_self _ _ _).symm.trans waits
              exact leaves client session stage seen effect present here found stands moved
        · cases piping.symm.trans still
      · rcases HashMap.get_of_get_put listed with ⟨same, rfl⟩ | ⟨-, elsewhere⟩
        · rw [← same] at found
          refine serves.waiting j other session before here found ⟨still, seen, ?_⟩
          rw [setOpener_openers, effect_openers] at waits
          cases later with
          | none => exact (HashMap.get_of_get_remove waits).2
          | some place => exact (HashMap.get_put_of_ne apart _ _).symm.trans waits
        · exact serves.waiting j other stored before here elsewhere ⟨still, seen, waits⟩

theorem serves_client_iff {i : Nat} {event : ClientEvent} (wired : Wired plane)
    (serves : ServesCurrent addr plane)
    (stepped : step config plane (.client i event) = some next) :
    ServesCurrent addr next ↔ LeavesAddress addr config plane (.client i event) := by
  have after := wired_step wired stepped
  cases client_cases stepped with
  | @arrive number session bound found listens fresh =>
      refine ⟨fun _ => trivial, fun _ => ⟨serves.bound, fun j client present here => ?_,
        fun _ _ _ _ present found piping => after.piped present found piping,
        fun j client stored present here listed awaits => ?_⟩⟩
      · rcases HashMap.get_of_get_put present with ⟨-, rfl⟩ | ⟨-, before⟩
        · cases here
          exact fun active held => ((serves.bound number session found listens).2 active held).symm
        · exact serves.accepted j client before here
      · rcases HashMap.get_of_get_put present with ⟨-, rfl⟩ | ⟨-, before⟩
        · exact absurd awaits.1 nofun
        · exact serves.waiting j client stored before here listed awaits
  | @acquire client session present queued found =>
      refine ⟨fun _ => trivial, fun _ => ⟨fun other stored listed listens => ?_,
        fun j other held here => ?_,
        fun _ _ _ _ present found piping => after.piped present found piping,
        fun j other stored held here listed awaits => ?_⟩⟩
      · rcases HashMap.get_of_get_put listed with ⟨rfl, rfl⟩ | ⟨-, before⟩
        · exact serves.bound _ session found listens
        · exact serves.bound other stored before listens
      · rcases HashMap.get_of_get_put held with ⟨-, rfl⟩ | ⟨-, before⟩
        · exact serves.accepted i client present here
        · exact serves.accepted j other before here
      · rcases HashMap.get_of_get_put listed with ⟨same, rfl⟩ | ⟨elsewhere, before⟩
        · obtain ⟨opening, seen, stands⟩ := awaits
          rw [setOpener_openers] at stands
          rcases HashMap.get_of_get_put stands with ⟨-, entering⟩ | ⟨apart, waits⟩
          · cases entering
          · have old := (HashMap.get_put_of_ne apart _ _).symm.trans held
            rw [← same] at found
            exact serves.waiting j other session old here found ⟨opening, seen, waits⟩
        · rcases HashMap.get_of_get_put held with ⟨-, rfl⟩ | ⟨-, old⟩
          · exact absurd rfl elsewhere
          · exact serves.waiting j other stored old here before awaits
  | @opener client session stage act later effect present opening found stands moved =>
      exact serves_opener_iff serves after present opening found stands moved
  | leave present piping =>
      refine ⟨fun _ => trivial, fun _ => ⟨serves.bound, fun j client held here => ?_,
        fun _ _ _ _ present found piping => after.piped present found piping,
        fun j client stored held here listed awaits => ?_⟩⟩
      · exact serves.accepted j client (HashMap.get_of_get_remove held).2 here
      · exact serves.waiting j client stored (HashMap.get_of_get_remove held).2 here listed awaits

/-- What the accept task and the command loop do to an address they do not touch. -/
theorem serves_perform_iff {event : Event} {effect : Effect} (wired : Wired plane)
    (serves : ServesCurrent addr plane) (after : Wired next)
    (task : (∃ act, event = .accept act) ∨ ∃ act, event = .command act)
    (named : effectOf config plane event = effect)
    (calls : effect.keepsCalls = true ∨ ∃ conn peer listen, effect = .spawn conn peer listen)
    (active : next.active = (effect.apply plane).active)
    (sessions : next.sessions = (effect.apply plane).sessions)
    (clients : next.clients = (effect.apply plane).clients) :
    ServesCurrent addr next ↔ LeavesAddress addr config plane event := by
  rw [apply_clients] at clients
  unfold LeavesAddress
  rw [named]
  rcases calls with keeps | ⟨conn, peer, listen, rfl⟩
  · obtain ⟨sameActive, sameSessions, -⟩ := keepsCalls_apply keeps plane
    have kept := serves.congr (active.trans sameActive) (sessions.trans sameSessions) clients
    rcases task with ⟨act, rfl⟩ | ⟨act, rfl⟩ <;> cases effect <;>
      first | exact ⟨fun _ => trivial, fun _ => kept⟩ | cases keeps
  · rcases task with ⟨act, rfl⟩ | ⟨act, rfl⟩ <;>
      exact serves_spawn_iff wired after active sessions clients

theorem serves_step_iff {event : Event} (wired : Wired plane) (serves : ServesCurrent addr plane)
    (stepped : step config plane event = some next) :
    ServesCurrent addr next ↔ LeavesAddress addr config plane event := by
  have after := wired_step wired stepped
  cases event with
  | accept event =>
      obtain ⟨stage, effect, moved, named, rfl⟩ := accept_cases stepped
      exact serves_perform_iff wired serves after (Or.inl ⟨event, rfl⟩) named
        (acceptStep_calls moved) rfl rfl rfl
  | command event =>
      obtain ⟨stage, effect, moved, named, rfl⟩ := command_cases stepped
      exact serves_perform_iff wired serves after (Or.inr ⟨event, rfl⟩) named
        (commandStep_calls moved) rfl rfl rfl
  | session number event => exact serves_session_iff wired serves stepped
  | client i event => exact serves_client_iff wired serves stepped
  | die conn =>
      simp only [step, Option.ite_none_right_eq_some, Option.some.injEq] at stepped
      obtain ⟨-, rfl⟩ := stepped
      exact ⟨fun _ => trivial, fun _ => serves.congr rfl rfl rfl⟩

theorem serves_start (config : Config) : ServesCurrent addr (.start config) where
  bound number session found := absurd found (by simp [Plane.start])
  accepted i client found := absurd found (by simp [Plane.start])
  piped i client session conn found := absurd found (by simp [Plane.start])
  waiting i client session found := absurd found (by simp [Plane.start])

/-- **The local address over whole runs.** For every sequence of sessions and
every local address: it serves the current call throughout exactly when it is
left to the sessions in turn. -/
theorem local_listen_serves_iff (config : Config) (addr : SocketAddr) (events : List Event) :
    AllStates (step config) (ServesCurrent addr) (.start config) events ↔
      AllSteps (step config) (LeavesAddress addr config) (.start config) events :=
  allStates_iff (fun _ _ _ => wired_step) (fun _ _ _ => serves_step_iff)
    (wired_start config) (serves_start config) events

/-- Every caller is known, and the node listens on port 80 of 127.0.0.1. -/
def listening : Config := { friends with defaultListen := some (.v4 0x7F000001 80) }

/-- A caller connects and hangs up. -/
def listenThenHangUp : List Event :=
  [.accept .incoming, .accept (.handshaken 1 .forward 0), .accept .next, .accept .next,
    .session 0 .publish, .session 0 .bind, .die 0, .session 0 .close, .session 0 .close,
    .session 0 .close]

/-- The caller calls again, and a client connects to the local address. -/
def secondCall : List Event :=
  [.accept .incoming, .accept (.handshaken 1 .forward 0), .accept .next, .accept .next,
    .session 1 .publish, .session 1 .bindFailed, .client 0 (.arrive 0), .client 0 .acquire,
    .client 0 (.opener .subscribe), .client 0 (.opener .openFailed)]

/-- The listener of the first call outlives it; the client of the second call
waits there for a redial, with a permit. -/
theorem listener_outlives_call :
    (∃ final client session, run (step listening) (.start listening)
        (listenThenHangUp ++ secondCall) = some final ∧
      final.active = some 1 ∧ final.clients.get 0 = some client ∧ client.session = 0 ∧
      final.sessions.get 0 = some session ∧ Awaits 0 client session) ∧
    ¬ AllStates (step listening) (ServesCurrent (.v4 0x7F000001 80)) (.start listening)
      listenThenHangUp := by
  refine ⟨⟨_, ⟨0, .v4 0x7F000001 80, .opening⟩, _, rfl, rfl, rfl, rfl, rfl, rfl, 0, rfl⟩,
    fun all => ?_⟩
  have serves := all.final rfl
  exact absurd (serves.bound 0 _ rfl rfl).1 nofun

end LinkP2p.Stream.Phone
