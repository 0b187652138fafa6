import LinkP2p.Stream.PhoneAdmission

/-!
# The published status of the phone plane

Phase and peers are cells of their own, written by the accept task, the command
loop and the tasks of each session. What they should say follows from the active
slot and the ring list; a task that has changed these, or has written a phase in
advance, still owes the write that makes the status right.
-/

namespace LinkP2p.Stream.Phone

open LinkP2p.Lib LinkP2p.Lib.Transition
open LinkP2p.Tun (EndpointId)

variable {config : Config} {plane next : Plane}

/-! ## What the status should say -/

/-- The phase that the active slot and the ring list call for. -/
def Plane.duePhase (plane : Plane) : Phase :=
  if plane.active.isSome then .connected
  else if plane.ringing.isEmpty then .idle else .ringing

def Plane.duePeers (plane : Plane) : List EndpointId :=
  ((plane.active.bind plane.sessions.get).map fun session => [session.peer]).getD []

/-- No operation is in progress, and every publish task and every close task of a
dead connection has run. -/
structure Settled (plane : Plane) : Prop where
  accept : plane.accept = .accepting ∨ plane.accept = .handshaking
  command : plane.command = .selecting
  tasks : ∀ number session, plane.sessions.get number = some session →
    session.published = true ∧
      (session.closer = .done ∨
        session.closer = .watching ∧ plane.closed session.conn = false)

/-- The active slot holds a live session with the peer. -/
def Calling (plane : Plane) (peer : EndpointId) : Prop :=
  ∃ number session, plane.active = some number ∧
    plane.sessions.get number = some session ∧ session.peer = peer ∧
      plane.closed session.conn = false

/-- The published status says what the active slot and the ring list hold. -/
structure Truthful (plane : Plane) : Prop where
  connected : ∀ peer, plane.phase = .connected ∧ plane.peers = [peer] ↔ Calling plane peer
  ringing : plane.phase = .ringing ↔ plane.active = none ∧ plane.ringing ≠ []
  idle : (∀ peer, ¬ Calling plane peer) → ¬ (plane.active = none ∧ plane.ringing ≠ []) →
    plane.phase = .idle ∧ plane.peers = []

/-- A close task finds no other session's state in the cells it clears. -/
def ClosesOwn (plane : Plane) : Event → Prop
  | .session number .close => ∀ active, plane.active = some active → active = number
  | _ => True

/-- Each write comes in its time: a session is spawned under the phase written
for it; the ring is announced while it rings and nobody talks; the phase goes
idle while neither is the case; a session's peer is published while it is active;
a close task clears the active slot of its own session and the peers of none. -/
def Orderly (config : Config) (plane : Plane) (event : Event) : Prop :=
  match event, effectOf config plane event with
  | _, .spawn _ _ _ => plane.phase = .connected
  | _, .setPhase .ringing => plane.active = none ∧ plane.ringing ≠ []
  | _, .setPhase .idle => plane.active = none ∧ plane.ringing = []
  | .session number _, .clearActive => ∀ active, plane.active = some active → active = number
  | .session number .publish, _ => plane.active = some number
  | .session _ .close, .setPeers _ => plane.active = none
  | _, _ => True

/-! ## Who still owes a write -/

/-- The accept task will write or use the phase. -/
def AcceptTask.owes : AcceptTask → Bool
  | .answering _ _ | .spawning _ _ | .announcing _ => true
  | _ => false

def Command.owes : Command → Bool
  | .connecting _ _ | .acceptPublish _ | .answering _ _ _ | .spawning _ _ _ | .setIdle => true
  | _ => false

/-- The command loop has removed rings and will see whether the phase goes idle. -/
def Command.checks : Command → Bool
  | .rejectPublish | .rejectCheck | .tickPublish | .tickCheck => true
  | _ => false

/-- Nobody talks and nobody rings. -/
def Plane.quiet (plane : Plane) : Prop := plane.active = none ∧ plane.ringing = []

def Closing (plane : Plane) : Prop :=
  ∃ number session, plane.sessions.get number = some session ∧
    (session.closer = .activeCleared ∨ session.closer = .peersCleared)

/-- The phase is the due one, up to what the command loop and the close tasks owe. -/
def DueBut (plane : Plane) : Prop :=
  plane.phase = plane.duePhase ∨ plane.command.owes = true ∨
    (plane.command.checks = true ∧ plane.quiet) ∨ Closing plane

structure Consistent (plane : Plane) : Prop where
  phase : plane.accept.owes = true ∨ DueBut plane
  peers : plane.peers = plane.duePeers ∨
    (∃ number session, plane.active = some number ∧
      plane.sessions.get number = some session ∧ session.published = false) ∨
    ∃ number session, plane.sessions.get number = some session ∧
      session.closer = .activeCleared
  active : ∀ number, plane.active = some number →
    ∃ session, plane.sessions.get number = some session ∧ session.closer = .watching

theorem duePhase_of_active {number : Nat} (active : plane.active = some number) :
    plane.duePhase = .connected := by
  rw [Plane.duePhase, active]
  rfl

theorem duePhase_of_rings (active : plane.active = none) (rings : plane.ringing ≠ []) :
    plane.duePhase = .ringing := by
  rw [Plane.duePhase, active, Option.isSome_none, if_neg Bool.false_ne_true, if_neg]
  rwa [List.isEmpty_iff]

theorem duePhase_of_quiet (quiet : plane.quiet) : plane.duePhase = .idle := by
  rw [Plane.duePhase, quiet.1, quiet.2]
  rfl

/-- In a settled plane nobody owes anything. -/
theorem Consistent.due (consistent : Consistent plane) (settled : Settled plane) :
    plane.phase = plane.duePhase ∧ plane.peers = plane.duePeers := by
  have idle : plane.accept.owes = false ∧ plane.command.owes = false ∧
      plane.command.checks = false := by
    rw [settled.command]
    rcases settled.accept with place | place <;> rw [place] <;> exact ⟨rfl, rfl, rfl⟩
  have run : ∀ number session, plane.sessions.get number = some session →
      session.closer ≠ .activeCleared ∧ session.closer ≠ .peersCleared := by
    intro number session found
    rcases (settled.tasks number session found).2 with done | ⟨watching, -⟩
    · rw [done]
      exact ⟨nofun, nofun⟩
    · rw [watching]
      exact ⟨nofun, nofun⟩
  constructor
  · rcases consistent.phase with owes | due | owes | ⟨checks, -⟩ | ⟨number, session, found, busy⟩
    · exact absurd owes (by rw [idle.1]; exact nofun)
    · exact due
    · exact absurd owes (by rw [idle.2.1]; exact nofun)
    · exact absurd checks (by rw [idle.2.2]; exact nofun)
    · exact (busy.elim (run number session found).1 (run number session found).2).elim
  · rcases consistent.peers with due | ⟨number, session, -, found, pending⟩ |
      ⟨number, session, found, busy⟩
    · exact due
    · rw [(settled.tasks number session found).1] at pending
      cases pending
    · exact absurd busy (run number session found).1

/-- The status of a settled plane is right. -/
theorem Consistent.truthful (consistent : Consistent plane) (settled : Settled plane) :
    Truthful plane := by
  obtain ⟨phase, peers⟩ := consistent.due settled
  cases active : plane.active with
  | some number =>
      obtain ⟨session, found, watching⟩ := consistent.active number active
      have alive : plane.closed session.conn = false := by
        rcases (settled.tasks number session found).2 with done | ⟨-, alive⟩
        · cases watching.symm.trans done
        · exact alive
      have talking : plane.phase = .connected := phase.trans (duePhase_of_active active)
      have listed : plane.peers = [session.peer] := by
        rw [peers, Plane.duePeers, active, Option.bind_some, found]
        rfl
      have calling : Calling plane session.peer := ⟨number, session, active, found, rfl, alive⟩
      refine ⟨fun peer => ⟨fun ⟨_, same⟩ => ?_, ?_⟩, ⟨fun rings => ?_, fun ⟨free, _⟩ => ?_⟩,
        fun nobody => absurd calling (nobody _)⟩
      · rw [listed, List.cons.injEq] at same
        rw [← same.1]
        exact calling
      · rintro ⟨other, mine, held, present, rfl, -⟩
        cases active.symm.trans held
        cases found.symm.trans present
        exact ⟨talking, listed⟩
      · cases talking.symm.trans rings
      · cases active.symm.trans free
  | none =>
      have nobody : ∀ peer, ¬ Calling plane peer := by
        rintro peer ⟨number, -, held, -⟩
        cases active.symm.trans held
      have empty : plane.peers = [] := by
        rw [peers, Plane.duePeers, active]
        rfl
      refine ⟨fun peer => ⟨fun ⟨_, same⟩ => ?_, fun calling => absurd calling (nobody peer)⟩,
        ⟨fun rings => ⟨active, fun silent => ?_⟩, fun ⟨_, rings⟩ => ?_⟩,
        fun _ silent => ⟨?_, empty⟩⟩
      · cases empty.symm.trans same
      · rw [phase, duePhase_of_quiet ⟨active, silent⟩] at rings
        cases rings
      · rw [phase, duePhase_of_rings active rings]
      · have quiet : plane.ringing = [] := by
          by_contra rings
          exact silent ⟨active, rings⟩
        rw [phase, duePhase_of_quiet ⟨active, quiet⟩]

/-! ## What the steps of the tasks do to the debts -/

/-- The effect leaves the active slot, the sessions and the peers alone. -/
def Effect.keepsCalls : Effect → Bool
  | .spawn _ _ _ | .clearActive | .setPeers _ => false
  | _ => true

/-- The accept task goes on owing, pays, or leaves the status alone. -/
inductive AcceptPays (task stage : AcceptTask) : Effect → Prop where
  | owing {effect : Effect} (owes : stage.owes = true) (keeps : effect.keepsCalls = true) :
      AcceptPays task stage effect
  | spawns (conn : Connection) (peer : EndpointId) (listen : Option SocketAddr) :
      AcceptPays task stage (.spawn conn peer listen)
  | announces : AcceptPays task stage (.setPhase .ringing)
  | apart {effect : Effect} (free : task.owes = false)
      (same : effect = .silent ∨ effect = .publishPending ∨
        ∃ peer alpn refused, effect = .arrive peer alpn refused) : AcceptPays task stage effect

theorem acceptStep_pays {task stage : AcceptTask} {event : AcceptEvent} {effect : Effect}
    (moved : acceptStep config plane task event = some (stage, effect)) :
    AcceptPays task stage effect := by
  cases acceptStep_move moved with
  | incoming | failed => exact .apart rfl (Or.inl rfl)
  | refuse | known | ring => exact .apart rfl (Or.inr (Or.inr ⟨_, _, _, rfl⟩))
  | answer | push => exact .owing rfl rfl
  | spawn => exact .spawns _ _ _
  | announce => exact .announces
  | publish => exact .apart rfl (Or.inr (Or.inl rfl))

/-- The command loop goes on owing, pays, takes rings off the list and checks
afterwards, or leaves the status alone. -/
inductive CommandPays (plane : Plane) (command stage : Command) : Effect → Prop where
  | owing {effect : Effect} (owes : stage.owes = true) (keeps : effect.keepsCalls = true) :
      CommandPays plane command stage effect
  | spawns (conn : Connection) (peer : EndpointId) (listen : Option SocketAddr) :
      CommandPays plane command stage (.spawn conn peer listen)
  | idles : CommandPays plane command stage (.setPhase .idle)
  | unrings {kept : List Ringing} {gone : List Connection} (free : command.owes = false)
      (unchecked : command.checks = false) (checks : stage.checks = true)
      (rings : kept ≠ [] → plane.ringing ≠ []) :
      CommandPays plane command stage (.unring kept gone)
  | apart {effect : Effect} (free : command.owes = false)
      (same : effect = .silent ∨ effect = .publishPending)
      (checked : command.checks = true → stage.checks = true ∨ ¬ plane.quiet) :
      CommandPays plane command stage effect

/-- A command that checks nothing is apart from the status. -/
theorem CommandPays.unchecked {command stage : Command} {effect : Effect}
    (free : command.owes = false) (checks : command.checks = false)
    (same : effect = .silent ∨ effect = .publishPending) :
    CommandPays plane command stage effect := by
  refine .apart free same fun busy => ?_
  cases checks.symm.trans busy

theorem commandStep_pays {command stage : Command} {event : CommandEvent} {effect : Effect}
    (moved : commandStep config plane command event = some (stage, effect)) :
    CommandPays plane command stage effect := by
  cases commandStep_move moved with
  | busy | dial | take | unchanged => exact .unchecked rfl rfl (Or.inl rfl)
  | missing _ asks => obtain rfl | rfl := asks <;> exact .unchecked rfl rfl (Or.inl rfl)
  | unreachable | connect | connected | connectFailed | answer | accept | acceptPublish =>
      exact .owing rfl rfl
  | spawn => exact .spawns _ _ _
  | idle => exact .idles
  | reject found =>
      refine .unrings rfl rfl rfl fun _ empty => ?_
      have listed := findRing_mem found
      rw [empty] at listed
      cases listed
  | expire =>
      refine .unrings rfl rfl rfl fun rings empty => rings ?_
      rw [empty]
      rfl
  | rejectPublish | tickPublish => exact .apart rfl (Or.inr rfl) fun _ => Or.inl rfl
  | rejectCheck =>
      split
      · exact .owing rfl rfl
      · rename_i rings
        refine .apart rfl (Or.inl rfl) fun _ => Or.inr fun quiet => ?_
        exact rings (List.isEmpty_iff.mpr quiet.2)
  | tickCheck =>
      split
      · exact .owing rfl rfl
      · rename_i busy
        refine .apart rfl (Or.inl rfl) fun _ => Or.inr fun quiet => busy ?_
        rw [quiet.1, quiet.2]
        rfl

/-! ## Consistency, step by step -/

theorem Consistent.spawn {conn : Connection} {peer : EndpointId} {listen : Option SocketAddr}
    (active : next.active = some plane.nextSession)
    (sessions : next.sessions = plane.sessions.put plane.nextSession (.new conn peer listen))
    (phase : next.phase = .connected) : Consistent next where
  phase := Or.inr (Or.inl (phase.trans (duePhase_of_active active).symm))
  peers := Or.inr (Or.inl ⟨plane.nextSession, .new conn peer listen, active,
    by rw [sessions, HashMap.get_put_self], rfl⟩)
  active number held := by
    cases active.symm.trans held
    exact ⟨.new conn peer listen, by rw [sessions, HashMap.get_put_self], rfl⟩

/-- What does not touch the calls keeps all but the phase consistent. -/
theorem Consistent.keep (consistent : Consistent plane) (active : next.active = plane.active)
    (sessions : next.sessions = plane.sessions) (peers : next.peers = plane.peers)
    (phase : next.accept.owes = true ∨ DueBut next) : Consistent next where
  phase := phase
  peers := by
    rw [peers, Plane.duePeers, active, sessions]
    exact consistent.peers
  active := by
    rw [active, sessions]
    exact consistent.active

theorem keepsCalls_apply {effect : Effect} (keeps : effect.keepsCalls = true) (plane : Plane) :
    (effect.apply plane).active = plane.active ∧
      (effect.apply plane).sessions = plane.sessions ∧
      (effect.apply plane).peers = plane.peers := by
  cases effect <;> first | exact ⟨rfl, rfl, rfl⟩ | cases keeps

/-- The debts of the command loop and the close tasks do not depend on the accept task. -/
theorem DueBut.congr (due : DueBut plane) (phase : next.phase = plane.phase)
    (active : next.active = plane.active) (ringing : next.ringing = plane.ringing)
    (sessions : next.sessions = plane.sessions)
    (command : plane.command.owes = true ∨ plane.command.checks = true ∧ plane.quiet →
      next.command.owes = true ∨ next.command.checks = true ∧ next.quiet) : DueBut next := by
  rcases due with due | owes | checks | closing
  · refine Or.inl ?_
    rw [phase, Plane.duePhase, active, ringing]
    exact due
  · exact Or.inr ((command (Or.inl owes)).imp_right Or.inl)
  · exact Or.inr ((command (Or.inr checks)).imp_right Or.inl)
  · refine Or.inr (Or.inr (Or.inr ?_))
    rw [Closing, sessions]
    exact closing

/-- Rings that leave the list matter only if they were the last. -/
theorem DueBut.unring {kept : List Ringing} (due : DueBut plane)
    (free : plane.command.owes = false) (unchecked : plane.command.checks = false)
    (rings : kept ≠ [] → plane.ringing ≠ []) (phase : next.phase = plane.phase)
    (active : next.active = plane.active) (ringing : next.ringing = kept)
    (sessions : next.sessions = plane.sessions) (checks : next.command.checks = true) :
    DueBut next := by
  have settled : plane.phase = plane.duePhase ∨ Closing plane := by
    rcases due with due | owes | ⟨busy, -⟩ | closing
    · exact Or.inl due
    · cases free.symm.trans owes
    · cases unchecked.symm.trans busy
    · exact Or.inr closing
  rcases settled with due | closing
  · cases held : plane.active with
    | some number =>
        rw [duePhase_of_active held] at due
        exact Or.inl (phase.trans (due.trans (duePhase_of_active (active.trans held)).symm))
    | none =>
        by_cases empty : kept = []
        · exact Or.inr (Or.inr (Or.inl ⟨checks, active.trans held, ringing.trans empty⟩))
        · rw [duePhase_of_rings held (rings empty)] at due
          refine Or.inl (phase.trans (due.trans (Eq.symm ?_)))
          exact duePhase_of_rings (active.trans held) (ringing ▸ empty)
  · refine Or.inr (Or.inr (Or.inr ?_))
    rw [Closing, sessions]
    exact closing

theorem consistent_accept {event : AcceptEvent} (consistent : Consistent plane)
    (orderly : Orderly config plane (.accept event))
    (stepped : step config plane (.accept event) = some next) : Consistent next := by
  obtain ⟨stage, effect, moved, named, rfl⟩ := accept_cases stepped
  unfold Orderly at orderly
  rw [named] at orderly
  cases acceptStep_pays moved with
  | owing owes keeps =>
      obtain ⟨active, sessions, peers⟩ := keepsCalls_apply keeps plane
      exact consistent.keep active sessions peers (Or.inl owes)
  | spawns conn peer listen => exact .spawn rfl rfl orderly
  | announces =>
      exact consistent.keep rfl rfl rfl
        (Or.inr (Or.inl (duePhase_of_rings orderly.1 orderly.2).symm))
  | apart free same =>
      have due : DueBut plane := consistent.phase.resolve_left fun owes => by
        cases free.symm.trans owes
      rcases same with rfl | rfl | ⟨peer, alpn, refused, rfl⟩ <;>
        exact consistent.keep rfl rfl rfl (Or.inr (due.congr rfl rfl rfl rfl id))

theorem consistent_command {event : CommandEvent} (consistent : Consistent plane)
    (orderly : Orderly config plane (.command event))
    (stepped : step config plane (.command event) = some next) : Consistent next := by
  obtain ⟨stage, effect, moved, named, rfl⟩ := command_cases stepped
  unfold Orderly at orderly
  rw [named] at orderly
  cases commandStep_pays moved with
  | owing owes keeps =>
      obtain ⟨active, sessions, peers⟩ := keepsCalls_apply keeps plane
      exact consistent.keep active sessions peers (Or.inr (Or.inr (Or.inl owes)))
  | spawns conn peer listen => exact .spawn rfl rfl orderly
  | idles =>
      exact consistent.keep rfl rfl rfl (Or.inr (Or.inl (duePhase_of_quiet orderly).symm))
  | apart free same checked =>
      have command : plane.command.owes = true ∨ plane.command.checks = true ∧ plane.quiet →
          stage.owes = true ∨ stage.checks = true ∧ plane.quiet := by
        rintro (owes | ⟨checks, quiet⟩)
        · cases free.symm.trans owes
        · exact Or.inr ⟨(checked checks).resolve_right (fun busy => busy quiet), quiet⟩
      rcases same with rfl | rfl <;>
        exact consistent.keep rfl rfl rfl
          (consistent.phase.imp_right fun due => due.congr rfl rfl rfl rfl command)
  | unrings free unchecked checks rings =>
      exact consistent.keep rfl rfl rfl (consistent.phase.imp_right fun due =>
        due.unring free unchecked rings rfl rfl rfl rfl checks)

/-- What the status has to do with a session. -/
def Session.call (session : Session) : EndpointId × Bool × Closer :=
  (session.peer, session.published, session.closer)

theorem map_call_put {sessions : HashMap Nat Session} {number : Nat} {session after : Session}
    (found : sessions.get number = some session) (same : after.call = session.call) (other : Nat) :
    ((sessions.put number after).get other).map Session.call =
      (sessions.get other).map Session.call := by
  rw [HashMap.get_put]
  split
  · rename_i here
    rw [here, found, Option.map_some, Option.map_some, same]
  · rfl

/-- Steps that keep what the status depends on keep it consistent. -/
theorem Consistent.touch (consistent : Consistent plane) (active : next.active = plane.active)
    (ringing : next.ringing = plane.ringing) (phase : next.phase = plane.phase)
    (peers : next.peers = plane.peers) (accept : next.accept = plane.accept)
    (command : next.command = plane.command)
    (calls : ∀ number, (next.sessions.get number).map Session.call =
      (plane.sessions.get number).map Session.call) : Consistent next := by
  have find : ∀ number session, plane.sessions.get number = some session →
      ∃ after, next.sessions.get number = some after ∧ after.call = session.call := by
    intro number session found
    have both := calls number
    rw [found, Option.map_some, Option.map_eq_some_iff] at both
    exact both
  refine ⟨?_, ?_, fun number held => ?_⟩
  · rw [accept]
    refine consistent.phase.imp_right ?_
    rintro (due | owes | checks | ⟨number, session, found, busy⟩)
    · refine Or.inl ?_
      rw [phase, Plane.duePhase, active, ringing]
      exact due
    · exact Or.inr (Or.inl (by rw [command]; exact owes))
    · refine Or.inr (Or.inr (Or.inl ?_))
      rw [command, Plane.quiet, active, ringing]
      exact checks
    · obtain ⟨after, present, same⟩ := find number session found
      cases after
      cases same
      exact Or.inr (Or.inr (Or.inr ⟨number, _, present, busy⟩))
  · rw [peers, active]
    rcases consistent.peers with due | ⟨number, session, held, found, pending⟩ |
      ⟨number, session, found, busy⟩
    · refine Or.inl (due.trans ?_)
      rw [Plane.duePeers, Plane.duePeers, active]
      cases plane.active with
      | none => rfl
      | some number =>
          have both := congrArg (Option.map fun call => [call.1]) (calls number)
          rw [Option.map_map, Option.map_map] at both
          exact congrArg (Option.getD · []) both.symm
    · obtain ⟨after, present, same⟩ := find number session found
      cases after
      cases same
      exact Or.inr (Or.inl ⟨number, _, held, present, pending⟩)
    · obtain ⟨after, present, same⟩ := find number session found
      cases after
      cases same
      exact Or.inr (Or.inr ⟨number, _, present, busy⟩)
  · rw [active] at held
    obtain ⟨session, found, watching⟩ := consistent.active number held
    obtain ⟨after, present, same⟩ := find number session found
    cases after
    cases same
    exact ⟨_, present, watching⟩

theorem duePeers_of_idle (active : plane.active = none) : plane.duePeers = [] := by
  rw [Plane.duePeers, active]
  rfl

theorem consistent_session {number : Nat} {event : SessionEvent} (consistent : Consistent plane)
    (orderly : Orderly config plane (.session number event))
    (stepped : step config plane (.session number event) = some next) :
    Consistent next ∧ ClosesOwn plane (.session number event) := by
  obtain ⟨session, after, effect, found, moved, named, rfl⟩ := session_cases stepped
  unfold Orderly at orderly
  rw [named] at orderly
  cases sessionStep_move moved with
  | publish unpublished =>
      obtain ⟨stored, present, watching⟩ := consistent.active number orderly
      cases found.symm.trans present
      refine ⟨⟨consistent.phase.imp_right ?_, Or.inl ?_, fun other held => ?_⟩, trivial⟩
      · rintro (due | owes | checks | ⟨other, busy, listed, closing⟩)
        · exact Or.inl due
        · exact Or.inr (Or.inl owes)
        · exact Or.inr (Or.inr (Or.inl checks))
        · refine Or.inr (Or.inr (Or.inr ⟨other, busy, ?_, closing⟩))
          have apart : other ≠ number := by
            rintro rfl
            cases found.symm.trans listed
            rw [watching] at closing
            exact closing.elim nofun nofun
          exact (HashMap.get_put_of_ne apart _ _).trans listed
      · change [session.peer] = ((plane.active.bind _).map _).getD []
        rw [orderly, Option.bind_some, HashMap.get_put_self]
        rfl
      · cases orderly.symm.trans held
        exact ⟨_, HashMap.get_put_self _ _ _, watching⟩
  | clearActive watching gone =>
      refine ⟨⟨Or.inr (Or.inr (Or.inr (Or.inr
        ⟨number, _, HashMap.get_put_self _ _ _, Or.inl rfl⟩))),
        Or.inr (Or.inr ⟨number, _, HashMap.get_put_self _ _ _, rfl⟩), nofun⟩, orderly⟩
  | clearPeers cleared =>
      refine ⟨⟨Or.inr (Or.inr (Or.inr (Or.inr
        ⟨number, _, HashMap.get_put_self _ _ _, Or.inr rfl⟩))), Or.inl ?_, ?_⟩, ?_⟩
      · refine Eq.symm ?_
        exact duePeers_of_idle orderly
      · intro other held
        cases orderly.symm.trans held
      · intro other held
        cases orderly.symm.trans held
  | clearPhase cleared =>
      refine ⟨⟨Or.inr (Or.inl (duePhase_of_quiet orderly).symm), ?_, ?_⟩, ?_⟩
      · rcases consistent.peers with due | ⟨other, busy, held, -⟩ | ⟨other, busy, listed, closing⟩
        · rw [duePeers_of_idle orderly.1] at due
          refine Or.inl (due.trans (Eq.symm ?_))
          exact duePeers_of_idle orderly.1
        · cases orderly.1.symm.trans held
        · have apart : other ≠ number := by
            rintro rfl
            cases found.symm.trans listed
            cases cleared.symm.trans closing
          exact Or.inr (Or.inr
            ⟨other, busy, (HashMap.get_put_of_ne apart _ _).trans listed, closing⟩)
      · intro other held
        cases orderly.1.symm.trans held
      · intro other held
        cases orderly.1.symm.trans held
  | bind starting free =>
      exact ⟨consistent.touch rfl rfl rfl rfl rfl rfl (map_call_put found rfl), trivial⟩
  | listenFailed unbinds =>
      refine ⟨consistent.touch rfl rfl rfl rfl rfl rfl (map_call_put found rfl), ?_⟩
      rcases unbinds with rfl | rfl <;> trivial

theorem consistent_step {event : Event} (consistent : Consistent plane)
    (orderly : Orderly config plane event) (stepped : step config plane event = some next) :
    Consistent next ∧ ClosesOwn plane event := by
  cases event with
  | accept event => exact ⟨consistent_accept consistent orderly stepped, trivial⟩
  | command event => exact ⟨consistent_command consistent orderly stepped, trivial⟩
  | session number event => exact consistent_session consistent orderly stepped
  | client i event =>
      have move := client_move stepped
      refine ⟨consistent.touch move.active move.ringing move.phase move.peers move.accept
        move.command fun number => ?_, trivial⟩
      rcases move.sessions with same | ⟨mine, was, slot, present, put⟩
      · rw [same]
      · rw [put]
        refine map_call_put present ?_ number
        rfl
  | die conn =>
      simp only [step, Option.ite_none_right_eq_some, Option.some.injEq] at stepped
      obtain ⟨-, rfl⟩ := stepped
      exact ⟨consistent.touch rfl rfl rfl rfl rfl rfl fun _ => rfl, trivial⟩

theorem consistent_start (config : Config) : Consistent (.start config) where
  phase := Or.inr (Or.inl rfl)
  peers := Or.inl rfl
  active := nofun

/-- **The published status over whole runs.** For every interleaving of rings,
accepts, rejects, dials, ring timeouts and session closings whose writes come in
their time: whenever no operation is in progress and the publish and close tasks
have run, phase and peers say what the active slot and the ring list hold, and no
close task clears what another session put there. -/
theorem phone_status_truthful (config : Config) (events : List Event)
    (orderly : AllSteps (step config) (Orderly config) (.start config) events) :
    AllStates (step config) (fun plane => Settled plane → Truthful plane)
        (.start config) events ∧
      AllSteps (step config) ClosesOwn (.start config) events := by
  obtain ⟨consistent, closes⟩ := orderly.exchange
    (fun _ _ _ held met stepped => consistent_step held met stepped) (consistent_start config)
  exact ⟨consistent.mono fun _ held settled => held.truthful settled, closes⟩

/-- Two strangers ring, the first is accepted and the second rejected. -/
def rejectWhileConnected : List Event :=
  [.accept .incoming, .accept (.handshaken 1 .forward 0), .accept .next, .accept .next,
    .accept .next, .accept .incoming, .accept (.handshaken 2 .forward 0), .accept .next,
    .accept .next, .accept .next,
    .command (.accept "1"), .command .next, .command .next, .command .next, .command .next,
    .session 0 .publish,
    .command (.reject "2"), .command .next, .command .next, .command .next, .command .next]

/-- The call goes on while the published phase is idle. -/
theorem reject_while_connected_lies :
    ¬ AllStates (step strangers) (fun plane => Settled plane → Truthful plane)
      (.start strangers) rejectWhileConnected := by
  obtain ⟨final, ran, accept, command, active, phase, sessions, alive⟩ : ∃ final,
      run (step strangers) (.start strangers) rejectWhileConnected = some final ∧
        final.accept = .accepting ∧ final.command = .selecting ∧ final.active = some 0 ∧
        final.phase = .idle ∧
        final.sessions = HashMap.put ∅ 0 { Session.new 0 1 none with published := true } ∧
        final.closed 0 = false :=
    ⟨_, rfl, rfl, rfl, rfl, rfl, rfl, rfl⟩
  intro all
  have found : final.sessions.get 0 = some { Session.new 0 1 none with published := true } := by
    rw [sessions, HashMap.get_put_self]
  have settled : Settled final := by
    refine ⟨Or.inl accept, command, fun number session present => ?_⟩
    rw [sessions] at present
    rcases HashMap.get_of_get_put present with ⟨rfl, rfl⟩ | ⟨-, empty⟩
    · exact ⟨rfl, Or.inr ⟨rfl, alive⟩⟩
    · rw [HashMap.get_empty] at empty
      cases empty
  have talking := ((all.final ran settled).connected 1).mpr ⟨0, _, active, found, rfl, alive⟩
  cases phase.symm.trans talking.1

/-- A known contact calls and hangs up. -/
def orderlyCall : List Event :=
  [.accept .incoming, .accept (.handshaken 1 .forward 0), .accept .next, .accept .next,
    .session 0 .publish, .die 0, .session 0 .close, .session 0 .close, .session 0 .close]

/-- A plane that knows every caller. -/
def friends : Config :=
  { strangers with
    book := ⟨fun _ => true, fun _ => none, fun _ _ => true, fun _ _ _ => true⟩ }

/-- The status of a call that nothing crosses is right to its end. -/
theorem orderly_call_truthful :
    (∃ final, run (step friends) (.start friends) orderlyCall = some final ∧
      final.phase = .idle ∧ final.active = none) ∧
    AllStates (step friends) (fun plane => Settled plane → Truthful plane)
        (.start friends) orderlyCall ∧
      AllSteps (step friends) ClosesOwn (.start friends) orderlyCall := by
  refine ⟨⟨_, rfl, rfl, rfl⟩, phone_status_truthful friends orderlyCall ?_⟩
  refine .cons rfl trivial (.cons rfl trivial (.cons rfl trivial (.cons rfl rfl
    (.cons rfl rfl (.cons rfl trivial (.cons rfl ?_ (.cons rfl rfl
      (.cons rfl ⟨rfl, rfl⟩ trivial))))))))
  intro active held
  cases held
  rfl

end LinkP2p.Stream.Phone
