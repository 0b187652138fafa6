import LinkP2p.Stream.PhonePlane

/-!
# Which connections the phone plane admits

A connection is carried once the accept task has let it past its busy check, or
a dial has made it: by a task, by the ring list or by a session.
-/

namespace LinkP2p.Stream.Phone

open LinkP2p.Lib LinkP2p.Lib.Transition
open LinkP2p.Tun (EndpointId)

variable {config : Config} {plane next : Plane}

/-- The session's connection has not closed. -/
def Live (plane : Plane) (number : Nat) : Prop :=
  ∃ session, plane.sessions.get number = some session ∧ plane.closed session.conn = false

/-- The connection was negotiated for forwarding streams. -/
def IsForward (plane : Plane) (conn : Connection) : Prop :=
  ∃ peer, plane.conns.get conn = some ⟨peer, .forward⟩

/-- The connection in the hands of the accept task. -/
def AcceptTask.conn : AcceptTask → Option Connection
  | .answering conn _ | .spawning conn _ | .announcing conn => some conn
  | .ringing ring => some ring.conn
  | _ => none

/-- The connection in the hands of the command loop. -/
def Command.conn : Command → Option Connection
  | .acceptPublish ring => some ring.conn
  | .answering conn _ _ | .spawning conn _ _ => some conn
  | _ => none

def Carried (plane : Plane) (conn : Connection) : Prop :=
  plane.accept.conn = some conn ∨ plane.command.conn = some conn ∨
    (∃ ring ∈ plane.ringing, ring.conn = conn) ∨
    ∃ number session, plane.sessions.get number = some session ∧ session.conn = conn

/-- At most one session is live, and every connection that rings, is set up or
belongs to a session negotiated the forwarding protocol. -/
structure Admitted (plane : Plane) : Prop where
  single : ∀ first second, Live plane first → Live plane second → first = second
  forward : ∀ conn, Carried plane conn → IsForward plane conn

/-- Connections and sessions are numbered in the order they appear. -/
structure Numbered (plane : Plane) : Prop where
  conns : ∀ conn record, plane.conns.get conn = some record → conn < plane.nextConn
  sessions : ∀ number session, plane.sessions.get number = some session →
    number < plane.nextSession

/-! ## What the tasks carry -/

/-- How a task's effect moves the connection in its hands. -/
def Carries (plane : Plane) (before after : Option Connection) : Effect → Prop
  | .arrive _ _ refused => after = if refused then none else some plane.nextConn
  | .spawn conn _ _ => before = some conn ∧ after = none
  | .pushRing ring => before = some ring.conn ∧ after = before
  | .unring kept _ => kept ⊆ plane.ringing ∧
      ∀ conn, after = some conn → ∃ ring ∈ plane.ringing, ring.conn = conn
  | _ => after = none ∨ after = before

theorem acceptStep_carries {task stage : AcceptTask} {event : AcceptEvent} {effect : Effect}
    (moved : acceptStep config plane task event = some (stage, effect)) :
    Carries plane task.conn stage.conn effect := by
  cases acceptStep_move moved with
  | incoming | failed | announce | publish => exact Or.inl rfl
  | refuse | known | ring => rfl
  | answer => exact Or.inr rfl
  | spawn | push => exact ⟨rfl, rfl⟩

theorem findRing_mem {token : String} {ring : Ringing}
    (found : findRing config plane token = some ring) : ring ∈ plane.ringing :=
  List.mem_of_find?_eq_some found

theorem commandStep_carries {command stage : Command} {event : CommandEvent} {effect : Effect}
    (moved : commandStep config plane command event = some (stage, effect)) :
    Carries plane command.conn stage.conn effect := by
  cases commandStep_move moved with
  | busy | dial | unreachable | connect | connectFailed | idle | missing | rejectPublish
      | unchanged | tickPublish => exact Or.inl rfl
  | take taken =>
      refine Or.inl ?_
      obtain ⟨_, -, rfl⟩ | ⟨_, -, rfl⟩ | ⟨_, -, rfl⟩ := taken <;> rfl
  | connected => rfl
  | answer | acceptPublish => exact Or.inr rfl
  | spawn => exact ⟨rfl, rfl⟩
  | accept found =>
      exact ⟨List.eraseP_subset, fun conn same => ⟨_, findRing_mem found, Option.some.inj same⟩⟩
  | reject => exact ⟨List.eraseP_subset, nofun⟩
  | expire => exact ⟨List.filter_subset_self _, nofun⟩
  | rejectCheck | tickCheck =>
      refine Or.inl ?_
      split <;> rfl

/-! ## What an effect admits -/

/-- An inbound connection that is not refused negotiated the forwarding protocol,
and a session is spawned only while none is live; with a dead connection it may
be spawned beside a live one that is not active. -/
def Admits (plane : Plane) : Effect → Prop
  | .arrive _ alpn refused => refused = false → alpn = .forward
  | .spawn conn _ _ =>
      (∀ number, plane.active = some number → ¬ Live plane number) ∧
        (plane.closed conn = true ∨ ∀ number, ¬ Live plane number)
  | _ => True

/-- No session that is still live is overwritten in the active slot. -/
def KeepsLive (plane : Plane) : Effect → Prop
  | .spawn _ _ _ => ∀ number, plane.active = some number → ¬ Live plane number
  | _ => True

/-- A step that admits no connection: it may close some and let go of some. -/
structure Quiet (plane next : Plane) : Prop where
  conns : ∀ conn record, plane.conns.get conn = some record → next.conns.get conn = some record
  closed : ∀ number session, plane.sessions.get number = some session →
    plane.closed session.conn = true → next.closed session.conn = true
  sessions : ∀ number session, next.sessions.get number = some session →
    ∃ old, plane.sessions.get number = some old ∧ old.conn = session.conn
  carried : ∀ conn, Carried next conn → Carried plane conn

theorem Quiet.live (quiet : Quiet plane next) {number : Nat} (live : Live next number) :
    Live plane number := by
  obtain ⟨session, found, alive⟩ := live
  obtain ⟨old, was, same⟩ := quiet.sessions number session found
  refine ⟨old, was, ?_⟩
  by_contra dead
  have gone := quiet.closed number old was (by simpa using dead)
  rw [same, alive] at gone
  cases gone

theorem Quiet.admitted (quiet : Quiet plane next) (admitted : Admitted plane) :
    Admitted next where
  single first second firstLive secondLive :=
    admitted.single first second (quiet.live firstLive) (quiet.live secondLive)
  forward conn carried := by
    obtain ⟨peer, record⟩ := admitted.forward conn (quiet.carried conn carried)
    exact ⟨peer, quiet.conns conn _ record⟩

/-- A task performs the effect, with these connections in its hands before and after. -/
structure Performs (plane next : Plane) (before after : Option Connection) (effect : Effect) :
    Prop where
  conns : next.conns = (effect.apply plane).conns
  closed : next.closed = (effect.apply plane).closed
  sessions : next.sessions = (effect.apply plane).sessions
  ringing : next.ringing = (effect.apply plane).ringing
  carries : Carries plane before after effect
  had : ∀ conn, before = some conn → Carried plane conn
  hands : ∀ conn, next.accept.conn = some conn ∨ next.command.conn = some conn →
    after = some conn ∨ Carried plane conn
  has : ∀ conn, after = some conn → Carried next conn

@[simp]
theorem apply_accept (plane : Plane) (effect : Effect) :
    (effect.apply plane).accept = plane.accept := by
  cases effect <;> rfl

@[simp]
theorem apply_command (plane : Plane) (effect : Effect) :
    (effect.apply plane).command = plane.command := by
  cases effect <;> rfl

theorem accept_performs {event : AcceptEvent}
    (stepped : step config plane (.accept event) = some next) :
    Performs plane next plane.accept.conn next.accept.conn
      (effectOf config plane (.accept event)) := by
  obtain ⟨stage, effect, moved, named, rfl⟩ := accept_cases stepped
  rw [named]
  refine ⟨rfl, rfl, rfl, rfl, acceptStep_carries moved, fun conn held => Or.inl held, ?_,
    fun conn held => Or.inl held⟩
  rintro conn (held | held)
  · exact Or.inl held
  · change (effect.apply plane).command.conn = some conn at held
    rw [apply_command] at held
    exact Or.inr (Or.inr (Or.inl held))

theorem command_performs {event : CommandEvent}
    (stepped : step config plane (.command event) = some next) :
    Performs plane next plane.command.conn next.command.conn
      (effectOf config plane (.command event)) := by
  obtain ⟨stage, effect, moved, named, rfl⟩ := command_cases stepped
  rw [named]
  refine ⟨rfl, rfl, rfl, rfl, commandStep_carries moved, fun conn held => Or.inr (Or.inl held),
    ?_, fun conn held => Or.inr (Or.inl held)⟩
  rintro conn (held | held)
  · change (effect.apply plane).accept.conn = some conn at held
    rw [apply_accept] at held
    exact Or.inr (Or.inl held)
  · exact Or.inl held

section Perform

variable {before after : Option Connection} {effect : Effect}

/-- Every ring after an effect is of a connection carried before. -/
theorem Performs.rings (performs : Performs plane next before after effect) :
    ∀ ring ∈ next.ringing, Carried plane ring.conn := by
  have listed : ∀ ring ∈ plane.ringing, Carried plane ring.conn :=
    fun ring member => Or.inr (Or.inr (Or.inl ⟨ring, member, rfl⟩))
  rw [performs.ringing]
  have carries := performs.carries
  intro ring member
  cases effect with
  | pushRing pushed =>
      rcases List.mem_append.mp member with old | new
      · exact listed ring old
      · rw [List.mem_singleton.mp new]
        exact performs.had _ carries.1
  | unring kept gone => exact listed ring (carries.1 member)
  | _ => exact listed ring member

/-- Without a new connection a task has in its hands what was carried before. -/
theorem Performs.kept (performs : Performs plane next before after effect)
    (calm : ∀ peer alpn, effect ≠ .arrive peer alpn false) :
    ∀ conn, after = some conn → Carried plane conn := by
  have carries := performs.carries
  have had := performs.had
  intro conn held
  cases effect with
  | arrive peer alpn refused =>
      cases refused with
      | false => exact absurd rfl (calm peer alpn)
      | true => cases carries.symm.trans held
  | spawn conn peer listen => cases carries.2.symm.trans held
  | pushRing ring => exact had conn (carries.2.symm.trans held)
  | unring kept gone => exact Or.inr (Or.inr (Or.inl (carries.2 conn held)))
  | silent | setPhase | setPeers | clearActive | publishPending =>
      rcases carries with empty | same
      · cases empty.symm.trans held
      · exact had conn (same.symm.trans held)

/-- What is carried after an effect is in the hands of its task, in a session, or
was carried before. -/
theorem Performs.carried (performs : Performs plane next before after effect) {conn : Connection}
    (carried : Carried next conn) :
    after = some conn ∨ Carried plane conn ∨
      ∃ number session, next.sessions.get number = some session ∧ session.conn = conn := by
  rcases carried with held | held | ⟨ring, listed, rfl⟩ | session
  · exact (performs.hands conn (Or.inl held)).imp_right Or.inl
  · exact (performs.hands conn (Or.inr held)).imp_right Or.inl
  · exact Or.inr (Or.inl (performs.rings ring listed))
  · exact Or.inr (Or.inr session)

/-- An effect without a new connection or session is quiet. -/
theorem Performs.quiet (performs : Performs plane next before after effect)
    (calm : (∀ peer alpn refused, effect ≠ .arrive peer alpn refused) ∧
      ∀ conn peer listen, effect ≠ .spawn conn peer listen) : Quiet plane next := by
  have sessions : next.sessions = plane.sessions := by
    rw [performs.sessions]
    cases effect <;> first | rfl | exact absurd rfl (calm.2 _ _ _)
  have conns : next.conns = plane.conns := by
    rw [performs.conns]
    cases effect <;> first | rfl | exact absurd rfl (calm.1 _ _ _)
  have closed : ∀ conn, plane.closed conn = true → next.closed conn = true := by
    intro conn dead
    rw [performs.closed]
    cases effect with
    | unring kept gone => exact Bool.or_eq_true_iff.mpr (Or.inl dead)
    | arrive peer alpn refused => exact absurd rfl (calm.1 peer alpn refused)
    | _ => exact dead
  refine ⟨fun conn record found => by rw [conns]; exact found,
    fun number session _ => closed session.conn, fun number session found => ?_,
    fun conn carried => ?_⟩
  · rw [sessions] at found
    exact ⟨session, found, rfl⟩
  · rcases performs.carried carried with held | old | ⟨number, session, found, same⟩
    · exact performs.kept (fun peer alpn => calm.1 peer alpn false) conn held
    · exact old
    · rw [sessions] at found
      exact Or.inr (Or.inr (Or.inr ⟨number, session, found, same⟩))

theorem Admitted.lt_nextConn (numbered : Numbered plane) (admitted : Admitted plane)
    {conn : Connection} (carried : Carried plane conn) : conn < plane.nextConn := by
  obtain ⟨peer, record⟩ := admitted.forward conn carried
  exact numbered.conns conn _ record

/-- A new connection is admitted exactly when it is refused or of the forwarding
protocol. -/
theorem Performs.admitted_arrive {peer : EndpointId} {alpn : Alpn} {refused : Bool}
    (performs : Performs plane next before after (.arrive peer alpn refused))
    (numbered : Numbered plane) (admitted : Admitted plane) :
    Admitted next ↔ (refused = false → alpn = .forward) := by
  have conns : next.conns = plane.conns.put plane.nextConn ⟨peer, alpn⟩ := performs.conns
  have sessions : next.sessions = plane.sessions := performs.sessions
  have older : ∀ conn, Carried plane conn → conn ≠ plane.nextConn := fun conn carried =>
    Nat.ne_of_lt (admitted.lt_nextConn numbered carried)
  constructor
  · intro after_ok accepted
    have held : after = some plane.nextConn := by
      have carries : after = if refused then none else some plane.nextConn := performs.carries
      rw [carries, accepted]
      rfl
    obtain ⟨other, record⟩ := after_ok.forward _ (performs.has _ held)
    rw [conns, HashMap.get_put_self] at record
    cases record
    rfl
  · intro forward
    have live : ∀ number, Live next number → Live plane number := by
      rintro number ⟨session, found, alive⟩
      rw [sessions] at found
      have mine := older session.conn (Or.inr (Or.inr (Or.inr ⟨number, session, found, rfl⟩)))
      refine ⟨session, found, ?_⟩
      have updated : next.closed = Function.update plane.closed plane.nextConn refused :=
        performs.closed
      rw [updated, Function.update_of_ne mine] at alive
      exact alive
    refine ⟨fun first second one two => admitted.single _ _ (live _ one) (live _ two), ?_⟩
    intro conn carried
    have kept : Carried plane conn → IsForward next conn := by
      intro old
      obtain ⟨owner, record⟩ := admitted.forward conn old
      exact ⟨owner, by rw [conns, HashMap.get_put_of_ne (older conn old)]; exact record⟩
    rcases performs.carried carried with held | old | ⟨number, session, found, same⟩
    · have carries : after = if refused then none else some plane.nextConn := performs.carries
      rw [carries] at held
      split at held
      · cases held
      · rename_i accepted
        cases held
        exact ⟨peer, by rw [conns, HashMap.get_put_self, forward (by simpa using accepted)]⟩
    · exact kept old
    · rw [sessions] at found
      exact kept (Or.inr (Or.inr (Or.inr ⟨number, session, found, same⟩)))

theorem Live.ne_nextSession {number : Nat} (live : Live plane number)
    (numbered : Numbered plane) : number ≠ plane.nextSession := by
  obtain ⟨session, found, -⟩ := live
  exact Nat.ne_of_lt (numbered.sessions number session found)

/-- The live sessions after a spawn: the old ones, and the new one unless its
connection is dead. -/
theorem Performs.live_spawn_iff {conn : Connection} {peer : EndpointId}
    {listen : Option SocketAddr} {number : Nat}
    (performs : Performs plane next before after (.spawn conn peer listen))
    (numbered : Numbered plane) :
    Live next number ↔
      Live plane number ∨ number = plane.nextSession ∧ plane.closed conn = false := by
  have closed : next.closed = plane.closed := performs.closed
  have sessions : next.sessions = plane.sessions.put plane.nextSession (.new conn peer listen) :=
    performs.sessions
  constructor
  · rintro ⟨session, found, alive⟩
    rw [sessions] at found
    rw [closed] at alive
    rcases HashMap.get_of_get_put found with ⟨same, rfl⟩ | ⟨-, before⟩
    · exact Or.inr ⟨same, alive⟩
    · exact Or.inl ⟨session, before, alive⟩
  · rintro (live | ⟨rfl, alive⟩)
    · have other := live.ne_nextSession numbered
      obtain ⟨session, found, alive⟩ := live
      exact ⟨session, by rw [sessions, HashMap.get_put_of_ne other]; exact found,
        by rw [closed]; exact alive⟩
    · exact ⟨.new conn peer listen, by rw [sessions, HashMap.get_put_self],
        by rw [closed]; exact alive⟩

/-- A session is admitted beside the others exactly when it does not add a
second live one. -/
theorem Performs.admitted_spawn {conn : Connection} {peer : EndpointId}
    {listen : Option SocketAddr}
    (performs : Performs plane next before after (.spawn conn peer listen))
    (numbered : Numbered plane) (admitted : Admitted plane) :
    Admitted next ↔ (plane.closed conn = true ∨ ∀ number, ¬ Live plane number) := by
  have conns : next.conns = plane.conns := performs.conns
  constructor
  · intro good
    by_contra clash
    rw [not_or, not_forall] at clash
    obtain ⟨alive, number, living⟩ := clash
    rw [not_not] at living
    have older : Live next number := (performs.live_spawn_iff numbered).mpr (Or.inl living)
    have newest : Live next plane.nextSession :=
      (performs.live_spawn_iff numbered).mpr (Or.inr ⟨rfl, Bool.eq_false_of_not_eq_true alive⟩)
    exact living.ne_nextSession numbered (good.single _ _ older newest)
  · intro room
    refine ⟨fun first second one two => ?_, fun other carried => ?_⟩
    · rw [performs.live_spawn_iff numbered] at one two
      rcases room with dead | none
      · have older : ∀ number, Live plane number ∨ number = plane.nextSession ∧
            plane.closed conn = false → Live plane number := fun number live =>
          live.resolve_right fun fresh => by cases dead.symm.trans fresh.2
        exact admitted.single _ _ (older _ one) (older _ two)
      · rw [(one.resolve_left (none first)).1, (two.resolve_left (none second)).1]
    · have had : Carried plane other := by
        rcases performs.carried carried with held | old | ⟨number, session, found, same⟩
        · exact performs.kept nofun other held
        · exact old
        · rw [performs.sessions] at found
          rcases HashMap.get_of_get_put found with ⟨-, rfl⟩ | ⟨-, before⟩
          · rw [← same]
            exact performs.had conn performs.carries.1
          · exact Or.inr (Or.inr (Or.inr ⟨number, session, before, same⟩))
      obtain ⟨owner, record⟩ := admitted.forward other had
      exact ⟨owner, by rw [conns]; exact record⟩

/-- An effect keeps the plane admitted and overwrites no live session exactly
when it admits what it brings. -/
theorem Performs.admitted_iff (performs : Performs plane next before after effect)
    (numbered : Numbered plane) (admitted : Admitted plane) :
    Admitted next ∧ KeepsLive plane effect ↔ Admits plane effect := by
  cases effect with
  | arrive peer alpn refused =>
      rw [performs.admitted_arrive numbered admitted]
      exact and_iff_left trivial
  | spawn conn peer listen =>
      rw [performs.admitted_spawn numbered admitted, and_comm]
      rfl
  | _ =>
      have calm := performs.quiet ⟨nofun, nofun⟩
      exact ⟨fun _ => trivial, fun _ => ⟨calm.admitted admitted, trivial⟩⟩

end Perform

/-! ## Steps and runs -/

theorem client_quiet {i : Nat} {event : ClientEvent}
    (stepped : step config plane (.client i event) = some next) : Quiet plane next := by
  have move := client_move stepped
  have sessions : ∀ number session, next.sessions.get number = some session →
      ∃ old, plane.sessions.get number = some old ∧ old.conn = session.conn := by
    intro number session found
    rcases move.sessions with same | ⟨mine, was, slot, present, put⟩
    · rw [same] at found
      exact ⟨session, found, rfl⟩
    · rw [put] at found
      rcases HashMap.get_of_get_put found with ⟨rfl, rfl⟩ | ⟨-, before⟩
      · exact ⟨was, present, rfl⟩
      · exact ⟨session, before, rfl⟩
  refine ⟨fun conn record found => by rw [move.conns]; exact found,
    fun _ session _ => move.closed session.conn, sessions, ?_⟩
  rintro conn (held | held | ⟨ring, listed, same⟩ | ⟨number, session, found, same⟩)
  · exact Or.inl (by rw [← move.accept]; exact held)
  · exact Or.inr (Or.inl (by rw [← move.command]; exact held))
  · exact Or.inr (Or.inr (Or.inl ⟨ring, by rw [← move.ringing]; exact listed, same⟩))
  · obtain ⟨old, was, kept⟩ := sessions number session found
    exact Or.inr (Or.inr (Or.inr ⟨number, old, was, kept.trans same⟩))

theorem session_quiet {number : Nat} {event : SessionEvent}
    (stepped : step config plane (.session number event) = some next) : Quiet plane next := by
  obtain ⟨session, after, effect, found, moved, -, rfl⟩ := session_cases stepped
  have move := sessionStep_move moved
  have put : ∀ other stored, (plane.sessions.put number after).get other = some stored →
      ∃ old, plane.sessions.get other = some old ∧ old.conn = stored.conn := by
    intro other stored present
    rcases HashMap.get_of_get_put present with ⟨rfl, rfl⟩ | ⟨-, before⟩
    · exact ⟨session, found, move.conn.symm⟩
    · exact ⟨stored, before, rfl⟩
  have carried : ∀ conn,
      Carried { plane with sessions := plane.sessions.put number after } conn →
        Carried plane conn := by
    rintro conn (held | held | ring | ⟨other, stored, present, same⟩)
    · exact Or.inl held
    · exact Or.inr (Or.inl held)
    · exact Or.inr (Or.inr (Or.inl ring))
    · obtain ⟨old, was, kept⟩ := put other stored present
      exact Or.inr (Or.inr (Or.inr ⟨other, old, was, kept.trans same⟩))
  rcases move.effect with rfl | rfl | ⟨ids, rfl⟩ | rfl <;>
    exact ⟨fun _ _ found => found, fun _ _ _ gone => gone, put, carried⟩

theorem die_quiet {conn : Connection}
    (stepped : step config plane (.die conn) = some next) : Quiet plane next := by
  simp only [step, Option.ite_none_right_eq_some, Option.some.injEq] at stepped
  obtain ⟨-, rfl⟩ := stepped
  refine ⟨fun _ _ found => found, fun _ session _ gone => ?_,
    fun _ session found => ⟨session, found, rfl⟩, fun _ carried => carried⟩
  change Function.update plane.closed conn true session.conn = true
  rw [Function.update_apply, gone, ite_self]

/-- The numbering after an effect that a task performs. -/
theorem Numbered.apply (numbered : Numbered plane) (effect : Effect) :
    Numbered (effect.apply plane) := by
  cases effect with
  | arrive peer alpn refused =>
      refine ⟨fun conn record found => ?_, numbered.sessions⟩
      rcases HashMap.get_of_get_put found with ⟨rfl, -⟩ | ⟨-, before⟩
      · exact Nat.lt_succ_self _
      · exact Nat.lt_succ_of_lt (numbered.conns conn record before)
  | spawn conn peer listen =>
      refine ⟨numbered.conns, fun number session found => ?_⟩
      rcases HashMap.get_of_get_put found with ⟨rfl, -⟩ | ⟨-, before⟩
      · exact Nat.lt_succ_self _
      · exact Nat.lt_succ_of_lt (numbered.sessions number session before)
  | _ => exact ⟨numbered.conns, numbered.sessions⟩

theorem numbered_step {event : Event} (numbered : Numbered plane)
    (stepped : step config plane event = some next) : Numbered next := by
  cases event with
  | accept event =>
      obtain ⟨stage, effect, -, -, rfl⟩ := accept_cases stepped
      exact ⟨(numbered.apply effect).conns, (numbered.apply effect).sessions⟩
  | command event =>
      obtain ⟨stage, effect, -, -, rfl⟩ := command_cases stepped
      exact ⟨(numbered.apply effect).conns, (numbered.apply effect).sessions⟩
  | session number event =>
      obtain ⟨session, after, effect, found, moved, -, rfl⟩ := session_cases stepped
      have sessions : ∀ other stored, (plane.sessions.put number after).get other = some stored →
          other < plane.nextSession := by
        intro other stored present
        rcases HashMap.get_of_get_put present with ⟨rfl, -⟩ | ⟨-, before⟩
        · exact numbered.sessions _ session found
        · exact numbered.sessions other stored before
      rcases (sessionStep_move moved).effect with rfl | rfl | ⟨ids, rfl⟩ | rfl <;>
        exact ⟨numbered.conns, sessions⟩
  | client i event =>
      have move := client_move stepped
      refine ⟨fun conn record found => ?_, fun number session found => ?_⟩
      · rw [move.conns] at found
        rw [move.nextConn]
        exact numbered.conns conn record found
      · rw [move.nextSession]
        rcases move.sessions with same | ⟨mine, was, slot, present, put⟩
        · rw [same] at found
          exact numbered.sessions number session found
        · rw [put] at found
          rcases HashMap.get_of_get_put found with ⟨rfl, -⟩ | ⟨-, before⟩
          · exact numbered.sessions _ was present
          · exact numbered.sessions number session before
  | die conn =>
      simp only [step, Option.ite_none_right_eq_some, Option.some.injEq] at stepped
      obtain ⟨-, rfl⟩ := stepped
      exact ⟨numbered.conns, numbered.sessions⟩

theorem numbered_start (config : Config) : Numbered (.start config) :=
  ⟨fun conn record found => absurd found (by simp [Plane.start]),
    fun number session found => absurd found (by simp [Plane.start])⟩

theorem admitted_start (config : Config) : Admitted (.start config) where
  single first second live := by
    obtain ⟨session, found, -⟩ := live
    exact absurd found (by simp [Plane.start])
  forward conn carried := by
    rcases carried with held | held | ⟨ring, listed, -⟩ | ⟨number, session, found, -⟩
    · cases held
    · cases held
    · exact absurd listed List.not_mem_nil
    · exact absurd found (by simp [Plane.start])

/-- A quiet step neither brings nor overwrites anything. -/
theorem calm_effect {event : Event} (apart : (∀ event', event ≠ .accept event') ∧
      ∀ event', event ≠ .command event')
    (stepped : step config plane event = some next) :
    Admits plane (effectOf config plane event) ∧ KeepsLive plane (effectOf config plane event) := by
  cases event with
  | accept event => exact absurd rfl (apart.1 event)
  | command event => exact absurd rfl (apart.2 event)
  | session number event =>
      obtain ⟨session, after, effect, -, moved, named, -⟩ := session_cases stepped
      rw [named]
      rcases (sessionStep_move moved).effect with rfl | rfl | ⟨ids, rfl⟩ | rfl <;>
        exact ⟨trivial, trivial⟩
  | client i event | die conn => exact ⟨trivial, trivial⟩

theorem admitted_step_iff {event : Event} (numbered : Numbered plane) (admitted : Admitted plane)
    (stepped : step config plane event = some next) :
    Admitted next ∧ KeepsLive plane (effectOf config plane event) ↔
      Admits plane (effectOf config plane event) := by
  have rest : Quiet plane next → ((∀ event', event ≠ .accept event') ∧
      ∀ event', event ≠ .command event') →
      (Admitted next ∧ KeepsLive plane (effectOf config plane event) ↔
        Admits plane (effectOf config plane event)) := fun quiet apart =>
    have calm := calm_effect apart stepped
    ⟨fun _ => calm.1, fun _ => ⟨quiet.admitted admitted, calm.2⟩⟩
  cases event with
  | accept event => exact (accept_performs stepped).admitted_iff numbered admitted
  | command event => exact (command_performs stepped).admitted_iff numbered admitted
  | session number event => exact rest (session_quiet stepped) ⟨nofun, nofun⟩
  | client i event => exact rest (client_quiet stepped) ⟨nofun, nofun⟩
  | die conn => exact rest (die_quiet stepped) ⟨nofun, nofun⟩

/-- **Admission over whole runs.** For every interleaving of the accept task, the
command loop, the tasks of the sessions, their clients and the network: at most
one session is live, everything that rings, is set up or runs negotiated the
forwarding protocol, and no live active session is overwritten, exactly when each
inbound connection that passes the busy check negotiated it and each session is
spawned while none is live (with a dead connection: while the active one is not). -/
theorem phone_admission_iff (config : Config) (events : List Event) :
    AllStates (step config) Admitted (.start config) events ∧
        AllSteps (step config)
          (fun plane event => KeepsLive plane (effectOf config plane event))
          (.start config) events ↔
      AllSteps (step config)
        (fun plane event => Admits plane (effectOf config plane event))
        (.start config) events :=
  allStates_and_allSteps_iff (fun _ _ _ => numbered_step)
    (fun _ _ _ => admitted_step_iff) (numbered_start config) (admitted_start config) events

/-- A plane without contacts. -/
def strangers : Config := ⟨⟨fun _ => false, fun _ => none, fun _ _ => true, fun _ _ _ => true⟩,
  none, 4, rfl⟩

/-- Someone pings the node. -/
def pingRings : List Event :=
  [.accept .incoming, .accept (.handshaken 1 .ping 0), .accept .next, .accept .next]

/-- The ping connection rings and changes the published phase. -/
theorem ping_rings :
    ∃ final, run (step strangers) (.start strangers) pingRings = some final ∧
      final.phase = .ringing ∧ final.ringing = [⟨1, 0, 0⟩] ∧
      ¬ AllStates (step strangers) Admitted (.start strangers) pingRings := by
  refine ⟨_, rfl, rfl, rfl, fun all => ?_⟩
  have admitted := all.final rfl
  obtain ⟨peer, record⟩ := admitted.forward 0
    (Or.inr (Or.inr (Or.inl ⟨⟨1, 0, 0⟩, List.mem_singleton_self _, rfl⟩)))
  have stored : some (⟨1, .ping⟩ : Conn) = some ⟨peer, .forward⟩ := record
  cases stored

end LinkP2p.Stream.Phone
