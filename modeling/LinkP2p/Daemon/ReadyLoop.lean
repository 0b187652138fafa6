import LinkP2p.Daemon.UpOptions
import LinkP2p.Lib.Transition

/-!
# The wait for the ready line

The parent of a daemon listens on a port of the loopback interface until a connection
sends a line with the nonce that only the worker was given. The TUN daemon and the stream
daemon have the same loop. It reads one line of each connection before it accepts the next.
-/

namespace LinkP2p.Daemon.Ready

open LinkP2p.Daemon (stripPrefix)
open LinkP2p.Identity (Text utf8Decode utf8Encode)
open LinkP2p.Lib.Transition

/-! ## Connections -/

inductive Ending where
  | eof
  | failed
  deriving DecidableEq, Repr

structure Conn where
  /-- The worker has one connection, the others are strays. -/
  worker : Bool
  bytes : List UInt8
  ending : Option Ending
  deriving DecidableEq, Repr

def newline : UInt8 := 10

/-- What `read_line` has by now. -/
inductive Reading where
  | waits
  | fails
  | line (text : Text)
  deriving DecidableEq, Repr

def Reading.ofBytes (bytes : List UInt8) : Reading :=
  match utf8Decode bytes with
  | some text => .line text
  | none => .fails

/-- `read_line`: a line up to its newline, or what there is at the end of the stream. -/
def Conn.readLine (conn : Conn) : Reading :=
  if newline ∈ conn.bytes then .ofBytes (conn.bytes.takeWhile (· ≠ newline) ++ [newline])
  else
    match conn.ending with
    | none => .waits
    | some .eof => .ofBytes conn.bytes
    | some .failed => .fails

/-! ## The loop -/

inductive Phase where
  | accepting
  /-- The connection that was accepted last is read. -/
  | reading
  | ready (rest : Text)
  /-- The worker is killed. -/
  | timedOut
  deriving DecidableEq, Repr

structure State where
  /-- In the order in which they were made. -/
  conns : List Conn
  accepted : Nat
  phase : Phase

def start : State := ⟨[], 0, .accepting⟩

/-- What the parent gave the worker, and what the worker has to say. -/
structure Setup where
  nonce : Text
  suffix : Text

def noncePrefix (setup : Setup) : Text := setup.nonce ++ [' ']

/-- `ready_line` -/
def readyLine (setup : Setup) : Text :=
  if setup.nonce ≠ [] then setup.nonce ++ ' ' :: setup.suffix else setup.suffix

/-- What the worker writes. -/
def message (setup : Setup) : List UInt8 := utf8Encode (readyLine setup ++ ['\n'])

inductive Event where
  | connect (worker : Bool)
  | send (i : Nat) (bytes : List UInt8)
  | finish (i : Nat) (ending : Ending)
  | accept
  | acceptFails
  | read
  | readFails
  | timeout
  deriving DecidableEq, Repr

def State.listening (state : State) : Bool :=
  state.phase = .accepting || state.phase = .reading

/-- The connection that is read. -/
def State.current (state : State) : Option Conn :=
  if state.phase = .reading then state.conns[state.accepted - 1]? else none

/-- After a line, or an error. -/
def afterRead (setup : Setup) : Reading → Option Phase
  | .waits => none
  | .fails => some .accepting
  | .line text =>
      match stripPrefix (noncePrefix setup) text with
      | some rest => some (.ready rest)
      | none => some .accepting

def step (setup : Setup) (state : State) : Event → Option State
  | .connect worker =>
      if state.listening && !(worker && state.conns.any Conn.worker) then
        some { state with conns := state.conns ++ [⟨worker, [], none⟩] }
      else none
  | .send i bytes => do
      let conn ← state.conns[i]?
      if conn.ending.isNone &&
          (!conn.worker || (conn.bytes ++ bytes).isPrefixOf (message setup)) then
        some { state with conns := state.conns.set i { conn with bytes := conn.bytes ++ bytes } }
      else none
  | .finish i ending => do
      let conn ← state.conns[i]?
      if conn.ending.isNone then
        some { state with conns := state.conns.set i { conn with ending := some ending } }
      else none
  | .accept =>
      if state.phase = .accepting && state.accepted < state.conns.length then
        some { state with accepted := state.accepted + 1, phase := .reading }
      else none
  | .acceptFails => if state.phase = .accepting then some state else none
  | .read => do
      let conn ← state.current
      let phase ← afterRead setup conn.readLine
      some { state with phase }
  | .readFails => do
      let conn ← state.current
      if conn.ending = some .failed then some { state with phase := .accepting } else none
  | .timeout => if state.listening then some { state with phase := .timedOut } else none

/-! ## What a step does -/

inductive Move (setup : Setup) (state : State) : Event → State → Prop
  | connect (worker : Bool) :
      Move setup state (.connect worker)
        { state with conns := state.conns ++ [⟨worker, [], none⟩] }
  | send {i : Nat} {conn : Conn} (bytes : List UInt8) (found : state.conns[i]? = some conn)
      (isOpen : conn.ending = none) :
      Move setup state (.send i bytes)
        { state with conns := state.conns.set i { conn with bytes := conn.bytes ++ bytes } }
  | finish {i : Nat} {conn : Conn} (ending : Ending) (found : state.conns[i]? = some conn)
      (isOpen : conn.ending = none) :
      Move setup state (.finish i ending)
        { state with conns := state.conns.set i { conn with ending := some ending } }
  | accept (idle : state.phase = .accepting) (waiting : state.accepted < state.conns.length) :
      Move setup state .accept { state with accepted := state.accepted + 1, phase := .reading }
  | acceptFails : Move setup state .acceptFails state
  | read {conn : Conn} {phase : Phase} (current : state.current = some conn)
      (after : afterRead setup conn.readLine = some phase) :
      Move setup state .read { state with phase }
  | readFails : Move setup state .readFails { state with phase := .accepting }
  | timeout : Move setup state .timeout { state with phase := .timedOut }

theorem step_move {setup : Setup} {state next : State} {event : Event}
    (stepped : step setup state event = some next) : Move setup state event next := by
  cases event with
  | connect worker =>
      rw [step] at stepped
      obtain ⟨-, same⟩ := Option.ite_none_right_eq_some.mp stepped
      cases same
      exact .connect worker
  | send i bytes =>
      obtain ⟨conn, found, taken⟩ := Option.bind_eq_some_iff.mp stepped
      obtain ⟨guard, same⟩ := Option.ite_none_right_eq_some.mp taken
      cases same
      exact .send bytes found (Option.isNone_iff_eq_none.mp (Bool.and_eq_true_iff.mp guard).1)
  | finish i ending =>
      obtain ⟨conn, found, taken⟩ := Option.bind_eq_some_iff.mp stepped
      obtain ⟨guard, same⟩ := Option.ite_none_right_eq_some.mp taken
      cases same
      exact .finish ending found (Option.isNone_iff_eq_none.mp guard)
  | accept =>
      rw [step] at stepped
      obtain ⟨guard, same⟩ := Option.ite_none_right_eq_some.mp stepped
      obtain ⟨idle, waiting⟩ := Bool.and_eq_true_iff.mp guard
      cases same
      exact .accept (of_decide_eq_true idle) (of_decide_eq_true waiting)
  | acceptFails =>
      rw [step] at stepped
      obtain ⟨-, same⟩ := Option.ite_none_right_eq_some.mp stepped
      cases same
      exact .acceptFails
  | read =>
      obtain ⟨conn, current, taken⟩ := Option.bind_eq_some_iff.mp stepped
      obtain ⟨phase, after, same⟩ := Option.bind_eq_some_iff.mp taken
      cases same
      exact .read current after
  | readFails =>
      obtain ⟨conn, current, taken⟩ := Option.bind_eq_some_iff.mp stepped
      obtain ⟨-, same⟩ := Option.ite_none_right_eq_some.mp taken
      cases same
      exact .readFails
  | timeout =>
      rw [step] at stepped
      obtain ⟨-, same⟩ := Option.ite_none_right_eq_some.mp stepped
      cases same
      exact .timeout

/-- A connection goes on without taking back what was read from it. -/
structure Conn.Continues (conn later : Conn) : Prop where
  worker : later.worker = conn.worker
  line : ∀ text, conn.readLine = .line text → later.readLine = .line text
  waits : later.readLine = .waits → conn.readLine = .waits
  newline : newline ∈ conn.bytes → newline ∈ later.bytes

theorem takeWhile_append_of_mem {bytes : List UInt8} (ends : newline ∈ bytes)
    (more : List UInt8) :
    (bytes ++ more).takeWhile (· ≠ newline) = bytes.takeWhile (· ≠ newline) := by
  induction bytes with
  | nil => cases ends
  | cons b bytes ih =>
      rw [List.cons_append, List.takeWhile_cons, List.takeWhile_cons]
      by_cases same : b = newline
      · rw [if_neg, if_neg]
        · simpa using same
        · simpa using same
      · rw [ih ((List.mem_cons.mp ends).resolve_left (Ne.symm same))]

theorem readLine_of_newline {conn : Conn} (ends : newline ∈ conn.bytes) :
    conn.readLine = .ofBytes (conn.bytes.takeWhile (· ≠ newline) ++ [newline]) := if_pos ends

theorem readLine_of_open {conn : Conn} (isOpen : conn.ending = none) (more : newline ∉ conn.bytes) :
    conn.readLine = .waits := by
  rw [Conn.readLine, if_neg more, isOpen]

theorem Reading.ofBytes_ne_waits (bytes : List UInt8) : Reading.ofBytes bytes ≠ .waits := by
  rw [Reading.ofBytes]
  cases utf8Decode bytes with
  | none => exact nofun
  | some text => exact nofun

theorem readLine_eq_waits_iff {conn : Conn} :
    conn.readLine = .waits ↔ newline ∉ conn.bytes ∧ conn.ending = none := by
  constructor
  · intro waits
    by_cases ends : newline ∈ conn.bytes
    · rw [readLine_of_newline ends] at waits
      exact absurd waits (Reading.ofBytes_ne_waits _)
    · refine ⟨ends, ?_⟩
      rw [Conn.readLine, if_neg ends] at waits
      cases ending : conn.ending with
      | none => rfl
      | some ending_ =>
          rw [ending] at waits
          cases ending_ with
          | eof => exact absurd waits (Reading.ofBytes_ne_waits _)
          | failed => cases waits
  · rintro ⟨more, isOpen⟩
    exact readLine_of_open isOpen more

theorem continues_send {conn : Conn} (isOpen : conn.ending = none) (bytes : List UInt8) :
    conn.Continues { conn with bytes := conn.bytes ++ bytes } := by
  refine ⟨rfl, fun text line => ?_, fun waits => ?_, List.mem_append_left bytes⟩
  · have ends : newline ∈ conn.bytes := by
      by_contra more
      rw [readLine_of_open isOpen more] at line
      cases line
    rw [readLine_of_newline (List.mem_append_left bytes ends), takeWhile_append_of_mem ends,
      ← readLine_of_newline ends, line]
  · obtain ⟨more, -⟩ := readLine_eq_waits_iff.mp waits
    exact readLine_of_open isOpen fun ends => more (List.mem_append_left bytes ends)

theorem continues_finish {conn : Conn} (isOpen : conn.ending = none) (ending : Ending) :
    conn.Continues { conn with ending := some ending } := by
  refine ⟨rfl, fun text line => ?_, fun waits => ?_, fun ends => ends⟩
  · have ends : newline ∈ conn.bytes := by
      by_contra more
      rw [readLine_of_open isOpen more] at line
      cases line
    rw [readLine_of_newline ends] at line
    exact (if_pos ends).trans line
  · exact absurd (readLine_eq_waits_iff.mp waits).2 nofun

/-! ## What the loop takes for the ready line -/

/-- The line that was taken is that of a connection, and begins with the nonce. -/
def Signed (setup : Setup) (state : State) : Prop :=
  ∀ rest, state.phase = .ready rest → ∃ i conn, i < state.accepted ∧ state.conns[i]? = some conn ∧
    conn.readLine = .line (noncePrefix setup ++ rest)

structure Sound (setup : Setup) (state : State) : Prop where
  accepted : state.accepted ≤ state.conns.length
  reading : state.phase = .reading → 0 < state.accepted
  signed : Signed setup state

theorem sound_start (setup : Setup) : Sound setup start :=
  ⟨Nat.le_refl 0, nofun, nofun⟩

theorem stripPrefix_eq_some {front text rest : Text}
    (stripped : stripPrefix front text = some rest) : text = front ++ rest := by
  obtain ⟨starts, same⟩ := Option.ite_none_right_eq_some.mp stripped
  obtain ⟨back, rfl⟩ := List.isPrefixOf_iff_prefix.mp starts
  rw [List.drop_left] at same
  exact congrArg (front ++ ·) (Option.some.inj same)

/-- Only a line with the nonce ends the loop. -/
theorem afterRead_ready {setup : Setup} {reading : Reading} {rest : Text}
    (after : afterRead setup reading = some (.ready rest)) :
    reading = .line (noncePrefix setup ++ rest) := by
  cases reading with
  | waits => cases after
  | fails => cases after
  | line text =>
      rw [afterRead] at after
      cases stripped : stripPrefix (noncePrefix setup) text with
      | none =>
          rw [stripped] at after
          cases after
      | some rest' =>
          rw [stripped] at after
          cases after
          rw [stripPrefix_eq_some stripped]

theorem afterRead_ne_reading {setup : Setup} {reading : Reading} :
    afterRead setup reading ≠ some .reading := by
  intro after
  cases reading with
  | waits => cases after
  | fails => cases after
  | line text =>
      rw [afterRead] at after
      split at after <;> cases after

theorem State.current_eq_some {state : State} {conn : Conn} (current : state.current = some conn) :
    state.phase = .reading ∧ state.conns[state.accepted - 1]? = some conn :=
  Option.ite_none_right_eq_some.mp current

/-- A connection of the list goes on. -/
theorem Signed.set {setup : Setup} {state : State} (signed : Signed setup state) {i : Nat}
    {conn later : Conn} (found : state.conns[i]? = some conn) (continues : conn.Continues later) :
    Signed setup { state with conns := state.conns.set i later } := by
  intro rest done
  obtain ⟨j, taken, before, known, line⟩ := signed rest done
  by_cases same : i = j
  · subst same
    cases found.symm.trans known
    refine ⟨i, later, before, ?_, continues.line _ line⟩
    exact List.getElem?_set_self (List.getElem?_eq_some_iff.mp found).1
  · exact ⟨j, taken, before, (List.getElem?_set_ne same).trans known, line⟩

theorem sound_step {setup : Setup} {state next : State} {event : Event}
    (sound : Sound setup state) (stepped : step setup state event = some next) :
    Sound setup next := by
  obtain ⟨accepted, reading, signed⟩ := sound
  cases step_move stepped with
  | connect worker =>
      refine ⟨?_, reading, fun rest done => ?_⟩
      · rw [List.length_append]
        exact Nat.le_add_right_of_le accepted
      · obtain ⟨i, conn, before, found, line⟩ := signed rest done
        refine ⟨i, conn, before, ?_, line⟩
        rw [List.getElem?_append_left (Nat.lt_of_lt_of_le before accepted), found]
  | send bytes found isOpen =>
      refine ⟨?_, reading, signed.set found (continues_send isOpen bytes)⟩
      rw [List.length_set]
      exact accepted
  | finish ending found isOpen =>
      refine ⟨?_, reading, signed.set found (continues_finish isOpen ending)⟩
      rw [List.length_set]
      exact accepted
  | accept idle waiting => exact ⟨waiting, fun _ => Nat.succ_pos _, nofun⟩
  | acceptFails => exact ⟨accepted, reading, signed⟩
  | @read conn phase current after =>
      obtain ⟨phase_, found⟩ := State.current_eq_some current
      refine ⟨accepted, fun again => ?_, fun rest done => ?_⟩
      · dsimp only at again
        rw [again] at after
        exact absurd after afterRead_ne_reading
      · dsimp only at done
        rw [done] at after
        have positive := reading phase_
        exact ⟨_, conn, Nat.sub_lt positive Nat.one_pos, found, afterRead_ready after⟩
  | readFails => exact ⟨accepted, nofun, nofun⟩
  | timeout => exact ⟨accepted, nofun, nofun⟩

/-! ## Strays that keep the worker waiting -/

/-- A stray that has sent no whole line, and may still do so. -/
def Silent (conn : Conn) : Prop := conn.worker = false ∧ conn.readLine = .waits

/-- The worker waits to be accepted, and its line is there. -/
def Queued (state : State) : Prop :=
  ∃ i conn, state.accepted ≤ i ∧ state.conns[i]? = some conn ∧ conn.worker = true ∧
    newline ∈ conn.bytes

/-- The loop waits for a stray while the line of the worker is there. -/
def Starved (state : State) : Prop :=
  (∃ conn, state.current = some conn ∧ Silent conn) ∧ Queued state

/-- What the wait for the ready line is to be in every state. -/
structure Tolerates (setup : Setup) (state : State) : Prop where
  signed : Signed setup state
  heard : ¬ Starved state

/-- The step begins to wait for a stray: a silent one is accepted while the worker is queued
with its line, or the line gets complete there while a silent one is read. -/
def Starves (state : State) : Event → Prop
  | .accept => (∃ conn, state.conns[state.accepted]? = some conn ∧ Silent conn) ∧ Queued state
  | .send i bytes => (∃ conn, state.current = some conn ∧ Silent conn) ∧ state.accepted ≤ i ∧
      (∃ conn, state.conns[i]? = some conn ∧ conn.worker = true) ∧ newline ∈ bytes
  | _ => False

/-- None of the steps of the loop itself can be taken any more but the last. -/
theorem starved_stuck {setup : Setup} {state : State} (starved : Starved state) :
    step setup state .accept = none ∧ step setup state .acceptFails = none ∧
      step setup state .read = none ∧ step setup state .readFails = none ∧
        step setup state .timeout = some { state with phase := .timedOut } := by
  obtain ⟨⟨conn, current, -, waits⟩, -⟩ := starved
  have reading := (State.current_eq_some current).1
  have isOpen := (readLine_eq_waits_iff.mp waits).2
  simp [step, State.listening, afterRead, reading, current, waits, isOpen]

theorem starved_set_iff {state : State} {i : Nat} {conn later : Conn}
    (sound : state.phase = .reading → 0 < state.accepted)
    (found : state.conns[i]? = some conn) (continues : conn.Continues later)
    (heard : ¬ Starved state) :
    Starved { state with conns := state.conns.set i later } ↔
      (∃ conn, state.current = some conn ∧ Silent conn) ∧ state.accepted ≤ i ∧
        later.worker = true ∧ newline ∈ later.bytes := by
  have here : (state.conns.set i later)[i]? = some later :=
    List.getElem?_set_self (List.getElem?_eq_some_iff.mp found).1
  constructor
  · rintro ⟨⟨read, current, stray, waits⟩, j, queued, behind, known, worker, ends⟩
    obtain ⟨reading, atRead⟩ := State.current_eq_some current
    have silent : ∃ conn, state.current = some conn ∧ Silent conn := by
      by_cases same : i = state.accepted - 1
      · subst same
        cases here.symm.trans atRead
        refine ⟨conn, (if_pos reading).trans found, ?_, continues.waits waits⟩
        rw [← continues.worker, stray]
      · refine ⟨read, (if_pos reading).trans ?_, stray, waits⟩
        rwa [List.getElem?_set_ne same] at atRead
    by_cases same : i = j
    · subst same
      cases here.symm.trans known
      exact ⟨silent, behind, worker, ends⟩
    · rw [List.getElem?_set_ne same] at known
      exact absurd ⟨silent, j, queued, behind, known, worker, ends⟩ heard
  · rintro ⟨⟨read, current, silent⟩, behind, worker, ends⟩
    obtain ⟨reading, atRead⟩ := State.current_eq_some current
    have positive := sound reading
    have apart : i ≠ state.accepted - 1 := by omega
    refine ⟨⟨read, (if_pos reading).trans ?_, silent⟩, i, later, behind, here, worker, ends⟩
    rwa [List.getElem?_set_ne apart]

theorem Starved.reading {state : State} (starved : Starved state) : state.phase = .reading := by
  obtain ⟨⟨_, current, -⟩, -⟩ := starved
  exact (State.current_eq_some current).1

/-- A new connection has sent nothing yet. -/
theorem starved_connect {state : State} {worker : Bool}
    (positive : state.phase = .reading → 0 < state.accepted)
    (within : state.accepted ≤ state.conns.length)
    (starved : Starved { state with conns := state.conns ++ [⟨worker, [], none⟩] }) :
    Starved state := by
  obtain ⟨⟨read, current, silent⟩, i, queued, behind, known, isWorker, ends⟩ := starved
  obtain ⟨reading, atRead⟩ := State.current_eq_some current
  have before := positive reading
  dsimp only at atRead known behind
  rw [List.getElem?_append_left (by omega)] at atRead
  have early : i < state.conns.length := by
    by_contra late
    rw [List.getElem?_append_right (Nat.not_lt.mp late), List.getElem?_singleton] at known
    split at known
    · cases known
      cases ends
    · cases known
  rw [List.getElem?_append_left early] at known
  exact ⟨⟨read, (if_pos reading).trans atRead, silent⟩, i, queued, behind, known, isWorker, ends⟩

/-- The worker that is queued is not the connection that is accepted. -/
theorem starved_accept_iff {state : State} :
    Starved { state with accepted := state.accepted + 1, phase := .reading } ↔
      (∃ conn, state.conns[state.accepted]? = some conn ∧ Silent conn) ∧ Queued state := by
  constructor
  · rintro ⟨⟨read, current, silent⟩, i, queued, behind, known⟩
    have atRead := (State.current_eq_some current).2
    exact ⟨⟨read, atRead, silent⟩, i, queued, Nat.le_of_succ_le behind, known⟩
  · rintro ⟨⟨read, atRead, silent⟩, i, queued, behind, known, worker, ends⟩
    refine ⟨⟨read, (if_pos rfl).trans atRead, silent⟩, i, queued, ?_, known, worker, ends⟩
    refine Nat.lt_of_le_of_ne behind fun same => ?_
    subst same
    cases atRead.symm.trans known
    exact absurd silent.1 (by rw [worker]; exact nofun)

theorem starved_step_iff {setup : Setup} {state next : State} {event : Event}
    (sound : Sound setup state) (heard : ¬ Starved state)
    (stepped : step setup state event = some next) : Starved next ↔ Starves state event := by
  cases step_move stepped with
  | connect worker =>
      exact iff_of_false (mt (starved_connect sound.reading sound.accepted) heard) id
  | @send i conn bytes found isOpen =>
      rw [starved_set_iff sound.reading found (continues_send isOpen bytes) heard]
      refine and_congr_right fun silent => and_congr_right fun behind => ?_
      have unsent (worker : conn.worker = true) : newline ∉ conn.bytes := fun ends =>
        heard ⟨silent, i, conn, behind, found, worker, ends⟩
      constructor
      · rintro ⟨worker, ends⟩
        exact ⟨⟨conn, found, worker⟩, (List.mem_append.mp ends).resolve_left (unsent worker)⟩
      · rintro ⟨⟨other, known, worker⟩, ends⟩
        cases found.symm.trans known
        exact ⟨worker, List.mem_append_right _ ends⟩
  | @finish i conn ending found isOpen =>
      rw [starved_set_iff sound.reading found (continues_finish isOpen ending) heard]
      refine iff_of_false ?_ id
      rintro ⟨silent, behind, worker, ends⟩
      exact heard ⟨silent, i, conn, behind, found, worker, ends⟩
  | accept idle waiting => exact starved_accept_iff
  | acceptFails => exact iff_of_false heard id
  | @read conn phase current after =>
      refine iff_of_false (fun starved => ?_) id
      have same : phase = .reading := starved.reading
      rw [same] at after
      exact afterRead_ne_reading after
  | readFails =>
      refine iff_of_false (fun starved => ?_) id
      cases starved.reading
  | timeout =>
      refine iff_of_false (fun starved => ?_) id
      cases starved.reading

/-- The loop goes past the connection. -/
def Passed (setup : Setup) (conn : Conn) : Prop :=
  afterRead setup conn.readLine = some .accepting

theorem afterRead_nonce (setup : Setup) (rest : Text) :
    afterRead setup (.line (noncePrefix setup ++ rest)) = some (.ready rest) := by
  have starts : (noncePrefix setup).isPrefixOf (noncePrefix setup ++ rest) = true :=
    List.isPrefixOf_iff_prefix.mpr (List.prefix_append _ _)
  rw [afterRead, stripPrefix, if_pos starts, List.drop_left]

theorem accept_read {setup : Setup} {state : State} (idle : state.phase = .accepting)
    {conn : Conn} (found : state.conns[state.accepted]? = some conn) {phase : Phase}
    (after : afterRead setup conn.readLine = some phase) :
    run (step setup) state [.accept, .read] =
      some { state with accepted := state.accepted + 1, phase } := by
  have within : state.accepted < state.conns.length := (List.getElem?_eq_some_iff.mp found).1
  have accepted : step setup state .accept =
      some { state with accepted := state.accepted + 1, phase := .reading } := by
    simp [step, idle, within]
  have current : State.current { state with accepted := state.accepted + 1, phase := .reading } =
      some conn := (if_pos rfl).trans found
  rw [run_cons, accepted, Option.bind_some, run_cons, step, current, Option.bind_eq_bind,
    Option.bind_some, after]
  rfl

/-- When no connection before it keeps the loop, the worker is heard by the steps of the loop
alone. -/
theorem worker_heard {setup : Setup} {state : State} (idle : state.phase = .accepting) {i : Nat}
    {conn : Conn} (queued : state.accepted ≤ i) (found : state.conns[i]? = some conn) {rest : Text}
    (line : conn.readLine = .line (noncePrefix setup ++ rest))
    (passed : ∀ j stray, state.accepted ≤ j → j < i → state.conns[j]? = some stray →
      Passed setup stray) :
    ∃ events final, (∀ event ∈ events, event = .accept ∨ event = .read) ∧
      run (step setup) state events = some final ∧ final.phase = .ready rest := by
  obtain ⟨distance, rfl⟩ := Nat.exists_eq_add_of_le queued
  induction distance generalizing state with
  | zero =>
      refine ⟨[.accept, .read], _, by simp, accept_read idle found ?_, rfl⟩
      rw [line, afterRead_nonce]
  | succ distance ih =>
      have within : state.accepted < state.conns.length :=
        Nat.lt_of_le_of_lt queued (List.getElem?_eq_some_iff.mp found).1
      have here := List.getElem?_eq_getElem within
      have past := accept_read idle here (passed _ _ (Nat.le_refl _) (by omega) here)
      have behind : state.accepted + (distance + 1) = state.accepted + 1 + distance := by omega
      rw [behind] at found passed
      obtain ⟨events, final, own, ran, ready⟩ := @ih
        { state with accepted := state.accepted + 1, phase := .accepting } rfl
        (Nat.le_add_right _ _) found fun j stray after before known =>
          passed j stray (Nat.le_of_succ_le after) before known
      refine ⟨[.accept, .read] ++ events, final, ?_, ?_, ready⟩
      · rintro event member
        rcases List.mem_append.mp member with first | later
        · simpa using first
        · exact own event later
      · rw [run_append, past]
        exact ran

/-- **The wait for the ready line tolerates strays** in every state of a run, if no step of
the run begins to wait for a stray with the line of the worker behind it. -/
theorem ready_tolerates_strays_iff (setup : Setup) (events : List Event) :
    AllStates (step setup) (Tolerates setup) start events ↔
      AllSteps (step setup) (fun state event => ¬ Starves state event) start events := by
  have initial : Tolerates setup start := by
    refine ⟨(sound_start setup).signed, ?_⟩
    rintro ⟨⟨conn, current, -⟩, -⟩
    cases (State.current_eq_some current).1
  refine allStates_iff (fun _ _ _ sound => sound_step sound) ?_ (sound_start setup) initial events
  intro state event next sound tolerates stepped
  have starts := starved_step_iff sound tolerates.heard stepped
  constructor
  · exact fun later => mt starts.mpr later.heard
  · exact fun calm => ⟨(sound_step sound stepped).signed, mt starts.mp calm⟩

/-- A stray that sends nothing is accepted before the worker connects. -/
theorem silent_stray_starves :
    ¬ AllStates (step ⟨['7'], ['O', 'K']⟩) (Tolerates ⟨['7'], ['O', 'K']⟩) start
      [.connect false, .accept, .connect true, .send 1 [0x37, 0x20, 0x4f, 0x4b, newline]] := by
  intro all
  have ran : run (step ⟨['7'], ['O', 'K']⟩) start
      [.connect false, .accept, .connect true, .send 1 [0x37, 0x20, 0x4f, 0x4b, newline]] =
        some ⟨[⟨false, [], none⟩, ⟨true, [0x37, 0x20, 0x4f, 0x4b, newline], none⟩], 1,
          .reading⟩ := by
    rfl
  refine (all.final ran).heard
    ⟨⟨⟨false, [], none⟩, rfl, rfl, ?_⟩, 1, _, Nat.le_refl 1, rfl, rfl, ?_⟩
  · exact readLine_of_open rfl List.not_mem_nil
  · decide

end LinkP2p.Daemon.Ready
