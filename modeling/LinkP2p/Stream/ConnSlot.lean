import LinkP2p.Lib.HashMap
import LinkP2p.Lib.Transition

/-!
# The connection slot and its reconnect watcher

`ConnSlot` is the sending half of a watch channel. The watcher waits for the
death of the connection it reads there, redials and puts the new connection in;
openers read it and wait for changes. A send on a watch channel that has no
receiver stores nothing, and only openers hold receivers.
-/

namespace LinkP2p.Stream

open LinkP2p.Lib LinkP2p.Lib.Transition

/-- A QUIC connection; clones of the handle share the number. -/
abbrev Connection := Nat

/-- Where one call of `open_stream_wait_deadline` stands. `seen` is the version
that its receiver has marked as seen. -/
inductive Opener where
  /-- Between two attempts, with no receiver. -/
  | entering
  /-- In `rx.changed().await`. -/
  | waiting (seen : Nat)
  /-- In `open_bi` on the connection it read. -/
  | opening (conn : Connection) (seen : Nat)
  /-- Past the `open_bi` timeout, before `slot.replace(None)`. -/
  | clearing (conn : Connection) (seen : Nat)
  deriving DecidableEq, Repr

def Opener.holdsReceiver : Opener → Bool
  | .entering => false
  | _ => true

/-- Where the loop of `spawn_reconnect_watcher` stands. -/
inductive Watcher where
  /-- Before the read at the loop head; `redialled` is the connection that the
  loop has just put into the slot. -/
  | reading (redialled : Option Connection)
  /-- In `conn.closed().await`. -/
  | closing (conn : Connection)
  /-- Before `slot.replace(None)`. -/
  | clearing
  /-- Backing off or in `endpoint.connect`. -/
  | dialing
  /-- Connected, before `slot.replace(Some(conn))`. -/
  | storing (conn : Connection)
  deriving DecidableEq, Repr

/-- The watch channel with its users. `latest` is the argument of the latest
`replace` call; no code reads it. -/
structure Slot where
  value : Option Connection
  version : Nat
  latest : Option Connection
  openers : HashMap Nat Opener
  watcher : Watcher
  closed : Connection → Bool
  nextConn : Connection

/-- `ConnSlot::new(initial)`, whose first receiver is dropped at once, and the
watcher at its loop head. -/
def Slot.new (initial : Option Connection) : Slot where
  value := initial
  version := 0
  latest := initial
  openers := ∅
  watcher := .reading none
  closed := fun _ => false
  nextConn := (initial.map (· + 1)).getD 0

def Slot.hasReceiver (slot : Slot) : Bool := slot.openers.anyValue Opener.holdsReceiver

/-- `ConnSlot::replace`: `watch::Sender::send` stores only if a receiver exists. -/
def Slot.replace (slot : Slot) (conn : Option Connection) : Slot :=
  if slot.hasReceiver then
    { slot with value := conn, version := slot.version + 1, latest := conn }
  else { slot with latest := conn }

/-- What an opener or the watcher does to the state it shares with the others. -/
inductive Effect where
  | silent
  | close (conn : Connection)
  | replace (conn : Option Connection)

def Effect.apply (slot : Slot) : Effect → Slot
  | .silent => slot
  | .close conn => { slot with closed := Function.update slot.closed conn true }
  | .replace conn => slot.replace conn

inductive OpenerAct where
  | subscribe
  | wake
  | opened
  | openFailed
  | timeout
  | clear
  /-- The caller drops the future. -/
  | leave

/-- One step of `open_stream_wait_deadline`; `none` as the next stage is its return. -/
def openerStep (slot : Slot) : Opener → OpenerAct → Option (Option Opener × Effect)
  | .entering, .subscribe =>
      match slot.value with
      | none => some (some (.waiting slot.version), .silent)
      | some conn => some (some (.opening conn slot.version), .silent)
  | .waiting seen, .wake =>
      if slot.version = seen then none else some (some .entering, .silent)
  | .opening _ _, .opened => some (none, .silent)
  | .opening conn seen, .openFailed =>
      -- a dead connection is waited out, a live one gives up this stream
      if slot.closed conn then some (some (.waiting seen), .silent) else some (none, .silent)
  | .opening conn seen, .timeout => some (some (.clearing conn seen), .close conn)
  | .clearing _ seen, .clear => some (some (.waiting seen), .replace none)
  | _, .leave => some (none, .silent)
  | _, _ => none

inductive WatcherAct where
  | read
  | closed
  | clear
  | dialOk
  | dialErr
  | store

/-- One step of the reconnect loop. -/
def watcherStep (slot : Slot) : Watcher → WatcherAct → Option (Watcher × Effect)
  | .reading _, .read =>
      match slot.value with
      | none => some (.dialing, .silent)
      | some conn => some (.closing conn, .silent)
  | .closing conn, .closed => if slot.closed conn then some (.clearing, .silent) else none
  | .clearing, .clear => some (.dialing, .replace none)
  | .dialing, .dialOk => some (.storing slot.nextConn, .silent)
  | .dialing, .dialErr => some (.reading none, .silent)
  | .storing conn, .store => some (.reading (some conn), .replace (some conn))
  | _, _ => none

inductive Event where
  /-- A client calls `open_stream_wait_deadline`. -/
  | arrive (opener : Nat)
  | opener (opener : Nat) (act : OpenerAct)
  | watcher (act : WatcherAct)
  /-- A connection dies. -/
  | die (conn : Connection)

def Slot.setOpener (slot : Slot) (i : Nat) : Option Opener → Slot
  | some stage => { slot with openers := slot.openers.put i stage }
  | none => { slot with openers := slot.openers.remove i }

def step (slot : Slot) : Event → Option Slot
  | .arrive i =>
      if slot.openers.containsKey i then none else some (slot.setOpener i (some .entering))
  | .opener i act =>
      (slot.openers.get i).bind fun stage =>
        (openerStep slot stage act).map fun (next, effect) =>
          (effect.apply slot).setOpener i next
  | .watcher act =>
      (watcherStep slot slot.watcher act).map fun (next, effect) =>
        { effect.apply slot with
          watcher := next
          nextConn := if act matches .dialOk then slot.nextConn + 1 else slot.nextConn }
  | .die conn => some ((Effect.close conn).apply slot)

/-! ## What each step does to the slot -/

@[simp]
theorem replace_latest (slot : Slot) (conn : Option Connection) :
    (slot.replace conn).latest = conn := by
  unfold Slot.replace
  split <;> rfl

theorem replace_value (slot : Slot) (conn : Option Connection) :
    (slot.replace conn).value = if slot.hasReceiver then conn else slot.value := by
  unfold Slot.replace
  split <;> rfl

@[simp]
theorem replace_watcher (slot : Slot) (conn : Option Connection) :
    (slot.replace conn).watcher = slot.watcher := by
  unfold Slot.replace
  split <;> rfl

@[simp]
theorem setOpener_value (slot : Slot) (i : Nat) (stage : Option Opener) :
    (slot.setOpener i stage).value = slot.value := by
  cases stage <;> rfl

@[simp]
theorem setOpener_latest (slot : Slot) (i : Nat) (stage : Option Opener) :
    (slot.setOpener i stage).latest = slot.latest := by
  cases stage <;> rfl

@[simp]
theorem setOpener_watcher (slot : Slot) (i : Nat) (stage : Option Opener) :
    (slot.setOpener i stage).watcher = slot.watcher := by
  cases stage <;> rfl

theorem opener_cases {slot next : Slot} {i : Nat} {act : OpenerAct}
    (stepped : step slot (.opener i act) = some next) :
    ∃ stage after effect, slot.openers.get i = some stage ∧
      openerStep slot stage act = some (after, effect) ∧
      next = (effect.apply slot).setOpener i after := by
  simp only [step, Option.bind_eq_some_iff, Option.map_eq_some_iff] at stepped
  obtain ⟨stage, found, ⟨after, effect⟩, moved, rfl⟩ := stepped
  exact ⟨stage, after, effect, found, moved, rfl⟩

/-- The moves of an opener. -/
inductive OpenerMove (slot : Slot) : Opener → OpenerAct → Option Opener → Effect → Prop where
  | absent (empty : slot.value = none) :
      OpenerMove slot .entering .subscribe (some (.waiting slot.version)) .silent
  | found {conn : Connection} (here : slot.value = some conn) :
      OpenerMove slot .entering .subscribe (some (.opening conn slot.version)) .silent
  | wake {seen : Nat} (changed : slot.version ≠ seen) :
      OpenerMove slot (.waiting seen) .wake (some .entering) .silent
  | opened (conn : Connection) (seen : Nat) :
      OpenerMove slot (.opening conn seen) .opened none .silent
  | dead {conn : Connection} {seen : Nat} (dead : slot.closed conn = true) :
      OpenerMove slot (.opening conn seen) .openFailed (some (.waiting seen)) .silent
  | alive {conn : Connection} {seen : Nat} (alive : slot.closed conn = false) :
      OpenerMove slot (.opening conn seen) .openFailed none .silent
  | timeout (conn : Connection) (seen : Nat) :
      OpenerMove slot (.opening conn seen) .timeout (some (.clearing conn seen)) (.close conn)
  | clear (conn : Connection) (seen : Nat) :
      OpenerMove slot (.clearing conn seen) .clear (some (.waiting seen)) (.replace none)
  | leave (stage : Opener) : OpenerMove slot stage .leave none .silent

theorem openerStep_move {slot : Slot} {stage : Opener} {act : OpenerAct} {after : Option Opener}
    {effect : Effect} (moved : openerStep slot stage act = some (after, effect)) :
    OpenerMove slot stage act after effect := by
  cases act with
  | subscribe =>
      cases stage <;> simp only [openerStep, reduceCtorEq] at moved
      split at moved
      · rename_i empty
        cases moved
        exact .absent empty
      · rename_i conn here
        cases moved
        exact .found here
  | wake =>
      cases stage <;> simp only [openerStep, reduceCtorEq, Option.ite_none_left_eq_some,
        Option.some.injEq, Prod.mk.injEq] at moved
      obtain ⟨changed, rfl, rfl⟩ := moved
      exact .wake changed
  | opened =>
      cases stage <;> cases moved
      exact .opened _ _
  | openFailed =>
      cases stage <;> simp only [openerStep, reduceCtorEq] at moved
      split at moved
      · rename_i dead
        cases moved
        exact .dead dead
      · rename_i alive
        cases moved
        exact .alive (Bool.eq_false_of_not_eq_true alive)
  | timeout =>
      cases stage <;> cases moved
      exact .timeout _ _
  | clear =>
      cases stage <;> cases moved
      exact .clear _ _
  | leave =>
      cases stage <;> cases moved <;> exact .leave _

/-- An opener replaces the slot only on its own timeout, holding its receiver. -/
theorem openerStep_effect {slot : Slot} {stage : Opener} {act : OpenerAct}
    {after : Option Opener} {effect : Effect}
    (moved : openerStep slot stage act = some (after, effect)) :
    (act ≠ .clear ∧ (effect = .silent ∨ ∃ conn, effect = .close conn)) ∨
      (act = .clear ∧ stage.holdsReceiver = true ∧ effect = .replace none) := by
  cases openerStep_move moved with
  | clear => exact Or.inr ⟨rfl, rfl, rfl⟩
  | timeout => exact Or.inl ⟨nofun, Or.inr ⟨_, rfl⟩⟩
  | _ => exact Or.inl ⟨nofun, Or.inl rfl⟩

/-- The receiver that an opener in the table holds is a receiver of the slot. -/
theorem hasReceiver_of_opener {slot : Slot} {i : Nat} {stage : Opener}
    (found : slot.openers.get i = some stage) (holds : stage.holdsReceiver = true) :
    slot.hasReceiver = true :=
  HashMap.anyValue_eq_true.mpr ⟨i, stage, found, holds⟩

/-! ## Visibility of a redialled connection -/

/-- Some live handle of the connection exists: in the slot, at the watcher or
at an opener. -/
def Held (slot : Slot) (conn : Connection) : Prop :=
  slot.value = some conn ∨ slot.watcher = .closing conn ∨ slot.watcher = .storing conn ∨
    ∃ i seen, slot.openers.get i = some (.opening conn seen) ∨
      slot.openers.get i = some (.clearing conn seen)

/-- A read returns the argument of the latest `replace`, and what the watcher
has just put in is there and has not been dropped. -/
structure Visible (slot : Slot) : Prop where
  read : slot.value = slot.latest
  redialled : ∀ conn, slot.watcher = .reading (some conn) → slot.value = some conn
  kept : ∀ conn, slot.watcher = .reading (some conn) ∨ slot.watcher = .closing conn →
    Held slot conn

/-- The read that follows a redial waits for the new connection's close. -/
def WaitsForRedialled (slot : Slot) (event : Event) : Prop :=
  event = .watcher .read → ∀ conn, slot.watcher = .reading (some conn) →
    ∀ next, step slot event = some next → next.watcher = .closing conn

/-- Each replacement finds a receiver or stores what is already there, and no
opener clears the slot between a redial and the watcher's next read. -/
def Received (slot : Slot) : Event → Prop
  | .watcher .clear => slot.hasReceiver = true ∨ slot.value = none
  | .watcher .store =>
      ∀ conn, slot.watcher = .storing conn → slot.hasReceiver = true ∨ slot.value = some conn
  | .opener _ .clear => ∀ conn, slot.watcher ≠ .reading (some conn)
  | _ => True

theorem replaced_value_eq_iff {slot : Slot} {conn : Option Connection} :
    (slot.replace conn).value = conn ↔ slot.hasReceiver = true ∨ slot.value = conn := by
  rw [replace_value]
  split <;> simp [*]

theorem visible_iff {slot : Slot} :
    Visible slot ↔ slot.value = slot.latest ∧
      ∀ conn, slot.watcher = .reading (some conn) → slot.value = some conn := by
  constructor
  · exact fun visible => ⟨visible.read, visible.redialled⟩
  · rintro ⟨read, redialled⟩
    refine ⟨read, redialled, ?_⟩
    rintro conn (waiting | closing)
    · exact Or.inl (redialled conn waiting)
    · exact Or.inr (Or.inl closing)

theorem waits_of_visible {slot : Slot} (visible : Visible slot) (event : Event) :
    WaitsForRedialled slot event := by
  rintro rfl conn place next stepped
  have value := visible.redialled conn place
  simp only [step, place, watcherStep, value, Option.map_some, Option.some.injEq] at stepped
  rw [← stepped]

/-- An opener's step leaves a visible slot visible exactly when it does not
clear what the watcher has just put in. -/
theorem visible_opener {slot next : Slot} {i : Nat} {act : OpenerAct} (visible : Visible slot)
    (stepped : step slot (.opener i act) = some next) :
    Visible next ↔ Received slot (.opener i act) := by
  obtain ⟨stage, after, effect, found, moved, rfl⟩ := opener_cases stepped
  rw [visible_iff, setOpener_value, setOpener_latest, setOpener_watcher]
  rcases openerStep_effect moved with ⟨other, quiet⟩ | ⟨rfl, holds, rfl⟩
  · have same : (effect.apply slot).value = slot.value ∧
        (effect.apply slot).latest = slot.latest ∧
        (effect.apply slot).watcher = slot.watcher := by
      rcases quiet with rfl | ⟨conn, rfl⟩ <;> exact ⟨rfl, rfl, rfl⟩
    rw [same.1, same.2.1, same.2.2]
    have met : Received slot (.opener i act) := by
      cases act <;> first | exact absurd rfl other | trivial
    exact ⟨fun _ => met, fun _ => ⟨visible.read, visible.redialled⟩⟩
  · have received := hasReceiver_of_opener found holds
    change (slot.replace none).value = (slot.replace none).latest ∧
      (∀ conn, (slot.replace none).watcher = _ → (slot.replace none).value = _) ↔ _
    rw [replace_value, if_pos received, replace_latest, replace_watcher]
    constructor
    · rintro ⟨-, keeps⟩ conn place
      exact absurd (keeps conn place) nofun
    · intro idle
      exact ⟨rfl, fun conn place => absurd place (idle conn)⟩

theorem visible_watcher {slot next : Slot} {act : WatcherAct} (visible : Visible slot)
    (stepped : step slot (.watcher act) = some next) :
    Visible next ↔ Received slot (.watcher act) := by
  simp only [step, Option.map_eq_some_iff] at stepped
  obtain ⟨⟨after, effect⟩, moved, rfl⟩ := stepped
  rw [visible_iff]
  cases act with
  | clear =>
      cases place : slot.watcher <;> rw [place] at moved <;> cases moved
      change (slot.replace none).value = (slot.replace none).latest ∧ _ ↔ _
      rw [replace_latest, replaced_value_eq_iff]
      exact ⟨fun good => good.1, fun met => ⟨met, nofun⟩⟩
  | store =>
      cases place : slot.watcher <;> rw [place] at moved <;> cases moved
      rename_i conn
      change (slot.replace (some conn)).value = (slot.replace (some conn)).latest ∧
        (∀ other, Watcher.reading (some conn) = .reading (some other) →
          (slot.replace (some conn)).value = some other) ↔ _
      rw [replace_latest]
      constructor
      · rintro ⟨stored, -⟩ other held
        cases place.symm.trans held
        exact replaced_value_eq_iff.mp stored
      · intro met
        have stored := replaced_value_eq_iff.mpr (met conn place)
        refine ⟨stored, fun other same => ?_⟩
        cases same
        exact stored
  | read =>
      refine ⟨fun _ => trivial, fun _ => ?_⟩
      cases place : slot.watcher <;> rw [place] at moved <;>
        simp only [watcherStep, reduceCtorEq] at moved
      split at moved <;> cases moved <;> exact ⟨visible.read, nofun⟩
  | closed =>
      refine ⟨fun _ => trivial, fun _ => ?_⟩
      cases place : slot.watcher <;> rw [place] at moved <;>
        simp only [watcherStep, reduceCtorEq] at moved
      split at moved <;> cases moved
      exact ⟨visible.read, nofun⟩
  | dialOk | dialErr =>
      refine ⟨fun _ => trivial, fun _ => ?_⟩
      cases place : slot.watcher <;> rw [place] at moved <;> cases moved
      exact ⟨visible.read, nofun⟩

theorem visible_step_iff {slot next : Slot} {event : Event} (visible : Visible slot)
    (stepped : step slot event = some next) :
    Visible next ↔ Received slot event := by
  cases event with
  | opener i act => exact visible_opener visible stepped
  | watcher act => exact visible_watcher visible stepped
  | arrive i =>
      refine ⟨fun _ => trivial, fun _ => ?_⟩
      simp only [step, Option.ite_none_left_eq_some, Option.some.injEq] at stepped
      rw [← stepped.2, visible_iff]
      exact ⟨visible.read, visible.redialled⟩
  | die conn =>
      refine ⟨fun _ => trivial, fun _ => ?_⟩
      cases stepped
      exact visible_iff.mpr ⟨visible.read, visible.redialled⟩

theorem visible_new (initial : Option Connection) : Visible (Slot.new initial) :=
  visible_iff.mpr ⟨rfl, nofun⟩

/-! ## Runs -/

/-- **Redials over whole runs.** For every interleaving of the watcher with any
number of openers: reads return the latest replacement and every redialled
connection is put in, waited for and kept exactly when each replacement meets a
receiver or its own value, and no opener's timeout falls between a redial and
the read that follows it. -/
theorem redialled_visible_iff (initial : Option Connection) (events : List Event) :
    AllStates step Visible (Slot.new initial) events ∧
        AllSteps step WaitsForRedialled (Slot.new initial) events ↔
      AllSteps step Received (Slot.new initial) events :=
  allStates_and_allSteps_iff (I := fun _ => True)
    (fun _ _ _ _ _ => trivial)
    (fun _ event _ _ visible stepped =>
      ⟨fun good => (visible_step_iff visible stepped).mp good.1,
        fun met => ⟨(visible_step_iff visible stepped).mpr met,
          waits_of_visible visible event⟩⟩)
    trivial (visible_new initial) events

/-- The connection dies while no client is waiting, and the watcher redials. -/
def idleRedial : List Event :=
  [.watcher .read, .die 0, .watcher .closed, .watcher .clear, .watcher .dialOk,
    .watcher .store]

/-- After an idle redial the slot still holds the dead connection. -/
theorem idle_redial_invisible :
    ¬ AllStates step Visible (Slot.new (some 0)) idleRedial := by
  intro all
  have ran : run step (Slot.new (some 0)) idleRedial = some _ := rfl
  have stale := (all.final ran).redialled 1 rfl
  exact absurd stale (by decide)

end LinkP2p.Stream
