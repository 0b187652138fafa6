import LinkP2p.Lib.Transition
import Mathlib.Logic.Function.Basic

/-!
# An exchange of frames

Two sides exchange frames of one width over a stream in each direction. The
dialer writes its frame and then reads; the acceptor reads and then writes. A
stream takes and gives bytes in pieces of any size.
-/

namespace LinkP2p.Lib.Exchange

open LinkP2p.Lib.Transition

inductive Side where
  | dialer
  | acceptor
  deriving DecidableEq, Repr

def Side.peer : Side → Side
  | .dialer => .acceptor
  | .acceptor => .dialer

@[simp]
theorem Side.peer_peer (side : Side) : side.peer.peer = side := by
  cases side <;> rfl

theorem Side.peer_ne (side : Side) : side.peer ≠ side := by
  cases side <;> nofun

theorem Side.eq_or_eq_peer (side other : Side) : other = side ∨ other = side.peer := by
  cases side <;> cases other <;> simp [peer]

/-- One side of an exchange under way. -/
structure Half (β : Type) where
  /-- What it has still to write. -/
  left : List β
  /-- What is on its way to it. -/
  inbox : List β
  got : List β
  failed : Bool
  deriving DecidableEq, Repr

inductive Act where
  | write (count : Nat)
  | read (count : Nat)
  /-- An error of the connection, or a timeout. -/
  | fail
  deriving DecidableEq, Repr

structure Event where
  side : Side
  act : Act
  deriving DecidableEq, Repr

abbrev State (β : Type) := Side → Half β

variable {β : Type}

/-- Nothing is written yet. -/
def start (frames : Side → List β) : State β := fun side => ⟨frames side, [], [], false⟩

/-- The dialer reads only after it has written its frame. -/
def hears (state : State β) : Side → Bool
  | .dialer => (state .dialer).left.isEmpty
  | .acceptor => true

/-- The acceptor writes only after it has read a frame. -/
def speaks (width : Nat) (state : State β) : Side → Bool
  | .dialer => true
  | .acceptor => (state .acceptor).got.length = width

/-- The side writes so many bytes. -/
def write (state : State β) (side : Side) (count : Nat) : State β :=
  Function.update
    (Function.update state side { state side with left := (state side).left.drop count })
    side.peer { state side.peer with
      inbox := (state side.peer).inbox ++ (state side).left.take count }

/-- The side reads so many bytes. -/
def read (state : State β) (side : Side) (count : Nat) : State β :=
  Function.update state side { state side with
    inbox := (state side).inbox.drop count
    got := (state side).got ++ (state side).inbox.take count }

def fail (state : State β) (side : Side) : State β :=
  Function.update state side { state side with failed := true }

def step (width : Nat) (state : State β) : Event → Option (State β)
  | ⟨side, .write count⟩ =>
      if (state side).failed = false ∧ speaks width state side ∧
          0 < count ∧ count ≤ (state side).left.length then
        some (write state side count)
      else none
  | ⟨side, .read count⟩ =>
      if (state side).failed = false ∧ hears state side ∧
          0 < count ∧ count ≤ (state side).inbox.length ∧
          (state side).got.length + count ≤ width then
        some (read state side count)
      else none
  | ⟨side, .fail⟩ => some (fail state side)

theorem write_self (state : State β) (side : Side) (count : Nat) :
    write state side count side = { state side with left := (state side).left.drop count } := by
  rw [write, Function.update_of_ne side.peer_ne.symm, Function.update_self]

theorem write_peer (state : State β) (side : Side) (count : Nat) :
    write state side count side.peer = { state side.peer with
      inbox := (state side.peer).inbox ++ (state side).left.take count } :=
  Function.update_self ..

theorem left_write_peer (state : State β) (side : Side) (count : Nat) :
    (write state side count side.peer).left = (state side.peer).left := by
  rw [write_peer]

theorem read_self (state : State β) (side : Side) (count : Nat) :
    read state side count side = { state side with
      inbox := (state side).inbox.drop count
      got := (state side).got ++ (state side).inbox.take count } :=
  Function.update_self ..

theorem read_peer (state : State β) (side : Side) (count : Nat) :
    read state side count side.peer = state side.peer :=
  Function.update_of_ne side.peer_ne ..

/-- The side has written its frame and read one. -/
def Half.through (width : Nat) (half : Half β) : Bool :=
  half.left.isEmpty && half.got.length == width

theorem Half.through_iff {width : Nat} {half : Half β} :
    half.through width ↔ half.left = [] ∧ half.got.length = width := by
  rw [through, Bool.and_eq_true, List.isEmpty_iff, beq_iff_eq]

/-! ## Nothing is lost -/

/-- Each frame is in part written, in part on its way and in part read; the
acceptor keeps its own back until it has read all. -/
structure Sound (width : Nat) (frames : Side → List β) (state : State β) : Prop where
  bytes : ∀ side,
    (state side.peer).got ++ (state side.peer).inbox ++ (state side).left = frames side
  held : (state .acceptor).got.length ≠ width → (state .acceptor).left = frames .acceptor
  width : ∀ side, (state side).got.length ≤ width

variable {width : Nat} {frames : Side → List β} {state next : State β}

theorem sound_start : Sound width frames (start frames) where
  bytes _ := rfl
  held _ := rfl
  width _ := Nat.zero_le _

theorem sound_write (sound : Sound width frames state) {side : Side} {count : Nat}
    (speaks : speaks width state side = true) :
    Sound width frames (write state side count) := by
  have got : ∀ other, (write state side count other).got = (state other).got := by
    intro other
    rcases side.eq_or_eq_peer other with rfl | rfl
    · rw [write_self]
    · rw [write_peer]
  refine ⟨fun other => ?_, fun short => ?_, fun other => ?_⟩
  · rcases side.eq_or_eq_peer other with rfl | rfl
    · rw [write_peer, write_self, ← List.append_assoc, List.append_assoc _ _ (List.drop ..),
        List.take_append_drop, sound.bytes]
    · have same := sound.bytes side.peer
      rw [Side.peer_peer] at same ⊢
      rwa [write_self, write_peer]
  · rw [got] at short
    cases side with
    | dialer =>
        have kept : (write state .dialer count .acceptor).left = (state .acceptor).left :=
          left_write_peer state .dialer count
        rw [kept, sound.held short]
    | acceptor => exact absurd (of_decide_eq_true speaks) short
  · rw [got]
    exact sound.width other

theorem sound_read (sound : Sound width frames state) {side : Side} {count : Nat}
    (there : count ≤ (state side).inbox.length) (fits : (state side).got.length + count ≤ width) :
    Sound width frames (read state side count) := by
  have left : ∀ other, (read state side count other).left = (state other).left := by
    intro other
    rcases side.eq_or_eq_peer other with rfl | rfl
    · rw [read_self]
    · rw [read_peer]
  refine ⟨fun other => ?_, fun short => ?_, fun other => ?_⟩
  · rcases side.eq_or_eq_peer other with rfl | rfl
    · rw [read_peer, left, sound.bytes]
    · have same := sound.bytes side.peer
      rw [Side.peer_peer] at same ⊢
      rwa [left, read_self, List.append_assoc (state side).got, List.take_append_drop]
  · rw [left]
    refine sound.held fun full => short ?_
    cases side with
    | dialer =>
        have kept : read state .dialer count .acceptor = state .acceptor :=
          read_peer state .dialer count
        rw [kept, full]
    | acceptor =>
        -- a side that has its frame reads nothing more
        have none : count = 0 := by omega
        rw [read_self, none, List.take_zero, List.append_nil, full]
  · rcases side.eq_or_eq_peer other with rfl | rfl
    · rw [read_self, List.length_append, List.length_take, Nat.min_eq_left there]
      exact fits
    · rw [read_peer]
      exact sound.width _

theorem sound_fail (sound : Sound width frames state) (side : Side) :
    Sound width frames (fail state side) := by
  have same : ∀ other, (fail state side other).left = (state other).left ∧
      (fail state side other).inbox = (state other).inbox ∧
      (fail state side other).got = (state other).got := by
    intro other
    rcases side.eq_or_eq_peer other with rfl | rfl
    · rw [Exchange.fail, Function.update_self]
      exact ⟨rfl, rfl, rfl⟩
    · rw [Exchange.fail, Function.update_of_ne side.peer_ne]
      exact ⟨rfl, rfl, rfl⟩
  refine ⟨fun other => ?_, fun short => ?_, fun other => ?_⟩
  · rw [(same other).1, (same _).2.1, (same _).2.2, sound.bytes]
  · rw [(same _).2.2] at short
    rw [(same _).1, sound.held short]
  · rw [(same other).2.2]
    exact sound.width other

theorem sound_step (sound : Sound width frames state) {event : Event}
    (taken : step width state event = some next) : Sound width frames next := by
  obtain ⟨side, act⟩ := event
  cases act with
  | write count =>
      obtain ⟨⟨_, speaks, _, _⟩, same⟩ := Option.ite_none_right_eq_some.mp taken
      cases same
      exact sound_write sound speaks
  | read count =>
      obtain ⟨⟨_, _, _, there, fits⟩, same⟩ := Option.ite_none_right_eq_some.mp taken
      cases same
      exact sound_read sound there fits
  | fail =>
      cases taken
      exact sound_fail sound side

theorem sound_run {events : List Event} {final : State β}
    (ran : run (step width) (start frames) events = some final) : Sound width frames final :=
  (allStates_of_invariant (fun _ _ _ sound => sound_step sound) sound_start events).final ran

section Through

variable (sound : Sound width frames state) (widths : ∀ side, (frames side).length = width)
include sound widths

/-- A side that is through has the frame of its peer. -/
theorem Sound.got {side : Side} (full : (state side).got.length = width) :
    (state side).got = frames side.peer := by
  have whole := sound.bytes side.peer
  rw [Side.peer_peer, List.append_assoc] at whole
  have same : ((state side).got ++ ((state side).inbox ++ (state side.peer).left)).take width =
      (frames side.peer).take width := congrArg _ whole
  rwa [List.take_left' full, ← widths side.peer, List.take_length] at same

/-- When the dialer is through, the acceptor is. -/
theorem Sound.acceptor_through (positive : 0 < width)
    (through : (state .dialer).through width = true) :
    (state .acceptor).through width = true := by
  have full := (Half.through_iff.mp through).2
  have whole := sound.bytes .acceptor
  rw [List.append_assoc] at whole
  have written : (state .acceptor).left = [] := by
    have lengths := congrArg List.length whole
    rw [List.length_append, List.length_append, widths, Side.peer, full] at lengths
    exact List.eq_nil_of_length_eq_zero (by omega)
  refine Half.through_iff.mpr ⟨written, ?_⟩
  by_contra short
  have all := congrArg List.length (sound.held short)
  rw [written, widths, List.length_nil] at all
  omega

/-- Two sides that have not failed can go on until both are through. -/
theorem Sound.progress (running : ∀ side, (state side).failed = false)
    (stuck : ∀ side act, act ≠ .fail → step width state ⟨side, act⟩ = none) (side : Side) :
    (state side).through width = true := by
  have unwritten : ∀ side, speaks width state side = true → (state side).left = [] := by
    intro side speaks
    by_contra left
    have all := stuck side (.write (state side).left.length) nofun
    rw [step, if_pos ⟨running side, speaks, List.length_pos_iff.mpr left, Nat.le_refl _⟩] at all
    cases all
  have unread : ∀ side, hears state side = true → (state side).got.length ≠ width →
      (state side).inbox = [] := by
    intro side hears short
    by_contra inbox
    have some := List.length_pos_iff.mpr inbox
    have fits := sound.width side
    have all := stuck side (.read 1) nofun
    rw [step, if_pos ⟨running side, hears, Nat.one_pos, some, by omega⟩] at all
    cases all
  -- first the dialer writes, then the acceptor reads and writes, then the dialer reads
  have first : (state .dialer).left = [] := unwritten .dialer rfl
  have second : (state .acceptor).got.length = width := by
    by_contra short
    have whole := congrArg List.length (sound.bytes .dialer)
    rw [Side.peer, first, unread .acceptor rfl short, List.append_nil, List.append_nil,
      widths] at whole
    exact short whole
  have third : (state .acceptor).left = [] := unwritten .acceptor (decide_eq_true second)
  have fourth : (state .dialer).got.length = width := by
    by_contra short
    have hears : hears state .dialer = true := by rw [hears, first]; rfl
    have whole := congrArg List.length (sound.bytes .acceptor)
    rw [Side.peer, third, unread .dialer hears short, List.append_nil, List.append_nil,
      widths] at whole
    exact short whole
  cases side with
  | dialer => exact Half.through_iff.mpr ⟨first, fourth⟩
  | acceptor => exact Half.through_iff.mpr ⟨third, second⟩

end Through

/-! ## It comes to an end -/

/-- What an exchange has still to move: a byte is written and read. -/
def work (state : State β) : Nat :=
  2 * ((state .dialer).left.length + (state .acceptor).left.length) +
    (state .dialer).inbox.length + (state .acceptor).inbox.length

theorem work_step {event : Event} (taken : step width state event = some next)
    (moves : event.act ≠ .fail) : work next < work state := by
  obtain ⟨side, act⟩ := event
  cases act with
  | write count =>
      obtain ⟨⟨_, _, positive, there⟩, same⟩ := Option.ite_none_right_eq_some.mp taken
      cases same
      have self := write_self state side count
      have peer := write_peer state side count
      cases side with
      | dialer =>
          rw [Side.peer] at peer
          simp only [work, self, peer, List.length_drop, List.length_append, List.length_take]
          omega
      | acceptor =>
          rw [Side.peer] at peer
          simp only [work, self, peer, List.length_drop, List.length_append, List.length_take]
          omega
  | read count =>
      obtain ⟨⟨_, _, positive, there, _⟩, same⟩ := Option.ite_none_right_eq_some.mp taken
      cases same
      have self := read_self state side count
      have peer := read_peer state side count
      cases side with
      | dialer =>
          rw [Side.peer] at peer
          simp only [work, self, peer, List.length_drop]
          omega
      | acceptor =>
          rw [Side.peer] at peer
          simp only [work, self, peer, List.length_drop]
          omega
  | fail => exact absurd rfl moves

/-- A run without a failure is no longer than what there is to move. -/
theorem length_le_work {events : List Event} {final : State β}
    (ran : run (step width) state events = some final)
    (moves : ∀ event ∈ events, event.act ≠ .fail) : events.length + work final ≤ work state := by
  induction events generalizing state with
  | nil =>
      cases ran
      exact Nat.le_of_eq (Nat.zero_add _)
  | cons event rest ih =>
      obtain ⟨next, taken, ran⟩ := Option.bind_eq_some_iff.mp ran
      have less := work_step taken (moves event List.mem_cons_self)
      have later := ih ran fun other member => moves other (List.mem_cons_of_mem _ member)
      rw [List.length_cons]
      omega

theorem failed_step {event : Event} (taken : step width state event = some next)
    (moves : event.act ≠ .fail) (side : Side) : (next side).failed = (state side).failed := by
  obtain ⟨own, act⟩ := event
  cases act with
  | write count =>
      obtain ⟨_, same⟩ := Option.ite_none_right_eq_some.mp taken
      cases same
      rcases own.eq_or_eq_peer side with rfl | rfl
      · rw [write_self]
      · rw [write_peer]
  | read count =>
      obtain ⟨_, same⟩ := Option.ite_none_right_eq_some.mp taken
      cases same
      rcases own.eq_or_eq_peer side with rfl | rfl
      · rw [read_self]
      · rw [read_peer]
  | fail => exact absurd rfl moves

theorem failed_run {events : List Event} {final : State β}
    (ran : run (step width) (start frames) events = some final)
    (moves : ∀ event ∈ events, event.act ≠ .fail) (side : Side) :
    (final side).failed = false := by
  have steps : AllSteps (step width) (fun _ event => event.act ≠ .fail) (start frames) events :=
    .of_mem fun event member _ => moves event member
  have held : AllStates (step width) (fun state => (state side).failed = false) _ events :=
    steps.allStates
      (fun _ _ _ held moves taken => (failed_step taken moves side).trans held) rfl
  exact held.final ran

end LinkP2p.Lib.Exchange
