import LinkP2p.Tun.MtuCell
import LinkP2p.Tun.PeerSender
import Mathlib.Data.Set.Basic

/-!
# The TUN device and its packets

One task reads the device into a buffer that is a little longer than `--mtu`. The kernel
hands over packets up to the MTU of the link, and the senders of the peers take what has
been read.
-/

namespace LinkP2p.Tun.TunIo

open LinkP2p.Lib.Transition
open LinkP2p.Lib.RateWindow (Window)
open LinkP2p.Tun.Sender (Handled handle)

/-- What a read writes into a buffer of a size when the kernel has a packet. -/
structure Device where
  recv : Nat → List UInt8 → List UInt8
  whole : ∀ size pkt, pkt.length ≤ size → recv size pkt = pkt
  fits : ∀ size pkt, (recv size pkt).length ≤ size

/-- A device that drops the rest of a packet, as the kernel's does. -/
def Device.truncating : Device where
  recv := List.take
  whole _ _ room := List.take_of_length_le room
  fits size pkt := List.length_take_le size pkt

/-- The capacity of the buffer. -/
def cap (user : UserMtu) : Nat := user.value + 64

structure State where
  iface : Cell.State
  /-- The task of `spawn_tun_io` is in its loop. -/
  running : Bool
  /-- The packets passed on, the last one first, and whether somebody has received them. -/
  passed : List (List UInt8 × Bool)
  /-- The error window of each sender. -/
  windows : Nat → Window

def State.start (user : UserMtu) : State := ⟨.start user, true, [], fun _ => ⟨0, 0⟩⟩

inductive Event where
  /-- Time goes by, or a session sets the interface. -/
  | iface (event : Cell.Event)
  /-- The kernel hands over a packet. -/
  | read (pkt : List UInt8) (received : Bool)
  | readFails
  /-- A packet is written into the device. -/
  | write (works : Bool)
  /-- A sender takes a packet that has been read; if it is too big, `set_tun_mtu` works or not. -/
  | send (s : Nat) (pkt : List UInt8) (maxDatagramSize : Option Nat) (works : Bool)

/-- The clock of the senders, in nanoseconds -/
def State.nanos (state : State) : Nat := state.iface.now * 1000000

/-- What a sender does with the packet. -/
def State.handles (own : OwnVips) (state : State) (s : Nat) (pkt : List UInt8)
    (maxDatagramSize : Option Nat) : Icmp.Checked (Handled × Window) :=
  handle own maxDatagramSize state.nanos pkt (state.windows s)

def step (device : Device) (own : OwnVips) (user : UserMtu) (state : State) :
    Event → Option State
  | .iface event =>
      (Cell.step user state.iface event).map fun iface => { state with iface }
  | .read pkt received =>
      if state.running = true ∧ pkt.length ≤ state.iface.link then
        some { state with
          running := received
          passed := (device.recv (cap user) pkt, received) :: state.passed }
      else none
  | .readFails => if state.running then some { state with running := false } else none
  | .write works => if state.running then some { state with running := works } else none
  | .send s pkt maxDatagramSize works =>
      if (pkt, true) ∈ state.passed then
        match state.handles own s pkt maxDatagramSize with
        | .error _ => none
        | .ok (.handed, _) => some state
        | .ok (.refused _ _, window) =>
            some { state with
              iface := Cell.oversize (maxDatagramSize.getD 0) works state.iface
              windows := Function.update state.windows s window }
      else none

/-! ## What is to hold -/

/-- A packet that the link admits is passed on byte for byte. -/
def PassesWhole (device : Device) (own : OwnVips) (user : UserMtu) (state : State)
    (event : Event) : Prop :=
  ∀ pkt received next, event = .read pkt received → pkt.length ≤ state.iface.link →
    step device own user state event = some next → next.passed = (pkt, received) :: state.passed

/-- The buffer takes what the link admits. -/
def Room (user : UserMtu) (state : State) : Prop := state.iface.link ≤ cap user

/-- A packet beyond `--mtu` or the path's ceiling is answered or dropped. -/
def Bounded (own : OwnVips) (user : UserMtu) (state : State) (event : Event) : Prop :=
  ∀ s pkt maxDatagramSize works, event = .send s pkt maxDatagramSize works →
    (user.value < pkt.length ∨ ∃ ceiling, maxDatagramSize = some ceiling ∧ ceiling < pkt.length) →
      ∃ opened icmp window,
        state.handles own s pkt maxDatagramSize = .ok (.refused opened icmp, window)

/-- A sender finds one of these maximal sizes. -/
def On (paths : Set (Option Nat)) : Event → Prop
  | .send _ _ maxDatagramSize _ => maxDatagramSize ∈ paths
  | _ => True

variable {device : Device} {own : OwnVips} {user : UserMtu} {state next : State} {event : Event}
  {pkt : List UInt8}

/-! ## Invariants -/

/-- The link has the least MTU for IPv6, and no packet that was read is longer. -/
def Sound (user : UserMtu) (state : State) : Prop :=
  Cell.Floored user state.iface ∧ ∀ entry ∈ state.passed, entry.1.length ≤ 1280

theorem sound_start (user : UserMtu) : Sound user (.start user) :=
  ⟨Cell.floored_start user, nofun⟩

/-- A packet does not grow in the buffer. -/
theorem length_recv_le (device : Device) (size : Nat) (pkt : List UInt8) :
    (device.recv size pkt).length ≤ pkt.length := by
  by_cases room : pkt.length ≤ size
  · rw [device.whole size pkt room]
  · exact Nat.le_trans (device.fits size pkt) (Nat.le_of_lt (Nat.not_le.mp room))

theorem sound_step (sound : Sound user state)
    (stepped : step device own user state event = some next) : Sound user next := by
  obtain ⟨floored, short⟩ := sound
  cases event with
  | iface event =>
      obtain ⟨iface, moved, rfl⟩ := Option.map_eq_some_iff.mp stepped
      exact ⟨Cell.floored_step floored moved, short⟩
  | read pkt received =>
      obtain ⟨⟨-, admitted⟩, same⟩ := Option.ite_none_right_eq_some.mp stepped
      cases same
      refine ⟨floored, fun entry member => ?_⟩
      rcases List.mem_cons.mp member with rfl | earlier
      · exact Nat.le_trans (length_recv_le ..) (floored.link ▸ admitted)
      · exact short entry earlier
  | readFails =>
      obtain ⟨-, same⟩ := Option.ite_none_right_eq_some.mp stepped
      cases same
      exact ⟨floored, short⟩
  | write works =>
      obtain ⟨-, same⟩ := Option.ite_none_right_eq_some.mp stepped
      cases same
      exact ⟨floored, short⟩
  | send s pkt maxDatagramSize works =>
      obtain ⟨-, handled⟩ := Option.ite_none_right_eq_some.mp stepped
      split at handled
      · cases handled
      · cases handled
        exact ⟨floored, short⟩
      · cases handled
        exact ⟨@Cell.floored_step _ _ _ (.oversize _ works) floored rfl, short⟩

theorem sound_run (device : Device) (own : OwnVips) (user : UserMtu) (events : List Event) :
    AllStates (step device own user) (Sound user) (.start user) events :=
  allStates_of_invariant (fun _ _ _ => sound_step) (sound_start user) events

/-! ## Reads -/

/-- The first packet that the kernel hands over. -/
theorem first_read (device : Device) (own : OwnVips) (user : UserMtu) (received : Bool)
    (short : pkt.length ≤ 1280) :
    step device own user (.start user) (.read pkt received) = some { State.start user with
      running := received
      passed := [(device.recv (cap user) pkt, received)] } := by
  refine if_pos ⟨rfl, ?_⟩
  rw [State.start, (Cell.floored_start user).link]
  exact short

theorem room_iff (floored : Cell.Floored user state.iface) :
    Room user state ↔ 1216 ≤ user.value := by
  rw [Room, floored.link, cap]
  omega

/-- What is passed on whole has fitted into the buffer. -/
theorem fits_of_passed (short : pkt.length ≤ 1280)
    (passes : PassesWhole device own user (.start user) (.read pkt true)) :
    pkt.length ≤ cap user := by
  have first := first_read device own user true short
  have link : (State.start user).iface.link = 1280 := (Cell.floored_start user).link
  have same := passes _ _ _ rfl (link ▸ short) first
  have whole : device.recv (cap user) pkt = pkt := congrArg Prod.fst (List.cons.inj same).1
  have fits := device.fits (cap user) pkt
  rwa [whole] at fits

theorem reads_whole_iff (device : Device) (own : OwnVips) (user : UserMtu) :
    (∀ events, AllSteps (step device own user) (PassesWhole device own user) (.start user) events) ↔
      1216 ≤ user.value := by
  constructor
  · intro all
    have length : (List.replicate 1280 (0x45 : UInt8)).length = 1280 := List.length_replicate
    obtain ⟨passes, -⟩ := all [.read (List.replicate 1280 0x45) true] _
      (first_read device own user true (Nat.le_of_eq length))
    have fits := fits_of_passed (Nat.le_of_eq length) passes
    rw [length, cap] at fits
    omega
  · intro room events
    refine (sound_run device own user events).edges (R := fun _ _ => True)
      (.of_forall fun _ _ => trivial) ?_
    rintro state event next sound - - - pkt received after rfl admitted stepped
    obtain ⟨-, same⟩ := Option.ite_none_right_eq_some.mp stepped
    cases same
    have fits : pkt.length ≤ cap user := Nat.le_trans admitted ((room_iff sound.1).mpr room)
    show (device.recv (cap user) pkt, received) :: state.passed = _
    rw [device.whole _ _ fits]

/-- The buffer takes every packet exactly from an `--mtu` of 1216 on. -/
theorem tun_reads_whole_iff (device : Device) (own : OwnVips) (user : UserMtu) :
    (∀ events, AllStates (step device own user) (Room user) (.start user) events ∧
      AllSteps (step device own user) (PassesWhole device own user) (.start user) events) ↔
        1216 ≤ user.value := by
  constructor
  · exact fun all => (reads_whole_iff device own user).mp fun events => (all events).2
  · intro room events
    refine ⟨?_, (reads_whole_iff device own user).mpr room events⟩
    exact (sound_run device own user events).mono fun state sound => (room_iff sound.1).mpr room

/-! ## Sends -/

theorem refuses_exceeding (own : OwnVips) (state : State) (s : Nat) {ceiling : Nat}
    (exceeds : ceiling < pkt.length) :
    ∃ opened icmp window,
      state.handles own s pkt (some ceiling) = .ok (.refused opened icmp, window) := by
  obtain ⟨icmp, handled, -⟩ :=
    Sender.handle_refines own (state.windows s) ⟨state.nanos, ceiling, pkt, exceeds⟩
  exact ⟨_, icmp, _, handled⟩

/-- The path has a ceiling, which is no higher than `--mtu`. -/
def Below (user : UserMtu) (maxDatagramSize : Option Nat) : Prop :=
  ∃ ceiling, maxDatagramSize = some ceiling ∧ ceiling ≤ user.value

theorem hands_over (own : OwnVips) (state : State) (s : Nat) {maxDatagramSize : Option Nat}
    (carried : ∀ ceiling, maxDatagramSize = some ceiling → pkt.length ≤ ceiling) :
    state.handles own s pkt maxDatagramSize = .ok (.handed, state.windows s) := by
  cases maxDatagramSize with
  | none => rfl
  | some ceiling => exact if_neg (Nat.not_lt.mpr (carried ceiling rfl))

theorem step_handed {s : Nat} {maxDatagramSize : Option Nat} {window : Window} {works : Bool}
    (read : (pkt, true) ∈ state.passed)
    (handed : state.handles own s pkt maxDatagramSize = .ok (.handed, window)) :
    step device own user state (.send s pkt maxDatagramSize works) = some state := by
  rw [step, if_pos read, handed]

/-- A packet that is longer than `--mtu` goes out when the link and the path carry it. -/
theorem unbounded_run {maxDatagramSize : Option Nat} (long : user.value < pkt.length)
    (short : pkt.length ≤ 1280) (room : pkt.length ≤ cap user)
    (carried : ∀ ceiling, maxDatagramSize = some ceiling → pkt.length ≤ ceiling) :
    ¬ AllSteps (step device own user) (Bounded own user) (.start user)
      [.read pkt true, .send 0 pkt maxDatagramSize true] := by
  intro all
  have first := first_read device own user true short
  rw [device.whole _ _ room] at first
  obtain ⟨-, later⟩ := all _ first
  have handed := fun state => hands_over own state 0 carried
  obtain ⟨bounded, -⟩ := later _ (step_handed List.mem_cons_self (handed _))
  obtain ⟨opened, icmp, window, refused⟩ := bounded 0 pkt maxDatagramSize true rfl (.inl long)
  cases (handed _).symm.trans refused

/-- `--mtu` bounds what goes out exactly if it is as high as the link's MTU, or as the ceiling
of every path. -/
theorem mtu_bounds_iff (device : Device) (own : OwnVips) (user : UserMtu)
    (paths : Set (Option Nat)) :
    (∀ events, (∀ event ∈ events, On paths event) →
      AllSteps (step device own user) (Bounded own user) (.start user) events) ↔
        user.value = 1280 ∨ ∀ maxDatagramSize ∈ paths, Below user maxDatagramSize := by
  constructor
  · intro all
    by_contra other
    obtain ⟨lower, found⟩ := not_or.mp other
    obtain ⟨maxDatagramSize, present, above⟩ := not_forall₂.mp found
    have most := user.le
    have length : (List.replicate (user.value + 1) (0x45 : UInt8)).length = user.value + 1 :=
      List.length_replicate
    have carried : ∀ ceiling, maxDatagramSize = some ceiling →
        (List.replicate (user.value + 1) (0x45 : UInt8)).length ≤ ceiling := by
      intro ceiling found
      by_contra exceeds
      exact above ⟨ceiling, found, by omega⟩
    have room : (List.replicate (user.value + 1) (0x45 : UInt8)).length ≤ cap user := by
      rw [length, cap]
      omega
    refine unbounded_run (by omega) (by omega) room carried (all _ fun event member => ?_)
    rcases List.mem_cons.mp member with rfl | later
    · trivial
    · obtain rfl := List.mem_singleton.mp later
      exact present
  · intro bound events on
    refine (sound_run device own user events).edges
      (AllSteps.of_mem fun event member _ => on event member) ?_
    rintro state event next ⟨-, short⟩ - on stepped s pkt maxDatagramSize works rfl exceeds
    obtain ⟨read, -⟩ := Option.ite_none_right_eq_some.mp stepped
    have length : pkt.length ≤ 1280 := short _ read
    have beyond : ∃ ceiling, maxDatagramSize = some ceiling ∧ ceiling < pkt.length := by
      rcases exceeds with long | exceeds
      · rcases bound with same | below
        · omega
        · obtain ⟨ceiling, found, low⟩ := below maxDatagramSize on
          exact ⟨ceiling, found, by omega⟩
      · exact exceeds
    obtain ⟨ceiling, rfl, smaller⟩ := beyond
    exact refuses_exceeding own state s smaller

/-! ## A clamped `--mtu` -/

def userMtu1162 : UserMtu := ⟨1162, rfl⟩

theorem clamped_read_truncated :
    ¬ (AllStates (step .truncating ⟨0, 0⟩ userMtu1162) (Room userMtu1162) (.start userMtu1162)
          [.read (List.replicate 1280 0x45) true] ∧
        AllSteps (step .truncating ⟨0, 0⟩ userMtu1162)
          (PassesWhole .truncating ⟨0, 0⟩ userMtu1162) (.start userMtu1162)
          [.read (List.replicate 1280 0x45) true]) := by
  rintro ⟨-, steps⟩
  have short : (List.replicate 1280 (0x45 : UInt8)).length ≤ 1280 :=
    Nat.le_of_eq List.length_replicate
  obtain ⟨passes, -⟩ := steps _ (first_read .truncating ⟨0, 0⟩ userMtu1162 true short)
  have fits := fits_of_passed short passes
  rw [List.length_replicate] at fits
  exact absurd fits (by decide)

theorem clamped_send_exceeds :
    ¬ AllSteps (step .truncating ⟨0, 0⟩ userMtu1162) (Bounded ⟨0, 0⟩ userMtu1162)
      (.start userMtu1162)
      [.read (List.replicate 1200 0x45) true,
        .send 0 (List.replicate 1200 0x45) (some 1280) true] := by
  have length : (List.replicate 1200 (0x45 : UInt8)).length = 1200 := List.length_replicate
  refine unbounded_run ?_ ?_ ?_ ?_
  · rw [length]
    decide
  · rw [length]
    decide
  · rw [length]
    decide
  · intro ceiling found
    cases found
    rw [length]
    decide

end LinkP2p.Tun.TunIo
