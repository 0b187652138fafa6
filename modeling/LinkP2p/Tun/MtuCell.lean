import LinkP2p.Tun.IfaceMtu

/-!
# The cell of the interface MTU

What the interface was last set to is remembered in a cell that all sessions share. A
session sets the interface when it starts, on a packet that is too big for its path and
when its path carries more again. Each of them may fail to set it.
-/

namespace LinkP2p.Tun.Cell

open LinkP2p.Lib.Transition
open LinkP2p.Tun.Mtu (clip mtuRaiseHoldoff)

def chooseMtu (user : UserMtu) (maxDatagramSize : Option Nat) : Except String Nat :=
  match maxDatagramSize with
  | none =>
      .error ("the peer or path does not support QUIC datagrams; " ++
        "TUN mode cannot work over this connection.\n" ++
        "Refusing to start rather than silently falling back to a stream transport.")
  | some maxDgram => .ok (min user.value (clip maxDgram))

/-- `create_device` and `set_mtu` on Linux -/
def linuxMtu (mtu : Nat) : Nat := max mtu 1280

structure State where
  /-- The MTU that the kernel has for the interface. -/
  link : Nat
  /-- `SharedIfaceMtu` -/
  cell : Nat
  /-- `MtuRaiseGate` -/
  gate : Nat
  now : Nat
  /-- What a spoke has set the interface to and not yet written into the cell. -/
  connecting : Option Nat
  /-- The calls of `set_tun_mtu` so far and whether they have worked, the last one first. -/
  calls : List (Nat × Bool)

def State.start (user : UserMtu) : State := ⟨linuxMtu user.value, user.value, 0, 0, none, []⟩

/-! ## The steps -/

def setTunMtu (mtu : Nat) (works : Bool) (state : State) : State :=
  { state with
    link := if works then linuxMtu mtu else state.link
    calls := (mtu, works) :: state.calls }

/-- The cell is written before the call, whose error is dropped. -/
def moveCell (mtu : Nat) (works : Bool) (state : State) : State :=
  setTunMtu mtu works { state with cell := mtu }

def refreshTunMtu (user : UserMtu) (maxDatagramSize : Option Nat) (works : Bool)
    (state : State) : State :=
  if state.now < state.gate then state
  else
    match maxDatagramSize with
    | none => state
    | some maxDgram =>
        let candidate := min user.value (clip maxDgram)
        if state.cell < candidate then moveCell candidate works state else state

/-- The state and the result, which is `none` for an error. -/
def shrinkTunMtu (ceiling : Nat) (works : Bool) (state : State) : State × Option Bool :=
  let ceiling := clip ceiling
  if ceiling < state.cell then
    (moveCell ceiling works state, if works then some true else none)
  else (state, some false)

def noteMtuShrink (state : State) : State :=
  { state with gate := state.now + mtuRaiseHoldoff }

/-- What `spawn_peer_sender` does when a packet exceeds the ceiling. -/
def oversize (ceiling : Nat) (works : Bool) (state : State) : State :=
  match shrinkTunMtu ceiling works state with
  | (next, some true) => noteMtuShrink next
  | (next, _) => next

/-- What `hub_run_spoke` and `phone_run_peer` do when a session starts. -/
def clamp (user : UserMtu) (maxDatagramSize : Option Nat) (works : Bool) (state : State) : State :=
  let sessionMtu := (chooseMtu user maxDatagramSize).toOption.getD user.value
  if sessionMtu < state.cell then moveCell sessionMtu works state else state

/-- What a spoke does when it has connected to its hub: it makes the call without the lock
and takes it for the cell afterwards. -/
def connect (user : UserMtu) (maxDatagramSize : Option Nat) (works : Bool) (state : State) :
    State :=
  match chooseMtu user maxDatagramSize with
  | .error _ => state
  | .ok sessionMtu =>
      let set := setTunMtu sessionMtu works state
      if works then { set with connecting := some sessionMtu } else set

inductive Event where
  | tick (millis : Nat)
  | refresh (maxDatagramSize : Option Nat) (works : Bool)
  | oversize (ceiling : Nat) (works : Bool)
  | clamp (maxDatagramSize : Option Nat) (works : Bool)
  | connect (maxDatagramSize : Option Nat) (works : Bool)
  /-- The spoke writes the cell after its call. -/
  | store

/-- The task of a spoke's session, which also refreshes, is not between call and cell; the
senders of its direct links may run there. -/
def step (user : UserMtu) (state : State) : Event → Option State
  | .tick millis => some { state with now := state.now + millis }
  | .oversize ceiling works => some (oversize ceiling works state)
  | .refresh maxDatagramSize works =>
      if state.connecting = none then some (refreshTunMtu user maxDatagramSize works state)
      else none
  | .clamp maxDatagramSize works =>
      if state.connecting = none then some (clamp user maxDatagramSize works state) else none
  | .connect maxDatagramSize works =>
      if state.connecting = none then some (connect user maxDatagramSize works state) else none
  | .store =>
      state.connecting.map fun sessionMtu => { state with cell := sessionMtu, connecting := none }

/-! ## What is to hold and what it takes -/

/-- The argument of the last call that has worked, or the initial MTU. -/
def told (user : UserMtu) (state : State) : Nat :=
  ((state.calls.find? Prod.snd).map Prod.fst).getD user.value

/-- The cell has what the interface was told, except in the middle of a spoke's start. -/
def Truthful (user : UserMtu) (state : State) : Prop :=
  state.connecting = none → state.cell = told user state

/-- The MTU that a step wants when the interface has the current one. -/
def wish (user : UserMtu) (state : State) (current : Nat) : Event → Option Nat
  | .tick _ | .store => none
  | .refresh maxDatagramSize _ =>
      maxDatagramSize.bind fun maxDgram =>
        let candidate := min user.value (clip maxDgram)
        if state.gate ≤ state.now ∧ current < candidate then some candidate else none
  | .oversize ceiling _ => if clip ceiling < current then some (clip ceiling) else none
  | .clamp maxDatagramSize _ =>
      let sessionMtu := (chooseMtu user maxDatagramSize).toOption.getD user.value
      if sessionMtu < current then some sessionMtu else none
  | .connect maxDatagramSize _ => (chooseMtu user maxDatagramSize).toOption

/-- A step that wants another MTU than the interface has tries to set it. -/
def Tries (user : UserMtu) (state : State) (event : Event) : Prop :=
  ∀ mtu next, wish user state (told user state) event = some mtu →
    step user state event = some next → ∃ works, next.calls = (mtu, works) :: state.calls

/-- The hold-off begins now. -/
def Armed (state : State) : Prop := state.gate = state.now + mtuRaiseHoldoff

/-- A step that lowers the interface arms the hold-off. -/
def Arms (user : UserMtu) (state : State) (event : Event) : Prop :=
  ∀ next, step user state event = some next → told user next < told user state → Armed next

/-- A call works that a refresh, a shrink or a clamp makes, and no session lowers the interface
when it starts, unless the hold-off has just been armed. Between the call of a spoke and the
cell, a packet that is too big for the interface is too big for the cell, and nobody has told
the interface another MTU when the cell is written. -/
def Meets (user : UserMtu) (state : State) : Event → Prop
  | .tick _ => True
  | .refresh maxDatagramSize works =>
      wish user state state.cell (.refresh maxDatagramSize works) = none ∨ works = true
  | .oversize ceiling works =>
      if state.connecting = none then
        wish user state state.cell (.oversize ceiling works) = none ∨ works = true
      else clip ceiling < told user state → clip ceiling < state.cell
  | .clamp maxDatagramSize works =>
      wish user state state.cell (.clamp maxDatagramSize works) = none ∨
        works = true ∧ Armed state
  | .connect maxDatagramSize works =>
      works = false ∨ (∀ mtu, chooseMtu user maxDatagramSize = .ok mtu → state.cell ≤ mtu) ∨
        Armed state
  | .store => state.connecting = some (told user state)

variable {user : UserMtu} {state next : State} {event : Event} {mtu : Nat} {works : Bool}
  {maxDatagramSize : Option Nat}

/-! ## What a step does -/

@[simp]
theorem told_moveCell : told user (moveCell mtu works state) =
    if works then mtu else told user state := by
  cases works with
  | false => rfl
  | true => rfl

@[simp]
theorem told_setTunMtu : told user (setTunMtu mtu works state) =
    if works then mtu else told user state := by
  cases works with
  | false => rfl
  | true => rfl

/-- A step leaves the state when it is content with the cell; otherwise it makes one call, or
writes the cell after one. -/
inductive Move (user : UserMtu) (state : State) : Event → State → Prop where
  | tick (millis : Nat) : Move user state (.tick millis) { state with now := state.now + millis }
  | content {event : Event} (settled : wish user state state.cell event = none)
      (other : event ≠ .store) : Move user state event state
  | raised {maxDatagramSize : Option Nat} {mtu : Nat} (works : Bool)
      (free : state.connecting = none)
      (wants : wish user state state.cell (.refresh maxDatagramSize works) = some mtu)
      (more : state.cell < mtu) :
      Move user state (.refresh maxDatagramSize works) (moveCell mtu works state)
  | shrunk {ceiling mtu : Nat}
      (wants : wish user state state.cell (.oversize ceiling true) = some mtu)
      (less : mtu < state.cell) :
      Move user state (.oversize ceiling true) (noteMtuShrink (moveCell mtu true state))
  | shrinkFailed {ceiling mtu : Nat}
      (wants : wish user state state.cell (.oversize ceiling false) = some mtu)
      (less : mtu < state.cell) :
      Move user state (.oversize ceiling false) (moveCell mtu false state)
  | clamped {maxDatagramSize : Option Nat} {mtu : Nat} (works : Bool)
      (free : state.connecting = none)
      (wants : wish user state state.cell (.clamp maxDatagramSize works) = some mtu)
      (less : mtu < state.cell) :
      Move user state (.clamp maxDatagramSize works) (moveCell mtu works state)
  | connected {maxDatagramSize : Option Nat} {mtu : Nat} (free : state.connecting = none)
      (chosen : chooseMtu user maxDatagramSize = .ok mtu) :
      Move user state (.connect maxDatagramSize true)
        { setTunMtu mtu true state with connecting := some mtu }
  | connectFailed {maxDatagramSize : Option Nat} {mtu : Nat} (free : state.connecting = none)
      (chosen : chooseMtu user maxDatagramSize = .ok mtu) :
      Move user state (.connect maxDatagramSize false) (setTunMtu mtu false state)
  | stored {mtu : Nat} (set : state.connecting = some mtu) :
      Move user state .store { state with cell := mtu, connecting := none }

theorem refresh_move (free : state.connecting = none) :
    Move user state (.refresh maxDatagramSize works)
      (refreshTunMtu user maxDatagramSize works state) := by
  unfold refreshTunMtu
  cases maxDatagramSize with
  | none =>
      rw [ite_self]
      exact .content rfl nofun
  | some maxDgram =>
      by_cases held : state.now < state.gate
      · rw [if_pos held]
        exact .content (if_neg fun due => absurd due.1 (Nat.not_le.mpr held)) nofun
      · rw [if_neg held]
        by_cases more : state.cell < min user.value (clip maxDgram)
        · refine (congrArg (Move user state _) (if_pos more)).mpr (.raised works free ?_ more)
          exact if_pos ⟨Nat.not_lt.mp held, more⟩
        · refine (congrArg (Move user state _) (if_neg more)).mpr (.content ?_ nofun)
          exact if_neg fun due => more due.2

theorem oversize_move (ceiling : Nat) :
    Move user state (.oversize ceiling works) (oversize ceiling works state) := by
  rw [oversize, shrinkTunMtu]
  by_cases less : clip ceiling < state.cell
  · have wants : wish user state state.cell (.oversize ceiling works) = some (clip ceiling) :=
      if_pos less
    rw [if_pos less]
    cases works with
    | false => exact .shrinkFailed wants less
    | true => exact .shrunk wants less
  · rw [if_neg less]
    exact .content (if_neg less) nofun

theorem clamp_move (free : state.connecting = none) :
    Move user state (.clamp maxDatagramSize works) (clamp user maxDatagramSize works state) := by
  rw [clamp]
  by_cases less : (chooseMtu user maxDatagramSize).toOption.getD user.value < state.cell
  · refine (congrArg (Move user state _) (if_pos less)).mpr (.clamped works free ?_ less)
    exact if_pos less
  · refine (congrArg (Move user state _) (if_neg less)).mpr (.content ?_ nofun)
    exact if_neg less

theorem connect_move (free : state.connecting = none) :
    Move user state (.connect maxDatagramSize works)
      (connect user maxDatagramSize works state) := by
  rw [connect]
  cases chosen : chooseMtu user maxDatagramSize with
  | error e =>
      refine .content ?_ nofun
      rw [wish, chosen]
      rfl
  | ok mtu =>
      cases works with
      | false => exact .connectFailed free chosen
      | true => exact .connected free chosen

theorem step_move (stepped : step user state event = some next) : Move user state event next := by
  cases event with
  | tick millis =>
      cases stepped
      exact .tick millis
  | oversize ceiling works =>
      cases stepped
      exact oversize_move ceiling
  | refresh maxDatagramSize works =>
      obtain ⟨free, same⟩ := Option.ite_none_right_eq_some.mp stepped
      cases same
      exact refresh_move free
  | clamp maxDatagramSize works =>
      obtain ⟨free, same⟩ := Option.ite_none_right_eq_some.mp stepped
      cases same
      exact clamp_move free
  | connect maxDatagramSize works =>
      obtain ⟨free, same⟩ := Option.ite_none_right_eq_some.mp stepped
      cases same
      exact connect_move free
  | store =>
      obtain ⟨mtu, set, rfl⟩ := Option.map_eq_some_iff.mp stepped
      exact .stored set

/-! ## The MTU of the link -/

/-- The kernel never has another MTU than the least one for IPv6. -/
structure Floored (user : UserMtu) (state : State) : Prop where
  cell : state.cell ≤ user.value
  connecting : ∀ mtu, state.connecting = some mtu → mtu ≤ user.value
  link : state.link = 1280

theorem linuxMtu_of_le (low : mtu ≤ user.value) : linuxMtu mtu = 1280 :=
  Nat.max_eq_right (Nat.le_trans low user.le)

theorem chooseMtu_le (chosen : chooseMtu user maxDatagramSize = .ok mtu) : mtu ≤ user.value := by
  cases maxDatagramSize with
  | none => cases chosen
  | some maxDgram =>
      cases chosen
      exact Nat.min_le_left ..

theorem wish_refresh_le {current : Nat}
    (wants : wish user state current (.refresh maxDatagramSize works) = some mtu) :
    mtu ≤ user.value := by
  obtain ⟨maxDgram, -, wants⟩ := Option.bind_eq_some_iff.mp wants
  obtain ⟨-, same⟩ := Option.ite_none_right_eq_some.mp wants
  cases same
  exact Nat.min_le_left ..

theorem link_setTunMtu (floored : Floored user state) (low : mtu ≤ user.value) :
    (setTunMtu mtu works state).link = 1280 := by
  cases works with
  | false => exact floored.link
  | true => exact linuxMtu_of_le low

theorem floored_moveCell (floored : Floored user state) (low : mtu ≤ user.value) :
    Floored user (moveCell mtu works state) where
  cell := low
  connecting := floored.connecting
  link := link_setTunMtu ⟨low, floored.connecting, floored.link⟩ low

theorem floored_start (user : UserMtu) : Floored user (.start user) where
  cell := Nat.le_refl _
  connecting _ set := by cases set
  link := linuxMtu_of_le (Nat.le_refl _)

theorem floored_step (floored : Floored user state) (stepped : step user state event = some next) :
    Floored user next := by
  have lower {mtu : Nat} (less : mtu < state.cell) : mtu ≤ user.value :=
    Nat.le_trans (Nat.le_of_lt less) floored.cell
  cases step_move stepped with
  | tick millis => exact ⟨floored.cell, floored.connecting, floored.link⟩
  | content settled => exact floored
  | raised works free wants more => exact floored_moveCell floored (wish_refresh_le wants)
  | @shrunk ceiling mtu wants less =>
      have moved : Floored user (moveCell mtu true state) := floored_moveCell floored (lower less)
      exact ⟨moved.cell, moved.connecting, moved.link⟩
  | shrinkFailed wants less => exact floored_moveCell floored (lower less)
  | clamped works free wants less => exact floored_moveCell floored (lower less)
  | @connected maxDatagramSize mtu free chosen =>
      have link : (setTunMtu mtu true state).link = 1280 :=
        link_setTunMtu floored (chooseMtu_le chosen)
      refine ⟨floored.cell, fun other set => ?_, link⟩
      cases set
      exact chooseMtu_le chosen
  | connectFailed free chosen =>
      exact ⟨floored.cell, floored.connecting, link_setTunMtu floored (chooseMtu_le chosen)⟩
  | @stored mtu set => exact ⟨floored.connecting mtu set, nofun, floored.link⟩

/-! ## One step -/

theorem moveCell_truthful_iff (free : state.connecting = none) (honest : Truthful user state)
    (other : mtu ≠ state.cell) : Truthful user (moveCell mtu works state) ↔ works = true := by
  have settled : Truthful user (moveCell mtu works state) ↔
      mtu = told user (moveCell mtu works state) :=
    ⟨fun truthful => truthful free, fun same _ => same⟩
  rw [settled, told_moveCell]
  cases works with
  | true => exact iff_of_true rfl rfl
  | false =>
      exact iff_of_false (fun same => other (same.trans (honest free).symm)) Bool.false_ne_true

theorem meets_call_iff {wanted : Option Nat} (wants : wanted = some mtu) {met : Prop} :
    wanted = none ∨ met ↔ met := by
  rw [wants]
  exact or_iff_right (Option.some_ne_none mtu)

theorem tries_iff (stepped : step user state event = some next) :
    Tries user state event ↔ ∀ mtu, wish user state (told user state) event = some mtu →
      ∃ works, next.calls = (mtu, works) :: state.calls := by
  constructor
  · exact fun tries mtu wants => tries mtu next wants stepped
  · intro called mtu other wants stepped'
    cases stepped.symm.trans stepped'
    exact called mtu wants

theorem arms_iff (stepped : step user state event = some next) :
    Arms user state event ↔ (told user next < told user state → Armed next) := by
  constructor
  · exact fun arms => arms next stepped
  · intro armed other stepped'
    cases stepped.symm.trans stepped'
    exact armed

/-- A step that leaves the calls alone lowers nothing. -/
theorem arms_of_calls (same : next.calls = state.calls) :
    told user next < told user state → Armed next := by
  intro lower
  rw [told, told, same] at lower
  exact absurd lower (Nat.lt_irrefl _)

/-- What a step that leads to `next` has to keep. -/
abbrev Kept (user : UserMtu) (state : State) (event : Event) (next : State) : Prop :=
  Truthful user next ∧
    (∀ mtu, wish user state (told user state) event = some mtu →
      ∃ works, next.calls = (mtu, works) :: state.calls) ∧
    (told user next < told user state → Armed next)

/-- Between the call of a spoke and the cell only the packets that are too big matter. -/
theorem oversize_connecting_iff {ceiling : Nat} (connecting : state.connecting ≠ none)
    (move : Move user state (.oversize ceiling works) next) :
    Kept user state (.oversize ceiling works) next ↔ Meets user state (.oversize ceiling works) := by
  rw [Meets, if_neg connecting]
  have want {mtu current : Nat}
      (wants : wish user state current (.oversize ceiling works) = some mtu) :
      clip ceiling < current ∧ clip ceiling = mtu := by
    obtain ⟨less, same⟩ := Option.ite_none_right_eq_some.mp wants
    exact ⟨less, Option.some.inj same⟩
  have called {mtu : Nat}
      (wants : wish user state state.cell (.oversize ceiling works) = some mtu) :
      ∀ other, wish user state (told user state) (.oversize ceiling works) = some other →
        ∃ works', (mtu, works) :: state.calls = (other, works') :: state.calls := by
    intro other wants'
    rw [← (want wants).2, ← (want wants').2]
    exact ⟨works, rfl⟩
  cases move with
  | content settled =>
      refine ⟨fun kept less => ?_, fun below => ⟨fun free => absurd free connecting, ?_, ?_⟩⟩
      · obtain ⟨works', called⟩ := kept.2.1 _ (if_pos less)
        exact absurd (congrArg List.length called) (Nat.ne_of_lt (Nat.lt_succ_self _))
      · intro mtu wants
        have exceeds : clip ceiling < state.cell := below (want wants).1
        cases settled.symm.trans (if_pos exceeds)
      · exact arms_of_calls rfl
  | shrunk wants less =>
      exact iff_of_true ⟨fun free => absurd free connecting, called wants, fun _ => rfl⟩
        fun _ => (want wants).2 ▸ less
  | shrinkFailed wants less =>
      exact iff_of_true ⟨fun free => absurd free connecting, called wants,
        fun lower => absurd lower (Nat.lt_irrefl _)⟩ fun _ => (want wants).2 ▸ less

/-- While no call of a spoke is under way, a step keeps it all exactly if it meets the
condition. -/
theorem settled_iff (honest : Truthful user state) (free : state.connecting = none)
    (move : Move user state event next) : Kept user state event next ↔ Meets user state event := by
  have cell : told user state = state.cell := (honest free).symm
  have called {mtu : Nat} (wants : wish user state state.cell event = some mtu) (works : Bool)
      (made : next.calls = (mtu, works) :: state.calls) :
      ∀ other, wish user state (told user state) event = some other →
        ∃ works', next.calls = (other, works') :: state.calls := by
    intro other wants'
    rw [cell, wants] at wants'
    cases wants'
    exact ⟨works, made⟩
  cases move with
  | tick millis => exact iff_of_true ⟨fun _ => honest free, nofun, arms_of_calls rfl⟩ trivial
  | content settled other =>
      refine iff_of_true ⟨honest, ?_, arms_of_calls rfl⟩ ?_
      · rw [cell, settled]
        exact nofun
      · cases event with
        | tick millis => trivial
        | refresh maxDatagramSize works => exact .inl settled
        | oversize ceiling works =>
            rw [Meets, if_pos free]
            exact .inl settled
        | clamp maxDatagramSize works => exact .inl settled
        | connect maxDatagramSize works =>
            refine .inr (.inl fun mtu chosen => ?_)
            rw [wish, chosen] at settled
            cases settled
        | store => exact absurd rfl other
  | raised works _ wants more =>
      refine Iff.trans ?_ (meets_call_iff wants).symm
      rw [← moveCell_truthful_iff free honest (Nat.ne_of_gt more)]
      refine and_iff_left ⟨called wants works rfl, fun lower => ?_⟩
      rw [told_moveCell, cell] at lower
      split at lower
      · exact absurd more (Nat.lt_asymm lower)
      · exact absurd lower (Nat.lt_irrefl _)
  | shrunk wants less =>
      rw [Meets, if_pos free]
      refine iff_of_true ⟨?_, called wants true rfl, fun _ => rfl⟩ (.inr rfl)
      exact (moveCell_truthful_iff free honest (Nat.ne_of_lt less)).mpr rfl
  | shrinkFailed wants less =>
      rw [Meets, if_pos free]
      refine iff_of_false (fun kept => ?_) fun met => ?_
      · cases (moveCell_truthful_iff free honest (Nat.ne_of_lt less)).mp kept.1
      · cases (meets_call_iff wants).mp met
  | clamped works _ wants less =>
      refine Iff.trans ?_ (meets_call_iff wants).symm
      rw [Kept, moveCell_truthful_iff free honest (Nat.ne_of_lt less)]
      refine and_congr_right fun works => ?_
      subst works
      refine ⟨fun kept => kept.2 ?_, fun armed => ⟨called wants true rfl, fun _ => armed⟩⟩
      rw [told_moveCell, if_pos rfl, cell]
      exact less
  | @connected maxDatagramSize mtu _ chosen =>
      have wants : wish user state state.cell (.connect maxDatagramSize true) = some mtu := by
        rw [wish, chosen]
        rfl
      constructor
      · rintro ⟨-, -, arms⟩
        by_cases less : mtu < state.cell
        · exact .inr (.inr (arms (cell ▸ less)))
        · refine .inr (.inl fun other same => ?_)
          cases chosen.symm.trans same
          exact Nat.not_lt.mp less
      · rintro (failed | higher | armed)
        · cases failed
        · refine ⟨nofun, called wants true rfl, fun lower => ?_⟩
          exact absurd (cell ▸ lower) (Nat.not_lt.mpr (higher mtu chosen))
        · exact ⟨nofun, called wants true rfl, fun _ => armed⟩
  | @connectFailed maxDatagramSize mtu _ chosen =>
      have wants : wish user state state.cell (.connect maxDatagramSize false) = some mtu := by
        rw [wish, chosen]
        rfl
      refine iff_of_true ⟨honest, called wants false rfl, fun lower => ?_⟩ (.inl rfl)
      exact absurd lower (Nat.lt_irrefl _)
  | stored set => cases free.symm.trans set

/-- While one is, and the cell is still to be written. -/
theorem connecting_iff (honest : Truthful user state) (connecting : state.connecting ≠ none)
    (stepped : step user state event = some next) :
    Kept user state event next ↔ Meets user state event := by
  cases step_move stepped with
  | tick millis =>
      exact iff_of_true ⟨fun settled => absurd settled connecting, nofun, arms_of_calls rfl⟩ trivial
  | content settled other =>
      cases event with
      | oversize ceiling works =>
          exact oversize_connecting_iff connecting (.content settled other)
      | tick millis => exact iff_of_true ⟨honest, nofun, arms_of_calls rfl⟩ trivial
      | store => exact absurd rfl other
      | _ => cases stepped.symm.trans (if_neg connecting)
  | shrunk wants less => exact oversize_connecting_iff connecting (.shrunk wants less)
  | shrinkFailed wants less => exact oversize_connecting_iff connecting (.shrinkFailed wants less)
  | @stored mtu set =>
      have truthful : Truthful user { state with cell := mtu, connecting := none } ↔
          mtu = told user state := ⟨fun same => same rfl, fun same _ => same⟩
      rw [Kept, truthful, Meets, set, Option.some.injEq]
      exact and_iff_left ⟨nofun, arms_of_calls rfl⟩
  | raised works settled => exact absurd settled connecting
  | clamped works settled => exact absurd settled connecting
  | connected settled => exact absurd settled connecting
  | connectFailed settled => exact absurd settled connecting

/-- The truthful cell is kept, the wish is tried and the hold-off armed, exactly if the
step meets the condition. -/
theorem step_iff (honest : Truthful user state) (stepped : step user state event = some next) :
    Truthful user next ∧ Tries user state event ∧ Arms user state event ↔
      Meets user state event := by
  rw [tries_iff stepped, arms_iff stepped]
  by_cases free : state.connecting = none
  · exact settled_iff honest free (step_move stepped)
  · exact connecting_iff honest free stepped

/-! ## Runs -/

/-- In every run the cell is truthful in each state, each step tries what it wants and the
hold-off is armed whenever the interface is lowered, exactly if all steps meet the
condition. -/
theorem mtu_cell_truthful_iff (user : UserMtu) (events : List Event) :
    AllStates (step user) (Truthful user) (.start user) events ∧
        AllSteps (step user) (fun state event => Tries user state event ∧ Arms user state event)
          (.start user) events ↔
      AllSteps (step user) (Meets user) (.start user) events := by
  have honest : Truthful user (.start user) := fun _ => rfl
  refine allStates_and_allSteps_iff (I := fun _ => True) (fun _ _ _ _ _ => trivial) ?_ trivial
    honest events
  intro state event next _ honest stepped
  exact step_iff honest stepped

/-- After a shrink that has failed the next packet does not try it again. -/
theorem failed_shrink_forgotten :
    ¬ ∀ (user : UserMtu) (events : List Event),
      AllStates (step user) (Truthful user) (.start user) events ∧
        AllSteps (step user) (fun state event => Tries user state event ∧ Arms user state event)
          (.start user) events := by
  intro all
  obtain ⟨-, steps⟩ := all userMtu1280 [.oversize 1162 false, .oversize 1162 true]
  obtain ⟨-, later⟩ := steps _ rfl
  obtain ⟨⟨tries, -⟩, -⟩ := later _ rfl
  obtain ⟨works, called⟩ := tries 1162 _ rfl rfl
  cases congrArg List.length called

end LinkP2p.Tun.Cell
