import LinkP2p.Lib.Transition
import Mathlib.Data.List.Perm.Subperm
import Mathlib.Data.List.Range

/-!
# The MTU that several sessions share

Every session of a hub or a phone lowers the interface MTU to the ceiling of its
own path and raises it back to that ceiling. The value lives behind one lock, the
instant before which nobody may raise it behind another.
-/

namespace LinkP2p.Tun

def validateMtu (mtu : Nat) : Except String Unit :=
  if 1280 < mtu then
    .error (s!"--mtu must be at most 1280 (got {mtu}); " ++
      "higher values would fragment the outer QUIC datagrams")
  else .ok ()

/-- The `--mtu` of a command, which `validate_mtu` has accepted. -/
structure UserMtu where
  value : Nat
  valid : validateMtu value = .ok ()

theorem UserMtu.le (user : UserMtu) : user.value ≤ 1280 := by
  by_contra above
  have valid := user.valid
  rw [validateMtu, if_pos (Nat.not_le.mp above)] at valid
  cases valid

def userMtu1280 : UserMtu := ⟨1280, rfl⟩

namespace Mtu

open LinkP2p.Lib.Transition

/-- `MTU_RAISE_HOLDOFF`, in milliseconds -/
def mtuRaiseHoldoff : Nat := 15000

/-- `u16::try_from(size).unwrap_or(u16::MAX)` -/
def clip (size : Nat) : Nat := min size 65535

/-- `--mtu`, and `max_datagram_size` of each session's connection. -/
structure Config where
  userMtu : UserMtu
  ceilings : List Nat

structure State where
  /-- `SharedIfaceMtu` -/
  mtu : Nat
  /-- `MtuRaiseGate` -/
  gate : Nat
  now : Nat
  /-- The sessions past their clamp, which run a read loop. -/
  started : List Nat
  /-- The senders that have lowered the MTU and not yet moved the gate. -/
  noting : List Nat
  /-- The refresh that holds the lock of the MTU, and the gate as it has read it. -/
  refreshing : Option (Nat × Nat)
  /-- The shrinks so far, each with its session and its instant. -/
  shrinks : List (Nat × Nat)

def State.start (config : Config) : State := ⟨config.userMtu.value, 0, 0, [], [], none, []⟩

inductive Event where
  | tick (millis : Nat)
  /-- The clamp of `hub_run_spoke` and `phone_run_peer` at the start of a session. -/
  | clamp (s : Nat)
  /-- A sender takes a packet from its queue. -/
  | send (s : Nat) (length : Nat)
  /-- `note_mtu_shrink` -/
  | note (s : Nat)
  /-- `try_refresh_tun_mtu` has the lock and reads the gate. -/
  | check (s : Nat)
  /-- `refresh_tun_mtu` -/
  | refresh (s : Nat)
  deriving DecidableEq, Repr

/-- `choose_mtu`, and the candidate of `refresh_tun_mtu` -/
def candidate (config : Config) (ceiling : Nat) : Nat := min config.userMtu.value (clip ceiling)

/-- `shrink_tun_mtu` and what follows it in `spawn_peer_sender`. -/
def shrink (s ceiling : Nat) (state : State) : State :=
  if clip ceiling < state.mtu then
    { state with
      mtu := clip ceiling
      noting := s :: state.noting
      shrinks := (s, state.now) :: state.shrinks }
  else state

def step (config : Config) (state : State) : Event → Option State
  | .tick millis => some { state with now := state.now + millis }
  | .clamp s =>
      (config.ceilings[s]?).bind fun ceiling =>
        if state.refreshing = none ∧ s ∉ state.started then
          some { state with
            mtu := if candidate config ceiling < state.mtu then candidate config ceiling
              else state.mtu
            started := s :: state.started }
        else none
  | .send s length =>
      (config.ceilings[s]?).bind fun ceiling =>
        if s ∈ state.noting then none
        else if length ≤ ceiling then some state
        else if state.refreshing = none then some (shrink s ceiling state)
        else none
  | .note s =>
      if s ∈ state.noting then
        some { state with
          noting := state.noting.erase s
          gate := state.now + mtuRaiseHoldoff }
      else none
  | .check s =>
      if state.refreshing = none ∧ s ∈ state.started then
        some { state with refreshing := some (s, state.gate) }
      else none
  | .refresh s =>
      (config.ceilings[s]?).bind fun ceiling =>
        match state.refreshing with
        | some (s', raiseAfter) =>
            if s' = s then
              some { state with
                refreshing := none
                mtu := if state.now < raiseAfter then state.mtu
                  else if state.mtu < candidate config ceiling then candidate config ceiling
                  else state.mtu }
            else none
        | none => none

/-! ## What is to hold -/

/-- The refresh raises the MTU. -/
def Raises (config : Config) (state : State) (s : Nat) : Prop :=
  ∃ ceiling raiseAfter, config.ceilings[s]? = some ceiling ∧
    state.refreshing = some (s, raiseAfter) ∧ raiseAfter ≤ state.now ∧
      state.mtu < candidate config ceiling

/-- No raise comes before every shrink is as long ago as the hold-off. -/
def HeldOff (config : Config) (state : State) (event : Event) : Prop :=
  ∀ s, event = .refresh s → Raises config state s →
    ∀ shrunk ∈ state.shrinks, shrunk.2 + mtuRaiseHoldoff ≤ state.now

/-- There are no more shrinks than sessions. -/
def Few (config : Config) (state : State) : Prop :=
  state.shrinks.length ≤ config.ceilings.length

/-- All sessions would choose the same MTU. -/
def Level (config : Config) : Prop :=
  ∀ ceiling ∈ config.ceilings, ∀ ceiling' ∈ config.ceilings,
    candidate config ceiling = candidate config ceiling'

/-- A gate is read when every shrink is noted, and a raise respects the ceiling of every
session that has lowered the MTU before. -/
def Calm (config : Config) (state : State) : Event → Prop
  | .check _ => state.noting = []
  | .refresh s => Raises config state s → ∀ shrunk ∈ state.shrinks, ∀ ceiling ceiling',
      config.ceilings[s]? = some ceiling → config.ceilings[shrunk.1]? = some ceiling' →
        candidate config ceiling ≤ clip ceiling'
  | _ => True

variable {config : Config} {state next : State} {event : Event}

/-! ## Inversion -/

/-- What a step does. -/
inductive Move (config : Config) (state : State) : Event → State → Prop where
  | tick (millis : Nat) : Move config state (.tick millis) { state with now := state.now + millis }
  | clamp {s ceiling : Nat} (known : config.ceilings[s]? = some ceiling)
      (free : state.refreshing = none) :
      Move config state (.clamp s)
        { state with
          mtu := min state.mtu (candidate config ceiling)
          started := s :: state.started }
  | quiet (s length : Nat) : Move config state (.send s length) state
  | shrunk {s length ceiling : Nat} (known : config.ceilings[s]? = some ceiling)
      (exceeds : clip ceiling < state.mtu) (free : state.refreshing = none) :
      Move config state (.send s length)
        { state with
          mtu := clip ceiling
          noting := s :: state.noting
          shrinks := (s, state.now) :: state.shrinks }
  | note {s : Nat} (member : s ∈ state.noting) :
      Move config state (.note s)
        { state with
          noting := state.noting.erase s
          gate := state.now + mtuRaiseHoldoff }
  | check {s : Nat} (free : state.refreshing = none) :
      Move config state (.check s) { state with refreshing := some (s, state.gate) }
  | kept {s : Nat} (calm : ¬ Raises config state s) :
      Move config state (.refresh s) { state with refreshing := none }
  | raised {s ceiling : Nat} (known : config.ceilings[s]? = some ceiling)
      (raises : Raises config state s) :
      Move config state (.refresh s)
        { state with refreshing := none, mtu := candidate config ceiling }

theorem step_move (stepped : step config state event = some next) :
    Move config state event next := by
  cases event with
  | tick millis =>
      cases stepped
      exact .tick millis
  | clamp s =>
      obtain ⟨ceiling, known, stepped⟩ := Option.bind_eq_some_iff.mp stepped
      obtain ⟨⟨free, -⟩, same⟩ := Option.ite_none_right_eq_some.mp stepped
      cases same
      have lower : (if candidate config ceiling < state.mtu then candidate config ceiling
          else state.mtu) = min state.mtu (candidate config ceiling) := by
        split <;> omega
      rw [lower]
      exact .clamp known free
  | send s length =>
      obtain ⟨ceiling, known, stepped⟩ := Option.bind_eq_some_iff.mp stepped
      obtain ⟨-, stepped⟩ := Option.ite_none_left_eq_some.mp stepped
      split at stepped
      · cases stepped
        exact .quiet s length
      · obtain ⟨free, same⟩ := Option.ite_none_right_eq_some.mp stepped
        cases same
        unfold shrink
        split
        · exact .shrunk known ‹_› free
        · exact .quiet s length
  | note s =>
      obtain ⟨member, same⟩ := Option.ite_none_right_eq_some.mp stepped
      cases same
      exact .note member
  | check s =>
      obtain ⟨⟨free, -⟩, same⟩ := Option.ite_none_right_eq_some.mp stepped
      cases same
      exact .check free
  | refresh s =>
      obtain ⟨ceiling, known, stepped⟩ := Option.bind_eq_some_iff.mp stepped
      cases held : state.refreshing with
      | none => simp only [held, reduceCtorEq] at stepped
      | some holder =>
          obtain ⟨s', raiseAfter⟩ := holder
          simp only [held] at stepped
          obtain ⟨rfl, same⟩ := Option.ite_none_right_eq_some.mp stepped
          cases same
          by_cases raises : Raises config state s'
          · obtain ⟨ceiling', raiseAfter', known', held', open_, exceeds⟩ := id raises
            cases known.symm.trans known'
            cases held.symm.trans held'
            rw [if_neg (Nat.not_lt.mpr open_), if_pos exceeds]
            exact .raised known raises
          · have stays : (if state.now < raiseAfter then state.mtu
                else if state.mtu < candidate config ceiling then candidate config ceiling
                else state.mtu) = state.mtu := by
              by_cases early : state.now < raiseAfter
              · rw [if_pos early]
              · rw [if_neg early, if_neg]
                exact fun exceeds =>
                  raises ⟨ceiling, raiseAfter, known, held, Nat.not_lt.mp early, exceeds⟩
            rw [stays]
            exact .kept raises

/-! ## The bound of the user -/

theorem bounded_step (bounded : state.mtu ≤ config.userMtu.value)
    (stepped : step config state event = some next) : next.mtu ≤ config.userMtu.value := by
  cases step_move stepped with
  | clamp => exact Nat.le_trans (Nat.min_le_left _ _) bounded
  | shrunk known exceeds free => exact Nat.le_trans (Nat.le_of_lt exceeds) bounded
  | raised => exact Nat.min_le_left _ _
  | _ => exact bounded

/-- The MTU never exceeds what the user has allowed. -/
theorem bounded (config : Config) (events : List Event) :
    AllStates (step config) (fun state => state.mtu ≤ config.userMtu.value) (.start config)
      events :=
  allStates_of_invariant (fun _ _ _ => bounded_step) (Nat.le_refl _) events

/-! ## Calm runs -/

/-- What a calm run keeps. -/
structure Settled (config : Config) (state : State) : Prop where
  known : ∀ shrunk ∈ state.shrinks, shrunk.1 < config.ceilings.length
  /-- The MTU is within the ceiling of each session that has lowered it. -/
  capped : ∀ shrunk ∈ state.shrinks, ∀ ceiling, config.ceilings[shrunk.1]? = some ceiling →
    state.mtu ≤ clip ceiling
  once : (state.shrinks.map Prod.fst).Nodup
  past : ∀ shrunk ∈ state.shrinks, shrunk.2 ≤ state.now
  /-- The gate covers every shrink that is noted. -/
  noted : ∀ shrunk ∈ state.shrinks,
    shrunk.1 ∈ state.noting ∨ shrunk.2 + mtuRaiseHoldoff ≤ state.gate
  read : ∀ s raiseAfter, state.refreshing = some (s, raiseAfter) →
    ∀ shrunk ∈ state.shrinks, shrunk.2 + mtuRaiseHoldoff ≤ raiseAfter

theorem settled_start (config : Config) : Settled config (.start config) where
  known _ member := absurd member List.not_mem_nil
  capped _ member := absurd member List.not_mem_nil
  once := List.nodup_nil
  past _ member := absurd member List.not_mem_nil
  noted _ member := absurd member List.not_mem_nil
  read _ _ held := by cases held

/-- A session that has lowered the MTU does not lower it again. -/
theorem Settled.shrunk (settled : Settled config state) {s ceiling : Nat}
    (known : config.ceilings[s]? = some ceiling) (exceeds : clip ceiling < state.mtu)
    (free : state.refreshing = none) :
    Settled config { state with
      mtu := clip ceiling
      noting := s :: state.noting
      shrinks := (s, state.now) :: state.shrinks } where
  known := by
    refine List.forall_mem_cons.mpr ⟨?_, settled.known⟩
    exact (List.getElem?_eq_some_iff.mp known).1
  capped := by
    refine List.forall_mem_cons.mpr ⟨?_, ?_⟩
    · intro ceiling' known'
      cases known.symm.trans known'
      exact Nat.le_refl _
    · intro shrunk member ceiling' known'
      exact Nat.le_trans (Nat.le_of_lt exceeds) (settled.capped shrunk member ceiling' known')
  once := by
    refine List.nodup_cons.mpr ⟨?_, settled.once⟩
    intro again
    obtain ⟨shrunk, member, same⟩ := List.mem_map.mp again
    have under := settled.capped shrunk member ceiling (by rw [same]; exact known)
    exact absurd exceeds (Nat.not_lt.mpr under)
  past := List.forall_mem_cons.mpr ⟨Nat.le_refl _, settled.past⟩
  noted := by
    refine List.forall_mem_cons.mpr ⟨.inl List.mem_cons_self, ?_⟩
    intro shrunk member
    rcases settled.noted shrunk member with noting | covered
    · exact .inl (List.mem_cons_of_mem _ noting)
    · exact .inr covered
  read s raiseAfter held := by cases free.symm.trans held

theorem settled_step (settled : Settled config state) (calm : Calm config state event)
    (stepped : step config state event = some next) : Settled config next := by
  cases step_move stepped with
  | tick millis =>
      exact { settled with
        past := fun shrunk member =>
          Nat.le_trans (settled.past shrunk member) (Nat.le_add_right _ _) }
  | clamp known free =>
      exact { settled with
        capped := fun shrunk member ceiling known =>
          Nat.le_trans (Nat.min_le_left _ _) (settled.capped shrunk member ceiling known) }
  | quiet => exact settled
  | shrunk known exceeds free => exact settled.shrunk known exceeds free
  | note member =>
      exact { settled with
        noted := fun shrunk member => .inr (Nat.add_le_add_right (settled.past shrunk member) _) }
  | check free =>
      refine { settled with read := ?_ }
      intro s raiseAfter held shrunk member
      cases held
      have none_noting : state.noting = [] := calm
      refine (settled.noted shrunk member).resolve_left ?_
      rw [none_noting]
      exact List.not_mem_nil
  | kept quiet =>
      refine { settled with read := ?_ }
      intro s raiseAfter held
      cases held
  | raised known raises =>
      refine { settled with capped := ?_, read := ?_ }
      · intro shrunk member ceiling' known'
        exact calm raises shrunk member _ ceiling' known known'
      · intro s raiseAfter held
        cases held

theorem Settled.few (settled : Settled config state) : Few config state := by
  have inside : state.shrinks.map Prod.fst ⊆ List.range config.ceilings.length := by
    intro s member
    obtain ⟨shrunk, present, rfl⟩ := List.mem_map.mp member
    exact List.mem_range.mpr (settled.known shrunk present)
  have bound := (List.subperm_of_subset settled.once inside).length_le
  rw [List.length_map, List.length_range] at bound
  exact bound

theorem Settled.heldOff (settled : Settled config state) (event : Event) :
    HeldOff config state event := by
  intro s _ raises shrunk member
  obtain ⟨ceiling, raiseAfter, -, held, opened, -⟩ := raises
  exact Nat.le_trans (settled.read s raiseAfter held shrunk member) opened

/-- In a calm run every session lowers the MTU at most once, and the hold-off is kept. -/
theorem calm_run {events : List Event}
    (calm : AllSteps (step config) (Calm config) (.start config) events) :
    AllStates (step config) (Few config) (.start config) events ∧
      AllSteps (step config) (HeldOff config) (.start config) events := by
  have settled : AllStates (step config) (Settled config) (.start config) events :=
    calm.allStates (fun _ _ _ settled calm stepped => settled_step settled calm stepped)
      (settled_start config)
  exact ⟨settled.mono fun _ settled => settled.few,
    settled.allSteps fun _ event settled => settled.heldOff event⟩

/-! ## Level configurations -/

/-- Where all candidates are the same, the MTU is at or above it, and at most one session has
lowered it. -/
structure LevelState (config : Config) (state : State) : Prop where
  bound : state.mtu ≤ config.userMtu.value
  floor : ∀ ceiling ∈ config.ceilings, candidate config ceiling ≤ state.mtu
  once : state.shrinks = [] ∨ state.shrinks.length ≤ config.ceilings.length ∧
    ∀ ceiling ∈ config.ceilings, state.mtu ≤ clip ceiling

theorem level_start (config : Config) : LevelState config (.start config) where
  bound := Nat.le_refl _
  floor _ _ := Nat.min_le_left _ _
  once := .inl rfl

theorem LevelState.not_raises (here : LevelState config state) (s : Nat) :
    ¬ Raises config state s := by
  rintro ⟨ceiling, raiseAfter, known, -, -, exceeds⟩
  exact absurd exceeds (Nat.not_lt.mpr (here.floor ceiling (List.mem_of_getElem? known)))

theorem level_step (level : Level config) (here : LevelState config state)
    (stepped : step config state event = some next) : LevelState config next := by
  have bound := bounded_step here.bound stepped
  cases step_move stepped with
  | clamp known free =>
      have member := List.mem_of_getElem? known
      refine ⟨bound, ?_, ?_⟩
      · intro ceiling' member'
        exact Nat.le_min.mpr ⟨here.floor ceiling' member', Nat.le_of_eq (level _ member' _ member)⟩
      · refine here.once.imp id fun few => ⟨few.1, fun ceiling' member' => ?_⟩
        exact Nat.le_trans (Nat.min_le_left _ _) (few.2 ceiling' member')
  | @shrunk s length ceiling known exceeds free =>
      have member := List.mem_of_getElem? known
      have own : candidate config ceiling = clip ceiling :=
        Nat.min_eq_right (Nat.le_of_lt (Nat.lt_of_lt_of_le exceeds here.bound))
      refine ⟨bound, ?_, .inr ⟨?_, ?_⟩⟩
      · intro ceiling' member'
        rw [level _ member' _ member, own]
      · rcases here.once with first | ⟨-, under⟩
        · rw [first]
          exact List.length_pos_of_mem member
        · exact absurd exceeds (Nat.not_lt.mpr (under ceiling member))
      · intro ceiling' member'
        change clip ceiling ≤ clip ceiling'
        rw [← own, level _ member _ member']
        exact Nat.min_le_right _ _
  | @raised s ceiling known raises => exact absurd raises (here.not_raises s)
  | _ => exact ⟨bound, here.floor, here.once⟩

theorem level_run (level : Level config) (events : List Event) :
    AllStates (step config) (LevelState config) (.start config) events :=
  allStates_of_invariant (fun _ _ _ => level_step level) (level_start config) events

theorem LevelState.few (here : LevelState config state) : Few config state := by
  rcases here.once with first | ⟨few, -⟩
  · rw [Few, first]
    exact Nat.zero_le _
  · exact few

/-! ## Oscillation -/

/-- Two sessions of which one would choose a lower MTU. -/
structure Uneven (config : Config) (high low above below : Nat) : Prop where
  high : config.ceilings[high]? = some above
  low : config.ceilings[low]? = some below
  less : candidate config below < candidate config above

theorem Uneven.clip_lt {high low above below : Nat} (uneven : Uneven config high low above below) :
    clip below < candidate config above := by
  have less := uneven.less
  unfold candidate at less ⊢
  omega

/-- The MTU is where the higher session has raised it, and nothing is under way. -/
structure Peak (config : Config) (high above : Nat) (state : State) : Prop where
  mtu : state.mtu = candidate config above
  free : state.refreshing = none
  noting : state.noting = []
  gate : state.gate ≤ state.now
  started : high ∈ state.started

/-- An oversize packet of the lower session, the hold-off, and a refresh of the higher one. -/
def round (high low below : Nat) : List Event :=
  [.send low (below + 1), .note low, .tick mtuRaiseHoldoff, .check high, .refresh high]

theorem peak_start {high low above below : Nat} (uneven : Uneven config high low above below) :
    ∃ state, run (step config) (.start config) [.clamp high] = some state ∧
      Peak config high above state ∧ state.shrinks = [] := by
  have clamped : step config (.start config) (.clamp high) = some { State.start config with
      mtu := if candidate config above < config.userMtu.value then candidate config above
        else config.userMtu.value
      started := [high] } := by
    simp only [step, State.start, uneven.high, Option.bind_some, List.not_mem_nil,
      not_false_eq_true, and_self, if_true]
    rfl
  refine ⟨_, by rw [run_cons, clamped]; rfl,
    ⟨?_, rfl, rfl, Nat.le_refl _, List.mem_singleton.mpr rfl⟩, rfl⟩
  have under : candidate config above ≤ config.userMtu.value := Nat.min_le_left _ _
  change (if candidate config above < config.userMtu.value then candidate config above
    else config.userMtu.value) = _
  split <;> omega

theorem peak_sent {high low above below : Nat} (uneven : Uneven config high low above below)
    {state : State} (peak : Peak config high above state) :
    step config state (.send low (below + 1)) = some { state with
      mtu := clip below
      noting := [low]
      shrinks := (low, state.now) :: state.shrinks } := by
  have exceeds : clip below < state.mtu := by
    rw [peak.mtu]
    exact uneven.clip_lt
  simp only [step, uneven.low, Option.bind_some, peak.noting, List.not_mem_nil, if_false,
    if_neg (Nat.not_le.mpr (Nat.lt_succ_self below)), peak.free, if_true, shrink, if_pos exceeds]

theorem peak_round {high low above below : Nat} (uneven : Uneven config high low above below)
    {state : State} (peak : Peak config high above state) :
    ∃ next, run (step config) state (round high low below) = some next ∧
      Peak config high above next ∧ next.shrinks.length = state.shrinks.length + 1 := by
  refine ⟨{ state with
      mtu := candidate config above
      gate := state.now + mtuRaiseHoldoff
      now := state.now + mtuRaiseHoldoff
      noting := []
      refreshing := none
      shrinks := (low, state.now) :: state.shrinks }, ?_,
    ⟨rfl, rfl, rfl, Nat.le_refl _, peak.started⟩, rfl⟩
  rw [round, run_cons, peak_sent uneven peak]
  simp [run, step, uneven.high, peak.free, peak.started, uneven.clip_lt]

/-- There is a run with any number of shrinks. -/
theorem oscillates {high low above below : Nat} (uneven : Uneven config high low above below)
    (count : Nat) :
    ∃ events state, run (step config) (.start config) events = some state ∧
      Peak config high above state ∧ state.shrinks.length = count := by
  induction count with
  | zero =>
      obtain ⟨state, ran, peak, none_yet⟩ := peak_start uneven
      exact ⟨_, state, ran, peak, by rw [none_yet]; rfl⟩
  | succ count ih =>
      obtain ⟨events, state, ran, peak, length⟩ := ih
      obtain ⟨next, ran', peak', length'⟩ := peak_round uneven peak
      refine ⟨events ++ round high low below, next, ?_, peak', by rw [length', length]⟩
      rw [run_append, ran]
      exact ran'

/-- A refresh between a shrink and its note breaks the hold-off. -/
theorem not_heldOff {high low above below : Nat} (uneven : Uneven config high low above below) :
    ∃ events, ¬ AllSteps (step config) (HeldOff config) (.start config) events := by
  obtain ⟨state, ran, peak, -⟩ := peak_start uneven
  let lowered : State := { state with
    mtu := clip below
    noting := [low]
    shrinks := (low, state.now) :: state.shrinks }
  let reading : State := { lowered with refreshing := some (high, state.gate) }
  refine ⟨[.clamp high] ++ [.send low (below + 1), .check high] ++ [.refresh high], fun all => ?_⟩
  have checked : step config lowered (.check high) = some reading := by
    simp only [step, lowered, peak.free, peak.started, and_self, if_true, reading]
  have reached : run (step config) (.start config)
      ([.clamp high] ++ [.send low (below + 1), .check high]) = some reading := by
    rw [run_append, ran, Option.bind_some, run_cons, peak_sent uneven peak, Option.bind_some,
      run_cons, checked]
    rfl
  obtain ⟨next, stepped⟩ : ∃ next, step config reading (.refresh high) = some next := by
    simp only [step, uneven.high, Option.bind_some, reading, if_true]
    exact ⟨_, rfl⟩
  have held := allSteps_iff_prefix.mp all _ _ [] reading next rfl reached stepped high rfl
    ⟨above, state.gate, uneven.high, rfl, peak.gate, uneven.clip_lt⟩ _ List.mem_cons_self
  change state.now + mtuRaiseHoldoff ≤ state.now at held
  exact absurd held (by rw [mtuRaiseHoldoff]; omega)

theorem uneven_of_not_level (uneven : ¬ Level config) :
    ∃ high low above below, Uneven config high low above below := by
  unfold Level at uneven
  push Not at uneven
  obtain ⟨ceiling, member, ceiling', member', differ⟩ := uneven
  obtain ⟨s, known⟩ := List.mem_iff_getElem?.mp member
  obtain ⟨s', known'⟩ := List.mem_iff_getElem?.mp member'
  rcases Nat.lt_or_gt_of_ne differ with less | less
  · exact ⟨s', s, ceiling', ceiling, known', known, less⟩
  · exact ⟨s, s', ceiling, ceiling', known, known', less⟩

/-- The bound of the user always holds. The hold-off and the bound on the shrinks hold under
every schedule exactly when all sessions would choose the same MTU; and they hold in every run
that reads the gate with all shrinks noted and raises to no more than was found too much. -/
theorem mtu_discipline_iff (config : Config) :
    (∀ events, AllStates (step config) (fun state => state.mtu ≤ config.userMtu.value)
      (.start config) events) ∧
    ((∀ events, AllSteps (step config) (HeldOff config) (.start config) events) ↔ Level config) ∧
    ((∀ events, AllStates (step config) (Few config) (.start config) events) ↔ Level config) ∧
    ∀ events, AllSteps (step config) (Calm config) (.start config) events →
      AllStates (step config) (Few config) (.start config) events ∧
        AllSteps (step config) (HeldOff config) (.start config) events := by
  refine ⟨bounded config, ⟨?_, ?_⟩, ⟨?_, ?_⟩, fun events calm => calm_run calm⟩
  · intro always
    by_contra level
    obtain ⟨high, low, above, below, uneven⟩ := uneven_of_not_level level
    obtain ⟨events, broken⟩ := not_heldOff uneven
    exact broken (always events)
  · intro level events
    refine (level_run level events).allSteps fun state event here s _ raises => ?_
    exact absurd raises (here.not_raises s)
  · intro always
    by_contra level
    obtain ⟨high, low, above, below, uneven⟩ := uneven_of_not_level level
    obtain ⟨events, state, ran, -, length⟩ := oscillates uneven (config.ceilings.length + 1)
    have few : state.shrinks.length ≤ config.ceilings.length := (always events).final ran
    omega
  · intro level events
    exact (level_run level events).mono fun _ here => here.few

/-- Under `--mtu 1280` two sessions with ceilings 1280 and 1200 lower the MTU three times. -/
theorem mtu_oscillates :
    ¬ ∀ (config : Config) (events : List Event),
      AllStates (step config) (fun state => state.mtu ≤ config.userMtu.value) (.start config)
          events ∧
        AllSteps (step config) (HeldOff config) (.start config) events ∧
        AllStates (step config) (Few config) (.start config) events := by
  intro disciplined
  let config : Config := ⟨userMtu1280, [1280, 1200]⟩
  have shrunk : (run (step config) (.start config)
      (.clamp 0 :: round 0 1 1200 ++ round 0 1 1200 ++ round 0 1 1200)).map
        (fun state => state.shrinks.length) = some 3 := by decide
  obtain ⟨state, ran, three⟩ := Option.map_eq_some_iff.mp shrunk
  have few : state.shrinks.length ≤ 2 := (disciplined config _).2.2.final ran
  omega

end Mtu

end LinkP2p.Tun
