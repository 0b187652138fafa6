import LinkP2p.Lib.Counting
import LinkP2p.Tun.PhoneDaemon

/-!
# The tie-break of the dials

Two phone daemons are told to dial each other. Each decides from its own contact
book and the order of the two ids whether to dial or to wait for the other.
-/

namespace LinkP2p.Tun.Phone

open LinkP2p.Lib LinkP2p.Lib.Transition LinkP2p.Lib.Counting
open LinkP2p.Tun.Spoke (shouldDial)

/-- One of the two daemons. -/
inductive Side where
  | a
  | b
  deriving DecidableEq, Repr

def Side.other : Side → Side
  | .a => .b
  | .b => .a

abbrev Pair := Side → Daemon

def Pair.start : Pair := fun _ => .start

/-- One step of one of the two. -/
def pairStep (config : Side → PhoneConfig) (pair : Pair) (event : Side × DaemonEvent) :
    Option Pair :=
  (daemonStep (config event.1) (pair event.1) event.2).map (Function.update pair event.1)

variable {config : Side → PhoneConfig}

/-- The id of the daemon that this one may be told to dial. -/
def otherId (config : Side → PhoneConfig) (side : Side) : EndpointId := (config side.other).ownId

/-- The loop obeys a `Dial` of the other daemon, to which it is not connected. -/
def told (config : Side → PhoneConfig) (side : Side) (pair : Pair) :
    Side × DaemonEvent → Bool
  | (side', .main (.dial target)) =>
      side' = side && (config side).resolvePeerToken target = some (otherId config side) &&
        otherId config side ≠ (config side).ownId &&
        !(pair side).peers.containsKey (otherId config side)
  | _ => false

/-- It waits for the other daemon to dial. -/
def waits (config : Side → PhoneConfig) (side : Side) : Bool :=
  (config side).isKnownContact (otherId config side) &&
    !shouldDial (config side).ownId (otherId config side)

/-- The `Dial` comes to a daemon that does not wait and can build the address. -/
def reaches (config : Side → PhoneConfig) (side : Side) (pair : Pair)
    (event : Side × DaemonEvent) : Bool :=
  told config side pair event && !waits config side &&
    (config side).buildDialAddr (otherId config side)

/-- The task that connects to the other daemon is spawned. -/
def attempts (config : Side → PhoneConfig) (side : Side) (pair : Pair) :
    Side × DaemonEvent → Bool
  | (side', .main .next) => side' = side && (pair side).main = .dialPhase (otherId config side)
  | _ => false

/-- How often a run does so on either side. -/
def total (config : Side → PhoneConfig)
    (test : (Side → PhoneConfig) → Side → Pair → Side × DaemonEvent → Bool)
    (events : List (Side × DaemonEvent)) : Nat :=
  countSteps (pairStep config) (test config .a) .start events +
    countSteps (pairStep config) (test config .b) .start events

/-- No loop is between its decision to dial and the dial. -/
def AtRest (config : Side → PhoneConfig) (pair : Pair) : Prop :=
  ∀ side, (pair side).main ≠ .dialPhase (otherId config side)

/-- Each has the other as a contact. -/
def Mutual (config : Side → PhoneConfig) : Prop :=
  ∀ side, (config side).isKnownContact (otherId config side) = true

/-- Both were told to dial. -/
def BothTold (config : Side → PhoneConfig) (events : List (Side × DaemonEvent)) : Prop :=
  ∀ side, 0 < countSteps (pairStep config) (told config side) .start events

/-- A run in which one was told to dial has an attempt. -/
def NeverDrops (config : Side → PhoneConfig) (events : List (Side × DaemonEvent)) : Prop :=
  ∀ final, run (pairStep config) .start events = some final → AtRest config final →
    0 < total config told events → 0 < total config attempts events

/-- A run in which both contacts were told to dial has one attempt. -/
def ExactlyOne (config : Side → PhoneConfig) (events : List (Side × DaemonEvent)) : Prop :=
  ∀ final, run (pairStep config) .start events = some final → AtRest config final →
    Mutual config → BothTold config events → total config attempts events = 1

/-! ## One loop -/

variable {phone : PhoneConfig} {daemon next : Daemon}

theorem dial_eq_dialPhase_iff {target : String} {peer : EndpointId} :
    dial phone daemon target = .dialPhase peer ↔
      phone.resolvePeerToken target = some peer ∧ peer ≠ phone.ownId ∧
        daemon.peers.containsKey peer = false ∧
        (phone.isKnownContact peer && !shouldDial phone.ownId peer) = false ∧
        phone.buildDialAddr peer = true := by
  unfold dial
  constructor
  · intro dials
    split at dials
    · cases dials
    · rename_i other resolved
      split at dials
      · cases dials
      · rename_i foreign
        split at dials
        · cases dials
        · rename_i apart
          split at dials
          · cases dials
          · rename_i goes
            split at dials
            · rename_i built
              cases dials
              exact ⟨resolved, foreign, Bool.eq_false_of_not_eq_true apart,
                Bool.eq_false_of_not_eq_true goes, built⟩
            · cases dials
  · rintro ⟨resolved, foreign, apart, goes, built⟩
    simp only [resolved, if_neg foreign, apart, goes, built, Bool.false_eq_true, if_false, if_true]

theorem reaches_iff {side : Side} {pair : Pair} {target : String} :
    reaches config side pair (side, .main (.dial target)) = true ↔
      dial (config side) (pair side) target = .dialPhase (otherId config side) := by
  rw [dial_eq_dialPhase_iff]
  simp only [reaches, told, waits, Bool.and_eq_true, Bool.not_eq_true', decide_eq_true_eq, true_and]
  tauto

/-- The decision to dial that the loop of one side has still to carry out. -/
def owed (config : Side → PhoneConfig) (side : Side) (pair : Pair) : Nat :=
  (decide ((pair side).main = .dialPhase (otherId config side))).toNat

/-- The loop decides to dial the peer, carries the decision out, or does neither. -/
theorem MainMove.dials {main after : MainLoop} {event : MainEvent} {effect : Effect}
    (move : MainMove phone daemon main event after effect) (peer : EndpointId) :
    (main = .selecting ∧ after = .dialPhase peer ∧
      ∃ target, event = .dial target ∧ Phone.dial phone daemon target = .dialPhase peer) ∨
    (main = .dialPhase peer ∧ after = .selecting ∧ event = .next) ∨
    (main ≠ .dialPhase peer ∧ after ≠ .dialPhase peer ∧
      ∀ target, event = .dial target → Phone.dial phone daemon target ≠ .dialPhase peer) := by
  cases move with
  | @dial target other dials =>
      by_cases same : other = peer
      · subst same
        exact .inl ⟨rfl, rfl, target, rfl, dials⟩
      · refine .inr (.inr ⟨MainLoop.noConfusion, fun equal => same (MainLoop.dialPhase.inj equal),
          fun target' equal dials' => ?_⟩)
        cases equal
        exact same (MainLoop.dialPhase.inj (dials.symm.trans dials'))
  | @dialPhase other =>
      by_cases same : other = peer
      · subst same
        exact .inr (.inl ⟨rfl, rfl, rfl⟩)
      · exact .inr (.inr ⟨fun equal => same (MainLoop.dialPhase.inj equal), MainLoop.noConfusion,
          fun _ equal => by cases equal⟩)
  | ignored ignores =>
      refine .inr (.inr ⟨MainLoop.noConfusion, MainLoop.noConfusion, fun target equal dials => ?_⟩)
      cases equal
      cases ignores.symm.trans dials
  | @publish after =>
      refine .inr (.inr ⟨MainLoop.noConfusion, ?_, fun _ equal => by cases equal⟩)
      cases after <;> exact MainLoop.noConfusion
  | @reconcile at_ =>
      refine .inr (.inr ⟨MainLoop.noConfusion, ?_, fun _ equal => by cases equal⟩)
      cases (reconcileStep daemon at_).1 <;> exact MainLoop.noConfusion
  | missed asks absent =>
      refine .inr (.inr ⟨?_, MainLoop.noConfusion, fun _ equal => by cases equal⟩)
      rcases asks with rfl | rfl <;> exact MainLoop.noConfusion
  | _ =>
      exact .inr (.inr
        ⟨MainLoop.noConfusion, MainLoop.noConfusion, fun _ equal => by cases equal⟩)

/-! ## The two of them -/

/-- What one daemon does is no dial of the other one. -/
theorem elsewhere {side side' : Side} (apart : side' ≠ side) (pair : Pair) (event : DaemonEvent) :
    attempts config side pair (side', event) = false ∧
      reaches config side pair (side', event) = false := by
  have apart : decide (side' = side) = false := decide_eq_false apart
  cases event with
  | main event => cases event <;> simp [attempts, reaches, told, apart]
  | dial i event | call i event => exact ⟨rfl, rfl⟩

/-- The decision that the loop of a side has to carry out, after a step of that side. -/
theorem owed_update (side : Side) (pair : Pair) (daemon : Daemon) :
    owed config side (Function.update pair side daemon) =
      (decide (daemon.main = .dialPhase (otherId config side))).toNat := by
  rw [owed, Function.update_self]

theorem balanced (side : Side) (pair : Pair) (event : Side × DaemonEvent) (next : Pair)
    (stepped : pairStep config pair event = some next) :
    owed config side next + (attempts config side pair event).toNat =
      owed config side pair + (reaches config side pair event).toNat := by
  obtain ⟨side', event⟩ := event
  obtain ⟨daemon, taken, rfl⟩ := Option.map_eq_some_iff.mp stepped
  by_cases same : side' = side
  · subst same
    rw [owed_update, owed]
    cases event with
    | main event =>
        obtain ⟨main, effect, moved, rfl⟩ := main_cases taken
        rcases (mainStep_move moved).dials (otherId config side') with
          ⟨place, goes, target, rfl, dials⟩ | ⟨place, goes, rfl⟩ | ⟨before, after, neither⟩
        · rw [reaches_iff.mpr dials]
          simp [place, goes, attempts]
        · simp [place, goes, attempts, reaches, told]
        · have unreached : reaches config side' pair (side', .main event) = false := by
            cases event with
            | dial target =>
                exact Bool.eq_false_iff.mpr fun reached =>
                  neither target rfl (reaches_iff.mp reached)
            | _ => rfl
          have unattempted : attempts config side' pair (side', .main event) = false := by
            cases event <;> simp [attempts, before]
          rw [unreached, unattempted, decide_eq_false before, decide_eq_false after]
    | dial i event =>
        obtain ⟨task, stage, effect, -, -, rfl⟩ := dial_cases taken
        change (decide ((effect.apply _).main = _)).toNat + 0 = _
        rw [apply_main]
        rfl
    | call i event =>
        obtain ⟨task, stage, effect, -, -, rfl⟩ := call_cases taken
        change (decide ((effect.apply _).main = _)).toNat + 0 = _
        rw [apply_main]
        rfl
  · obtain ⟨unattempted, unreached⟩ : attempts config side pair (side', event) = false ∧
        reaches config side pair (side', event) = false := elsewhere same pair event
    rw [unattempted, unreached, owed, Function.update_of_ne fun equal => same equal.symm]
    rfl

theorem AtRest.owed {pair : Pair} (rests : AtRest config pair) (side : Side) :
    owed config side pair = 0 := by
  rw [Phone.owed, decide_eq_false (rests side)]
  rfl

/-- Every dial that reaches the loop is attempted, and nothing else is. -/
theorem attempts_eq_reaches {events : List (Side × DaemonEvent)} {final : Pair}
    (ran : run (pairStep config) .start events = some final) (rests : AtRest config final) :
    total config attempts events = total config reaches events := by
  have each : ∀ side, countSteps (pairStep config) (attempts config side) .start events =
      countSteps (pairStep config) (reaches config side) .start events := by
    intro side
    have balance := countSteps_balance (balanced side) ran
    have started : owed config side .start = 0 := rfl
    rw [rests.owed, started] at balance
    omega
  rw [total, total, each, each]

/-- **The tie-break over whole runs.** Of two daemons that are told to dial each other, one
makes an attempt exactly when some `Dial` comes to a daemon that does not wait and can build
the address; and contacts that are both told make one attempt exactly when one such `Dial`
comes. -/
theorem tie_break_iff (config : Side → PhoneConfig) (events : List (Side × DaemonEvent)) :
    (NeverDrops config events ↔
      ∀ final, run (pairStep config) .start events = some final → AtRest config final →
        0 < total config told events → 0 < total config reaches events) ∧
    (ExactlyOne config events ↔
      ∀ final, run (pairStep config) .start events = some final → AtRest config final →
        Mutual config → BothTold config events → total config reaches events = 1) := by
  constructor
  · constructor
    · intro never final ran rests commanded
      rw [← attempts_eq_reaches ran rests]
      exact never final ran rests commanded
    · intro reached final ran rests commanded
      rw [attempts_eq_reaches ran rests]
      exact reached final ran rests commanded
  · constructor
    · intro one final ran rests contacts both
      rw [← attempts_eq_reaches ran rests]
      exact one final ran rests contacts both
    · intro one final ran rests contacts both
      rw [attempts_eq_reaches ran rests]
      exact one final ran rests contacts both

/-- A daemon with the higher id that knows the other, which is not told anything. -/
theorem higher_id_waits :
    ¬ ∀ (config : Side → PhoneConfig) (events : List (Side × DaemonEvent)),
      NeverDrops config events ∧ ExactlyOne config events := by
  intro right
  let config : Side → PhoneConfig
    | .a => ⟨2, ⟨0xAC180002, 0xfd24ac18000000000000000000000002⟩, none, fun peer => peer = 1,
        fun _ => some 1, fun _ _ => false, fun _ => true⟩
    | .b => ⟨1, ⟨0xAC180001, 0xfd24ac18000000000000000000000001⟩, none, fun _ => false,
        fun _ => none, fun _ _ => false, fun _ => true⟩
  let events : List (Side × DaemonEvent) := [(.a, .main (.dial "b"))]
  have ends : (run (pairStep config) .start events).map (fun pair =>
      ((pair .a).main, (pair .b).main)) = some (.selecting, .selecting) := by decide +kernel
  obtain ⟨final, ran, mains⟩ := Option.map_eq_some_iff.mp ends
  obtain ⟨first, second⟩ := Prod.mk.inj mains
  have rests : AtRest config final := by
    intro side
    cases side with
    | a => rw [first]; exact MainLoop.noConfusion
    | b => rw [second]; exact MainLoop.noConfusion
  have commanded : 0 < total config told events := by decide +kernel
  have silent : total config attempts events = 0 := by decide +kernel
  have made := (right config events).1 final ran rests commanded
  omega

end LinkP2p.Tun.Phone
