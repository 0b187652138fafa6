import LinkP2p.Lib.HashMap
import LinkP2p.Lib.Rcu
import LinkP2p.Tun.Packet
import Mathlib.Order.Lattice.Nat

/-!
# The phone's peer claim

`phone_run_peer` inserts its entry into the map of active peers inside an `rcu`
closure and decides from the map that `rcu` returns. The map it returns is the
one the swap replaced, so the decision and the insertion look at the same map.
-/

namespace LinkP2p.Tun.Phone

open LinkP2p.Lib LinkP2p.Lib.Transition LinkP2p.Lib.Rcu

/-- Sending half of a bounded channel; clones share the channel. -/
structure Sender where
  chan : Nat
  deriving DecidableEq, Repr

structure ActivePeer where
  id : EndpointId
  vip : Ipv4Addr
  vip6 : Ipv6Addr
  outbound : Sender
  deriving DecidableEq, Repr

abbrev ActivePeers := HashMap EndpointId ActivePeer

/-- The guard of the claim closure: the peer or one of its addresses is taken. -/
def taken (map : ActivePeers) (entry : ActivePeer) : Bool :=
  map.containsKey entry.id ||
    map.anyValue fun p => p.vip == entry.vip || p.vip6 == entry.vip6

/-- The closure that the claim hands to `rcu`. -/
def claimClosure (entry : ActivePeer) (map : ActivePeers) : ActivePeers :=
  if taken map entry then map else map.put entry.id entry

/-- The check that `phone_run_peer` makes on the map that `rcu` returned. -/
def claimSucceeded (after : ActivePeers) (entry : ActivePeer) : Bool :=
  match after.get entry.id with
  | some p => p.vip == entry.vip && p.vip6 == entry.vip6
  | none => false

/-- The closure of the teardown and of the route-failure path. -/
def removeClosure (entry : ActivePeer) (map : ActivePeers) : ActivePeers :=
  map.remove entry.id

/-- Where one `phone_run_peer` session stands. -/
inductive Stage where
  | claim
  /-- The claim's swap is done; `after` is the map that `rcu` returned. -/
  | decide (after : ActivePeers)
  | addRoute
  | routeFailed
  | running
  | teardown
  /-- Returned `Err`. -/
  | failed
  | finished

/-- A session with the entry it builds; its outbound channel is its own. -/
structure Session where
  entry : ActivePeer
  stage : Stage

/-- The shared map, the sessions by channel and the next unused channel. -/
structure State where
  peers : ActivePeers
  sessions : Nat → Option Session
  nextChan : Nat

/-- What a session does next. -/
inductive Act where
  | claim
  | decide
  | addRoute (ok : Bool)
  | removeAfterRoute
  | close
  | teardown

inductive Event where
  /-- A session finished its VIP exchange with these values. -/
  | spawn (peerId : EndpointId) (peer : OwnVips)
  | act (session : Nat) (act : Act)

/-- One step of `phone_run_peer`: the next stage and, for an `rcu`, the map that
its closure computes from `seen`. -/
def sessionStep (seen : ActivePeers) (entry : ActivePeer) :
    Stage → Act → Option (Stage × Option ActivePeers)
  | .claim, .claim => some (.decide seen, some (claimClosure entry seen))
  | .decide after, .decide =>
      some (if claimSucceeded after entry then .addRoute else .failed, none)
  | .addRoute, .addRoute ok => some (if ok then .running else .routeFailed, none)
  | .routeFailed, .removeAfterRoute => some (.failed, some (removeClosure entry seen))
  | .running, .close => some (.teardown, none)
  | .teardown, .teardown => some (.finished, some (removeClosure entry seen))
  | _, _ => none

/-- The phone after session `i` moved to `stage` and stored `stored`, if anything. -/
def State.after (state : State) (i : Nat) (entry : ActivePeer) (stage : Stage)
    (stored : Option ActivePeers) : State :=
  { state with
    sessions := Function.update state.sessions i (some ⟨entry, stage⟩)
    peers := stored.getD state.peers }

/-- One step of one session; `seen` is the map that an `rcu` closure runs on. -/
def step (seen : ActivePeers) (state : State) : Event → Option State
  | .spawn peerId peer =>
      some { state with
        sessions := Function.update state.sessions state.nextChan
          (some ⟨⟨peerId, peer.v4, peer.v6, ⟨state.nextChan⟩⟩, .claim⟩)
        nextChan := state.nextChan + 1 }
  | .act i act =>
      (state.sessions i).bind fun session =>
        (sessionStep seen session.entry session.stage act).map fun (stage, stored) =>
          state.after i session.entry stage stored

/-- The session whose compare-and-swap the event is. -/
def Event.swaps : Event → Option Nat
  | .act i .claim => some i
  | .act i .removeAfterRoute => some i
  | .act i .teardown => some i
  | _ => none

theorem act_cases {seen : ActivePeers} {state next : State} {i : Nat} {act : Act}
    (stepped : step seen state (.act i act) = some next) :
    ∃ session stage stored, state.sessions i = some session ∧
      sessionStep seen session.entry session.stage act = some (stage, stored) ∧
      next = state.after i session.entry stage stored := by
  simp only [step, Option.bind_eq_some_iff, Option.map_eq_some_iff] at stepped
  obtain ⟨session, found, ⟨stage, stored⟩, moved, rfl⟩ := stepped
  exact ⟨session, stage, stored, found, moved, rfl⟩

theorem step_frame (seen : ActivePeers) (state : State) (event : Event) (next : State)
    (unswapped : event.swaps = none) (stepped : step seen state event = some next) :
    next.peers = state.peers := by
  cases event with
  | spawn peerId peer => cases stepped; rfl
  | act i act =>
      obtain ⟨session, stage, stored, -, moved, rfl⟩ := act_cases stepped
      have silent : stored = none := by
        cases act with
        | claim | removeAfterRoute | teardown => cases unswapped
        | decide | addRoute ok | close =>
            cases place : session.stage <;> rw [place] at moved <;> cases moved
            rfl
      rw [silent]
      rfl

/-- The phone's sessions around their shared map. -/
def system : System State Event Nat ActivePeers where
  cell := State.peers
  step := step
  thread := Event.swaps
  frame := step_frame

/-- A channel number that no entry of the map refers to. -/
def freshChan (peers : ActivePeers) : Nat := (peers.values.map fun p => p.outbound.chan + 1).sup

/-- No session yet, over an arbitrary map. -/
def start (peers : ActivePeers) : State := ⟨peers, fun _ => none, freshChan peers⟩

theorem chan_lt_freshChan {peers : ActivePeers} {key : EndpointId} {p : ActivePeer}
    (found : peers.get key = some p) : p.outbound.chan < freshChan peers := by
  have member : p ∈ peers.values := HashMap.mem_values.mpr ⟨key, found⟩
  exact Multiset.le_sup
    (Multiset.mem_map_of_mem (fun p : ActivePeer => p.outbound.chan + 1) member)

/-! ## What the claim promises -/

/-- The peer id or one of the two addresses occurs in the map. -/
def Taken (map : ActivePeers) (entry : ActivePeer) : Prop :=
  (∃ p, map.get entry.id = some p) ∨
    ∃ key p, map.get key = some p ∧ (p.vip = entry.vip ∨ p.vip6 = entry.vip6)

theorem taken_iff {map : ActivePeers} {entry : ActivePeer} :
    taken map entry = true ↔ Taken map entry := by
  rw [taken, Bool.or_eq_true, HashMap.anyValue_eq_true, HashMap.containsKey,
    Option.isSome_iff_exists]
  simp only [Bool.or_eq_true, beq_iff_eq, Taken]

/-- The map already carries both addresses under the peer's id. -/
def SameEntry (map : ActivePeers) (entry : ActivePeer) : Prop :=
  ∃ p, map.get entry.id = some p ∧ p.vip = entry.vip ∧ p.vip6 = entry.vip6

theorem claimSucceeded_iff {map : ActivePeers} {entry : ActivePeer} :
    claimSucceeded map entry = true ↔ SameEntry map entry := by
  unfold claimSucceeded SameEntry
  cases found : map.get entry.id with
  | none => simp
  | some p => simp

theorem SameEntry.taken {map : ActivePeers} {entry : ActivePeer}
    (same : SameEntry map entry) : Taken map entry := by
  obtain ⟨p, found, -⟩ := same
  exact Or.inl ⟨p, found⟩

theorem claimClosure_of_taken {map : ActivePeers} {entry : ActivePeer}
    (conflict : Taken map entry) : claimClosure entry map = map :=
  if_pos (taken_iff.mpr conflict)

/-- One claim, whose swap replaced `old` by `new`, is truthful: the session goes
on exactly when nothing was taken, and then `new` is `old` with its entry. -/
structure Truthful (entry : ActivePeer) (old new : ActivePeers) : Prop where
  goes_on_iff : claimSucceeded old entry = true ↔ ¬ Taken old entry
  stored : claimSucceeded old entry = true → new = old.put entry.id entry
  own_entry : claimSucceeded old entry = true → new.get entry.id = some entry

/-- Every claim that a step performs is truthful. -/
def ClaimsTruthful (state : State) (event : Event) : Prop :=
  ∀ i session next, event = .act i .claim → state.sessions i = some session →
    system.atomic state event = some next →
      Truthful session.entry state.peers next.peers

/-- A session that returned `Err` has no entry in the map. -/
def FailedLeavesNothing (state : State) : Prop :=
  ∀ i session, state.sessions i = some session → session.stage = .failed →
    ∀ key p, state.peers.get key = some p → p.outbound ≠ ⟨i⟩

/-- The claim replaces a map in which something is taken and in which the
peer's own entry, if there is one, does not carry exactly the two addresses. -/
def ClaimsRefused (state : State) (event : Event) : Prop :=
  ∀ i session, event = .act i .claim → state.sessions i = some session →
    session.stage = .claim →
      Taken state.peers session.entry ∧ ¬ SameEntry state.peers session.entry

/-- On one claim, truthfulness and refusal coincide: with nothing taken the
check sees the old map and answers `Err` although the entry went in, and with
the same entry in place it answers `Ok` although nothing went in. -/
theorem truthful_iff {entry : ActivePeer} {old : ActivePeers} :
    Truthful entry old (claimClosure entry old) ↔ Taken old entry ∧ ¬ SameEntry old entry := by
  constructor
  · intro truthful
    have goes := truthful.goes_on_iff
    rw [claimSucceeded_iff] at goes
    by_cases same : SameEntry old entry
    · exact absurd same.taken (goes.mp same)
    · exact ⟨by_contra fun free => same (goes.mpr free), same⟩
  · rintro ⟨conflict, different⟩
    have fails : ¬ claimSucceeded old entry = true :=
      fun succeeded => different (claimSucceeded_iff.mp succeeded)
    exact ⟨⟨fun succeeded => absurd succeeded fails, fun free => absurd conflict free⟩,
      fun succeeded => absurd succeeded fails, fun succeeded => absurd succeeded fails⟩

theorem claim_next {state next : State} {i : Nat} {session : Session}
    (found : state.sessions i = some session)
    (stepped : system.atomic state (.act i .claim) = some next) :
    session.stage = .claim ∧
      next = state.after i session.entry (.decide state.peers)
        (some (claimClosure session.entry state.peers)) := by
  obtain ⟨other, stage, stored, located, moved, rfl⟩ := act_cases stepped
  cases located.symm.trans found
  cases place : session.stage <;> rw [place] at moved <;> cases moved
  exact ⟨rfl, rfl⟩

theorem claim_enabled {state : State} {i : Nat} {session : Session}
    (found : state.sessions i = some session) (place : session.stage = .claim) :
    system.atomic state (.act i .claim) =
      some (state.after i session.entry (.decide state.peers)
        (some (claimClosure session.entry state.peers))) := by
  change (state.sessions i).bind _ = _
  rw [found, Option.bind_some, place]
  rfl

theorem claimsTruthful_iff_refused (state : State) (event : Event) :
    ClaimsTruthful state event ↔ ClaimsRefused state event := by
  constructor
  · rintro truthful i session rfl found place
    exact truthful_iff.mp (truthful i session _ rfl found (claim_enabled found place))
  · rintro refused i session next rfl found stepped
    obtain ⟨place, rfl⟩ := claim_next found stepped
    exact truthful_iff.mpr (refused i session rfl found place)

/-! ## Ownership of entries -/

/-- Sessions own their channels, and an entry of a session sits under its id. -/
structure Owned (state : State) : Prop where
  unused : ∀ i, state.nextChan ≤ i → state.sessions i = none
  channel : ∀ i session, state.sessions i = some session → session.entry.outbound = ⟨i⟩
  allocated : ∀ key p, state.peers.get key = some p → p.outbound.chan < state.nextChan
  keyed : ∀ key p i session, state.peers.get key = some p → p.outbound = ⟨i⟩ →
    state.sessions i = some session → key = session.entry.id

/-- Sessions that were not told that their claim succeeded have no entry. -/
def Untold (state : State) : Prop :=
  ∀ i session, state.sessions i = some session →
    (session.stage = .claim ∨ (∃ after, session.stage = .decide after) ∨
      session.stage = .failed) →
    ∀ key p, state.peers.get key = some p → p.outbound ≠ ⟨i⟩

theorem owned_start (peers : ActivePeers) : Owned (start peers) where
  unused := fun _ _ => rfl
  channel := fun _ _ impossible => by cases impossible
  allocated := fun _ _ found => chan_lt_freshChan found
  keyed := fun _ _ _ _ _ _ impossible => by cases impossible

theorem untold_start (peers : ActivePeers) : Untold (start peers) :=
  fun _ _ impossible => by cases impossible

/-- A session's step adds at most its own entry to the map. -/
theorem get_of_stored {seen : ActivePeers} {entry p : ActivePeer} {stage stage' : Stage}
    {act : Act} {stored : Option ActivePeers} {key : EndpointId}
    (moved : sessionStep seen entry stage act = some (stage', stored))
    (found : (stored.getD seen).get key = some p) :
    seen.get key = some p ∨ (key = entry.id ∧ p = entry) := by
  have kept : stored = none ∨ stored = some (claimClosure entry seen) ∨
      stored = some (removeClosure entry seen) := by
    cases stage <;> cases act <;> cases moved <;> simp
  rcases kept with rfl | rfl | rfl
  · exact Or.inl found
  · change (claimClosure entry seen).get key = some p at found
    unfold claimClosure at found
    split at found
    · exact Or.inl found
    · rcases HashMap.get_of_get_put found with fresh | ⟨-, old⟩
      · exact Or.inr fresh
      · exact Or.inl old
  · exact Or.inl (HashMap.get_of_get_remove found).2

theorem owned_step {state next : State} {event : Event} (owned : Owned state)
    (stepped : system.atomic state event = some next) : Owned next := by
  cases event with
  | spawn peerId peer =>
      cases stepped
      constructor
      · intro i bound
        change Function.update state.sessions state.nextChan _ i = none
        change state.nextChan + 1 ≤ i at bound
        rw [Function.update_of_ne (by omega)]
        exact owned.unused i (by omega)
      · intro i session found
        change Function.update state.sessions state.nextChan _ i = some session at found
        by_cases same : i = state.nextChan
        · subst same
          rw [Function.update_self] at found
          cases found
          rfl
        · rw [Function.update_of_ne same] at found
          exact owned.channel i session found
      · intro key p found
        exact Nat.lt_succ_of_lt (owned.allocated key p found)
      · intro key p i session found own located
        change Function.update state.sessions state.nextChan _ i = some session at located
        -- the new channel is not in the map yet
        have old : i ≠ state.nextChan := by
          rintro rfl
          have bound := owned.allocated key p found
          rw [own] at bound
          exact Nat.lt_irrefl _ bound
        rw [Function.update_of_ne old] at located
        exact owned.keyed key p i session found own located
  | act i act =>
      obtain ⟨session, stage, stored, located, moved, rfl⟩ := act_cases stepped
      have channel := owned.channel i session located
      have below : i < state.nextChan := by
        by_contra beyond
        rw [owned.unused i (Nat.le_of_not_lt beyond)] at located
        cases located
      constructor
      · intro j bound
        change Function.update state.sessions i _ j = none
        change state.nextChan ≤ j at bound
        rw [Function.update_of_ne (by omega)]
        exact owned.unused j bound
      · intro j other found
        change Function.update state.sessions i _ j = some other at found
        by_cases same : j = i
        · subst same
          rw [Function.update_self] at found
          cases found
          exact channel
        · rw [Function.update_of_ne same] at found
          exact owned.channel j other found
      · intro key p found
        rcases get_of_stored moved found with old | ⟨-, rfl⟩
        · exact owned.allocated key p old
        · rw [channel]
          exact below
      · intro key p j other found own place
        change Function.update state.sessions i _ j = some other at place
        rcases get_of_stored moved found with old | ⟨rfl, rfl⟩
        · by_cases same : j = i
          · subst same
            rw [Function.update_self] at place
            cases place
            exact owned.keyed key p j session old own located
          · rw [Function.update_of_ne same] at place
            exact owned.keyed key p j other old own place
        · rw [channel] at own
          cases own
          rw [Function.update_self] at place
          cases place
          rfl

/-- A step whose claim, if it is one, is refused keeps sessions without success
out of the map. -/
theorem untold_step {state next : State} {event : Event} (owned : Owned state)
    (untold : Untold state) (refused : ClaimsRefused state event)
    (stepped : system.atomic state event = some next) : Untold next := by
  cases event with
  | spawn peerId peer =>
      cases stepped
      intro i session found stage key p present own
      change Function.update state.sessions state.nextChan _ i = some session at found
      by_cases same : i = state.nextChan
      · subst same
        have bound := owned.allocated key p present
        rw [own] at bound
        exact Nat.lt_irrefl _ bound
      · rw [Function.update_of_ne same] at found
        exact untold i session found stage key p present own
  | act i act =>
      obtain ⟨session, stage, stored, located, moved, rfl⟩ := act_cases stepped
      intro j other found place key p present own
      change Function.update state.sessions i _ j = some other at found
      by_cases same : j = i
      · subst same
        rw [Function.update_self] at found
        cases found
        change (stored.getD state.peers).get key = some p at present
        have was := untold j session located
        cases from_ : session.stage with
        | claim =>
            cases act <;> rw [from_] at moved <;> cases moved
            have conflict := (refused j session rfl located from_).1
            change (claimClosure session.entry state.peers).get key = some p at present
            rw [claimClosure_of_taken conflict] at present
            exact was (Or.inl from_) key p present own
        | decide after =>
            cases act <;> rw [from_] at moved <;> cases moved
            exact was (Or.inr (Or.inl ⟨after, from_⟩)) key p present own
        | routeFailed =>
            cases act <;> rw [from_] at moved <;> cases moved
            obtain ⟨distinct, old⟩ := HashMap.get_of_get_remove present
            exact distinct (owned.keyed key p j session old own located)
        | addRoute =>
            cases act <;> rw [from_] at moved <;> cases moved
            split at place <;> simp at place
        | running | teardown =>
            cases act <;> rw [from_] at moved <;> cases moved
            simp at place
        | failed | finished => cases act <;> rw [from_] at moved <;> cases moved
      · rw [Function.update_of_ne same] at found
        rcases get_of_stored moved present with old | ⟨-, rfl⟩
        · exact untold j other found place key p old own
        · rw [owned.channel i session located] at own
          exact same (Sender.mk.inj own).symm

/-! ## Runs -/

/-- **The phone claim over whole runs.** From any map, over every interleaving
of claims, retries and teardowns: all claims are truthful and no failed session
leaves an entry exactly when every claim meets a map in which the peer or an
address is taken without being exactly its own pair. -/
theorem phone_claim_truthful_iff (peers : ActivePeers) (events : List (RetryEvent Event Nat)) :
    AllStates (retryStep system) (fun state => FailedLeavesNothing state.base)
          (.start (start peers)) events ∧
        AllSteps (retryStep system) (OnActs ClaimsTruthful) (.start (start peers)) events ↔
      AllSteps (retryStep system) (OnActs ClaimsRefused) (.start (start peers)) events := by
  constructor
  · rintro ⟨-, truthful⟩
    refine truthful.mono fun state event next _ met => ?_
    cases event with
    | load | retry => trivial
    | act event => exact (claimsTruthful_iff_refused state.base event).mp met
  · intro refused
    obtain ⟨states, steps⟩ := (retry_exchange (I := Owned) (G := Untold)
      (R := ClaimsTruthful) (C := ClaimsRefused)
      (fun _ _ _ owned stepped => owned_step owned stepped)
      (fun state event _ owned untold stepped =>
        ⟨fun good => (claimsTruthful_iff_refused state event).mp good.2,
          fun met => ⟨untold_step owned untold met stepped,
            (claimsTruthful_iff_refused state event).mpr met⟩⟩)
      (owned_start peers) (untold_start peers) events).mpr refused
    refine ⟨states.mono fun state untold => ?_, steps⟩
    intro i session found failed
    exact untold i session found (Or.inr (Or.inr failed))

/-- The first call of a peer: load, swap, check. -/
def firstCall : List (RetryEvent Event Nat) :=
  [.act (.spawn 1 ⟨0xAC180001, 0xfd24ac18000000000000000000000001⟩),
    .load 0, .act (.act 0 .claim), .act (.act 0 .decide)]

/-- On the empty map the first call of a peer answers `Err` and leaves its entry. -/
theorem phone_first_call_fails :
    ¬ AllStates (retryStep system) (fun state => FailedLeavesNothing state.base)
      (.start (start ∅)) firstCall := by
  intro all
  have ran : run (retryStep system) (.start (start ∅)) firstCall = some _ := rfl
  have left := all.final ran
  exact left 0 ⟨⟨1, 0xAC180001, 0xfd24ac18000000000000000000000001, ⟨0⟩⟩, .failed⟩ rfl rfl
    1 ⟨1, 0xAC180001, 0xfd24ac18000000000000000000000001, ⟨0⟩⟩ rfl rfl

end LinkP2p.Tun.Phone
