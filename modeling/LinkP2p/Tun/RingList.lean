import LinkP2p.Stream.RingList
import LinkP2p.Tun.PhoneDaemon

/-!
# The ring list of the phone daemon

One loop puts the calls of strangers on the list, takes rings off it and
publishes it. The stream daemon has its own copy of this code.
-/

namespace LinkP2p.Tun.Phone

open LinkP2p.Lib LinkP2p.Lib.Transition LinkP2p.Lib.KeyedList

variable {config : PhoneConfig} {daemon next : Daemon}

/-- The loop has changed the list and has still to publish it. -/
def MainLoop.publishes : MainLoop → Bool
  | .ringPhase | .publishing _ => true
  | _ => false

/-- At most one ring of each peer is pending. -/
def OneRingEach (daemon : Daemon) : Prop := Single Ringing.peer daemon.ringing

/-- With no publish still to run, the status shows the list. -/
def Shown (daemon : Daemon) : Prop :=
  daemon.main.publishes = false → daemon.pending = daemon.ringing.map .of

/-- The token names this peer and no other that rings. -/
def Names (config : PhoneConfig) (daemon : Daemon) (token : String) (peer : EndpointId) : Prop :=
  config.matchPeerToken token peer = true ∧
    ∀ ring ∈ daemon.ringing, config.matchPeerToken token ring.peer = true → ring.peer = peer

/-- An `Accept` or `Reject` leaves no ring of the peer it names, and an `Accept` takes
the most recent one. -/
def Answers (config : PhoneConfig) (daemon : Daemon) (event : DaemonEvent) : Prop :=
  ∀ token peer next, daemon.main = .accepting token ∨ daemon.main = .rejecting token →
    event = .main .next → Names config daemon token peer →
      daemonStep config daemon event = some next →
        (∀ ring ∈ next.ringing, ring.peer ≠ peer) ∧
          ∀ ring, next.main = .publishing (.answer ring) →
            ring.peer = peer ∧ Latest Ringing.peer daemon.ringing ring

/-- A ring that goes on the list is the only one of its peer. -/
def PushesNew (daemon : Daemon) (event : DaemonEvent) : Prop :=
  ∀ peer conn sinceUnixMs, daemon.main = .pushing peer conn → event = .main (.push sinceUnixMs) →
    ∀ other ∈ daemon.ringing, other.peer ≠ peer

/-! ## What the steps do to the list -/

/-- The effect leaves the ring list and what is published of it. -/
def Effect.keepsRings : Effect → Bool
  | .publishPending | .pushRing _ | .unring _ => false
  | _ => true

theorem keepsRings_apply {effect : Effect} (keeps : effect.keepsRings = true) (daemon : Daemon) :
    (effect.apply daemon).ringing = daemon.ringing ∧
      (effect.apply daemon).pending = daemon.pending := by
  cases effect with
  | publishPending | pushRing | unring => cases keeps
  | _ => exact ⟨rfl, rfl⟩

/-- The loop publishes the list, adds a ring or removes some with a publish to follow, or
leaves the list. -/
inductive RingMove (daemon : Daemon) (main after : MainLoop) : Effect → Prop where
  | publishes : RingMove daemon main after .publishPending
  | pushes {peer : EndpointId} {conn : Connection} {sinceUnixMs : Nat}
      (holds : main = .pushing peer conn) (owes : after.publishes = true) :
      RingMove daemon main after (.pushRing ⟨peer, conn, sinceUnixMs⟩)
  | removes {kept : List Ringing} (sub : kept.Sublist daemon.ringing)
      (owes : after.publishes = true) : RingMove daemon main after (.unring kept)
  | keeps {effect : Effect} (keeps : effect.keepsRings = true)
      (owes : main.publishes = true → after.publishes = true) : RingMove daemon main after effect

theorem reconcileStep_keeps (daemon : Daemon) (at_ : Reconcile) :
    (reconcileStep daemon at_).2.keepsRings = true := by
  cases at_ <;> rfl

theorem MainMove.ring {main after : MainLoop} {event : MainEvent} {effect : Effect}
    (move : MainMove config daemon main event after effect) :
    RingMove daemon main after effect := by
  cases move with
  | push => exact .pushes rfl rfl
  | publish => exact .publishes
  | reconcile => exact .keeps (reconcileStep_keeps daemon _) Bool.noConfusion
  | missed asks absent => exact .keeps rfl fun _ => rfl
  | accepted found | rejected found => exact .removes List.eraseP_sublist rfl
  | timedOut => exact .removes List.filter_sublist rfl
  | ringPhase => exact .keeps rfl id
  | _ => exact .keeps rfl Bool.noConfusion

theorem dialStep_keeps {peer : EndpointId} {stage : DialStage} {after : Option DialStage}
    {event : DialEvent} {effect : Effect}
    (moved : dialStep daemon peer stage event = some (after, effect)) :
    effect.keepsRings = true := by
  cases stage with
  | connecting => cases event <;> cases moved <;> rfl
  | reconciling at_ =>
      cases event <;> cases moved
      exact reconcileStep_keeps daemon at_

theorem callStep_keeps {i : Nat} {peer : EndpointId} {stage : CallStage}
    {after : Option CallStage} {event : CallEvent} {effect : Effect}
    (moved : callStep config daemon i peer stage event = some (after, effect)) :
    effect.keepsRings = true := by
  cases stage with
  | exchanging =>
      cases event with
      | exchanged vips =>
          simp only [callStep] at moved
          split at moved <;> cases moved <;> rfl
      | exchangeFailed => cases moved; rfl
      | _ => cases moved
  | routing entry =>
      cases event <;> simp only [callStep, reduceCtorEq] at moved
      split at moved <;> cases moved <;> rfl
  | announcing entry | running entry =>
      cases event <;> cases moved
      rfl
  | reconciling at_ =>
      cases event <;> cases moved
      exact reconcileStep_keeps daemon at_

/-- The other tasks leave the list, what is published of it and the loop. -/
theorem task_keeps {event : DaemonEvent} (foreign : ∀ own, event ≠ .main own)
    (stepped : daemonStep config daemon event = some next) :
    next.ringing = daemon.ringing ∧ next.pending = daemon.pending ∧ next.main = daemon.main := by
  cases event with
  | main own => exact absurd rfl (foreign own)
  | dial i event =>
      obtain ⟨task, stage, effect, -, moved, rfl⟩ := dial_cases stepped
      obtain ⟨ringing, pending⟩ := keepsRings_apply (dialStep_keeps moved) daemon
      exact ⟨ringing, pending, apply_main effect daemon⟩
  | call i event =>
      obtain ⟨task, stage, effect, -, moved, rfl⟩ := call_cases stepped
      obtain ⟨ringing, pending⟩ := keepsRings_apply (callStep_keeps moved) daemon
      exact ⟨ringing, pending, apply_main effect daemon⟩

/-- The list gets one ring at its end or loses some. -/
theorem ring_cases {event : DaemonEvent} (stepped : daemonStep config daemon event = some next) :
    (∃ peer conn sinceUnixMs, daemon.main = .pushing peer conn ∧ event = .main (.push sinceUnixMs) ∧
      next.ringing = daemon.ringing ++ [⟨peer, conn, sinceUnixMs⟩]) ∨
      next.ringing.Sublist daemon.ringing := by
  cases event with
  | main event =>
      obtain ⟨main, effect, moved, rfl⟩ := main_cases stepped
      cases (mainStep_move moved).ring with
      | publishes => exact .inr (List.Sublist.refl _)
      | @pushes peer conn sinceUnixMs holds owes =>
          refine .inl ⟨peer, conn, sinceUnixMs, holds, ?_, rfl⟩
          rw [holds] at moved
          cases event <;> cases moved
          rfl
      | removes sub owes => exact .inr sub
      | keeps keeps owes =>
          refine .inr ?_
          change (effect.apply daemon).ringing.Sublist _
          rw [(keepsRings_apply keeps daemon).1]
  | dial i event | call i event =>
      have kept : next.ringing = daemon.ringing :=
        (task_keeps (fun _ => DaemonEvent.noConfusion) stepped).1
      exact .inr (kept ▸ List.Sublist.refl _)

/-! ## Over runs -/

theorem oneRingEach_start : OneRingEach .start := single_nil

theorem oneRingEach_step_iff {event : DaemonEvent} (single : OneRingEach daemon)
    (stepped : daemonStep config daemon event = some next) :
    OneRingEach next ↔ PushesNew daemon event := by
  constructor
  · rintro single' peer conn sinceUnixMs holds rfl
    obtain ⟨main, effect, moved, rfl⟩ := main_cases stepped
    rw [holds] at moved
    cases moved
    exact (single_push_iff.mp single').2
  · intro new
    unfold OneRingEach
    rcases ring_cases stepped with ⟨peer, conn, sinceUnixMs, holds, rfl, pushed⟩ | sub
    · rw [pushed]
      exact single_push_iff.mpr ⟨single, new peer conn sinceUnixMs holds rfl⟩
    · exact Single.sublist single sub

theorem Names.picks {token : String} {peer : EndpointId} (names : Names config daemon token peer) :
    ∀ ring ∈ daemon.ringing, config.matchPeerToken token ring.peer = true ↔ ring.peer = peer := by
  intro ring member
  refine ⟨names.2 ring member, ?_⟩
  rintro rfl
  exact names.1

/-- An answer removes the ring that the token finds. -/
theorem answer_cases {token : String}
    (asks : daemon.main = .accepting token ∨ daemon.main = .rejecting token)
    (stepped : daemonStep config daemon (.main .next) = some next) :
    next.ringing = dropRing config daemon token ∧
      ∀ ring, next.main = .publishing (.answer ring) →
        findRing config daemon token = some ring := by
  obtain ⟨main, effect, moved, rfl⟩ := main_cases stepped
  have move := mainStep_move moved
  have kept : findRing config daemon token = none →
      daemon.ringing = dropRing config daemon token := by
    intro absent
    exact (List.eraseP_of_forall_not (List.find?_eq_none.mp absent)).symm
  rcases asks with asks | asks <;> rw [asks] at move
  · cases move with
    | missed asks absent =>
        rcases asks with asks | asks <;> cases asks
        exact ⟨kept absent, fun ring taken => by cases taken⟩
    | accepted found =>
        refine ⟨rfl, fun ring taken => ?_⟩
        cases taken
        exact found
  · cases move with
    | missed asks absent =>
        rcases asks with asks | asks <;> cases asks
        exact ⟨kept absent, fun ring taken => by cases taken⟩
    | rejected found => exact ⟨rfl, fun ring taken => by cases taken⟩

theorem OneRingEach.answers (single : OneRingEach daemon) (event : DaemonEvent) :
    Answers config daemon event := by
  rintro token peer next asks rfl names stepped
  obtain ⟨left, takes⟩ := answer_cases asks stepped
  constructor
  · rw [left]
    exact Single.answered single names.picks
  · intro ring taken
    have found := takes ring taken
    unfold findRing at found
    have member := List.mem_of_find?_eq_some found
    have passes := List.find?_some found
    exact ⟨(names.picks ring member).mp passes, Single.latest single member⟩

theorem shown_start : Shown .start := fun _ => rfl

theorem shown_step {event : DaemonEvent} (shown : Shown daemon)
    (stepped : daemonStep config daemon event = some next) : Shown next := by
  cases event with
  | main event =>
      obtain ⟨main, effect, moved, rfl⟩ := main_cases stepped
      intro published
      cases (mainStep_move moved).ring with
      | publishes => rfl
      | pushes holds owes | removes sub owes => exact absurd owes (Bool.eq_false_iff.mp published)
      | keeps keeps owes =>
          obtain ⟨ringing, pending⟩ := keepsRings_apply keeps daemon
          have before : daemon.main.publishes = false :=
            Bool.eq_false_iff.mpr fun publishes => Bool.eq_false_iff.mp published (owes publishes)
          exact pending.trans ((shown before).trans (by rw [ringing]))
  | dial i event | call i event =>
      obtain ⟨ringing, pending, main⟩ := task_keeps (fun _ => DaemonEvent.noConfusion) stepped
      unfold Shown
      rw [ringing, pending, main]
      exact shown

/-- **Both ring lists over whole runs.** In the phone daemon and in the stream daemon, no
peer has two pending rings and every answer leaves none of the peer it names, exactly when
no call goes on the list while one of its caller is pending; and the status always shows
the list once it is published. -/
theorem ring_lists_iff (config : PhoneConfig) (plane : Stream.Phone.Config)
    (events : List DaemonEvent) (events' : List Stream.Phone.Event) :
    ((AllStates (daemonStep config) OneRingEach .start events ∧
          AllSteps (daemonStep config) (Answers config) .start events ↔
        AllSteps (daemonStep config) PushesNew .start events) ∧
      AllStates (daemonStep config) Shown .start events) ∧
    (AllStates (Stream.Phone.step plane) Stream.Phone.OneRingEach (.start plane) events' ∧
          AllSteps (Stream.Phone.step plane) (Stream.Phone.Answers plane) (.start plane) events' ↔
        AllSteps (Stream.Phone.step plane) Stream.Phone.PushesNew (.start plane) events') ∧
      AllStates (Stream.Phone.step plane) Stream.Phone.Shown (.start plane) events' := by
  refine ⟨⟨?_, allStates_of_invariant (fun _ _ _ => shown_step) shown_start events⟩,
    Stream.Phone.ring_list_iff plane events', Stream.Phone.shown_run plane events'⟩
  exact allStates_and_allSteps_iff (I := fun _ => True) (fun _ _ _ _ _ => trivial)
    (fun _ event _ _ single stepped =>
      ⟨fun both => (oneRingEach_step_iff single stepped).mp both.1,
        fun new => ⟨(oneRingEach_step_iff single stepped).mpr new, single.answers event⟩⟩)
    trivial oneRingEach_start events

/-- A stranger that calls, and calls again while it rings. -/
def redial (peer : EndpointId) : List DaemonEvent :=
  [.main .incoming, .main (.handshaken peer .tun), .main (.push 0), .main .next, .main .next,
    .main .incoming, .main (.handshaken peer .tun), .main (.push 1), .main .next, .main .next]

/-- A stranger's second call is put beside the first. -/
theorem redial_rings_twice :
    ¬ ∀ (config : PhoneConfig) (events : List DaemonEvent),
      AllStates (daemonStep config) OneRingEach .start events := by
  intro single
  let config : PhoneConfig :=
    ⟨0, ⟨0xAC180001, 0xfd24ac18000000000000000000000001⟩, none, fun _ => false, fun _ => none,
      fun _ _ => true, fun _ => true⟩
  have rings : (run (daemonStep config) .start (redial 1)).map (fun daemon => daemon.ringing) =
      some [⟨1, 0, 0⟩, ⟨1, 1, 1⟩] := by decide +kernel
  obtain ⟨daemon, ran, twice⟩ := Option.map_eq_some_iff.mp rings
  have once : Single Ringing.peer daemon.ringing := (single config _).final ran
  rw [twice] at once
  exact absurd once (by unfold Single; decide)

end LinkP2p.Tun.Phone
