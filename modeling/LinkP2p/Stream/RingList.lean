import LinkP2p.Lib.KeyedList
import LinkP2p.Stream.PhoneAdmission

/-!
# The ring list of the stream daemon

The accept task puts the call of a stranger on the list, the command loop takes
rings off it. Whoever has changed the list publishes it afterwards.
-/

namespace LinkP2p.Stream.Phone

open LinkP2p.Lib LinkP2p.Lib.Transition LinkP2p.Lib.KeyedList
open LinkP2p.Tun (EndpointId)

variable {config : Config} {plane next : Plane}

/-- The accept task has still to publish the list. -/
def AcceptTask.publishes : AcceptTask → Bool
  | .announcing _ | .publishing => true
  | _ => false

def Command.publishes : Command → Bool
  | .acceptPublish _ | .rejectPublish | .tickPublish => true
  | _ => false

/-- At most one ring of each peer is pending. -/
def OneRingEach (plane : Plane) : Prop := Single Ringing.peer plane.ringing

/-- With no publish still to run, the status shows the list. -/
def Shown (plane : Plane) : Prop :=
  plane.accept.publishes = false → plane.command.publishes = false →
    plane.pending = plane.ringing.map fun ring => ⟨ring.peer, ring.sinceUnixMs, "in"⟩

/-- The token names this peer and no other that rings. -/
def Names (config : Config) (plane : Plane) (token : String) (peer : EndpointId) : Prop :=
  config.book.matchPeerToken token peer = true ∧
    ∀ ring ∈ plane.ringing, config.book.matchPeerToken token ring.peer = true → ring.peer = peer

/-- An `Accept` or `Reject` leaves no ring of the peer it names, and an `Accept` takes
the most recent one. -/
def Answers (config : Config) (plane : Plane) (event : Event) : Prop :=
  ∀ token peer next, plane.command = .accepting token ∨ plane.command = .rejecting token →
    event = .command .next → Names config plane token peer →
      step config plane event = some next →
        (∀ ring ∈ next.ringing, ring.peer ≠ peer) ∧
          ∀ ring, next.command = .acceptPublish ring →
            ring.peer = peer ∧ Latest Ringing.peer plane.ringing ring

/-- A ring that goes on the list is the only one of its peer. -/
def PushesNew (plane : Plane) (event : Event) : Prop :=
  ∀ ring, plane.accept = .ringing ring → event = .accept .next →
    ∀ other ∈ plane.ringing, other.peer ≠ ring.peer

/-! ## What the steps do to the list -/

/-- The effect leaves the ring list and what is published of it. -/
def Effect.keepsRings : Effect → Bool
  | .publishPending | .pushRing _ | .unring _ _ => false
  | _ => true

theorem keepsRings_apply {effect : Effect} (keeps : effect.keepsRings = true) (plane : Plane) :
    (effect.apply plane).ringing = plane.ringing ∧
      (effect.apply plane).pending = plane.pending := by
  cases effect with
  | publishPending | pushRing | unring => cases keeps
  | _ => exact ⟨rfl, rfl⟩

/-- A task publishes the list, adds a ring or removes some with a publish to follow, or
leaves the list. -/
inductive RingMove (plane : Plane) (task : AcceptTask) (before after : Bool) : Effect → Prop where
  | publishes : RingMove plane task before after .publishPending
  | pushes {ring : Ringing} (holds : task = .ringing ring) (owes : after = true) :
      RingMove plane task before after (.pushRing ring)
  | removes {kept : List Ringing} {gone : List Connection} (sub : kept.Sublist plane.ringing)
      (owes : after = true) : RingMove plane task before after (.unring kept gone)
  | keeps {effect : Effect} (keeps : effect.keepsRings = true)
      (owes : before = true → after = true) : RingMove plane task before after effect

theorem acceptStep_ring {task stage : AcceptTask} {event : AcceptEvent} {effect : Effect}
    (moved : acceptStep config plane task event = some (stage, effect)) :
    RingMove plane task task.publishes stage.publishes effect := by
  cases acceptStep_move moved with
  | incoming | failed | refuse | known | ring | answer | spawn => exact .keeps rfl Bool.noConfusion
  | push => exact .pushes rfl rfl
  | announce => exact .keeps rfl id
  | publish => exact .publishes

theorem commandStep_ring (task : AcceptTask) {command stage : Command} {event : CommandEvent}
    {effect : Effect} (moved : commandStep config plane command event = some (stage, effect)) :
    RingMove plane task command.publishes stage.publishes effect := by
  cases commandStep_move moved with
  | busy | dial | take | unreachable | connect | connected | connectFailed | answer | spawn | idle
      | rejectCheck | unchanged | tickCheck => exact .keeps rfl Bool.noConfusion
  | missing _ asks => obtain rfl | rfl := asks <;> exact .keeps rfl Bool.noConfusion
  | accept | reject => exact .removes List.eraseP_sublist rfl
  | expire => exact .removes List.filter_sublist rfl
  | acceptPublish | rejectPublish | tickPublish => exact .publishes

theorem session_keeps {number : Nat} {event : SessionEvent}
    (stepped : step config plane (.session number event) = some next) :
    next.ringing = plane.ringing ∧ next.pending = plane.pending ∧ next.accept = plane.accept ∧
      next.command = plane.command := by
  obtain ⟨session, after, effect, -, moved, -, rfl⟩ := session_cases stepped
  rcases (sessionStep_move moved).effect with rfl | rfl | ⟨ids, rfl⟩ | rfl <;>
    exact ⟨rfl, rfl, rfl, rfl⟩

theorem client_keeps {i : Nat} {event : ClientEvent}
    (stepped : step config plane (.client i event) = some next) :
    next.ringing = plane.ringing ∧ next.pending = plane.pending ∧ next.accept = plane.accept ∧
      next.command = plane.command := by
  cases client_cases stepped <;> exact ⟨rfl, rfl, rfl, rfl⟩

theorem die_keeps {conn : Connection} (stepped : step config plane (.die conn) = some next) :
    next.ringing = plane.ringing ∧ next.pending = plane.pending ∧ next.accept = plane.accept ∧
      next.command = plane.command := by
  simp only [step, Option.ite_none_right_eq_some, Option.some.injEq] at stepped
  obtain ⟨-, rfl⟩ := stepped
  exact ⟨rfl, rfl, rfl, rfl⟩

/-- The list gets one ring at its end or loses some. -/
theorem ring_cases {event : Event} (stepped : step config plane event = some next) :
    (∃ ring, plane.accept = .ringing ring ∧ event = .accept .next ∧
      next.ringing = plane.ringing ++ [ring]) ∨ next.ringing.Sublist plane.ringing := by
  cases event with
  | accept event =>
      obtain ⟨stage, effect, moved, -, rfl⟩ := accept_cases stepped
      cases acceptStep_ring moved with
      | publishes => exact .inr (List.Sublist.refl _)
      | @pushes ring holds owes =>
          refine .inl ⟨ring, holds, ?_, rfl⟩
          rw [holds] at moved
          cases event <;> cases moved
          rfl
      | removes sub owes => exact .inr sub
      | keeps keeps owes =>
          refine .inr ?_
          change (effect.apply plane).ringing.Sublist _
          rw [(keepsRings_apply keeps plane).1]
  | command event =>
      obtain ⟨stage, effect, moved, -, rfl⟩ := command_cases stepped
      refine .inr ?_
      cases commandStep_ring .accepting moved with
      | publishes => exact List.Sublist.refl _
      | pushes holds owes => cases holds
      | removes sub owes => exact sub
      | keeps keeps owes =>
          change (effect.apply plane).ringing.Sublist _
          rw [(keepsRings_apply keeps plane).1]
  | session number event => exact .inr ((session_keeps stepped).1 ▸ List.Sublist.refl _)
  | client i event => exact .inr ((client_keeps stepped).1 ▸ List.Sublist.refl _)
  | die conn => exact .inr ((die_keeps stepped).1 ▸ List.Sublist.refl _)

/-! ## Over runs -/

theorem oneRingEach_start (config : Config) : OneRingEach (.start config) := single_nil

theorem oneRingEach_step_iff {event : Event} (single : OneRingEach plane)
    (stepped : step config plane event = some next) :
    OneRingEach next ↔ PushesNew plane event := by
  constructor
  · rintro single' ring holds rfl
    have pushed : next.ringing = plane.ringing ++ [ring] := by
      simp only [step, holds, acceptStep, Option.map_some, Option.some.injEq] at stepped
      rw [← stepped]
      rfl
    unfold OneRingEach at single'
    rw [pushed] at single'
    exact (single_push_iff.mp single').2
  · intro new
    unfold OneRingEach
    rcases ring_cases stepped with ⟨ring, holds, rfl, pushed⟩ | sub
    · rw [pushed]
      exact single_push_iff.mpr ⟨single, new ring holds rfl⟩
    · exact Single.sublist single sub

theorem Names.picks {token : String} {peer : EndpointId} (names : Names config plane token peer) :
    ∀ ring ∈ plane.ringing,
      config.book.matchPeerToken token ring.peer = true ↔ ring.peer = peer := by
  intro ring member
  refine ⟨names.2 ring member, ?_⟩
  rintro rfl
  exact names.1

/-- An answer removes the ring that the token finds. -/
theorem answer_cases {token : String}
    (asks : plane.command = .accepting token ∨ plane.command = .rejecting token)
    (stepped : step config plane (.command .next) = some next) :
    next.ringing = dropRing config plane token ∧
      ∀ ring, next.command = .acceptPublish ring → findRing config plane token = some ring := by
  obtain ⟨stage, effect, moved, -, rfl⟩ := command_cases stepped
  have kept : findRing config plane token = none → plane.ringing = dropRing config plane token := by
    intro absent
    exact (List.eraseP_of_forall_not (List.find?_eq_none.mp absent)).symm
  rcases asks with asks | asks <;> rw [asks] at moved <;> simp only [commandStep] at moved <;>
    split at moved <;> cases moved
  · exact ⟨kept ‹_›, fun ring taken => by cases taken⟩
  · rename_i found
    refine ⟨rfl, fun ring taken => ?_⟩
    cases taken
    exact found
  · exact ⟨kept ‹_›, fun ring taken => by cases taken⟩
  · exact ⟨rfl, fun ring taken => by cases taken⟩

theorem OneRingEach.answers (single : OneRingEach plane) (event : Event) :
    Answers config plane event := by
  rintro token peer next asks rfl names stepped
  obtain ⟨left, takes⟩ := answer_cases asks stepped
  constructor
  · rw [left]
    exact Single.answered single names.picks
  · intro ring taken
    have found := takes ring taken
    have member := findRing_mem found
    unfold findRing at found
    have passes := List.find?_some found
    exact ⟨(names.picks ring member).mp passes, Single.latest single member⟩

theorem ring_list_iff (config : Config) (events : List Event) :
    AllStates (step config) OneRingEach (.start config) events ∧
        AllSteps (step config) (Answers config) (.start config) events ↔
      AllSteps (step config) PushesNew (.start config) events :=
  allStates_and_allSteps_iff (I := fun _ => True) (fun _ _ _ _ _ => trivial)
    (fun _ event _ _ single stepped =>
      ⟨fun both => (oneRingEach_step_iff single stepped).mp both.1,
        fun new => ⟨(oneRingEach_step_iff single stepped).mpr new, single.answers event⟩⟩)
    trivial (oneRingEach_start config) events

theorem shown_start (config : Config) : Shown (.start config) := fun _ _ => rfl

theorem shown_step {event : Event} (shown : Shown plane)
    (stepped : step config plane event = some next) : Shown next := by
  cases event with
  | accept event =>
      obtain ⟨stage, effect, moved, -, rfl⟩ := accept_cases stepped
      intro accept command
      have command : plane.command.publishes = false := by
        rw [← command, apply_command]
      cases acceptStep_ring moved with
      | publishes => rfl
      | pushes holds owes | removes sub owes => exact absurd owes (Bool.eq_false_iff.mp accept)
      | keeps keeps owes =>
          obtain ⟨ringing, pending⟩ := keepsRings_apply keeps plane
          have before : plane.accept.publishes = false :=
            Bool.eq_false_iff.mpr fun publishes => Bool.eq_false_iff.mp accept (owes publishes)
          exact pending.trans ((shown before command).trans (by rw [ringing]))
  | command event =>
      obtain ⟨stage, effect, moved, -, rfl⟩ := command_cases stepped
      intro accept command
      have accept : plane.accept.publishes = false := by
        rw [← accept, apply_accept]
      cases commandStep_ring .accepting moved with
      | publishes => rfl
      | pushes holds owes | removes sub owes => exact absurd owes (Bool.eq_false_iff.mp command)
      | keeps keeps owes =>
          obtain ⟨ringing, pending⟩ := keepsRings_apply keeps plane
          have before : plane.command.publishes = false :=
            Bool.eq_false_iff.mpr fun publishes => Bool.eq_false_iff.mp command (owes publishes)
          exact pending.trans ((shown accept before).trans (by rw [ringing]))
  | session number event =>
      obtain ⟨ringing, pending, accept, command⟩ := session_keeps stepped
      unfold Shown
      rw [ringing, pending, accept, command]
      exact shown
  | client i event =>
      obtain ⟨ringing, pending, accept, command⟩ := client_keeps stepped
      unfold Shown
      rw [ringing, pending, accept, command]
      exact shown
  | die conn =>
      obtain ⟨ringing, pending, accept, command⟩ := die_keeps stepped
      unfold Shown
      rw [ringing, pending, accept, command]
      exact shown

theorem shown_run (config : Config) (events : List Event) :
    AllStates (step config) Shown (.start config) events :=
  allStates_of_invariant (fun _ _ _ => shown_step) (shown_start config) events

end LinkP2p.Stream.Phone
