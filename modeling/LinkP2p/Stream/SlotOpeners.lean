import LinkP2p.Stream.ConnSlot

/-!
# Openers and the connection that the watcher waits on

Here a replacement of the slot is an atomic write that is always kept. An opener
whose `open_bi` has timed out clears the slot, whatever the slot holds by then.
-/

namespace LinkP2p.Stream

open LinkP2p.Lib LinkP2p.Lib.Transition

/-- `ConnSlot::replace`, stored whether or not there is a receiver. -/
def Slot.keep (slot : Slot) (conn : Option Connection) : Slot :=
  { slot with value := conn, version := slot.version + 1, latest := conn }

def Effect.applyKept (slot : Slot) : Effect → Slot
  | .silent => slot
  | .close conn => { slot with closed := Function.update slot.closed conn true }
  | .replace conn => slot.keep conn

/-- A step of the openers and the watcher on a slot that keeps every write. -/
def keptStep (slot : Slot) : Event → Option Slot
  | .arrive i =>
      if slot.openers.containsKey i then none else some (slot.setOpener i (some .entering))
  | .opener i act =>
      (slot.openers.get i).bind fun stage =>
        (openerStep slot stage act).map fun (next, effect) =>
          (effect.applyKept slot).setOpener i next
  | .watcher act =>
      (watcherStep slot slot.watcher act).map fun (next, effect) =>
        { effect.applyKept slot with
          watcher := next
          nextConn := if act matches .dialOk then slot.nextConn + 1 else slot.nextConn }
  | .die conn => some ((Effect.close conn).applyKept slot)

/-- Neither has an opener knocked out the live connection that the watcher waits on, nor does
one wait for a change that the watcher will not make. -/
structure Undisturbed (slot : Slot) : Prop where
  held : ∀ conn, slot.watcher = .closing conn → slot.closed conn = false →
    slot.value = some conn
  awaited : ∀ i, slot.openers.get i = some (.waiting slot.version) →
    ∀ conn, slot.watcher = .closing conn → slot.closed conn = true

/-- When an opener clears the slot, the watcher is not waiting for the close of a connection
that is alive. -/
def ClearsInTime (slot : Slot) (event : Event) : Prop :=
  ∀ i, event = .opener i .clear → ∀ conn, slot.watcher = .closing conn → slot.closed conn = true

theorem clearsInTime_of_ne {slot : Slot} {event : Event} (other : ∀ i, event ≠ .opener i .clear) :
    ClearsInTime slot event :=
  fun i clear => absurd clear (other i)

/-! ## What an opener has seen -/

/-- An opener that has seen the current version has seen the connection in the slot, and waits
on it only when that is dead. -/
def Current (slot : Slot) : Opener → Prop
  | .entering => True
  | .waiting seen => seen ≤ slot.version ∧
      (seen = slot.version → ∀ conn, slot.value = some conn → slot.closed conn = true)
  | .opening conn seen => seen ≤ slot.version ∧ (seen = slot.version → slot.value = some conn)
  | .clearing _ seen => seen ≤ slot.version

def AllCurrent (slot : Slot) : Prop :=
  ∀ i stage, slot.openers.get i = some stage → Current slot stage

theorem update_closed {closed : Connection → Bool} {conn : Connection} (other : Connection)
    (already : closed conn = true) : Function.update closed other true conn = true := by
  rw [Function.update_apply]
  split
  · rfl
  · exact already

theorem old_version {seen version : Nat} (old : seen ≤ version) : seen ≠ version + 1 :=
  Nat.ne_of_lt (Nat.lt_succ_of_le old)

theorem Current.applyKept {slot : Slot} {stage : Opener} (current : Current slot stage)
    (effect : Effect) : Current (effect.applyKept slot) stage := by
  cases effect with
  | silent => exact current
  | close other =>
      cases stage with
      | entering => trivial
      | waiting seen =>
          exact ⟨current.1, fun same conn here => update_closed other (current.2 same conn here)⟩
      | opening conn seen => exact current
      | clearing conn seen => exact current
  | replace conn =>
      -- the version has moved on
      cases stage with
      | entering => trivial
      | waiting seen =>
          exact ⟨Nat.le_succ_of_le current.1, fun same => absurd same (old_version current.1)⟩
      | opening conn seen =>
          exact ⟨Nat.le_succ_of_le current.1, fun same => absurd same (old_version current.1)⟩
      | clearing conn seen => exact Nat.le_succ_of_le current

theorem Current.moved {slot : Slot} {stage after : Opener} {act : OpenerAct} {effect : Effect}
    (current : Current slot stage) (moved : openerStep slot stage act = some (some after, effect)) :
    Current (effect.applyKept slot) after := by
  cases openerStep_move moved with
  | absent empty => exact ⟨Nat.le_refl _, fun _ conn other => by cases empty.symm.trans other⟩
  | found here => exact ⟨Nat.le_refl _, fun _ => here⟩
  | wake => trivial
  | dead dead =>
      refine ⟨current.1, fun same other here => ?_⟩
      cases here.symm.trans (current.2 same)
      exact dead
  | timeout => exact current.1
  | clear => exact ⟨Nat.le_succ_of_le current, fun same => absurd same (old_version current)⟩

theorem allCurrent_setOpener {slot : Slot} (all : AllCurrent slot) (i : Nat)
    {after : Option Opener} (current : ∀ stage, after = some stage → Current slot stage) :
    AllCurrent (slot.setOpener i after) := by
  intro j stage found
  cases after with
  | none =>
      obtain ⟨-, before⟩ := HashMap.get_of_get_remove found
      cases stage <;> exact all j _ before
  | some moved =>
      rcases HashMap.get_of_get_put found with ⟨rfl, rfl⟩ | ⟨-, before⟩
      · have here := current _ rfl
        cases stage <;> exact here
      · cases stage <;> exact all j _ before

theorem allCurrent_step {slot next : Slot} {event : Event} (all : AllCurrent slot)
    (stepped : keptStep slot event = some next) : AllCurrent next := by
  cases event with
  | arrive i =>
      simp only [keptStep, Option.ite_none_left_eq_some, Option.some.injEq] at stepped
      rw [← stepped.2]
      refine allCurrent_setOpener all i ?_
      rintro _ ⟨⟩
      trivial
  | opener i act =>
      simp only [keptStep, Option.bind_eq_some_iff, Option.map_eq_some_iff] at stepped
      obtain ⟨stage, found, ⟨after, effect⟩, moved, rfl⟩ := stepped
      refine allCurrent_setOpener ?_ i ?_
      · intro j other here
        refine (all j other ?_).applyKept effect
        cases effect <;> exact here
      · rintro next rfl
        exact (all i stage found).moved moved
  | watcher act =>
      simp only [keptStep, Option.map_eq_some_iff] at stepped
      obtain ⟨⟨after, effect⟩, moved, rfl⟩ := stepped
      intro j stage found
      have before : Current slot stage := by
        refine all j stage ?_
        cases effect <;> exact found
      have kept := before.applyKept effect
      cases stage <;> exact kept
  | die conn =>
      cases stepped
      intro j stage found
      exact (all j stage found).applyKept (.close conn)

/-! ## One step -/

/-- What an opener waits for will come once the watcher's live connection is in the slot. -/
theorem undisturbed_iff {slot : Slot} (all : AllCurrent slot) :
    Undisturbed slot ↔
      ∀ conn, slot.watcher = .closing conn → slot.closed conn = false → slot.value = some conn := by
  refine ⟨Undisturbed.held, fun held => ⟨held, ?_⟩⟩
  intro i waiting conn closing
  cases dead : slot.closed conn with
  | true => rfl
  | false =>
      have seen := (all i _ waiting).2 rfl conn (held conn closing dead)
      rw [dead] at seen
      cases seen

theorem closed_of_update {closed : Connection → Bool} {conn other : Connection}
    (alive : Function.update closed other true conn = false) : closed conn = false := by
  cases dead : closed conn with
  | false => rfl
  | true =>
      rw [update_closed other dead] at alive
      cases alive

theorem held_opener {slot next : Slot} {i : Nat} {act : OpenerAct}
    (held : ∀ conn, slot.watcher = .closing conn → slot.closed conn = false →
      slot.value = some conn)
    (stepped : keptStep slot (.opener i act) = some next) :
    (∀ conn, next.watcher = .closing conn → next.closed conn = false → next.value = some conn) ↔
      ClearsInTime slot (.opener i act) := by
  simp only [keptStep, Option.bind_eq_some_iff, Option.map_eq_some_iff] at stepped
  obtain ⟨stage, found, ⟨after, effect⟩, moved, rfl⟩ := stepped
  have fields : ((effect.applyKept slot).setOpener i after).watcher = slot.watcher ∧
      ((effect.applyKept slot).setOpener i after).closed = (effect.applyKept slot).closed ∧
      ((effect.applyKept slot).setOpener i after).value = (effect.applyKept slot).value := by
    cases effect <;> cases after <;> exact ⟨rfl, rfl, rfl⟩
  rw [fields.1, fields.2.1, fields.2.2]
  rcases openerStep_effect moved with ⟨other, quiet⟩ | ⟨rfl, -, rfl⟩
  · refine iff_of_true ?_ (fun j same => absurd (by cases same; rfl) other)
    rcases quiet with rfl | ⟨conn, rfl⟩
    · exact held
    · exact fun conn' closing alive => held conn' closing (closed_of_update alive)
  · constructor
    · intro after j same conn closing
      cases dead : slot.closed conn with
      | true => rfl
      | false => cases after conn closing dead
    · intro inTime conn closing alive
      have dead := inTime i rfl conn closing
      rw [show slot.closed conn = false from alive] at dead
      cases dead

theorem held_watcher {slot next : Slot} {act : WatcherAct}
    (stepped : keptStep slot (.watcher act) = some next) :
    ∀ conn, next.watcher = .closing conn → next.closed conn = false → next.value = some conn := by
  simp only [keptStep, Option.map_eq_some_iff] at stepped
  obtain ⟨⟨after, effect⟩, moved, rfl⟩ := stepped
  rintro conn rfl alive
  cases place : slot.watcher with
  | reading redialled =>
      rw [place] at moved
      cases act <;> simp only [watcherStep, reduceCtorEq] at moved
      cases here : slot.value with
      | none =>
          rw [here] at moved
          cases moved
      | some other =>
          rw [here] at moved
          cases moved
          exact here
  | closing other =>
      rw [place] at moved
      cases act <;> simp only [watcherStep, reduceCtorEq] at moved
      split at moved
      · cases moved
      · cases moved
  | clearing | dialing | storing other =>
      rw [place] at moved
      cases act <;> cases moved

/-- A step leaves the watcher's live connection in the slot exactly when no opener clears it. -/
theorem undisturbed_step_iff {slot next : Slot} {event : Event} (all : AllCurrent slot)
    (undisturbed : Undisturbed slot) (stepped : keptStep slot event = some next) :
    Undisturbed next ↔ ClearsInTime slot event := by
  rw [undisturbed_iff (allCurrent_step all stepped)]
  cases event with
  | opener i act => exact held_opener undisturbed.held stepped
  | watcher act =>
      have other : ClearsInTime slot (.watcher act) :=
        clearsInTime_of_ne fun i clear => by cases clear
      exact iff_of_true (held_watcher stepped) other
  | arrive i =>
      have other : ClearsInTime slot (.arrive i) :=
        clearsInTime_of_ne fun j clear => by cases clear
      simp only [keptStep, Option.ite_none_left_eq_some, Option.some.injEq] at stepped
      rw [← stepped.2]
      exact iff_of_true undisturbed.held other
  | die conn =>
      have other : ClearsInTime slot (.die conn) :=
        clearsInTime_of_ne fun i clear => by cases clear
      cases stepped
      refine iff_of_true ?_ other
      exact fun conn' closing alive => undisturbed.held conn' closing (closed_of_update alive)

/-! ## Runs -/

/-- **Openers and redials.** For every interleaving of the watcher with any number of openers,
the slot holds the live connection that the watcher waits on, and no opener waits in vain,
exactly when no opener clears the slot while the watcher waits on a live connection. -/
theorem openers_undisturbed_iff (initial : Option Connection) (events : List Event) :
    AllStates keptStep Undisturbed (Slot.new initial) events ↔
      AllSteps keptStep ClearsInTime (Slot.new initial) events := by
  have start : AllCurrent (Slot.new initial) := by
    intro i stage found
    cases found
  refine allStates_iff (I := AllCurrent) (fun _ _ _ all stepped => allCurrent_step all stepped)
    (fun _ _ _ all undisturbed stepped => undisturbed_step_iff all undisturbed stepped) start
    ((undisturbed_iff start).mpr ?_) events
  intro conn closing
  cases closing

/-- Two openers time out on the same connection; one is late with its clearing, and the watcher
has redialled in between. -/
def lateClear : List Event :=
  [.arrive 1, .arrive 2, .opener 1 .subscribe, .opener 2 .subscribe, .watcher .read,
    .opener 1 .timeout, .opener 2 .timeout, .opener 1 .clear, .watcher .closed, .watcher .clear,
    .watcher .dialOk, .watcher .store, .watcher .read, .opener 2 .clear]

/-- The late opener knocks out the new connection. -/
theorem late_clear_disturbs :
    ¬ AllStates keptStep Undisturbed (Slot.new (some 0)) lateClear := by
  intro all
  have ran : run keptStep (Slot.new (some 0)) lateClear = some _ := rfl
  have gone := (all.final ran).held 1 rfl rfl
  cases gone

end LinkP2p.Stream
