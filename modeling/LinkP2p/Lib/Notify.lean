import LinkP2p.Lib.Transition

/-!
# Wake-ups that store no permit

`notify_waiters` marks the `Notified` futures that exist when it is called and
leaves nothing behind for later ones. A request made through it reaches a task
only if the task holds such a future at that moment, and stays with the task
only until the future is dropped.
-/

namespace LinkP2p.Lib.Notify

open LinkP2p.Lib.Transition

/-- A task that awaits a `Notify` at some of its points. -/
structure Task (π α : Type*) where
  step : π → α → Option π
  /-- The future held at the point, and whether it has been marked. -/
  waiter : π → Option Bool
  notifyWaiters : π → π
  /-- The task is past its loop and goes to its end. -/
  left : π → Bool
  /-- The action drops the future of the point and goes on with the loop. -/
  drops : π → α → Bool
  waiter_notify : ∀ point, waiter (notifyWaiters point) = (waiter point).map fun _ => true
  left_notify : ∀ point, left (notifyWaiters point) = left point
  left_step : ∀ point act next, step point act = some next →
    left point = true → left next = true
  leaves : ∀ point, waiter point = some true → ∃ acts final,
    run step point acts = some final ∧ left final = true
  drops_iff : ∀ point act next, step point act = some next → waiter point = some true →
    ((left next = true ∨ waiter next = some true) ↔ drops point act = false)

variable {π α : Type*} (task : Task π α)

/-- The task has stopped or holds a marked future. -/
def Task.Told (point : π) : Prop := task.left point = true ∨ task.waiter point = some true

instance (point : π) : Decidable (task.Told point) := inferInstanceAs (Decidable (_ ∨ _))

/-- The task can be told: it has stopped or holds a future. -/
def Task.Listens (point : π) : Prop := task.left point = true ∨ (task.waiter point).isSome = true

instance (point : π) : Decidable (task.Listens point) := inferInstanceAs (Decidable (_ ∨ _))

/-- The action does not drop a marked future for another round of the loop. -/
def Task.Keeps (point : π) (act : α) : Prop :=
  task.waiter point = some true → task.left point = false → task.drops point act = false

variable {task}

/-- A request reaches exactly a task that listens. -/
theorem told_notify_iff {point : π} :
    task.Told (task.notifyWaiters point) ↔ task.Listens point := by
  rw [Task.Told, Task.Listens, task.left_notify, task.waiter_notify]
  cases task.waiter point <;> simp

/-- A repeated request keeps what an earlier one has achieved. -/
theorem told_notify {point : π} (told : task.Told point) :
    task.Told (task.notifyWaiters point) := by
  rw [told_notify_iff]
  rcases told with left | marked
  · exact Or.inl left
  · exact Or.inr (by rw [marked]; rfl)

/-- A told task stays told exactly through the actions that keep its future. -/
theorem told_step_iff {point next : π} {act : α} (told : task.Told point)
    (stepped : task.step point act = some next) :
    task.Told next ↔ task.Keeps point act := by
  cases stopped : task.left point with
  | true =>
      have stays := task.left_step point act next stepped stopped
      exact ⟨fun _ _ running => absurd (stopped.symm.trans running) nofun, fun _ => Or.inl stays⟩
  | false =>
      have marked : task.waiter point = some true :=
        told.resolve_left (by rw [stopped]; exact nofun)
      rw [Task.Told, task.drops_iff point act next stepped marked]
      exact ⟨fun kept _ _ => kept, fun keeps => keeps marked stopped⟩

end LinkP2p.Lib.Notify
