import Mathlib.Data.List.Basic

/-!
# A fair semaphore

Permits are handed out first come, first served. Whoever finds none waits in a queue,
and a permit that is given back goes to the head of the queue.
-/

namespace LinkP2p.Lib

/-- The free permits and those who wait for one; nobody waits while a permit is free. -/
structure Semaphore (ι : Type*) where
  permits : Nat
  waiters : List ι
  fair : waiters ≠ [] → permits = 0

namespace Semaphore

variable {ι : Type*}

def new (permits : Nat) : Semaphore ι where
  permits := permits
  waiters := []
  fair := nofun

/-- Whether a permit is had at once, and what is left. -/
def acquire (s : Semaphore ι) (i : ι) : Bool × Semaphore ι :=
  if free : 0 < s.permits then
    (true,
      { permits := s.permits - 1
        waiters := s.waiters
        fair := fun waiting => by rw [s.fair waiting] })
  else
    (false,
      { permits := s.permits
        waiters := s.waiters ++ [i]
        fair := fun _ => Nat.eq_zero_of_not_pos free })

/-- Who gets the permit that is given back, and what is left. -/
def release (s : Semaphore ι) : Option ι × Semaphore ι :=
  match waiting : s.waiters with
  | [] => (none, { permits := s.permits + 1, waiters := [], fair := nofun })
  | next :: rest =>
      (some next,
        { permits := s.permits
          waiters := rest
          fair := fun _ => s.fair (by rw [waiting]; exact List.cons_ne_nil _ _) })

/-- No permit is lost or made when one is asked for. -/
theorem acquire_permits (s : Semaphore ι) (i : ι) :
    (s.acquire i).2.permits + (if (s.acquire i).1 then 1 else 0) = s.permits := by
  unfold acquire
  split
  · next free => exact Nat.sub_add_cancel free
  · rfl

/-- The permit that is given back is free or with the next one in the queue. -/
theorem release_permits (s : Semaphore ι) :
    s.release.2.permits + s.release.1.toList.length = s.permits + 1 := by
  unfold release
  split <;> rfl

theorem waiters_eq_nil (s : Semaphore ι) (free : 0 < s.permits) : s.waiters = [] := by
  by_contra waiting
  rw [s.fair waiting] at free
  exact absurd free (Nat.lt_irrefl 0)

end Semaphore

end LinkP2p.Lib
