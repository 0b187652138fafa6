import Mathlib.Data.List.Basic
import Mathlib.Algebra.Order.Ring.Nat
import Mathlib.Data.List.Induction

/-!
# Reconnects of a spoke

The loop of `run_tun_connect_inner` dials, runs the session and sleeps before it dials
again. The clock that tells a stable session starts before the dial. Durations are in
milliseconds.
-/

namespace LinkP2p.Tun

structure Backoff where
  nextDelay : Nat
  base : Nat
  max : Nat
  deriving DecidableEq, Repr

namespace Backoff

def new (base max : Nat) : Backoff := ⟨base, base, max⟩

/-- The delay for the next attempt, and the backoff that has advanced. -/
def next (backoff : Backoff) : Nat × Backoff :=
  (backoff.nextDelay, { backoff with nextDelay := min (backoff.nextDelay * 2) backoff.max })

def reset (backoff : Backoff) : Backoff := { backoff with nextDelay := backoff.base }

/-- `after_session`: no delay after a session that was stable. -/
def afterSession (backoff : Backoff) (lived minStable : Nat) : Option Nat × Backoff :=
  if minStable ≤ lived then (none, backoff.reset)
  else (some backoff.next.1, backoff.next.2)

end Backoff

def reconnectBase : Nat := 1000

def reconnectMax : Nat := 30000

def minStableConn : Nat := 5000

/-- One turn of the loop, up to where it decides on the delay. -/
inductive Attempt where
  /-- The dial or the setup behind it fails after so long. -/
  | failed (dial : Nat)
  /-- A session is established after so long, and stays up so long. -/
  | session (dial lived : Nat)
  deriving DecidableEq, Repr

/-- `session_started.elapsed()` -/
def Attempt.elapsed : Attempt → Nat
  | .failed dial => dial
  | .session dial lived => dial + lived

/-- The session was established and stayed up long enough. -/
def Attempt.stable : Attempt → Bool
  | .failed _ => false
  | .session _ lived => minStableConn ≤ lived

structure Reconnect where
  backoff : Backoff
  delay : Option Nat
  deriving DecidableEq, Repr

def Reconnect.start : Reconnect := ⟨.new reconnectBase reconnectMax, none⟩

/-- The end of the loop body. -/
def Reconnect.after (loop : Reconnect) (attempt : Attempt) : Reconnect :=
  match loop.backoff.afterSession attempt.elapsed minStableConn with
  | (some next, backoff) => ⟨backoff, some next⟩
  | (none, backoff) => ⟨backoff, some reconnectBase⟩

/-- The loop after these attempts. -/
def reconnect (attempts : List Attempt) : Reconnect := attempts.foldl Reconnect.after .start

/-! ## What is asked of the delays -/

/-- The unstable attempts since the last restart. -/
def unstableSince (attempts : List Attempt) : Nat :=
  (attempts.reverse.takeWhile fun attempt => !attempt.stable).length

/-- The delay after so many unstable attempts. -/
def backoffDelay (unstable : Nat) : Nat := min (reconnectBase * 2 ^ unstable) reconnectMax

/-- The delay after the last attempt, and how the doubling goes on. -/
structure Doubles (before : List Attempt) (attempt : Attempt) : Prop where
  delay : (reconnect (before ++ [attempt])).delay =
    some (if attempt.stable then reconnectBase else backoffDelay (unstableSince before))
  next : (reconnect (before ++ [attempt])).backoff.nextDelay =
    backoffDelay (unstableSince (before ++ [attempt]))

/-! ## One attempt -/

theorem reconnect_append (before : List Attempt) (attempt : Attempt) :
    reconnect (before ++ [attempt]) = (reconnect before).after attempt := by
  rw [reconnect, List.foldl_append]
  rfl

theorem unstableSince_append (before : List Attempt) (attempt : Attempt) :
    unstableSince (before ++ [attempt]) =
      if attempt.stable then 0 else unstableSince before + 1 := by
  unfold unstableSince
  rw [List.reverse_append, List.reverse_singleton, List.singleton_append, List.takeWhile_cons]
  cases attempt.stable <;> rfl

theorem backoffDelay_zero : backoffDelay 0 = reconnectBase := by decide

/-- The delay doubles up to its bound. -/
theorem backoffDelay_succ (unstable : Nat) :
    backoffDelay (unstable + 1) = min (backoffDelay unstable * 2) reconnectMax := by
  unfold backoffDelay
  rw [Nat.pow_succ, ← Nat.mul_assoc]
  omega

/-- After an unstable attempt the delay has left its base. -/
theorem backoffDelay_ne_base (unstable : Nat) : backoffDelay (unstable + 1) ≠ reconnectBase := by
  have grown : 1 ≤ 2 ^ unstable := Nat.one_le_two_pow
  unfold backoffDelay reconnectBase reconnectMax
  rw [Nat.pow_succ]
  omega

/-- The bounds stay what they are. -/
theorem reconnect_bounds (attempts : List Attempt) :
    (reconnect attempts).backoff.base = reconnectBase ∧
      (reconnect attempts).backoff.max = reconnectMax := by
  induction attempts using List.reverseRecOn with
  | nil => exact ⟨rfl, rfl⟩
  | append_singleton before attempt ih =>
      rw [reconnect_append, Reconnect.after, Backoff.afterSession]
      split
      · next taken =>
        split at taken
        · cases taken
        · cases taken
          exact ih
      · next taken =>
        split at taken
        · cases taken
          exact ih
        · cases taken

/-- The loop at an attempt that it takes for stable. -/
theorem reconnect_long {before : List Attempt} {attempt : Attempt}
    (long : minStableConn ≤ attempt.elapsed) :
    (reconnect (before ++ [attempt])).delay = some reconnectBase ∧
      (reconnect (before ++ [attempt])).backoff.nextDelay = reconnectBase := by
  rw [reconnect_append, Reconnect.after, Backoff.afterSession, if_pos long]
  exact ⟨rfl, (reconnect_bounds before).1⟩

/-- The loop at any other attempt. -/
theorem reconnect_short {before : List Attempt} {attempt : Attempt}
    (short : ¬ minStableConn ≤ attempt.elapsed) :
    (reconnect (before ++ [attempt])).delay = some (reconnect before).backoff.nextDelay ∧
      (reconnect (before ++ [attempt])).backoff.nextDelay =
        min ((reconnect before).backoff.nextDelay * 2) reconnectMax := by
  rw [reconnect_append, Reconnect.after, Backoff.afterSession, if_neg short]
  refine ⟨rfl, ?_⟩
  rw [← (reconnect_bounds before).2]
  rfl

theorem long_of_stable {attempt : Attempt} (stable : attempt.stable = true) :
    minStableConn ≤ attempt.elapsed := by
  cases attempt with
  | failed dial => cases stable
  | session dial lived => exact Nat.le_add_left_of_le (of_decide_eq_true stable)

/-! ## Every sequence of attempts -/

/-- Where only stable sessions take long, the backoff counts the unstable attempts. -/
theorem nextDelay_eq {attempts : List Attempt}
    (quick : ∀ attempt ∈ attempts, minStableConn ≤ attempt.elapsed → attempt.stable = true) :
    (reconnect attempts).backoff.nextDelay = backoffDelay (unstableSince attempts) := by
  induction attempts using List.reverseRecOn with
  | nil => rfl
  | append_singleton before attempt ih =>
      have counted := ih fun other inside => quick other (List.mem_append_left _ inside)
      have last := quick attempt (List.mem_append_right _ List.mem_cons_self)
      rw [unstableSince_append]
      by_cases long : minStableConn ≤ attempt.elapsed
      · rw [(reconnect_long long).2, if_pos (last long), backoffDelay_zero]
      · rw [(reconnect_short long).2, counted, if_neg (fun stable => long (long_of_stable stable)),
          backoffDelay_succ]

/-- **Reconnect backoff.** For every sequence of attempts the delays go back to the base and
restart only at stable sessions, and double otherwise, exactly when every attempt that takes as
long as a stable session is one. -/
theorem backoff_doubles_iff (attempts : List Attempt) :
    (∀ before attempt after, attempts = before ++ attempt :: after → Doubles before attempt) ↔
      ∀ attempt ∈ attempts, minStableConn ≤ attempt.elapsed → attempt.stable = true := by
  constructor
  · intro doubles attempt inside long
    obtain ⟨before, after, split⟩ := List.append_of_mem inside
    have next := (doubles before attempt after split).next
    rw [(reconnect_long long).2, unstableSince_append] at next
    cases stable : attempt.stable with
    | true => rfl
    | false =>
        rw [stable] at next
        exact absurd next.symm (backoffDelay_ne_base _)
  · rintro quick before attempt after rfl
    have earlier : ∀ other ∈ before, minStableConn ≤ other.elapsed → other.stable = true :=
      fun other inside => quick other (List.mem_append_left _ inside)
    have last := quick attempt (List.mem_append_right _ List.mem_cons_self)
    refine ⟨?_, ?_⟩
    · by_cases long : minStableConn ≤ attempt.elapsed
      · rw [(reconnect_long long).1, if_pos (last long)]
      · rw [(reconnect_short long).1, if_neg (fun stable => long (long_of_stable stable)),
          nextDelay_eq earlier]
    · refine nextDelay_eq fun other inside => ?_
      rcases List.mem_append.mp inside with before | same
      · exact earlier other before
      · rw [List.mem_singleton.mp same]
        exact last

/-- Two dials that fail after six seconds each. -/
theorem slow_dials_restart :
    ¬ ∀ (attempts before : List Attempt) (attempt : Attempt) (after : List Attempt),
      attempts = before ++ attempt :: after → Doubles before attempt := by
  intro doubles
  have second := (doubles _ [.failed 6000] (.failed 6000) [] rfl).delay
  revert second
  decide

end LinkP2p.Tun
