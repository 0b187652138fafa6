import Mathlib.Data.List.Basic
import Mathlib.Data.List.Induction

/-!
# A counter that is reset on arrival

A window opens with the first request that comes a width after the last one has opened, and
so many requests are granted in it. Nothing happens between two requests, and a request may
have no use for a grant.
-/

namespace LinkP2p.Lib.RateWindow

structure Window where
  start : Nat
  count : Nat

structure Request where
  time : Nat
  /-- It has a use for a grant. -/
  asks : Bool

structure Outcome where
  time : Nat
  /-- It has opened a window. -/
  opened : Bool
  granted : Bool

section

variable (limit width : Nat)

/-- The window that a request finds. -/
def renew (window : Window) (time : Nat) : Window :=
  if width ≤ time - window.start then ⟨time, 0⟩ else window

def grants (window : Window) (request : Request) : Bool :=
  request.asks && decide ((renew width window request.time).count < limit)

def next (window : Window) (request : Request) : Window :=
  let current := renew width window request.time
  if grants limit width window request then { current with count := current.count + 1 } else current

def outcome (window : Window) (request : Request) : Outcome where
  time := request.time
  opened := decide (width ≤ request.time - window.start)
  granted := grants limit width window request

def outcomes : Window → List Request → List Outcome
  | _, [] => []
  | window, request :: rest =>
      outcome limit width window request :: outcomes (next limit width window request) rest

def last : Window → List Request → Window := List.foldl (next limit width)

end

/-- How many are granted. -/
def granted (results : List Outcome) : Nat := results.countP Outcome.granted

/-- How many are granted in the interval from the first instant to the second. -/
def grantedWithin (first second : Nat) (results : List Outcome) : Nat :=
  results.countP fun result => result.granted && decide (first ≤ result.time ∧ result.time ≤ second)

variable {limit width : Nat} {window : Window} {request : Request} {requests : List Request}

theorem outcomes_append (window : Window) (before after : List Request) :
    outcomes limit width window (before ++ after) =
      outcomes limit width window before ++
        outcomes limit width (last limit width window before) after := by
  induction before generalizing window with
  | nil => rfl
  | cons request rest ih => exact congrArg (_ :: ·) (ih _)

theorem length_outcomes (window : Window) (requests : List Request) :
    (outcomes limit width window requests).length = requests.length := by
  induction requests generalizing window with
  | nil => rfl
  | cons request rest ih => exact congrArg Nat.succ (ih _)

theorem renew_unopened (still : (outcome limit width window request).opened = false) :
    renew width window request.time = window := if_neg (of_decide_eq_false still)

/-! ## One window -/

section

variable (limit width)

theorem next_count (window : Window) (request : Request) :
    (next limit width window request).count =
      (renew width window request.time).count + (grants limit width window request).toNat := by
  unfold next
  split
  · rename_i granted
    rw [granted]
    rfl
  · rename_i refused
    rw [eq_false_of_ne_true refused]
    rfl

theorem renew_count_le (fits : window.count ≤ limit) (time : Nat) :
    (renew width window time).count ≤ limit := by
  unfold renew
  split
  · exact Nat.zero_le limit
  · exact fits

theorem next_count_le (fits : window.count ≤ limit) (request : Request) :
    (next limit width window request).count ≤ limit := by
  have before := renew_count_le limit width fits request.time
  rw [next_count]
  cases given : grants limit width window request with
  | false => exact before
  | true => exact of_decide_eq_true (Bool.and_eq_true_iff.mp given).2

theorem last_count_le (fits : window.count ≤ limit) (requests : List Request) :
    (last limit width window requests).count ≤ limit := by
  induction requests generalizing window with
  | nil => exact fits
  | cons request rest ih => exact ih (next_count_le limit width fits request)

end

/-- While no window opens, the counter counts the grants. -/
theorem count_unopened
    (still : ∀ result ∈ outcomes limit width window requests, result.opened = false) :
    granted (outcomes limit width window requests) + window.count =
      (last limit width window requests).count := by
  induction requests generalizing window with
  | nil => exact Nat.zero_add _
  | cons request rest ih =>
      have head := renew_unopened (still _ List.mem_cons_self)
      have tail := ih fun result member => still result (List.mem_cons_of_mem _ member)
      have step := next_count limit width window request
      rw [head] at step
      show granted (_ :: _) + window.count = (last limit width (next limit width window request)
        rest).count
      rw [← tail, step, granted, List.countP_cons]
      show _ + (if grants limit width window request = true then 1 else 0) + _ = _
      cases grants limit width window request with
      | false => rfl
      | true =>
          show _ + 1 + window.count = granted _ + (window.count + 1)
          rw [granted]
          omega

/-- From one opening to the next there are no more grants than the limit. -/
theorem granted_window (fits : window.count ≤ limit)
    (still : ∀ result ∈ (outcomes limit width window requests).tail, result.opened = false) :
    granted (outcomes limit width window requests) ≤ limit := by
  cases requests with
  | nil => exact Nat.zero_le limit
  | cons request rest =>
      have step := next_count limit width window request
      have tail := count_unopened still
      have bound := last_count_le limit width (next_count_le limit width fits request) rest
      show granted (_ :: _) ≤ limit
      rw [granted, List.countP_cons]
      show granted _ + (if grants limit width window request = true then 1 else 0) ≤ limit
      cases given : grants limit width window request with
      | false =>
          show granted _ + 0 ≤ limit
          omega
      | true =>
          rw [given, Bool.toNat_true] at step
          show granted _ + 1 ≤ limit
          omega

/-! ## Any interval -/

/-- What may still be granted until an instant. -/
def allowance (limit width : Nat) (window : Window) (until_ : Nat) : Nat :=
  limit - window.count + limit * ((until_ - window.start) / width)

theorem allowance_renew (positive : 0 < width) (window : Window) {time until_ : Nat}
    (inside : time ≤ until_) :
    allowance limit width (renew width window time) until_ ≤
      allowance limit width window until_ := by
  unfold renew
  split
  · rename_i opens
    have windows : (until_ - time) / width + 1 ≤ (until_ - window.start) / width := by
      rw [← Nat.add_div_right _ positive]
      exact Nat.div_le_div_right (by omega)
    calc limit - 0 + limit * ((until_ - time) / width)
        = limit * ((until_ - time) / width + 1) := by rw [Nat.mul_succ, Nat.sub_zero, Nat.add_comm]
      _ ≤ limit * ((until_ - window.start) / width) := Nat.mul_le_mul_left limit windows
      _ ≤ allowance limit width window until_ := Nat.le_add_left ..
  · exact Nat.le_refl _

theorem allowance_next (window : Window) (request : Request) (until_ : Nat) :
    (grants limit width window request).toNat +
        allowance limit width (next limit width window request) until_ =
      allowance limit width (renew width window request.time) until_ := by
  unfold next
  cases given : grants limit width window request with
  | false => exact Nat.zero_add _
  | true =>
      have room : (renew width window request.time).count < limit :=
        of_decide_eq_true (Bool.and_eq_true_iff.mp given).2
      have used : 1 + (limit - ((renew width window request.time).count + 1)) =
          limit - (renew width window request.time).count := by omega
      exact (Nat.add_assoc ..).symm.trans (congrArg (· + _) used)

/-- A request that comes too late for the interval is not counted in it. -/
theorem grantedWithin_late {first second : Nat} {results : List Outcome}
    (late : ∀ result ∈ results, second < result.time) :
    grantedWithin first second results = 0 := by
  refine List.countP_eq_zero.mpr fun result member counted => ?_
  have inside := of_decide_eq_true (Bool.and_eq_true_iff.mp counted).2
  exact absurd inside.2 (Nat.not_le.mpr (late result member))

theorem mem_outcomes {result : Outcome} (member : result ∈ outcomes limit width window requests) :
    ∃ request ∈ requests, request.time = result.time := by
  induction requests generalizing window with
  | nil => cases member
  | cons request rest ih =>
      rcases List.mem_cons.mp member with rfl | later
      · exact ⟨request, List.mem_cons_self, rfl⟩
      · obtain ⟨found, inside, same⟩ := ih later
        exact ⟨found, List.mem_cons_of_mem _ inside, same⟩

theorem grantedWithin_cons (first second : Nat) (window : Window) (request : Request)
    (rest : List Request) :
    grantedWithin first second (outcomes limit width window (request :: rest)) ≤
      (grants limit width window request).toNat +
        grantedWithin first second
          (outcomes limit width (next limit width window request) rest) := by
  show grantedWithin first second (_ :: _) ≤ _
  rw [grantedWithin, List.countP_cons, Nat.add_comm]
  refine Nat.add_le_add_right ?_ _
  show (if (grants limit width window request && _) = true then 1 else 0) ≤ _
  cases grants limit width window request with
  | false => exact Nat.le_refl 0
  | true => split <;> decide

theorem granted_cons {first second : Nat} {rest : List Request}
    (tail : grantedWithin first second
        (outcomes limit width (next limit width window request) rest) ≤
      allowance limit width (next limit width window request) second) :
    grantedWithin first second (outcomes limit width window (request :: rest)) ≤
      allowance limit width (renew width window request.time) second :=
  calc grantedWithin first second (outcomes limit width window (request :: rest))
      ≤ (grants limit width window request).toNat + grantedWithin first second
          (outcomes limit width (next limit width window request) rest) := grantedWithin_cons ..
    _ ≤ (grants limit width window request).toNat +
          allowance limit width (next limit width window request) second :=
        Nat.add_le_add_left tail _
    _ = allowance limit width (renew width window request.time) second := allowance_next ..

theorem grantedWithin_beyond {first second : Nat} {rest : List Request}
    (ordered : (request :: rest).Pairwise fun one other => one.time ≤ other.time)
    (beyond : second < request.time) :
    grantedWithin first second (outcomes limit width window (request :: rest)) = 0 := by
  refine grantedWithin_late fun result member => ?_
  obtain ⟨found, among, same⟩ := mem_outcomes member
  rw [← same]
  rcases List.mem_cons.mp among with rfl | among
  · exact beyond
  · exact Nat.lt_of_lt_of_le beyond ((List.pairwise_cons.mp ordered).1 found among)

theorem granted_until (positive : 0 < width) {first second : Nat} (window : Window)
    (ordered : requests.Pairwise fun one other => one.time ≤ other.time) :
    grantedWithin first second (outcomes limit width window requests) ≤
      allowance limit width window second := by
  induction requests generalizing window with
  | nil => exact Nat.zero_le _
  | cons request rest ih =>
      by_cases inside : request.time ≤ second
      · exact Nat.le_trans (granted_cons (ih _ (List.pairwise_cons.mp ordered).2))
          (allowance_renew positive window inside)
      · rw [grantedWithin_beyond ordered (Nat.not_le.mp inside)]
        exact Nat.zero_le _

/-- The window that a request in the interval finds. -/
theorem allowance_interval (positive : 0 < width) {first time : Nat} (duration : Nat)
    (window : Window) (inside : first ≤ time) :
    allowance limit width (renew width window time) (first + duration) ≤
      limit * (duration / width + 2) := by
  unfold renew
  split
  · have windows : (first + duration - time) / width ≤ duration / width :=
      Nat.div_le_div_right (by omega)
    calc limit - 0 + limit * ((first + duration - time) / width)
        = limit * ((first + duration - time) / width + 1) := by
          rw [Nat.mul_succ, Nat.sub_zero, Nat.add_comm]
      _ ≤ limit * (duration / width + 2) := Nat.mul_le_mul_left limit (by omega)
  · have windows : (first + duration - window.start) / width ≤ duration / width + 1 := by
      rw [← Nat.add_div_right _ positive]
      exact Nat.div_le_div_right (by omega)
    calc limit - window.count + limit * ((first + duration - window.start) / width)
        ≤ limit + limit * ((first + duration - window.start) / width) :=
          Nat.add_le_add_right (Nat.sub_le ..) _
      _ = limit * ((first + duration - window.start) / width + 1) := by
          rw [Nat.mul_succ, Nat.add_comm]
      _ ≤ limit * (duration / width + 2) := Nat.mul_le_mul_left limit (by omega)

/-- An interval meets one window more than open in it. -/
theorem granted_interval (positive : 0 < width) (first duration : Nat) (window : Window)
    (ordered : requests.Pairwise fun one other => one.time ≤ other.time) :
    grantedWithin first (first + duration) (outcomes limit width window requests) ≤
      limit * (duration / width + 2) := by
  induction requests generalizing window with
  | nil => exact Nat.zero_le _
  | cons request rest ih =>
      have later := (List.pairwise_cons.mp ordered).2
      by_cases early : request.time < first
      · have skipped : grantedWithin first (first + duration)
            (outcomes limit width window (request :: rest)) =
              grantedWithin first (first + duration)
                (outcomes limit width (next limit width window request) rest) := by
          refine List.countP_cons_of_neg ?_
          rw [Bool.and_eq_true, decide_eq_true_eq]
          exact fun counted => absurd counted.2.1 (Nat.not_le.mpr early)
        rw [skipped]
        exact ih _ later
      · by_cases inside : request.time ≤ first + duration
        · exact Nat.le_trans (granted_cons (granted_until positive _ later))
            (allowance_interval positive duration window (Nat.not_lt.mp early))
        · rw [grantedWithin_beyond ordered (Nat.not_le.mp inside)]
          exact Nat.zero_le _

/-! ## A request that is refused -/

theorem granted_append (first second : List Outcome) :
    granted (first ++ second) = granted first + granted second := List.countP_append

theorem granted_singleton (window : Window) (request : Request) :
    granted (outcomes limit width window [request]) =
      (grants limit width window request).toNat := by
  show granted [outcome limit width window request] = _
  rw [granted, List.countP_singleton]
  show (if grants limit width window request = true then 1 else 0) = _
  cases grants limit width window request with
  | false => rfl
  | true => rfl

/-- The counter counts the grants since the last opening, or since the beginning. -/
theorem count_since (fresh : window.count = 0) (requests : List Request) :
    ∃ earlier since, requests = earlier ++ since ∧
      (∀ result ∈ (outcomes limit width (last limit width window earlier) since).tail,
        result.opened = false) ∧
      granted (outcomes limit width (last limit width window earlier) since) =
        (last limit width window requests).count := by
  induction requests using List.reverseRecOn with
  | nil => exact ⟨[], [], rfl, nofun, fresh.symm⟩
  | append_singleton requests request ih =>
      have final : last limit width window (requests ++ [request]) =
          next limit width (last limit width window requests) request := List.foldl_concat ..
      rw [final, next_count]
      by_cases opens : width ≤ request.time - (last limit width window requests).start
      · refine ⟨requests, [request], rfl, nofun, ?_⟩
        rw [granted_singleton, renew, if_pos opens, Nat.zero_add]
      · obtain ⟨earlier, since, rfl, still, counted⟩ := ih
        have joined : last limit width (last limit width window earlier) since =
            last limit width window (earlier ++ since) := List.foldl_append.symm
        refine ⟨earlier, since ++ [request], List.append_assoc .., ?_, ?_⟩
        · rw [outcomes_append, joined]
          intro result member
          cases opening : outcomes limit width (last limit width window earlier) since with
          | nil =>
              rw [opening] at member
              cases member
          | cons head tail =>
              rw [opening] at member still
              rcases List.mem_append.mp member with before | last_
              · exact still result before
              · obtain rfl := List.mem_singleton.mp last_
                exact decide_eq_false opens
        · rw [outcomes_append, granted_append, joined, counted, granted_singleton, renew,
            if_neg opens]

/-- A request that asks is refused only when the limit has been granted since the window has
opened. -/
theorem refused_exhausted (positive : 0 < limit) (fresh : window.count = 0)
    (asks : request.asks = true)
    (refused : grants limit width (last limit width window requests) request = false) :
    (outcome limit width (last limit width window requests) request).opened = false ∧
      ∃ earlier since, requests = earlier ++ since ∧
        (∀ result ∈ (outcomes limit width (last limit width window earlier) since).tail,
          result.opened = false) ∧
        granted (outcomes limit width (last limit width window earlier) since) = limit := by
  have full : ¬ (renew width (last limit width window requests) request.time).count < limit := by
    intro room
    rw [grants, asks, decide_eq_true room] at refused
    cases refused
  have same : ¬ width ≤ request.time - (last limit width window requests).start := by
    intro opens
    rw [renew, if_pos opens] at full
    exact full positive
  have most := last_count_le limit width (fresh ▸ Nat.zero_le limit : window.count ≤ limit)
    requests
  obtain ⟨earlier, since, parts, still, counted⟩ :=
    count_since fresh requests
  rw [renew, if_neg same] at full
  refine ⟨decide_eq_false same, earlier, since, parts, still, ?_⟩
  rw [counted]
  omega

end LinkP2p.Lib.RateWindow
