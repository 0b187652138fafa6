import Mathlib.Data.List.Basic

/-!
# Streaks and latches over a history

A history is a list with the newest entry first. A streak counts entries since the
last one that breaks it, in a counter that may saturate. A latch is set once
something is true of the history and is reset by some entries.
-/

namespace LinkP2p.Lib.Latch

variable {α : Type*}

/-- The entries that count, since the last that breaks the streak. -/
def streak (counts breaks : α → Bool) (seen : List α) : Nat :=
  (seen.takeWhile fun entry => !breaks entry).countP counts

theorem streak_cons (counts breaks : α → Bool) (entry : α) (seen : List α) :
    streak counts breaks (entry :: seen) =
      if breaks entry then 0
      else if counts entry then streak counts breaks seen + 1 else streak counts breaks seen := by
  unfold streak
  rw [List.takeWhile_cons]
  cases breaks entry with
  | true => rfl
  | false =>
      change List.countP counts (entry :: _) = if counts entry = true then _ else _
      rw [List.countP_cons]
      split
      · rfl
      · rfl

/-- One more, up to the limit. -/
def saturate (limit count : Nat) : Nat := min limit (count + 1)

theorem saturate_min (limit count : Nat) :
    saturate limit (min limit count) = min limit (count + 1) := by
  unfold saturate
  omega

/-- Something was true of the history at a moment since the last reset. -/
def Latched (resets : α → Bool) (triggers : List α → Prop) (seen : List α) : Prop :=
  ∃ later entry rest, seen = later ++ entry :: rest ∧
    (∀ other ∈ later, resets other = false) ∧ resets entry = false ∧ triggers (entry :: rest)

variable {resets : α → Bool} {triggers : List α → Prop} {entry : α} {seen : List α}

theorem not_latched_nil : ¬ Latched resets triggers [] := by
  rintro ⟨later, entry, rest, split, _⟩
  exact absurd split.symm (List.append_ne_nil_of_right_ne_nil _ nofun)

theorem latched_cons : Latched resets triggers (entry :: seen) ↔
    resets entry = false ∧ (triggers (entry :: seen) ∨ Latched resets triggers seen) := by
  constructor
  · rintro ⟨later, first, rest, split, quiet, calm, met⟩
    cases later with
    | nil =>
        cases split
        exact ⟨calm, .inl met⟩
    | cons head tail =>
        cases split
        obtain ⟨here, quiet⟩ := List.forall_mem_cons.mp quiet
        exact ⟨here, .inr ⟨tail, first, rest, rfl, quiet, calm, met⟩⟩
  · rintro ⟨calm, met | ⟨later, first, rest, rfl, quiet, calm', met⟩⟩
    · exact ⟨[], entry, seen, rfl, nofun, calm, met⟩
    · exact ⟨entry :: later, first, rest, rfl, List.forall_mem_cons.mpr ⟨calm, quiet⟩, calm', met⟩

/-- An entry that resets leaves nothing latched. -/
theorem not_latched_of_resets (reset : resets entry = true) :
    ¬ Latched resets triggers (entry :: seen) := by
  intro latched
  cases reset.symm.trans (latched_cons.mp latched).1

end LinkP2p.Lib.Latch
