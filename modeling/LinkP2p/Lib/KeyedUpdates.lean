import LinkP2p.Lib.HashMap

/-!
# Updates of single keys, in order

A replica applies insertions and removals to its map one after the other. What
it holds under a key in the end is decided by the last update about that key.
-/

namespace LinkP2p.Lib.KeyedUpdates

variable {K V : Type} [DecidableEq K]

inductive Update (K V : Type) where
  | insert (key : K) (value : V)
  | remove (key : K)

def Update.key : Update K V → K
  | .insert key _ => key
  | .remove key => key

def Update.value : Update K V → Option V
  | .insert _ value => some value
  | .remove _ => none

def Update.apply (m : HashMap K V) : Update K V → HashMap K V
  | .insert key value => m.put key value
  | .remove key => m.remove key

/-- What is under the key after the updates, when `now` was there before. -/
def settle (updates : List (Update K V)) (key : K) (now : Option V) : Option V :=
  updates.foldl (fun now update => if update.key = key then update.value else now) now

/-- Some update is about the key. -/
def Mentions (updates : List (Update K V)) (key : K) : Prop :=
  ∃ update ∈ updates, update.key = key

omit [DecidableEq K] in
theorem not_mentions_nil (key : K) : ¬ Mentions ([] : List (Update K V)) key := by
  rintro ⟨_, member, _⟩
  cases member

@[simp]
theorem settle_nil (key : K) (now : Option V) : settle [] key now = now := rfl

theorem settle_cons (update : Update K V) (rest : List (Update K V)) (key : K)
    (now : Option V) :
    settle (update :: rest) key now =
      settle rest key (if update.key = key then update.value else now) := rfl

theorem settle_append (first second : List (Update K V)) (key : K) (now : Option V) :
    settle (first ++ second) key now = settle second key (settle first key now) :=
  List.foldl_append

theorem get_apply (m : HashMap K V) (update : Update K V) (key : K) :
    (update.apply m).get key = if update.key = key then update.value else m.get key := by
  cases update with
  | insert k value =>
      change (m.put k value).get key = if k = key then some value else _
      rw [HashMap.get_put]
      simp only [eq_comm]
  | remove k =>
      change (m.remove k).get key = if k = key then none else _
      rw [HashMap.get_remove]
      simp only [eq_comm]

/-- Applying the first update changes the map and leaves the outcome. -/
theorem settle_apply (m : HashMap K V) (update : Update K V) (rest : List (Update K V))
    (key : K) :
    settle rest key ((update.apply m).get key) = settle (update :: rest) key (m.get key) := by
  rw [settle_cons, get_apply]

omit [DecidableEq K] in
theorem mentions_append {first second : List (Update K V)} {key : K} :
    Mentions (first ++ second) key ↔ Mentions first key ∨ Mentions second key := by
  simp only [Mentions, List.mem_append, or_and_right, exists_or]

theorem settle_of_not_mentions {updates : List (Update K V)} {key : K}
    (silent : ¬ Mentions updates key) (now : Option V) : settle updates key now = now := by
  induction updates generalizing now with
  | nil => rfl
  | cons update rest ih =>
      have other : update.key ≠ key := fun same => silent ⟨update, List.mem_cons_self, same⟩
      rw [settle_cons, if_neg other]
      apply ih
      rintro ⟨later, member, same⟩
      exact silent ⟨later, List.mem_cons_of_mem _ member, same⟩

/-- Once a key is mentioned, what was there before does not matter. -/
theorem settle_of_mentions {updates : List (Update K V)} {key : K}
    (mentioned : Mentions updates key) (now other : Option V) :
    settle updates key now = settle updates key other := by
  induction updates generalizing now other with
  | nil => exact absurd mentioned (not_mentions_nil key)
  | cons update rest ih =>
      rw [settle_cons, settle_cons]
      by_cases same : update.key = key
      · rw [if_pos same, if_pos same]
      · rw [if_neg same, if_neg same]
        obtain ⟨later, member, about⟩ := mentioned
        rcases List.mem_cons.mp member with rfl | inRest
        · exact absurd about same
        · exact ih ⟨later, inRest, about⟩ now other

/-- When all updates about a mentioned key agree, they decide. -/
theorem settle_of_agree {updates : List (Update K V)} {key : K} {value : Option V}
    (mentioned : Mentions updates key)
    (agree : ∀ update ∈ updates, update.key = key → update.value = value) (now : Option V) :
    settle updates key now = value := by
  induction updates generalizing now with
  | nil => exact absurd mentioned (not_mentions_nil key)
  | cons update rest ih =>
      have agreeRest : ∀ later ∈ rest, later.key = key → later.value = value :=
        fun later member => agree later (List.mem_cons_of_mem _ member)
      rw [settle_cons]
      by_cases inRest : Mentions rest key
      · exact ih inRest agreeRest _
      · obtain ⟨later, member, about⟩ := mentioned
        rw [settle_of_not_mentions inRest]
        rcases List.mem_cons.mp member with rfl | member
        · rw [if_pos about]
          exact agree _ List.mem_cons_self about
        · exact absurd ⟨later, member, about⟩ inRest

end LinkP2p.Lib.KeyedUpdates
