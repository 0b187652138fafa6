import Mathlib.Data.List.Nodup

/-!
# Lists with keys

A waiting list is filled at its end and emptied by first match, from a place where
only a key is known. When no key occurs twice, the first match is the only one.
-/

namespace LinkP2p.Lib.KeyedList

variable {α κ : Type*} {key : α → κ} {list : List α} {taken : α}

/-- No two elements have the same key. -/
def Single (key : α → κ) (list : List α) : Prop := (list.map key).Nodup

/-- No later element of the list has the key of this one. -/
def Latest (key : α → κ) (list : List α) (taken : α) : Prop :=
  ∃ before after, list = before ++ taken :: after ∧ ∀ later ∈ after, key later ≠ key taken

theorem single_nil : Single key [] := List.nodup_nil

theorem Single.sublist {shorter : List α} (single : Single key list)
    (sub : shorter.Sublist list) : Single key shorter :=
  List.Nodup.sublist (sub.map key) single

theorem single_push_iff {last : α} :
    Single key (list ++ [last]) ↔ Single key list ∧ ∀ other ∈ list, key other ≠ key last := by
  unfold Single
  rw [List.map_append, List.map_singleton, List.nodup_append]
  constructor
  · rintro ⟨single, -, apart⟩
    exact ⟨single, fun other member =>
      apart _ (List.mem_map_of_mem member) _ (List.mem_singleton.mpr rfl)⟩
  · rintro ⟨single, apart⟩
    refine ⟨single, List.nodup_singleton _, ?_⟩
    intro one member two last'
    obtain ⟨other, member', rfl⟩ := List.mem_map.mp member
    rw [List.mem_singleton.mp last']
    exact apart other member'

/-- What stands before and after an element has another key. -/
theorem Single.apart {before after : List α} (single : Single key (before ++ taken :: after)) :
    (∀ other ∈ before, key other ≠ key taken) ∧ ∀ other ∈ after, key other ≠ key taken := by
  unfold Single at single
  rw [List.map_append, List.map_cons, List.nodup_middle, List.nodup_cons, List.mem_append,
    not_or] at single
  obtain ⟨⟨early, late⟩, -⟩ := single
  constructor
  · intro other member same
    exact early (List.mem_map.mpr ⟨other, member, same⟩)
  · intro other member same
    exact late (List.mem_map.mpr ⟨other, member, same⟩)

theorem Single.latest (single : Single key list) (member : taken ∈ list) :
    Latest key list taken := by
  obtain ⟨before, after, rfl⟩ := List.append_of_mem member
  exact ⟨before, after, rfl, single.apart.2⟩

/-- The first match and what its removal leaves. -/
theorem split_of_find? {test : α → Bool} (found : list.find? test = some taken) :
    ∃ before after, list = before ++ taken :: after ∧
      (∀ other ∈ before, test other = false) ∧ list.eraseP test = before ++ after := by
  obtain ⟨passes, before, after, rfl, fails⟩ := List.find?_eq_some_iff_append.mp found
  have fails' : ∀ other ∈ before, test other = false := by
    intro other member
    have failed := fails other member
    rwa [Bool.not_eq_true'] at failed
  refine ⟨before, after, rfl, fails', ?_⟩
  rw [List.eraseP_append_right _ (fun other member => by rw [fails' other member]; simp),
    List.eraseP_cons_of_pos passes]

/-- The removal of the first match leaves no element with its key. -/
theorem Single.gone {test : α → Bool} (single : Single key list)
    (found : list.find? test = some taken) :
    ∀ other ∈ list.eraseP test, key other ≠ key taken := by
  obtain ⟨before, after, rfl, -, erased⟩ := split_of_find? found
  obtain ⟨early, late⟩ := single.apart
  intro other member
  rw [erased, List.mem_append] at member
  rcases member with member | member
  · exact early other member
  · exact late other member

/-- A test that picks one key out of the list removes that key from it. -/
theorem Single.answered {test : α → Bool} {wanted : κ} (single : Single key list)
    (picks : ∀ other ∈ list, test other = true ↔ key other = wanted) :
    ∀ other ∈ list.eraseP test, key other ≠ wanted := by
  cases found : list.find? test with
  | none =>
      have fails := List.find?_eq_none.mp found
      intro other member same
      have member := List.mem_of_mem_eraseP member
      exact fails other member ((picks other member).mpr same)
  | some taken =>
      have wanted : key taken = wanted :=
        (picks taken (List.mem_of_find?_eq_some found)).mp (List.find?_some found)
      intro other member same
      exact single.gone found other member (same.trans wanted.symm)

end LinkP2p.Lib.KeyedList
