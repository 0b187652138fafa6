import Mathlib.Data.Finmap
import Mathlib.Data.Multiset.Count

/-!
# Hash maps

A hash map is a finite map without an observable order. Iterating over it gives
its values in some order, so the values are a multiset.
-/

namespace LinkP2p.Lib

/-- A finite map from keys to values. -/
abbrev HashMap (K V : Type*) := Finmap fun _ : K => V

namespace HashMap

variable {K V : Type*} [DecidableEq K]

def get (m : HashMap K V) (key : K) : Option V := Finmap.lookup key m

def put (m : HashMap K V) (key : K) (value : V) : HashMap K V := Finmap.insert key value m

def remove (m : HashMap K V) (key : K) : HashMap K V := Finmap.erase key m

def containsKey (m : HashMap K V) (key : K) : Bool := (m.get key).isSome

/-- The values, in no particular order. -/
def values {K V : Type*} (m : HashMap K V) : Multiset V := m.entries.map Sigma.snd

@[simp]
theorem get_empty (key : K) : get (∅ : HashMap K V) key = none := Finmap.lookup_empty key

@[simp]
theorem get_put_self (m : HashMap K V) (key : K) (value : V) :
    (m.put key value).get key = some value :=
  Finmap.lookup_insert m

theorem get_put_of_ne {key other : K} (distinct : other ≠ key) (m : HashMap K V) (value : V) :
    (m.put key value).get other = m.get other :=
  Finmap.lookup_insert_of_ne m distinct

@[simp]
theorem get_remove_self (m : HashMap K V) (key : K) : (m.remove key).get key = none :=
  Finmap.lookup_erase key m

theorem get_remove_of_ne {key other : K} (distinct : other ≠ key) (m : HashMap K V) :
    (m.remove key).get other = m.get other :=
  Finmap.lookup_erase_ne distinct

theorem get_put (m : HashMap K V) (key other : K) (value : V) :
    (m.put key value).get other = if other = key then some value else m.get other := by
  by_cases same : other = key
  · rw [if_pos same, same, get_put_self]
  · rw [if_neg same, get_put_of_ne same]

theorem get_remove (m : HashMap K V) (key other : K) :
    (m.remove key).get other = if other = key then none else m.get other := by
  by_cases same : other = key
  · rw [if_pos same, same, get_remove_self]
  · rw [if_neg same, get_remove_of_ne same]

/-- A key that a removal leaves present was present before with the same value. -/
theorem get_of_get_remove {m : HashMap K V} {key other : K} {value : V}
    (found : (m.remove key).get other = some value) :
    other ≠ key ∧ m.get other = some value := by
  rw [get_remove] at found
  split at found
  · cases found
  · exact ⟨‹_›, found⟩

/-- What an insertion leaves under a key is the new value or the old one. -/
theorem get_of_get_put {m : HashMap K V} {key other : K} {value found : V}
    (present : (m.put key value).get other = some found) :
    (other = key ∧ found = value) ∨ (other ≠ key ∧ m.get other = some found) := by
  rw [get_put] at present
  split at present
  · exact Or.inl ⟨‹_›, (Option.some.inj present).symm⟩
  · exact Or.inr ⟨‹_›, present⟩

theorem ext_get {m m' : HashMap K V} (same : ∀ key, m.get key = m'.get key) : m = m' :=
  Finmap.ext_lookup same

theorem ext_get_iff {m m' : HashMap K V} : m = m' ↔ ∀ key, m.get key = m'.get key :=
  ⟨fun same _ => same ▸ rfl, ext_get⟩

/-- Insertions under one key hide what was there and nothing else. -/
theorem put_inj_iff {m m' : HashMap K V} {key : K} {value : V} :
    m.put key value = m'.put key value ↔ ∀ other, other ≠ key → m.get other = m'.get other := by
  constructor
  · intro same other distinct
    rw [← get_put_of_ne distinct m value, same, get_put_of_ne distinct]
  · intro agree
    apply ext_get
    intro other
    rw [get_put, get_put]
    split
    · rfl
    · exact agree other ‹_›

theorem remove_inj_iff {m m' : HashMap K V} {key : K} :
    m.remove key = m'.remove key ↔ ∀ other, other ≠ key → m.get other = m'.get other := by
  constructor
  · intro same other distinct
    rw [← get_remove_of_ne distinct m, same, get_remove_of_ne distinct]
  · intro agree
    apply ext_get
    intro other
    rw [get_remove, get_remove]
    split
    · rfl
    · exact agree other ‹_›

theorem mem_values {m : HashMap K V} {value : V} :
    value ∈ m.values ↔ ∃ key, m.get key = some value := by
  induction m using Finmap.induction_on with
  | H list =>
      change value ∈ (list.entries.map Sigma.snd : Multiset V) ↔ _
      rw [Multiset.mem_coe, List.mem_map]
      constructor
      · rintro ⟨⟨key, stored⟩, member, rfl⟩
        exact ⟨key, AList.mem_lookup_iff.mpr member⟩
      · rintro ⟨key, found⟩
        exact ⟨⟨key, value⟩, AList.mem_lookup_iff.mp found, rfl⟩

theorem values_put {m : HashMap K V} {key : K} (absent : m.get key = none) (value : V) :
    (m.put key value).values = value ::ₘ m.values := by
  have fresh : key ∉ m := Finmap.lookup_eq_none.mp absent
  change (Finmap.insert key value m).entries.map Sigma.snd = _
  rw [Finmap.entries_insert_of_notMem fresh, Multiset.map_cons]
  rfl

/-- A value that occurs once has one key. -/
theorem key_unique {m : HashMap K V} (once : m.values.Nodup) {key other : K} {value : V}
    (found : m.get key = some value) (again : m.get other = some value) : key = other := by
  by_contra distinct
  have split : m = (m.remove key).put key value := by
    apply ext_get
    intro k
    rw [get_put, get_remove]
    split
    · rename_i same
      rw [same, found]
    · rfl
  rw [split, values_put (get_remove_self m key), Multiset.nodup_cons] at once
  refine once.1 (mem_values.mpr ⟨other, ?_⟩)
  rw [get_remove_of_ne (Ne.symm distinct), again]

/-- `values().any(test)` -/
def anyValue {K V : Type*} (m : HashMap K V) (test : V → Bool) : Bool :=
  decide (0 < m.values.countP fun value => test value = true)

theorem anyValue_eq_true {m : HashMap K V} {test : V → Bool} :
    m.anyValue test = true ↔ ∃ key value, m.get key = some value ∧ test value = true := by
  rw [anyValue, decide_eq_true_iff, Multiset.countP_pos]
  constructor
  · rintro ⟨value, member, passed⟩
    obtain ⟨key, found⟩ := mem_values.mp member
    exact ⟨key, value, found, passed⟩
  · rintro ⟨key, value, found, passed⟩
    exact ⟨value, mem_values.mpr ⟨key, found⟩, passed⟩

end HashMap

end LinkP2p.Lib
