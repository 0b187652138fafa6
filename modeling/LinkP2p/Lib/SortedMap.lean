import Mathlib.Logic.Basic
import Mathlib.Order.Lattice

/-!
# Maps as sorted lists

A map keeps its entries in the order of their keys, each key once. The first
entry that passes a test is then the one with the least key.
-/

namespace LinkP2p.Lib.SortedMap

variable {K V : Type*} [LinearOrder K]

/-- The keys are in order, and no two are the same. -/
def Sorted (entries : List (K × V)) : Prop := (entries.map Prod.fst).Pairwise (· < ·)

/-- The entry goes to its place, over one with the same key. -/
def insert (key : K) (value : V) : List (K × V) → List (K × V)
  | [] => [(key, value)]
  | entry :: rest =>
      if key < entry.1 then (key, value) :: entry :: rest
      else if key = entry.1 then (key, value) :: rest
      else entry :: insert key value rest

def remove (key : K) (entries : List (K × V)) : List (K × V) :=
  entries.filter fun entry => entry.1 ≠ key

theorem sorted_nil : Sorted ([] : List (K × V)) := List.Pairwise.nil

theorem sorted_cons {entry : K × V} {rest : List (K × V)} :
    Sorted (entry :: rest) ↔ (∀ other ∈ rest, entry.1 < other.1) ∧ Sorted rest := by
  rw [Sorted, List.map_cons, List.pairwise_cons, List.forall_mem_map, Sorted]

theorem mem_of_mem_insert {key : K} {value : V} {entries : List (K × V)} {entry : K × V}
    (member : entry ∈ insert key value entries) : entry = (key, value) ∨ entry ∈ entries := by
  induction entries with
  | nil => exact .inl (List.mem_singleton.mp member)
  | cons first rest ih =>
      rw [insert] at member
      split at member
      · exact List.mem_cons.mp member
      · split at member
        · exact (List.mem_cons.mp member).imp_right (List.mem_cons_of_mem _)
        · rcases List.mem_cons.mp member with same | member
          · exact .inr (List.mem_cons.mpr (.inl same))
          · exact (ih member).imp_right (List.mem_cons_of_mem _)

theorem sorted_insert (key : K) (value : V) {entries : List (K × V)} (sorted : Sorted entries) :
    Sorted (insert key value entries) := by
  induction entries with
  | nil => exact sorted_cons.mpr ⟨nofun, sorted_nil⟩
  | cons first rest ih =>
      obtain ⟨above, tail⟩ := sorted_cons.mp sorted
      rw [insert]
      split
      · rename_i before
        refine sorted_cons.mpr ⟨fun other member => ?_, sorted⟩
        rcases List.mem_cons.mp member with rfl | member
        · exact before
        · exact lt_trans before (above other member)
      · rename_i notBefore
        split
        · rename_i same
          exact sorted_cons.mpr ⟨fun other member => same ▸ above other member, tail⟩
        · rename_i apart
          refine sorted_cons.mpr ⟨fun other member => ?_, ih tail⟩
          rcases mem_of_mem_insert member with rfl | member
          · exact lt_of_le_of_ne (not_lt.mp notBefore) (Ne.symm apart)
          · exact above other member

theorem sorted_remove (key : K) {entries : List (K × V)} (sorted : Sorted entries) :
    Sorted (remove key entries) :=
  sorted.sublist (List.filter_sublist.map Prod.fst)

/-- What is under a key. -/
def get (entries : List (K × V)) (key : K) : Option V :=
  (entries.find? fun entry => entry.1 = key).map Prod.snd

theorem get_cons (entry : K × V) (rest : List (K × V)) (key : K) [Decidable (entry.1 = key)] :
    get (entry :: rest) key = if entry.1 = key then some entry.2 else get rest key := by
  by_cases same : entry.1 = key
  · rw [if_pos same, get, List.find?_cons_of_pos (by simpa using same)]
    rfl
  · rw [if_neg same, get, List.find?_cons_of_neg (by simpa using same)]
    rfl

theorem get_insert (key other : K) [Decidable (key = other)] (value : V)
    (entries : List (K × V)) :
    get (insert key value entries) other =
      if key = other then some value else get entries other := by
  induction entries with
  | nil => exact get_cons (key, value) [] other
  | cons first rest ih =>
      rw [insert]
      split
      · exact get_cons (key, value) _ other
      · split
        · rename_i same
          rw [get_cons, get_cons]
          by_cases this : key = other
          · rw [if_pos this, if_pos this]
          · rw [if_neg this, if_neg this, if_neg (same ▸ this)]
        · rename_i apart
          rw [get_cons, get_cons, ih]
          by_cases this : first.1 = other
          · rw [if_pos this, if_pos this, if_neg (fun same => apart (same.trans this.symm))]
          · rw [if_neg this, if_neg this]

theorem get_remove (key other : K) [Decidable (key = other)] (entries : List (K × V)) :
    get (remove key entries) other = if key = other then none else get entries other := by
  induction entries with
  | nil => exact (ite_self none).symm
  | cons first rest ih =>
      rw [remove, List.filter_cons]
      by_cases gone : first.1 = key
      · rw [if_neg (by simpa using gone), get_cons]
        change get (remove key rest) other = _
        rw [ih]
        by_cases this : key = other
        · rw [if_pos this, if_pos this]
        · rw [if_neg this, if_neg this, if_neg (gone ▸ this)]
      · rw [if_pos (by simpa using gone), get_cons, get_cons]
        change (if first.1 = other then _ else get (remove key rest) other) = _
        rw [ih]
        by_cases this : first.1 = other
        · rw [if_pos this, if_pos this, if_neg fun same => gone (this.trans same.symm)]
        · rw [if_neg this, if_neg this]

/-- An entry of the map is what is under its key. -/
theorem get_eq_some_iff {entries : List (K × V)} (sorted : Sorted entries) {key : K} {value : V} :
    get entries key = some value ↔ (key, value) ∈ entries := by
  induction entries with
  | nil => exact ⟨nofun, nofun⟩
  | cons first rest ih =>
      obtain ⟨above, tail⟩ := sorted_cons.mp sorted
      rw [get_cons, List.mem_cons]
      by_cases this : first.1 = key
      · subst this
        rw [if_pos rfl, Option.some.injEq]
        constructor
        · rintro rfl
          exact .inl rfl
        · rintro (same | member)
          · rw [← same]
          · exact absurd (above _ member) (lt_irrefl _)
      · rw [if_neg this, ih tail]
        refine ⟨.inr, fun either => either.resolve_left fun same => this ?_⟩
        rw [← same]

/-- The first entry that passes has the least key of those that pass. -/
theorem find?_eq_some_iff {entries : List (K × V)} (sorted : Sorted entries)
    {test : K × V → Bool} {entry : K × V} :
    entries.find? test = some entry ↔ entry ∈ entries ∧ test entry = true ∧
      ∀ other ∈ entries, test other = true → entry.1 ≤ other.1 := by
  induction entries with
  | nil => exact ⟨nofun, nofun⟩
  | cons first rest ih =>
      obtain ⟨above, tail⟩ := sorted_cons.mp sorted
      rw [List.find?_cons]
      cases passes : test first with
      | true =>
          rw [Option.some.injEq]
          constructor
          · rintro rfl
            refine ⟨List.mem_cons_self, passes, fun other member _ => ?_⟩
            rcases List.mem_cons.mp member with rfl | member
            · exact le_refl _
            · exact le_of_lt (above other member)
          · rintro ⟨member, _, least⟩
            rcases List.mem_cons.mp member with same | member
            · exact same.symm
            · exact absurd (least first List.mem_cons_self passes) (not_le.mpr (above _ member))
      | false =>
          rw [ih tail]
          constructor
          · rintro ⟨member, passed, least⟩
            refine ⟨List.mem_cons_of_mem _ member, passed, fun other among ok => ?_⟩
            rcases List.mem_cons.mp among with rfl | among
            · cases passes.symm.trans ok
            · exact least other among ok
          · rintro ⟨member, passed, least⟩
            rcases List.mem_cons.mp member with rfl | member
            · cases passes.symm.trans passed
            · exact ⟨member, passed, fun other among =>
                least other (List.mem_cons_of_mem _ among)⟩

end LinkP2p.Lib.SortedMap
