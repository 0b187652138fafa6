import Mathlib.Data.List.Sort
import Mathlib.Data.List.Perm.Basic

/-!
# Sorting by a key

Rows that carry their place and are sorted by a key and then by the place come out
the same in whatever order they have arrived: as the list sorted by the key, with
ties as they were.
-/

namespace LinkP2p.Lib.StableSort

variable {α K L : Type*} [LinearOrder K] [LinearOrder L]

/-- By the key, with ties as they are. -/
def sortBy (key : α → K) (items : List α) : List α := items.insertionSort fun a b => key a ≤ key b

/-- By the key, and then by the place. -/
def Before (key : α → K) (a b : α × Nat) : Prop :=
  key a.1 < key b.1 ∨ key a.1 = key b.1 ∧ a.2 ≤ b.2

instance (key : α → K) : DecidableRel (Before key) := fun _ _ => instDecidableOr

/-- The order of rows that carry their place. -/
def sortRows (key : α → K) (rows : List (α × Nat)) : List (α × Nat) :=
  rows.insertionSort (Before key)

section Before

variable {key : α → K}

instance : Std.Total (Before key) where
  total a b := by
    rcases lt_trichotomy (key a.1) (key b.1) with less | same | more
    · exact .inl (.inl less)
    · rcases Nat.le_total a.2 b.2 with early | late
      · exact .inl (.inr ⟨same, early⟩)
      · exact .inr (.inr ⟨same.symm, late⟩)
    · exact .inr (.inl more)

instance : IsTrans (α × Nat) (Before key) where
  trans a b c first second := by
    rcases first with less | ⟨same, early⟩
    · rcases second with less' | ⟨same', _⟩
      · exact .inl (lt_trans less less')
      · exact .inl (same' ▸ less)
    · rcases second with less' | ⟨same', early'⟩
      · exact .inl (same ▸ less')
      · exact .inr ⟨same.trans same', Nat.le_trans early early'⟩

/-- Two rows of one list that come before each other are one. -/
theorem eq_of_before {items : List α} {n : Nat} {a b : α × Nat} (here : a ∈ items.zipIdx n)
    (there : b ∈ items.zipIdx n) (first : Before key a b) (second : Before key b a) : a = b := by
  have place : a.2 = b.2 := by
    rcases first with less | ⟨_, early⟩
    · rcases second with more | ⟨same, _⟩
      · exact absurd less (lt_asymm more)
      · exact absurd same.symm (ne_of_lt less)
    · rcases second with more | ⟨_, late⟩
      · rename_i same
        exact absurd more (lt_irrefl _ ∘ fun less => same ▸ less)
      · exact Nat.le_antisymm early late
  obtain ⟨x, i⟩ := a
  obtain ⟨y, j⟩ := b
  cases place
  have first := (List.mk_mem_zipIdx_iff_le_and_getElem?_sub.mp here).2
  have second := (List.mk_mem_zipIdx_iff_le_and_getElem?_sub.mp there).2
  cases first.symm.trans second
  rfl

end Before

variable (key : α → K)

theorem sortBy_cons (item : α) (items : List α) :
    sortBy key (item :: items) =
      (sortBy key items).orderedInsert (fun a b => key a ≤ key b) item := rfl

theorem perm_sortBy (items : List α) : (sortBy key items).Perm items :=
  List.perm_insertionSort _ items

theorem mem_sortBy {item : α} {items : List α} : item ∈ sortBy key items ↔ item ∈ items :=
  List.mem_insertionSort _

theorem sortBy_map {β : Type*} (f : β → α) (items : List β) :
    sortBy key (items.map f) = (sortBy (key ∘ f) items).map f :=
  (List.map_insertionSort (r := fun a b => (key ∘ f) a ≤ (key ∘ f) b)
    (s := fun a b => key a ≤ key b) f items fun _ _ _ _ => Iff.rfl).symm

theorem insert_congr {first second : α → α → Prop} [DecidableRel first] [DecidableRel second]
    (item : α) {items : List α} (agree : ∀ b ∈ items, first item b ↔ second item b) :
    items.orderedInsert first item = items.orderedInsert second item := by
  induction items with
  | nil => rfl
  | cons b rest ih =>
      obtain ⟨here, later⟩ := List.forall_mem_cons.mp agree
      rw [List.orderedInsert_cons, List.orderedInsert_cons, ih later]
      exact if_congr here rfl rfl

/-- A row goes where its item goes, if all other rows have later places. -/
theorem map_insertRow (item : α) (n : Nat) {rows : List (α × Nat)}
    (later : ∀ row ∈ rows, n ≤ row.2) :
    (rows.orderedInsert (Before key) (item, n)).map Prod.fst =
      (rows.map Prod.fst).orderedInsert (fun a b => key a ≤ key b) item := by
  induction rows with
  | nil => rfl
  | cons row rest ih =>
      obtain ⟨place, later⟩ := List.forall_mem_cons.mp later
      have agree : Before key (item, n) row ↔ key item ≤ key row.1 := by
        constructor
        · rintro (less | ⟨same, _⟩)
          · exact le_of_lt less
          · exact le_of_eq same
        · intro le
          rcases lt_or_eq_of_le le with less | same
          · exact .inl less
          · exact .inr ⟨same, place⟩
      rw [List.orderedInsert_cons, List.map_cons, List.orderedInsert_cons]
      by_cases first : key item ≤ key row.1
      · rw [if_pos first, if_pos (agree.mpr first)]
        rfl
      · rw [if_neg first, if_neg (first ∘ agree.mp), List.map_cons, ih later]

theorem map_sortRows_zipIdx (items : List α) (n : Nat) :
    (sortRows key (items.zipIdx n)).map Prod.fst = sortBy key items := by
  induction items generalizing n with
  | nil => rfl
  | cons item rest ih =>
      have later : ∀ row ∈ sortRows key (rest.zipIdx (n + 1)), n ≤ row.2 := by
        intro row member
        have above := (List.mem_zipIdx_iff_le_and_getElem?_sub.mp
          ((List.mem_insertionSort _).mp member)).1
        omega
      rw [List.zipIdx_cons, sortBy_cons, ← ih (n + 1)]
      exact map_insertRow key item n later

/-- Rows come out in one order, in whatever order they have arrived. -/
theorem sortRows_arrived {rows : List (α × Nat)} {items : List α}
    (arrived : rows.Perm items.zipIdx) :
    (sortRows key rows).map Prod.fst = sortBy key items := by
  have same : sortRows key rows = sortRows key items.zipIdx := by
    refine List.Perm.eq_of_pairwise (fun a b here there first second => ?_)
      (List.pairwise_insertionSort (Before key) rows)
      (List.pairwise_insertionSort (Before key) _) ?_
    · have placed : a ∈ items.zipIdx := arrived.mem_iff.mp ((List.mem_insertionSort _).mp here)
      have placed' : b ∈ items.zipIdx := (List.mem_insertionSort _).mp there
      exact eq_of_before placed placed' first second
    · exact (List.perm_insertionSort _ _).trans (arrived.trans (List.perm_insertionSort _ _).symm)
  rw [same, map_sortRows_zipIdx]

/-! ## A coarser key -/

/-- A key that merges values of another one sorts to the same order exactly if the
items that it merges are in order already. -/
theorem sortBy_coarser_iff {fine : α → K} {coarse : α → L} {items : List α}
    (mono : ∀ a ∈ items, ∀ b ∈ items, fine a ≤ fine b → coarse a ≤ coarse b) :
    sortBy coarse items = sortBy fine items ↔
      items.Pairwise fun a b => coarse a = coarse b → fine a ≤ fine b := by
  constructor
  · intro same
    rw [List.pairwise_iff_forall_sublist]
    intro a b listed merged
    have kept : [a, b].Sublist (sortBy coarse items) :=
      List.pair_sublist_insertionSort (le_of_eq merged) listed
    rw [same] at kept
    have sorted : (sortBy fine items).Pairwise fun a b => fine a ≤ fine b :=
      List.pairwise_insertionSort _ items
    exact List.pairwise_iff_forall_sublist.mp sorted kept
  · intro ordered
    induction items with
    | nil => rfl
    | cons item rest ih =>
        obtain ⟨first, ordered⟩ := List.pairwise_cons.mp ordered
        have tail := ih (fun a here b there => mono a (List.mem_cons_of_mem _ here) b
          (List.mem_cons_of_mem _ there)) ordered
        rw [sortBy_cons, sortBy_cons, tail]
        have agree : ∀ b ∈ sortBy fine rest, coarse item ≤ coarse b ↔ fine item ≤ fine b := by
          intro b among
          have inside := (mem_sortBy fine).mp among
          refine ⟨fun le => ?_, mono item List.mem_cons_self b (List.mem_cons_of_mem _ inside)⟩
          rcases lt_or_eq_of_le le with less | merged
          · by_contra more
            have back := mono b (List.mem_cons_of_mem _ inside) item List.mem_cons_self
              (le_of_lt (not_le.mp more))
            exact absurd less (not_lt.mpr back)
          · exact first b inside merged
        exact insert_congr item agree

end LinkP2p.Lib.StableSort
