import LinkP2p.Lib.Bytes
import Mathlib.Data.List.Induction
import Mathlib.Data.Nat.ModEq
import Mathlib.Tactic.Ring

/-!
# Sums with an end-around carry

A checksum adds the words of a message and folds what does not fit into a word back into
it. The result is the sum modulo one less than the base, where zero stands only for a sum
of zero. A message that carries the complement of its sum adds up to all ones.
-/

namespace LinkP2p.Lib.Checksum

/-! ## Folding -/

/-- The word that a sum is folded to. -/
structure Folds (base sum word : Nat) : Prop where
  lt : word < base
  congr : word ≡ sum [MOD base - 1]
  zero_iff : word = 0 ↔ sum = 0

theorem Folds.small {base sum : Nat} (small : sum < base) : Folds base sum sum :=
  ⟨small, rfl, Iff.rfl⟩

/-- What stands above the last word is added to it. -/
theorem Folds.carry {base sum word : Nat} (big : 1 < base)
    (folds : Folds base (sum % base + sum / base) word) : Folds base sum word where
  lt := folds.lt
  congr := by
    obtain ⟨less, rfl⟩ : ∃ less, base = less + 1 := Nat.exists_eq_add_one.mpr (by omega)
    refine folds.congr.trans ?_
    have split : sum = (sum % (less + 1) + sum / (less + 1)) + less * (sum / (less + 1)) := by
      calc sum = sum % (less + 1) + (less + 1) * (sum / (less + 1)) := (Nat.mod_add_div _ _).symm
        _ = _ := by ring
    rw [Nat.add_sub_cancel]
    conv => rhs; rw [split]
    exact (Nat.modEq_zero_iff_dvd.mpr (Nat.dvd_mul_right _ _)).symm.add_left _
  zero_iff := by
    rw [folds.zero_iff]
    constructor
    · intro both
      obtain ⟨low, high⟩ := Nat.add_eq_zero_iff.mp both
      rw [← Nat.mod_add_div sum base, low, high, Nat.mul_zero]
    · rintro rfl
      rw [Nat.zero_mod, Nat.zero_div]

/-- A carry makes a sum smaller that does not fit. -/
theorem carry_lt {base sum : Nat} (big : 1 < base) (large : base ≤ sum) :
    sum % base + sum / base < sum := by
  have above : 0 < sum / base := Nat.div_pos large (by omega)
  calc sum % base + sum / base
      < sum % base + base * (sum / base) := by
        refine Nat.add_lt_add_left ?_ _
        exact (Nat.lt_mul_iff_one_lt_left above).mpr big
    _ = sum := Nat.mod_add_div sum base

/-- With the complement of its word a sum is folded to all ones. -/
theorem Folds.complement {base sum word other : Nat} (folds : Folds base sum word)
    (again : Folds base (sum + (base - 1 - word)) other) : other = base - 1 := by
  have bound := folds.lt
  have bound' := again.lt
  have whole : sum + (base - 1 - word) ≡ 0 [MOD base - 1] := by
    have sides := folds.congr.symm.add_right (base - 1 - word)
    rw [Nat.add_sub_of_le (Nat.le_sub_one_of_lt bound)] at sides
    exact sides.trans (Nat.modEq_zero_iff_dvd.mpr (Nat.dvd_refl _))
  have multiple : base - 1 ∣ other := Nat.modEq_zero_iff_dvd.mp (again.congr.trans whole)
  by_cases none_ : other = 0
  · obtain ⟨empty, ones⟩ := Nat.add_eq_zero_iff.mp (again.zero_iff.mp none_)
    have zero := folds.zero_iff.mpr empty
    omega
  · have most := Nat.le_of_dvd (Nat.pos_of_ne_zero none_) multiple
    omega

/-- A sum is folded to one word only. -/
theorem Folds.unique {base sum word other : Nat} (folds : Folds base sum word)
    (again : Folds base sum other) : word = other := by
  have bound := folds.lt
  have bound' := again.lt
  have same : word % (base - 1) = other % (base - 1) := folds.congr.trans again.congr.symm
  have zeros : word = 0 ↔ other = 0 := folds.zero_iff.trans again.zero_iff.symm
  by_cases top : word = base - 1
  · by_cases top' : other = base - 1
    · rw [top, top']
    · rw [top, Nat.mod_self, Nat.mod_eq_of_lt (by omega)] at same
      omega
  · by_cases top' : other = base - 1
    · rw [top', Nat.mod_self, Nat.mod_eq_of_lt (by omega)] at same
      omega
    · rwa [Nat.mod_eq_of_lt (by omega), Nat.mod_eq_of_lt (by omega)] at same

/-! ## One's-complement addition -/

/-- A carry out of the highest place is added at the lowest one. -/
def onesAdd (base first second : Nat) : Nat :=
  if first + second < base then first + second else first + second + 1 - base

def onesSum (base : Nat) (words : List Nat) : Nat := words.foldl (onesAdd base) 0

theorem Folds.onesAdd {base sum word next : Nat} (folds : Folds base sum word)
    (small : next < base) : Folds base (sum + next) (onesAdd base word next) := by
  have bound := folds.lt
  have added : word + next ≡ sum + next [MOD base - 1] := folds.congr.add_right next
  have zero := folds.zero_iff
  rw [Checksum.onesAdd]
  by_cases fits : word + next < base
  · rw [if_pos fits]
    exact ⟨fits, added, by omega⟩
  · rw [if_neg fits]
    refine ⟨by omega, ?_, by omega⟩
    have split : word + next + 1 - base + (base - 1) = word + next := by omega
    have less : word + next + 1 - base ≡ word + next [MOD base - 1] := by
      conv => rhs; rw [← split]
      exact (Nat.add_mod_right ..).symm
    exact less.trans added

/-- Adding with the carry turned around folds the sum. -/
theorem onesSum_folds {base : Nat} (positive : 0 < base) {words : List Nat}
    (small : ∀ word ∈ words, word < base) : Folds base words.sum (onesSum base words) := by
  induction words using List.reverseRecOn with
  | nil => exact .small positive
  | append_singleton words word ih =>
      have shorter := ih fun other member => small other (List.mem_append_left _ member)
      rw [List.sum_append, List.sum_singleton, onesSum, List.foldl_append]
      exact shorter.onesAdd (small word (List.mem_append_right _ (List.mem_singleton_self word)))

/-! ## Words -/

/-- The sum of the words of two bytes, the last one filled up with zeros. -/
def wordSum : List UInt8 → Nat
  | high :: low :: rest => high.toNat * 256 + low.toNat + wordSum rest
  | [high] => high.toNat * 256
  | [] => 0

/-- The words of two bytes, the last one filled up with zeros. -/
def words : List UInt8 → List Nat
  | high :: low :: rest => (high.toNat * 256 + low.toNat) :: words rest
  | [high] => [high.toNat * 256]
  | [] => []

theorem sum_words (data : List UInt8) : (words data).sum = wordSum data := by
  induction data using wordSum.induct with
  | case1 high low rest ih => rw [words, List.sum_cons, ih, wordSum]
  | case2 high => rw [words, List.sum_singleton, wordSum]
  | case3 => rfl

theorem word_lt {data : List UInt8} : ∀ word ∈ words data, word < 65536 := by
  induction data using wordSum.induct with
  | case1 high low rest ih =>
      refine List.forall_mem_cons.mpr ⟨?_, ih⟩
      have first := high.toNat_lt
      have second := low.toNat_lt
      omega
  | case2 high =>
      refine List.forall_mem_singleton.mpr ?_
      have first := high.toNat_lt
      omega
  | case3 => exact List.forall_mem_nil _

theorem wordSum_append {front : List UInt8} (aligned : front.length % 2 = 0) (back : List UInt8) :
    wordSum (front ++ back) = wordSum front + wordSum back := by
  induction front using wordSum.induct with
  | case1 high low rest ih =>
      have tail := ih (by rw [List.length_cons, List.length_cons] at aligned; omega)
      rw [List.cons_append, List.cons_append, wordSum, wordSum, tail, ← Nat.add_assoc]
  | case2 high => cases aligned
  | case3 => rw [List.nil_append, wordSum, Nat.zero_add]

end LinkP2p.Lib.Checksum
