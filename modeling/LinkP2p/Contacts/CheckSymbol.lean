import LinkP2p.Contacts.Retyping

/-!
# What the check symbol catches

The check symbol is the sum of the bytes with alternating signs, modulo 32. One wrong
letter changes one byte or two, by multiples of powers of two, and the change may vanish
in the sum.
-/

namespace LinkP2p.Contacts

open LinkP2p.Identity (Text)
open LinkP2p.Lib.Bytes LinkP2p.Lib.Digits

/-! ## The rolling sum -/

/-- The loop of `check_symbol`, without the wrapping. -/
def roll (x : Nat) (bytes : List UInt8) : Nat := bytes.foldl (fun x b => x * 31 + b.toNat) x

theorem roll_append (x : Nat) (front back : List UInt8) :
    roll x (front ++ back) = roll (roll x front) back := List.foldl_append

theorem checkValue_eq (data : List UInt8) : checkValue data = roll 0 data % 32 := by
  have wrapped : ∀ (bytes : List UInt8) (x : UInt32) (y : Nat), x.toNat % 32 = y % 32 →
      (bytes.foldl (fun x b => x * 31 + b.toUInt32) x).toNat % 32 = roll y bytes % 32 := by
    intro bytes
    induction bytes with
    | nil => exact fun x y same => same
    | cons b rest ih =>
        intro x y same
        refine ih (x * 31 + b.toUInt32) (y * 31 + b.toNat) ?_
        rw [UInt32.toNat_add, UInt32.toNat_mul, UInt8.toNat_toUInt32,
          show (31 : UInt32).toNat = 31 from rfl]
        omega
  rw [checkValue, UInt32.toNat_mod]
  exact wrapped data 0 0 rfl

/-- Equal bytes behind hide no difference. -/
theorem roll_congr_iff (bytes : List UInt8) (x y : Nat) :
    roll x bytes % 32 = roll y bytes % 32 ↔ x % 32 = y % 32 := by
  induction bytes generalizing x y with
  | nil => rfl
  | cons b rest ih =>
      have step : (x * 31 + b.toNat) % 32 = (y * 31 + b.toNat) % 32 ↔ x % 32 = y % 32 := by omega
      exact (ih _ _).trans step

/-! ## What a letter adds -/

/-- What a letter adds to the sum, by its place in a group of eight. -/
def weight (place value : Nat) : Int :=
  match place with
  | 0 => 8 * value
  | 1 => value / 4
  | 2 => -(2 * value)
  | 3 => 16 * value - value / 16
  | 4 => value / 2
  | 5 => -(4 * value)
  | 6 => -(value / 8)
  | _ => value

def weights : Nat → List Nat → Int
  | _, [] => 0
  | place, value :: rest => weight place value + weights (place + 1) rest

theorem weights_set (values : List Nat) (start : Nat) {place : Nat} (new : Nat)
    (inside : place < values.length) :
    weights start (values.set place new) =
      weights start values - weight (start + place) values[place] + weight (start + place) new := by
  induction values generalizing start place with
  | nil => cases inside
  | cons value rest ih =>
      cases place with
      | zero =>
          simp only [List.set_cons_zero, weights, List.getElem_cons_zero, Nat.add_zero]
          omega
      | succ place =>
          have further : start + 1 + place = start + (place + 1) := by omega
          rw [List.set_cons_succ, weights, weights, List.getElem_cons_succ,
            ih (start + 1) (Nat.lt_of_succ_lt_succ inside), further]
          omega

/-- The five bytes of eight letters. -/
theorem unpack_group {a b c d e f g h : Nat} (below : ∀ v ∈ [a, b, c, d, e, f, g, h], v < 32) :
    unpack [a, b, c, d, e, f, g, h] =
      [UInt8.ofNat (a * 8 + b / 4), .ofNat (b % 4 * 64 + c * 2 + d / 16),
        .ofNat (d % 16 * 16 + e / 2), .ofNat (e % 2 * 128 + f * 4 + g / 8),
        .ofNat (g % 8 * 32 + h)] := by
  simp only [List.forall_mem_cons, List.not_mem_nil, false_imp_iff, implies_true, and_true]
    at below
  refine unpack_eq rfl (by decide : 0 < 8) (by decide : 0 < 2 ^ 0) ?_
  simp only [ofDigits, ofBytes, UInt8.toNat_ofNat', List.length_cons, List.length_nil]
  omega

/-- The two bytes of the last four letters, which do not reach the last four bits. -/
theorem unpack_last {a b c d : Nat} (below : ∀ v ∈ [a, b, c, d], v < 32) :
    unpack [a, b, c, d] =
      [UInt8.ofNat (a * 8 + b / 4), .ofNat (b % 4 * 64 + c * 2 + d / 16)] := by
  simp only [List.forall_mem_cons, List.not_mem_nil, false_imp_iff, implies_true, and_true]
    at below
  refine unpack_eq rfl (by decide : 4 < 8) (show d % 16 < 2 ^ 4 by omega) ?_
  simp only [ofDigits, ofBytes, UInt8.toNat_ofNat', List.length_cons, List.length_nil]
  omega

/-! ## Groups -/

theorem group_of_length {group : List Nat} (length : group.length = 8) :
    ∃ a b c d e f g h, group = [a, b, c, d, e, f, g, h] := by
  match group, length with
  | [a, b, c, d, e, f, g, h], _ => exact ⟨a, b, c, d, e, f, g, h, rfl⟩

/-- A group turns the sign of the sum before it and adds its weights. -/
theorem roll_group {group : List Nat} (length : group.length = 8)
    (below : ∀ v ∈ group, v < 32) (x : Nat) :
    (roll x (unpack group) : Int) % 32 = (weights 0 group - x) % 32 := by
  obtain ⟨a, b, c, d, e, f, g, h, rfl⟩ := group_of_length length
  rw [unpack_group below]
  simp only [List.forall_mem_cons, List.not_mem_nil, false_imp_iff, implies_true, and_true]
    at below
  simp only [roll, List.foldl_cons, List.foldl_nil, UInt8.toNat_ofNat', weights, weight]
  omega

theorem last_of_length {group : List Nat} (length : group.length = 4) :
    ∃ a b c d, group = [a, b, c, d] := by
  match group, length with
  | [a, b, c, d], _ => exact ⟨a, b, c, d, rfl⟩

/-- The last letter counts with its first bit. -/
theorem roll_last {a b c d : Nat} (below : ∀ v ∈ [a, b, c, d], v < 32) (x : Nat) :
    (roll x (unpack [a, b, c, d]) : Int) % 32 = (x - weights 0 [a, b, c, d / 16 * 16]) % 32 := by
  rw [unpack_last below]
  simp only [List.forall_mem_cons, List.not_mem_nil, false_imp_iff, implies_true, and_true]
    at below
  simp only [roll, List.foldl_cons, List.foldl_nil, UInt8.toNat_ofNat', weights, weight]
  omega

/-- Codes that differ in one group have the same check symbol when its weights are the same. -/
theorem check_group_iff {front group other back : List Nat} (aligned : front.length % 8 = 0)
    (length : group.length = 8) (length' : other.length = 8) (below : ∀ v ∈ front, v < 32)
    (group_below : ∀ v ∈ group, v < 32) (other_below : ∀ v ∈ other, v < 32)
    (back_below : ∀ v ∈ back, v < 32) :
    checkValue (unpack (front ++ (other ++ back))) =
        checkValue (unpack (front ++ (group ++ back))) ↔
      weights 0 other % 32 = weights 0 group % 32 := by
  have read : ∀ part : List Nat, part.length = 8 → (∀ v ∈ part, v < 32) →
      checkValue (unpack (front ++ (part ++ back))) =
        roll (roll (roll 0 (unpack front)) (unpack part)) (unpack back) % 32 := by
    intro part size part_below
    rw [checkValue_eq, unpack_append below (List.forall_mem_append.mpr ⟨part_below, back_below⟩)
      aligned, unpack_append part_below back_below (by rw [size]), roll_append, roll_append]
  rw [read other length' other_below, read group length group_below, roll_congr_iff]
  have sum := roll_group length group_below (roll 0 (unpack front))
  have sum' := roll_group length' other_below (roll 0 (unpack front))
  omega

theorem check_last_iff {front : List Nat} {a b c d a' b' c' d' : Nat}
    (aligned : front.length % 8 = 0) (below : ∀ v ∈ front, v < 32)
    (last_below : ∀ v ∈ [a, b, c, d], v < 32) (last_below' : ∀ v ∈ [a', b', c', d'], v < 32) :
    checkValue (unpack (front ++ [a', b', c', d'])) =
        checkValue (unpack (front ++ [a, b, c, d])) ↔
      weights 0 [a', b', c', d' / 16 * 16] % 32 = weights 0 [a, b, c, d / 16 * 16] % 32 := by
  rw [checkValue_eq, checkValue_eq, unpack_append below last_below aligned,
    unpack_append below last_below' aligned, roll_append, roll_append]
  have sum := roll_last last_below (roll 0 (unpack front))
  have sum' := roll_last last_below' (roll 0 (unpack front))
  omega

/-! ## One wrong letter -/

theorem set_middle {α : Type} (front back : List α) {group : List α} {place : Nat} (new : α)
    (inside : place < group.length) :
    (front ++ (group ++ back)).set (front.length + place) new =
      front ++ (group.set place new ++ back) := by
  rw [List.set_append_right _ _ (Nat.le_add_right _ _), Nat.add_sub_cancel_left,
    List.set_append_left _ _ inside]

theorem getElem?_middle {α : Type} (front back : List α) {group : List α} {place : Nat}
    (inside : place < group.length) :
    (front ++ (group ++ back))[front.length + place]? = group[place]? := by
  rw [List.getElem?_append_right (Nat.le_add_right _ _), Nat.add_sub_cancel_left,
    List.getElem?_append_left inside]

/-- What a letter counts with: the last one with its first bit. -/
def kept (i value : Nat) : Nat := if i = 51 then value / 16 * 16 else value

theorem forall_mem_set {P : Nat → Prop} {values : List Nat} {new : Nat} (place : Nat)
    (all : ∀ v ∈ values, P v) (also : P new) : ∀ v ∈ values.set place new, P v := by
  intro v member
  rcases List.mem_or_eq_of_mem_set member with inside | rfl
  · exact all v inside
  · exact also

/-- The group of eight that a letter is in. -/
theorem exists_group {digits : List Nat} {i : Nat} (full : 8 * (i / 8) + 8 ≤ digits.length) :
    ∃ front group back, digits = front ++ (group ++ back) ∧ front.length = 8 * (i / 8) ∧
      group.length = 8 := by
  refine ⟨digits.take (8 * (i / 8)), (digits.drop (8 * (i / 8))).take 8,
    (digits.drop (8 * (i / 8))).drop 8, ?_, ?_, ?_⟩
  · rw [List.take_append_drop, List.take_append_drop]
  · rw [List.length_take]
    omega
  · rw [List.length_take, List.length_drop]
    omega

theorem exists_last {digits : List Nat} (length : digits.length = 52) :
    ∃ front a b c d, digits = front ++ [a, b, c, d] ∧ front.length = 48 := by
  have few : (digits.drop 48).length = 4 := by rw [List.length_drop, length]
  obtain ⟨a, b, c, d, last⟩ := last_of_length few
  refine ⟨digits.take 48, a, b, c, d, ?_, ?_⟩
  · rw [← last, List.take_append_drop]
  · rw [List.length_take]
    omega

/-- A letter of a full group changes the sum by its weight. -/
theorem check_group_set_iff {front group back : List Nat} {place old new : Nat}
    (aligned : front.length % 8 = 0) (size : group.length = 8)
    (below : ∀ v ∈ front ++ (group ++ back), v < 32) (found : group[place]? = some old)
    (small : new < 32) :
    checkValue (unpack (front ++ (group.set place new ++ back))) =
        checkValue (unpack (front ++ (group ++ back))) ↔
      weight place new % 32 = weight place old % 32 := by
  obtain ⟨front_below, rest_below⟩ := List.forall_mem_append.mp below
  obtain ⟨group_below, back_below⟩ := List.forall_mem_append.mp rest_below
  obtain ⟨within, value⟩ := List.getElem?_eq_some_iff.mp found
  have sum := weights_set group 0 new within
  rw [Nat.zero_add, value] at sum
  rw [check_group_iff aligned size (by rw [List.length_set, size]) front_below group_below
    (forall_mem_set place group_below small) back_below]
  omega

/-- So does a letter of the last four, with what is read of it. -/
theorem check_last_set_iff {front : List Nat} {a b c d place old new : Nat}
    (aligned : front.length % 8 = 0) (below : ∀ v ∈ front ++ [a, b, c, d], v < 32)
    (found : [a, b, c, d][place]? = some old) (small : new < 32) :
    checkValue (unpack (front ++ [a, b, c, d].set place new)) =
        checkValue (unpack (front ++ [a, b, c, d])) ↔
      weight place (kept (48 + place) new) % 32 = weight place (kept (48 + place) old) % 32 := by
  obtain ⟨front_below, last_below⟩ := List.forall_mem_append.mp below
  have changed_below := forall_mem_set place last_below small
  have within : place < 4 := (List.getElem?_eq_some_iff.mp found).1
  obtain rfl | rfl | rfl | rfl : place = 0 ∨ place = 1 ∨ place = 2 ∨ place = 3 := by omega
  all_goals
    cases found
    refine (check_last_iff aligned front_below last_below changed_below).trans ?_
    simp only [weights, weight, kept, Nat.reduceAdd, Nat.reduceEqDiff, ↓reduceIte]
    omega

/-- One letter changes the check symbol by its weight. -/
theorem check_set_iff {digits : List Nat} {i old new : Nat} (length : digits.length = 52)
    (below : ∀ v ∈ digits, v < 32) (place : digits[i]? = some old) (small : new < 32) :
    checkValue (unpack (digits.set i new)) = checkValue (unpack digits) ↔
      weight (i % 8) (kept i new) % 32 = weight (i % 8) (kept i old) % 32 := by
  have inside : i < 52 := length ▸ (List.getElem?_eq_some_iff.mp place).1
  by_cases early : i < 48
  · obtain ⟨front, group, back, rfl, aligned, size⟩ := exists_group (i := i)
      (show 8 * (i / 8) + 8 ≤ digits.length by omega)
    have offset : i = front.length + i % 8 := by omega
    have within : i % 8 < group.length := by omega
    have changed := set_middle front back new within
    have found := getElem?_middle front back within
    rw [← offset] at changed found
    have kept_all : ∀ v, kept i v = v := fun v => if_neg (by omega)
    rw [changed, kept_all, kept_all]
    exact check_group_set_iff (by omega) size below (found ▸ place) small
  · obtain ⟨front, a, b, c, d, rfl, size⟩ := exists_last length
    have late : front.length ≤ i := by omega
    have offset : 48 + (i - 48) = i := by omega
    have mod_eq : i % 8 = i - 48 := by omega
    rw [List.getElem?_append_right late, size] at place
    have last := check_last_set_iff (by omega) below place small
    rw [offset] at last
    rw [List.set_append_right _ _ late, size, mod_eq]
    exact last

/-- The bytes determine all letters but the last. -/
theorem dropLast_of_unpack {values other : List Nat} (length : values.length = 52)
    (length' : other.length = 52) (below : ∀ v ∈ values, v < 32) (below' : ∀ v ∈ other, v < 32)
    (same : unpack values = unpack other) : values.dropLast = other.dropLast := by
  have front : ∀ part : List Nat, part.length = 52 → (∀ v ∈ part, v < 32) →
      ofDigits 32 part.dropLast = ofBytes (unpack part) / 2 := by
    intro part size part_below
    obtain ⟨left, rest, -, total, bound, inside, denoted⟩ := unpack_spec part_below
    have nonempty : part ≠ [] := by
      rintro rfl
      cases size
    have small := part_below _ (List.getLast_mem nonempty)
    have left_eq : left = 4 := by
      rw [length_unpack size] at total
      omega
    subst left_eq
    have split := ofDigits_concat 32 part.dropLast (part.getLast nonempty)
    rw [List.dropLast_append_getLast nonempty] at split
    omega
  refine ofDigits_inj ?_ (fun v member => below v ((List.dropLast_sublist _).subset member))
    (fun v member => below' v ((List.dropLast_sublist _).subset member)) ?_
  · rw [List.length_dropLast, List.length_dropLast, length, length']
  · rw [front values length below, front other length' below', same]

/-- A wrong letter, unless it is the last, gives other bytes. -/
theorem unpack_set_ne {digits : List Nat} {i old new : Nat} (length : digits.length = 52)
    (below : ∀ v ∈ digits, v < 32) (place : digits[i]? = some old) (small : new < 32)
    (early : i ≠ 51) (differ : new ≠ old) : unpack (digits.set i new) ≠ unpack digits := by
  intro same
  have inside : i < digits.length := (List.getElem?_eq_some_iff.mp place).1
  have fronts := dropLast_of_unpack (by rw [List.length_set, length]) length
    (forall_mem_set i below small) below same
  have letters := congrArg (fun values => values[i]?) fronts
  simp only [List.getElem?_dropLast, List.length_set, List.getElem?_set_self inside,
    place] at letters
  rw [if_pos (by omega), if_pos (by omega)] at letters
  exact differ (Option.some.inj letters)

/-- Only the first bit of the last letter is read. -/
theorem unpack_set_last {digits : List Nat} {old new : Nat} (length : digits.length = 52)
    (place : digits[51]? = some old) (bit : new / 16 = old / 16) :
    unpack (digits.set 51 new) = unpack digits := by
  obtain ⟨front, last, rfl⟩ : ∃ front last, digits = front ++ [last] := by
    have nonempty : digits ≠ [] := by
      rintro rfl
      cases length
    exact ⟨_, _, (List.dropLast_append_getLast nonempty).symm⟩
  have size : front.length = 51 := by simpa using length
  rw [List.getElem?_append_right (by omega), size] at place
  have ends : last = old := Option.some.inj place
  have read : ∀ value, unpack (front ++ [value]) =
      toBytes 32 (ofDigits 32 front * 2 + value / 16) := by
    intro value
    have halved : (ofDigits 32 front * 32 + value) / 16 = ofDigits 32 front * 2 + value / 16 := by
      omega
    rw [unpack, ofDigits_concat, List.length_append, size, List.length_singleton, ← halved,
      show 5 * (51 + 1) / 8 = 32 from rfl, show 2 ^ (5 * (51 + 1) % 8) = 16 from rfl]
  rw [List.set_append_right _ _ (by omega), size, ends, read old, ← bit]
  exact read new

/-! ## Exactly what is caught -/

/-- The change from one letter to the other vanishes in the sum. -/
def Cancels (i old new : Nat) : Prop :=
  match i % 8 with
  | 0 => old % 4 = new % 4
  | 1 => old / 4 = new / 4
  | 2 => old % 16 = new % 16
  -- the last letter has no bits beyond the first
  | 3 => i ≠ 51 ∧ old / 16 = new / 16 ∧ old % 2 = new % 2
  | 4 => old / 2 = new / 2
  | 5 => old % 8 = new % 8
  | 6 => old / 8 = new / 8
  | _ => False

/-- Of the fourth letter the first bit counts, and the last. -/
theorem weight_three {value : Nat} (small : value < 32) :
    weight 3 value % 32 =
      if value / 16 = 0 then 16 * (value % 2 : Nat) else 31 - 16 * (value % 2 : Nat) := by
  have split : value = 2 * (value / 2) + value % 2 := (Nat.div_add_mod value 2).symm
  simp only [weight]
  by_cases low : value / 16 = 0
  · rw [if_pos low]
    omega
  · rw [if_neg low]
    have one : value / 16 = 1 := by omega
    omega

theorem weight_kept_iff {i old new : Nat} (inside : i < 52) (small : old < 32) (small' : new < 32)
    (differ : new ≠ old) :
    weight (i % 8) (kept i new) % 32 = weight (i % 8) (kept i old) % 32 ↔
      Cancels i old new ∨ (i = 51 ∧ new / 16 = old / 16) := by
  by_cases last : i = 51
  · subst last
    simp only [Cancels, weight, kept, Nat.reduceMod, ↓reduceIte, ne_eq, not_true_eq_false,
      false_and, false_or, true_and]
    omega
  · simp only [Cancels, kept, last, ↓reduceIte, ne_eq, not_false_eq_true, true_and, false_and,
      or_false]
    have places : i % 8 < 8 := Nat.mod_lt i (by decide)
    generalize i % 8 = place at places ⊢
    match place, places with
    | 3, _ =>
        rw [weight_three small, weight_three small']
        show _ ↔ old / 16 = new / 16 ∧ old % 2 = new % 2
        split <;> split <;> omega
    | 0, _ | 1, _ | 2, _ | 4, _ | 5, _ | 6, _ | 7, _ =>
        simp only [weight, iff_false]
        omega

/-- If the decoded bytes are others, so is their check symbol, and the code is rejected,
however it is typed. -/
def Catches (iroh : Iroh) (b : List UInt8) (i new : Nat) : Prop :=
  ∀ b', decodeCrockford ((encodeCrockford b).set i (symbol new)) = .ok b' → b' ≠ b →
    checkSymbol b' ≠ checkSymbol b ∧
      ∀ token, Retyping
          ((encodeCrockford b).set i (symbol new) ++ [Char.ofNat (checkSymbol b).toNat]) token →
        parseEndpointToken iroh token = .error .checkDigitMismatch

theorem checkSymbol_eq_iff (data other : List UInt8) :
    checkSymbol data = checkSymbol other ↔ checkValue data = checkValue other := by
  constructor
  · intro same
    refine symbol_inj (checkValue_lt data) (checkValue_lt other) (Char.toNat_inj.mp ?_)
    rw [← checkSymbol_toNat, ← checkSymbol_toNat, same]
  · intro same
    rw [← UInt8.toNat_inj, checkSymbol_toNat, checkSymbol_toNat, same]

/-- **A wrong letter is caught** exactly when its change does not vanish in the sum. -/
theorem check_symbol_catches_iff {iroh : Iroh} (ids : TakesIds iroh) {b : List UInt8}
    (full : b.length = 32) {i : Nat} {old new : Fin 32}
    (place : (encodeCrockford b)[i]? = some (symbol old)) (differ : new ≠ old) :
    Catches iroh b i new ↔ ¬ Cancels i old new := by
  obtain ⟨digits, written, below, length, -, unpacked⟩ := encodeCrockford_id full
  have found : digits[i]? = some old.val := by
    rw [written, List.getElem?_map] at place
    obtain ⟨digit, found, same⟩ := Option.map_eq_some_iff.mp place
    have small := below digit (List.mem_of_getElem? found)
    rw [found, symbol_inj small old.isLt same]
  have inside : i < 52 := length ▸ (List.getElem?_eq_some_iff.mp found).1
  have other : new.val ≠ old.val := fun same => differ (Fin.ext same)
  have typed : (encodeCrockford b).set i (symbol new) = (digits.set i new).map symbol := by
    rw [written, List.map_set]
  have below' := forall_mem_set i below new.isLt
  have length' : (digits.set i new).length = 52 := by rw [List.length_set, length]
  have same_iff := (check_set_iff length below found new.isLt).trans
    (weight_kept_iff inside old.isLt new.isLt other)
  rw [unpacked] at same_iff
  unfold Catches
  rw [typed, decodeCrockford_symbols below']
  constructor
  · intro catches cancels
    have early : i ≠ 51 := by
      rintro rfl
      exact cancels.1 rfl
    have moved := unpack_set_ne length below found new.isLt early other
    rw [unpacked] at moved
    exact (catches _ rfl moved).1 ((checkSymbol_eq_iff _ _).mpr (same_iff.mpr (.inl cancels)))
  · rintro apart b' decoded moved
    cases decoded
    have caught : checkValue (unpack (digits.set i new)) ≠ checkValue b := by
      intro same
      rcases same_iff.mp same with cancels | ⟨rfl, bit⟩
      · exact apart cancels
      · rw [unpack_set_last length found bit, unpacked] at moved
        exact moved rfl
    refine ⟨fun same => caught ((checkSymbol_eq_iff _ _).mp same), fun token retyping => ?_⟩
    have all := below_check below' (checkValue_lt b)
    have letters : ((digits.set i new).map symbol ++ [Char.ofNat (checkSymbol b).toNat]).filter
        solid = (digits.set i new ++ [checkValue b]).map symbol := by
      rw [← filter_symbols all, List.map_append]
      rfl
    rw [parse_code ids (retyping.compact_eq letters all) length' below' (checkValue_lt b),
      if_neg caught]

/-- The payload of zeros. -/
def zeros : List UInt8 := List.replicate 32 0

/-- A one for the first zero is caught. -/
theorem one_for_zero_caught : Catches plainIroh zeros 0 1 := by
  have place : (encodeCrockford zeros)[0]? = some (symbol (0 : Fin 32)) := by decide +kernel
  have differ : (1 : Fin 32) ≠ 0 := by decide
  refine (check_symbol_catches_iff plainIroh_takesIds rfl place differ).mpr ?_
  show ¬ 0 % 4 = 1 % 4
  decide

/-- A four for the first zero is not: the code is taken for that of another id. -/
theorem four_for_zero_missed :
    parseEndpointToken plainIroh ('4' :: List.replicate 52 '0') =
        .ok (BitVec.ofNat 256 (2 ^ 253)) ∧
      ¬ ∀ (iroh : Iroh), TakesIds iroh → ∀ b : List UInt8, b.length = 32 →
        ∀ (i : Nat) (old new : Fin 32), (encodeCrockford b)[i]? = some (symbol old) →
          new ≠ old → Catches iroh b i new := by
  refine ⟨by decide +kernel, fun catches => ?_⟩
  have place : (encodeCrockford zeros)[0]? = some (symbol (0 : Fin 32)) := by decide +kernel
  have decoded : decodeCrockford ((encodeCrockford zeros).set 0 (symbol (4 : Fin 32))) =
      .ok (32 :: List.replicate 31 0) := by decide +kernel
  have caught := catches plainIroh plainIroh_takesIds zeros rfl 0 0 4 place (by decide)
    _ decoded (by decide)
  exact caught.1 (by decide +kernel)

end LinkP2p.Contacts
