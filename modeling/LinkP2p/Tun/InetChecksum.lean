import LinkP2p.Lib.Checksum
import Mathlib.Logic.Function.Iterate

/-!
# The Internet checksum

The words of a packet are added up in 32 bits, the carries are folded back in, and the
complement is stored in a field that was zero. Up to 131073 bytes the sum fits.
-/

namespace LinkP2p.Tun.Icmp

open LinkP2p.Lib.Bytes LinkP2p.Lib.Checksum

/-- The two bytes of a checksum. -/
def split (csum : UInt16) : List UInt8 := [(csum >>> 8).toUInt8, (csum &&& 0xff).toUInt8]

/-- `u16::from_be_bytes([high, low]) as u32` -/
def wordOf (high low : UInt8) : UInt32 := .ofNat (ofBytes [high, low])

/-- The loop of `inet_checksum` over the chunks, and the odd byte after it. -/
def sumWords (sum : UInt32) : List UInt8 → UInt32
  | high :: low :: rest => sumWords (sum + wordOf high low) rest
  | [high] => sum + wordOf high 0
  | [] => sum

/-- One round of the loop that folds the carries. -/
def carry (sum : UInt32) : UInt32 := (sum &&& (0xffff : UInt32)) + (sum >>> (16 : UInt32))

theorem low_toNat (sum : UInt32) : (sum &&& 0xffff).toNat = sum.toNat % 65536 := by
  rw [UInt32.toNat_and]
  exact Nat.and_two_pow_sub_one_eq_mod sum.toNat 16

theorem high_toNat (sum : UInt32) : (sum >>> 16).toNat = sum.toNat / 65536 := by
  rw [UInt32.toNat_shiftRight]
  exact Nat.shiftRight_eq_div_pow sum.toNat 16

theorem carry_toNat (sum : UInt32) :
    (carry sum).toNat = sum.toNat % 65536 + sum.toNat / 65536 := by
  have bound := sum.toNat_lt
  rw [carry, UInt32.toNat_add, low_toNat, high_toNat, Nat.mod_eq_of_lt (by omega)]

/-- The loop that folds the carries. -/
def foldCarries (sum : UInt32) : UInt32 :=
  if 0xffff < sum then foldCarries (carry sum) else sum
termination_by sum.toNat
decreasing_by
  rename_i large
  rw [carry_toNat]
  exact carry_lt (by decide) (UInt32.lt_iff_toNat_lt.mp large)

def inetChecksum (data : List UInt8) : UInt16 := ~~~(foldCarries (sumWords 0 data)).toUInt16

theorem foldCarries_folds (sum : UInt32) : Folds 65536 sum.toNat (foldCarries sum).toNat := by
  induction sum using foldCarries.induct with
  | case1 sum large ih =>
      rw [carry_toNat] at ih
      rw [foldCarries, if_pos large]
      exact ih.carry (by decide)
  | case2 sum fits =>
      rw [foldCarries, if_neg fits]
      have small : sum.toNat ≤ 65535 := UInt32.le_iff_toNat_le.mp (UInt32.not_lt.mp fits)
      exact .small (Nat.lt_succ_of_le small)

theorem wordOf_toNat (high low : UInt8) :
    (wordOf high low).toNat = high.toNat * 256 + low.toNat := by
  have first := high.toNat_lt
  have second := low.toNat_lt
  rw [wordOf, UInt32.toNat_ofNat']
  simp only [ofBytes, List.length_singleton, List.length_nil, Nat.pow_one, Nat.pow_zero,
    Nat.mul_one, Nat.add_zero]
  exact Nat.mod_eq_of_lt (by omega)

/-- The sum does not overflow on what leaves room for it. -/
theorem sumWords_toNat (data : List UInt8) (sum : UInt32)
    (room : sum.toNat + 65535 * ((data.length + 1) / 2) < 2 ^ 32) :
    (sumWords sum data).toNat = sum.toNat + wordSum data := by
  induction data using wordSum.induct generalizing sum with
  | case1 high low rest ih =>
      have word := wordOf_toNat high low
      have first := high.toNat_lt
      have second := low.toNat_lt
      rw [List.length_cons, List.length_cons] at room
      have added : (sum + wordOf high low).toNat = sum.toNat + (high.toNat * 256 + low.toNat) := by
        rw [UInt32.toNat_add, word, Nat.mod_eq_of_lt (by omega)]
      rw [sumWords, ih _ (by omega), added, wordSum]
      omega
  | case2 high =>
      have word := wordOf_toNat high 0
      have first := high.toNat_lt
      have second : (0 : UInt8).toNat = 0 := rfl
      rw [List.length_singleton] at room
      rw [sumWords, wordSum, UInt32.toNat_add, word, Nat.mod_eq_of_lt (by omega)]
      omega
  | case3 => rw [sumWords, wordSum, Nat.add_zero]

/-- The checksum is the complement of the sum that is folded to a word. -/
theorem inetChecksum_folds (data : List UInt8) (size : data.length < 131074) :
    ∃ word, Folds 65536 (wordSum data) word ∧ (inetChecksum data).toNat = 65535 - word := by
  have total : (sumWords 0 data).toNat = wordSum data := by
    have zero : (0 : UInt32).toNat = 0 := rfl
    rw [sumWords_toNat data 0 (by omega), zero, Nat.zero_add]
  have folds := foldCarries_folds (sumWords 0 data)
  rw [total] at folds
  refine ⟨_, folds, ?_⟩
  rw [inetChecksum, UInt16.toNat_not, UInt32.toNat_toUInt16, Nat.mod_eq_of_lt folds.lt]
  rfl

theorem split_eq (csum : UInt16) : split csum = toBytes 2 csum.toNat := by
  have high : (csum >>> 8).toUInt8 = UInt8.ofNat (csum.toNat / 256 ^ 1) := by
    apply UInt8.toNat_inj.mp
    rw [UInt16.toNat_toUInt8, UInt16.toNat_shiftRight, UInt8.toNat_ofNat']
    exact congrArg (· % 256) (Nat.shiftRight_eq_div_pow csum.toNat 8)
  have low : (csum &&& 0xff).toUInt8 = UInt8.ofNat (csum.toNat / 256 ^ 0) := by
    apply UInt8.toNat_inj.mp
    rw [UInt16.toNat_toUInt8, UInt16.toNat_and, UInt8.toNat_ofNat', Nat.pow_zero, Nat.div_one]
    show (csum.toNat &&& 255) % 256 = _
    rw [Nat.and_two_pow_sub_one_eq_mod csum.toNat 8]
    exact Nat.mod_mod _ _
  rw [split, high, low]
  rfl

theorem wordSum_split (csum : UInt16) (rest : List UInt8) :
    wordSum (split csum ++ rest) = csum.toNat + wordSum rest := by
  have bound := csum.toNat_lt
  rw [split_eq]
  show (UInt8.ofNat (csum.toNat / 256 ^ 1)).toNat * 256 +
    (UInt8.ofNat (csum.toNat / 256 ^ 0)).toNat + wordSum rest = _
  rw [UInt8.toNat_ofNat', UInt8.toNat_ofNat', Nat.pow_one, Nat.pow_zero, Nat.div_one]
  omega

/-- A checksum that is computed over zeros and stored there verifies. -/
theorem inetChecksum_stored (front back : List UInt8) (aligned : front.length % 2 = 0)
    (size : front.length + 2 + back.length < 131074) :
    inetChecksum (front ++ (split (inetChecksum (front ++ ([0, 0] ++ back))) ++ back)) = 0 := by
  have length : (front ++ ([0, 0] ++ back)).length < 131074 := by
    rw [List.length_append, List.length_append]
    exact Nat.lt_of_le_of_lt (Nat.le_of_eq (Nat.add_assoc ..).symm) size
  obtain ⟨word, folds, stored⟩ := inetChecksum_folds _ length
  have sum : wordSum (front ++ (split (inetChecksum (front ++ ([0, 0] ++ back))) ++ back)) =
      wordSum (front ++ ([0, 0] ++ back)) + (65536 - 1 - word) := by
    rw [wordSum_append aligned, wordSum_append aligned, wordSum_split, stored]
    show wordSum front + (65535 - word + wordSum back) = wordSum front + (0 + wordSum back) + _
    omega
  obtain ⟨ones, again, checked⟩ := inetChecksum_folds
    (front ++ (split (inetChecksum (front ++ ([0, 0] ++ back))) ++ back))
    (by rwa [List.length_append, List.length_append] at length ⊢)
  rw [sum] at again
  have full := folds.complement again
  rw [full] at checked
  exact UInt16.toNat_inj.mp checked

/-! ## Nothing overflows -/

/-- `sum += word`; a debug build panics beyond `u32::MAX`. -/
def addChecked (sum word : UInt32) : Option UInt32 :=
  if sum.toNat + word.toNat < 2 ^ 32 then some (sum + word) else none

/-- `sumWords` with every addition checked -/
def sumChecked (sum : UInt32) : List UInt8 → Option UInt32
  | high :: low :: rest => (addChecked sum (wordOf high low)).bind fun sum => sumChecked sum rest
  | [high] => addChecked sum (wordOf high 0)
  | [] => some sum

theorem sumChecked_eq (data : List UInt8) (sum : UInt32)
    (room : sum.toNat + 65535 * ((data.length + 1) / 2) < 2 ^ 32) :
    sumChecked sum data = some (sumWords sum data) := by
  induction data using wordSum.induct generalizing sum with
  | case1 high low rest ih =>
      have word := wordOf_toNat high low
      have first := high.toNat_lt
      have second := low.toNat_lt
      rw [List.length_cons, List.length_cons] at room
      have fits : sum.toNat + (wordOf high low).toNat < 2 ^ 32 := by omega
      have added : (sum + wordOf high low).toNat = sum.toNat + (wordOf high low).toNat := by
        rw [UInt32.toNat_add, Nat.mod_eq_of_lt fits]
      rw [sumChecked, addChecked, if_pos fits, Option.bind_some, sumWords]
      exact ih _ (by omega)
  | case2 high =>
      have word := wordOf_toNat high 0
      have first := high.toNat_lt
      have second : (0 : UInt8).toNat = 0 := rfl
      rw [List.length_singleton] at room
      exact if_pos (by omega)
  | case3 => rfl

/-! ## The loop ends -/

theorem carry_checked (sum : UInt32) :
    addChecked (sum &&& 0xffff) (sum >>> 16) = some (carry sum) := by
  have low := low_toNat sum
  have high := high_toNat sum
  have bound := sum.toNat_lt
  exact if_pos (by omega)

/-- The loop is left after so many rounds. -/
structure EndsAfter (rounds : Nat) (sum : UInt32) : Prop where
  goesOn : ∀ round < rounds, 0xffff < carry^[round] sum
  ends : ¬ 0xffff < carry^[rounds] sum
  result : foldCarries sum = carry^[rounds] sum

theorem EndsAfter.carry {rounds : Nat} {sum : UInt32} (large : 0xffff < sum)
    (ends : EndsAfter rounds (Icmp.carry sum)) : EndsAfter (rounds + 1) sum where
  goesOn
    | 0, _ => large
    | round + 1, inside => ends.goesOn round (Nat.lt_of_succ_lt_succ inside)
  ends := ends.ends
  result := by
    rw [foldCarries, if_pos large]
    exact ends.result

theorem EndsAfter.small {sum : UInt32} (small : ¬ 0xffff < sum) : EndsAfter 0 sum :=
  ⟨fun _ none_ => absurd none_ (Nat.not_lt_zero _), small, by rw [foldCarries, if_neg small]; rfl⟩

/-- The second carry leaves nothing to carry. -/
theorem ends_after (sum : UInt32) : ∃ rounds ≤ 2, EndsAfter rounds sum := by
  have bound := sum.toNat_lt
  have once := carry_toNat sum
  have twice := carry_toNat (carry sum)
  by_cases first : 0xffff < sum
  · by_cases second : 0xffff < carry sum
    · have third : ¬ 0xffff < carry (carry sum) := by
        intro third
        have more := UInt32.lt_iff_toNat_lt.mp third
        have limit : (0xffff : UInt32).toNat = 65535 := rfl
        omega
      exact ⟨2, Nat.le_refl 2, ((EndsAfter.small third).carry second).carry first⟩
    · exact ⟨1, by decide, (EndsAfter.small second).carry first⟩
  · exact ⟨0, by decide, .small first⟩

/-! ## The checksum of RFC 1071 -/

theorem inetChecksum_eq {data : List UInt8} (size : data.length < 131074) :
    inetChecksum data = ~~~ UInt16.ofNat (onesSum 65536 (words data)) := by
  obtain ⟨word, folds, stored⟩ := inetChecksum_folds data size
  have ones := onesSum_folds (by decide) (@word_lt data)
  rw [sum_words] at ones
  obtain rfl := folds.unique ones
  apply UInt16.toNat_inj.mp
  rw [stored, UInt16.toNat_not, UInt16.toNat_ofNat', Nat.mod_eq_of_lt folds.lt]
  rfl

/-- **The Internet checksum** is the complement of the one's-complement sum of the words, is
computed without an overflow in at most two rounds of carries, and verifies to zero. -/
theorem inet_checksum_rfc1071 (data : List UInt8) (size : data.length < 131074) :
    sumChecked 0 data = some (sumWords 0 data) ∧
      (∀ sum : UInt32, addChecked (sum &&& 0xffff) (sum >>> 16) = some (carry sum)) ∧
      (∃ rounds ≤ 2, EndsAfter rounds (sumWords 0 data)) ∧
      inetChecksum data = ~~~ UInt16.ofNat (onesSum 65536 (words data)) ∧
      ∀ front back, front.length % 2 = 0 → data = front ++ [0, 0] ++ back →
        inetChecksum (front ++ toBytes 2 (inetChecksum data).toNat ++ back) = 0 := by
  refine ⟨sumChecked_eq data 0 ?_, carry_checked, ends_after _, inetChecksum_eq size, ?_⟩
  · have zero : (0 : UInt32).toNat = 0 := rfl
    omega
  · rintro front back aligned rfl
    rw [List.append_assoc] at size ⊢
    rw [List.append_assoc, ← split_eq]
    refine inetChecksum_stored front back aligned ?_
    rwa [List.length_append, List.length_append, ← Nat.add_assoc] at size

/-- 131073 bytes of ones are the most that fit. -/
theorem full_checksum :
    inetChecksum (List.replicate 131073 0xff) =
      ~~~ UInt16.ofNat (onesSum 65536 (words (List.replicate 131073 0xff))) :=
  (inet_checksum_rfc1071 (List.replicate 131073 0xff)
    (by rw [List.length_replicate]; decide)).2.2.2.1

end LinkP2p.Tun.Icmp
