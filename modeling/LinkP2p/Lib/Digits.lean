import Mathlib.Data.Nat.ModEq
import Mathlib.Tactic.Ring

/-!
# Digits and bit buffers

A list of digits denotes a number, most significant digit first. A coder from one base
to another shifts digits into a machine word and takes the digits of the other base out
of it; only the bits that still wait in the word matter.
-/

namespace LinkP2p.Lib.Digits

/-- The number that a list of digits denotes. -/
def ofDigits (base : Nat) : List Nat → Nat
  | [] => 0
  | digit :: rest => digit * base ^ rest.length + ofDigits base rest

theorem ofDigits_append (base : Nat) (front back : List Nat) :
    ofDigits base (front ++ back) = ofDigits base front * base ^ back.length +
      ofDigits base back := by
  induction front with
  | nil => rw [List.nil_append, ofDigits, Nat.zero_mul, Nat.zero_add]
  | cons digit front ih =>
      rw [List.cons_append, ofDigits, ofDigits, ih, List.length_append, Nat.pow_add]
      ring

theorem ofDigits_concat (base : Nat) (front : List Nat) (digit : Nat) :
    ofDigits base (front ++ [digit]) = ofDigits base front * base + digit := by
  rw [ofDigits_append, List.length_singleton, Nat.pow_one]
  simp only [ofDigits, List.length_nil, Nat.pow_zero, Nat.mul_one, Nat.add_zero]

theorem ofDigits_lt {base : Nat} {digits : List Nat} (below : ∀ digit ∈ digits, digit < base) :
    ofDigits base digits < base ^ digits.length := by
  induction digits with
  | nil => exact Nat.one_pos
  | cons digit rest ih =>
      obtain ⟨first, others⟩ := List.forall_mem_cons.mp below
      rw [ofDigits, List.length_cons, Nat.pow_succ]
      calc digit * base ^ rest.length + ofDigits base rest
          < digit * base ^ rest.length + base ^ rest.length := Nat.add_lt_add_left (ih others) _
        _ = (digit + 1) * base ^ rest.length := (Nat.succ_mul _ _).symm
        _ ≤ base * base ^ rest.length := Nat.mul_le_mul_right _ first
        _ = base ^ rest.length * base := Nat.mul_comm _ _

/-- Digits of one length are determined by their number. -/
theorem ofDigits_inj {base : Nat} {left right : List Nat} (length : left.length = right.length)
    (below : ∀ digit ∈ left, digit < base) (below' : ∀ digit ∈ right, digit < base)
    (same : ofDigits base left = ofDigits base right) : left = right := by
  induction left generalizing right with
  | nil => exact (List.eq_nil_of_length_eq_zero length.symm).symm
  | cons digit rest ih =>
      cases right with
      | nil => cases length
      | cons digit' rest' =>
          obtain ⟨small, others⟩ := List.forall_mem_cons.mp below
          obtain ⟨small', others'⟩ := List.forall_mem_cons.mp below'
          have tails : rest.length = rest'.length := Nat.succ.inj length
          have bound := ofDigits_lt others
          have bound' := ofDigits_lt others'
          rw [ofDigits, ofDigits, ← tails] at same
          rw [← tails] at bound'
          have positive : 0 < base ^ rest.length := Nat.zero_lt_of_lt bound
          have heads : digit = digit' := by
            have quotient := congrArg (· / base ^ rest.length) same
            simpa [Nat.mul_comm _ (base ^ rest.length), Nat.mul_add_div positive,
              Nat.div_eq_of_lt bound, Nat.div_eq_of_lt bound'] using quotient
          rw [heads] at same
          rw [heads, ih tails others others' (Nat.add_left_cancel same)]

/-- The last digit is not touched by a remainder further up. -/
theorem mul_add_mod_mul {digit base : Nat} (small : digit < base) (value bound : Nat) :
    (value * base + digit) % (bound * base) = value % bound * base + digit := by
  rw [Nat.mul_comm bound, Nat.mod_mul, Nat.mul_add_mod_of_lt small, Nat.mul_comm value,
    Nat.mul_add_div (Nat.zero_lt_of_lt small), Nat.div_eq_of_lt small, Nat.add_zero,
    Nat.add_comm, Nat.mul_comm base]

/-! ## Bits in a word -/

/-- The number in the low bits of a buffer. -/
def waiting (buf : UInt32) (nbits : Nat) : Nat := buf.toNat % 2 ^ nbits

theorem waiting_lt (buf : UInt32) (nbits : Nat) : waiting buf nbits < 2 ^ nbits :=
  Nat.mod_lt _ (Nat.two_pow_pos nbits)

theorem waiting_zero (buf : UInt32) : waiting buf 0 = 0 := Nat.mod_one _

theorem shift_amount {width : Nat} (narrow : width < 32) :
    (UInt32.ofNat width).toNat % 32 = width := by
  rw [UInt32.toNat_ofNat', Nat.mod_eq_of_lt (Nat.lt_of_lt_of_le narrow (by decide)),
    Nat.mod_eq_of_lt narrow]

/-- A digit that is shifted in waits behind the others. -/
theorem waiting_shiftIn (buf : UInt32) {digit : UInt32} (nbits width : Nat)
    (room : nbits + width ≤ 32) (narrow : width < 32) (small : digit.toNat < 2 ^ width) :
    waiting (buf <<< .ofNat width ||| digit) (nbits + width) =
      waiting buf nbits * 2 ^ width + digit.toNat := by
  have word : (2 : Nat) ^ 32 = 2 ^ (32 - width) * 2 ^ width := by
    rw [← Nat.pow_add, Nat.sub_add_cancel narrow.le]
  have shifted : (buf <<< .ofNat width).toNat = (buf.toNat % 2 ^ (32 - width)) <<< width := by
    rw [UInt32.toNat_shiftLeft, shift_amount narrow, Nat.shiftLeft_eq, Nat.shiftLeft_eq, word,
      Nat.mul_mod_mul_right]
  have inside : 2 ^ nbits ∣ 2 ^ (32 - width) := Nat.pow_dvd_pow 2 (by omega)
  rw [waiting, UInt32.toNat_or, shifted, ← Nat.shiftLeft_add_eq_or_of_lt small, Nat.shiftLeft_eq,
    Nat.pow_add, mul_add_mod_mul small, Nat.mod_mod_of_dvd _ inside, waiting]

/-- The bits above `left` are what a shift brings down. -/
theorem waiting_shiftOut (buf : UInt32) {left : Nat} (width : Nat) (inside : left < 32) :
    waiting (buf >>> .ofNat left) width * 2 ^ left + waiting buf left =
      waiting buf (left + width) := by
  rw [waiting, waiting, waiting, UInt32.toNat_shiftRight, shift_amount inside,
    Nat.shiftRight_eq_div_pow, Nat.pow_add, Nat.mod_mul]
  ring

end LinkP2p.Lib.Digits
