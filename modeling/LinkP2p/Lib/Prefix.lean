import Mathlib.Data.Nat.Bitwise

/-!
# Blocks of an address space

A block is given by a base address and the number of leading bits that count.
Programs test for blocks with masks, with leading digits or by the digits of an
address; all of these compare one quotient.
-/

namespace LinkP2p.Lib.Prefix

variable {w : Nat}

structure Block (w : Nat) where
  base : BitVec w
  length : Nat

/-- The addresses that begin like the base. -/
def Block.Contains (block : Block w) (addr : BitVec w) : Prop :=
  addr.toNat / 2 ^ (w - block.length) = block.base.toNat / 2 ^ (w - block.length)

instance (block : Block w) (addr : BitVec w) : Decidable (block.Contains addr) :=
  inferInstanceAs (Decidable (_ = _))

/-- A block of full length is one address. -/
theorem contains_full (base addr : BitVec w) : Block.Contains ⟨base, w⟩ addr ↔ addr = base := by
  rw [Block.Contains, Nat.sub_self, Nat.pow_zero, Nat.div_one, Nat.div_one, BitVec.toNat_inj]

theorem toNat_append {v : Nat} (high : BitVec v) (low : BitVec w) :
    (high ++ low).toNat = high.toNat * 2 ^ w + low.toNat := by
  rw [BitVec.toNat_append, ← Nat.shiftLeft_add_eq_or_of_lt low.isLt, Nat.shiftLeft_eq]

/-- An address is cut in one way into leading and trailing bits. -/
theorem eq_append_iff {v : Nat} (addr : BitVec (v + w)) (high : BitVec v) (low : BitVec w) :
    addr = high ++ low ↔
      addr.toNat / 2 ^ w = high.toNat ∧ addr.toNat % 2 ^ w = low.toNat := by
  rw [← BitVec.toNat_inj, toNat_append]
  constructor
  · intro same
    rw [same, Nat.mul_comm, Nat.mul_add_div (Nat.two_pow_pos w), Nat.mul_add_mod,
      Nat.div_eq_of_lt low.isLt, Nat.mod_eq_of_lt low.isLt]
    exact ⟨rfl, rfl⟩
  · rintro ⟨quotient, remainder⟩
    rw [← quotient, ← remainder, Nat.div_add_mod']

/-- A mask of leading ones keeps the quotient. -/
theorem and_leading (addr : BitVec w) (low : Nat) :
    addr &&& (BitVec.allOnes w <<< low) = (addr >>> low) <<< low := by
  apply BitVec.eq_of_getLsbD_eq
  intro i inside
  simp only [BitVec.getLsbD_and, BitVec.getLsbD_shiftLeft, BitVec.getLsbD_allOnes,
    BitVec.getLsbD_ushiftRight]
  by_cases below : i < low
  · simp [below]
  · have position : low + (i - low) = i := Nat.add_sub_of_le (Nat.not_lt.mp below)
    simp [below, inside, position, Nat.lt_of_le_of_lt (Nat.sub_le i low) inside]

theorem and_leading_eq_iff {addr base : BitVec w} {low : Nat}
    (aligned : base.toNat % 2 ^ low = 0) :
    addr &&& (BitVec.allOnes w <<< low) = base ↔
      addr.toNat / 2 ^ low = base.toNat / 2 ^ low := by
  have small : addr.toNat / 2 ^ low * 2 ^ low < 2 ^ w :=
    Nat.lt_of_le_of_lt (Nat.div_mul_le_self _ _) addr.isLt
  have divides := Nat.div_mul_cancel (Nat.dvd_of_mod_eq_zero aligned)
  rw [and_leading, ← BitVec.toNat_inj, BitVec.toNat_shiftLeft, BitVec.toNat_ushiftRight,
    Nat.shiftLeft_eq, Nat.shiftRight_eq_div_pow, Nat.mod_eq_of_lt small]
  constructor
  · intro same
    rw [← same, Nat.mul_div_cancel _ (Nat.two_pow_pos low)]
  · intro same
    rw [same, divides]

end LinkP2p.Lib.Prefix
