import Mathlib.Data.Nat.ModEq

/-!
# Big-endian byte strings

Fixed-width numbers as the byte strings that network formats write.
-/

namespace LinkP2p.Lib.Bytes

/-- The number that a big-endian byte string denotes. -/
def ofBytes : List UInt8 → Nat
  | [] => 0
  | byte :: rest => byte.toNat * 256 ^ rest.length + ofBytes rest

/-- The low `width` bytes of a number, most significant first. -/
def toBytes : Nat → Nat → List UInt8
  | 0, _ => []
  | width + 1, value => UInt8.ofNat (value / 256 ^ width) :: toBytes width value

@[simp]
theorem length_toBytes (width value : Nat) : (toBytes width value).length = width := by
  induction width with
  | zero => rfl
  | succ width ih => rw [toBytes, List.length_cons, ih]

theorem ofBytes_toBytes (width value : Nat) :
    ofBytes (toBytes width value) = value % 256 ^ width := by
  induction width with
  | zero => rw [toBytes, ofBytes, Nat.pow_zero, Nat.mod_one]
  | succ width ih =>
      have digit : (UInt8.ofNat (value / 256 ^ width)).toNat = value / 256 ^ width % 256 :=
        UInt8.toNat_ofNat'
      rw [toBytes, ofBytes, ih, length_toBytes, digit, Nat.mod_pow_succ, Nat.add_comm,
        Nat.mul_comm]

theorem ofBytes_lt (bytes : List UInt8) : ofBytes bytes < 256 ^ bytes.length := by
  induction bytes with
  | nil => exact Nat.one_pos
  | cons byte rest ih =>
      have digit : byte.toNat < 256 := byte.toNat_lt
      rw [ofBytes, List.length_cons, Nat.pow_succ]
      calc byte.toNat * 256 ^ rest.length + ofBytes rest
          < byte.toNat * 256 ^ rest.length + 256 ^ rest.length := Nat.add_lt_add_left ih _
        _ = (byte.toNat + 1) * 256 ^ rest.length := (Nat.succ_mul _ _).symm
        _ ≤ 256 * 256 ^ rest.length := Nat.mul_le_mul_right _ digit
        _ = 256 ^ rest.length * 256 := Nat.mul_comm _ _

theorem ofBytes_append (front back : List UInt8) :
    ofBytes (front ++ back) = ofBytes front * 256 ^ back.length + ofBytes back := by
  induction front with
  | nil => rw [List.nil_append, ofBytes, Nat.zero_mul, Nat.zero_add]
  | cons byte front ih =>
      rw [List.cons_append, ofBytes, ofBytes, ih, List.length_append, Nat.pow_add, Nat.add_mul,
        Nat.mul_assoc, Nat.add_assoc]

/-- Only the low bytes of a number are written. -/
theorem toBytes_add {width k : Nat} (low : width ≤ k) (c value : Nat) :
    toBytes width (256 ^ k * c + value) = toBytes width value := by
  induction width with
  | zero => rfl
  | succ width ih =>
      obtain ⟨rest, rfl⟩ := Nat.exists_eq_add_of_le low
      have split : 256 ^ (width + 1 + rest) * c = 256 ^ width * (256 * (256 ^ rest * c)) := by
        rw [Nat.pow_add, Nat.pow_succ]
        simp only [Nat.mul_assoc]
      have digit : UInt8.ofNat ((256 ^ (width + 1 + rest) * c + value) / 256 ^ width) =
          UInt8.ofNat (value / 256 ^ width) := by
        rw [split, Nat.mul_add_div (Nat.pow_pos (by decide))]
        apply UInt8.toNat_inj.mp
        rw [UInt8.toNat_ofNat', UInt8.toNat_ofNat', Nat.mul_add_mod]
      rw [toBytes, toBytes, digit, ih (Nat.le_of_succ_le low)]

theorem toBytes_ofBytes (bytes : List UInt8) : toBytes bytes.length (ofBytes bytes) = bytes := by
  induction bytes with
  | nil => rfl
  | cons byte rest ih =>
      have digit : (byte.toNat * 256 ^ rest.length + ofBytes rest) / 256 ^ rest.length =
          byte.toNat := by
        rw [Nat.mul_comm, Nat.mul_add_div (Nat.pow_pos (by decide)),
          Nat.div_eq_of_lt (ofBytes_lt rest), Nat.add_zero]
      rw [List.length_cons, ofBytes, toBytes, digit, UInt8.ofNat_toNat, Nat.mul_comm,
        toBytes_add (Nat.le_refl _), ih]

/-- The leading bytes of a number are those of a quotient. -/
theorem toBytes_append (high low value : Nat) :
    toBytes (high + low) value = toBytes high (value / 256 ^ low) ++ toBytes low value := by
  induction high with
  | zero => rw [Nat.zero_add, toBytes, List.nil_append]
  | succ high ih =>
      rw [Nat.succ_add, toBytes, toBytes, ih, List.cons_append, Nat.div_div_eq_div_mul,
        ← Nat.pow_add, Nat.add_comm low high]

theorem getD_toBytes {width i : Nat} (inside : i < width) (value : Nat) :
    ((toBytes width value).getD i 0).toNat = value / 256 ^ (width - 1 - i) % 256 := by
  induction width generalizing i with
  | zero => exact absurd inside (Nat.not_lt_zero i)
  | succ width ih =>
      cases i with
      | zero => exact UInt8.toNat_ofNat'
      | succ i =>
          rw [toBytes, List.getD_cons_succ, ih (Nat.lt_of_succ_lt_succ inside)]
          congr 3
          omega

theorem toBytes_eq_iff {bytes : List UInt8} {width value : Nat} (length : bytes.length = width) :
    toBytes width value = bytes ↔ value % 256 ^ width = ofBytes bytes := by
  rw [← ofBytes_toBytes]
  constructor
  · intro same
    rw [same]
  · intro same
    have back := toBytes_ofBytes (toBytes width value)
    rw [length_toBytes, same, ← length, toBytes_ofBytes] at back
    rw [← length, ← back]

/-- `bytes[from .. from + count]` -/
def slice (bytes : List UInt8) (start count : Nat) : List UInt8 :=
  (bytes.drop start).take count

/-- The slice right after a prefix of known length. -/
theorem slice_append {before middle : List UInt8} {start count : Nat}
    (offset : before.length = start) (width : middle.length = count) (after : List UInt8) :
    slice (before ++ middle ++ after) start count = middle := by
  rw [slice, ← offset, List.append_assoc, List.drop_left, ← width, List.take_left]

theorem slice_suffix {before last : List UInt8} {start count : Nat}
    (offset : before.length = start) (width : last.length = count) :
    slice (before ++ last) start count = last := by
  have padded := slice_append offset width []
  rw [List.append_nil] at padded
  exact padded

end LinkP2p.Lib.Bytes
