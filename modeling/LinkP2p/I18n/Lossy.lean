import LinkP2p.Identity.KeyFile

/-!
# Bytes as text

What is not UTF-8 is read with losses: the bytes that begin a character and do not end it
become one replacement character.
-/

namespace LinkP2p.I18n

open LinkP2p.Identity (Text utf8Decode utf8Decode_utf8Encode utf8Encode)

/-- The ranges of the bytes that continue a character, by its first byte. -/
def tails (lead : UInt8) : List (Nat × Nat) :=
  let b := lead.toNat
  let any := (0x80, 0xbf)
  if b < 0xc2 then []
  else if b < 0xe0 then [any]
  else if b = 0xe0 then [(0xa0, 0xbf), any]
  else if b = 0xed then [(0x80, 0x9f), any]
  else if b < 0xf0 then [any, any]
  else if b = 0xf0 then [(0x90, 0xbf), any, any]
  else if b < 0xf4 then [any, any, any]
  else if b = 0xf4 then [(0x80, 0x8f), any, any]
  else []

/-- How many bytes continue the character. -/
def follow : List (Nat × Nat) → List UInt8 → Nat
  | (low, high) :: ranges, b :: rest =>
      if low ≤ b.toNat ∧ b.toNat ≤ high then follow ranges rest + 1 else 0
  | _, _ => 0

/-- `String::from_utf8_lossy` -/
def fromUtf8Lossy : List UInt8 → Text
  | [] => []
  | lead :: rest =>
      let n := follow (tails lead) rest
      (utf8Decode (lead :: rest.take n)).getD ['\ufffd'] ++ fromUtf8Lossy (rest.drop n)
termination_by bytes => bytes.length
decreasing_by
  rw [List.length_cons, List.length_drop]
  omega

theorem follow_cons {low high : Nat} {b : UInt8} (above : low ≤ b.toNat) (below : b.toNat ≤ high)
    (ranges : List (Nat × Nat)) (rest : List UInt8) :
    follow ((low, high) :: ranges) (b :: rest) = follow ranges rest + 1 := by
  rw [follow, if_pos ⟨above, below⟩]

theorem follow_nil (rest : List UInt8) : follow [] rest = 0 := by
  rw [follow]
  exact nofun

theorem toNat_ofNat {n : Nat} (small : n < 256) : (UInt8.ofNat n).toNat = n := by
  rw [UInt8.toNat_ofNat', Nat.mod_eq_of_lt small]

/-- A byte that continues a character is in the widest range. -/
theorem trail_range (v : Nat) :
    0x80 ≤ (UInt8.ofNat (v % 0x40 + 0x80)).toNat ∧
      (UInt8.ofNat (v % 0x40 + 0x80)).toNat ≤ 0xbf := by
  rw [toNat_ofNat (by omega)]
  omega

/-- The first byte of a character says how many follow. -/
theorem follow_encoded (c : Char) :
    ∃ lead others, String.utf8EncodeChar c = lead :: others ∧
      ∀ rest, follow (tails lead) (others ++ rest) = others.length := by
  have valid : c.val.toNat < 0xd800 ∨ 0xdfff < c.val.toNat ∧ c.val.toNat < 0x110000 := c.valid
  rw [String.utf8EncodeChar]
  generalize c.val.toNat = v at valid
  split
  · refine ⟨_, _, rfl, fun rest => ?_⟩
    rw [tails, toNat_ofNat (by omega)]
    rw [if_pos (by omega), follow_nil]
    rfl
  · split
    · obtain ⟨above, below⟩ := trail_range v
      refine ⟨_, _, rfl, fun rest => ?_⟩
      rw [tails, toNat_ofNat (by omega)]
      rw [if_neg (by omega), if_pos (by omega), List.cons_append, follow_cons above below,
        follow_nil]
      rfl
    · split
      · obtain ⟨above, below⟩ := trail_range v
        refine ⟨_, _, rfl, fun rest => ?_⟩
        rw [tails, toNat_ofNat (by omega)]
        rw [if_neg (by omega), if_neg (by omega), List.cons_append, List.cons_append]
        have second := toNat_ofNat (show v / 64 % 0x40 + 0x80 < 256 by omega)
        split_ifs <;>
          first
          | omega
          | rw [follow_cons (by omega) (by omega), follow_cons above below, follow_nil]
            rfl
      · obtain ⟨above, below⟩ := trail_range v
        obtain ⟨above', below'⟩ := trail_range (v / 64)
        refine ⟨_, _, rfl, fun rest => ?_⟩
        rw [tails, toNat_ofNat (by omega)]
        rw [if_neg (by omega), if_neg (by omega), if_neg (by omega), if_neg (by omega),
          if_neg (by omega), List.cons_append, List.cons_append, List.cons_append]
        have second := toNat_ofNat (show v / 4096 % 0x40 + 0x80 < 256 by omega)
        split_ifs <;>
          first
          | omega
          | rw [follow_cons (by omega) (by omega), follow_cons above' below',
              follow_cons above below, follow_nil]
            rfl

/-- Text is read as it was written. -/
theorem fromUtf8Lossy_utf8Encode (text : Text) : fromUtf8Lossy (utf8Encode text) = text := by
  induction text with
  | nil => rw [utf8Encode, List.flatMap_nil, fromUtf8Lossy]
  | cons c text ih =>
      obtain ⟨lead, others, encoded, count⟩ := follow_encoded c
      have char := utf8Decode_utf8Encode [c]
      rw [utf8Encode, List.flatMap_singleton, encoded] at char
      rw [utf8Encode, List.flatMap_cons, encoded, List.cons_append, fromUtf8Lossy, count,
        List.take_left, List.drop_left, char, ← utf8Encode, ih]
      rfl

end LinkP2p.I18n
