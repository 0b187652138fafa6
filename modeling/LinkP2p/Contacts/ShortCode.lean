import LinkP2p.Contacts.Book
import LinkP2p.Lib.Digits
import LinkP2p.Tun.RosterCodec

/-!
# Short codes

`encode_crockford` cuts the bits of an id into letters of five bits, the last one filled
up with zeros, and `decode_crockford` puts them together again. Both work on a word in
which the bits already written stay behind.
-/

namespace LinkP2p.Contacts

open LinkP2p.Identity (Text utf8Encode utf8Decode utf8Decode_utf8Encode)
open LinkP2p.Lib.Bytes LinkP2p.Lib.Digits
open LinkP2p.Tun (EndpointId)
open LinkP2p.Tun.RosterCodec (asBytes)

/-! ## The encoder -/

/-- `CROCKFORD[idx] as char` -/
def symbol (idx : Nat) : Char := .ofNat (crockford.getD idx 0).toNat

/-- The inner loop of `encode_crockford`: the letters that are full, and how many bits are
left. -/
def drain (buf : UInt32) : Nat → Text × Nat
  | nbits + 5 =>
      let rest := drain buf nbits
      (symbol ((buf >>> .ofNat nbits) &&& 0x1f).toNat :: rest.1, rest.2)
  | nbits => ([], nbits)

/-- The loop of `encode_crockford` over the bytes. -/
def encodeBits : UInt32 → Nat → List UInt8 → Text
  | buf, nbits, [] =>
      if 0 < nbits then [symbol ((buf <<< .ofNat (5 - nbits)) &&& 0x1f).toNat] else []
  | buf, nbits, b :: rest =>
      let buf := buf <<< 8 ||| b.toUInt32
      let (out, nbits) := drain buf (nbits + 8)
      out ++ encodeBits buf nbits rest

def encodeCrockford (data : List UInt8) : Text := encodeBits 0 0 data

/-- `chunks(4)` -/
def chunks {α : Type} : List α → List (List α)
  | a :: b :: c :: d :: rest => [a, b, c, d] :: chunks rest
  | [] => []
  | short => [short]

def encodeShortCode (id : EndpointId) : Text :=
  let raw := encodeCrockford (asBytes id)
  let withCheck := raw ++ [Char.ofNat (checkSymbol (asBytes id)).toNat]
  ['-'].intercalate ((chunks (utf8Encode withCheck)).map fun c => (utf8Decode c).getD [])

/-! ## What the encoder writes -/

/-- The text is so many letters of five bits, which denote the value. -/
def Writes (text : Text) (count value : Nat) : Prop :=
  ∃ digits, text = digits.map symbol ∧ digits.length = count ∧ (∀ digit ∈ digits, digit < 32) ∧
    ofDigits 32 digits = value

theorem Writes.nil : Writes [] 0 0 := ⟨[], rfl, rfl, List.forall_mem_nil _, rfl⟩

theorem Writes.letter {digit : Nat} (small : digit < 32) : Writes [symbol digit] 1 digit :=
  ⟨[digit], rfl, rfl, List.forall_mem_singleton.mpr small, by simp [ofDigits]⟩

theorem Writes.append {front back : Text} {m n high low : Nat} (first : Writes front m high)
    (second : Writes back n low) : Writes (front ++ back) (m + n) (high * 32 ^ n + low) := by
  obtain ⟨ds, rfl, rfl, below, rfl⟩ := first
  obtain ⟨es, rfl, rfl, below', rfl⟩ := second
  exact ⟨ds ++ es, List.map_append.symm, List.length_append,
    fun digit member => (List.mem_append.mp member).elim (below digit) (below' digit),
    ofDigits_append 32 ds es⟩

theorem and_five (buf : UInt32) : (buf &&& 0x1f).toNat = waiting buf 5 := by
  rw [UInt32.toNat_and]
  exact Nat.and_two_pow_sub_one_eq_mod buf.toNat 5

/-- Letters of five bits and bytes of eight, behind bits of one. -/
theorem bits_eq {low letters high bytes : Nat} (size : low + 5 * letters = high + 8 * bytes) :
    2 ^ low * 32 ^ letters = 2 ^ high * 256 ^ bytes := by
  rw [show 32 = 2 ^ 5 from rfl, show 256 = 2 ^ 8 from rfl, ← Nat.pow_mul, ← Nat.pow_mul,
    ← Nat.pow_add, ← Nat.pow_add, size]

/-- Less than a letter is left, and the letters are the bits above it. -/
theorem drain_spec (buf : UInt32) (nbits : Nat) (room : nbits ≤ 32) :
    ∃ count value, Writes (drain buf nbits).1 count value ∧
      nbits = 5 * count + (drain buf nbits).2 ∧ (drain buf nbits).2 < 5 ∧
        waiting buf nbits = value * 2 ^ (drain buf nbits).2 + waiting buf (drain buf nbits).2 := by
  induction nbits using drain.induct buf with
  | case1 nbits ih =>
      obtain ⟨count, value, writes, size, few, split⟩ := ih (by omega)
      have letter := Writes.letter (waiting_lt (buf >>> .ofNat nbits) 5)
      have bits := waiting_shiftOut buf 5 (show nbits < 32 by omega)
      have scale := bits_eq (show (drain buf nbits).2 + 5 * count = nbits + 8 * 0 by omega)
      rw [Nat.pow_zero, Nat.mul_one] at scale
      rw [← and_five] at letter bits
      refine ⟨1 + count, _, letter.append writes, ?_, few, ?_⟩
      · show nbits + 5 = 5 * (1 + count) + (drain buf nbits).2
        omega
      · show waiting buf (nbits + 5) = _ * 2 ^ (drain buf nbits).2 + waiting buf (drain buf nbits).2
        rw [← bits, split, ← scale]
        ring
  | case2 nbits few =>
      have short : nbits < 5 := by
        by_contra long
        exact few (nbits - 5) (by omega)
      have stays : drain buf nbits = ([], nbits) := by
        rw [drain]
        exact few
      rw [stays]
      exact ⟨0, 0, .nil, (Nat.zero_add nbits).symm, short, by rw [Nat.zero_mul, Nat.zero_add]⟩

theorem waiting_byte (buf : UInt32) {nbits : Nat} (few : nbits < 5) (b : UInt8) :
    waiting (buf <<< 8 ||| b.toUInt32) (nbits + 8) = waiting buf nbits * 256 + b.toNat := by
  have small : b.toUInt32.toNat < 2 ^ 8 := by
    rw [UInt8.toNat_toUInt32]
    exact b.toNat_lt
  rw [← UInt8.toNat_toUInt32]
  exact waiting_shiftIn buf nbits 8 (by omega) (by omega) small

/-- The bits that are left at the end are filled up to a letter. -/
theorem waiting_filled (buf : UInt32) {nbits : Nat} (waits : 0 < nbits) (few : nbits < 5) :
    waiting (buf <<< .ofNat (5 - nbits)) 5 = waiting buf nbits * 2 ^ (5 - nbits) := by
  have zeros : (0 : UInt32).toNat < 2 ^ (5 - nbits) := Nat.two_pow_pos _
  have filled := waiting_shiftIn buf nbits (5 - nbits) (by omega) (by omega) zeros
  rw [UInt32.or_zero, Nat.add_sub_cancel' few.le] at filled
  exact filled

/-- The letters denote what waits, then the bytes, then zeros up to a full letter. -/
theorem encodeBits_spec (bytes : List UInt8) (buf : UInt32) (nbits : Nat) (few : nbits < 5) :
    ∃ count pad, Writes (encodeBits buf nbits bytes) count
        ((waiting buf nbits * 256 ^ bytes.length + ofBytes bytes) * 2 ^ pad) ∧
      5 * count = nbits + 8 * bytes.length + pad ∧ pad < 5 := by
  induction bytes generalizing buf nbits with
  | nil =>
      rw [encodeBits]
      by_cases waits : 0 < nbits
      · have filled := waiting_filled buf waits few
        have letter := Writes.letter (waiting_lt (buf <<< .ofNat (5 - nbits)) 5)
        rw [filled] at letter
        refine ⟨1, 5 - nbits, ?_, ?_, by omega⟩
        · rw [if_pos waits, and_five, filled, ofBytes, List.length_nil, Nat.pow_zero, Nat.mul_one]
          exact letter
        · rw [List.length_nil]
          omega
      · have empty : nbits = 0 := by omega
        subst empty
        rw [if_neg waits, waiting_zero]
        exact ⟨0, 0, .nil, rfl, by omega⟩
  | cons b rest ih =>
      have taken := waiting_byte buf few b
      rw [encodeBits]
      dsimp only
      generalize buf <<< 8 ||| b.toUInt32 = next at taken ⊢
      obtain ⟨m, value, writes, size, left, split⟩ := drain_spec next (nbits + 8) (by omega)
      generalize drain next (nbits + 8) = drained at writes size left split ⊢
      obtain ⟨n, pad, others, total, bound⟩ := ih next drained.2 left
      have scale := bits_eq (show 0 + 5 * n = drained.2 + pad + 8 * rest.length by omega)
      rw [Nat.pow_zero, Nat.one_mul, Nat.pow_add] at scale
      have denoted : (waiting buf nbits * 256 ^ (b :: rest).length + ofBytes (b :: rest)) *
          2 ^ pad = value * 32 ^ n +
            (waiting next drained.2 * 256 ^ rest.length + ofBytes rest) * 2 ^ pad := by
        calc (waiting buf nbits * 256 ^ (b :: rest).length + ofBytes (b :: rest)) * 2 ^ pad
            = (waiting next (nbits + 8) * 256 ^ rest.length + ofBytes rest) * 2 ^ pad := by
              rw [taken, ofBytes, List.length_cons]
              ring
          _ = _ := by
              rw [split, scale]
              ring
      refine ⟨m + n, pad, ?_, ?_, bound⟩
      · rw [denoted]
        exact writes.append others
      · rw [List.length_cons]
        omega

/-! ## What the decoder reads -/

/-- Each letter stands for its place in the alphabet. -/
theorem idxOf_symbol : ∀ digit < 32,
    crockford.idxOf? (.ofNat (symbol digit).toUpper.toNat) = some digit := by
  decide

theorem waiting_letter (buf : UInt32) {nbits digit : Nat} (few : nbits < 8) (small : digit < 32) :
    waiting (buf <<< 5 ||| .ofNat digit) (nbits + 5) = waiting buf nbits * 32 + digit := by
  have value : (UInt32.ofNat digit).toNat = digit := by
    rw [UInt32.toNat_ofNat', Nat.mod_eq_of_lt (Nat.lt_trans small (by decide))]
  have shifted := waiting_shiftIn buf nbits 5 (by omega) (by omega) (value ▸ small)
  rw [value] at shifted
  exact shifted

/-- A full byte is the bits above what is left. -/
theorem waiting_full (buf : UInt32) {nbits : Nat} (full : 8 ≤ nbits) (few : nbits < 32) :
    waiting buf nbits = (buf >>> .ofNat (nbits - 8)).toUInt8.toNat * 2 ^ (nbits - 8) +
      waiting buf (nbits - 8) := by
  have bits := waiting_shiftOut buf 8 (show nbits - 8 < 32 by omega)
  rw [Nat.sub_add_cancel full] at bits
  rw [← bits]
  exact congrArg (· * 2 ^ (nbits - 8) + waiting buf (nbits - 8)) (UInt32.toNat_toUInt8 _).symm

/-- The bytes are the bits that wait and those of the letters, up to the last full byte. -/
theorem decodeBits_spec (digits : List Nat) (below : ∀ digit ∈ digits, digit < 32) (buf : UInt32)
    (nbits : Nat) (few : nbits < 8) :
    ∃ bytes left rest, decodeBits buf nbits (digits.map symbol) = .ok bytes ∧
      nbits + 5 * digits.length = 8 * bytes.length + left ∧ left < 8 ∧ rest < 2 ^ left ∧
        waiting buf nbits * 32 ^ digits.length + ofDigits 32 digits =
          ofBytes bytes * 2 ^ left + rest := by
  induction digits generalizing buf nbits with
  | nil =>
      refine ⟨[], nbits, waiting buf nbits, rfl, ?_, few, waiting_lt buf nbits, ?_⟩
      · rw [List.length_nil, List.length_nil]
        omega
      · simp [ofDigits, ofBytes]
  | cons digit rest ih =>
      obtain ⟨small, others⟩ := List.forall_mem_cons.mp below
      have taken := waiting_letter buf few small
      rw [List.map_cons, decodeBits, idxOf_symbol digit small]
      dsimp only
      generalize buf <<< 5 ||| UInt32.ofNat digit = next at taken ⊢
      by_cases full : 8 ≤ nbits + 5
      · obtain ⟨bytes, left, last, decoded, size, bound, inside, denoted⟩ :=
          ih others next (nbits + 5 - 8) (by omega)
        have byte := waiting_full next full (by omega)
        have scale := bits_eq (size.trans (Nat.add_comm _ _))
        rw [if_pos full, decoded]
        refine ⟨_, left, last, rfl, ?_, bound, inside, ?_⟩
        · rw [List.length_cons, List.length_cons]
          omega
        · calc waiting buf nbits * 32 ^ (digit :: rest).length + ofDigits 32 (digit :: rest)
              = waiting next (nbits + 5) * 32 ^ rest.length + ofDigits 32 rest := by
                rw [taken, List.length_cons, ofDigits]
                ring
            _ = (next >>> .ofNat (nbits + 5 - 8)).toUInt8.toNat *
                  (2 ^ (nbits + 5 - 8) * 32 ^ rest.length) + (ofBytes bytes * 2 ^ left + last) := by
                rw [byte, ← denoted]
                ring
            _ = _ := by
                rw [scale, ofBytes]
                ring
      · obtain ⟨bytes, left, last, decoded, size, bound, inside, denoted⟩ :=
          ih others next (nbits + 5) (by omega)
        rw [if_neg full]
        refine ⟨bytes, left, last, decoded, ?_, bound, inside, ?_⟩
        · rw [List.length_cons]
          omega
        · rw [← denoted, taken, List.length_cons, ofDigits]
          ring

/-- The full bytes that digits of five bits hold. -/
def unpack (digits : List Nat) : List UInt8 :=
  toBytes (5 * digits.length / 8) (ofDigits 32 digits / 2 ^ (5 * digits.length % 8))

theorem unpack_eq {digits : List Nat} {bytes : List UInt8} {left rest : Nat}
    (size : 5 * digits.length = 8 * bytes.length + left) (bound : left < 8)
    (inside : rest < 2 ^ left) (denoted : ofDigits 32 digits = ofBytes bytes * 2 ^ left + rest) :
    unpack digits = bytes := by
  have full : 5 * digits.length / 8 = bytes.length := by omega
  have spare : 5 * digits.length % 8 = left := by omega
  have value : ofDigits 32 digits / 2 ^ left = ofBytes bytes := by
    rw [denoted, Nat.mul_comm, Nat.mul_add_div (Nat.two_pow_pos left), Nat.div_eq_of_lt inside,
      Nat.add_zero]
  rw [unpack, full, spare, value, toBytes_ofBytes]

/-- What is decoded, and what is left over of the letters. -/
theorem unpack_spec {digits : List Nat} (below : ∀ digit ∈ digits, digit < 32) :
    ∃ left rest, decodeCrockford (digits.map symbol) = .ok (unpack digits) ∧
      5 * digits.length = 8 * (unpack digits).length + left ∧ left < 8 ∧
        rest < 2 ^ left ∧ ofDigits 32 digits = ofBytes (unpack digits) * 2 ^ left + rest := by
  obtain ⟨bytes, left, rest, decoded, size, bound, inside, denoted⟩ :=
    decodeBits_spec digits below 0 0 (by decide)
  rw [waiting_zero, Nat.zero_mul, Nat.zero_add] at denoted
  rw [Nat.zero_add] at size
  rw [unpack_eq size bound inside denoted]
  exact ⟨left, rest, decoded, size, bound, inside, denoted⟩

theorem decodeCrockford_symbols {digits : List Nat} (below : ∀ digit ∈ digits, digit < 32) :
    decodeCrockford (digits.map symbol) = .ok (unpack digits) := by
  obtain ⟨_, _, decoded, -⟩ := unpack_spec below
  exact decoded

/-- Eight letters are five bytes, so groups of eight are read apart. -/
theorem unpack_append {front back : List Nat} (below : ∀ digit ∈ front, digit < 32)
    (below' : ∀ digit ∈ back, digit < 32) (aligned : front.length % 8 = 0) :
    unpack (front ++ back) = unpack front ++ unpack back := by
  obtain ⟨left, rest, -, size, bound, inside, denoted⟩ := unpack_spec below
  obtain ⟨left', rest', -, size', bound', inside', denoted'⟩ := unpack_spec below'
  have whole : left = 0 := by omega
  subst whole
  have scale := bits_eq (show 0 + 5 * back.length = left' + 8 * (unpack back).length by omega)
  rw [Nat.pow_zero, Nat.one_mul] at scale
  refine unpack_eq ?_ bound' inside' ?_
  · rw [List.length_append, List.length_append]
    omega
  · rw [ofDigits_append, ofBytes_append, denoted, denoted', scale, Nat.lt_one_iff.mp inside]
    ring

/-- The letters of the bytes denote them and the zeros behind. -/
theorem encodeCrockford_digits (bytes : List UInt8) :
    ∃ digits pad, encodeCrockford bytes = digits.map symbol ∧ (∀ digit ∈ digits, digit < 32) ∧
      5 * digits.length = 8 * bytes.length + pad ∧ pad < 5 ∧
        ofDigits 32 digits = ofBytes bytes * 2 ^ pad ∧ unpack digits = bytes := by
  obtain ⟨count, pad, ⟨digits, written, length, below, denoted⟩, size, bound⟩ :=
    encodeBits_spec bytes 0 0 (by decide)
  rw [waiting_zero, Nat.zero_mul, Nat.zero_add] at denoted
  rw [Nat.zero_add, ← length] at size
  exact ⟨digits, pad, written, below, size, bound, denoted,
    unpack_eq size (by omega) (Nat.two_pow_pos pad) denoted⟩

/-- The 52 letters of an id, the last of which has four zeros. -/
theorem encodeCrockford_id {bytes : List UInt8} (full : bytes.length = 32) :
    ∃ digits, encodeCrockford bytes = digits.map symbol ∧ (∀ digit ∈ digits, digit < 32) ∧
      digits.length = 52 ∧ ofDigits 32 digits = ofBytes bytes * 2 ^ 4 ∧
        unpack digits = bytes := by
  obtain ⟨digits, pad, written, below, size, bound, denoted, unpacked⟩ :=
    encodeCrockford_digits bytes
  have zeros : pad = 4 := by omega
  rw [zeros] at denoted
  exact ⟨digits, written, below, by omega, denoted, unpacked⟩

/-! ## The grouped code -/

theorem flatten_chunks {α : Type} (items : List α) : (chunks items).flatten = items := by
  induction items using chunks.induct with
  | case1 a b c d rest ih =>
      rw [chunks, List.flatten_cons, ih]
      rfl
  | case2 => rfl
  | case3 short long nonempty =>
      rw [chunks]
      · exact List.append_nil short
      · exact long
      · exact nonempty

theorem chunks_map {α β : Type} (f : α → β) (items : List α) :
    chunks (items.map f) = (chunks items).map (List.map f) := by
  induction items using chunks.induct with
  | case1 a b c d rest ih => exact congrArg (List.map f [a, b, c, d] :: ·) ih
  | case2 => rfl
  | case3 short long nonempty =>
      match short with
      | [] => rfl
      | [_] => rfl
      | [_, _] => rfl
      | [_, _, _] => rfl
      | a :: b :: c :: d :: rest => exact absurd rfl (long a b c d rest)

/-- A letter is one byte. -/
theorem utf8Encode_symbols {digits : List Nat} (below : ∀ digit ∈ digits, digit < 32) :
    utf8Encode (digits.map symbol) = digits.map fun digit => crockford.getD digit 0 := by
  have letter : ∀ digit < 32,
      String.utf8EncodeChar (symbol digit) = [crockford.getD digit 0] := by decide
  induction digits with
  | nil => rfl
  | cons digit rest ih =>
      obtain ⟨small, others⟩ := List.forall_mem_cons.mp below
      rw [List.map_cons, List.map_cons, ← ih others, utf8Encode, List.flatMap_cons,
        letter digit small]
      rfl

/-- No group of bytes cuts a letter. -/
theorem decode_chunks {digits : List Nat} (below : ∀ digit ∈ digits, digit < 32) :
    ((chunks (utf8Encode (digits.map symbol))).map fun c => (utf8Decode c).getD []) =
      chunks (digits.map symbol) := by
  rw [utf8Encode_symbols below, chunks_map, chunks_map, List.map_map]
  refine List.map_congr_left fun group member => ?_
  have inside : ∀ digit ∈ group, digit < 32 := by
    intro digit within
    refine below digit ?_
    rw [← flatten_chunks digits]
    exact List.mem_flatten_of_mem member within
  rw [Function.comp_apply, ← utf8Encode_symbols inside, utf8Decode_utf8Encode, Option.getD_some]

/-- The place of the check symbol in the alphabet. -/
def checkValue (data : List UInt8) : Nat :=
  ((data.foldl (fun x b => x * 31 + b.toUInt32) 0 : UInt32) % 32).toNat

theorem checkValue_lt (data : List UInt8) : checkValue data < 32 := by
  rw [checkValue, UInt32.toNat_mod]
  exact Nat.mod_lt _ (by decide)

end LinkP2p.Contacts
