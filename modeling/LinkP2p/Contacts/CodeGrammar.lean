import LinkP2p.Contacts.CheckSymbol
import Mathlib.Data.List.Forall2
import Mathlib.Data.List.GetD

/-!
# The grammar of short codes

What is taken for a code of an id is the code that the encoder writes, unless a character
beyond the first 256 is narrowed to a letter, or one of the last four bits is set, which
belong to no byte.
-/

namespace LinkP2p.Contacts

open LinkP2p.Identity (Text trim)
open LinkP2p.Lib.Bytes LinkP2p.Lib.Digits
open LinkP2p.Tun (EndpointId)
open LinkP2p.Tun.RosterCodec (asBytes asBytes_ofNat_ofBytes)

/-- The characters of `CROCKFORD` -/
def alphabet : Text := crockford.map fun b => .ofNat b.toNat

/-- `as_bytes` gives back what `from_bytes` has taken. -/
def KeepsBytes (iroh : Iroh) : Prop :=
  ∀ bytes id, bytes.length = 32 → iroh.fromBytes bytes = some id → asBytes id = bytes

/-- The token is no id and is taken for a code of the id. -/
def ReadsAs (iroh : Iroh) (token : Text) (id : EndpointId) : Prop :=
  iroh.parse (trim token) = none ∧ parseEndpointToken iroh token = .ok id

/-- The letters of a token, without a check symbol. -/
def payload (token : Text) : Text := (compact (trim token)).take 52

/-- The letters are of the alphabet, and those that the id is encoded as, with its check
symbol if there is one. -/
def WellFormed (token : Text) (id : EndpointId) : Prop :=
  (∀ c ∈ compact (trim token), c ∈ alphabet) ∧ payload token = encodeCrockford (asBytes id) ∧
    (compact (trim token) = payload token ∨
      compact (trim token) = payload token ++ [Char.ofNat (checkSymbol (asBytes id)).toNat])

/-- No letter is narrowed, and the last one has only its first bit. -/
def Exact (token : Text) : Prop :=
  (∀ c ∈ payload token, c.toNat < 256) ∧
    ((payload token).getLast? = some '0' ∨ (payload token).getLast? = some 'G')

instance (token : Text) : Decidable (Exact token) :=
  @instDecidableAnd _ _ (List.decidableBAll _ _) inferInstance

/-! ## Letters -/

/-- What `decode_crockford` takes a character for. -/
def Stands (c : Char) (digit : Nat) : Prop :=
  crockford.idxOf? (.ofNat c.toUpper.toNat) = some digit

theorem Stands.lt {c : Char} {digit : Nat} (stands : Stands c digit) : digit < 32 :=
  (List.idxOf?_eq_some_iff.mp stands).1

theorem Stands.toUpper {c : Char} {digit : Nat} (stands : Stands c digit)
    (narrow : c.toUpper.toNat < 256) : c.toUpper = symbol digit := by
  obtain ⟨inside, place, -⟩ := List.idxOf?_eq_some_iff.mp stands
  have code : (crockford.getD digit 0).toNat = c.toUpper.toNat := by
    rw [List.getD_eq_getElem _ _ inside, place, UInt8.toNat_ofNat', Nat.mod_eq_of_lt narrow]
  rw [symbol, code, Char.ofNat_toNat]

theorem mem_alphabet_iff {c : Char} : c ∈ alphabet ↔ ∃ digit < 32, c = symbol digit := by
  have listed : alphabet = (List.range 32).map symbol := by decide
  rw [listed, List.mem_map]
  constructor
  · rintro ⟨digit, inside, rfl⟩
    exact ⟨digit, List.mem_range.mp inside, rfl⟩
  · rintro ⟨digit, small, rfl⟩
    exact ⟨digit, List.mem_range.mpr small, rfl⟩

/-- Letters come out of the normalisation in upper case. -/
theorem compact_upper (token : Text) : ∀ c ∈ compact token, c.toUpper = c := by
  intro c member
  rw [compact_eq] at member
  obtain ⟨d, -, rfl⟩ := List.mem_map.mp member
  rw [canonical]
  split
  · decide
  · decide
  · decide
  · exact toUpper_toUpper d

theorem map_eq_ok {ε α β : Type} {f : α → β} {result : Except ε α} {value : β}
    (mapped : result.map f = .ok value) : ∃ inner, result = .ok inner ∧ f inner = value := by
  cases result with
  | error e => cases mapped
  | ok inner => exact ⟨inner, rfl, Except.ok.inj mapped⟩

/-- What is decoded depends only on what the characters are taken for. -/
theorem decodeBits_stands {text : Text} {buf : UInt32} {nbits : Nat} {bytes : List UInt8}
    (decoded : decodeBits buf nbits text = .ok bytes) :
    ∃ digits, List.Forall₂ Stands text digits ∧ (∀ digit ∈ digits, digit < 32) ∧
      decodeBits buf nbits (digits.map symbol) = .ok bytes := by
  induction text generalizing buf nbits bytes with
  | nil => exact ⟨[], .nil, List.forall_mem_nil _, decoded⟩
  | cons c rest ih =>
      rw [decodeBits] at decoded
      cases found : crockford.idxOf? (.ofNat c.toUpper.toNat) with
      | none =>
          rw [found] at decoded
          cases decoded
      | some digit =>
          rw [found] at decoded
          dsimp only at decoded
          have small : digit < 32 := Stands.lt found
          by_cases full : 8 ≤ nbits + 5
          · rw [if_pos full] at decoded
            obtain ⟨out, later, -⟩ := map_eq_ok decoded
            obtain ⟨digits, stand, below, same⟩ := ih later
            refine ⟨digit :: digits, .cons found stand,
              List.forall_mem_cons.mpr ⟨small, below⟩, ?_⟩
            rw [List.map_cons, decodeBits, idxOf_symbol digit small]
            dsimp only
            rw [if_pos full, same, ← later]
            exact decoded
          · rw [if_neg full] at decoded
            obtain ⟨digits, stand, below, same⟩ := ih decoded
            refine ⟨digit :: digits, .cons found stand,
              List.forall_mem_cons.mpr ⟨small, below⟩, ?_⟩
            rw [List.map_cons, decodeBits, idxOf_symbol digit small]
            dsimp only
            rw [if_neg full, same]

theorem decodeCrockford_stands {text : Text} {bytes : List UInt8}
    (decoded : decodeCrockford text = .ok bytes) :
    ∃ digits, List.Forall₂ Stands text digits ∧ (∀ digit ∈ digits, digit < 32) ∧
      bytes = unpack digits := by
  obtain ⟨digits, stand, below, same⟩ := decodeBits_stands decoded
  have read := decodeCrockford_symbols below
  rw [decodeCrockford, same] at read
  exact ⟨digits, stand, below, Except.ok.inj read⟩

/-! ## Tokens that are read as codes -/

variable {iroh : Iroh} {token : Text} {id : EndpointId}

theorem parseChecked_ok {body : Text} {check : Char}
    (parsed : parseChecked iroh token body check = .ok id) :
    ∃ bytes, decodeCrockford body = .ok bytes ∧
      (checkSymbol (bytes.take 32)).toNat = check.toNat ∧ idOfBytes iroh bytes = .ok id := by
  unfold parseChecked at parsed
  split at parsed
  · cases parsed
  · split at parsed
    · cases parsed
    · rename_i bytes decoded
      split at parsed
      · cases parsed
      · split at parsed
        · cases parsed
        · rename_i matching
          exact ⟨bytes, decoded, not_not.mp matching, parsed⟩

theorem parseLegacy_ok {code : Text} (parsed : parseLegacy iroh token code = .ok id) :
    ∃ bytes, decodeCrockford code = .ok bytes ∧ idOfBytes iroh bytes = .ok id := by
  unfold parseLegacy at parsed
  split at parsed
  · cases parsed
  · rename_i bytes decoded
    split at parsed
    · cases parsed
    · exact ⟨bytes, decoded, parsed⟩

theorem idOfBytes_ok (keeps : KeepsBytes iroh) {bytes : List UInt8} (full : bytes.length = 32)
    (made : idOfBytes iroh bytes = .ok id) : asBytes id = bytes := by
  have all : bytes.take 32 = bytes := List.take_of_length_le full.le
  unfold idOfBytes at made
  rw [all] at made
  split at made
  · rename_i found
    cases made
    exact keeps bytes id full found
  · cases made

/-- What a token that is read as a code consists of. -/
theorem reads_digits (keeps : KeepsBytes iroh) (reads : ReadsAs iroh token id) :
    ∃ digits, List.Forall₂ Stands (payload token) digits ∧ (∀ digit ∈ digits, digit < 32) ∧
      digits.length = 52 ∧ unpack digits = asBytes id ∧
        (compact (trim token) = payload token ∨
          compact (trim token) =
            payload token ++ [Char.ofNat (checkSymbol (asBytes id)).toNat]) := by
  obtain ⟨unread, parsed⟩ := reads
  rw [parseEndpointToken, unread] at parsed
  dsimp only at parsed
  unfold payload
  generalize compact (trim token) = code at parsed ⊢
  by_cases checked : code.length = 53
  · rw [if_pos checked] at parsed
    obtain ⟨bytes, decoded, matching, made⟩ := parseChecked_ok parsed
    obtain ⟨digits, stand, below, rfl⟩ := decodeCrockford_stands decoded
    have body : code.take 52 = code.dropLast := by rw [List.dropLast_eq_take, checked]
    have length : digits.length = 52 := by
      rw [← stand.length_eq, List.length_dropLast, checked]
    have full := length_unpack length
    have same := idOfBytes_ok keeps full made
    rw [List.take_of_length_le full.le, ← same] at matching
    have nonempty : code ≠ [] := by
      rintro rfl
      cases checked
    have last : code.getLastD '0' = code.getLast nonempty := by
      rw [List.getLastD_eq_getLast?, List.getLast?_eq_some_getLast nonempty, Option.getD_some]
    refine ⟨digits, body ▸ stand, below, length, same.symm, .inr ?_⟩
    rw [matching, Char.ofNat_toNat, last, body, List.dropLast_append_getLast nonempty]
  · rw [if_neg checked] at parsed
    by_cases legacy : code.length = 52
    · rw [if_pos legacy] at parsed
      obtain ⟨bytes, decoded, made⟩ := parseLegacy_ok parsed
      obtain ⟨digits, stand, below, rfl⟩ := decodeCrockford_stands decoded
      have whole : code.take 52 = code := List.take_of_length_le legacy.le
      have length : digits.length = 52 := by rw [← stand.length_eq, legacy]
      rw [whole]
      exact ⟨digits, stand, below, length, (idOfBytes_ok keeps (length_unpack length) made).symm,
        .inl rfl⟩
    · rw [if_neg legacy] at parsed
      cases parsed

/-! ## The code of the id -/

/-- No letter is narrowed exactly when the letters are those that they stand for. -/
theorem narrow_iff {text : Text} {digits : List Nat} (stand : List.Forall₂ Stands text digits)
    (upper : ∀ c ∈ text, c.toUpper = c) :
    (∀ c ∈ text, c.toNat < 256) ↔ text = digits.map symbol := by
  induction stand with
  | nil => exact iff_of_true (List.forall_mem_nil _) rfl
  | @cons c digit text digits stands rest ih =>
      obtain ⟨first, others⟩ := List.forall_mem_cons.mp upper
      rw [List.forall_mem_cons, List.map_cons, List.cons.injEq, ih others]
      refine and_congr_left fun _ => ⟨fun narrow => ?_, ?_⟩
      · rw [← first] at narrow ⊢
        exact stands.toUpper narrow
      · rintro rfl
        exact Nat.lt_trans (symbol_toNat digit stands.lt).2 (by decide)

theorem symbol_ends_iff : ∀ digit < 32,
    (symbol digit = '0' ∨ symbol digit = 'G') ↔ digit % 16 = 0 := by
  decide

/-- The encoder writes the letters back exactly when the last one has no bits but the first. -/
theorem encode_unpack_iff {digits : List Nat} (below : ∀ digit ∈ digits, digit < 32)
    (length : digits.length = 52) :
    encodeCrockford (unpack digits) = digits.map symbol ↔
      (digits.map symbol).getLast? = some '0' ∨ (digits.map symbol).getLast? = some 'G' := by
  obtain ⟨others, written, below', length', denoted, -⟩ :=
    encodeCrockford_id (length_unpack length)
  obtain ⟨left, rest, -, size, -, inside, value⟩ := unpack_spec below
  have spare : left = 4 := by
    rw [length_unpack length, length] at size
    omega
  subst spare
  have nonempty : digits ≠ [] := by
    rintro rfl
    cases length
  have small := below _ (List.getLast_mem nonempty)
  have bits : rest = digits.getLast nonempty % 16 := by
    have split := ofDigits_concat 32 digits.dropLast (digits.getLast nonempty)
    rw [List.dropLast_append_getLast nonempty] at split
    omega
  have ends : (digits.map symbol).getLast? = some (symbol (digits.getLast nonempty)) := by
    rw [List.getLast?_map, List.getLast?_eq_some_getLast nonempty, Option.map_some]
  rw [ends, Option.some.injEq, Option.some.injEq, symbol_ends_iff _ small, ← bits, written]
  constructor
  · intro same
    have numbers : others = digits := by
      refine List.ext_getElem (length'.trans length.symm) fun i inside inside' => ?_
      have letters := List.getElem_of_eq same (by rw [List.length_map]; exact inside)
      rw [List.getElem_map, List.getElem_map] at letters
      exact symbol_inj (below' _ (List.getElem_mem inside)) (below _ (List.getElem_mem inside'))
        letters
    rw [numbers] at denoted
    omega
  · intro zeros
    rw [ofDigits_inj (length'.trans length.symm) below' below (by omega)]

theorem below_of_encoded {bytes : List UInt8} (full : bytes.length = 32) :
    ∀ c ∈ encodeCrockford bytes, c.toNat < 256 := by
  obtain ⟨digits, written, below, -⟩ := encodeCrockford_id full
  intro c member
  rw [written] at member
  obtain ⟨digit, listed, rfl⟩ := List.mem_map.mp member
  exact Nat.lt_trans (symbol_toNat digit (below digit listed)).2 (by decide)

theorem payload_upper (token : Text) : ∀ c ∈ payload token, c.toUpper = c :=
  fun c member => compact_upper _ c (List.mem_of_mem_take member)

/-- The letters are those that the id is encoded as. -/
theorem payload_encoded_iff (keeps : KeepsBytes iroh) (reads : ReadsAs iroh token id) :
    payload token = encodeCrockford (asBytes id) ↔ Exact token := by
  obtain ⟨digits, stand, below, length, bytes, -⟩ := reads_digits keeps reads
  have narrow := narrow_iff stand (payload_upper token)
  rw [Exact, ← bytes]
  constructor
  · intro same
    have small : ∀ c ∈ payload token, c.toNat < 256 :=
      same ▸ below_of_encoded (length_unpack length)
    refine ⟨small, ?_⟩
    rw [narrow.mp small] at same ⊢
    exact (encode_unpack_iff below length).mp same.symm
  · rintro ⟨small, last⟩
    rw [narrow.mp small] at last ⊢
    exact ((encode_unpack_iff below length).mpr last).symm

theorem wellFormed_iff (keeps : KeepsBytes iroh) (reads : ReadsAs iroh token id) :
    WellFormed token id ↔ Exact token := by
  have encoded := payload_encoded_iff keeps reads
  obtain ⟨digits, stand, below, -, -, ends⟩ := reads_digits keeps reads
  refine ⟨fun formed => encoded.mp formed.2.1, fun exact_ => ⟨?_, encoded.mpr exact_, ends⟩⟩
  have letters : ∀ c ∈ payload token, c ∈ alphabet := by
    rw [(narrow_iff stand (payload_upper token)).mp exact_.1]
    intro c member
    obtain ⟨digit, listed, rfl⟩ := List.mem_map.mp member
    exact mem_alphabet_iff.mpr ⟨digit, below digit listed, rfl⟩
  have check : Char.ofNat (checkSymbol (asBytes id)).toNat ∈ alphabet :=
    mem_alphabet_iff.mpr ⟨checkValue (asBytes id), checkValue_lt _, rfl⟩
  rcases ends with same | same
  · rw [same]
    exact letters
  · rw [same]
    exact List.forall_mem_append.mpr ⟨letters, List.forall_mem_singleton.mpr check⟩

/-- **The grammar of short codes**: what is taken for a code of an id is the code of the id,
of letters of the alphabet, exactly when no letter of it is narrowed and the last one has
only its first bit. It has then the letters of every other such code of the id. -/
theorem short_code_grammar_iff (keeps : KeepsBytes iroh) {token : Text} {id : EndpointId}
    (reads : ReadsAs iroh token id) :
    (WellFormed token id ↔ Exact token) ∧
      ∀ other, ReadsAs iroh other id → Exact other →
        (payload token = payload other ↔ Exact token) := by
  refine ⟨wellFormed_iff keeps reads, fun other reads' exact_ => ?_⟩
  rw [(payload_encoded_iff keeps reads').mpr exact_]
  exact payload_encoded_iff keeps reads

theorem plainIroh_keepsBytes : KeepsBytes plainIroh := by
  intro bytes id full made
  cases made
  exact asBytes_ofNat_ofBytes full

/-- The code of zeros. -/
theorem zero_code_wellFormed : WellFormed (List.replicate 52 '0') 0 := by
  have reads : ReadsAs plainIroh (List.replicate 52 '0') 0 := by
    constructor
    · decide +kernel
    · decide +kernel
  exact (short_code_grammar_iff plainIroh_keepsBytes reads).1.mpr (by decide +kernel)

/-- A dotted capital I is taken for a zero, and the last letter may be a one: both codes
denote the id of the zeros. -/
theorem dotted_code_accepted :
    ReadsAs plainIroh ('İ' :: List.replicate 51 '0') 0 ∧
      ReadsAs plainIroh (List.replicate 51 '0' ++ ['1']) 0 ∧
      ¬ ∀ (iroh : Iroh), KeepsBytes iroh → ∀ token id, ReadsAs iroh token id →
        WellFormed token id := by
  have dotted : ReadsAs plainIroh ('İ' :: List.replicate 51 '0') 0 := by
    constructor
    · decide +kernel
    · decide +kernel
  refine ⟨dotted, ⟨by decide +kernel, by decide +kernel⟩, fun formed => ?_⟩
  have letters := (formed plainIroh plainIroh_keepsBytes _ _ dotted).1
  exact absurd (letters 'İ' (by decide +kernel)) (by decide +kernel)

end LinkP2p.Contacts
