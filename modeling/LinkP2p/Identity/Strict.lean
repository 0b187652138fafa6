import LinkP2p.Identity.Load
import Mathlib.Data.List.Induction

/-!
# What the loader takes for a key

The digits of a key are cut out of the text two bytes at a time and read as numbers, which
may begin with a plus sign. A slice that begins or ends inside a character, or beyond the
end of the file, panics.
-/

namespace LinkP2p.Identity

open LinkP2p.Lib.Bytes

/-! ## The grammar of keys -/

/-- The digits `0-9`, `a-f` and `A-F` -/
def hexValue (c : Char) : Option UInt8 :=
  if 48 ≤ c.toNat ∧ c.toNat ≤ 57 then some (.ofNat (c.toNat - 48))
  else if 97 ≤ c.toNat ∧ c.toNat ≤ 102 then some (.ofNat (c.toNat - 87))
  else if 65 ≤ c.toNat ∧ c.toNat ≤ 70 then some (.ofNat (c.toNat - 55))
  else none

/-- Two digits for each byte. -/
inductive Spells : Text → List UInt8 → Prop
  | nil : Spells [] []
  | cons {a b : Char} {high low : UInt8} {rest : Text} {bytes : List UInt8}
      (first : hexValue a = some high) (second : hexValue b = some low)
      (later : Spells rest bytes) : Spells (a :: b :: rest) ((16 * high + low) :: bytes)

/-- What the integer parser takes: two digits, or a plus sign and a digit. -/
def pairValue (a b : Char) : Option UInt8 :=
  if a = '+' then hexValue b
  else (hexValue a).bind fun high => (hexValue b).map fun low => 16 * high + low

inductive Loose : Text → List UInt8 → Prop
  | nil : Loose [] []
  | cons {a b : Char} {byte : UInt8} {rest : Text} {bytes : List UInt8}
      (pair : pairValue a b = some byte) (later : Loose rest bytes) :
      Loose (a :: b :: rest) (byte :: bytes)

/-- After pairs that are read, a pair of bytes ends inside a character. -/
inductive Cut : Text → Prop
  | wide {c : Char} (rest : Text) (bytes : 3 ≤ c.utf8Size) : Cut (c :: rest)
  | straddles {c d : Char} (rest : Text) (one : c.utf8Size = 1) (more : d.utf8Size ≠ 1) :
      Cut (c :: d :: rest)
  | later {a b : Char} {byte : UInt8} {rest : Text} (pair : pairValue a b = some byte)
      (cut : Cut rest) : Cut (a :: b :: rest)

/-- The text is 64 digits after trimming, which spell the key. -/
def Denotes (hex : Text) (key : SecretKey) : Prop :=
  (trim hex).length = 64 ∧ ∃ bytes, Spells (trim hex) bytes ∧ key = .fromBytes bytes

/-- The text is taken for a key, and there is a plus sign in it. -/
def Signed (hex : Text) : Prop :=
  (trim hex).length = 64 ∧ '+' ∈ trim hex ∧ ∃ bytes, Loose (trim hex) bytes

/-- The text has the length of a key in bytes, and a pair of them cuts a character. -/
def Misaligned (hex : Text) : Prop :=
  (utf8Encode (trim hex)).length = 64 ∧ Cut (trim hex)

theorem loose_of_spells {text : Text} {bytes : List UInt8} (spells : Spells text bytes) :
    Loose text bytes ∧ '+' ∉ text := by
  have noPlus : ∀ c value, hexValue c = some value → '+' ≠ c := by
    rintro c value digit rfl
    cases digit
  induction spells with
  | nil => exact ⟨.nil, List.not_mem_nil⟩
  | @cons a b high low rest bytes first second later ih =>
      have pair : pairValue a b = some (16 * high + low) := by
        rw [pairValue, if_neg (noPlus a high first).symm, first, second]
        rfl
      refine ⟨.cons pair ih.1, ?_⟩
      rw [List.mem_cons, List.mem_cons]
      rintro (same | same | inside)
      · exact noPlus a high first same
      · exact noPlus b low second same
      · exact ih.2 inside

theorem Loose.spells {text : Text} {bytes : List UInt8} (loose : Loose text bytes)
    (unsigned : '+' ∉ text) : Spells text bytes := by
  induction loose with
  | nil => exact .nil
  | @cons a b byte rest bytes pair later ih =>
      rw [List.mem_cons, List.mem_cons, not_or, not_or] at unsigned
      obtain ⟨other, -, tail⟩ := unsigned
      rw [pairValue, if_neg (Ne.symm other)] at pair
      obtain ⟨high, first, mapped⟩ := Option.bind_eq_some_iff.mp pair
      obtain ⟨low, second, rfl⟩ := Option.map_eq_some_iff.mp mapped
      exact .cons first second (ih tail)

/-! ## Characters in bytes -/

theorem forall_byte {P : UInt8 → Prop} (all : ∀ n < 256, P (.ofNat n)) (b : UInt8) : P b := by
  have code := all b.toNat b.toNat_lt
  rw [UInt8.ofNat_toNat] at code
  exact code

theorem forall_ascii {P : Char → Prop} (all : ∀ n < 128, P (.ofNat n)) {c : Char}
    (one : c.utf8Size = 1) : P c := by
  have small : c.toNat < 128 := Nat.lt_succ_of_le (UInt32.le_iff_toNat_le.mp
    (Char.utf8Size_eq_one_iff.mp one))
  have code := all c.toNat small
  rw [Char.ofNat_toNat] at code
  exact code

theorem utf8Encode_cons (c : Char) (rest : Text) :
    utf8Encode (c :: rest) = String.utf8EncodeChar c ++ utf8Encode rest := List.flatMap_cons

theorem encode_ascii {c : Char} (one : c.utf8Size = 1) (rest : Text) :
    utf8Encode (c :: rest) = .ofNat c.toNat :: utf8Encode rest := by
  have byte : String.utf8EncodeChar c = [.ofNat c.toNat] :=
    forall_ascii (P := fun c => String.utf8EncodeChar c = [.ofNat c.toNat]) (by decide +kernel) one
  rw [utf8Encode_cons, byte, List.singleton_append]

theorem continues_ascii {c : Char} (one : c.utf8Size = 1) : continues (.ofNat c.toNat) = false :=
  forall_ascii (P := fun c => continues (.ofNat c.toNat) = false) (by decide +kernel) one

/-- The byte begins a character of several bytes. -/
def Leads (b : UInt8) : Prop := continues b = false ∧ hexDigit b = none ∧ b ≠ 43

instance (b : UInt8) : Decidable (Leads b) := inferInstanceAs (Decidable (_ ∧ _))

theorem continues_trail : ∀ x : UInt8, continues (x &&& 0x3f ||| 0x80) = true :=
  forall_byte (by decide +kernel)

theorem leads_two : ∀ x : UInt8, Leads (x &&& 0x1f ||| 0xc0) := forall_byte (by decide +kernel)

theorem leads_three : ∀ x : UInt8, Leads (x &&& 0x0f ||| 0xe0) := forall_byte (by decide +kernel)

theorem leads_four : ∀ x : UInt8, Leads (x &&& 0x07 ||| 0xf0) := forall_byte (by decide +kernel)

/-- A wider character is a leading byte and others that continue it. -/
theorem encode_wide {c : Char} (more : c.utf8Size ≠ 1) :
    ∃ lead next others, String.utf8EncodeChar c = lead :: next :: others ∧ Leads lead ∧
      continues next = true ∧ (∀ b ∈ others, continues b = true) ∧
        c.utf8Size = others.length + 2 := by
  have positive := c.utf8Size_pos
  have most := c.utf8Size_le_four
  obtain two | three | four : c.utf8Size = 2 ∨ c.utf8Size = 3 ∨ c.utf8Size = 4 := by omega
  · exact ⟨_, _, _, String.utf8EncodeChar_eq_cons_cons two, leads_two _, continues_trail _,
      List.forall_mem_nil _, two⟩
  · exact ⟨_, _, _, String.utf8EncodeChar_eq_cons_cons_cons three, leads_three _,
      continues_trail _, List.forall_mem_singleton.mpr (continues_trail _), three⟩
  · exact ⟨_, _, _, String.utf8EncodeChar_eq_cons_cons_cons_cons four, leads_four _,
      continues_trail _, List.forall_mem_cons.mpr ⟨continues_trail _,
        List.forall_mem_singleton.mpr (continues_trail _)⟩, four⟩

/-- A text begins no character in the middle. -/
theorem head_encode (text : Text) : (utf8Encode text).head?.any continues = false := by
  cases text with
  | nil => rfl
  | cons c rest =>
      by_cases one : c.utf8Size = 1
      · rw [encode_ascii one]
        exact continues_ascii one
      · obtain ⟨lead, next, others, encoded, leads, -⟩ := encode_wide one
        rw [utf8Encode_cons, encoded]
        exact leads.1

/-! ## The loop over the pairs -/

theorem hexPair_ascii {a b : Char} (first : a.utf8Size = 1) (second : b.utf8Size = 1) :
    hexPair (.ofNat a.toNat) (.ofNat b.toNat) = pairValue a b := by
  have digit : ∀ {c : Char}, c.utf8Size = 1 → hexDigit (.ofNat c.toNat) = hexValue c :=
    fun one => forall_ascii (P := fun c => hexDigit (.ofNat c.toNat) = hexValue c)
      (by decide +kernel) one
  have plus : UInt8.ofNat a.toNat = 43 ↔ a = '+' :=
    forall_ascii (P := fun a => UInt8.ofNat a.toNat = 43 ↔ a = '+') (by decide +kernel) first
  rw [hexPair, pairValue, digit first, digit second]
  simp only [plus]

theorem hexPairs_ascii {a b : Char} (first : a.utf8Size = 1) (second : b.utf8Size = 1)
    (rest : Text) :
    hexPairs (utf8Encode (a :: b :: rest)) =
      match pairValue a b with
      | none => .error .nonHex
      | some byte => (hexPairs (utf8Encode rest)).map (byte :: ·) := by
  rw [encode_ascii first, encode_ascii second, hexPairs, head_encode, hexPair_ascii first second]
  exact if_neg Bool.false_ne_true

theorem hexPairs_straddle {c d : Char} (one : c.utf8Size = 1) (more : d.utf8Size ≠ 1)
    (rest : Text) : hexPairs (utf8Encode (c :: d :: rest)) = .error .sliceInsideChar := by
  obtain ⟨lead, next, others, encoded, -, inside, -⟩ := encode_wide more
  rw [encode_ascii one, utf8Encode_cons, encoded, List.cons_append, List.cons_append, hexPairs]
  exact if_pos inside

theorem hexPairs_wide {c : Char} (more : c.utf8Size ≠ 1) (rest : Text) :
    hexPairs (utf8Encode (c :: rest)) =
      .error (if 3 ≤ c.utf8Size then .sliceInsideChar else .nonHex) := by
  obtain ⟨lead, next, others, encoded, ⟨-, noDigit, noPlus⟩, -, inside, size⟩ := encode_wide more
  rw [utf8Encode_cons, encoded, List.cons_append, List.cons_append, hexPairs]
  cases others with
  | nil =>
      have pair : hexPair lead next = none := by rw [hexPair, if_neg noPlus, noDigit]; rfl
      rw [List.nil_append, head_encode, if_neg Bool.false_ne_true, pair, size]
      rfl
  | cons third others =>
      have wide : 3 ≤ c.utf8Size := by
        rw [size, List.length_cons]
        omega
      rw [if_pos wide]
      exact if_pos (inside third List.mem_cons_self)

theorem size_of_pairValue {a b : Char} {byte : UInt8} (pair : pairValue a b = some byte) :
    a.utf8Size = 1 ∧ b.utf8Size = 1 := by
  have digit : ∀ {c : Char} {value : UInt8}, hexValue c = some value → c.utf8Size = 1 := by
    intro c value found
    have small : c.toNat ≤ 127 := by
      unfold hexValue at found
      split at found
      · omega
      · split at found
        · omega
        · split at found
          · omega
          · cases found
    exact Char.utf8Size_eq_one_iff.mpr (UInt32.le_iff_toNat_le.mpr small)
  rw [pairValue] at pair
  split at pair
  · rename_i plus
    exact ⟨plus ▸ rfl, digit pair⟩
  · obtain ⟨high, first, mapped⟩ := Option.bind_eq_some_iff.mp pair
    obtain ⟨low, second, -⟩ := Option.map_eq_some_iff.mp mapped
    exact ⟨digit first, digit second⟩

/-- The pairs are cut in time exactly when the text is cut there. -/
theorem hexPairs_cut_iff (text : Text) :
    hexPairs (utf8Encode text) = .error .sliceInsideChar ↔ Cut text := by
  induction text using List.twoStepInduction with
  | nil => exact iff_of_false (fun failed => by cases failed) fun cut => by cases cut
  | singleton c =>
      by_cases one : c.utf8Size = 1
      · rw [encode_ascii one]
        refine iff_of_false (fun failed => by cases failed) fun cut => ?_
        cases cut with
        | wide _ bytes => omega
      · rw [hexPairs_wide one]
        by_cases wide : 3 ≤ c.utf8Size
        · exact iff_of_true (by rw [if_pos wide]) (.wide [] wide)
        · rw [if_neg wide]
          refine iff_of_false (fun failed => by cases failed) fun cut => ?_
          cases cut with
          | wide _ bytes => exact wide bytes
  | cons_cons c d rest ih _ =>
      by_cases one : c.utf8Size = 1
      · by_cases more : d.utf8Size = 1
        · rw [hexPairs_ascii one more]
          cases pair : pairValue c d with
          | none =>
              refine iff_of_false (fun failed => by cases failed) fun cut => ?_
              cases cut with
              | wide _ bytes => omega
              | straddles _ _ other => exact other more
              | later found _ => cases pair.symm.trans found
          | some byte =>
              dsimp only
              constructor
              · intro failed
                refine .later pair (ih.mp ?_)
                cases result : hexPairs (utf8Encode rest) with
                | error e =>
                    rw [result] at failed
                    exact failed
                | ok bytes =>
                    rw [result] at failed
                    cases failed
              · intro cut
                cases cut with
                | wide _ bytes => omega
                | straddles _ _ other => exact absurd more other
                | later _ cut =>
                    rw [ih.mpr cut]
                    rfl
        · exact iff_of_true (hexPairs_straddle one more rest) (.straddles rest one more)
      · rw [hexPairs_wide one]
        by_cases wide : 3 ≤ c.utf8Size
        · exact iff_of_true (by rw [if_pos wide]) (.wide _ wide)
        · rw [if_neg wide]
          refine iff_of_false (fun failed => by cases failed) fun cut => ?_
          cases cut with
          | wide _ bytes => exact wide bytes
          | straddles _ other _ => exact one other
          | later found _ => exact one (size_of_pairValue found).1

/-- The pairs are read exactly when they are pairs of digits, or of a plus sign and a digit. -/
theorem hexPairs_ok_iff (text : Text) {bytes : List UInt8}
    (paired : (utf8Encode text).length % 2 = 0) :
    hexPairs (utf8Encode text) = .ok bytes ↔ Loose text bytes := by
  induction text using List.twoStepInduction generalizing bytes with
  | nil =>
      constructor
      · rintro ⟨⟩
        exact .nil
      · rintro ⟨⟩
        rfl
  | singleton c =>
      refine iff_of_false (fun read => ?_) fun loose => by cases loose
      by_cases one : c.utf8Size = 1
      · rw [encode_ascii one] at paired
        cases paired
      · rw [hexPairs_wide one] at read
        cases read
  | cons_cons c d rest ih _ =>
      by_cases both : c.utf8Size = 1 ∧ d.utf8Size = 1
      · obtain ⟨one, more⟩ := both
        rw [encode_ascii one, encode_ascii more, List.length_cons, List.length_cons] at paired
        have tail := fun bytes => @ih bytes (by omega)
        rw [hexPairs_ascii one more]
        constructor
        · intro read
          cases pair : pairValue c d with
          | none =>
              rw [pair] at read
              cases read
          | some byte =>
              rw [pair] at read
              cases result : hexPairs (utf8Encode rest) with
              | error e =>
                  simp only [result] at read
                  cases read
              | ok others =>
                  simp only [result] at read
                  cases read
                  exact .cons pair ((tail others).mp result)
        · rintro ⟨⟩
          rename_i pair later
          rw [pair]
          dsimp only
          rw [(tail _).mpr later]
          rfl
      · refine iff_of_false (fun read => ?_) fun loose => ?_
        · by_cases one : c.utf8Size = 1
          · rw [hexPairs_straddle one fun more => both ⟨one, more⟩] at read
            cases read
          · rw [hexPairs_wide one] at read
            cases read
        · cases loose with
          | cons pair later => exact both (size_of_pairValue pair)

theorem Loose.length_encode {text : Text} {bytes : List UInt8} (loose : Loose text bytes) :
    (utf8Encode text).length = text.length := by
  induction loose with
  | nil => rfl
  | cons pair later ih =>
      obtain ⟨first, second⟩ := size_of_pairValue pair
      rw [encode_ascii first, encode_ascii second, List.length_cons, List.length_cons, ih]
      rfl

theorem keyOfHex_ok_iff {hex : Text} {key : SecretKey} :
    keyOfHex hex = .ok key ↔
      (trim hex).length = 64 ∧ ∃ bytes, Loose (trim hex) bytes ∧ key = .fromBytes bytes := by
  unfold keyOfHex
  dsimp only
  by_cases length : (utf8Encode (trim hex)).length = 64
  · have read := fun bytes => @hexPairs_ok_iff (trim hex) bytes (by rw [length])
    rw [if_neg (not_not_intro length)]
    constructor
    · intro parsed
      cases result : hexPairs (utf8Encode (trim hex)) with
      | error e =>
          rw [result] at parsed
          cases parsed
      | ok bytes =>
          rw [result] at parsed
          cases parsed
          have loose := (read bytes).mp result
          exact ⟨loose.length_encode.symm.trans length, bytes, loose, rfl⟩
    · rintro ⟨-, bytes, loose, rfl⟩
      rw [(read bytes).mpr loose]
      rfl
  · rw [if_pos length]
    refine iff_of_false (fun parsed => by cases parsed) ?_
    rintro ⟨size, bytes, loose, -⟩
    exact length (loose.length_encode.trans size)

/-- A text is taken for another key than it denotes exactly when it is signed. -/
theorem keyOfHex_denotes_iff (hex : Text) :
    (∀ key, keyOfHex hex = .ok key ↔ Denotes hex key) ↔ ¬ Signed hex := by
  constructor
  · rintro strict ⟨length, plus, bytes, loose⟩
    obtain ⟨-, others, spells, -⟩ :=
      (strict (.fromBytes bytes)).mp (keyOfHex_ok_iff.mpr ⟨length, bytes, loose, rfl⟩)
    exact (loose_of_spells spells).2 plus
  · intro unsigned key
    rw [keyOfHex_ok_iff]
    refine and_congr_right fun length => exists_congr fun bytes => and_congr_left fun _ => ?_
    refine ⟨fun loose => loose.spells fun plus => unsigned ⟨length, plus, bytes, loose⟩, ?_⟩
    exact fun spells => (loose_of_spells spells).1

/-! ## Panics -/

/-- The call ends in a panic. -/
def Panics {α : Type} (result : Except KeyError α) : Prop :=
  result = .error .sliceOutOfRange ∨ result = .error .sliceInsideChar

@[simp]
theorem not_panics_ok {α : Type} (value : α) : ¬ Panics (.ok value : Except KeyError α) := by
  rintro (panics | panics)
  · cases panics
  · cases panics

@[simp]
theorem panics_error_iff {α : Type} {e : KeyError} :
    Panics (.error e : Except KeyError α) ↔ e = .sliceOutOfRange ∨ e = .sliceInsideChar := by
  unfold Panics
  rw [Except.error.injEq, Except.error.injEq]

theorem hexPairs_range (bytes : List UInt8) : hexPairs bytes ≠ .error .sliceOutOfRange := by
  induction bytes using hexPairs.induct with
  | case1 a b rest inside => simp [hexPairs, inside]
  | case2 a b rest calm none_ => simp [hexPairs, calm, none_]
  | case3 a b rest calm byte pair ih =>
      rw [hexPairs, if_neg calm, pair]
      dsimp only
      cases result : hexPairs rest with
      | error e =>
          rw [result] at ih
          exact ih
      | ok others => exact fun failed => by cases failed
  | case4 rest short =>
      rw [hexPairs]
      · exact fun failed => by cases failed
      · exact short

theorem keyOfHex_panics_iff (hex : Text) : Panics (keyOfHex hex) ↔ Misaligned hex := by
  unfold keyOfHex Misaligned
  dsimp only
  by_cases length : (utf8Encode (trim hex)).length = 64
  · rw [if_neg (not_not_intro length), ← hexPairs_cut_iff]
    have inside := hexPairs_range (utf8Encode (trim hex))
    cases result : hexPairs (utf8Encode (trim hex)) with
    | error e =>
        rw [result] at inside
        have other : e ≠ .sliceOutOfRange := fun same => inside (congrArg _ same)
        exact panics_error_iff.trans (by simp [length, other])
    | ok bytes =>
        exact iff_of_false (not_panics_ok _) fun both => by cases both.2
  · rw [if_pos length]
    exact iff_of_false (fun panics => by simp at panics) fun both =>
      length both.1

theorem secretKeyFromHex_panics_iff (hardenFails : Bool) (hex : Text) :
    Panics (secretKeyFromHex hardenFails hex) ↔ Misaligned hex := by
  rw [← keyOfHex_panics_iff, secretKeyFromHex]
  cases keyOfHex hex with
  | error e => rfl
  | ok key =>
      refine iff_of_false ?_ (not_panics_ok key)
      cases hardenFails with
      | false => exact not_panics_ok key
      | true => exact fun panics => by simp [Except.bind] at panics

/-! ## The load path -/

variable {crypto : Crypto} {call : Call} {data : List UInt8} {passphrase : String} {hex : Text}

/-- The file is sealed under the passphrase, and this is its text. -/
def Opens (crypto : Crypto) (data : List UInt8) (passphrase : String) (hex : Text) : Prop :=
  ∃ (random : Entropy) (ciphertext dk plaintext : List UInt8),
    data = keyFileMagic ++ random.salt ++ random.nonce ++ ciphertext ∧
      crypto.deriveKey passphrase random.salt = some dk ∧
      crypto.decrypt dk random.nonce ciphertext = some plaintext ∧
      utf8Decode plaintext = some hex

/-- Magic, salt and nonce. -/
def keyFileHeader : Nat := keyFileMagic.length + keyFileSaltLen + keyFileNonceLen

/-- The header of a sealed file is cut off, or the text in the file is misaligned. -/
def Overruns (crypto : Crypto) (data : List UInt8) : Option String → Prop
  | none => isEncryptedKey data = false ∧ ∃ hex, utf8Decode data = some hex ∧ Misaligned hex
  | some pass =>
      isEncryptedKey data = true ∧
          (data.length < keyFileHeader ∨ ∃ hex, Opens crypto data pass hex ∧ Misaligned hex) ∨
        isEncryptedKey data = false ∧ ∃ hex, utf8Decode data = some hex ∧ Misaligned hex

/-- A sealed file that is long enough has all parts of the header. -/
theorem sealed_split (magic : isEncryptedKey data = true) (long : keyFileHeader ≤ data.length) :
    ∃ (random : Entropy) (ciphertext : List UInt8),
      data = keyFileMagic ++ random.salt ++ random.nonce ++ ciphertext := by
  obtain ⟨rest, rfl⟩ := List.isPrefixOf_iff_prefix.mp magic
  have size : keyFileSaltLen + keyFileNonceLen ≤ rest.length := by
    rw [List.length_append] at long
    exact Nat.le_of_add_le_add_left (Nat.le_trans (Nat.le_of_eq (Nat.add_assoc ..).symm) long)
  have salt : (rest.take keyFileSaltLen).length = keyFileSaltLen :=
    List.length_take_of_le (Nat.le_trans (Nat.le_add_right _ _) size)
  have nonce : ((rest.drop keyFileSaltLen).take keyFileNonceLen).length = keyFileNonceLen := by
    refine List.length_take_of_le ?_
    rw [List.length_drop]
    exact Nat.le_sub_of_add_le' size
  refine ⟨⟨_, _, salt, nonce⟩, (rest.drop keyFileSaltLen).drop keyFileNonceLen, ?_⟩
  rw [List.append_assoc, List.append_assoc, List.take_append_drop, List.take_append_drop]

theorem decryptKeyHex_ok_iff (magic : isEncryptedKey data = true)
    (long : keyFileHeader ≤ data.length) :
    decryptKeyHex crypto data passphrase = .ok hex ↔ Opens crypto data passphrase hex := by
  constructor
  · intro decrypted
    obtain ⟨random, ciphertext, rfl⟩ := sealed_split magic long
    rw [decryptKeyHex_sealed] at decrypted
    split at decrypted
    · cases decrypted
    · rename_i derived
      split at decrypted
      · cases decrypted
      · rename_i opened
        split at decrypted
        · cases decrypted
        · rename_i text
          cases decrypted
          exact ⟨random, ciphertext, _, _, rfl, derived, opened, text⟩
  · rintro ⟨random, ciphertext, dk, plaintext, rfl, derived, opened, text⟩
    rw [decryptKeyHex_sealed, derived]
    dsimp only
    rw [opened]
    dsimp only
    rw [text]

/-- Only the header can be cut off. -/
theorem decryptKeyHex_panics_iff (magic : isEncryptedKey data = true) :
    Panics (decryptKeyHex crypto data passphrase) ↔ data.length < keyFileHeader := by
  by_cases short : data.length < keyFileHeader
  · refine iff_of_true (.inl ?_) short
    rw [decryptKeyHex, magic, if_neg (by decide)]
    exact if_pos short
  · refine iff_of_false (fun panics => ?_) short
    obtain ⟨random, ciphertext, rfl⟩ := sealed_split magic (Nat.not_lt.mp short)
    rw [decryptKeyHex_sealed] at panics
    split at panics
    · simp at panics
    · split at panics
      · simp at panics
      · split at panics
        · simp at panics
        · exact not_panics_ok _ panics

theorem sealed_panics_iff (hardenFails : Bool) (magic : isEncryptedKey data = true) :
    Panics ((decryptKeyHex crypto data passphrase).bind (secretKeyFromHex hardenFails)) ↔
      data.length < keyFileHeader ∨
        ∃ hex, Opens crypto data passphrase hex ∧ Misaligned hex := by
  have cuts : Panics (decryptKeyHex crypto data passphrase) ↔ data.length < keyFileHeader :=
    decryptKeyHex_panics_iff magic
  rw [← cuts]
  by_cases short : data.length < keyFileHeader
  · refine iff_of_true ?_ (.inl (cuts.mpr short))
    rcases cuts.mpr short with panics | panics
    · rw [panics]
      exact .inl rfl
    · rw [panics]
      exact .inr rfl
  · have calm := mt cuts.mp short
    have opens : ∀ hex, decryptKeyHex crypto data passphrase = .ok hex ↔
        Opens crypto data passphrase hex :=
      fun _ => decryptKeyHex_ok_iff magic (Nat.not_lt.mp short)
    cases decrypted : decryptKeyHex crypto data passphrase with
    | error e =>
        rw [decrypted] at calm
        refine iff_of_false (fun panics => calm (panics_error_iff.mpr ?_)) ?_
        · exact panics_error_iff.mp panics
        rintro (panics | ⟨hex, opened, -⟩)
        · exact calm panics
        · cases decrypted.symm.trans ((opens hex).mpr opened)
    | ok hex =>
        refine (secretKeyFromHex_panics_iff hardenFails hex).trans ⟨?_, ?_⟩
        · exact fun cut => .inr ⟨hex, (opens hex).mp decrypted, cut⟩
        · rintro (panics | ⟨other, opened, cut⟩)
          · exact absurd panics (not_panics_ok hex)
          · cases decrypted.symm.trans ((opens other).mpr opened)
            exact cut

theorem plaintext_panics_iff (plain : isEncryptedKey data = false) :
    Panics (loadExisting crypto call data).1 ↔
      ∃ hex, utf8Decode data = some hex ∧ Misaligned hex := by
  cases text : utf8Decode data with
  | none =>
      refine iff_of_false (fun panics => ?_) fun some_ => by simp at some_
      simp [loadExisting, plain, text] at panics
  | some hex =>
      rw [loadExisting_plaintext plain text]
      refine (secretKeyFromHex_panics_iff call.hardenFails hex).trans ?_
      simp only [Option.some.injEq, exists_eq_left']

theorem loadExisting_panics_iff :
    Panics (loadExisting crypto call data).1 ↔ Overruns crypto data call.passphrase := by
  cases magic : isEncryptedKey data with
  | false =>
      rw [plaintext_panics_iff magic]
      cases call.passphrase with
      | none => simp only [Overruns, magic, true_and]
      | some pass => simp only [Overruns, magic, Bool.false_eq_true, false_and, false_or, true_and]
  | true =>
      unfold loadExisting
      rw [if_pos magic]
      cases call.passphrase with
      | none =>
          refine iff_of_false (fun panics => by simp at panics) ?_
          simp only [Overruns, magic, Bool.true_eq_false, false_and, not_false_eq_true]
      | some pass =>
          refine (sealed_panics_iff call.hardenFails magic).trans ?_
          simp only [Overruns, magic, Bool.true_eq_false, false_and, or_false, true_and]

theorem write_calm (write : Write) (data : List UInt8) (file : File) :
    ¬ Panics (write.apply data file).1 := by
  cases write with
  | done => exact not_panics_ok ()
  | _ => exact fun panics => by simp [Write.apply] at panics

theorem writeEncrypted_calm (text : Text) (pass : String) (file : File) :
    ¬ Panics (writeKeyFileEncrypted crypto call text pass file).1 := by
  unfold writeKeyFileEncrypted encryptKeyHex
  cases call.entropy with
  | none => exact fun panics => by simp at panics
  | some random =>
      dsimp only
      cases crypto.deriveKey pass random.salt with
      | none => exact fun panics => by simp at panics
      | some dk =>
          dsimp only
          cases crypto.encrypt dk random.nonce (utf8Encode text) with
          | none => exact fun panics => by simp at panics
          | some ciphertext => exact write_calm call.write _ file

theorem create_calm (file : File) : ¬ Panics (create crypto call file).1 := by
  have mapped : ∀ written : Except KeyError Unit, ¬ Panics written →
      ¬ Panics (written.map fun _ => call.generated) := by
    intro written calm
    cases written with
    | ok _ => exact not_panics_ok _
    | error e => exact fun panics => calm (panics_error_iff.mpr (panics_error_iff.mp panics))
  refine mapped _ ?_
  cases call.passphrase with
  | none => exact write_calm call.write _ file
  | some pass => exact writeEncrypted_calm _ pass file

/-- The file is read, and it overruns. -/
def ReadsOver (crypto : Crypto) (call : Call) (file : File) : Prop :=
  validate call.passphrase = .ok () ∧
    ∃ data, readFile call file = some data ∧ Overruns crypto data call.passphrase

theorem load_panics_iff (file : File) :
    Panics (loadOrCreateSecretKey crypto call file).1 ↔ ReadsOver crypto call file := by
  unfold loadOrCreateSecretKey ReadsOver
  cases valid : validate call.passphrase with
  | error e =>
      refine iff_of_false (fun panics => ?_) fun both => by cases both.1
      unfold validate validatePassphrase at valid
      split at valid
      · cases valid
      · split at valid
        · cases valid
          simp at panics
        · split at valid
          · cases valid
            simp at panics
          · cases valid
  | ok _ =>
      cases readFile call file with
      | none => exact iff_of_false (create_calm file) fun both => by simp at both
      | some data =>
          refine loadExisting_panics_iff.trans ?_
          simp only [Option.some.injEq, exists_eq_left', true_and]

/-- The text is taken for a key with a plus sign in it, or its key is refused as the
permissions of the file cannot be set. -/
def Strays (hardenFails : Bool) (hex : Text) : Prop :=
  hardenFails = false ∧ Signed hex ∨ hardenFails = true ∧ ∃ key, Denotes hex key

theorem secretKeyFromHex_denotes_iff (hardenFails : Bool) (hex : Text) :
    (∀ key, secretKeyFromHex hardenFails hex = .ok key ↔ Denotes hex key) ↔
      ¬ Strays hardenFails hex := by
  cases hardenFails with
  | false =>
      have same : secretKeyFromHex false hex = keyOfHex hex := by
        rw [secretKeyFromHex]
        cases keyOfHex hex with
        | error e => rfl
        | ok key => rfl
      simp only [same, Strays, true_and, Bool.false_eq_true, false_and, or_false]
      exact keyOfHex_denotes_iff hex
  | true =>
      have never : ∀ key, secretKeyFromHex true hex ≠ .ok key := by
        intro key
        rw [secretKeyFromHex]
        cases keyOfHex hex with
        | error e => exact fun loaded => by cases loaded
        | ok other => exact fun loaded => by cases loaded
      simp only [never, false_iff, Strays, Bool.true_eq_false, false_and, true_and, false_or,
        not_exists]

/-- **Identity files are parsed without a panic** exactly when no header is cut off and no
pair of digits cuts a character, and **strictly** exactly when no digit is a plus sign and the
permissions can be set. -/
theorem identity_strict_iff (crypto : Crypto) (call : Call) (file : File) (hardenFails : Bool)
    (hex : Text) :
    (¬ Panics (loadOrCreateSecretKey crypto call file).1 ↔ ¬ ReadsOver crypto call file) ∧
      ((∀ key, secretKeyFromHex hardenFails hex = .ok key ↔ Denotes hex key) ↔
        ¬ Strays hardenFails hex) :=
  ⟨not_congr (load_panics_iff file), secretKeyFromHex_denotes_iff hardenFails hex⟩

/-- Thirty-two times a plus sign and a zero. -/
def plusZeros : Text := (List.replicate 32 ['+', '0']).flatten

/-- A file that consists of the magic panics under a passphrase, and one that begins with a
Euro sign without; plus signs are taken for digits. -/
theorem identity_overrun :
    ¬ ((∀ (crypto : Crypto) (call : Call) (file : File),
        ¬ Panics (loadOrCreateSecretKey crypto call file).1) ∨
      (∀ (crypto : Crypto) (call : Call) (file : File), call.passphrase = none →
        ¬ Panics (loadOrCreateSecretKey crypto call file).1) ∨
      ∀ hex key, secretKeyFromHex false hex = .ok key ↔ Denotes hex key) := by
  rintro (calm | calm | strict)
  · refine calm plainCrypto ⟨some "passphrase", false, none, .done, false, 1⟩
      (some keyFileMagic) (.inl ?_)
    decide +kernel
  · refine calm plainCrypto ⟨none, false, none, .done, false, 1⟩
      (some (utf8Encode ('€' :: List.replicate 61 '0'))) rfl (.inr ?_)
    decide +kernel
  · obtain ⟨-, bytes, spells, -⟩ := (strict plusZeros 0).mp (by decide +kernel)
    exact (loose_of_spells spells).2 (by decide +kernel)

end LinkP2p.Identity
