import LinkP2p.Lib.Bytes
import Mathlib.Data.List.DropRight
import Mathlib.Data.List.Flatten

/-!
# The contents of an identity file

A key is stored as 64 hex digits or as those digits sealed under a passphrase.
The loader tells the two apart by a magic prefix, trims white space and takes
digits of either case.
-/

namespace LinkP2p.Identity

open LinkP2p.Lib.Bytes

/-- The 32 bytes of the ed25519 seed, first byte first. -/
abbrev SecretKey := BitVec 256

/-- `to_bytes` -/
def SecretKey.bytes (key : SecretKey) : List UInt8 := toBytes 32 key.toNat

def SecretKey.fromBytes (bytes : List UInt8) : SecretKey := BitVec.ofNat 256 (ofBytes bytes)

inductive KeyError where
  | passphraseTooShort (count : Nat)
  | passphraseTooLong (bytes : Nat)
  | needsPassphrase
  | notEncrypted
  /-- A slice of the header reaches beyond the file: the program panics. -/
  | sliceOutOfRange
  | derivingKey
  | wrongPassphrase
  | decryptedNotUtf8
  | neitherFormat
  | unexpectedLength (len : Nat)
  /-- A slice of two bytes cuts a character in half: the program panics. -/
  | sliceInsideChar
  | nonHex
  | noEntropy
  | encrypting
  | creatingDirectory
  | writing
  | settingPermissions
  | migrating
  deriving DecidableEq, Repr

/-! ## Text -/

/-- A string is the list of its characters. -/
abbrev Text := List Char

/-- `as_bytes` -/
def utf8Encode (text : Text) : List UInt8 := text.flatMap String.utf8EncodeChar

/-- `String::from_utf8` -/
def utf8Decode (bytes : List UInt8) : Option Text :=
  (ByteArray.utf8Decode? ⟨bytes.toArray⟩).map Array.toList

theorem utf8Decode_utf8Encode (text : Text) : utf8Decode (utf8Encode text) = some text := by
  have same : (⟨(utf8Encode text).toArray⟩ : ByteArray) = text.utf8Encode := by
    rw [List.utf8Encode, utf8Encode]
    exact ByteArray.ext (List.data_toByteArray).symm
  rw [utf8Decode, same, List.utf8Decode?_utf8Encode]
  rfl

theorem utf8Encode_of_utf8Decode {bytes : List UInt8} {text : Text}
    (decoded : utf8Decode bytes = some text) : utf8Encode text = bytes := by
  obtain ⟨chars, found, rfl⟩ := Option.map_eq_some_iff.mp decoded
  have valid : (ByteArray.utf8Decode? ⟨bytes.toArray⟩).isSome = true := by rw [found]; rfl
  have same := ByteArray.utf8Encode_get_utf8Decode? (h := valid)
  simp only [found, Option.get_some, List.utf8Encode] at same
  have data := congrArg (fun bytes => bytes.data.toList) same
  simpa [utf8Encode] using data

/-- `char::is_whitespace` -/
def isWhitespace (c : Char) : Bool :=
  let n := c.toNat
  (9 ≤ n && n ≤ 13) || n == 0x20 || n == 0x85 || n == 0xa0 || n == 0x1680 ||
    (0x2000 ≤ n && n ≤ 0x200a) || n == 0x2028 || n == 0x2029 || n == 0x202f || n == 0x205f ||
    n == 0x3000

/-- `str::trim` -/
def trim (text : Text) : Text := (text.dropWhile isWhitespace).rdropWhile isWhitespace

/-- Nothing is left to trim. -/
theorem trim_trim (text : Text) : trim (trim text) = trim text := by
  have front : (trim text).dropWhile isWhitespace = trim text := by
    rw [List.dropWhile_eq_self_iff]
    intro nonempty
    have starts : trim text <+: text.dropWhile isWhitespace := List.rdropWhile_prefix _ _
    have inside := Nat.lt_of_lt_of_le nonempty starts.length_le
    rw [starts.getElem]
    exact List.dropWhile_get_zero_not _ _ inside
  rw [trim, front]
  exact List.rdropWhile_idempotent _ _

theorem trim_sublist (text : Text) : (trim text).Sublist text :=
  (List.rdropWhile_prefix _ _).sublist.trans (List.dropWhile_suffix _).sublist

theorem length_trim_le (text : Text) :
    (utf8Encode (trim text)).length ≤ (utf8Encode text).length :=
  ((trim_sublist text).flatMap _).length_le

theorem trim_of_solid {text : Text} (solid : ∀ c ∈ text, isWhitespace c = false) :
    trim text = text := by
  have front : text.dropWhile isWhitespace = text := by
    rw [List.dropWhile_eq_self_iff]
    intro nonempty
    rw [solid _ (List.getElem_mem nonempty)]
    exact Bool.false_ne_true
  rw [trim, front, List.rdropWhile_eq_self_iff]
  intro nonempty
  rw [solid _ (List.getLast_mem nonempty)]
  exact Bool.false_ne_true

/-! ## Hex -/

def hexDigit (b : UInt8) : Option UInt8 :=
  if 48 ≤ b ∧ b ≤ 57 then some (b - 48)
  else if 97 ≤ b ∧ b ≤ 102 then some (b - 87)
  else if 65 ≤ b ∧ b ≤ 70 then some (b - 55)
  else none

/-- `u8::from_str_radix` of two bytes; a leading plus sign is allowed. -/
def hexPair (a b : UInt8) : Option UInt8 :=
  if a = 43 then hexDigit b
  else (hexDigit a).bind fun high => (hexDigit b).map fun low => 16 * high + low

/-- The byte continues a character. -/
def continues (b : UInt8) : Bool := b &&& 0xc0 == 0x80

/-- The loop over the pairs of hex digits. -/
def hexPairs : List UInt8 → Except KeyError (List UInt8)
  | a :: b :: rest =>
      if rest.head?.any continues then .error .sliceInsideChar
      else
        match hexPair a b with
        | none => .error .nonHex
        | some byte => (hexPairs rest).map (byte :: ·)
  | _ => .ok []

/-- The parsing part of `secret_key_from_hex`. -/
def keyOfHex (hex : Text) : Except KeyError SecretKey :=
  let bytes := utf8Encode (trim hex)
  if bytes.length ≠ 64 then .error (.unexpectedLength bytes.length)
  else (hexPairs bytes).map SecretKey.fromBytes

def hexChar (digit : Nat) : Char := Char.ofNat (if digit < 10 then 48 + digit else 87 + digit)

/-- `format!("{b:02x}")` -/
def hexByte (b : UInt8) : Text := [hexChar (b.toNat / 16), hexChar (b.toNat % 16)]

/-- The hex text that a new key is written as. -/
def hexOfKey (key : SecretKey) : Text := key.bytes.flatMap hexByte

/-- A digit is written as one byte that reads back as the digit. -/
theorem hexChar_spec : ∀ digit < 16,
    ∃ code, String.utf8EncodeChar (hexChar digit) = [code] ∧
      hexDigit code = some (UInt8.ofNat digit) ∧ code ≠ 43 ∧ continues code = false ∧
        isWhitespace (hexChar digit) = false := by
  have codes : ∀ digit < 16,
      String.utf8EncodeChar (hexChar digit) = [UInt8.ofNat (hexChar digit).toNat] ∧
        hexDigit (UInt8.ofNat (hexChar digit).toNat) = some (UInt8.ofNat digit) ∧
        UInt8.ofNat (hexChar digit).toNat ≠ 43 ∧
        continues (UInt8.ofNat (hexChar digit).toNat) = false ∧
        isWhitespace (hexChar digit) = false := by decide
  exact fun digit small => ⟨_, codes digit small⟩

/-- The two digits of a byte, in front of text that starts no character in the middle. -/
theorem hexPairs_hexByte (b : UInt8) {rest : List UInt8}
    (whole : rest.head?.any continues = false) :
    hexPairs (utf8Encode (hexByte b) ++ rest) = (hexPairs rest).map (b :: ·) := by
  have bound := b.toNat_lt
  obtain ⟨high, encodedHigh, readHigh, noPlus, -⟩ := hexChar_spec (b.toNat / 16) (by omega)
  obtain ⟨low, encodedLow, readLow, -⟩ := hexChar_spec (b.toNat % 16) (by omega)
  have value : 16 * UInt8.ofNat (b.toNat / 16) + UInt8.ofNat (b.toNat % 16) = b := by
    apply UInt8.toNat_inj.mp
    rw [UInt8.toNat_add, UInt8.toNat_mul, UInt8.toNat_ofNat', UInt8.toNat_ofNat']
    change (16 * (b.toNat / 16 % 256) % 256 + b.toNat % 16 % 256) % 256 = b.toNat
    omega
  have split : utf8Encode (hexByte b) ++ rest = high :: low :: rest := by
    rw [utf8Encode, hexByte, List.flatMap_cons, List.flatMap_cons, encodedHigh, encodedLow]
    rfl
  rw [split, hexPairs, whole, hexPair, if_neg noPlus, readHigh, readLow]
  simp only [Bool.false_eq_true, if_false, Option.bind_some, Option.map_some, value]

theorem hexPairs_bytes (bytes : List UInt8) :
    hexPairs (utf8Encode (bytes.flatMap hexByte)) = .ok bytes := by
  induction bytes with
  | nil => rfl
  | cons b rest ih =>
      have whole : (utf8Encode (rest.flatMap hexByte)).head?.any continues = false := by
        cases rest with
        | nil => rfl
        | cons next later =>
            have bound := next.toNat_lt
            obtain ⟨high, encoded, -, -, starts, -⟩ := hexChar_spec (next.toNat / 16) (by omega)
            rw [List.flatMap_cons, utf8Encode, hexByte, List.cons_append, List.flatMap_cons,
              encoded]
            exact starts
      rw [List.flatMap_cons, utf8Encode, List.flatMap_append]
      change hexPairs (utf8Encode (hexByte b) ++ utf8Encode (rest.flatMap hexByte)) = _
      rw [hexPairs_hexByte b whole, ih]
      rfl

theorem length_utf8Encode_hex (bytes : List UInt8) :
    (utf8Encode (bytes.flatMap hexByte)).length = 2 * bytes.length := by
  induction bytes with
  | nil => rfl
  | cons b rest ih =>
      have bound := b.toNat_lt
      obtain ⟨high, encodedHigh, -⟩ := hexChar_spec (b.toNat / 16) (by omega)
      obtain ⟨low, encodedLow, -⟩ := hexChar_spec (b.toNat % 16) (by omega)
      have two : (utf8Encode (hexByte b)).length = 2 := by
        rw [utf8Encode, hexByte, List.flatMap_cons, List.flatMap_cons, encodedHigh, encodedLow]
        rfl
      rw [List.flatMap_cons, utf8Encode, List.flatMap_append, List.length_append, List.length_cons]
      change (utf8Encode (hexByte b)).length + (utf8Encode (rest.flatMap hexByte)).length = _
      omega

/-- A key that was written is read back. -/
theorem keyOfHex_hexOfKey (key : SecretKey) : keyOfHex (hexOfKey key) = .ok key := by
  have solid : ∀ c ∈ hexOfKey key, isWhitespace c = false := by
    intro c member
    obtain ⟨b, -, inside⟩ := List.mem_flatMap.mp member
    have bound := b.toNat_lt
    rcases List.mem_pair.mp inside with rfl | rfl
    · obtain ⟨_, _, _, _, _, solid⟩ := hexChar_spec (b.toNat / 16) (by omega)
      exact solid
    · obtain ⟨_, _, _, _, _, solid⟩ := hexChar_spec (b.toNat % 16) (by omega)
      exact solid
  have width : (utf8Encode (hexOfKey key)).length = 64 := by
    rw [hexOfKey, length_utf8Encode_hex, SecretKey.bytes, length_toBytes]
  have same : SecretKey.fromBytes key.bytes = key := by
    rw [SecretKey.fromBytes, SecretKey.bytes, ofBytes_toBytes, Nat.mod_eq_of_lt]
    · exact BitVec.ofNat_toNat 256 key
    · exact key.isLt
  rw [keyOfHex, trim_of_solid solid, width, hexOfKey, hexPairs_bytes]
  exact congrArg Except.ok same

/-! ## Sealed files -/

def passphraseMinLen : Nat := 8

def passphraseMaxLen : Nat := 1024

/-- `validate_passphrase` -/
def validatePassphrase (passphrase : String) : Except KeyError Unit :=
  if passphrase.length < passphraseMinLen then .error (.passphraseTooShort passphrase.length)
  else if passphrase.utf8ByteSize > passphraseMaxLen then
    .error (.passphraseTooLong passphrase.utf8ByteSize)
  else .ok ()

/-- `KEY_FILE_MAGIC`: `linkp2p-k1` -/
def keyFileMagic : List UInt8 := [0x6c, 0x69, 0x6e, 0x6b, 0x70, 0x32, 0x70, 0x2d, 0x6b, 0x31]

def keyFileSaltLen : Nat := 16

def keyFileNonceLen : Nat := 24

def keyFileTagLen : Nat := 16

def isEncryptedKey (data : List UInt8) : Bool := keyFileMagic.isPrefixOf data

/-- Argon2id and XChaCha20-Poly1305 with the magic as associated data. -/
structure Crypto where
  deriveKey : String → List UInt8 → Option (List UInt8)
  encrypt : (dk nonce msg : List UInt8) → Option (List UInt8)
  decrypt : (dk nonce ciphertext : List UInt8) → Option (List UInt8)

/-- What the cipher promises: a ciphertext opens to its message or not at all, it
opens under its own key, and it is longer than the message by the tag. -/
structure Crypto.Sound (crypto : Crypto) : Prop where
  opens : ∀ dk nonce msg ciphertext, crypto.encrypt dk nonce msg = some ciphertext →
    crypto.decrypt dk nonce ciphertext = some msg
  authentic : ∀ dk dk' nonce msg msg' ciphertext, crypto.encrypt dk nonce msg = some ciphertext →
    crypto.decrypt dk' nonce ciphertext = some msg' → msg' = msg
  tagged : ∀ dk nonce msg ciphertext, crypto.encrypt dk nonce msg = some ciphertext →
    ciphertext.length = msg.length + keyFileTagLen

/-- What the random number generator delivers for one file. -/
structure Entropy where
  salt : List UInt8
  nonce : List UInt8
  saltLen : salt.length = keyFileSaltLen
  nonceLen : nonce.length = keyFileNonceLen

section Sealing

variable (crypto : Crypto)

def encryptKeyHex (entropy : Option Entropy) (hex : Text) (passphrase : String) :
    Except KeyError (List UInt8) :=
  match entropy with
  | none => .error .noEntropy
  | some random =>
      match crypto.deriveKey passphrase random.salt with
      | none => .error .derivingKey
      | some dk =>
          match crypto.encrypt dk random.nonce (utf8Encode hex) with
          | none => .error .encrypting
          | some ciphertext => .ok (keyFileMagic ++ random.salt ++ random.nonce ++ ciphertext)

def decryptKeyHex (data : List UInt8) (passphrase : String) : Except KeyError Text :=
  if !isEncryptedKey data then .error .notEncrypted
  else if data.length < keyFileMagic.length + keyFileSaltLen + keyFileNonceLen then
    .error .sliceOutOfRange
  else
    match crypto.deriveKey passphrase (slice data keyFileMagic.length keyFileSaltLen) with
    | none => .error .derivingKey
    | some dk =>
        match crypto.decrypt dk
            (slice data (keyFileMagic.length + keyFileSaltLen) keyFileNonceLen)
            (data.drop (keyFileMagic.length + keyFileSaltLen + keyFileNonceLen)) with
        | none => .error .wrongPassphrase
        | some plaintext =>
            match utf8Decode plaintext with
            | none => .error .decryptedNotUtf8
            | some hex => .ok hex

end Sealing

/-- What a file sealed under a passphrase consists of. -/
theorem encryptKeyHex_eq_ok {crypto : Crypto} {entropy : Option Entropy} {hex : Text}
    {passphrase : String} {data : List UInt8}
    (encrypted : encryptKeyHex crypto entropy hex passphrase = .ok data) :
    ∃ (random : Entropy) (dk ciphertext : List UInt8),
      crypto.deriveKey passphrase random.salt = some dk ∧
        crypto.encrypt dk random.nonce (utf8Encode hex) = some ciphertext ∧
        data = keyFileMagic ++ random.salt ++ random.nonce ++ ciphertext := by
  cases entropy with
  | none => cases encrypted
  | some random =>
      unfold encryptKeyHex at encrypted
      cases derived : crypto.deriveKey passphrase random.salt with
      | none => simp only [derived, reduceCtorEq] at encrypted
      | some dk =>
          cases sealing : crypto.encrypt dk random.nonce (utf8Encode hex) with
          | none => simp only [derived, sealing, reduceCtorEq] at encrypted
          | some ciphertext =>
              simp only [derived, sealing] at encrypted
              cases encrypted
              exact ⟨random, dk, ciphertext, derived, sealing, rfl⟩

theorem isEncryptedKey_append (rest : List UInt8) : isEncryptedKey (keyFileMagic ++ rest) = true :=
  List.isPrefixOf_iff_prefix.mpr (List.prefix_append _ _)

/-- The magic does not begin with a hex digit. -/
theorem isEncryptedKey_hexOfKey (key : SecretKey) :
    isEncryptedKey (utf8Encode (hexOfKey key)) = false := by
  have width : key.bytes.length = 32 := length_toBytes 32 key.toNat
  cases split : key.bytes with
  | nil =>
      rw [split] at width
      cases width
  | cons b rest =>
      have bound := b.toNat_lt
      obtain ⟨high, encoded, digit, -⟩ := hexChar_spec (b.toNat / 16) (by omega)
      have starts : utf8Encode (hexOfKey key) =
          high :: utf8Encode (hexChar (b.toNat % 16) :: rest.flatMap hexByte) := by
        rw [hexOfKey, split, List.flatMap_cons, hexByte, utf8Encode, List.cons_append,
          List.flatMap_cons, encoded]
        rfl
      have other : high ≠ 0x6c := by
        rintro rfl
        cases digit.symm.trans (by decide : hexDigit 0x6c = none)
      rw [starts, isEncryptedKey, keyFileMagic, List.isPrefixOf_cons_cons,
        beq_false_of_ne other.symm, Bool.false_and]

section Sealed

variable {crypto : Crypto} {entropy : Option Entropy} {hex : Text} {passphrase : String}
  {data : List UInt8}

theorem isEncryptedKey_of_encrypt
    (encrypted : encryptKeyHex crypto entropy hex passphrase = .ok data) :
    isEncryptedKey data = true := by
  obtain ⟨random, dk, ciphertext, -, -, rfl⟩ := encryptKeyHex_eq_ok encrypted
  rw [List.append_assoc, List.append_assoc]
  exact isEncryptedKey_append _

/-- How the loader takes a sealed file apart. -/
theorem decryptKeyHex_sealed {random : Entropy} (ciphertext : List UInt8) (passphrase : String) :
    decryptKeyHex crypto (keyFileMagic ++ random.salt ++ random.nonce ++ ciphertext) passphrase =
      match crypto.deriveKey passphrase random.salt with
      | none => .error .derivingKey
      | some dk =>
          match crypto.decrypt dk random.nonce ciphertext with
          | none => .error .wrongPassphrase
          | some plaintext =>
              match utf8Decode plaintext with
              | none => .error .decryptedNotUtf8
              | some hex => .ok hex := by
  have width : (keyFileMagic ++ random.salt ++ random.nonce).length =
      keyFileMagic.length + keyFileSaltLen + keyFileNonceLen := by
    rw [List.length_append, List.length_append, random.saltLen, random.nonceLen]
  have salt : slice (keyFileMagic ++ random.salt ++ random.nonce ++ ciphertext)
      keyFileMagic.length keyFileSaltLen = random.salt := by
    rw [List.append_assoc]
    exact slice_append rfl random.saltLen _
  have nonce : slice (keyFileMagic ++ random.salt ++ random.nonce ++ ciphertext)
      (keyFileMagic.length + keyFileSaltLen) keyFileNonceLen = random.nonce := by
    refine slice_append ?_ random.nonceLen _
    rw [List.length_append, random.saltLen]
  have rest : (keyFileMagic ++ random.salt ++ random.nonce ++ ciphertext).drop
      (keyFileMagic.length + keyFileSaltLen + keyFileNonceLen) = ciphertext := by
    rw [← width, List.drop_left]
  have magic :
      isEncryptedKey (keyFileMagic ++ random.salt ++ random.nonce ++ ciphertext) = true := by
    rw [List.append_assoc, List.append_assoc]
    exact isEncryptedKey_append _
  have long : ¬ (keyFileMagic ++ random.salt ++ random.nonce ++ ciphertext).length <
      keyFileMagic.length + keyFileSaltLen + keyFileNonceLen := by
    rw [List.length_append, width]
    omega
  rw [decryptKeyHex, magic, if_neg (by decide), if_neg long, salt, nonce, rest]

/-- A sealed key opens under its passphrase. -/
theorem decryptKeyHex_encryptKeyHex (sound : crypto.Sound)
    (encrypted : encryptKeyHex crypto entropy hex passphrase = .ok data) :
    decryptKeyHex crypto data passphrase = .ok hex := by
  obtain ⟨random, dk, ciphertext, derived, sealing, rfl⟩ := encryptKeyHex_eq_ok encrypted
  rw [decryptKeyHex_sealed, derived]
  simp only [sound.opens _ _ _ _ sealing, utf8Decode_utf8Encode]

/-- No passphrase opens a sealed key to another text. -/
theorem decryptKeyHex_only (sound : crypto.Sound)
    (encrypted : encryptKeyHex crypto entropy hex passphrase = .ok data) {other : String}
    {text : Text} (decrypted : decryptKeyHex crypto data other = .ok text) : text = hex := by
  obtain ⟨random, dk, ciphertext, derived, sealing, rfl⟩ := encryptKeyHex_eq_ok encrypted
  rw [decryptKeyHex_sealed] at decrypted
  split at decrypted
  · cases decrypted
  · split at decrypted
    · cases decrypted
    · rename_i opened
      rw [sound.authentic _ _ _ _ _ _ sealing opened, utf8Decode_utf8Encode] at decrypted
      cases decrypted
      rfl

theorem length_encryptKeyHex (sound : crypto.Sound)
    (encrypted : encryptKeyHex crypto entropy hex passphrase = .ok data) :
    data.length = keyFileMagic.length + keyFileSaltLen + keyFileNonceLen +
      ((utf8Encode hex).length + keyFileTagLen) := by
  obtain ⟨random, dk, ciphertext, -, sealing, rfl⟩ := encryptKeyHex_eq_ok encrypted
  rw [List.length_append, List.length_append, List.length_append, random.saltLen,
    random.nonceLen, sound.tagged _ _ _ _ sealing]

end Sealed

end LinkP2p.Identity
