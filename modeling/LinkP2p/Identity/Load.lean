import LinkP2p.Identity.KeyFile
import LinkP2p.Lib.Transition

/-!
# Loading and creating the identity key

A call reads the file, seals a plaintext file when a passphrase is given, and
creates a new key when nothing could be read. Each access to the file system may
fail; a write may leave any part of the new contents behind.
-/

namespace LinkP2p.Identity

open LinkP2p.Lib.Bytes LinkP2p.Lib.Transition

/-- The contents of the identity file; `none` when it does not exist. -/
abbrev File := Option (List UInt8)

/-- How a write of the key file goes. -/
inductive Write where
  | directoryFails
  | openFails
  /-- The file is truncated, and so many bytes are written before the failure. -/
  | stops (written : Nat)
  | hardenFails
  | done
  deriving DecidableEq, Repr

/-- `open_key_file_for_write`, `write_all` and `harden_key_permissions` -/
def Write.apply (data : List UInt8) (file : File) : Write → Except KeyError Unit × File
  | .directoryFails => (.error .creatingDirectory, file)
  | .openFails => (.error .writing, file)
  | .stops written => (.error .writing, some (data.take written))
  | .hardenFails => (.error .settingPermissions, some data)
  | .done => (.ok (), some data)

/-- One call of `load_or_create_secret_key`, with what the outside does during it. -/
structure Call where
  passphrase : Option String
  readFails : Bool
  entropy : Option Entropy
  write : Write
  hardenFails : Bool
  /-- What `SecretKey::generate` would yield. -/
  generated : SecretKey

/-- The part of `secret_key_from_hex` that touches the file is the last one. -/
def secretKeyFromHex (hardenFails : Bool) (hex : Text) : Except KeyError SecretKey :=
  (keyOfHex hex).bind fun key => if hardenFails then .error .settingPermissions else .ok key

section Loading

variable (crypto : Crypto)

def writeKeyFileEncrypted (call : Call) (hex : Text) (passphrase : String) (file : File) :
    Except KeyError Unit × File :=
  match encryptKeyHex crypto call.entropy hex passphrase with
  | .error error => (.error error, file)
  | .ok encrypted => call.write.apply encrypted file

def writeKeyFile (call : Call) (hex : Text) (file : File) : Except KeyError Unit × File :=
  call.write.apply (utf8Encode hex) file

/-- The file could be read. -/
def loadExisting (call : Call) (data : List UInt8) : Except KeyError SecretKey × File :=
  if isEncryptedKey data then
    match call.passphrase with
    | none => (.error .needsPassphrase, some data)
    | some pass =>
        ((decryptKeyHex crypto data pass).bind (secretKeyFromHex call.hardenFails), some data)
  else
    match utf8Decode data with
    | none => (.error .neitherFormat, some data)
    | some hex =>
        -- a failure to encrypt is only a warning
        let file := match call.passphrase with
          | none => some data
          | some pass => (writeKeyFileEncrypted crypto call (trim hex) pass (some data)).2
        (secretKeyFromHex call.hardenFails hex, file)

/-- No file yet, or so the loader takes it. -/
def create (call : Call) (file : File) : Except KeyError SecretKey × File :=
  let written := match call.passphrase with
    | some pass => writeKeyFileEncrypted crypto call (hexOfKey call.generated) pass file
    | none => writeKeyFile call (hexOfKey call.generated) file
  (written.1.map fun _ => call.generated, written.2)

def validate : Option String → Except KeyError Unit
  | none => .ok ()
  | some pass => validatePassphrase pass

/-- `fs::read` -/
def readFile (call : Call) (file : File) : Option (List UInt8) :=
  if call.readFails then none else file

def loadOrCreateSecretKey (call : Call) (file : File) : Except KeyError SecretKey × File :=
  match validate call.passphrase with
  | .error error => (.error error, file)
  | .ok () =>
      match readFile call file with
      | some data => loadExisting crypto call data
      | none => create crypto call file

/-! ## What the file holds -/

/-- The file holds the key as plaintext hex or sealed under some passphrase. -/
inductive Holds (key : SecretKey) : File → Prop
  | plaintext {data : List UInt8} {hex : Text} (plain : isEncryptedKey data = false)
      (text : utf8Decode data = some hex) (parsed : keyOfHex hex = .ok key) :
      Holds key (some data)
  | encrypted {data : List UInt8} {hex : Text} {passphrase : String} {entropy : Option Entropy}
      (sealing : encryptKeyHex crypto entropy hex passphrase = .ok data)
      (parsed : keyOfHex hex = .ok key) : Holds key (some data)

/-- A key is generated. -/
def Generates (call : Call) (file : File) : Prop :=
  validate call.passphrase = .ok () ∧ readFile call file = none

/-- The rewrite of a plaintext file stops short. -/
def Torn (call : Call) (file : File) : Prop :=
  ∃ data hex pass encrypted written, file = some data ∧ isEncryptedKey data = false ∧
    utf8Decode data = some hex ∧ call.passphrase = some pass ∧
    encryptKeyHex crypto call.entropy (trim hex) pass = .ok encrypted ∧
    call.write = .stops written ∧ written < encrypted.length

/-- With a usable passphrase or none, the file can be read, and a rewrite of it that has
truncated it writes all of it. -/
def Undamaged (file : File) (call : Call) : Prop :=
  validate call.passphrase = .ok () → call.readFails = false ∧ ¬ Torn crypto call file

/-- What one call owes. -/
def Faithful (key : SecretKey) (file : File) (call : Call) : Prop :=
  (∀ result, (loadOrCreateSecretKey crypto call file).1 = .ok result → result = key) ∧
    (Generates call file → file = none)

end Loading

variable {crypto : Crypto} {key : SecretKey} {file : File} {call : Call}

theorem keyOfHex_trim (hex : Text) : keyOfHex (trim hex) = keyOfHex hex := by
  rw [keyOfHex, keyOfHex, trim_trim]

/-- The text of a key has 64 bytes around which there is only white space. -/
theorem length_of_keyOfHex {hex : Text} (parsed : keyOfHex hex = .ok key) :
    (utf8Encode (trim hex)).length = 64 := by
  by_contra other
  rw [keyOfHex, if_pos other] at parsed
  cases parsed

theorem secretKeyFromHex_eq {hardenFails : Bool} {hex : Text} {result : SecretKey}
    (parsed : keyOfHex hex = .ok key)
    (loaded : secretKeyFromHex hardenFails hex = .ok result) : result = key := by
  rw [secretKeyFromHex, parsed] at loaded
  cases hardenFails with
  | false =>
      cases loaded
      rfl
  | true => cases loaded

theorem holds_hexOfKey (crypto : Crypto) (key : SecretKey) :
    Holds crypto key (some (utf8Encode (hexOfKey key))) :=
  .plaintext (isEncryptedKey_hexOfKey key) (utf8Decode_utf8Encode _) (keyOfHex_hexOfKey key)

/-- A new key is returned only when the file holds it. -/
theorem create_holds (created : (create crypto call file).1 = .ok key) :
    key = call.generated ∧ Holds crypto key (create crypto call file).2 := by
  have written : ∀ data, Holds crypto call.generated (some data) →
      ((call.write.apply data file).1.map fun _ => call.generated) = .ok key →
        key = call.generated ∧ Holds crypto key (call.write.apply data file).2 := by
    intro data holds done
    cases how : call.write with
    | done =>
        rw [how] at done
        cases done
        exact ⟨rfl, holds⟩
    | _ =>
        rw [how] at done
        cases done
  unfold create at created ⊢
  cases given : call.passphrase with
  | none =>
      simp only [given] at created ⊢
      exact written _ (holds_hexOfKey crypto _) created
  | some pass =>
      simp only [given, writeKeyFileEncrypted] at created ⊢
      cases sealing : encryptKeyHex crypto call.entropy (hexOfKey call.generated) pass with
      | error error =>
          simp only [sealing] at created
          cases created
      | ok encrypted =>
          simp only [sealing] at created ⊢
          exact written _ (.encrypted sealing (keyOfHex_hexOfKey _)) created

/-! ## One call -/

/-- A call on a sealed file returns its key or fails, and leaves the file alone. -/
theorem loadExisting_sealed (call : Call) (sound : crypto.Sound) {data : List UInt8} {hex : Text}
    {passphrase : String} {entropy : Option Entropy}
    (sealing : encryptKeyHex crypto entropy hex passphrase = .ok data)
    (parsed : keyOfHex hex = .ok key) :
    (loadExisting crypto call data).2 = some data ∧
      ∀ result, (loadExisting crypto call data).1 = .ok result → result = key := by
  unfold loadExisting
  rw [if_pos (isEncryptedKey_of_encrypt sealing)]
  cases call.passphrase with
  | none =>
      refine ⟨rfl, fun result loaded => ?_⟩
      cases loaded
  | some pass =>
      refine ⟨rfl, fun result loaded => ?_⟩
      cases decrypted : decryptKeyHex crypto data pass with
      | error error =>
          simp only [decrypted] at loaded
          cases loaded
      | ok text =>
          rw [decryptKeyHex_only sound sealing decrypted] at decrypted
          simp only [decrypted] at loaded
          exact secretKeyFromHex_eq parsed loaded

/-- What is left of a sealed key when the end is missing holds no key. -/
theorem not_holds_take (sound : crypto.Sound) {hex : Text} {passphrase : String}
    {entropy : Option Entropy} {encrypted : List UInt8} {written : Nat}
    (width : (utf8Encode hex).length = 64)
    (sealing : encryptKeyHex crypto entropy hex passphrase = .ok encrypted)
    (short : written < encrypted.length) (key : SecretKey) :
    ¬ Holds crypto key (some (encrypted.take written)) := by
  have total := length_encryptKeyHex sound sealing
  have taken : (encrypted.take written).length = written :=
    List.length_take_of_le (Nat.le_of_lt short)
  rw [width] at total
  intro holds
  cases holds with
  | plaintext plain text parsed =>
      have long := Nat.le_trans (Nat.le_of_eq (length_of_keyOfHex parsed).symm) (length_trim_le _)
      rw [utf8Encode_of_utf8Decode text, taken] at long
      have magic : isEncryptedKey (encrypted.take written) = true := by
        obtain ⟨random, dk, ciphertext, -, -, rfl⟩ := encryptKeyHex_eq_ok sealing
        refine List.isPrefixOf_iff_prefix.mpr (List.prefix_take_iff.mpr ⟨?_, ?_⟩)
        · rw [List.append_assoc, List.append_assoc]
          exact List.prefix_append _ _
        · exact Nat.le_trans (by decide : keyFileMagic.length ≤ 64) long
      rw [magic] at plain
      cases plain
  | encrypted sealing' parsed =>
      have long := Nat.le_trans (Nat.le_of_eq (length_of_keyOfHex parsed).symm) (length_trim_le _)
      have total' := length_encryptKeyHex sound sealing'
      rw [taken] at total'
      omega

/-- Sealing a plaintext file keeps the key unless the write stops short. -/
theorem upgrade_holds_iff (sound : crypto.Sound) {data : List UInt8} {hex : Text} {pass : String}
    (plain : isEncryptedKey data = false) (text : utf8Decode data = some hex)
    (parsed : keyOfHex hex = .ok key) (given : call.passphrase = some pass) :
    Holds crypto key (writeKeyFileEncrypted crypto call (trim hex) pass (some data)).2 ↔
      ¬ Torn crypto call (some data) := by
  unfold writeKeyFileEncrypted
  cases sealing : encryptKeyHex crypto call.entropy (trim hex) pass with
  | error error =>
      refine ⟨fun _ => ?_, fun _ => .plaintext plain text parsed⟩
      rintro ⟨_, hex', pass', encrypted, _, ⟨⟩, -, text', given', sealing', -⟩
      cases text.symm.trans text'
      cases given.symm.trans given'
      cases sealing.symm.trans sealing'
  | ok encrypted =>
      have whole : Holds crypto key (some encrypted) :=
        .encrypted sealing ((keyOfHex_trim hex).trans parsed)
      have torn_iff : Torn crypto call (some data) ↔
          ∃ written, call.write = .stops written ∧ written < encrypted.length := by
        constructor
        · rintro ⟨_, hex', pass', encrypted', written, ⟨⟩, -, text', given', sealing', stops, short⟩
          cases text.symm.trans text'
          cases given.symm.trans given'
          cases sealing.symm.trans sealing'
          exact ⟨written, stops, short⟩
        · rintro ⟨written, stops, short⟩
          exact ⟨data, hex, pass, encrypted, written, rfl, plain, text, given, sealing, stops,
            short⟩
      rw [torn_iff]
      cases how : call.write with
      | stops written =>
          simp only [Write.apply, Write.stops.injEq, exists_eq_left']
          constructor
          · intro holds short
            exact not_holds_take sound (length_of_keyOfHex parsed) sealing short key holds
          · intro complete
            rw [List.take_of_length_le (Nat.not_lt.mp complete)]
            exact whole
      | directoryFails | openFails =>
          simp only [reduceCtorEq, false_and, exists_false, not_false_eq_true, iff_true]
          exact .plaintext plain text parsed
      | hardenFails | done =>
          simp only [reduceCtorEq, false_and, exists_false, not_false_eq_true, iff_true]
          exact whole

theorem loadExisting_plaintext {data : List UInt8} {hex : Text}
    (plain : isEncryptedKey data = false) (text : utf8Decode data = some hex) :
    loadExisting crypto call data =
      (secretKeyFromHex call.hardenFails hex,
        match call.passphrase with
        | none => some data
        | some pass => (writeKeyFileEncrypted crypto call (trim hex) pass (some data)).2) := by
  simp only [loadExisting, plain, text, Bool.false_eq_true, if_false]

/-- A call on a file that could be read. -/
theorem loadExisting_iff (call : Call) (sound : crypto.Sound) {data : List UInt8}
    (holds : Holds crypto key (some data)) :
    (∀ result, (loadExisting crypto call data).1 = .ok result → result = key) ∧
      (Holds crypto key (loadExisting crypto call data).2 ↔ ¬ Torn crypto call (some data)) := by
  cases holds with
  | encrypted sealing parsed =>
      obtain ⟨kept, same⟩ := loadExisting_sealed call sound sealing parsed
      refine ⟨same, ?_⟩
      rw [kept]
      refine ⟨fun _ => ?_, fun _ => .encrypted sealing parsed⟩
      rintro ⟨_, _, _, _, _, ⟨⟩, plain, -⟩
      cases plain.symm.trans (isEncryptedKey_of_encrypt sealing)
  | plaintext plain text parsed =>
      rw [loadExisting_plaintext plain text]
      refine ⟨fun result loaded => secretKeyFromHex_eq parsed loaded, ?_⟩
      cases given : call.passphrase with
      | none =>
          refine ⟨fun _ => ?_, fun _ => .plaintext plain text parsed⟩
          rintro ⟨_, _, _, _, _, -, -, -, given', -⟩
          cases given.symm.trans given'
      | some pass => exact upgrade_holds_iff sound plain text parsed given

theorem undamaged_iff (sound : crypto.Sound) (holds : Holds crypto key file) :
    Holds crypto key (loadOrCreateSecretKey crypto call file).2 ∧ Faithful crypto key file call ↔
      Undamaged crypto file call := by
  obtain ⟨data, rfl⟩ : ∃ data, file = some data := by
    cases holds with
    | plaintext => exact ⟨_, rfl⟩
    | encrypted => exact ⟨_, rfl⟩
  unfold Faithful Undamaged loadOrCreateSecretKey Generates
  cases valid : validate call.passphrase with
  | error error =>
      simp only [reduceCtorEq, false_and, false_implies, implies_true, and_true, iff_true]
      exact holds
  | ok _ =>
      cases fails : call.readFails with
      | true =>
          have unread : readFile call (some data) = none := by rw [readFile, fails]; rfl
          simp only [unread, and_self, reduceCtorEq, imp_false, not_true_eq_false, and_false,
            Bool.true_eq_false, false_and]
      | false =>
          have read : readFile call (some data) = some data := by rw [readFile, fails]; rfl
          obtain ⟨returns, kept⟩ := loadExisting_iff call sound holds
          simp only [read, reduceCtorEq, and_false, false_implies, and_true, true_and,
            forall_const, kept]
          exact and_iff_left returns

/-! ## Every sequence of calls -/

/-- The file after a call. -/
def step (crypto : Crypto) (file : File) (call : Call) : Option File :=
  some (loadOrCreateSecretKey crypto call file).2

/-- After each call the file holds the key, and each call keeps to it. -/
def KeyKept (crypto : Crypto) (key : SecretKey) (file : File) (calls : List Call) : Prop :=
  AllStates (step crypto) (Holds crypto key) file calls ∧
    AllSteps (step crypto) (Faithful crypto key) file calls

/-- The key survives a sequence of calls exactly when every call that gets past its
passphrase can read the file and completes a rewrite that it has begun. -/
theorem keyKept_iff (crypto : Crypto) (sound : crypto.Sound) (key : SecretKey) (file : File)
    (holds : Holds crypto key file) (calls : List Call) :
    KeyKept crypto key file calls ↔
      AllSteps (step crypto) (Undamaged crypto) file calls := by
  refine allStates_and_allSteps_iff (I := fun _ => True) (fun _ _ _ _ _ => trivial) ?_ trivial
    holds calls
  intro state call next _ holds stepped
  cases stepped
  exact undamaged_iff sound holds

/-- A cipher that hides nothing. -/
def plainCrypto : Crypto where
  deriveKey _ _ := some []
  encrypt _ _ msg := some (msg ++ List.replicate keyFileTagLen 0)
  decrypt _ _ ciphertext := some (ciphertext.take (ciphertext.length - keyFileTagLen))

theorem plainCrypto_sound : plainCrypto.Sound where
  opens dk nonce msg ciphertext encrypted := by
    cases encrypted
    simp [plainCrypto]
  authentic dk dk' nonce msg msg' ciphertext encrypted decrypted := by
    cases encrypted
    simpa [plainCrypto] using decrypted.symm
  tagged dk nonce msg ciphertext encrypted := by
    cases encrypted
    rw [List.length_append, List.length_replicate]

/-- The salt and the nonce of a rewrite. -/
def sampleEntropy : Entropy where
  salt := List.replicate keyFileSaltLen 0x5a
  nonce := List.replicate keyFileNonceLen 0xc3
  saltLen := List.length_replicate
  nonceLen := List.length_replicate

/-- A call that cannot change the permissions, one that seals the file, one that opens it again
and one without the passphrase. -/
def sealingCalls : List Call :=
  [⟨none, false, none, .done, true, 1⟩,
    ⟨some "correct horse battery staple", false, some sampleEntropy, .done, false, 1⟩,
    ⟨some "correct horse battery staple", false, none, .done, false, 1⟩,
    ⟨none, false, none, .done, false, 1⟩]

theorem keyKept_sealed :
    KeyKept plainCrypto 0 (some (utf8Encode (hexOfKey 0))) sealingCalls := by
  refine (keyKept_iff plainCrypto plainCrypto_sound 0 _ (holds_hexOfKey _ 0) _).mpr ?_
  refine AllSteps.of_mem fun call member file _ => ?_
  have whole : call.readFails = false ∧ call.write = .done := by
    simp only [sealingCalls, List.mem_cons, List.not_mem_nil, or_false] at member
    rcases member with rfl | rfl | rfl | rfl
    all_goals exact ⟨rfl, rfl⟩
  refine ⟨whole.1, ?_⟩
  rintro ⟨_, _, _, _, _, -, -, -, -, -, stops, -⟩
  cases whole.2.symm.trans stops

/-- When the file exists but cannot be read, a new key is made and written over it. -/
theorem key_lost :
    ¬ ∀ (crypto : Crypto), crypto.Sound → ∀ (key : SecretKey) (file : File),
      Holds crypto key file → ∀ calls, KeyKept crypto key file calls := by
  intro kept
  obtain ⟨-, faithful⟩ := kept plainCrypto plainCrypto_sound 0 _ (holds_hexOfKey _ 0)
    [⟨none, true, none, .done, false, 1⟩]
  exact absurd ((faithful _ rfl).1.1 1 rfl) (by decide)

end LinkP2p.Identity
