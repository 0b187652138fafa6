import LinkP2p.Identity.Load

/-!
# Moving a legacy identity file

An identity file in the working directory is copied to the XDG location and then
removed. The copy is made under its final name, and later runs prefer whatever
exists there.
-/

namespace LinkP2p.Identity

open LinkP2p.Lib.Transition

/-- The XDG file and the legacy file. -/
structure Disk where
  xdg : File
  legacy : File

inductive Path where
  | xdg
  | legacy
  deriving DecidableEq, Repr

def Disk.read (disk : Disk) : Path → File
  | .xdg => disk.xdg
  | .legacy => disk.legacy

def Disk.write (disk : Disk) (file : File) : Path → Disk
  | .xdg => { disk with xdg := file }
  | .legacy => { disk with legacy := file }

/-- Where `migrate_identity` fails, or where the process is stopped in it. -/
inductive Stop where
  | readFails
  | directoryFails
  | openFails
  | writeFails (written : Nat)
  | hardenFails
  /-- The legacy file stays, with a warning. -/
  | removeFails
  | done
  /-- Nothing is created yet. -/
  | killedBefore
  /-- The new file exists and holds so many bytes. -/
  | killedWriting (written : Nat)
  | killedBeforeRemove
  | killedAfterRemove
  deriving DecidableEq, Repr

/-- `migrate_identity`; nothing is returned when the process is stopped in it. -/
def migrateIdentity (data : List UInt8) (disk : Disk) : Stop → Option (Except KeyError Unit) × Disk
  | .readFails => (some (.error .migrating), disk)
  | .killedBefore => (none, disk)
  | .directoryFails => (some (.error .creatingDirectory), disk)
  | .openFails => (some (.error .writing), disk)
  | .writeFails written =>
      (some (.error .migrating), { disk with xdg := some (data.take written) })
  | .killedWriting written => (none, { disk with xdg := some (data.take written) })
  | .hardenFails => (some (.error .settingPermissions), { disk with xdg := some data })
  | .killedBeforeRemove => (none, { disk with xdg := some data })
  | .removeFails => (some (.ok ()), { disk with xdg := some data })
  | .killedAfterRemove => (none, ⟨some data, none⟩)
  | .done => (some (.ok ()), ⟨some data, none⟩)

/-- `resolve_identity_path` without an explicit path; no path when the process is stopped. -/
def resolveIdentityPath (stop : Stop) (disk : Disk) : Option Path × Disk :=
  if disk.xdg.isSome then (some .xdg, disk)
  else
    match disk.legacy with
    | none => (some .xdg, disk)
    | some data =>
        match migrateIdentity data disk stop with
        | (some (.ok ()), disk) => (some .xdg, disk)
        -- the legacy file is used rather than a new identity
        | (some (.error _), disk) => (some .legacy, disk)
        | (none, disk) => (none, disk)

/-- One start of the program; only the migration is disturbed. -/
structure Start where
  stop : Stop
  entropy : Option Entropy
  generated : SecretKey

def Start.call (start : Start) (passphrase : Option String) : Call :=
  ⟨passphrase, false, start.entropy, .done, false, start.generated⟩

section Starting

variable (crypto : Crypto) (passphrase : Option String)

/-- The path is resolved and the key loaded; no result when the process is stopped. -/
def startUp (start : Start) (disk : Disk) : Option (Except KeyError SecretKey) × Disk :=
  match resolveIdentityPath start.stop disk with
  | (none, disk) => (none, disk)
  | (some path, disk) =>
      let loaded := loadOrCreateSecretKey crypto (start.call passphrase) (disk.read path)
      (some loaded.1, disk.write loaded.2 path)

/-- The file as the loader reads it, with nothing written and nothing failing. -/
def keyOfFile (data : List UInt8) : Except KeyError SecretKey :=
  match validate passphrase with
  | .error error => .error error
  | .ok () =>
      if isEncryptedKey data then
        match passphrase with
        | none => .error .needsPassphrase
        | some pass => (decryptKeyHex crypto data pass).bind keyOfHex
      else
        match utf8Decode data with
        | none => .error .neitherFormat
        | some hex => keyOfHex hex

/-- The file that the next run will use. -/
def Disk.preferred (disk : Disk) : File := disk.xdg.or disk.legacy

/-- The file that the next run will use holds the key. -/
def Keeps (key : SecretKey) (disk : Disk) : Prop :=
  ∃ data, disk.preferred = some data ∧ keyOfFile crypto passphrase data = .ok key

/-- This run yields the key, unless it is stopped before. -/
def Yields (key : SecretKey) (disk : Disk) (start : Start) : Prop :=
  ∀ result, (startUp crypto passphrase start disk).1 = some result → result = .ok key

/-- Where the copy of the legacy file is left unfinished, what is there is read as the key too. -/
def Finished (key : SecretKey) (disk : Disk) (start : Start) : Prop :=
  disk.xdg = none → ∀ data, disk.legacy = some data → ∀ written,
    start.stop = .writeFails written ∨ start.stop = .killedWriting written →
      keyOfFile crypto passphrase (data.take written) = .ok key

end Starting

variable {crypto : Crypto} {passphrase : Option String} {key : SecretKey}

theorem secretKeyFromHex_calm (hex : Text) : secretKeyFromHex false hex = keyOfHex hex := by
  unfold secretKeyFromHex
  cases keyOfHex hex <;> rfl

theorem loadExisting_reads (valid : validate passphrase = .ok ()) (start : Start)
    (data : List UInt8) :
    (loadExisting crypto (start.call passphrase) data).1 = keyOfFile crypto passphrase data := by
  have calm : secretKeyFromHex (start.call passphrase).hardenFails = keyOfHex :=
    funext secretKeyFromHex_calm
  simp only [loadExisting, calm, keyOfFile, valid]
  split
  · cases passphrase <;> rfl
  · cases utf8Decode data <;> rfl

/-- A plaintext file may be sealed by the load, and holds the same key then. -/
theorem loadExisting_leaves (sound : crypto.Sound) (valid : validate passphrase = .ok ())
    {data : List UInt8} (read : keyOfFile crypto passphrase data = .ok key) (start : Start) :
    ∃ data', (loadExisting crypto (start.call passphrase) data).2 = some data' ∧
      keyOfFile crypto passphrase data' = .ok key := by
  cases sealing : isEncryptedKey data with
  | true =>
      refine ⟨data, ?_, read⟩
      rw [loadExisting, sealing, if_pos rfl]
      cases passphrase <;> rfl
  | false =>
      simp only [keyOfFile, valid, sealing, Bool.false_eq_true, if_false] at read
      cases text : utf8Decode data with
      | none =>
          rw [text] at read
          cases read
      | some hex =>
          rw [text] at read
          rw [loadExisting_plaintext sealing text]
          have plain : keyOfFile crypto passphrase data = .ok key := by
            simpa only [keyOfFile, valid, sealing, text, Bool.false_eq_true, if_false] using read
          cases passphrase with
          | none => exact ⟨data, rfl, plain⟩
          | some pass =>
              cases encrypted : encryptKeyHex crypto start.entropy (trim hex) pass with
              | error error =>
                  refine ⟨data, ?_, plain⟩
                  simp only [Start.call, writeKeyFileEncrypted, encrypted]
              | ok data' =>
                  refine ⟨data', ?_, ?_⟩
                  · simp only [Start.call, writeKeyFileEncrypted, encrypted, Write.apply]
                  · simp only [keyOfFile, valid, isEncryptedKey_of_encrypt encrypted, if_true,
                      decryptKeyHex_encryptKeyHex sound encrypted]
                    exact (keyOfHex_trim hex).trans read

/-- An undisturbed load returns the key and leaves a file with the key. -/
theorem load_kept (sound : crypto.Sound) {data : List UInt8}
    (read : keyOfFile crypto passphrase data = .ok key) (start : Start) :
    (loadOrCreateSecretKey crypto (start.call passphrase) (some data)).1 = .ok key ∧
      ∃ data', (loadOrCreateSecretKey crypto (start.call passphrase) (some data)).2 = some data' ∧
        keyOfFile crypto passphrase data' = .ok key := by
  cases valid : validate passphrase with
  | error error =>
      simp only [keyOfFile, valid, reduceCtorEq] at read
  | ok _ =>
      have loads : loadOrCreateSecretKey crypto (start.call passphrase) (some data) =
          loadExisting crypto (start.call passphrase) data := by
        simp only [loadOrCreateSecretKey, Start.call, valid, readFile, Bool.false_eq_true, if_false]
      rw [loads]
      exact ⟨(loadExisting_reads valid start data).trans read,
        loadExisting_leaves sound valid read start⟩

/-- A run that uses the XDG file, and leaves the key there. -/
theorem startUp_xdg (sound : crypto.Sound) {start : Start} {disk disk' : Disk} {data : List UInt8}
    (resolved : resolveIdentityPath start.stop disk = (some .xdg, disk'))
    (here : disk'.xdg = some data) (read : keyOfFile crypto passphrase data = .ok key) :
    Yields crypto passphrase key disk start ∧
      Keeps crypto passphrase key (startUp crypto passphrase start disk).2 := by
  obtain ⟨returned, data', left, read'⟩ := load_kept sound read start
  have run : startUp crypto passphrase start disk =
      (some (.ok key), { disk' with xdg := some data' }) := by
    simp only [startUp, resolved, Disk.read, here, returned, left, Disk.write]
  refine ⟨?_, data', ?_, read'⟩
  · intro result same
    rw [run] at same
    cases same
    rfl
  · rw [run]
    rfl

/-- A run that falls back to the legacy file. -/
theorem startUp_legacy (sound : crypto.Sound) {start : Start} {disk disk' : Disk}
    {data : List UInt8} (resolved : resolveIdentityPath start.stop disk = (some .legacy, disk'))
    (here : disk'.legacy = some data) (read : keyOfFile crypto passphrase data = .ok key) :
    Yields crypto passphrase key disk start ∧
      (Keeps crypto passphrase key (startUp crypto passphrase start disk).2 ↔
        ∀ copy, disk'.xdg = some copy → keyOfFile crypto passphrase copy = .ok key) := by
  obtain ⟨returned, data', left, read'⟩ := load_kept sound read start
  have run : startUp crypto passphrase start disk =
      (some (.ok key), { disk' with legacy := some data' }) := by
    simp only [startUp, resolved, Disk.read, here, returned, left, Disk.write]
  refine ⟨?_, ?_⟩
  · intro result same
    rw [run] at same
    cases same
    rfl
  · rw [run]
    cases copied : disk'.xdg with
    | none =>
        simp only [reduceCtorEq, false_implies, implies_true, iff_true]
        exact ⟨data', rfl, read'⟩
    | some copy =>
        simp only [Option.some.injEq, forall_eq', Keeps, Disk.preferred, Option.some_or,
          exists_eq_left']

/-- A run that is stopped in the migration. -/
theorem startUp_killed (key : SecretKey) {start : Start} {disk disk' : Disk}
    (resolved : resolveIdentityPath start.stop disk = (none, disk')) :
    Yields crypto passphrase key disk start ∧
      (startUp crypto passphrase start disk).2 = disk' := by
  have run : startUp crypto passphrase start disk = (none, disk') := by
    simp only [startUp, resolved]
  refine ⟨?_, by rw [run]⟩
  intro result same
  rw [run] at same
  cases same

/-- What `Finished` says when the legacy file is to be moved. -/
theorem finished_of_legacy {start : Start} {whole : List UInt8} :
    Finished crypto passphrase key ⟨none, some whole⟩ start ↔
      ∀ written, start.stop = .writeFails written ∨ start.stop = .killedWriting written →
        keyOfFile crypto passphrase (whole.take written) = .ok key := by
  constructor
  · intro finished written stopped
    exact finished rfl whole rfl written stopped
  · intro finished _ data same written stopped
    cases same
    exact finished written stopped

/-- The run that finds only the legacy file. -/
theorem finished_iff_legacy (sound : crypto.Sound) {data : List UInt8}
    (read : keyOfFile crypto passphrase data = .ok key) (start : Start) :
    Keeps crypto passphrase key (startUp crypto passphrase start ⟨none, some data⟩).2 ∧
        Yields crypto passphrase key ⟨none, some data⟩ start ↔
      ∀ written, start.stop = .writeFails written ∨ start.stop = .killedWriting written →
        keyOfFile crypto passphrase (data.take written) = .ok key := by
  -- the copy is complete, and the run goes on with it
  have moved : ∀ {disk' : Disk}, disk'.xdg = some data →
      resolveIdentityPath start.stop ⟨none, some data⟩ = (some .xdg, disk') →
        Keeps crypto passphrase key (startUp crypto passphrase start ⟨none, some data⟩).2 ∧
          Yields crypto passphrase key ⟨none, some data⟩ start := by
    intro disk' here resolved
    obtain ⟨yields, kept⟩ := startUp_xdg sound resolved here read
    exact ⟨kept, yields⟩
  -- the run goes on with the legacy file
  have fallback : ∀ xdg : File,
      resolveIdentityPath start.stop ⟨none, some data⟩ = (some .legacy, ⟨xdg, some data⟩) →
        (Keeps crypto passphrase key (startUp crypto passphrase start ⟨none, some data⟩).2 ∧
          Yields crypto passphrase key ⟨none, some data⟩ start ↔
            ∀ copy, xdg = some copy → keyOfFile crypto passphrase copy = .ok key) := by
    intro xdg resolved
    obtain ⟨yields, kept⟩ := startUp_legacy sound resolved rfl read
    exact (and_iff_left yields).trans kept
  -- the run is stopped, and the next one finds this disk
  have killed : ∀ {disk' : Disk},
      resolveIdentityPath start.stop ⟨none, some data⟩ = (none, disk') →
        (Keeps crypto passphrase key (startUp crypto passphrase start ⟨none, some data⟩).2 ∧
          Yields crypto passphrase key ⟨none, some data⟩ start ↔
            Keeps crypto passphrase key disk') := by
    intro disk' resolved
    obtain ⟨yields, left⟩ := startUp_killed key resolved
    rw [left]
    exact and_iff_left yields
  cases stop : start.stop with
  | removeFails | done =>
      simp only [reduceCtorEq, or_self, false_implies, implies_true, iff_true]
      exact moved rfl (by rw [stop]; rfl)
  | readFails | directoryFails | openFails =>
      rw [fallback none (by rw [stop]; rfl)]
      simp only [reduceCtorEq, or_self, false_implies, implies_true]
  | hardenFails =>
      rw [fallback (some data) (by rw [stop]; rfl)]
      simp only [reduceCtorEq, or_self, false_implies, implies_true, iff_true]
      intro copy same
      cases same
      exact read
  | writeFails written =>
      rw [fallback (some (data.take written)) (by rw [stop]; rfl)]
      simp only [Option.some.injEq, forall_eq', Stop.writeFails.injEq, reduceCtorEq, or_false]
  | killedWriting written =>
      rw [killed (by rw [stop]; rfl)]
      simp only [Keeps, Disk.preferred, Option.some_or, Option.some.injEq, exists_eq_left',
        Stop.killedWriting.injEq, reduceCtorEq, false_or, forall_eq']
  | killedBefore | killedBeforeRemove | killedAfterRemove =>
      rw [killed (by rw [stop]; rfl)]
      simp only [reduceCtorEq, or_self, false_implies, implies_true, iff_true]
      exact ⟨data, rfl, read⟩

theorem finished_iff (sound : crypto.Sound) {disk : Disk}
    (keeps : Keeps crypto passphrase key disk) (start : Start) :
    Keeps crypto passphrase key (startUp crypto passphrase start disk).2 ∧
        Yields crypto passphrase key disk start ↔
      Finished crypto passphrase key disk start := by
  obtain ⟨data, preferred, read⟩ := keeps
  obtain ⟨xdg, legacy⟩ := disk
  cases xdg with
  | some copy =>
      cases preferred
      have resolved : resolveIdentityPath start.stop ⟨some data, legacy⟩ =
          (some .xdg, ⟨some data, legacy⟩) := rfl
      obtain ⟨yields, kept⟩ := startUp_xdg sound resolved rfl read
      refine ⟨fun _ missing => ?_, fun _ => ⟨kept, yields⟩⟩
      cases missing
  | none =>
      cases legacy with
      | none => cases preferred
      | some whole =>
          cases preferred
          rw [finished_of_legacy]
          exact finished_iff_legacy sound read start

/-! ## Every sequence of starts -/

def startStep (crypto : Crypto) (passphrase : Option String) (disk : Disk) (start : Start) :
    Option Disk :=
  some (startUp crypto passphrase start disk).2

/-- Moving the legacy file keeps the key over every sequence of starts exactly when no start
leaves an unfinished copy. -/
theorem migration_kept_iff (crypto : Crypto) (sound : crypto.Sound) (passphrase : Option String)
    (key : SecretKey) (data : List UInt8) (read : keyOfFile crypto passphrase data = .ok key)
    (starts : List Start) :
    AllStates (startStep crypto passphrase) (Keeps crypto passphrase key) ⟨none, some data⟩ starts ∧
        AllSteps (startStep crypto passphrase) (Yields crypto passphrase key) ⟨none, some data⟩
          starts ↔
      AllSteps (startStep crypto passphrase) (Finished crypto passphrase key) ⟨none, some data⟩
        starts := by
  refine allStates_and_allSteps_iff (I := fun _ => True) (fun _ _ _ _ _ => trivial) ?_ trivial
    ⟨data, rfl, read⟩ starts
  intro disk start next _ keeps stepped
  cases stepped
  exact finished_iff sound keeps start

theorem keyOfFile_hexOfKey (crypto : Crypto) (key : SecretKey) :
    keyOfFile crypto none (utf8Encode (hexOfKey key)) = .ok key := by
  simp only [keyOfFile, validate, isEncryptedKey_hexOfKey, utf8Decode_utf8Encode,
    keyOfHex_hexOfKey, Bool.false_eq_true, if_false]

/-! ## Two starts in a row -/

/-- An undisturbed start uses the XDG file. -/
theorem resolve_done {start : Start} (done : start.stop = .done) (disk : Disk) :
    ∃ disk', resolveIdentityPath start.stop disk = (some .xdg, disk') := by
  obtain ⟨xdg, legacy⟩ := disk
  rw [done]
  cases xdg with
  | some data => exact ⟨_, rfl⟩
  | none =>
      cases legacy with
      | none => exact ⟨_, rfl⟩
      | some data => exact ⟨_, rfl⟩

/-- The key of an undisturbed load is the key of the file it leaves. -/
theorem load_leaves (sound : crypto.Sound) {start : Start} {file : File}
    (loaded : (loadOrCreateSecretKey crypto (start.call passphrase) file).1 = .ok key) :
    ∃ data, (loadOrCreateSecretKey crypto (start.call passphrase) file).2 = some data ∧
      keyOfFile crypto passphrase data = .ok key := by
  cases valid : validate passphrase with
  | error error =>
      simp only [loadOrCreateSecretKey, Start.call, valid] at loaded
      cases loaded
  | ok _ =>
      cases file with
      | some data =>
          have reads : loadOrCreateSecretKey crypto (start.call passphrase) (some data) =
              loadExisting crypto (start.call passphrase) data := by
            simp only [loadOrCreateSecretKey, Start.call, valid, readFile, Bool.false_eq_true,
              if_false]
          rw [reads, loadExisting_reads valid] at loaded
          exact (load_kept sound loaded start).2
      | none =>
          have creates : loadOrCreateSecretKey crypto (start.call passphrase) none =
              create crypto (start.call passphrase) none := by
            simp only [loadOrCreateSecretKey, Start.call, valid, readFile, Bool.false_eq_true,
              if_false]
          rw [creates] at loaded ⊢
          obtain ⟨rfl, -⟩ := create_holds loaded
          unfold create at loaded ⊢
          cases passphrase with
          | none => exact ⟨_, rfl, keyOfFile_hexOfKey crypto start.generated⟩
          | some pass =>
              cases sealing :
                encryptKeyHex crypto start.entropy (hexOfKey start.generated) pass with
              | error error =>
                  simp only [Start.call, writeKeyFileEncrypted, sealing] at loaded
                  cases loaded
              | ok data =>
                  refine ⟨data, ?_, ?_⟩
                  · simp only [Start.call, writeKeyFileEncrypted, sealing, Write.apply]
                  · simp only [keyOfFile, valid, isEncryptedKey_of_encrypt sealing, if_true,
                      decryptKeyHex_encryptKeyHex sound sealing, Except.bind, keyOfHex_hexOfKey,
                      Start.call]

/-- The next start has the key of this one. -/
theorem startUp_again (sound : crypto.Sound) {start next : Start} {disk : Disk}
    (done : start.stop = .done) (done' : next.stop = .done)
    (first : (startUp crypto passphrase start disk).1 = some (.ok key)) :
    (startUp crypto passphrase next (startUp crypto passphrase start disk).2).1 =
      some (.ok key) := by
  have ends : ∀ {start : Start}, start.stop = .done → ∀ disk, ∃ disk' : Disk,
      startUp crypto passphrase start disk =
        (some (loadOrCreateSecretKey crypto (start.call passphrase) (disk'.read .xdg)).1,
          disk'.write (loadOrCreateSecretKey crypto (start.call passphrase) (disk'.read .xdg)).2
            .xdg) := by
    intro start done disk
    obtain ⟨disk', resolved⟩ := resolve_done done disk
    exact ⟨disk', by simp only [startUp, resolved]⟩
  obtain ⟨disk', run⟩ := ends done disk
  rw [run] at first ⊢
  obtain ⟨data, left, read⟩ := load_leaves sound (Option.some.inj first)
  rw [left]
  have keeps : Keeps crypto passphrase key (disk'.write (some data) .xdg) := ⟨data, rfl, read⟩
  have finished : Finished crypto passphrase key (disk'.write (some data) .xdg) next := by
    intro missing
    cases missing
  obtain ⟨-, yields⟩ := (finished_iff sound keeps next).mpr finished
  obtain ⟨disk'', run'⟩ := ends done' (disk'.write (some data) .xdg)
  have ended := congrArg Prod.fst run'
  rw [ended, yields _ ended]

/-- The permissions of the copy cannot be set, and the next start goes on with the copy. -/
theorem migration_kept_hardenFails :
    AllStates (startStep plainCrypto none) (Keeps plainCrypto none 0)
        ⟨none, some (utf8Encode (hexOfKey 0))⟩ [⟨.hardenFails, none, 1⟩, ⟨.done, none, 2⟩] ∧
      AllSteps (startStep plainCrypto none) (Yields plainCrypto none 0)
        ⟨none, some (utf8Encode (hexOfKey 0))⟩ [⟨.hardenFails, none, 1⟩, ⟨.done, none, 2⟩] := by
  refine (migration_kept_iff plainCrypto plainCrypto_sound none 0 _
    (keyOfFile_hexOfKey _ 0) _).mpr ?_
  refine AllSteps.of_mem fun start member disk _ data _ written stopped => ?_
  rcases List.mem_pair.mp member with rfl | rfl
  · rcases stopped with stopped | stopped
    · cases stopped
    · cases stopped
  · rcases stopped with stopped | stopped
    · cases stopped
    · cases stopped

/-- The process is stopped right after it has created the new file: the next start prefers the
empty file and fails. -/
theorem migration_loses :
    ¬ ∀ (crypto : Crypto), crypto.Sound → ∀ (passphrase : Option String) (key : SecretKey)
      (data : List UInt8), keyOfFile crypto passphrase data = .ok key → ∀ starts,
        AllSteps (startStep crypto passphrase) (Yields crypto passphrase key) ⟨none, some data⟩
          starts := by
  intro kept
  have yields := kept plainCrypto plainCrypto_sound none 0 _ (keyOfFile_hexOfKey _ 0)
    [⟨.killedWriting 0, none, 1⟩, ⟨.done, none, 2⟩]
  have text : utf8Decode [] = some [] := utf8Decode_utf8Encode []
  have failed : (loadOrCreateSecretKey plainCrypto (Start.call ⟨.done, none, 2⟩ none) (some [])).1 =
      .error (.unexpectedLength 0) := by
    have plain : isEncryptedKey [] = false := rfl
    simp only [loadOrCreateSecretKey, Start.call, validate, readFile, loadExisting, plain, text,
      Bool.false_eq_true, if_false]
    rfl
  have second := ((yields _ rfl).2 _ rfl).1 _ (congrArg some failed)
  cases second

end LinkP2p.Identity
