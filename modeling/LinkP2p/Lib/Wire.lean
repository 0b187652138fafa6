import Mathlib.Data.List.Basic

/-!
# Reading a chunked stream

A stream arrives in chunks of any size. A reader takes from its front, and what
it has taken is a code word of the value it returns. The code of a composite
reader is put together from those of its parts, so no later proof looks at the
chunks again.
-/

namespace LinkP2p.Lib.Wire

variable {ε β α γ : Type}

/-- A reader leaves the rest of the stream behind or fails. -/
abbrev Reader (ε β : Type) := StateT (List (List β)) (Except ε)

/-- Exactly `count` bytes from the front of what the chunks deliver. -/
def takeExact : Nat → List (List β) → Option (List β × List (List β))
  | count, [] => if count = 0 then some ([], []) else none
  | count, chunk :: rest =>
      if count ≤ chunk.length then some (chunk.take count, chunk.drop count :: rest)
      else (takeExact (count - chunk.length) rest).map fun taken =>
        (chunk ++ taken.1, taken.2)

/-- Read exactly `count` bytes, or fail with `eof` at the end of the stream. -/
def readExact (eof : ε) (count : Nat) : Reader ε β (List β) := fun chunks =>
  match takeExact count chunks with
  | some taken => .ok taken
  | none => .error eof

/-- Read `count` values one after the other. -/
def readTimes (reader : Reader ε β α) : Nat → Reader ε β (List α)
  | 0 => pure []
  | count + 1 => do
      let first ← reader
      let later ← readTimes reader count
      pure (first :: later)

/-- Read until the reader fails, at most `fuel` times. -/
def readUntilError (reader : Reader ε β α) :
    Nat → List (List β) → List α × List (List β)
  | 0, chunks => ([], chunks)
  | fuel + 1, chunks =>
      match reader chunks with
      | .error _ => ([], chunks)
      | .ok (value, later) =>
          let result := readUntilError reader fuel later
          (value :: result.1, result.2)

/-- Read until the reader fails; a value takes at least one byte. -/
def readAll (reader : Reader ε β α) (chunks : List (List β)) : List α × List (List β) :=
  readUntilError reader (chunks.flatten.length + 1) chunks

/-! ## The code of a reader -/

/-- The reader returns a value and leaves `rest` exactly when a code word of the
value stands before `rest`, however the stream is cut into chunks. -/
def Reads (reader : Reader ε β α) (code : List β → α → Prop) : Prop :=
  ∀ chunks value rest,
    (∃ later, reader chunks = .ok (value, later) ∧ later.flatten = rest) ↔
      ∃ bytes, code bytes value ∧ chunks.flatten = bytes ++ rest

theorem takeExact_spec (count : Nat) (chunks : List (List β)) :
    (takeExact count chunks = none ↔ chunks.flatten.length < count) ∧
      ∀ bytes later, takeExact count chunks = some (bytes, later) →
        bytes.length = count ∧ chunks.flatten = bytes ++ later.flatten := by
  induction chunks generalizing count with
  | nil =>
      unfold takeExact
      constructor
      · rw [ite_eq_right_iff]
        simp only [reduceCtorEq, imp_false, List.flatten_nil, List.length_nil]
        omega
      · intro bytes later taken
        obtain ⟨rfl, same⟩ := Option.ite_none_right_eq_some.mp taken
        cases same
        exact ⟨rfl, rfl⟩
  | cons chunk rest ih =>
      unfold takeExact
      rw [List.flatten_cons, List.length_append]
      split
      · rename_i inside
        constructor
        · simp only [reduceCtorEq, false_iff]
          omega
        · intro bytes later taken
          cases taken
          refine ⟨List.length_take_of_le inside, ?_⟩
          rw [List.flatten_cons, ← List.append_assoc, List.take_append_drop]
      · rename_i beyond
        obtain ⟨fails, takes⟩ := ih (count - chunk.length)
        constructor
        · rw [Option.map_eq_none_iff, fails]
          omega
        · intro bytes later taken
          obtain ⟨⟨tail, left⟩, found, same⟩ := Option.map_eq_some_iff.mp taken
          cases same
          obtain ⟨width, split⟩ := takes tail left found
          rw [List.length_append, width, split, List.append_assoc]
          exact ⟨by omega, rfl⟩

theorem Reads.readExact (eof : ε) (count : Nat) :
    Reads (Wire.readExact eof count : Reader ε β (List β))
      fun bytes value => bytes.length = count ∧ value = bytes := by
  intro chunks value rest
  obtain ⟨fails, takes⟩ := takeExact_spec count chunks
  unfold Wire.readExact
  cases found : takeExact count chunks with
  | none =>
      simp only [reduceCtorEq, false_and, exists_false, false_iff]
      rintro ⟨bytes, ⟨width, -⟩, split⟩
      have short := fails.mp found
      rw [split, List.length_append] at short
      omega
  | some taken =>
      obtain ⟨first, later⟩ := taken
      obtain ⟨width, split⟩ := takes first later found
      simp only [Except.ok.injEq, Prod.mk.injEq, and_assoc]
      constructor
      · rintro ⟨_, rfl, rfl, rfl⟩
        exact ⟨first, width, rfl, split⟩
      · rintro ⟨bytes, length, rfl, whole⟩
        obtain ⟨rfl, tail⟩ := List.append_inj (split.symm.trans whole) (width.trans length.symm)
        exact ⟨later, rfl, rfl, tail⟩

/-- The stream ends inside what is asked for. -/
theorem readExact_eof (eof : ε) {count : Nat} {chunks : List (List β)}
    (short : chunks.flatten.length < count) : readExact eof count chunks = .error eof := by
  have fails := (takeExact_spec count chunks).1.mpr short
  unfold readExact
  rw [fails]

theorem readExact_of_le (eof : ε) {count : Nat} {chunks : List (List β)}
    (enough : count ≤ chunks.flatten.length) :
    ∃ later, readExact eof count chunks = .ok (chunks.flatten.take count, later) ∧
      later.flatten = chunks.flatten.drop count := by
  obtain ⟨fails, takes⟩ := takeExact_spec count chunks
  cases found : takeExact count chunks with
  | none => exact absurd (fails.mp found) (Nat.not_lt.mpr enough)
  | some taken =>
      obtain ⟨bytes, later⟩ := taken
      obtain ⟨width, split⟩ := takes bytes later found
      refine ⟨later, ?_, ?_⟩
      · rw [split, List.take_left' width, readExact, found]
      · rw [split, List.drop_left' width]

theorem readExact_zero (eof : ε) : (readExact eof 0 : Reader ε β (List β)) = pure [] := by
  funext chunks
  cases chunks <;> rfl

theorem reader_bind (reader : Reader ε β α) (next : α → Reader ε β γ) (chunks : List (List β)) :
    (reader >>= next) chunks =
      match reader chunks with
      | .error e => .error e
      | .ok (value, later) => next value later := by
  change (reader chunks >>= fun taken => next taken.1 taken.2) = _
  cases reader chunks <;> rfl

theorem reader_ofExcept_ok (x : α) (chunks : List (List β)) :
    (MonadExcept.ofExcept (.ok x : Except ε α) : Reader ε β α) chunks = .ok (x, chunks) := rfl

theorem Reads.pure (x : α) :
    Reads (Pure.pure x : Reader ε β α) fun bytes value => bytes = [] ∧ value = x := by
  intro chunks value rest
  constructor
  · rintro ⟨later, same, rfl⟩
    cases same
    exact ⟨[], ⟨rfl, rfl⟩, rfl⟩
  · rintro ⟨_, ⟨rfl, rfl⟩, same⟩
    exact ⟨chunks, rfl, same⟩

theorem Reads.throw (error : ε) :
    Reads (MonadExcept.throw error : Reader ε β α) fun _ _ => False := by
  intro chunks value rest
  constructor
  · rintro ⟨later, same, -⟩
    cases same
  · rintro ⟨_, impossible, -⟩
    exact impossible.elim

theorem Reads.congr {reader : Reader ε β α} {code code' : List β → α → Prop}
    (reads : Reads reader code) (same : ∀ bytes value, code bytes value ↔ code' bytes value) :
    Reads reader code' := by
  intro chunks value rest
  rw [reads chunks value rest]
  exact exists_congr fun bytes => and_congr_left' (same bytes value)

theorem Reads.ofExcept (result : Except ε α) :
    Reads (MonadExcept.ofExcept result : Reader ε β α)
      fun bytes value => bytes = [] ∧ result = .ok value := by
  cases result with
  | ok x => exact (Reads.pure x).congr fun _ _ => by simp [eq_comm]
  | error e => exact (Reads.throw e).congr fun _ _ => by simp

/-- One reader after the other reads the one code after the other. -/
theorem Reads.bind {reader : Reader ε β α} {next : α → Reader ε β γ}
    {code : List β → α → Prop} {codes : α → List β → γ → Prop} (first : Reads reader code)
    (later : ∀ x, Reads (next x) (codes x)) :
    Reads (reader >>= next) fun bytes value =>
      ∃ front back x, bytes = front ++ back ∧ code front x ∧ codes x back value := by
  intro chunks value rest
  constructor
  · rintro ⟨left, ran, rfl⟩
    change (reader chunks >>= fun taken => next taken.1 taken.2) = _ at ran
    cases found : reader chunks with
    | error e => rw [found] at ran; cases ran
    | ok taken =>
        obtain ⟨x, middle⟩ := taken
        rw [found] at ran
        obtain ⟨front, coded, split⟩ := (first chunks x middle.flatten).mp ⟨middle, found, rfl⟩
        obtain ⟨back, coded', split'⟩ :=
          (later x middle value left.flatten).mp ⟨left, ran, rfl⟩
        refine ⟨front ++ back, ⟨front, back, x, rfl, coded, coded'⟩, ?_⟩
        rw [split, split', List.append_assoc]
  · rintro ⟨_, ⟨front, back, x, rfl, coded, coded'⟩, split⟩
    rw [List.append_assoc] at split
    obtain ⟨middle, found, left⟩ := (first chunks x (back ++ rest)).mpr ⟨front, coded, split⟩
    obtain ⟨final, ran, tail⟩ := (later x middle value rest).mpr ⟨back, coded', left⟩
    refine ⟨final, ?_, tail⟩
    change (reader chunks >>= fun taken => next taken.1 taken.2) = _
    rw [found]
    exact ran

theorem Reads.ite {test : Prop} [Decidable test] {reader reader' : Reader ε β α}
    {code code' : List β → α → Prop} (yes : test → Reads reader code)
    (no : ¬ test → Reads reader' code') :
    Reads (if test then reader else reader') fun bytes value =>
      test ∧ code bytes value ∨ ¬ test ∧ code' bytes value := by
  by_cases holds : test
  · rw [if_pos holds]
    exact (yes holds).congr fun _ _ => by simp [holds]
  · rw [if_neg holds]
    exact (no holds).congr fun _ _ => by simp [holds]

/-- At most one code word of one value stands at the front of a stream. -/
theorem Reads.unique {reader : Reader ε β α} {code : List β → α → Prop}
    (reads : Reads reader code) {bytes bytes' rest rest' : List β} {value value' : α}
    (coded : code bytes value) (coded' : code bytes' value')
    (same : bytes ++ rest = bytes' ++ rest') : value = value' ∧ rest = rest' := by
  have flat : [bytes ++ rest].flatten = bytes ++ rest := List.append_nil _
  obtain ⟨later, read, left⟩ := (reads [bytes ++ rest] value rest).mpr ⟨bytes, coded, flat⟩
  obtain ⟨later', read', left'⟩ :=
    (reads [bytes ++ rest] value' rest').mpr ⟨bytes', coded', flat.trans same⟩
  cases read.symm.trans read'
  exact ⟨rfl, left.symm.trans left'⟩

/-! ## Encoders -/

/-- The code words of a reader are what the encoder writes for sound values. -/
def Decodes (reader : Reader ε β α) (Sound : α → Prop) (encode : α → List β) : Prop :=
  Reads reader fun bytes value => Sound value ∧ bytes = encode value

variable {reader : Reader ε β α} {Sound : α → Prop} {encode : α → List β}

theorem Decodes.readTimes (decodes : Decodes reader Sound encode) (count : Nat) :
    Decodes (Wire.readTimes reader count)
      (fun values => values.length = count ∧ ∀ x ∈ values, Sound x)
      fun values => values.flatMap encode := by
  induction count with
  | zero =>
      refine (Reads.pure []).congr fun bytes values => ?_
      change bytes = [] ∧ values = [] ↔
        (values.length = 0 ∧ ∀ x ∈ values, Sound x) ∧ bytes = values.flatMap encode
      rw [List.length_eq_zero_iff]
      constructor
      · rintro ⟨rfl, rfl⟩
        exact ⟨⟨rfl, fun _ member => absurd member List.not_mem_nil⟩, rfl⟩
      · rintro ⟨⟨rfl, -⟩, rfl⟩
        exact ⟨rfl, rfl⟩
  | succ count ih =>
      have steps := Reads.bind decodes fun first =>
        Reads.bind ih fun later =>
          (Reads.pure (first :: later) : Reads (Pure.pure _ : Reader ε β (List α)) _)
      refine steps.congr fun bytes values => ?_
      constructor
      · rintro ⟨front, back, first, rfl, ⟨sound, rfl⟩, _, _, later, rfl,
          ⟨⟨width, sounds⟩, rfl⟩, rfl, rfl⟩
        refine ⟨⟨by rw [List.length_cons, width], ?_⟩, ?_⟩
        · exact List.forall_mem_cons.mpr ⟨sound, sounds⟩
        · change encode first ++ (later.flatMap encode ++ []) = (first :: later).flatMap encode
          rw [List.flatMap_cons, List.append_nil]
      · rintro ⟨⟨width, sounds⟩, rfl⟩
        cases values with
        | nil => cases width
        | cons first later =>
            obtain ⟨sound, sounds⟩ := List.forall_mem_cons.mp sounds
            refine ⟨encode first, later.flatMap encode, first, rfl, ⟨sound, rfl⟩,
              later.flatMap encode, [], later, (List.append_nil _).symm,
              ⟨⟨Nat.succ.inj width, sounds⟩, rfl⟩, rfl, rfl⟩

/-- What was encoded is read back, and the rest of the stream is left alone. -/
theorem Decodes.read (decodes : Decodes reader Sound encode) {value : α} (sound : Sound value)
    {chunks : List (List β)} {rest : List β} (delivered : chunks.flatten = encode value ++ rest) :
    ∃ later, reader chunks = .ok (value, later) ∧ later.flatten = rest :=
  (decodes chunks value rest).mpr ⟨_, ⟨sound, rfl⟩, delivered⟩

/-- What is read stands encoded at the front of the stream. -/
theorem Decodes.consumed (decodes : Decodes reader Sound encode) {value : α}
    {chunks later : List (List β)} (ran : reader chunks = .ok (value, later)) :
    Sound value ∧ chunks.flatten = encode value ++ later.flatten := by
  obtain ⟨_, ⟨sound, rfl⟩, split⟩ := (decodes chunks value later.flatten).mp ⟨later, ran, rfl⟩
  exact ⟨sound, split⟩

/-- A stream of code words is read to its end, one value for each. -/
theorem Decodes.readUntilError (decodes : Decodes reader Sound encode)
    (nonempty : ∀ value, encode value ≠ []) {values : List α} (sound : ∀ x ∈ values, Sound x)
    {chunks : List (List β)} (delivered : chunks.flatten = values.flatMap encode) {fuel : Nat}
    (enough : values.length < fuel) :
    ∃ later, Wire.readUntilError reader fuel chunks = (values, later) ∧ later.flatten = [] := by
  induction fuel generalizing values chunks with
  | zero => exact absurd enough (Nat.not_lt_zero _)
  | succ fuel ih =>
      cases values with
      | nil =>
          refine ⟨chunks, ?_, delivered⟩
          have fails : ∀ taken, reader chunks ≠ .ok taken := by
            rintro ⟨value, later⟩ ran
            have split := (decodes.consumed ran).2
            rw [delivered] at split
            exact nonempty value (List.append_eq_nil_iff.mp split.symm).1
          unfold Wire.readUntilError
          cases ran : reader chunks with
          | error e => rfl
          | ok taken => exact absurd ran (fails taken)
      | cons first rest =>
          obtain ⟨head, tail⟩ := List.forall_mem_cons.mp sound
          rw [List.flatMap_cons] at delivered
          obtain ⟨later, ran, left⟩ := decodes.read head delivered
          obtain ⟨final, same, ended⟩ := ih tail left (Nat.lt_of_succ_lt_succ enough)
          refine ⟨final, ?_, ended⟩
          unfold Wire.readUntilError
          rw [ran]
          simp only [same]

theorem length_le_flatMap (nonempty : ∀ value, encode value ≠ []) (values : List α) :
    values.length ≤ (values.flatMap encode).length := by
  induction values with
  | nil => exact Nat.le_refl 0
  | cons first rest ih =>
      have positive := List.length_pos_iff.mpr (nonempty first)
      rw [List.flatMap_cons, List.length_append, List.length_cons]
      omega

theorem Decodes.readAll (decodes : Decodes reader Sound encode)
    (nonempty : ∀ value, encode value ≠ []) {values : List α} (sound : ∀ x ∈ values, Sound x)
    {chunks : List (List β)} (delivered : chunks.flatten = values.flatMap encode) :
    ∃ later, Wire.readAll reader chunks = (values, later) ∧ later.flatten = [] := by
  refine decodes.readUntilError nonempty sound delivered ?_
  rw [delivered]
  exact Nat.lt_succ_of_le (length_le_flatMap nonempty values)

end LinkP2p.Lib.Wire
