import LinkP2p.Contacts.ShortCode

/-!
# Retyped codes

Whatever stands between the letters of a code, in which case they are and which of their
lookalikes are typed, it is read as its id, and never as an id in base32.
-/

namespace LinkP2p.Contacts

open LinkP2p.Identity (Text SecretKey isWhitespace trim hexOfKey)
open LinkP2p.Lib.Bytes LinkP2p.Lib.Digits
open LinkP2p.Tun (EndpointId)
open LinkP2p.Tun.RosterCodec (asBytes ofNat_ofBytes_asBytes)

/-! ## What may be typed -/

/-- Neither a dash nor white space. -/
def solid (c : Char) : Bool := c != '-' && !isWhitespace c

/-- The letter in upper case, or the digit that it is taken for. -/
def canonical (c : Char) : Char :=
  match c.toUpper with
  | 'I' | 'L' => '1'
  | 'O' => '0'
  | other => other

/-- How a character of a code may be typed. -/
inductive Retypes : Char → Char → Prop
  | letter {c d : Char} (same : d.toUpper = c.toUpper) : Retypes c d
  | zero {d : Char} (o : d.toUpper = 'O') : Retypes '0' d
  | one {d : Char} (il : d.toUpper = 'I' ∨ d.toUpper = 'L') : Retypes '1' d

/-- How a code may be typed: dashes and white space come and go. -/
inductive Retyping : Text → Text → Prop
  | done : Retyping [] []
  | typed {c d : Char} {code token : Text} (same : Retypes c d) (rest : Retyping code token) :
      Retyping (c :: code) (d :: token)
  | added {d : Char} {code token : Text} (blank : solid d = false)
      (rest : Retyping code token) : Retyping code (d :: token)
  | removed {c : Char} {code token : Text} (blank : solid c = false)
      (rest : Retyping code token) : Retyping (c :: code) token

theorem Retyping.refl (code : Text) : Retyping code code := by
  induction code with
  | nil => exact .done
  | cons c code ih => exact .typed (.letter rfl) ih

theorem compact_eq (token : Text) : compact token = (token.filter solid).map canonical := rfl

theorem symbol_letter : ∀ digit < 32,
    canonical (symbol digit) = symbol digit ∧ solid (symbol digit) = true := by
  decide

/-- No digit and no letter is blank, nor what stands between them. -/
theorem solid_of_range {c : Char} (low : 48 ≤ c.toNat) (high : c.toNat ≤ 122) :
    solid c = true := by
  have dash : c ≠ '-' := by
    rintro rfl
    exact absurd low (by decide)
  simp only [solid, isWhitespace, bne_iff_ne.mpr dash, Bool.true_and, Bool.not_eq_true',
    Bool.or_eq_false_iff, Bool.and_eq_false_iff, decide_eq_false_iff_not, beq_eq_false_iff_ne]
  omega

/-- A letter in lower case, and the same in upper case. -/
theorem toUpper_of_lower {c : Char} (lower : 'a'.val ≤ c.val ∧ c.val ≤ 'z'.val) :
    97 ≤ c.toNat ∧ c.toNat ≤ 122 ∧ c.toUpper.toNat = c.toNat - 32 := by
  have low : 97 ≤ c.toNat := UInt32.le_iff_toNat_le.mp lower.1
  have high : c.toNat ≤ 122 := UInt32.le_iff_toNat_le.mp lower.2
  have shifted : c.toUpper = ⟨c.val + ('A'.val - 'a'.val), _⟩ := dif_pos lower
  have same : c.toNat = c.val.toNat := rfl
  have wrap : ('A'.val - 'a'.val).toNat = 4294967264 := rfl
  refine ⟨low, high, ?_⟩
  rw [shifted]
  show (c.val + ('A'.val - 'a'.val)).toNat = c.val.toNat - 32
  rw [UInt32.toNat_add]
  omega

theorem toUpper_toUpper (c : Char) : c.toUpper.toUpper = c.toUpper := by
  by_cases lower : 'a'.val ≤ c.val ∧ c.val ≤ 'z'.val
  · obtain ⟨-, high, upper⟩ := toUpper_of_lower lower
    refine dif_neg fun again => ?_
    have low := (toUpper_of_lower again).1
    omega
  · have unchanged : c.toUpper = c := dif_neg lower
    rw [unchanged, unchanged]

theorem solid_toUpper (c : Char) : solid c.toUpper = solid c := by
  by_cases lower : 'a'.val ≤ c.val ∧ c.val ≤ 'z'.val
  · obtain ⟨low, high, upper⟩ := toUpper_of_lower lower
    rw [solid_of_range (c := c) (by omega) (by omega), solid_of_range (by omega) (by omega)]
  · have unchanged : c.toUpper = c := dif_neg lower
    rw [unchanged]

theorem Retypes.solid_eq {c d : Char} (retypes : Retypes c d) : solid d = solid c := by
  rw [← solid_toUpper d]
  cases retypes with
  | letter same => rw [same, solid_toUpper]
  | zero o =>
      rw [o]
      rfl
  | one il => rcases il with il | il <;> rw [il] <;> rfl

theorem Retypes.canonical_eq {c d : Char} (retypes : Retypes c d) (letter : canonical c = c) :
    canonical d = c := by
  cases retypes with
  | letter same =>
      rw [← letter, canonical, same]
      rfl
  | zero o =>
      rw [canonical, o]
      rfl
  | one il => rcases il with il | il <;> rw [canonical, il] <;> rfl

theorem Retyping.compact_filter {code token : Text} (retyping : Retyping code token)
    (letters : ∀ c ∈ code.filter solid, canonical c = c) : compact token = code.filter solid := by
  rw [compact_eq]
  induction retyping with
  | done => rfl
  | @typed c d code token same rest ih =>
      rw [List.filter_cons, List.filter_cons, same.solid_eq]
      by_cases full : solid c = true
      · rw [List.filter_cons, if_pos full] at letters
        obtain ⟨first, others⟩ := List.forall_mem_cons.mp letters
        rw [if_pos full, if_pos full, List.map_cons, same.canonical_eq first, ih others]
      · rw [List.filter_cons, if_neg full] at letters
        rw [if_neg full, if_neg full, ih letters]
  | added blank rest ih =>
      rw [List.filter_cons, blank]
      exact ih letters
  | removed blank rest ih =>
      rw [List.filter_cons, blank] at letters ⊢
      exact ih letters

/-- However a code is typed, its letters are read. -/
theorem Retyping.compact_eq {code token : Text} {digits : List Nat}
    (retyping : Retyping code token) (letters : code.filter solid = digits.map symbol)
    (below : ∀ digit ∈ digits, digit < 32) : compact token = digits.map symbol := by
  rw [← letters]
  refine retyping.compact_filter fun c member => ?_
  rw [letters] at member
  obtain ⟨digit, inside, rfl⟩ := List.mem_map.mp member
  exact (symbol_letter digit (below digit inside)).1

theorem filter_dropWhile {α : Type} {p q : α → Bool} (apart : ∀ a, p a = true → q a = false)
    (items : List α) : (items.dropWhile p).filter q = items.filter q := by
  induction items with
  | nil => rfl
  | cons a rest ih =>
      rw [List.dropWhile_cons]
      split
      · rename_i dropped
        rw [ih, List.filter_cons, apart a dropped]
        rfl
      · rfl

theorem filter_trim (text : Text) : (trim text).filter solid = text.filter solid := by
  have apart : ∀ c, isWhitespace c = true → solid c = false := by
    intro c white
    rw [solid, white, Bool.not_true, Bool.and_false]
  rw [trim, List.rdropWhile, List.filter_reverse, filter_dropWhile apart, List.filter_reverse,
    List.reverse_reverse, filter_dropWhile apart]

/-! ## The letters of a code -/

theorem filter_intercalate (groups : List Text) :
    (['-'].intercalate groups).filter solid = groups.flatten.filter solid := by
  rw [List.intercalate]
  induction groups with
  | nil => rfl
  | cons group groups ih =>
      cases groups with
      | nil => rfl
      | cons next groups =>
          rw [List.intersperse_cons_cons, List.flatten_cons, List.flatten_cons, List.flatten_cons,
            List.filter_append, List.filter_append, List.filter_append, ih]
          rfl

theorem filter_symbols {digits : List Nat} (below : ∀ digit ∈ digits, digit < 32) :
    (digits.map symbol).filter solid = digits.map symbol := by
  refine List.filter_eq_self.mpr fun c member => ?_
  obtain ⟨digit, inside, rfl⟩ := List.mem_map.mp member
  exact (symbol_letter digit (below digit inside)).2

theorem below_check {digits : List Nat} {check : Nat} (below : ∀ digit ∈ digits, digit < 32)
    (small : check < 32) : ∀ digit ∈ digits ++ [check], digit < 32 := by
  intro digit member
  rcases List.mem_append.mp member with inside | last
  · exact below digit inside
  · rw [List.mem_singleton.mp last]
    exact small

/-- The letters of a code, without the dashes. -/
theorem filter_shortCode {id : EndpointId} {digits : List Nat}
    (written : encodeCrockford (asBytes id) = digits.map symbol)
    (below : ∀ digit ∈ digits, digit < 32) :
    (encodeShortCode id).filter solid = (digits ++ [checkValue (asBytes id)]).map symbol := by
  have letters : encodeCrockford (asBytes id) ++ [Char.ofNat (checkSymbol (asBytes id)).toNat] =
      (digits ++ [checkValue (asBytes id)]).map symbol := by
    rw [written, List.map_append]
    rfl
  have all := below_check below (checkValue_lt (asBytes id))
  rw [encodeShortCode, letters, decode_chunks all, filter_intercalate, flatten_chunks,
    filter_symbols all]

/-! ## Ids in base32 -/

/-- The alphabet of RFC 4648. -/
def base32 : Text := "ABCDEFGHIJKLMNOPQRSTUVWXYZ234567".toList

def base32Value (c : Char) : Option Nat := base32.idxOf? c.toUpper

/-- `EndpointId::from_str` takes 64 hex digits, or 52 letters of base32 whose last four bits
are zero. -/
def TakesIds (iroh : Iroh) : Prop :=
  ∀ text id, iroh.parse text = some id →
    (text.length = 64 ∧ ∀ c ∈ text, isDigit 16 c = true) ∨
      (text.length = 52 ∧ (∀ c ∈ text, (base32Value c).isSome = true) ∧
        ∃ last ∈ text.getLast?, ∃ value ∈ base32Value last, value % 16 = 0)

theorem solid_of_hex {c : Char} (digit : isDigit 16 c = true) : solid c = true := by
  by_contra blank
  have outside : ¬ (48 ≤ c.toNat ∧ c.toNat ≤ 122) := fun range =>
    blank (solid_of_range range.1 range.2)
  have decimal : ¬ (48 ≤ c.toNat ∧ c.toNat ≤ 57) := by omega
  have lower : ¬ (97 ≤ c.toNat ∧ c.toNat ≤ 122) := by omega
  have upper : ¬ (65 ≤ c.toNat ∧ c.toNat ≤ 90) := by omega
  rw [isDigit, toDigit] at digit
  simp [decimal, lower, upper] at digit

theorem solid_of_base32 {c : Char} (letter : (base32Value c).isSome = true) : solid c = true := by
  have letters : base32.all solid = true := by decide
  rw [← solid_toUpper]
  exact List.all_eq_true.mp letters _ (List.isSome_idxOf?.mp letter)

/-- The letters that end an id are no aliases of letters that end a code. -/
theorem canonical_of_base32 {c : Char} {value : Nat} (found : base32Value c = some value)
    (zeros : value % 16 = 0) : canonical c = 'A' ∨ canonical c = 'Q' := by
  obtain ⟨inside, place, -⟩ := List.idxOf?_eq_some_iff.mp found
  have bound : value < 32 := inside
  have ends : value = 0 ∨ value = 16 := by omega
  rcases ends with rfl | rfl
  · left
    rw [canonical, ← place]
    rfl
  · right
    rw [canonical, ← place]
    rfl

variable {iroh : Iroh}

/-- A code is no id: it has another length, or the last of its letters does not end an id. -/
theorem parse_none (ids : TakesIds iroh) {text : Text} {digits : List Nat}
    (letters : compact text = digits.map symbol) (long : digits.length ≠ 64)
    (last : digits.length = 52 → ∃ digit ∈ digits.getLast?, digit = 0 ∨ digit = 16) :
    iroh.parse text = none := by
  by_contra parsed
  obtain ⟨id, found⟩ := Option.ne_none_iff_exists'.mp parsed
  rcases ids text id found with ⟨length, hex⟩ | ⟨length, base, c, atEnd, value, read, zeros⟩
  · have full : text.filter solid = text :=
      List.filter_eq_self.mpr fun c member => solid_of_hex (hex c member)
    have same := congrArg List.length letters
    rw [compact_eq, full, List.length_map, List.length_map] at same
    exact long (same.symm.trans length)
  · have full : text.filter solid = text :=
      List.filter_eq_self.mpr fun c member => solid_of_base32 (base c member)
    rw [compact_eq, full] at letters
    have same := congrArg List.length letters
    rw [List.length_map, List.length_map] at same
    obtain ⟨digit, final, ends⟩ := last (same.symm.trans length)
    have lasts := congrArg List.getLast? letters
    rw [List.getLast?_map, List.getLast?_map, atEnd, final] at lasts
    have typed : canonical c = symbol digit := Option.some.inj lasts
    have letter := canonical_of_base32 read zeros
    rw [typed] at letter
    rcases ends with rfl | rfl
    · exact absurd letter (by decide)
    · exact absurd letter (by decide)

/-! ## Reading a code -/

theorem compact_trim (token : Text) : compact (trim token) = compact token := by
  rw [compact_eq, compact_eq, filter_trim]

/-- The last letter of an id has only one bit of it. -/
theorem last_digit {digits : List Nat} {value : Nat} (length : digits.length = 52)
    (below : ∀ digit ∈ digits, digit < 32) (denoted : ofDigits 32 digits = value * 2 ^ 4) :
    ∃ digit ∈ digits.getLast?, digit = 0 ∨ digit = 16 := by
  have nonempty : digits ≠ [] := by
    rintro rfl
    cases length
  refine ⟨digits.getLast nonempty, List.getLast?_eq_some_getLast nonempty, ?_⟩
  have small := below _ (List.getLast_mem nonempty)
  rw [← List.dropLast_append_getLast nonempty, ofDigits_concat] at denoted
  omega

theorem symbol_toNat : ∀ digit < 32,
    (symbol digit).toNat = (crockford.getD digit 0).toNat ∧ (symbol digit).toNat < 128 := by
  decide

theorem symbol_inj {a b : Nat} (left : a < 32) (right : b < 32) (same : symbol a = symbol b) :
    a = b := by
  have place := idxOf_symbol a left
  rw [same, idxOf_symbol b right] at place
  exact (Option.some.inj place).symm

theorem checkSymbol_toNat (data : List UInt8) :
    (checkSymbol data).toNat = (symbol (checkValue data)).toNat :=
  (symbol_toNat _ (checkValue_lt data)).1.symm

theorem length_unpack {digits : List Nat} (length : digits.length = 52) :
    (unpack digits).length = 32 := by
  rw [unpack, length_toBytes, length]

/-- A code with its check symbol is read as the bytes of its letters. -/
theorem parseChecked_symbols (iroh : Iroh) (token : Text) {digits : List Nat} {check : Nat}
    (length : digits.length = 52) (below : ∀ digit ∈ digits, digit < 32) (small : check < 32) :
    parseChecked iroh token (digits.map symbol) (symbol check) =
      if checkValue (unpack digits) = check then idOfBytes iroh (unpack digits)
      else .error .checkDigitMismatch := by
  have ascii : ¬ 128 ≤ (symbol check).toNat := Nat.not_le.mpr (symbol_toNat check small).2
  have full : ¬ (unpack digits).length < 32 := by
    rw [length_unpack length]
    exact Nat.lt_irrefl 32
  have all : (unpack digits).take 32 = unpack digits :=
    List.take_of_length_le (length_unpack length).le
  rw [parseChecked, if_neg ascii, decodeCrockford_symbols below]
  dsimp only
  rw [if_neg full, all, checkSymbol_toNat]
  by_cases same : checkValue (unpack digits) = check
  · rw [if_pos same, same, if_neg fun differ => differ rfl]
  · have differ : (symbol (checkValue (unpack digits))).toNat ≠ (symbol check).toNat :=
      fun equal => same (symbol_inj (checkValue_lt _) small (Char.toNat_inj.mp equal))
    rw [if_neg same, if_pos differ]

/-- What a typed code with these letters is read as. -/
theorem parse_code {token : Text} {digits : List Nat} {check : Nat} (ids : TakesIds iroh)
    (letters : compact token = (digits ++ [check]).map symbol) (length : digits.length = 52)
    (below : ∀ digit ∈ digits, digit < 32) (small : check < 32) :
    parseEndpointToken iroh token =
      if checkValue (unpack digits) = check then idOfBytes iroh (unpack digits)
      else .error .checkDigitMismatch := by
  have size : (digits ++ [check]).length = 53 := by
    rw [List.length_append, length]
    rfl
  have unread : iroh.parse (trim token) = none := by
    refine parse_none ids ((compact_trim token).trans letters) ?_ ?_
    · rw [size]
      decide
    · rw [size]
      intro other
      cases other
  rw [parseEndpointToken, unread]
  dsimp only
  rw [compact_trim, letters, List.length_map, size, if_pos rfl, List.map_append,
    List.map_singleton, List.dropLast_concat, List.getLastD_concat,
    parseChecked_symbols iroh token length below small]

/-- Without the check symbol nothing is compared. -/
theorem parse_legacy {token : Text} {digits : List Nat} (unread : iroh.parse (trim token) = none)
    (letters : compact token = digits.map symbol) (length : digits.length = 52)
    (below : ∀ digit ∈ digits, digit < 32) :
    parseEndpointToken iroh token = idOfBytes iroh (unpack digits) := by
  have full : ¬ (unpack digits).length < 32 := by
    rw [length_unpack length]
    exact Nat.lt_irrefl 32
  rw [parseEndpointToken, unread]
  dsimp only
  rw [compact_trim, letters, List.length_map, length, if_neg (by decide), if_pos rfl,
    parseLegacy, decodeCrockford_symbols below]
  dsimp only
  rw [if_neg full]

theorem length_asBytes (id : EndpointId) : (asBytes id).length = 32 := length_toBytes 32 _

theorem idOfBytes_id {id : EndpointId} (valid : iroh.fromBytes (asBytes id) = some id) :
    idOfBytes iroh (asBytes id) = .ok id := by
  have all : (asBytes id).take 32 = asBytes id := List.take_of_length_le (length_asBytes id).le
  rw [idOfBytes, all, valid]

/-- **Short codes survive retyping**, with their check symbol and without. -/
theorem short_code_survives (ids : TakesIds iroh) (id : EndpointId)
    (valid : iroh.fromBytes (asBytes id) = some id) :
    (∀ token, Retyping (encodeShortCode id) token → parseEndpointToken iroh token = .ok id) ∧
      ∀ token, Retyping (encodeCrockford (asBytes id)) token →
        iroh.parse (trim token) = none ∧ parseEndpointToken iroh token = .ok id := by
  obtain ⟨digits, written, below, length, denoted, bytes⟩ :=
    encodeCrockford_id (length_asBytes id)
  constructor
  · intro token retyping
    have check := checkValue_lt (asBytes id)
    have read := retyping.compact_eq (filter_shortCode written below) (below_check below check)
    rw [parse_code ids read length below check, bytes, if_pos rfl, idOfBytes_id valid]
  · intro token retyping
    have letters : (encodeCrockford (asBytes id)).filter solid = digits.map symbol := by
      rw [written, filter_symbols below]
    have read := retyping.compact_eq letters below
    have unread : iroh.parse (trim token) = none := by
      refine parse_none ids ((compact_trim token).trans read) ?_ fun _ =>
        last_digit length below denoted
      rw [length]
      decide
    exact ⟨unread, by rw [parse_legacy unread read length below, bytes, idOfBytes_id valid]⟩

/-- Ids as 64 hex digits or as 52 letters of base32. -/
def plainIroh : Iroh where
  parse text :=
    if text.length = 64 ∧ text.all (isDigit 16) = true then
      some (.ofNat 256 (ofDigits 16 (text.filterMap (toDigit 16))))
    else if text.length = 52 ∧ text.all (fun c => (base32Value c).isSome) = true ∧
        (text.getLast?.bind base32Value).any (fun value => value % 16 == 0) = true then
      some (.ofNat 256 (ofDigits 32 (text.filterMap base32Value) / 16))
    else none
  display := hexOfKey
  fromBytes bytes := some (SecretKey.fromBytes bytes)

theorem plainIroh_takesIds : TakesIds plainIroh := by
  intro text id found
  simp only [plainIroh] at found
  split at found
  · rename_i hex
    exact .inl ⟨hex.1, List.all_eq_true.mp hex.2⟩
  · split at found
    · rename_i base
      obtain ⟨length, letters, ends⟩ := base
      rw [Option.any_eq_true] at ends
      obtain ⟨value, bound, zeros⟩ := ends
      obtain ⟨last, atEnd, read⟩ := Option.bind_eq_some_iff.mp bound
      exact .inr ⟨length, List.all_eq_true.mp letters, last, atEnd, value, read,
        beq_iff_eq.mp zeros⟩
    · cases found

/-- The id whose first byte is one. -/
def firstByte : EndpointId := .ofNat 256 (2 ^ 248)

/-- A code that is typed after a blank and with a letter for its first zero. -/
theorem short_code_survives_o :
    parseEndpointToken plainIroh (' ' :: 'o' :: (encodeShortCode firstByte).tail) =
        .ok firstByte ∧
      parseEndpointToken plainIroh ('o' :: (encodeCrockford (asBytes firstByte)).tail) =
        .ok firstByte := by
  have survives := short_code_survives plainIroh_takesIds firstByte
    (congrArg some (ofNat_ofBytes_asBytes firstByte))
  have typed : ∀ code rest, code = '0' :: rest → Retyping code ('o' :: rest) := by
    rintro _ rest rfl
    exact .typed (.zero rfl) (.refl rest)
  have code : encodeShortCode firstByte = '0' :: (encodeShortCode firstByte).tail := by
    decide +kernel
  have legacy : encodeCrockford (asBytes firstByte) =
      '0' :: (encodeCrockford (asBytes firstByte)).tail := by decide +kernel
  constructor
  · exact survives.1 _ (.added (by decide) (typed _ _ code))
  · exact (survives.2 _ (typed _ _ legacy)).2

end LinkP2p.Contacts
