import LinkP2p.I18n.Lossy
import LinkP2p.Lib.Bytes
import LinkP2p.Lib.HashMap

/-!
# Compiled catalogues

A catalogue is a header, two tables of descriptors, and the strings that the descriptors
point at. Its numbers have four bytes, in one of the two byte orders. They are read
without trust; the number of strings is also the capacity that is asked for the map.
-/

namespace LinkP2p.I18n

open LinkP2p.Identity (Text utf8Encode)
open LinkP2p.Lib (HashMap)
open LinkP2p.Lib.Bytes

/-! ## The reader -/

/-- How the reader ends without a map. -/
inductive Stop where
  /-- `None` -/
  | absent
  /-- A sum or a product leaves the `usize` of 64 bits. -/
  | overflow
  /-- An index beyond the slice: the program panics. -/
  | outOfRange
  deriving DecidableEq, Repr

def addUsize (a b : Nat) : Except Stop Nat :=
  if a + b < 2 ^ 64 then .ok (a + b) else .error .overflow

def mulUsize (a b : Nat) : Except Stop Nat :=
  if a * b < 2 ^ 64 then .ok (a * b) else .error .overflow

/-- `bytes.get(start..end)` -/
def getRange (bytes : List UInt8) (start stop : Nat) : Except Stop (List UInt8) :=
  if start ≤ stop ∧ stop ≤ bytes.length then .ok (slice bytes start (stop - start))
  else .error .absent

/-- `bytes[start..end]` -/
def indexRange (bytes : List UInt8) (start stop : Nat) : Except Stop (List UInt8) :=
  if start ≤ stop ∧ stop ≤ bytes.length then .ok (slice bytes start (stop - start))
  else .error .outOfRange

/-- `u32::from_be_bytes`, `u32::from_le_bytes` -/
def fromBytes (bigEndian : Bool) (bytes : List UInt8) : Nat :=
  ofBytes (if bigEndian then bytes else bytes.reverse)

def rd (bytes : List UInt8) (bigEndian : Bool) (off : Nat) : Except Stop Nat := do
  let stop ← addUsize off 4
  let b ← getRange bytes off stop
  return fromBytes bigEndian b

def desc (bytes : List UInt8) (bigEndian : Bool) (tab i : Nat) : Except Stop (Nat × Nat) := do
  let off ← addUsize tab (← mulUsize i 8)
  let len ← rd bytes bigEndian off
  let strOff ← rd bytes bigEndian (← addUsize off 4)
  return (len, strOff)

structure Header where
  bigEndian : Bool
  n : Nat
  origTab : Nat
  transTab : Nat

def readHeader (bytes : List UInt8) : Except Stop Header := do
  if bytes.length < 28 then throw .absent
  let magic ← indexRange bytes 0 4
  let bigEndian := fromBytes false magic != 0x950412de
  let n ← rd bytes bigEndian 8
  let origTab ← rd bytes bigEndian 12
  let transTab ← rd bytes bigEndian 16
  return ⟨bigEndian, n, origTab, transTab⟩

/-- The two strings of a round of the loop. -/
def readPair (bytes : List UInt8) (header : Header) (i : Nat) :
    Except Stop (List UInt8 × List UInt8) := do
  let (olen, ooff) ← desc bytes header.bigEndian header.origTab i
  let (tlen, toff) ← desc bytes header.bigEndian header.transTab i
  let orig ← getRange bytes ooff (← addUsize ooff olen)
  let transl ← getRange bytes toff (← addUsize toff tlen)
  return (orig, transl)

def insertPair (map : HashMap Text Text) (orig transl : List UInt8) : HashMap Text Text :=
  if orig ≠ [] then map.put (fromUtf8Lossy orig) (fromUtf8Lossy transl) else map

/-- The loop of `parse_mo`, with the rounds that remain. -/
def parseLoop (bytes : List UInt8) (header : Header) :
    Nat → Nat → HashMap Text Text → Except Stop (HashMap Text Text)
  | 0, _, map => .ok map
  | rounds + 1, i, map => do
      let (orig, transl) ← readPair bytes header i
      parseLoop bytes header rounds (i + 1) (insertPair map orig transl)

structure Outcome where
  /-- The capacity that was asked for. -/
  capacity : Option Nat
  result : Except Stop (HashMap Text Text)

def parseMo (bytes : List UInt8) : Outcome :=
  match readHeader bytes with
  | .error stop => ⟨none, .error stop⟩
  | .ok header => ⟨some header.n, parseLoop bytes header header.n 0 ∅⟩

/-! ## Catalogues -/

inductive ByteOrder where
  | little
  | big
  deriving DecidableEq, Repr

/-- A number of four bytes. -/
def ByteOrder.bytes : ByteOrder → Nat → List UInt8
  | .little, value => (toBytes 4 value).reverse
  | .big, value => toBytes 4 value

/-- The bytes are in the file at an offset. -/
def At (file : List UInt8) (off : Nat) (bytes : List UInt8) : Prop :=
  ∃ before after, file = before ++ bytes ++ after ∧ before.length = off

def NumberAt (order : ByteOrder) (file : List UInt8) (off value : Nat) : Prop :=
  value < 2 ^ 32 ∧ At file off (order.bytes value)

/-- A descriptor of a table points at the string. -/
def StringAt (order : ByteOrder) (file : List UInt8) (tab i : Nat) (text : Text) : Prop :=
  NumberAt order file (tab + 8 * i) (utf8Encode text).length ∧
    ∃ off, NumberAt order file (tab + 8 * i + 4) off ∧ At file off (utf8Encode text)

/-- The pairs are laid out as a file, with the tables and the strings anywhere in it. -/
structure LaidOut (order : ByteOrder) (pairs : List (Text × Text)) (file : List UInt8) : Prop where
  header : 28 ≤ file.length
  magic : NumberAt order file 0 0x950412de
  count : NumberAt order file 8 pairs.length
  tables : ∃ origTab transTab, NumberAt order file 12 origTab ∧ NumberAt order file 16 transTab ∧
    ∀ i msgid msgstr, pairs[i]? = some (msgid, msgstr) →
      StringAt order file origTab i msgid ∧ StringAt order file transTab i msgstr

/-- The translation of a message: that of the last pair for it, and the empty message has none. -/
def translation (pairs : List (Text × Text)) (msgid : Text) : Option Text :=
  if msgid = [] then none
  else (pairs.reverse.find? fun pair => pair.1 = msgid).map Prod.snd

/-- What a reader of catalogues is to do. -/
structure Reads (bytes : List UInt8) (outcome : Outcome) : Prop where
  exact : ∀ order pairs, LaidOut order pairs bytes →
    ∃ map, outcome.result = .ok map ∧ ∀ msgid, map.get msgid = translation pairs msgid
  inRange : outcome.result ≠ .error .outOfRange
  noOverflow : outcome.result ≠ .error .overflow
  /-- A descriptor has eight bytes. -/
  bounded : ∀ capacity, outcome.capacity = some capacity → capacity ≤ bytes.length / 8

/-! ## Every file -/

section

variable {α β : Type}

/-- A step finds a value, or there is none. -/
inductive Safe (P : α → Prop) : Except Stop α → Prop
  | absent : Safe P (.error .absent)
  | ok {a : α} (holds : P a) : Safe P (.ok a)

theorem Safe.bind {P : α → Prop} {Q : β → Prop} {step : Except Stop α} {next : α → Except Stop β}
    (safe : Safe P step) (later : ∀ a, P a → Safe Q (next a)) : Safe Q (step >>= next) := by
  cases safe with
  | absent => exact .absent
  | ok holds => exact later _ holds

theorem Safe.ne_error {P : α → Prop} {step : Except Stop α} (safe : Safe P step) :
    step ≠ .error .outOfRange ∧ step ≠ .error .overflow := by
  cases safe with
  | absent => exact ⟨nofun, nofun⟩
  | ok _ => exact ⟨nofun, nofun⟩

end

theorem addUsize_eq {a b : Nat} (small : a + b < 2 ^ 64) : addUsize a b = .ok (a + b) :=
  if_pos small

theorem mulUsize_eq {a b : Nat} (small : a * b < 2 ^ 64) : mulUsize a b = .ok (a * b) :=
  if_pos small

theorem length_slice {bytes : List UInt8} {start stop : Nat} (inside : stop ≤ bytes.length) :
    (slice bytes start (stop - start)).length = stop - start := by
  rw [slice, List.length_take, List.length_drop]
  omega

theorem getRange_safe (bytes : List UInt8) (start stop : Nat) :
    Safe (·.length = stop - start) (getRange bytes start stop) := by
  rw [getRange]
  split
  · exact .ok (length_slice (And.right ‹_›))
  · exact .absent

theorem fromBytes_lt {bytes : List UInt8} (bigEndian : Bool) (length : bytes.length = 4) :
    fromBytes bigEndian bytes < 2 ^ 32 := by
  have bound := ofBytes_lt (if bigEndian then bytes else bytes.reverse)
  have same : (if bigEndian then bytes else bytes.reverse).length = 4 := by
    split
    · exact length
    · rw [List.length_reverse, length]
  rwa [same] at bound

theorem rd_safe (bytes : List UInt8) (bigEndian : Bool) {off : Nat} (small : off < 2 ^ 40) :
    Safe (· < 2 ^ 32) (rd bytes bigEndian off) := by
  rw [rd, addUsize_eq (by omega)]
  refine (getRange_safe bytes off (off + 4)).bind fun b length => ?_
  exact .ok (fromBytes_lt bigEndian (length.trans (by omega)))

theorem desc_safe (bytes : List UInt8) (bigEndian : Bool) {tab i : Nat} (table : tab < 2 ^ 32)
    (index : i < 2 ^ 32) :
    Safe (fun d => d.1 < 2 ^ 32 ∧ d.2 < 2 ^ 32) (desc bytes bigEndian tab i) := by
  rw [desc, mulUsize_eq (by omega)]
  change Safe _ (addUsize tab (i * 8) >>= _)
  rw [addUsize_eq (by omega)]
  refine (rd_safe bytes bigEndian (by omega)).bind fun len short => ?_
  rw [addUsize_eq (by omega)]
  refine (rd_safe bytes bigEndian (by omega)).bind fun off near => ?_
  exact .ok ⟨short, near⟩

/-- Tables are where four bytes can point. -/
structure Header.Small (header : Header) : Prop where
  n : header.n < 2 ^ 32
  origTab : header.origTab < 2 ^ 32
  transTab : header.transTab < 2 ^ 32

theorem readPair_safe (bytes : List UInt8) {header : Header} (small : header.Small) {i : Nat}
    (index : i < 2 ^ 32) : Safe (fun _ => True) (readPair bytes header i) := by
  refine (desc_safe bytes _ small.origTab index).bind fun (olen, ooff) orig => ?_
  refine (desc_safe bytes _ small.transTab index).bind fun (tlen, toff) transl => ?_
  dsimp only at orig transl ⊢
  rw [addUsize_eq (by omega)]
  refine (getRange_safe bytes ooff (ooff + olen)).bind fun _ _ => ?_
  rw [addUsize_eq (by omega)]
  refine (getRange_safe bytes toff (toff + tlen)).bind fun _ _ => ?_
  exact .ok trivial

theorem parseLoop_safe (bytes : List UInt8) {header : Header} (small : header.Small)
    {rounds i : Nat} (map : HashMap Text Text) (index : i + rounds ≤ 2 ^ 32) :
    Safe (fun _ => True) (parseLoop bytes header rounds i map) := by
  induction rounds generalizing i map with
  | zero => exact .ok trivial
  | succ rounds ih =>
      refine (readPair_safe bytes small (by omega)).bind fun (orig, transl) _ => ?_
      exact ih _ (by omega)

/-- A number of the header -/
def headerField (bytes : List UInt8) (off : Nat) : Nat :=
  fromBytes (fromBytes false (slice bytes 0 4) != 0x950412de) (slice bytes off 4)

theorem readHeader_short {bytes : List UInt8} (short : bytes.length < 28) :
    readHeader bytes = .error .absent := by
  rw [readHeader, if_pos short]
  rfl

theorem rd_eq {bytes : List UInt8} (bigEndian : Bool) {off : Nat} (small : off < 2 ^ 40)
    (inside : off + 4 ≤ bytes.length) :
    rd bytes bigEndian off = .ok (fromBytes bigEndian (slice bytes off 4)) := by
  rw [rd, addUsize_eq (by omega)]
  change (getRange bytes off (off + 4) >>= _) = _
  rw [getRange, if_pos ⟨Nat.le_add_right _ _, inside⟩, Nat.add_sub_cancel_left]
  rfl

theorem readHeader_eq {bytes : List UInt8} (long : 28 ≤ bytes.length) :
    readHeader bytes = .ok ⟨fromBytes false (slice bytes 0 4) != 0x950412de,
      headerField bytes 8, headerField bytes 12, headerField bytes 16⟩ := by
  have magic : indexRange bytes 0 4 = .ok (slice bytes 0 4) := if_pos ⟨by omega, by omega⟩
  rw [readHeader, if_neg (Nat.not_lt.mpr long), magic]
  change (rd bytes _ 8 >>= fun n => rd bytes _ 12 >>= fun origTab =>
    rd bytes _ 16 >>= fun transTab => pure _) = _
  rw [rd_eq _ (by omega) (by omega), rd_eq _ (by omega) (by omega), rd_eq _ (by omega) (by omega)]
  rfl

theorem headerField_lt {bytes : List UInt8} {off : Nat} (inside : off + 4 ≤ bytes.length) :
    headerField bytes off < 2 ^ 32 := by
  have length : (slice bytes off (off + 4 - off)).length = off + 4 - off := length_slice inside
  rw [Nat.add_sub_cancel_left] at length
  exact fromBytes_lt _ length

/-- Whatever the file, nothing is read outside of it and no sum is too large. -/
theorem parseMo_safe (bytes : List UInt8) : Safe (fun _ => True) (parseMo bytes).result := by
  rw [parseMo]
  by_cases short : bytes.length < 28
  · rw [readHeader_short short]
    exact .absent
  · rw [readHeader_eq (by omega)]
    have small : Header.Small ⟨fromBytes false (slice bytes 0 4) != 0x950412de,
        headerField bytes 8, headerField bytes 12, headerField bytes 16⟩ :=
      ⟨headerField_lt (by omega), headerField_lt (by omega), headerField_lt (by omega)⟩
    exact parseLoop_safe bytes small ∅ (by rw [Nat.zero_add]; exact Nat.le_of_lt small.n)

theorem parseMo_capacity (bytes : List UInt8) :
    (parseMo bytes).capacity =
      if bytes.length < 28 then none else some (headerField bytes 8) := by
  rw [parseMo]
  by_cases short : bytes.length < 28
  · rw [readHeader_short short, if_pos short]
  · rw [readHeader_eq (by omega), if_neg short]

/-! ## Files that are catalogues -/

theorem ByteOrder.length_bytes (order : ByteOrder) (value : Nat) :
    (order.bytes value).length = 4 := by
  cases order with
  | little => rw [ByteOrder.bytes, List.length_reverse, length_toBytes]
  | big => rw [ByteOrder.bytes, length_toBytes]

/-- A number is read in the order in which it was written. -/
theorem fromBytes_bytes (order : ByteOrder) {value : Nat} (small : value < 2 ^ 32) :
    fromBytes (order == .big) (order.bytes value) = value := by
  have same : fromBytes (order == .big) (order.bytes value) = ofBytes (toBytes 4 value) := by
    cases order with
    | little => exact congrArg ofBytes (List.reverse_reverse _)
    | big => rfl
  rw [same, ofBytes_toBytes]
  exact Nat.mod_eq_of_lt small

theorem At.inside {file bytes : List UInt8} {off : Nat} (placed : At file off bytes) :
    off + bytes.length ≤ file.length := by
  obtain ⟨before, after, rfl, rfl⟩ := placed
  rw [List.length_append, List.length_append]
  omega

theorem At.slice_eq {file bytes : List UInt8} {off : Nat} (placed : At file off bytes) :
    slice file off bytes.length = bytes := by
  obtain ⟨before, after, rfl, rfl⟩ := placed
  exact slice_append rfl rfl after

theorem At.getRange_eq {file bytes : List UInt8} {off : Nat} (placed : At file off bytes) :
    getRange file off (off + bytes.length) = .ok bytes := by
  rw [getRange, if_pos ⟨Nat.le_add_right _ _, placed.inside⟩, Nat.add_sub_cancel_left,
    placed.slice_eq]

variable {order : ByteOrder} {pairs : List (Text × Text)} {file : List UInt8}

theorem NumberAt.slice_eq {off value : Nat} (number : NumberAt order file off value) :
    slice file off 4 = order.bytes value := by
  have found := number.2.slice_eq
  rwa [order.length_bytes] at found

theorem NumberAt.rd_eq {off value : Nat} (number : NumberAt order file off value)
    (small : off < 2 ^ 40) : rd file (order == .big) off = .ok value := by
  have inside := number.2.inside
  rw [order.length_bytes] at inside
  rw [I18n.rd_eq _ small inside, number.slice_eq, fromBytes_bytes order number.1]

/-- The magic number tells the byte order. -/
theorem LaidOut.order_eq (laid : LaidOut order pairs file) :
    (fromBytes false (slice file 0 4) != 0x950412de) = (order == .big) := by
  rw [laid.magic.slice_eq]
  cases order with
  | little => decide
  | big => decide

theorem NumberAt.headerField_eq (laid : LaidOut order pairs file) {off value : Nat}
    (number : NumberAt order file off value) : headerField file off = value := by
  rw [headerField, laid.order_eq, number.slice_eq, fromBytes_bytes order number.1]

theorem StringAt.desc_eq {tab i : Nat} {text : Text} (placed : StringAt order file tab i text)
    (table : tab < 2 ^ 32) (index : i < 2 ^ 32) :
    ∃ off, off < 2 ^ 32 ∧ desc file (order == .big) tab i = .ok ((utf8Encode text).length, off) ∧
      (utf8Encode text).length < 2 ^ 32 ∧ At file off (utf8Encode text) := by
  obtain ⟨len, off, strOff, string⟩ := placed
  refine ⟨off, strOff.1, ?_, len.1, string⟩
  rw [desc, mulUsize_eq (by omega), Nat.mul_comm]
  change (addUsize tab (8 * i) >>= _) = _
  rw [addUsize_eq (by omega)]
  change (rd file (order == .big) (tab + 8 * i) >>= _) = _
  rw [len.rd_eq (by omega), addUsize_eq (by omega)]
  change (rd file (order == .big) (tab + 8 * i + 4) >>= _) = _
  rw [strOff.rd_eq (by omega)]
  rfl

theorem readPair_eq {header : Header} {i : Nat} {msgid msgstr : Text}
    (bigEndian : header.bigEndian = (order == .big)) (small : header.Small) (index : i < 2 ^ 32)
    (first : StringAt order file header.origTab i msgid)
    (second : StringAt order file header.transTab i msgstr) :
    readPair file header i = .ok (utf8Encode msgid, utf8Encode msgstr) := by
  obtain ⟨ooff, near, orig, short, found⟩ := first.desc_eq small.origTab index
  obtain ⟨toff, near', transl, short', found'⟩ := second.desc_eq small.transTab index
  rw [readPair, bigEndian, orig]
  change (desc file (order == .big) header.transTab i >>= _) = _
  rw [transl]
  change (addUsize ooff (utf8Encode msgid).length >>= fun stop => getRange file ooff stop >>= _) = _
  rw [addUsize_eq (by omega)]
  change (getRange file ooff (ooff + (utf8Encode msgid).length) >>= _) = _
  rw [found.getRange_eq]
  change (addUsize toff (utf8Encode msgstr).length >>= fun stop =>
    getRange file toff stop >>= _) = _
  rw [addUsize_eq (by omega)]
  change (getRange file toff (toff + (utf8Encode msgstr).length) >>= _) = _
  rw [found'.getRange_eq]
  rfl

theorem insertPair_text (map : HashMap Text Text) (msgid msgstr : Text) :
    insertPair map (utf8Encode msgid) (utf8Encode msgstr) =
      if msgid = [] then map else map.put msgid msgstr := by
  have empty : utf8Encode msgid = [] ↔ msgid = [] := by
    constructor
    · intro none_
      rw [← fromUtf8Lossy_utf8Encode msgid, none_, fromUtf8Lossy]
    · rintro rfl
      rfl
  rw [insertPair, fromUtf8Lossy_utf8Encode, fromUtf8Lossy_utf8Encode]
  by_cases header : msgid = []
  · rw [if_pos header, if_neg (not_not.mpr (empty.mpr header))]
  · rw [if_neg header, if_pos (mt empty.mp header)]

/-- The map after the pairs. -/
def insertAll (map : HashMap Text Text) (pairs : List (Text × Text)) : HashMap Text Text :=
  pairs.foldl (fun map pair => if pair.1 = [] then map else map.put pair.1 pair.2) map

theorem get_insertAll (map : HashMap Text Text) (pairs : List (Text × Text)) (msgid : Text) :
    (insertAll map pairs).get msgid = (translation pairs msgid).or (map.get msgid) := by
  induction pairs using List.reverseRecOn with
  | nil => rw [translation, List.reverse_nil, List.find?_nil, Option.map_none, ite_self]; rfl
  | append_singleton pairs pair ih =>
      rw [insertAll, List.foldl_append, List.foldl_cons, List.foldl_nil, ← insertAll]
      rw [translation] at ih ⊢
      rw [List.reverse_append, List.reverse_singleton, List.singleton_append, List.find?_cons]
      by_cases header : pair.1 = []
      · rw [if_pos header, ih]
        by_cases empty : msgid = []
        · rw [if_pos empty, if_pos empty]
        · rw [if_neg empty, if_neg empty, decide_eq_false (by rw [header]; exact Ne.symm empty)]
      · rw [if_neg header, HashMap.get_put, ih]
        by_cases same : msgid = pair.1
        · subst same
          rw [if_pos rfl, if_neg header, decide_eq_true rfl]
          rfl
        · rw [if_neg same, decide_eq_false (Ne.symm same)]

theorem parseLoop_eq {header : Header} (bigEndian : header.bigEndian = (order == .big))
    (small : header.Small) (count : pairs.length < 2 ^ 32)
    (tables : ∀ i msgid msgstr, pairs[i]? = some (msgid, msgstr) →
      StringAt order file header.origTab i msgid ∧ StringAt order file header.transTab i msgstr)
    {earlier later : List (Text × Text)} (split : pairs = earlier ++ later)
    (map : HashMap Text Text) :
    parseLoop file header later.length earlier.length map = .ok (insertAll map later) := by
  induction later generalizing earlier map with
  | nil => rfl
  | cons pair later ih =>
      obtain ⟨msgid, msgstr⟩ := pair
      have here : pairs[earlier.length]? = some (msgid, msgstr) := by
        rw [split, List.getElem?_append_right (Nat.le_refl _), Nat.sub_self]
        rfl
      have index : earlier.length < 2 ^ 32 :=
        Nat.lt_trans (List.getElem?_eq_some_iff.mp here).1 count
      obtain ⟨first, second⟩ := tables _ _ _ here
      have next : pairs = (earlier ++ [(msgid, msgstr)]) ++ later := by
        rw [split, List.append_assoc, List.singleton_append]
      have rest := ih next (if msgid = [] then map else map.put msgid msgstr)
      rw [List.length_append, List.length_singleton] at rest
      rw [List.length_cons, parseLoop, readPair_eq bigEndian small index first second]
      change parseLoop file header later.length (earlier.length + 1) (insertPair map _ _) = _
      rw [insertPair_text, rest]
      rfl

theorem parseMo_laidOut (laid : LaidOut order pairs file) :
    ∃ map, (parseMo file).result = .ok map ∧ ∀ msgid, map.get msgid = translation pairs msgid := by
  obtain ⟨origTab, transTab, first, second, tables⟩ := laid.tables
  refine ⟨insertAll ∅ pairs, ?_, fun msgid => ?_⟩
  · rw [parseMo, readHeader_eq laid.header, laid.count.headerField_eq laid,
      first.headerField_eq laid, second.headerField_eq laid]
    exact parseLoop_eq laid.order_eq ⟨laid.count.1, first.1, second.1⟩ laid.count.1 tables
      (List.nil_append pairs).symm ∅
  · rw [get_insertAll, HashMap.get_empty, Option.or_none]

/-! ## The capacity -/

/-- A file with all its strings has room for the descriptors that it counts. -/
theorem LaidOut.room (laid : LaidOut order pairs file) :
    headerField file 8 ≤ file.length / 8 := by
  rw [laid.count.headerField_eq laid]
  obtain ⟨origTab, transTab, -, -, tables⟩ := laid.tables
  by_cases none_ : pairs.length = 0
  · rw [none_]
    exact Nat.zero_le _
  · have last : pairs.length - 1 < pairs.length := by omega
    obtain ⟨⟨-, off, strOff, -⟩, -⟩ := tables _ _ _ (List.getElem?_eq_getElem last)
    have inside := strOff.2.inside
    rw [order.length_bytes] at inside
    omega

/-- A header alone that counts as many strings as four bytes can. -/
def hugeCount : List UInt8 :=
  [0xde, 0x12, 0x04, 0x95, 0, 0, 0, 0, 0xff, 0xff, 0xff, 0xff, 28, 0, 0, 0, 28, 0, 0, 0,
    0, 0, 0, 0, 0, 0, 0, 0]

/-- Room for more than four thousand million strings is asked for a file of 28 bytes. -/
theorem huge_count_unbounded : ¬ Reads hugeCount (parseMo hugeCount) := by
  intro reads
  have capacity : (parseMo hugeCount).capacity = some 4294967295 := by decide
  exact absurd (reads.bounded _ capacity) (by decide)

/-- **Catalogues are read right, and any file safely**, but for the capacity: it is right
when the header counts no more strings than the file has room for descriptors. -/
theorem parse_mo_reads_iff (bytes : List UInt8) :
    Reads bytes (parseMo bytes) ↔
      bytes.length < 28 ∨ headerField bytes 8 ≤ bytes.length / 8 := by
  have capacity := parseMo_capacity bytes
  constructor
  · intro reads
    by_cases short : bytes.length < 28
    · exact Or.inl short
    · rw [if_neg short] at capacity
      exact Or.inr (reads.bounded _ capacity)
  · intro room
    refine ⟨fun order pairs laid => parseMo_laidOut laid, (parseMo_safe bytes).ne_error.1,
      (parseMo_safe bytes).ne_error.2, fun asked same => ?_⟩
    rw [capacity] at same
    split at same
    · cases same
    · cases same
      exact room.resolve_left ‹_›

end LinkP2p.I18n
