import LinkP2p.Lib.Wire
import LinkP2p.Tun.Roster

/-!
# The bytes of roster messages

A message has no outer length: the type byte says what follows, and a snapshot
counts its entries. Reader and encoder have to agree on every byte, or all later
messages of the stream are lost.
-/

namespace LinkP2p.Tun.RosterCodec

open LinkP2p.Lib.Bytes LinkP2p.Lib.Wire

/-- `MSG_SNAPSHOT` -/
def msgSnapshot : UInt8 := 1

/-- `MSG_JOINED` -/
def msgJoined : UInt8 := 2

/-- `MSG_LEFT` -/
def msgLeft : UInt8 := 3

/-- `ENTRY_LEN` -/
def entryLen : Nat := 52

/-- `EndpointId::as_bytes` -/
def asBytes (id : EndpointId) : List UInt8 := toBytes 32 id.toNat

inductive ReadError where
  | earlyEof
  | badMagic
  | tooManyEntries (n : Nat)
  | unknownType (other : UInt8)
  | entryTruncated
  | invalidId
  deriving DecidableEq, Repr

def ReadError.text : ReadError → String
  | .earlyEof => "early eof"
  | .badMagic => "bad roster magic"
  | .tooManyEntries n =>
      "roster snapshot has too many entries (" ++ toString n ++ " > " ++
        toString rosterMaxEntries ++ ")"
  | .unknownType other => "unknown roster msg type " ++ toString other
  | .entryTruncated => "roster entry truncated"
  | .invalidId => "invalid EndpointId in roster"

/-! ## Encoding -/

def RosterEntry.encode (entry : RosterEntry) : List UInt8 :=
  Ipv4Addr.octets entry.vip ++ Ipv6Addr.octets entry.vip6 ++ asBytes entry.id

def encodeSnapshot (entries : List RosterEntry) : List UInt8 :=
  let n := min entries.length rosterMaxEntries
  rosterMagic ++ [msgSnapshot] ++ toBytes 2 (min n 65535) ++
    (entries.take n).flatMap RosterEntry.encode

def encodeJoined (entry : RosterEntry) : List UInt8 :=
  rosterMagic ++ [msgJoined] ++ RosterEntry.encode entry

def encodeLeft (entry : RosterEntry) : List UInt8 :=
  rosterMagic ++ [msgLeft] ++ RosterEntry.encode entry

/-- The encoder of each kind of message. -/
def encode : RosterMsg → List UInt8
  | .snapshot entries => encodeSnapshot entries
  | .joined entry => encodeJoined entry
  | .left entry => encodeLeft entry

/-! ## Decoding -/

section Decoding

-- Whether 32 bytes are a public key.
variable (valid : EndpointId → Bool)

/-- `EndpointId::from_bytes` keeps the bytes of a valid key. -/
def fromBytes (bytes : List UInt8) : Option EndpointId :=
  let id : EndpointId := BitVec.ofNat 256 (ofBytes bytes)
  if valid id then some id else none

def RosterEntry.decode (buf : List UInt8) : Except ReadError (RosterEntry × Nat) :=
  if buf.length < entryLen then .error .entryTruncated
  else
    match fromBytes valid (slice buf 20 32) with
    | some id => .ok (⟨.ofOctets (slice buf 0 4), .ofOctets (slice buf 4 16), id⟩, entryLen)
    | none => .error .invalidId

def readEntry : Reader ReadError UInt8 RosterEntry := do
  let buf ← readExact .earlyEof entryLen
  let decoded ← ofExcept (RosterEntry.decode valid buf)
  pure decoded.1

/-- The body of a message, by its type byte. -/
def readBody (kind : UInt8) : Reader ReadError UInt8 RosterMsg :=
  if kind = msgSnapshot then do
    let nb ← readExact .earlyEof 2
    if ofBytes nb > rosterMaxEntries then throw (.tooManyEntries (ofBytes nb))
    else do
      let entries ← readTimes (readEntry valid) (ofBytes nb)
      pure (.snapshot entries)
  else if kind = msgJoined then do
    let entry ← readEntry valid
    pure (.joined entry)
  else if kind = msgLeft then do
    let entry ← readEntry valid
    pure (.left entry)
  else throw (.unknownType kind)

def readMsg : Reader ReadError UInt8 RosterMsg := do
  let hdr ← readExact .earlyEof 5
  if hdr.take 4 ≠ rosterMagic then throw .badMagic
  else readBody valid (hdr.getD 4 0)

/-- What the encoders write without loss. -/
def Sendable : RosterMsg → Prop
  | .snapshot entries =>
      entries.length ≤ rosterMaxEntries ∧ ∀ entry ∈ entries, valid entry.id = true
  | .joined entry => valid entry.id = true
  | .left entry => valid entry.id = true

end Decoding

variable {valid : EndpointId → Bool}

/-! ## Entries -/

theorem ofNat_ofBytes_asBytes (id : EndpointId) :
    BitVec.ofNat 256 (ofBytes (asBytes id)) = id := by
  rw [asBytes, ofBytes_toBytes, Nat.mod_eq_of_lt]
  · exact BitVec.ofNat_toNat 256 id
  · exact id.isLt

theorem asBytes_ofNat_ofBytes {bytes : List UInt8} (width : bytes.length = 32) :
    asBytes (BitVec.ofNat 256 (ofBytes bytes)) = bytes := by
  have small : ofBytes bytes < 2 ^ 256 := by
    have bound := ofBytes_lt bytes
    rw [width] at bound
    exact bound
  rw [asBytes, BitVec.toNat_ofNat, Nat.mod_eq_of_lt small, ← width, toBytes_ofBytes]

/-- `from_bytes` inverts `as_bytes`, and nothing else does. -/
theorem fromBytes_eq_some {bytes : List UInt8} {id : EndpointId} (width : bytes.length = 32) :
    fromBytes valid bytes = some id ↔ valid id = true ∧ bytes = asBytes id := by
  unfold fromBytes
  constructor
  · intro found
    obtain ⟨good, same⟩ := Option.ite_none_right_eq_some.mp found
    cases same
    exact ⟨good, (asBytes_ofNat_ofBytes width).symm⟩
  · rintro ⟨good, rfl⟩
    simp only [ofNat_ofBytes_asBytes, good, if_true]

theorem length_encode (entry : RosterEntry) : (RosterEntry.encode entry).length = entryLen := by
  simp only [RosterEntry.encode, Ipv4Addr.octets, Ipv6Addr.octets, asBytes, List.length_append,
    length_toBytes]
  rfl

/-- The three fields of an entry cover its bytes. -/
theorem slices_eq {buf : List UInt8} (width : buf.length = entryLen) :
    slice buf 0 4 ++ slice buf 4 16 ++ slice buf 20 32 = buf := by
  have whole : slice buf 20 32 = buf.drop 20 := by
    rw [slice, List.take_of_length_le]
    rw [List.length_drop, width]
    decide
  have front : slice buf 0 4 ++ slice buf 4 16 = buf.take 20 := by
    rw [slice, slice, List.drop_zero, ← List.take_add]
  rw [front, whole, List.take_append_drop]

/-- `decode` accepts exactly the bytes that `encode` writes. -/
theorem decode_eq_ok {buf : List UInt8} {entry : RosterEntry} {used : Nat}
    (width : buf.length = entryLen) :
    RosterEntry.decode valid buf = .ok (entry, used) ↔
      valid entry.id = true ∧ buf = RosterEntry.encode entry ∧ used = entryLen := by
  have width' : (slice buf 20 32).length = 32 := by
    rw [slice, List.length_take, List.length_drop, width]
    decide
  unfold RosterEntry.decode
  rw [if_neg (by omega)]
  constructor
  · intro decoded
    cases found : fromBytes valid (slice buf 20 32) with
    | none => rw [found] at decoded; cases decoded
    | some id =>
        rw [found] at decoded
        cases decoded
        obtain ⟨good, same⟩ := (fromBytes_eq_some width').mp found
        refine ⟨good, ?_, rfl⟩
        rw [RosterEntry.encode, Ipv4Addr.octets_ofOctets, Ipv6Addr.octets_ofOctets, ← same,
          slices_eq width]
        · rw [slice, List.length_take, List.length_drop, width]
          decide
        · rw [slice, List.length_take, List.length_drop, width]
          decide
  · rintro ⟨good, rfl, rfl⟩
    have vip : slice (RosterEntry.encode entry) 0 4 = Ipv4Addr.octets entry.vip := by
      rw [RosterEntry.encode, List.append_assoc, ← List.nil_append (Ipv4Addr.octets entry.vip)]
      exact slice_append rfl (length_toBytes _ _) _
    have vip6 : slice (RosterEntry.encode entry) 4 16 = Ipv6Addr.octets entry.vip6 :=
      slice_append (length_toBytes _ _) (length_toBytes _ _) _
    have id : slice (RosterEntry.encode entry) 20 32 = asBytes entry.id := by
      apply slice_suffix
      · rw [List.length_append, Ipv4Addr.octets, Ipv6Addr.octets, length_toBytes, length_toBytes]
      · exact length_toBytes _ _
    have found : fromBytes valid (asBytes entry.id) = some entry.id :=
      (fromBytes_eq_some (length_toBytes _ _)).mpr ⟨good, rfl⟩
    rw [vip, vip6, id, found]
    simp only [Ipv4Addr.ofOctets_octets, Ipv6Addr.ofOctets_octets]

theorem readEntry_decodes :
    Decodes (readEntry valid) (fun entry => valid entry.id = true) RosterEntry.encode := by
  refine (Reads.bind (Reads.readExact .earlyEof entryLen) fun buf =>
    Reads.bind (Reads.ofExcept (RosterEntry.decode valid buf)) fun decoded =>
      Reads.pure decoded.1).congr fun bytes entry => ?_
  constructor
  · rintro ⟨front, _, buf, rfl, ⟨width, rfl⟩, _, _, ⟨decoded, used⟩, rfl, ⟨rfl, ran⟩, rfl, rfl⟩
    obtain ⟨good, same, -⟩ := (decode_eq_ok width).mp ran
    exact ⟨good, by rw [← same, List.append_nil, List.append_nil]⟩
  · rintro ⟨good, rfl⟩
    have width := length_encode entry
    exact ⟨_, [], _, (List.append_nil _).symm, ⟨width, rfl⟩, [], [], (entry, entryLen), rfl,
      ⟨rfl, (decode_eq_ok width).mpr ⟨good, rfl, rfl⟩⟩, rfl, rfl⟩

/-! ## Messages -/

/-- The type byte of a message. -/
def kindOf : RosterMsg → UInt8
  | .snapshot _ => msgSnapshot
  | .joined _ => msgJoined
  | .left _ => msgLeft

/-- What stands behind the type byte. -/
def body : RosterMsg → List UInt8
  | .snapshot entries =>
      toBytes 2 (min (min entries.length rosterMaxEntries) 65535) ++
        (entries.take (min entries.length rosterMaxEntries)).flatMap RosterEntry.encode
  | .joined entry => RosterEntry.encode entry
  | .left entry => RosterEntry.encode entry

theorem encode_eq (msg : RosterMsg) : encode msg = (rosterMagic ++ [kindOf msg]) ++ body msg := by
  cases msg with
  | snapshot entries => exact List.append_assoc _ _ _
  | joined entry => rfl
  | left entry => rfl

/-- A snapshot that keeps to the cap is written whole, with its length in front. -/
theorem body_snapshot {entries : List RosterEntry} (capped : entries.length ≤ rosterMaxEntries) :
    body (.snapshot entries) = toBytes 2 entries.length ++ entries.flatMap RosterEntry.encode := by
  have small : entries.length ≤ 65535 := Nat.le_trans capped (by decide)
  rw [body, Nat.min_eq_left capped, Nat.min_eq_left small, List.take_length]

theorem readSnapshot_reads :
    Reads (do
      let nb ← readExact .earlyEof 2
      if ofBytes nb > rosterMaxEntries then throw (.tooManyEntries (ofBytes nb))
      else do
        let entries ← readTimes (readEntry valid) (ofBytes nb)
        pure (RosterMsg.snapshot entries) : Reader ReadError UInt8 RosterMsg)
      fun bytes msg => ∃ entries, msg = .snapshot entries ∧ Sendable valid msg ∧
        bytes = body msg := by
  refine (Reads.bind (Reads.readExact .earlyEof 2) fun nb =>
    Reads.ite (fun _ : ofBytes nb > rosterMaxEntries => Reads.throw _) fun _ =>
      Reads.bind (readEntry_decodes.readTimes (ofBytes nb)) fun entries =>
        Reads.pure (RosterMsg.snapshot entries)).congr fun bytes msg => ?_
  constructor
  · rintro ⟨_, _, nb, rfl, ⟨width, rfl⟩, ⟨-, impossible⟩ | ⟨fits, _, _, entries, rfl,
      ⟨⟨length, good⟩, rfl⟩, rfl, rfl⟩⟩
    · exact impossible.elim
    · have capped : entries.length ≤ rosterMaxEntries := by rw [length]; exact Nat.not_lt.mp fits
      refine ⟨entries, rfl, ⟨capped, good⟩, ?_⟩
      rw [body_snapshot capped, length, ← width, toBytes_ofBytes, List.append_nil]
  · rintro ⟨entries, rfl, ⟨capped, good⟩, rfl⟩
    have count : ofBytes (toBytes 2 entries.length) = entries.length := by
      rw [ofBytes_toBytes, Nat.mod_eq_of_lt]
      exact Nat.lt_of_le_of_lt capped (by decide)
    refine ⟨_, _, _, body_snapshot capped, ⟨length_toBytes _ _, rfl⟩, .inr ⟨?_, _, [], entries,
      (List.append_nil _).symm, ⟨⟨count.symm, good⟩, rfl⟩, rfl, rfl⟩⟩
    rw [count]
    exact Nat.not_lt.mpr capped

/-- A message that is one entry, under either type byte. -/
theorem readOne_reads (make : RosterEntry → RosterMsg) :
    Reads (do
      let entry ← readEntry valid
      pure (make entry) : Reader ReadError UInt8 RosterMsg)
      fun bytes msg => ∃ entry, msg = make entry ∧ valid entry.id = true ∧
        bytes = RosterEntry.encode entry := by
  refine (Reads.bind readEntry_decodes fun entry => Reads.pure (make entry)).congr
    fun bytes msg => ?_
  constructor
  · rintro ⟨_, _, entry, rfl, ⟨good, rfl⟩, rfl, rfl⟩
    exact ⟨entry, rfl, good, List.append_nil _⟩
  · rintro ⟨entry, rfl, good, rfl⟩
    exact ⟨_, [], entry, (List.append_nil _).symm, ⟨good, rfl⟩, rfl, rfl⟩

/-- Each type byte reads the bodies of its own kind of message. -/
theorem readBody_reads (kind : UInt8) :
    Reads (readBody valid kind) fun bytes msg =>
      Sendable valid msg ∧ kind = kindOf msg ∧ bytes = body msg := by
  refine (Reads.ite (fun _ => readSnapshot_reads) fun _ =>
    Reads.ite (fun _ => readOne_reads .joined) fun _ =>
      Reads.ite (fun _ => readOne_reads .left) fun _ => Reads.throw _).congr fun bytes msg => ?_
  constructor
  · rintro (⟨rfl, _, rfl, sendable, rfl⟩ | ⟨-, ⟨rfl, _, rfl, good, rfl⟩ |
      ⟨-, ⟨rfl, _, rfl, good, rfl⟩ | ⟨-, impossible⟩⟩⟩)
    · exact ⟨sendable, rfl, rfl⟩
    · exact ⟨good, rfl, rfl⟩
    · exact ⟨good, rfl, rfl⟩
    · exact impossible.elim
  · rintro ⟨sendable, rfl, rfl⟩
    cases msg with
    | snapshot entries => exact .inl ⟨rfl, entries, rfl, sendable, rfl⟩
    | joined entry =>
        have other : msgJoined ≠ msgSnapshot := by decide
        exact .inr ⟨other, .inl ⟨rfl, entry, rfl, sendable, rfl⟩⟩
    | left entry =>
        have other : msgLeft ≠ msgSnapshot := by decide
        have other' : msgLeft ≠ msgJoined := by decide
        exact .inr ⟨other, .inr ⟨other', .inl ⟨rfl, entry, rfl, sendable, rfl⟩⟩⟩

theorem readMsg_decodes : Decodes (readMsg valid) (Sendable valid) encode := by
  refine (Reads.bind (Reads.readExact .earlyEof 5) fun hdr =>
    Reads.ite (fun _ : hdr.take 4 ≠ rosterMagic => Reads.throw _) fun _ =>
      readBody_reads (hdr.getD 4 0)).congr fun bytes msg => ?_
  constructor
  · rintro ⟨_, _, hdr, rfl, ⟨width, rfl⟩, ⟨-, impossible⟩ | ⟨magic, sendable, kind, rfl⟩⟩
    · exact impossible.elim
    · refine ⟨sendable, ?_⟩
      have last : hdr.drop 4 = [kindOf msg] := by
        rw [← kind, List.drop_eq_getElem_cons (by omega),
          List.drop_of_length_le (by omega), List.getD_eq_getElem?_getD,
          List.getElem?_eq_getElem (by omega), Option.getD_some]
      rw [encode_eq, ← Decidable.not_not.mp magic, ← last, List.take_append_drop]
  · rintro ⟨sendable, rfl⟩
    exact ⟨_, _, _, encode_eq msg, ⟨rfl, rfl⟩, .inr ⟨not_not_intro rfl, sendable, rfl, rfl⟩⟩

theorem encode_ne_nil (msg : RosterMsg) : encode msg ≠ [] := by
  rw [encode_eq]
  exact List.cons_ne_nil _ _

/-- Messages written back to back are read back one by one, to the clean end of
the stream, and a message is never read from any other bytes. -/
theorem readMsg_stream (valid : EndpointId → Bool) :
    (∀ messages, (∀ msg ∈ messages, Sendable valid msg) →
      ∀ chunks : List (List UInt8), chunks.flatten = messages.flatMap encode →
        ∃ later, readAll (readMsg valid) chunks = (messages, later) ∧ later.flatten = [] ∧
          readMsg valid later = .error .earlyEof) ∧
    (∀ chunks msg later, readMsg valid chunks = .ok (msg, later) →
      Sendable valid msg ∧ chunks.flatten = encode msg ++ later.flatten) ∧
    ∀ chunks chunks' msg later later', readMsg valid chunks = .ok (msg, later) →
      readMsg valid chunks' = .ok (msg, later') → later.flatten = later'.flatten →
        chunks.flatten = chunks'.flatten := by
  refine ⟨?_, ?_, ?_⟩
  · intro messages sendable chunks delivered
    obtain ⟨later, read, ended⟩ := readMsg_decodes.readAll encode_ne_nil sendable delivered
    refine ⟨later, read, ended, ?_⟩
    have eof := readExact_eof ReadError.earlyEof
      (by rw [ended]; decide : later.flatten.length < 5)
    change (readExact ReadError.earlyEof 5 later >>= _) = _
    rw [eof]
    rfl
  · intro chunks msg later ran
    exact readMsg_decodes.consumed ran
  · intro chunks chunks' msg later later' ran ran' same
    rw [(readMsg_decodes.consumed ran).2, (readMsg_decodes.consumed ran').2, same]

/-- A join and a snapshot that arrive one byte at a time. -/
theorem readMsg_stream_joined_snapshot :
    let entry : RosterEntry := ⟨0xAC180001, 1, 7⟩
    let messages : List RosterMsg := [.joined entry, .snapshot [entry, entry]]
    ∃ later, readAll (readMsg fun _ => true) ((messages.flatMap encode).map fun byte => [byte]) =
        (messages, later) ∧ later.flatten = [] ∧
      readMsg (fun _ => true) later = .error .earlyEof := by
  intro entry messages
  refine (readMsg_stream fun _ => true).1 messages ?_ _ ?_
  · intro msg member
    rcases List.mem_pair.mp member with rfl | rfl
    · rfl
    · exact ⟨by decide, fun _ _ => rfl⟩
  · exact List.flatMap_singleton' _

end LinkP2p.Tun.RosterCodec
