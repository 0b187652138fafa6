import LinkP2p.Daemon.Control
import LinkP2p.Lib.Bytes
import LinkP2p.Lib.Wire

/-!
# Frames on the control socket

A frame is the magic `LPC1`, a version byte, the length of the body and the body,
which is JSON. One decoder works on a buffered frame, another reads the frame from
the socket; the commands use both.
-/

namespace LinkP2p.Daemon

open LinkP2p.Lib.Bytes LinkP2p.Lib.Wire

/-- `CTL_MAGIC` -/
def ctlMagic : List UInt8 := [0x4c, 0x50, 0x43, 0x31]

/-- `CTL_VERSION` -/
def ctlVersion : UInt8 := 2

/-- `MIN_SUPPORTED_VERSION` -/
def minSupportedVersion : UInt8 := 2

/-- `CTL_MAX_BODY` -/
def ctlMaxBody : Nat := 1024 * 1024

/-- `CTL_MAX_PEERS` -/
def ctlMaxPeers : Nat := 4096

/-- Marker for a live daemon that speaks another version. -/
structure ProtocolMismatch where
  daemonVersion : UInt8
  cliVersion : UInt8
  message : String
  deriving DecidableEq, Repr

inductive CtlError where
  | bodyTooLarge
  | bodyExceedsMax
  | badMagic
  /-- `exit::coded` around the marker -/
  | mismatch (code : Int) (marker : ProtocolMismatch)
  | tooManyEntries (count : Nat)
  | truncated
  | readHeader
  | readBody
  | encodeRequest
  | encodeResponse
  | decodeRequest
  | decodeResponse
  deriving DecidableEq, Repr

def CtlError.text : CtlError → String
  | .bodyTooLarge => "control body too large"
  | .bodyExceedsMax =>
      "control body exceeds max (" ++ toString ctlMaxBody ++
        " bytes); this may indicate malformed serialization or a DoS attempt"
  | .badMagic => "bad control magic (expected LPC1)"
  | .mismatch _ marker => marker.message
  | .tooManyEntries count =>
      "control Peers response has too many entries (" ++ toString count ++ " > " ++
        toString ctlMaxPeers ++ ")"
  | .truncated => "control frame truncated"
  | .readHeader => "read control header"
  | .readBody => "read control body"
  | .encodeRequest => "encode control request"
  | .encodeResponse => "encode control response"
  | .decodeRequest => "decode control request"
  | .decodeResponse => "decode control response"

/-! ## Parts of a frame -/

def encodeFrame (version : UInt8) (body : List UInt8) : Except CtlError (List UInt8) :=
  if 2 ^ 32 ≤ body.length then .error .bodyTooLarge
  else if body.length > ctlMaxBody then .error .bodyExceedsMax
  else .ok (ctlMagic ++ [version] ++ toBytes 4 body.length ++ body)

/-- The version and the length of the body. -/
def parseHeader (hdr : List UInt8) : Except CtlError (UInt8 × Nat) :=
  if hdr.take 4 ≠ ctlMagic then .error .badMagic
  else
    let len := ofBytes (slice hdr 5 4)
    if len > ctlMaxBody then .error .bodyExceedsMax
    else .ok (hdr.getD 4 0, len)

def mismatchText (version : UInt8) : String :=
  if version < minSupportedVersion then
    "TUN daemon protocol version " ++ toString version ++
      " is no longer supported (minimum v" ++ toString minSupportedVersion ++
      "); upgrade the daemon"
  else if version > ctlVersion then
    "TUN daemon protocol is newer (v" ++ toString version ++ ") than this CLI (v" ++
      toString ctlVersion ++ "); upgrade link-p2p"
  else
    "TUN daemon protocol is older (v" ++ toString version ++ ") than this CLI (v" ++
      toString ctlVersion ++ "); restart the daemon or downgrade the CLI"

def checkVersion (version : UInt8) : Except CtlError Unit :=
  if version = ctlVersion then .ok ()
  else .error (.mismatch exitUsage ⟨version, ctlVersion, mismatchText version⟩)

def validateCtlResponse : CtlResponse → Except CtlError CtlResponse
  | .peers peers =>
      if peers.length > ctlMaxPeers then .error (.tooManyEntries peers.length)
      else .ok (.peers peers)
  | resp => .ok resp

/-- `serde_json` on one type: `to_vec` and `from_slice`. -/
structure Serde (α : Type) where
  toVec : α → Option (List UInt8)
  fromSlice : List UInt8 → Option α

/-- What is written is read back. -/
def Serde.Sound {α : Type} (serde : Serde α) : Prop :=
  ∀ x body, serde.toVec x = some body → serde.fromSlice body = some x

/-! ## Messages of one type

Requests and responses have their own copies of each function below. -/

section Messages

variable {α : Type}

/-- A body with its frame. -/
def encodeMessage (serde : Serde α) (fails : CtlError) (x : α) : Except CtlError (List UInt8) :=
  match serde.toVec x with
  | none => .error fails
  | some body => encodeFrame ctlVersion body

/-- Decode a full frame already buffered. -/
def decodeFrame (parse : List UInt8 → Except CtlError α) (frame : List UInt8) :
    Except CtlError α :=
  if frame.length < 9 then .error .truncated
  else
    match parseHeader (frame.take 9) with
    | .error e => .error e
    | .ok (version, len) =>
        match checkVersion version with
        | .error e => .error e
        | .ok () =>
            if frame.length < 9 + len then .error .truncated else parse (slice frame 9 len)

/-- The body of a frame; an empty one is not waited for. -/
def readBody (len : Nat) : Reader CtlError UInt8 (List UInt8) :=
  if 0 < len then readExact .readBody len else pure []

/-- Read one framed message. -/
def readFrame : Reader CtlError UInt8 (UInt8 × List UInt8) := do
  let hdr ← readExact .readHeader 9
  let (version, len) ← ofExcept (parseHeader hdr)
  let body ← readBody len
  pure (version, body)

def readMessage (parse : List UInt8 → Except CtlError α) : Reader CtlError UInt8 α := do
  let (version, body) ← readFrame
  ofExcept (checkVersion version)
  ofExcept (parse body)

end Messages

def parseRequest (serde : Serde CtlRequest) (body : List UInt8) : Except CtlError CtlRequest :=
  match serde.fromSlice body with
  | none => .error .decodeRequest
  | some req => .ok req

def parseResponse (serde : Serde CtlResponse) (body : List UInt8) : Except CtlError CtlResponse :=
  match serde.fromSlice body with
  | none => .error .decodeResponse
  | some resp => validateCtlResponse resp

def encodeRequest (serde : Serde CtlRequest) : CtlRequest → Except CtlError (List UInt8) :=
  encodeMessage serde .encodeRequest

def encodeResponse (serde : Serde CtlResponse) : CtlResponse → Except CtlError (List UInt8) :=
  encodeMessage serde .encodeResponse

def decodeRequestFrame (serde : Serde CtlRequest) : List UInt8 → Except CtlError CtlRequest :=
  decodeFrame (parseRequest serde)

def decodeResponseFrame (serde : Serde CtlResponse) : List UInt8 → Except CtlError CtlResponse :=
  decodeFrame (parseResponse serde)

def readRequest (serde : Serde CtlRequest) : Reader CtlError UInt8 CtlRequest :=
  readMessage (parseRequest serde)

def readResponse (serde : Serde CtlResponse) : Reader CtlError UInt8 CtlResponse :=
  readMessage (parseResponse serde)

/-! ## What the readers compute -/

/-- The length field of a frame. -/
def bodyLength (bytes : List UInt8) : Nat := ofBytes (slice bytes 5 4)

/-- The frame is there to its end. -/
def FrameComplete (bytes : List UInt8) : Prop := 9 + bodyLength bytes ≤ bytes.length

variable {α : Type} {parse : List UInt8 → Except CtlError α} {bytes : List UInt8}

theorem FrameComplete.header (complete : FrameComplete bytes) : 9 ≤ bytes.length :=
  (Nat.le_add_right 9 _).trans complete

/-- The header is looked at through the first nine bytes. -/
theorem parseHeader_take (bytes : List UInt8) :
    parseHeader (bytes.take 9) =
      if bytes.take 4 ≠ ctlMagic then .error .badMagic
      else if bodyLength bytes > ctlMaxBody then .error .bodyExceedsMax
      else .ok (bytes.getD 4 0, bodyLength bytes) := by
  have field : slice (bytes.take 9) 5 4 = slice bytes 5 4 := by
    simp only [slice, List.drop_take, List.take_take]
    rfl
  have byte : (bytes.take 9).getD 4 0 = bytes.getD 4 0 := by
    simp only [List.getD_eq_getElem?_getD, List.getElem?_take]
    rfl
  rw [parseHeader, List.take_take, field, byte]
  rfl

/-- What reading a frame off the bytes of the stream comes to. -/
def streamedFrame (bytes : List UInt8) : Except CtlError ((UInt8 × List UInt8) × List UInt8) :=
  if bytes.length < 9 then .error .readHeader
  else
    match parseHeader (bytes.take 9) with
    | .error e => .error e
    | .ok (version, len) =>
        if bytes.length < 9 + len then .error .readBody
        else .ok ((version, slice bytes 9 len), bytes.drop (9 + len))

/-- The body is read off the stream before the version is looked at. -/
def streamed (parse : List UInt8 → Except CtlError α) (bytes : List UInt8) :
    Except CtlError (α × List UInt8) :=
  match streamedFrame bytes with
  | .error e => .error e
  | .ok ((version, body), rest) =>
      match checkVersion version with
      | .error e => .error e
      | .ok () => (parse body).map fun x => (x, rest)

theorem readBody_eq (len : Nat) : readBody len = readExact .readBody len := by
  cases len with
  | zero => exact (readExact_zero _).symm
  | succ len => exact if_pos (Nat.succ_pos len)

theorem readFrame_spec (chunks : List (List UInt8)) :
    (readFrame chunks).map (fun taken => (taken.1, taken.2.flatten)) =
      streamedFrame chunks.flatten := by
  unfold readFrame streamedFrame
  by_cases short : chunks.flatten.length < 9
  · rw [if_pos short]
    simp only [reader_bind, readExact_eof _ short]
    rfl
  · obtain ⟨later, header, rest⟩ := readExact_of_le CtlError.readHeader (Nat.not_lt.mp short)
    rw [if_neg short]
    simp only [reader_bind, header]
    cases parseHeader (chunks.flatten.take 9) with
    | error e => rfl
    | ok parsed =>
        obtain ⟨version, len⟩ := parsed
        have length : later.flatten.length = chunks.flatten.length - 9 := by
          rw [rest, List.length_drop]
        simp only [reader_ofExcept_ok, readBody_eq]
        by_cases truncated : chunks.flatten.length < 9 + len
        · rw [if_pos truncated]
          have short' : later.flatten.length < len := by omega
          rw [readExact_eof _ short']
          rfl
        · rw [if_neg truncated]
          have enough : len ≤ later.flatten.length := by omega
          obtain ⟨final, read, left⟩ := readExact_of_le CtlError.readBody enough
          rw [read]
          change Except.ok ((version, later.flatten.take len), final.flatten) = _
          rw [left, rest, List.drop_drop]
          rfl

theorem readMessage_spec (parse : List UInt8 → Except CtlError α) (chunks : List (List UInt8)) :
    (readMessage parse chunks).map (fun taken => (taken.1, taken.2.flatten)) =
      streamed parse chunks.flatten := by
  unfold readMessage streamed
  rw [← readFrame_spec]
  simp only [reader_bind]
  cases readFrame chunks with
  | error e => rfl
  | ok taken =>
      obtain ⟨⟨version, body⟩, later⟩ := taken
      dsimp only [Except.map]
      cases checkVersion version with
      | error e => rfl
      | ok _ => cases parse body <;> rfl

/-! ## What is accepted -/

/-- A whole frame of this version. -/
structure Framed (bytes : List UInt8) : Prop where
  magic : bytes.take 4 = ctlMagic
  version : bytes.getD 4 0 = ctlVersion
  fits : bodyLength bytes ≤ ctlMaxBody
  complete : FrameComplete bytes

/-- What both decoders report for another version. -/
def mismatch (version : UInt8) : CtlError :=
  .mismatch exitUsage ⟨version, ctlVersion, mismatchText version⟩

theorem checkVersion_eq (version : UInt8) :
    checkVersion version = if version ≠ ctlVersion then .error (mismatch version) else .ok () :=
  (ite_not ..).symm

/-- A buffered frame has its version checked before its length. -/
theorem decodeFrame_eq (parse : List UInt8 → Except CtlError α) (bytes : List UInt8) :
    decodeFrame parse bytes =
      if bytes.length < 9 then .error .truncated
      else if bytes.take 4 ≠ ctlMagic then .error .badMagic
      else if bodyLength bytes > ctlMaxBody then .error .bodyExceedsMax
      else if bytes.getD 4 0 ≠ ctlVersion then .error (mismatch (bytes.getD 4 0))
      else if bytes.length < 9 + bodyLength bytes then .error .truncated
      else parse (slice bytes 9 (bodyLength bytes)) := by
  unfold decodeFrame
  rw [parseHeader_take]
  split
  · rfl
  by_cases magic : bytes.take 4 ≠ ctlMagic
  · rw [if_pos magic, if_pos magic]
  rw [if_neg magic, if_neg magic]
  by_cases large : bodyLength bytes > ctlMaxBody
  · rw [if_pos large, if_pos large]
  rw [if_neg large, if_neg large]
  dsimp only
  rw [checkVersion_eq]
  by_cases version : bytes.getD 4 0 ≠ ctlVersion
  · rw [if_pos version, if_pos version]
  · rw [if_neg version, if_neg version]

/-- A frame on the socket has its length checked before its version. -/
theorem streamed_eq (parse : List UInt8 → Except CtlError α) (bytes : List UInt8) :
    streamed parse bytes =
      if bytes.length < 9 then .error .readHeader
      else if bytes.take 4 ≠ ctlMagic then .error .badMagic
      else if bodyLength bytes > ctlMaxBody then .error .bodyExceedsMax
      else if bytes.length < 9 + bodyLength bytes then .error .readBody
      else if bytes.getD 4 0 ≠ ctlVersion then .error (mismatch (bytes.getD 4 0))
      else (parse (slice bytes 9 (bodyLength bytes))).map fun x =>
        (x, bytes.drop (9 + bodyLength bytes)) := by
  unfold streamed streamedFrame
  rw [parseHeader_take]
  by_cases short : bytes.length < 9
  · rw [if_pos short, if_pos short]
  rw [if_neg short, if_neg short]
  by_cases magic : bytes.take 4 ≠ ctlMagic
  · rw [if_pos magic, if_pos magic]
  rw [if_neg magic, if_neg magic]
  by_cases large : bodyLength bytes > ctlMaxBody
  · rw [if_pos large, if_pos large]
  rw [if_neg large, if_neg large]
  dsimp only
  by_cases truncated : bytes.length < 9 + bodyLength bytes
  · rw [if_pos truncated, if_pos truncated]
  rw [if_neg truncated, if_neg truncated]
  dsimp only
  rw [checkVersion_eq]
  by_cases version : bytes.getD 4 0 ≠ ctlVersion
  · rw [if_pos version, if_pos version]
  · rw [if_neg version, if_neg version]

theorem decodeFrame_ok_iff {x : α} :
    decodeFrame parse bytes = .ok x ↔
      Framed bytes ∧ parse (slice bytes 9 (bodyLength bytes)) = .ok x := by
  rw [decodeFrame_eq]
  constructor
  · intro decoded
    split_ifs at decoded with short magic large version truncated
    exact ⟨⟨not_not.mp magic, not_not.mp version, Nat.not_lt.mp large,
      Nat.not_lt.mp truncated⟩, decoded⟩
  · rintro ⟨framed, parsed⟩
    rw [if_neg (Nat.not_lt.mpr framed.complete.header), if_neg (not_not.mpr framed.magic),
      if_neg (Nat.not_lt.mpr framed.fits),
      if_neg (not_not.mpr framed.version), if_neg (Nat.not_lt.mpr framed.complete), parsed]

theorem streamed_ok_iff {x : α} {rest : List UInt8} :
    streamed parse bytes = .ok (x, rest) ↔
      Framed bytes ∧ parse (slice bytes 9 (bodyLength bytes)) = .ok x ∧
        bytes.drop (9 + bodyLength bytes) = rest := by
  rw [streamed_eq]
  constructor
  · intro read
    split_ifs at read with short magic large truncated version
    cases parsed : parse (slice bytes 9 (bodyLength bytes)) with
    | error e => rw [parsed] at read; cases read
    | ok value =>
        rw [parsed] at read
        cases read
        exact ⟨⟨not_not.mp magic, not_not.mp version, Nat.not_lt.mp large,
          Nat.not_lt.mp truncated⟩, rfl, rfl⟩
  · rintro ⟨framed, parsed, rfl⟩
    rw [if_neg (Nat.not_lt.mpr framed.complete.header), if_neg (not_not.mpr framed.magic),
      if_neg (Nat.not_lt.mpr framed.fits),
      if_neg (Nat.not_lt.mpr framed.complete), if_neg (not_not.mpr framed.version), parsed]
    rfl

/-! ## The two decoders -/

/-- Nine header bytes of another version. -/
structure WrongVersion (bytes : List UInt8) : Prop where
  header : 9 ≤ bytes.length
  magic : bytes.take 4 = ctlMagic
  version : bytes.getD 4 0 ≠ ctlVersion

def IsMismatch {β : Type} (result : Except CtlError β) : Prop :=
  ∃ code marker, result = .error (.mismatch code marker)

/-- The value that was read, without the rest of the stream. -/
def valueRead (parse : List UInt8 → Except CtlError α) (chunks : List (List UInt8)) :
    Except CtlError α :=
  (readMessage parse chunks).map Prod.fst

theorem valueRead_eq (parse : List UInt8 → Except CtlError α) (chunks : List (List UInt8)) :
    valueRead parse chunks = (streamed parse chunks.flatten).map Prod.fst := by
  rw [← readMessage_spec, valueRead]
  cases readMessage parse chunks <;> rfl

/-- Buffered and streaming decoding of one type of messages agree: on every input, on
every frame of another version, on what follows a frame, and on encodings. -/
structure CodecAgrees (encode : α → Except CtlError (List UInt8))
    (parse : List UInt8 → Except CtlError α) (chunks : List (List UInt8)) (x : α) : Prop where
  agree : ∀ y, decodeFrame parse chunks.flatten = .ok y ↔ valueRead parse chunks = .ok y
  versions : WrongVersion chunks.flatten →
    IsMismatch (decodeFrame parse chunks.flatten) ∧ IsMismatch (readMessage parse chunks)
  ignores : FrameComplete chunks.flatten → ∀ longer suffix,
    longer.flatten = chunks.flatten ++ suffix →
      decodeFrame parse longer.flatten = decodeFrame parse chunks.flatten ∧
        valueRead parse longer = valueRead parse chunks
  returns : ∀ frame, encode x = .ok frame → ∀ longer suffix, longer.flatten = frame ++ suffix →
    decodeFrame parse longer.flatten = .ok x ∧
      ∃ later, readMessage parse longer = .ok (x, later) ∧ later.flatten = suffix

theorem readMessage_ok_iff {x : α} {chunks : List (List UInt8)} {rest : List UInt8} :
    (∃ later, readMessage parse chunks = .ok (x, later) ∧ later.flatten = rest) ↔
      streamed parse chunks.flatten = .ok (x, rest) := by
  rw [← readMessage_spec]
  cases readMessage parse chunks with
  | error e => exact iff_of_false (fun ⟨_, same, _⟩ => nomatch same) nofun
  | ok taken =>
      obtain ⟨value, later⟩ := taken
      constructor
      · rintro ⟨_, same, rfl⟩
        cases same
        rfl
      · intro same
        cases same
        exact ⟨later, rfl, rfl⟩

theorem valueRead_ok_iff {x : α} {chunks : List (List UInt8)} :
    valueRead parse chunks = .ok x ↔
      Framed chunks.flatten ∧
        parse (slice chunks.flatten 9 (bodyLength chunks.flatten)) = .ok x := by
  rw [valueRead_eq]
  constructor
  · intro read
    cases found : streamed parse chunks.flatten with
    | error e => rw [found] at read; cases read
    | ok taken =>
        obtain ⟨value, rest⟩ := taken
        rw [found] at read
        cases read
        obtain ⟨framed, parsed, -⟩ := streamed_ok_iff.mp found
        exact ⟨framed, parsed⟩
  · rintro ⟨framed, parsed⟩
    rw [streamed_ok_iff.mpr ⟨framed, parsed, rfl⟩]
    rfl

/-- Whatever the bytes are, both decoders return the same value or both fail. -/
theorem decoders_agree (parse : List UInt8 → Except CtlError α) (chunks : List (List UInt8))
    (x : α) : decodeFrame parse chunks.flatten = .ok x ↔ valueRead parse chunks = .ok x := by
  rw [decodeFrame_ok_iff, valueRead_ok_iff]

/-- The decoders differ on another version: the buffered one only needs the header. -/
theorem mismatch_iff {chunks : List (List UInt8)} (wrong : WrongVersion chunks.flatten) :
    IsMismatch (decodeFrame parse chunks.flatten) ∧ IsMismatch (readMessage parse chunks) ↔
      bodyLength chunks.flatten ≤ ctlMaxBody ∧ FrameComplete chunks.flatten := by
  have mapped : IsMismatch (readMessage parse chunks) ↔
      IsMismatch (streamed parse chunks.flatten) := by
    rw [← readMessage_spec]
    unfold IsMismatch
    cases readMessage parse chunks <;> simp [Except.map]
  rw [mapped, decodeFrame_eq, streamed_eq, if_neg (Nat.not_lt.mpr wrong.header),
    if_neg (Nat.not_lt.mpr wrong.header), if_neg (not_not.mpr wrong.magic),
    if_neg (not_not.mpr wrong.magic), if_pos wrong.version, if_pos wrong.version]
  by_cases large : bodyLength chunks.flatten > ctlMaxBody
  · rw [if_pos large, if_pos large]
    exact iff_of_false (fun both => nomatch both.1) fun both => absurd large (by omega)
  rw [if_neg large, if_neg large]
  by_cases truncated : chunks.flatten.length < 9 + bodyLength chunks.flatten
  · rw [if_pos truncated]
    exact iff_of_false (fun both => nomatch both.2)
      fun both => absurd both.2 (Nat.not_le.mpr truncated)
  · rw [if_neg truncated]
    exact iff_of_true ⟨⟨_, _, rfl⟩, ⟨_, _, rfl⟩⟩ ⟨Nat.not_lt.mp large, Nat.not_lt.mp truncated⟩

/-! ## What follows a frame -/

theorem take_magic_append (header : 9 ≤ bytes.length) (suffix : List UInt8) :
    (bytes ++ suffix).take 4 = bytes.take 4 :=
  List.take_append_of_le_length (by omega)

theorem getD_version_append (header : 9 ≤ bytes.length) (suffix : List UInt8) :
    (bytes ++ suffix).getD 4 0 = bytes.getD 4 0 := by
  rw [List.getD_eq_getElem?_getD, List.getD_eq_getElem?_getD, List.getElem?_append_left (by omega)]

theorem slice_append_of_le {start count : Nat} (inside : start + count ≤ bytes.length)
    (suffix : List UInt8) : slice (bytes ++ suffix) start count = slice bytes start count := by
  unfold slice
  rw [List.drop_append_of_le_length (by omega), List.take_append_of_le_length]
  rw [List.length_drop]
  omega

theorem bodyLength_append (header : 9 ≤ bytes.length) (suffix : List UInt8) :
    bodyLength (bytes ++ suffix) = bodyLength bytes := by
  unfold bodyLength
  rw [slice_append_of_le header]

theorem decodeFrame_append (complete : FrameComplete bytes) (suffix : List UInt8) :
    decodeFrame parse (bytes ++ suffix) = decodeFrame parse bytes := by
  have header := complete.header
  have longer : bytes.length ≤ (bytes ++ suffix).length := List.length_append ▸ Nat.le_add_right _ _
  rw [decodeFrame_eq, decodeFrame_eq, if_neg (Nat.not_lt.mpr (header.trans longer)),
    if_neg (Nat.not_lt.mpr header), take_magic_append header, bodyLength_append header,
    getD_version_append header, if_neg (Nat.not_lt.mpr (complete.trans longer)),
    if_neg (Nat.not_lt.mpr complete), slice_append_of_le complete]

theorem valueRead_append (complete : FrameComplete bytes) {suffix : List UInt8}
    {chunks longer : List (List UInt8)} (short : chunks.flatten = bytes)
    (long : longer.flatten = bytes ++ suffix) :
    valueRead parse longer = valueRead parse chunks := by
  have header := complete.header
  have grows : bytes.length ≤ (bytes ++ suffix).length := List.length_append ▸ Nat.le_add_right _ _
  rw [valueRead_eq, valueRead_eq, short, long, streamed_eq, streamed_eq,
    if_neg (Nat.not_lt.mpr (header.trans grows)), if_neg (Nat.not_lt.mpr header),
    take_magic_append header, bodyLength_append header, getD_version_append header,
    if_neg (Nat.not_lt.mpr (complete.trans grows)), if_neg (Nat.not_lt.mpr complete),
    slice_append_of_le complete]
  split_ifs
  · rfl
  · rfl
  · rfl
  · cases parse (slice bytes 9 (bodyLength bytes)) <;> rfl

theorem Framed.append (framed : Framed bytes) (suffix : List UInt8) :
    Framed (bytes ++ suffix) := by
  have header := framed.complete.header
  have length := bodyLength_append header suffix
  refine ⟨?_, ?_, length.trans_le framed.fits, ?_⟩
  · rw [take_magic_append header, framed.magic]
  · rw [getD_version_append header, framed.version]
  · unfold FrameComplete
    rw [length, List.length_append]
    exact framed.complete.trans (Nat.le_add_right _ _)

/-! ## Encodings -/

theorem encodeFrame_ok_iff {version : UInt8} {body frame : List UInt8} :
    encodeFrame version body = .ok frame ↔
      body.length ≤ ctlMaxBody ∧
        frame = ctlMagic ++ [version] ++ toBytes 4 body.length ++ body := by
  have small : ctlMaxBody < 2 ^ 32 := by decide
  unfold encodeFrame
  split_ifs with huge large
  · exact iff_of_false nofun fun both => absurd both.1 (by omega)
  · exact iff_of_false nofun fun both => absurd both.1 (by omega)
  · rw [Except.ok.injEq, eq_comm]
    exact (and_iff_right (Nat.not_lt.mp large)).symm

theorem bodyLength_encoded (version : UInt8) {body : List UInt8}
    (small : body.length < 2 ^ 32) :
    bodyLength (ctlMagic ++ [version] ++ toBytes 4 body.length ++ body) = body.length := by
  have field := slice_append (show (ctlMagic ++ [version]).length = 5 from rfl)
    (length_toBytes 4 body.length) body
  rw [bodyLength, field, ofBytes_toBytes]
  exact Nat.mod_eq_of_lt small

theorem slice_encoded (version : UInt8) (body : List UInt8) :
    slice (ctlMagic ++ [version] ++ toBytes 4 body.length ++ body) 9 body.length = body :=
  slice_suffix (by rw [List.length_append, length_toBytes]; rfl) rfl

theorem encodeMessage_ok_iff {serde : Serde α} {fails : CtlError} {x : α} {frame : List UInt8} :
    encodeMessage serde fails x = .ok frame ↔
      ∃ body, serde.toVec x = some body ∧ body.length ≤ ctlMaxBody ∧
        frame = ctlMagic ++ [ctlVersion] ++ toBytes 4 body.length ++ body := by
  unfold encodeMessage
  cases serde.toVec x with
  | none => exact iff_of_false nofun fun ⟨_, same, _⟩ => nomatch same
  | some body =>
      dsimp only
      rw [encodeFrame_ok_iff]
      constructor
      · rintro ⟨fits, same⟩
        exact ⟨body, rfl, fits, same⟩
      · rintro ⟨_, same, fits, whole⟩
        cases same
        exact ⟨fits, whole⟩

/-- The text of the value fits a frame. -/
def Fits (serde : Serde α) (x : α) : Prop :=
  ∃ body, serde.toVec x = some body ∧ body.length ≤ ctlMaxBody

theorem encodes_iff {serde : Serde α} {fails : CtlError} {x : α} :
    (∃ frame, encodeMessage serde fails x = .ok frame) ↔ Fits serde x := by
  constructor
  · rintro ⟨frame, encoded⟩
    obtain ⟨body, written, fits, -⟩ := encodeMessage_ok_iff.mp encoded
    exact ⟨body, written, fits⟩
  · rintro ⟨body, written, fits⟩
    exact ⟨_, encodeMessage_ok_iff.mpr ⟨body, written, fits, rfl⟩⟩

theorem small_of_fits {body : List UInt8} (fits : body.length ≤ ctlMaxBody) :
    body.length < 2 ^ 32 :=
  fits.trans_lt (by decide)

/-- An encoded body is a whole frame. -/
theorem framed_encoded {body : List UInt8} (fits : body.length ≤ ctlMaxBody) :
    Framed (ctlMagic ++ [ctlVersion] ++ toBytes 4 body.length ++ body) where
  magic := rfl
  version := rfl
  fits := by rwa [bodyLength_encoded ctlVersion (small_of_fits fits)]
  complete := by
    unfold FrameComplete
    rw [bodyLength_encoded ctlVersion (small_of_fits fits)]
    simp [ctlMagic]
    omega

/-- The body of an encoding in front of anything, and what is left behind it. -/
theorem encoded_append {body : List UInt8} (fits : body.length ≤ ctlMaxBody)
    (suffix : List UInt8) :
    let frame := ctlMagic ++ [ctlVersion] ++ toBytes 4 body.length ++ body
    Framed (frame ++ suffix) ∧
      slice (frame ++ suffix) 9 (bodyLength (frame ++ suffix)) = body ∧
      (frame ++ suffix).drop (9 + bodyLength (frame ++ suffix)) = suffix := by
  intro frame
  have framed : Framed frame := framed_encoded fits
  have width : bodyLength (frame ++ suffix) = body.length :=
    (bodyLength_append framed.complete.header suffix).trans
      (bodyLength_encoded ctlVersion (small_of_fits fits))
  have length : frame.length = 9 + body.length := by simp [frame, ctlMagic]; omega
  rw [width]
  refine ⟨framed.append suffix, ?_, List.drop_left' length⟩
  rw [slice_append_of_le length.ge, slice_encoded]

/-- An encoding is read back, in front of anything, exactly where its body parses. -/
theorem encoding_returns_iff {serde : Serde α} {fails : CtlError} {x : α}
    {body frame : List UInt8}
    (written : serde.toVec x = some body) (encoded : encodeMessage serde fails x = .ok frame) :
    (∀ longer suffix, longer.flatten = frame ++ suffix →
      decodeFrame parse longer.flatten = .ok x ∧
        ∃ later, readMessage parse longer = .ok (x, later) ∧ later.flatten = suffix) ↔
      parse body = .ok x := by
  obtain ⟨body', same, fits, rfl⟩ := encodeMessage_ok_iff.mp encoded
  obtain rfl : body = body' := Option.some.inj (written.symm.trans same)
  constructor
  · intro returns
    obtain ⟨-, content, -⟩ := encoded_append fits []
    obtain ⟨decoded, -⟩ := returns [_] [] List.flatten_singleton
    rw [List.flatten_singleton, decodeFrame_ok_iff, content] at decoded
    exact decoded.2
  · intro parsed longer suffix delivered
    obtain ⟨framed, content, rest⟩ := encoded_append fits suffix
    rw [readMessage_ok_iff, delivered, decodeFrame_ok_iff, streamed_ok_iff, content]
    exact ⟨⟨framed, parsed⟩, framed, parsed, rest⟩

/-- The decoders agree as they should exactly where a frame of another version is there
to its end, and the body of an encoding parses. -/
theorem codecAgrees_iff {serde : Serde α} {fails : CtlError} {x : α}
    {chunks : List (List UInt8)} :
    CodecAgrees (encodeMessage serde fails) parse chunks x ↔
      (WrongVersion chunks.flatten →
        bodyLength chunks.flatten ≤ ctlMaxBody ∧ FrameComplete chunks.flatten) ∧
      ∀ frame body, encodeMessage serde fails x = .ok frame → serde.toVec x = some body →
        parse body = .ok x := by
  constructor
  · intro agrees
    refine ⟨fun wrong => (mismatch_iff wrong).mp (agrees.versions wrong), ?_⟩
    intro frame body encoded written
    exact (encoding_returns_iff written encoded).mp (agrees.returns frame encoded)
  · rintro ⟨complete, parses⟩
    refine ⟨decoders_agree parse chunks, fun wrong => (mismatch_iff wrong).mpr (complete wrong),
      ?_, ?_⟩
    · intro there longer suffix delivered
      rw [delivered]
      exact ⟨decodeFrame_append there suffix, valueRead_append there rfl delivered⟩
    · intro frame encoded
      obtain ⟨body, written, -⟩ := encodeMessage_ok_iff.mp encoded
      exact (encoding_returns_iff written encoded).mpr (parses frame body encoded written)

/-! ## Requests and responses -/

/-- A list of peers longer than the client takes. -/
def TooManyPeers : CtlResponse → Prop
  | .peers peers => ctlMaxPeers < peers.length
  | _ => False

theorem validateCtlResponse_iff {resp : CtlResponse} :
    validateCtlResponse resp = .ok resp ↔ ¬ TooManyPeers resp := by
  unfold validateCtlResponse TooManyPeers
  split
  · rename_i peers
    split
    · rename_i many
      exact iff_of_false nofun (not_not.mpr many)
    · rename_i few
      exact iff_of_true rfl few
  · rename_i other
    exact iff_of_true rfl id

theorem parseRequest_written {serde : Serde CtlRequest} (sound : serde.Sound) {req : CtlRequest}
    {body : List UInt8} (written : serde.toVec req = some body) :
    parseRequest serde body = .ok req := by
  rw [parseRequest, sound req body written]

theorem parseResponse_written_iff {serde : Serde CtlResponse} (sound : serde.Sound)
    {resp : CtlResponse} {body : List UInt8} (written : serde.toVec resp = some body) :
    parseResponse serde body = .ok resp ↔ ¬ TooManyPeers resp := by
  rw [parseResponse, sound resp body written]
  exact validateCtlResponse_iff

/-- Both pairs of decoders agree on the bytes of a stream, and on a request and a
response to be encoded. -/
def FramesAgree (requests : Serde CtlRequest) (responses : Serde CtlResponse)
    (chunks : List (List UInt8)) (req : CtlRequest) (resp : CtlResponse) : Prop :=
  CodecAgrees (encodeRequest requests) (parseRequest requests) chunks req ∧
    CodecAgrees (encodeResponse responses) (parseResponse responses) chunks resp

theorem framesAgree_iff {requests : Serde CtlRequest} {responses : Serde CtlResponse}
    (requestsSound : requests.Sound) (responsesSound : responses.Sound)
    (chunks : List (List UInt8)) (req : CtlRequest) (resp : CtlResponse) :
    FramesAgree requests responses chunks req resp ↔
      (WrongVersion chunks.flatten →
        bodyLength chunks.flatten ≤ ctlMaxBody ∧ FrameComplete chunks.flatten) ∧
      (Fits responses resp → ¬ TooManyPeers resp) := by
  unfold FramesAgree encodeRequest encodeResponse
  rw [codecAgrees_iff, codecAgrees_iff]
  constructor
  · rintro ⟨-, complete, parses⟩
    refine ⟨complete, fun ⟨body, written, fits⟩ => ?_⟩
    exact (parseResponse_written_iff responsesSound written).mp
      (parses _ body (encodeMessage_ok_iff.mpr ⟨body, written, fits, rfl⟩) written)
  · rintro ⟨complete, few⟩
    refine ⟨⟨complete, fun _ _ _ written => parseRequest_written requestsSound written⟩,
      complete, fun frame body encoded written => ?_⟩
    exact (parseResponse_written_iff responsesSound written).mpr
      (few (encodes_iff.mp ⟨frame, encoded⟩))

/-! ## Messages without arguments -/

def utf8 (text : String) : List UInt8 := text.toUTF8.data.toList

/-- `serde_json` on one message. -/
def Serde.single [DecidableEq α] (x : α) (text : List UInt8) : Serde α where
  toVec y := if y = x then some text else none
  fromSlice body := if body = text then some x else none

theorem Serde.single_sound [DecidableEq α] (x : α) (text : List UInt8) :
    (Serde.single x text).Sound := by
  intro y body written
  obtain ⟨rfl, same⟩ := Option.ite_none_right_eq_some.mp written
  obtain rfl := Option.some.inj same
  exact if_pos rfl

theorem Serde.single_fits [DecidableEq α] (x : α) {text : List UInt8}
    (fits : text.length ≤ ctlMaxBody) : Fits (Serde.single x text) x :=
  ⟨text, if_pos rfl, fits⟩

def unitRequests : Serde CtlRequest := .single .status (utf8 "\x7b\"op\":\"status\"\x7d")

def unitResponses : Serde CtlResponse := .single .ok (utf8 "\x7b\"op\":\"ok\"\x7d")

/-- A frame of version 1 that is all there, and what follows it, in pieces. -/
def oldFrame : List (List UInt8) := [[0x4c, 0x50], [0x43, 0x31, 1, 0, 0, 0, 1, 0x7b], [0xff]]

theorem framesAgree_oldVersion :
    unitRequests.Sound ∧ unitResponses.Sound ∧ WrongVersion oldFrame.flatten ∧
      FramesAgree unitRequests unitResponses oldFrame .status .ok := by
  refine ⟨Serde.single_sound _ _, Serde.single_sound _ _, ⟨by decide, rfl, by decide⟩, ?_⟩
  refine (framesAgree_iff (Serde.single_sound _ _) (Serde.single_sound _ _) oldFrame
    .status .ok).mpr ⟨fun _ => ⟨by decide, ?_⟩, fun _ => id⟩
  exact Nat.le_of_ble_eq_true rfl

/-- A header of version 1 whose body has not arrived: the buffered decoder names the
version, the reader on the socket does not. -/
theorem truncated_mismatch_not_read :
    ¬ FramesAgree unitRequests unitResponses [ctlMagic ++ [1, 0, 0, 0, 1]] .status .ok := by
  intro agree
  obtain ⟨-, code, marker, read⟩ := agree.1.versions ⟨by decide, rfl, by decide⟩
  have body : readMessage (parseRequest unitRequests) [ctlMagic ++ [1, 0, 0, 0, 1]] =
      .error .readBody := rfl
  rw [body] at read
  cases read

end LinkP2p.Daemon
