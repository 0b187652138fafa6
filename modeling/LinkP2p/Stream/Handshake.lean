import LinkP2p.Stream.TargetCodec

/-!
# The local SOCKS5 entry

A client offers methods, names a target to connect to and waits for a reply after each. The
handshake reads nothing of what the client sends behind its request.
-/

namespace LinkP2p.Stream.Socks

open LinkP2p.Lib.Failing LinkP2p.Lib.Wire

inductive HandshakeError where
  | readingGreeting
  | unsupportedVersion (version : UInt8)
  | earlyEof
  | noAcceptableMethod
  | readingRequest
  | badRequestVersion (version : UInt8)
  | onlyConnect (command : UInt8)
  | nonUtf8Domain
  | unsupportedAddressType (other : UInt8)
  deriving DecidableEq, Repr

def HandshakeError.text : HandshakeError → String
  | .readingGreeting => "reading SOCKS5 greeting"
  | .unsupportedVersion version =>
      "unsupported SOCKS version " ++ toString version ++ " (only SOCKS5 is supported)"
  | .earlyEof => "early eof"
  | .noAcceptableMethod => "no acceptable SOCKS5 authentication method"
  | .readingRequest => "reading SOCKS5 request"
  | .badRequestVersion version => "bad SOCKS5 request version " ++ toString version
  | .onlyConnect command => "only CONNECT is supported (got command " ++ toString command ++ ")"
  | .nonUtf8Domain => "non-utf8 domain in SOCKS5 request"
  | .unsupportedAddressType other => "unsupported address type " ++ toString other

/-- The connection of a client: what it will still deliver, and what was sent to it. -/
structure Client where
  recv : List (List UInt8)
  sent : List UInt8

abbrev Handshake := Action HandshakeError Client

def receive {α : Type} (reader : Reader HandshakeError UInt8 α) : Handshake α := do
  let client ← get
  match reader client.recv with
  | .error error => throw error
  | .ok (value, later) => do
      set { client with recv := later }
      pure value

/-- `write_all`, which works -/
def send (bytes : List UInt8) : Handshake Unit :=
  modify fun client => { client with sent := client.sent ++ bytes }

/-- The reply to a request, with the address 0.0.0.0:0. -/
def requestReply (code : UInt8) : List UInt8 := [0x05, code, 0x00, 0x01, 0, 0, 0, 0, 0, 0]

def readMethods : Reader HandshakeError UInt8 (List UInt8) := do
  let hdr ← readExact .readingGreeting 2
  if hdr.getD 0 0 ≠ 0x05 then throw (.unsupportedVersion (hdr.getD 0 0))
  else readExact .earlyEof (hdr.getD 1 0).toNat

/-- The first half of `accept_handshake`. -/
def selectMethod : Handshake Unit := do
  let methods ← receive readMethods
  if 0x00 ∈ methods then send [0x05, 0x00]
  else do
    send [0x05, 0xFF]
    throw .noAcceptableMethod

/-- The second half of `accept_handshake`. -/
def acceptRequest : Handshake Target := do
  let req ← receive (readExact .readingRequest 4)
  if req.getD 0 0 ≠ 0x05 then throw (.badRequestVersion (req.getD 0 0))
  else if req.getD 1 0 ≠ 0x01 then do
    send (requestReply 0x07)
    throw (.onlyConnect (req.getD 1 0))
  else if req.getD 3 0 ∈ ([0x01, 0x04, 0x03] : List UInt8) then do
    let target ←
      receive (readAddress .earlyEof .nonUtf8Domain .unsupportedAddressType (req.getD 3 0))
    send (requestReply 0x00)
    pure target
  else do
    send (requestReply 0x08)
    throw (.unsupportedAddressType (req.getD 3 0))

def acceptHandshake : Handshake Target := do
  selectMethod
  acceptRequest

/-! ## What the client sends -/

/-- A version 5 greeting that offers the methods. -/
def Greeting (methods bytes : List UInt8) : Prop :=
  ∃ count : UInt8, methods.length = count.toNat ∧ bytes = 0x05 :: count :: methods

/-- A version 5 CONNECT request for the target; the reserved byte is anything. -/
def Request (target : Target) (bytes : List UInt8) : Prop :=
  ∃ reserved address, target.Code address ∧ bytes = 0x05 :: 0x01 :: reserved :: address

/-- The greeting of a client that offers no authentication. -/
def Offers (bytes : List UInt8) : Prop := ∃ methods, Greeting methods bytes ∧ 0x00 ∈ methods

structure Accepts (recv : List (List UInt8)) (result : Except HandshakeError Target)
    (client : Client) : Prop where
  output : client.sent = [] ∨ client.sent = [0x05, 0xFF] ∨ client.sent = [0x05, 0x00] ∨
    ∃ code ∈ ([0x00, 0x07, 0x08] : List UInt8), client.sent = [0x05, 0x00] ++ requestReply code
  offered : [0x05, 0x00] <+: client.sent →
    ∃ bytes rest, Offers bytes ∧ recv.flatten = bytes ++ rest
  success : (∃ target, result = .ok target) ↔ client.sent = [0x05, 0x00] ++ requestReply 0x00
  /-- The rest of the stream is what the connection will still deliver. -/
  accepted : ∀ target rest, result = .ok target ∧ client.recv.flatten = rest ↔
    ∃ greeting request, Offers greeting ∧ Request target request ∧
      recv.flatten = greeting ++ request ++ rest

/-- A target, its code and the two readers. -/
structure Coded (target : Target) : Prop where
  /-- A code is written in one piece and read back from any chunks. -/
  roundTrip : target.Sound → ∃ bytes, (∀ written,
      writeTarget none target written = (.ok (), written ++ bytes)) ∧
    ∀ chunks suffix, chunks.flatten = bytes ++ suffix →
      ∃ later, readTarget chunks = .ok (target, later) ∧ later.flatten = suffix
  tooLong : ∀ host port, target = .domain host port → 255 < host.utf8ByteSize →
    ∀ fails written, writeTarget fails target written =
      (.error (.domainTooLong host.utf8ByteSize), written)
  /-- What is read is a code. -/
  canonical : ∀ chunks later, readTarget chunks = .ok (target, later) → target.Sound ∧
    ∃ bytes, (∀ written, writeTarget none target written = (.ok (), written ++ bytes)) ∧
      chunks.flatten = bytes ++ later.flatten
  /-- Behind a greeting and the head of a request the handshake reads the same. -/
  agrees : ∀ greeting reserved recv chunks rest, Offers greeting →
    recv.flatten = greeting ++ [0x05, 0x01, reserved] ++ chunks.flatten →
      ((∃ client, acceptHandshake.exec ⟨recv, []⟩ = (.ok target, client) ∧
          client.recv.flatten = rest) ↔
        ∃ later, readTarget chunks = .ok (target, later) ∧ later.flatten = rest)

variable {α : Type} {reader : Reader HandshakeError UInt8 α} {code : List UInt8 → α → Prop}

/-! ## One action -/

theorem receive_exec (client : Client) :
    (receive reader).exec client =
      match reader client.recv with
      | .ok (value, later) => (.ok value, { client with recv := later })
      | .error error => (.error error, client) := by
  change (match reader client.recv with
    | .error error => (throw error : Handshake α)
    | .ok (value, later) => do
        set { client with recv := later }
        pure value).exec client = _
  cases reader client.recv with
  | ok taken => rfl
  | error error => rfl

/-- What is read stands at the front of the stream, or no code word does. -/
theorem receive_cases (reads : Reads reader code) (client : Client) :
    (∃ value bytes later,
        (receive reader).exec client = (.ok value, { client with recv := later }) ∧
        code bytes value ∧ client.recv.flatten = bytes ++ later.flatten) ∨
      ∃ error, (receive reader).exec client = (.error error, client) ∧
        ∀ value bytes rest, code bytes value → client.recv.flatten ≠ bytes ++ rest := by
  rw [receive_exec]
  cases result : reader client.recv with
  | ok taken =>
      obtain ⟨value, later⟩ := taken
      obtain ⟨bytes, coded, split⟩ :=
        (reads client.recv value later.flatten).mp ⟨later, result, rfl⟩
      exact .inl ⟨value, bytes, later, rfl, coded, split⟩
  | error error =>
      refine .inr ⟨error, rfl, fun value bytes rest coded split => ?_⟩
      obtain ⟨later, ran, -⟩ := (reads client.recv value rest).mpr ⟨bytes, coded, split⟩
      cases result.symm.trans ran

theorem reads_methods : Reads readMethods fun bytes methods => Greeting methods bytes := by
  refine ((Reads.readExact _ 2).bind fun hdr => Reads.ite (fun _ => Reads.throw _) fun _ =>
    Reads.readExact _ (hdr.getD 1 0).toNat).congr ?_
  intro bytes methods
  constructor
  · rintro ⟨_, _, hdr, rfl, ⟨two, rfl⟩, ⟨-, none_⟩ | ⟨version, length, rfl⟩⟩
    · exact none_.elim
    · obtain ⟨first, count, rfl⟩ := List.length_eq_two.mp two
      obtain rfl : first = 0x05 := not_not.mp version
      exact ⟨count, length, rfl⟩
  · rintro ⟨count, length, rfl⟩
    exact ⟨[0x05, count], methods, [0x05, count], rfl, ⟨rfl, rfl⟩,
      .inr ⟨not_not_intro rfl, length, rfl⟩⟩

/-! ## The two halves -/

/-- The first half succeeds exactly on a greeting that offers no authentication. -/
theorem selectMethod_cases (client : Client) :
    (∃ bytes later, selectMethod.exec client =
        (.ok (), ⟨later, client.sent ++ [0x05, 0x00]⟩) ∧
        Offers bytes ∧ client.recv.flatten = bytes ++ later.flatten) ∨
      ∃ error later sent, selectMethod.exec client = (.error error, ⟨later, client.sent ++ sent⟩) ∧
        (sent = [] ∨ sent = [0x05, 0xFF]) ∧
        ∀ bytes rest, Offers bytes → client.recv.flatten ≠ bytes ++ rest := by
  obtain ⟨methods, bytes, later, read, greeting, split⟩ | ⟨error, read, never⟩ :=
    receive_cases reads_methods client
  · by_cases offered : 0x00 ∈ methods
    · refine .inl ⟨bytes, later, ?_, ⟨methods, greeting, offered⟩, split⟩
      rw [selectMethod, exec_bind_ok read, if_pos offered]
      rfl
    · refine .inr ⟨.noAcceptableMethod, later, [0x05, 0xFF], ?_, .inr rfl, ?_⟩
      · rw [selectMethod, exec_bind_ok read, if_neg offered]
        rfl
      · rintro other rest ⟨methods', greeting', offered'⟩ split'
        obtain ⟨rfl, -⟩ := reads_methods.unique greeting greeting' (split.symm.trans split')
        exact offered offered'
  · refine .inr ⟨error, client.recv, [], ?_, .inl rfl, ?_⟩
    · rw [selectMethod, exec_bind_error read, List.append_nil]
    · rintro bytes rest ⟨methods, greeting, -⟩
      exact never methods bytes rest greeting

/-- The four bytes before the address of a request. -/
theorem Request.header {target : Target} {bytes rest tail : List UInt8}
    {version command reserved kind : UInt8} (request : Request target bytes)
    (same : [version, command, reserved, kind] ++ tail = bytes ++ rest) :
    version = 0x05 ∧ command = 0x01 ∧ kind ∈ ([0x01, 0x04, 0x03] : List UInt8) ∧
      ∃ address, target.Code (kind :: address) ∧ tail = address ++ rest := by
  obtain ⟨reserved', address, coded, rfl⟩ := request
  obtain ⟨kind', address, rfl, form⟩ := coded.form
  cases same
  refine ⟨rfl, rfl, ?_, address, coded, rfl⟩
  obtain ⟨rfl, -⟩ | ⟨rfl, -⟩ | ⟨rfl, -⟩ := form
  · decide
  · decide
  · decide

/-- The second half succeeds exactly on a request, and replies once unless the stream ends or
is not SOCKS5. -/
theorem acceptRequest_cases (client : Client) :
    (∃ target bytes later, acceptRequest.exec client =
        (.ok target, ⟨later, client.sent ++ requestReply 0x00⟩) ∧
        Request target bytes ∧ client.recv.flatten = bytes ++ later.flatten) ∨
      ∃ error later sent, acceptRequest.exec client = (.error error, ⟨later, client.sent ++ sent⟩) ∧
        (sent = [] ∨ sent = requestReply 0x07 ∨ sent = requestReply 0x08) ∧
        ∀ target bytes rest, Request target bytes → client.recv.flatten ≠ bytes ++ rest := by
  obtain ⟨req, _, later, read, ⟨four, rfl⟩, split⟩ | ⟨error, read, never⟩ :=
    receive_cases (Reads.readExact .readingRequest 4) client
  · match req, four with
    | [version, command, reserved, kind], _ =>
        let told : Client := { client with recv := later }
        have run : acceptRequest.exec client = Action.exec
            (if version ≠ 0x05 then throw (.badRequestVersion version)
            else if command ≠ 0x01 then do
              send (requestReply 0x07)
              throw (.onlyConnect command)
            else if kind ∈ ([0x01, 0x04, 0x03] : List UInt8) then do
              let target ←
                receive (readAddress .earlyEof .nonUtf8Domain .unsupportedAddressType kind)
              send (requestReply 0x00)
              pure target
            else do
              send (requestReply 0x08)
              throw (.unsupportedAddressType kind)) told := exec_bind_ok read _
        have silent : client.sent = client.sent ++ [] := (List.append_nil _).symm
        rw [run]
        by_cases other : version ≠ 0x05
        · refine .inr ⟨.badRequestVersion version, later, [], ?_, .inl rfl, ?_⟩
          · rw [if_pos other, ← silent]
            rfl
          · intro target bytes rest request same
            exact other (request.header (split.symm.trans same)).1
        rw [if_neg other]
        by_cases unsupported : command ≠ 0x01
        · refine .inr ⟨.onlyConnect command, later, _, ?_, .inr (.inl rfl), ?_⟩
          · rw [if_pos unsupported]
            rfl
          · intro target bytes rest request same
            exact unsupported (request.header (split.symm.trans same)).2.1
        rw [if_neg unsupported]
        by_cases known : kind ∈ ([0x01, 0x04, 0x03] : List UInt8)
        · rw [if_pos known]
          obtain ⟨target, bytes, rest, parsed, coded, parts⟩ | ⟨error, parsed, never⟩ :=
            receive_cases (reads_address .earlyEof .nonUtf8Domain .unsupportedAddressType kind) told
          · refine .inl ⟨target, version :: command :: reserved :: kind :: bytes, rest, ?_, ?_, ?_⟩
            · rw [exec_bind_ok parsed]
              rfl
            · obtain rfl := not_not.mp other
              obtain rfl := not_not.mp unsupported
              exact ⟨reserved, _, coded, rfl⟩
            · rw [split]
              exact congrArg ([version, command, reserved, kind] ++ ·) parts
          · refine .inr ⟨error, later, [], ?_, .inl rfl, ?_⟩
            · rw [exec_bind_error parsed, ← silent]
            · intro target bytes rest request same
              obtain ⟨-, -, -, address, coded, parts⟩ := request.header (split.symm.trans same)
              exact never target address rest coded parts
        · refine .inr ⟨.unsupportedAddressType kind, later, _, ?_, .inr (.inr rfl), ?_⟩
          · rw [if_neg known]
            rfl
          · intro target bytes rest request same
            exact known (request.header (split.symm.trans same)).2.2.1
  · refine .inr ⟨error, client.recv, [], ?_, .inl rfl, ?_⟩
    · rw [acceptRequest, exec_bind_error read, List.append_nil]
    · rintro target bytes rest ⟨reserved, address, coded, rfl⟩ same
      obtain ⟨kind, address, rfl, -⟩ := coded.form
      exact never _ [0x05, 0x01, reserved, kind] (address ++ rest) ⟨rfl, rfl⟩ same

/-! ## The whole handshake -/

/-- No two greetings stand at the front of one stream. -/
theorem Offers.unique {bytes bytes' rest rest' : List UInt8} (offers : Offers bytes)
    (offers' : Offers bytes') (same : bytes ++ rest = bytes' ++ rest') : rest = rest' := by
  obtain ⟨methods, greeting, -⟩ := offers
  obtain ⟨methods', greeting', -⟩ := offers'
  exact (reads_methods.unique greeting greeting' same).2

theorem Request.unique {target target' : Target} {bytes bytes' rest rest' : List UInt8}
    (request : Request target bytes) (request' : Request target' bytes')
    (same : bytes ++ rest = bytes' ++ rest') : target = target' ∧ rest = rest' := by
  obtain ⟨reserved, address, coded, rfl⟩ := request
  obtain ⟨reserved', address', coded', rfl⟩ := request'
  obtain ⟨-, same⟩ := List.cons.inj same
  obtain ⟨-, same⟩ := List.cons.inj same
  obtain ⟨-, same⟩ := List.cons.inj same
  exact reads_target.unique coded coded' same

theorem acceptHandshake_cases (recv : List (List UInt8)) :
    (∃ target later greeting request, acceptHandshake.exec ⟨recv, []⟩ =
        (.ok target, ⟨later, [0x05, 0x00] ++ requestReply 0x00⟩) ∧ Offers greeting ∧
        Request target request ∧ recv.flatten = greeting ++ request ++ later.flatten) ∨
      ∃ error later sent, acceptHandshake.exec ⟨recv, []⟩ = (.error error, ⟨later, sent⟩) ∧
        (sent = [] ∨ sent = [0x05, 0xFF] ∨
          (sent = [0x05, 0x00] ∨ sent = [0x05, 0x00] ++ requestReply 0x07 ∨
              sent = [0x05, 0x00] ++ requestReply 0x08) ∧
            ∃ greeting rest, Offers greeting ∧ recv.flatten = greeting ++ rest) ∧
        ∀ target greeting request rest, Offers greeting → Request target request →
          recv.flatten ≠ greeting ++ request ++ rest := by
  obtain ⟨greeting, middle, selected, offers, split⟩ |
    ⟨error, later, sent, failed, output, never⟩ := selectMethod_cases ⟨recv, []⟩
  · obtain ⟨target, request, later, accepted, requests, parts⟩ |
      ⟨error, later, sent, failed, output, never⟩ := acceptRequest_cases ⟨middle, [0x05, 0x00]⟩
    · refine .inl ⟨target, later, greeting, request, ?_, offers, requests, ?_⟩
      · rw [acceptHandshake, exec_bind_ok selected]
        exact accepted
      · rw [split, parts, List.append_assoc]
    · refine .inr ⟨error, later, [0x05, 0x00] ++ sent, ?_,
        .inr (.inr ⟨?_, greeting, _, offers, split⟩), ?_⟩
      · rw [acceptHandshake, exec_bind_ok selected]
        exact failed
      · obtain rfl | rfl | rfl := output
        · exact .inl rfl
        · exact .inr (.inl rfl)
        · exact .inr (.inr rfl)
      · intro target other request rest offers' requests same
        rw [List.append_assoc] at same
        exact never target request rest requests (offers.unique offers' (split.symm.trans same))
  · refine .inr ⟨error, later, sent, ?_, ?_, ?_⟩
    · rw [acceptHandshake, exec_bind_error failed]
      rfl
    · obtain rfl | rfl := output
      · exact .inl rfl
      · exact .inr (.inl rfl)
    · intro target greeting request rest offers _ same
      rw [List.append_assoc] at same
      exact never greeting _ offers same

/-- The target of the request is returned, and all that comes after is left. -/
theorem accepted_iff (recv : List (List UInt8)) (target : Target) (rest : List UInt8) :
    (acceptHandshake.exec ⟨recv, []⟩).1 = .ok target ∧
        (acceptHandshake.exec ⟨recv, []⟩).2.recv.flatten = rest ↔
      ∃ greeting request, Offers greeting ∧ Request target request ∧
        recv.flatten = greeting ++ request ++ rest := by
  obtain ⟨found, later, greeting, request, run, offers, requests, split⟩ |
    ⟨error, later, sent, run, -, never⟩ := acceptHandshake_cases recv
  · rw [run]
    constructor
    · rintro ⟨same, rfl⟩
      cases same
      exact ⟨greeting, request, offers, requests, split⟩
    · rintro ⟨greeting', request', offers', requests', split'⟩
      rw [List.append_assoc] at split split'
      have tail := offers.unique offers' (split.symm.trans split')
      obtain ⟨rfl, same⟩ := requests.unique requests' tail
      exact ⟨rfl, same⟩
  · rw [run]
    refine iff_of_false (fun accepted => nomatch accepted.1) ?_
    rintro ⟨greeting, request, offers, requests, split⟩
    exact never target greeting request rest offers requests split

theorem handshake_accepts (recv : List (List UInt8)) :
    Accepts recv (acceptHandshake.exec ⟨recv, []⟩).1 (acceptHandshake.exec ⟨recv, []⟩).2 := by
  have accepted := accepted_iff recv
  obtain ⟨target, later, greeting, request, run, offers, -, split⟩ |
    ⟨error, later, sent, run, output, -⟩ := acceptHandshake_cases recv
  · rw [run] at accepted ⊢
    exact {
      output := .inr (.inr (.inr ⟨0x00, List.mem_cons_self, rfl⟩))
      offered := fun _ => ⟨greeting, _, offers, split.trans (List.append_assoc ..)⟩
      success := iff_of_true ⟨target, rfl⟩ rfl
      accepted := accepted }
  · rw [run] at accepted ⊢
    exact {
      output := by
        obtain rfl | rfl | ⟨rfl | rfl | rfl, -⟩ := output
        · exact .inl rfl
        · exact .inr (.inl rfl)
        · exact .inr (.inr (.inl rfl))
        · exact .inr (.inr (.inr ⟨0x07, by decide, rfl⟩))
        · exact .inr (.inr (.inr ⟨0x08, by decide, rfl⟩))
      offered := by
        intro chosen
        obtain rfl | rfl | ⟨-, offered⟩ := output
        · exact absurd chosen (by decide : ¬ ([0x05, 0x00] : List UInt8) <+: [])
        · exact absurd chosen (by decide : ¬ ([0x05, 0x00] : List UInt8) <+: [0x05, 0xFF])
        · exact offered
      success := by
        refine iff_of_false nofun fun replied => ?_
        obtain rfl | rfl | ⟨rfl | rfl | rfl, -⟩ := output <;> cases replied
      accepted := accepted }

/-! ## The code of targets -/

theorem target_coded (target : Target) : Coded target where
  roundTrip := by
    intro sound
    obtain ⟨bytes, coded⟩ := sound.encodes
    refine ⟨bytes, coded.writes, fun chunks suffix delivered => ?_⟩
    exact (reads_target chunks target suffix).mpr ⟨bytes, coded, delivered⟩
  tooLong := by
    rintro host port rfl long
    exact writeTarget_long long port
  canonical := by
    intro chunks later read
    obtain ⟨bytes, coded, split⟩ :=
      (reads_target chunks target later.flatten).mp ⟨later, read, rfl⟩
    exact ⟨coded.1, bytes, coded.writes, split⟩
  agrees := by
    intro greeting reserved recv chunks rest offers split
    rw [reads_target chunks target rest]
    have accepted := accepted_iff recv target rest
    constructor
    · rintro ⟨client, run, left⟩
      rw [run] at accepted
      obtain ⟨greeting', request, offers', ⟨reserved', address, coded, rfl⟩, parts⟩ :=
        accepted.mp ⟨rfl, left⟩
      rw [split, List.append_assoc, List.append_assoc] at parts
      have tail := offers.unique offers' parts
      obtain ⟨-, tail⟩ := List.cons.inj tail
      obtain ⟨-, tail⟩ := List.cons.inj tail
      exact ⟨address, coded, (List.cons.inj tail).2⟩
    · rintro ⟨address, coded, parts⟩
      obtain ⟨ok, left⟩ := accepted.mpr ⟨greeting, _, offers, ⟨reserved, address, coded, rfl⟩, by
        rw [split, parts, List.append_assoc, List.append_assoc]
        rfl⟩
      exact ⟨_, Prod.ext ok rfl, left⟩

end LinkP2p.Stream.Socks
