import LinkP2p.Stream.Socks5

/-!
# The code of a target

The dialing side writes a target as a SOCKS5 address: its kind, the address or the counted
domain name, and the port. The local SOCKS5 entry and the serving side read it back, each with
its own copy of the reader.
-/

namespace LinkP2p.Stream

open LinkP2p.Lib.Bytes LinkP2p.Lib.Wire LinkP2p.Tun

/-! ## Writing -/

inductive WriteError where
  | domainTooLong (bytes : Nat)
  | writing
  deriving DecidableEq, Repr

/-- The last text is that of the stream's own error. -/
def WriteError.text (cause : String) : WriteError → String
  | .domainTooLong bytes => "domain name too long: " ++ toString bytes ++ " bytes"
  | .writing => cause

/-- `as_bytes` -/
def utf8Bytes (host : String) : List UInt8 := host.toUTF8.data.toList

/-- The flow label and the scope of an address are not written. -/
def encodeTarget (buf : List UInt8) : Target → Except WriteError (List UInt8)
  | .addr (.v4 ip port) => .ok (buf ++ [1] ++ ip.octets ++ toBytes 2 port.toNat)
  | .addr (.v6 ip port _ _) => .ok (buf ++ [4] ++ ip.octets ++ toBytes 2 port.toNat)
  | .domain host port =>
      if 255 < host.utf8ByteSize then .error (.domainTooLong host.utf8ByteSize)
      else
        .ok (buf ++ [3] ++ [.ofNat host.utf8ByteSize] ++ utf8Bytes host ++ toBytes 2 port.toNat)

/-- `write_all` on a stream that fails after so many bytes, or never. -/
def writeAll (fails : Option Nat) (bytes written : List UInt8) :
    Except WriteError Unit × List UInt8 :=
  match fails with
  | none => (.ok (), written ++ bytes)
  | some count => (.error .writing, written ++ bytes.take count)

/-- The result and what has been written then. -/
def writeTarget (fails : Option Nat) (target : Target) (written : List UInt8) :
    Except WriteError Unit × List UInt8 :=
  match encodeTarget [] target with
  | .error error => (.error error, written)
  | .ok buf => writeAll fails buf written

/-- The targets that a code stands for. -/
def Target.Sound : Target → Prop
  | .addr (.v4 ..) => True
  | .addr (.v6 _ _ flowinfo scopeId) => flowinfo = 0 ∧ scopeId = 0
  | .domain host _ => host.utf8ByteSize ≤ 255

/-- The bytes are the code of the target. -/
def Target.Code (target : Target) (bytes : List UInt8) : Prop :=
  target.Sound ∧ encodeTarget [] target = .ok bytes

/-! ## Strings -/

theorem length_utf8Bytes (host : String) : (utf8Bytes host).length = host.utf8ByteSize := rfl

theorem fromUTF8_eq_some {bytes : List UInt8} {host : String} :
    String.fromUTF8? ⟨bytes.toArray⟩ = some host ↔ utf8Bytes host = bytes := by
  have same : utf8Bytes host = bytes ↔ host.toByteArray = ⟨bytes.toArray⟩ := by
    rw [ByteArray.ext_iff, ← Array.toList_inj]
    rfl
  rw [same, String.fromUTF8?]
  constructor
  · intro decoded
    split at decoded
    · cases decoded
      rfl
    · cases decoded
  · intro coded
    have valid : ByteArray.IsValidUTF8 ⟨bytes.toArray⟩ := coded ▸ host.isValidUTF8
    rw [dif_pos valid]
    exact congrArg some (String.toByteArray_inj.mp coded.symm)

/-! ## Reading -/

section

variable {ε : Type}

/-- What the two readers do with the kind of an address. A length byte is never above 255. -/
def readAddress (eof nonUtf8 : ε) (unknown : UInt8 → ε) (kind : UInt8) : Reader ε UInt8 Target :=
  if kind = 1 then do
    let ip ← readExact eof 4
    let port ← readU16 eof
    pure (.addr (.new (.v4 (.ofOctets ip)) port))
  else if kind = 4 then do
    let ip ← readExact eof 16
    let port ← readU16 eof
    pure (.addr (.new (.v6 (.ofOctets ip)) port))
  else if kind = 3 then do
    let len ← readU8 eof
    let domain ← readExact eof len.toNat
    match String.fromUTF8? ⟨domain.toArray⟩ with
    | none => throw nonUtf8
    | some host => do
        let port ← readU16 eof
        pure (.domain host port)
  else throw (unknown kind)

theorem readTarget_eq :
    readTarget = (do
      let kind ← readU8 .readingHeader
      readAddress .earlyEof .nonUtf8Domain .unknownAddressType kind) := rfl

theorem reads_byte (eof : ε) : Reads (readU8 eof) fun bytes byte => bytes = [byte] := by
  refine ((Reads.readExact eof 1).bind fun byte => Reads.pure (byte.headD 0)).congr ?_
  intro bytes byte
  constructor
  · rintro ⟨_, _, x, rfl, ⟨one, rfl⟩, rfl, rfl⟩
    obtain ⟨only, rfl⟩ := List.length_eq_one_iff.mp one
    rfl
  · rintro rfl
    exact ⟨[byte], [], [byte], rfl, ⟨rfl, rfl⟩, rfl, rfl⟩

theorem reads_port (eof : ε) :
    Reads (readU16 eof) fun bytes port => bytes = toBytes 2 port.toNat := by
  refine ((Reads.readExact eof 2).bind fun bytes => Reads.pure (UInt16.ofNat (ofBytes bytes))).congr
    ?_
  intro bytes port
  constructor
  · rintro ⟨_, _, word, rfl, ⟨two, rfl⟩, rfl, rfl⟩
    have bound := ofBytes_lt word
    rw [two] at bound
    have value : (UInt16.ofNat (ofBytes word)).toNat = ofBytes word := by
      rw [UInt16.toNat_ofNat']
      exact Nat.mod_eq_of_lt bound
    rw [List.append_nil, value, ← two, toBytes_ofBytes]
  · rintro rfl
    refine ⟨_, [], _, (List.append_nil _).symm, ⟨length_toBytes 2 _, rfl⟩, rfl, ?_⟩
    have bound := port.toNat_lt
    apply UInt16.toNat_inj.mp
    rw [UInt16.toNat_ofNat', ofBytes_toBytes]
    omega

theorem reads_v4 (eof : ε) :
    Reads (do
        let ip ← readExact eof 4
        let port ← readU16 eof
        pure (Target.addr (.new (.v4 (.ofOctets ip)) port)))
      fun bytes target => target.Code (1 :: bytes) ∧
        ∃ ip port, target = .addr (.v4 ip port) := by
  refine ((Reads.readExact eof 4).bind fun ip => (reads_port eof).bind fun port =>
    Reads.pure (Target.addr (.new (.v4 (.ofOctets ip)) port))).congr ?_
  intro bytes target
  constructor
  · rintro ⟨_, _, ip, rfl, ⟨four, rfl⟩, _, _, port, rfl, rfl, rfl, rfl⟩
    refine ⟨⟨trivial, ?_⟩, _, _, rfl⟩
    show Except.ok ([1] ++ (Ipv4Addr.ofOctets ip).octets ++ toBytes 2 port.toNat) = _
    rw [Ipv4Addr.octets_ofOctets four, List.append_nil]
    rfl
  · rintro ⟨⟨-, coded⟩, ip, port, rfl⟩
    cases coded
    refine ⟨ip.octets, _, ip.octets, rfl, ⟨length_toBytes 4 _, rfl⟩, toBytes 2 port.toNat, [], port,
      (List.append_nil _).symm, rfl, rfl, ?_⟩
    rw [SocketAddr.new, Ipv4Addr.ofOctets_octets]

theorem reads_v6 (eof : ε) :
    Reads (do
        let ip ← readExact eof 16
        let port ← readU16 eof
        pure (Target.addr (.new (.v6 (.ofOctets ip)) port)))
      fun bytes target => target.Code (4 :: bytes) ∧
        ∃ ip port flowinfo scopeId, target = .addr (.v6 ip port flowinfo scopeId) := by
  refine ((Reads.readExact eof 16).bind fun ip => (reads_port eof).bind fun port =>
    Reads.pure (Target.addr (.new (.v6 (.ofOctets ip)) port))).congr ?_
  intro bytes target
  constructor
  · rintro ⟨_, _, ip, rfl, ⟨width, rfl⟩, _, _, port, rfl, rfl, rfl, rfl⟩
    refine ⟨⟨⟨rfl, rfl⟩, ?_⟩, _, _, _, _, rfl⟩
    show Except.ok ([4] ++ (Ipv6Addr.ofOctets ip).octets ++ toBytes 2 port.toNat) = _
    rw [Ipv6Addr.octets_ofOctets width, List.append_nil]
    rfl
  · rintro ⟨⟨sound, coded⟩, ip, port, flowinfo, scopeId, rfl⟩
    obtain ⟨noFlow, noScope⟩ := sound
    cases coded
    refine ⟨ip.octets, _, ip.octets, rfl, ⟨length_toBytes 16 _, rfl⟩, toBytes 2 port.toNat, [],
      port, (List.append_nil _).symm, rfl, rfl, ?_⟩
    rw [SocketAddr.new, Ipv6Addr.ofOctets_octets, noFlow, noScope]

/-- The port comes after a name that is text. -/
theorem reads_host (eof nonUtf8 : ε) (domain : List UInt8) :
    Reads (match String.fromUTF8? ⟨domain.toArray⟩ with
        | none => throw nonUtf8
        | some host => do
            let port ← readU16 eof
            pure (Target.domain host port))
      fun bytes target => ∃ host port, target = .domain host port ∧ utf8Bytes host = domain ∧
        bytes = toBytes 2 port.toNat := by
  cases decoded : String.fromUTF8? ⟨domain.toArray⟩ with
  | none =>
      refine (Reads.throw nonUtf8).congr fun bytes target => (iff_false_intro ?_).symm
      rintro ⟨host, port, rfl, text, rfl⟩
      cases decoded.symm.trans (fromUTF8_eq_some.mpr text)
  | some host =>
      refine ((reads_port eof).bind fun port => Reads.pure (Target.domain host port)).congr ?_
      intro bytes target
      constructor
      · rintro ⟨_, _, port, rfl, rfl, rfl, rfl⟩
        exact ⟨host, port, rfl, fromUTF8_eq_some.mp decoded, List.append_nil _⟩
      · rintro ⟨other, port, rfl, text, rfl⟩
        cases decoded.symm.trans (fromUTF8_eq_some.mpr text)
        exact ⟨_, [], port, (List.append_nil _).symm, rfl, rfl, rfl⟩

theorem reads_domain (eof nonUtf8 : ε) :
    Reads (do
        let len ← readU8 eof
        let domain ← readExact eof len.toNat
        match String.fromUTF8? ⟨domain.toArray⟩ with
        | none => throw nonUtf8
        | some host => do
            let port ← readU16 eof
            pure (Target.domain host port))
      fun bytes target => target.Code (3 :: bytes) ∧
        ∃ host port, target = .domain host port := by
  refine ((reads_byte eof).bind fun len => (Reads.readExact eof len.toNat).bind fun domain =>
    reads_host eof nonUtf8 domain).congr ?_
  intro bytes target
  constructor
  · rintro ⟨_, _, len, rfl, rfl, _, _, domain, rfl, ⟨width, rfl⟩, host, port, rfl, rfl, rfl⟩
    have bound := len.toNat_lt
    rw [length_utf8Bytes] at width
    have counted : UInt8.ofNat host.utf8ByteSize = len := by
      rw [width, UInt8.ofNat_toNat]
    refine ⟨⟨(by omega : host.utf8ByteSize ≤ 255), ?_⟩, host, port, rfl⟩
    rw [encodeTarget, if_neg (by omega), counted]
    exact congrArg Except.ok (List.append_assoc ([3] ++ [len]) _ _)
  · rintro ⟨⟨short, coded⟩, host, port, rfl⟩
    have short : host.utf8ByteSize ≤ 255 := short
    rw [encodeTarget, if_neg (Nat.not_lt.mpr short)] at coded
    have counted : (UInt8.ofNat host.utf8ByteSize).toNat = host.utf8ByteSize := by
      rw [UInt8.toNat_ofNat']
      exact Nat.mod_eq_of_lt (Nat.lt_succ_of_le short)
    cases coded
    exact ⟨[.ofNat host.utf8ByteSize], _, .ofNat host.utf8ByteSize, rfl, rfl, utf8Bytes host,
      toBytes 2 port.toNat, utf8Bytes host, rfl, ⟨counted.symm, rfl⟩, host, port, rfl, rfl, rfl⟩

/-- The first byte of a code tells the form of the target. -/
theorem Target.Code.form {bytes : List UInt8} {target : Target} (coded : target.Code bytes) :
    ∃ kind rest, bytes = kind :: rest ∧
      ((kind = 1 ∧ ∃ ip port, target = .addr (.v4 ip port)) ∨
        (kind = 4 ∧ ∃ ip port flowinfo scopeId, target = .addr (.v6 ip port flowinfo scopeId)) ∨
        kind = 3 ∧ ∃ host port, target = .domain host port) := by
  obtain ⟨sound, coded⟩ := coded
  cases target with
  | addr address =>
      cases address with
      | v4 ip port =>
          cases coded
          exact ⟨1, _, rfl, .inl ⟨rfl, ip, port, rfl⟩⟩
      | v6 ip port flowinfo scopeId =>
          cases coded
          exact ⟨4, _, rfl, .inr (.inl ⟨rfl, ip, port, flowinfo, scopeId, rfl⟩)⟩
  | domain host port =>
      have short : host.utf8ByteSize ≤ 255 := sound
      rw [encodeTarget, if_neg (Nat.not_lt.mpr short)] at coded
      cases coded
      exact ⟨3, _, rfl, .inr (.inr ⟨rfl, host, port, rfl⟩)⟩

theorem reads_address (eof nonUtf8 : ε) (unknown : UInt8 → ε) (kind : UInt8) :
    Reads (readAddress eof nonUtf8 unknown kind)
      fun bytes target => target.Code (kind :: bytes) := by
  unfold readAddress
  by_cases one : kind = 1
  · rw [if_pos one, one]
    refine (reads_v4 eof).congr fun bytes target => and_iff_left_of_imp fun coded => ?_
    obtain ⟨kind, rest, same, ⟨-, found⟩ | ⟨rfl, -⟩ | ⟨rfl, -⟩⟩ := coded.form
    · exact found
    · cases same
    · cases same
  rw [if_neg one]
  by_cases four : kind = 4
  · rw [if_pos four, four]
    refine (reads_v6 eof).congr fun bytes target => and_iff_left_of_imp fun coded => ?_
    obtain ⟨kind, rest, same, ⟨rfl, -⟩ | ⟨-, found⟩ | ⟨rfl, -⟩⟩ := coded.form
    · cases same
    · exact found
    · cases same
  rw [if_neg four]
  by_cases three : kind = 3
  · rw [if_pos three, three]
    refine (reads_domain eof nonUtf8).congr fun bytes target => and_iff_left_of_imp fun coded => ?_
    obtain ⟨kind, rest, same, ⟨rfl, -⟩ | ⟨rfl, -⟩ | ⟨-, found⟩⟩ := coded.form
    · cases same
    · cases same
    · exact found
  rw [if_neg three]
  refine (Reads.throw (unknown kind)).congr fun bytes target => (iff_false_intro ?_).symm
  intro coded
  obtain ⟨kind', rest, same, ⟨rfl, -⟩ | ⟨rfl, -⟩ | ⟨rfl, -⟩⟩ := coded.form
  · exact one (List.cons.inj same).1
  · exact four (List.cons.inj same).1
  · exact three (List.cons.inj same).1

end

/-- The serving side reads the codes of targets, and nothing else. -/
theorem reads_target : Reads readTarget fun bytes target => target.Code bytes := by
  rw [readTarget_eq]
  refine ((reads_byte _).bind fun kind => reads_address _ _ _ kind).congr ?_
  intro bytes target
  constructor
  · rintro ⟨_, bytes, kind, rfl, rfl, coded⟩
    exact coded
  · intro coded
    obtain ⟨kind, rest, rfl, -⟩ := coded.form
    exact ⟨[kind], rest, kind, rfl, rfl, coded⟩

/-! ## Round trips -/

theorem Target.Sound.encodes {target : Target} (sound : target.Sound) :
    ∃ bytes, target.Code bytes := by
  cases target with
  | addr address =>
      cases address with
      | v4 ip port => exact ⟨_, sound, rfl⟩
      | v6 ip port flowinfo scopeId => exact ⟨_, sound, rfl⟩
  | domain host port => exact ⟨_, sound, if_neg (Nat.not_lt.mpr sound)⟩

theorem Target.Code.writes {target : Target} {bytes : List UInt8} (coded : target.Code bytes)
    (written : List UInt8) :
    writeTarget none target written = (.ok (), written ++ bytes) := by
  rw [writeTarget, coded.2]
  rfl

theorem writeTarget_long {host : String} (long : 255 < host.utf8ByteSize) (port : UInt16)
    (fails : Option Nat) (written : List UInt8) :
    writeTarget fails (.domain host port) written =
      (.error (.domainTooLong host.utf8ByteSize), written) := by
  rw [writeTarget, encodeTarget, if_pos long]

end LinkP2p.Stream
