import LinkP2p.Stream.Ssrf
import LinkP2p.Tun.InetChecksum

/-!
# Too-big errors

A sender that cannot pass a packet on answers it with an ICMP error, which it builds from
the bytes of the packet. The checksum is computed with zeros in its field and then written
there.
-/

namespace LinkP2p.Tun.Icmp

open LinkP2p.Lib.Bytes LinkP2p.Lib.Checksum
open LinkP2p.Stream (Ipv4.isUnspecified Ipv4.isBroadcast Ipv4.isMulticast Ipv4.isLoopback
  Ipv6.isUnspecified Ipv6.isMulticast Ipv6.isLoopback)

/-! ## Access to bytes -/

/-- An index beyond the end: the program panics. -/
inductive OutOfRange where
  | index (i length : Nat)
  deriving DecidableEq, Repr

abbrev Checked := Except OutOfRange

/-- `bytes[i]` -/
def index (bytes : List UInt8) (i : Nat) : Checked UInt8 :=
  if i < bytes.length then .ok (bytes.getD i 0) else .error (.index i bytes.length)

/-- `&bytes[start..stop]` -/
def range (bytes : List UInt8) (start stop : Nat) : Checked (List UInt8) :=
  if stop ≤ bytes.length then .ok (slice bytes start (stop - start))
  else .error (.index stop bytes.length)

/-- `bytes[i] = b` -/
def put (bytes : List UInt8) (i : Nat) (b : UInt8) : Checked (List UInt8) :=
  if i < bytes.length then .ok (bytes.set i b) else .error (.index i bytes.length)

/-- The checksum is written to its field. -/
def putChecksum (bytes : List UInt8) (i : Nat) (csum : UInt16) : Checked (List UInt8) := do
  let bytes ← put bytes i (csum >>> 8).toUInt8
  put bytes (i + 1) (csum &&& 0xff).toUInt8

/-! ## The packets -/

def buildIcmpFragNeeded (orig : List UInt8) (nextHopMtu : UInt16) (gateway : Ipv4Addr) :
    Checked (Option (List UInt8)) := do
  if orig.length < 20 then pure none
  else
    let first ← index orig 0
    let ihl := (first &&& 0x0f).toNat * 4
    if ihl < 20 ∨ orig.length < ihl then pure none
    else if first >>> 4 ≠ 4 then pure none
    else
      let proto ← index orig 9
      if proto = 1 then pure none
      else
        let origSrc := Ipv4Addr.ofOctets
          [← index orig 12, ← index orig 13, ← index orig 14, ← index orig 15]
        if Ipv4.isUnspecified origSrc || Ipv4.isBroadcast origSrc || Ipv4.isMulticast origSrc ||
            Ipv4.isLoopback origSrc then pure none
        else
          let quote ← range orig 0 (min orig.length (ihl + 8))
          let icmp := [3, 4] ++ toBytes 2 0 ++ toBytes 2 0 ++ toBytes 2 nextHopMtu.toNat ++ quote
          let icmp ← putChecksum icmp 2 (inetChecksum icmp)
          let totalLen := 20 + icmp.length
          if 65535 < totalLen then pure none
          else
            let pkt := [0x45, 0] ++ toBytes 2 totalLen ++ toBytes 2 0 ++ toBytes 2 0 ++ [64, 1] ++
              toBytes 2 0 ++ gateway.octets ++ origSrc.octets
            let pkt ← putChecksum pkt 10 (inetChecksum (← range pkt 0 20))
            pure (some (pkt ++ icmp))

/-- `IPV6_MIN_MTU` -/
def ipv6MinMtu : Nat := 1280

def buildIcmpv6PktTooBig (orig : List UInt8) (mtu : UInt32) (gateway : Ipv6Addr) :
    Checked (Option (List UInt8)) := do
  if orig.length < 40 then pure none
  else
    let first ← index orig 0
    if first >>> 4 ≠ 6 then pure none
    else
      let next ← index orig 6
      if next = 58 then pure none
      else
        let origSrc := Ipv6Addr.ofOctets (← range orig 8 24)
        if Ipv6.isUnspecified origSrc || Ipv6.isMulticast origSrc || Ipv6.isLoopback origSrc then
          pure none
        else
          let maxQuote := ipv6MinMtu - (40 + 8)
          let quote ← range orig 0 (min orig.length maxQuote)
          let icmp := [2, 0] ++ toBytes 2 0 ++ toBytes 4 mtu.toNat ++ quote
          let icmpLen := UInt32.ofNat icmp.length
          let sumBuf := gateway.octets ++ origSrc.octets ++ toBytes 4 icmpLen.toNat ++
            [0, 0, 0, 58] ++ icmp
          let icmp ← putChecksum icmp 2 (inetChecksum sumBuf)
          let payloadLen := UInt16.ofNat icmp.length
          pure (some ([0x60] ++ [0, 0, 0] ++ toBytes 2 payloadLen.toNat ++ [58, 64] ++
            gateway.octets ++ origSrc.octets ++ icmp))

/-! ## Well-formed answers -/

/-- The header length of an IPv4 packet, in words of four bytes. -/
def ihl (pkt : List UInt8) : Nat := (pkt.headD 0 &&& 0x0f).toNat

/-- The original is too short or not IPv4, an ICMP packet itself, or nobody to answer to. -/
def RefusesV4 (orig : List UInt8) : Prop :=
  let src := Ipv4Addr.ofOctets (slice orig 12 4)
  orig.length < 20 ∨ ihl orig < 5 ∨ orig.length < 4 * ihl orig ∨ version orig ≠ 4 ∨
    orig.getD 9 0 = 1 ∨ Ipv4.isUnspecified src = true ∨ Ipv4.isBroadcast src = true ∨
      Ipv4.isMulticast src = true ∨ Ipv4.isLoopback src = true

instance (orig : List UInt8) : Decidable (RefusesV4 orig) := by
  unfold RefusesV4
  infer_instance

structure FragNeeded (orig : List UInt8) (nextHopMtu : UInt16) (gateway : Ipv4Addr)
    (pkt : List UInt8) : Prop where
  version : version pkt = 4
  ihl : ihl pkt = 5
  totalLength : ofBytes (slice pkt 2 2) = pkt.length
  protocol : slice pkt 9 1 = [1]
  headerChecksum : inetChecksum (pkt.take 20) = 0
  icmpChecksum : inetChecksum (pkt.drop 20) = 0
  source : slice pkt 12 4 = gateway.octets
  destination : slice pkt 16 4 = slice orig 12 4
  /-- Destination Unreachable, Fragmentation Needed -/
  kind : slice pkt 20 2 = [3, 4]
  unused : slice pkt 24 2 = [0, 0]
  nextHop : ofBytes (slice pkt 26 2) = nextHopMtu.toNat
  quote : pkt.drop 28 = orig.take (4 * Icmp.ihl orig) ++
    (orig.drop (4 * Icmp.ihl orig)).take (min 8 (orig.length - 4 * Icmp.ihl orig))

/-- The original is too short or not IPv6, an ICMPv6 packet itself, or nobody to answer to. -/
def RefusesV6 (orig : List UInt8) : Prop :=
  let src := Ipv6Addr.ofOctets (slice orig 8 16)
  orig.length < 40 ∨ version orig ≠ 6 ∨ orig.getD 6 0 = 58 ∨ Ipv6.isUnspecified src = true ∨
    Ipv6.isMulticast src = true ∨ Ipv6.isLoopback src = true

/-- The pseudo-header that a receiver builds: the addresses, the length of the payload and
its type. -/
def pseudoHeader (pkt : List UInt8) : List UInt8 :=
  slice pkt 8 16 ++ slice pkt 24 16 ++ toBytes 4 (ofBytes (slice pkt 4 2)) ++ [0, 0, 0] ++
    slice pkt 6 1

instance (orig : List UInt8) : Decidable (RefusesV6 orig) := by
  unfold RefusesV6
  infer_instance

structure PktTooBig (orig : List UInt8) (mtu : UInt32) (gateway : Ipv6Addr)
    (pkt : List UInt8) : Prop where
  version : version pkt = 6
  fits : pkt.length ≤ 1280
  payloadLength : ofBytes (slice pkt 4 2) = pkt.length - 40
  nextHeader : slice pkt 6 1 = [58]
  source : slice pkt 8 16 = gateway.octets
  destination : slice pkt 24 16 = slice orig 8 16
  /-- Packet Too Big -/
  kind : slice pkt 40 2 = [2, 0]
  announced : ofBytes (slice pkt 44 4) = mtu.toNat
  quote : pkt.drop 48 <+: orig
  longest : ∀ quote, quote <+: orig → 48 + quote.length ≤ 1280 → quote <+: pkt.drop 48
  verifies : inetChecksum (pseudoHeader pkt ++ pkt.drop 40) = 0

/-! ## Bytes that are there -/

variable {bytes front back orig : List UInt8} {i : Nat}

theorem index_of_lt (inside : i < bytes.length) : index bytes i = .ok (bytes.getD i 0) :=
  if_pos inside

theorem range_of_le {start stop : Nat} (inside : stop ≤ bytes.length) :
    range bytes start stop = .ok (slice bytes start (stop - start)) := if_pos inside

theorem range_all (bytes : List UInt8) : range bytes 0 bytes.length = .ok bytes := by
  rw [range_of_le (Nat.le_refl _), slice, List.drop_zero, Nat.sub_zero, List.take_length]

theorem putChecksum_append (offset : front.length = i) (csum : UInt16) :
    putChecksum (front ++ ([0, 0] ++ back)) i csum = .ok (front ++ (split csum ++ back)) := by
  subst offset
  have first : put (front ++ ([0, 0] ++ back)) front.length (csum >>> 8).toUInt8 =
      .ok (front ++ ([(csum >>> 8).toUInt8, 0] ++ back)) := by
    rw [put, if_pos (by simp), List.set_append_right _ _ (Nat.le_refl _), Nat.sub_self]
    rfl
  have second : put (front ++ ([(csum >>> 8).toUInt8, 0] ++ back)) (front.length + 1)
      (csum &&& 0xff).toUInt8 = .ok (front ++ (split csum ++ back)) := by
    have further : front.length + 1 - front.length = 1 := Nat.add_sub_cancel_left ..
    rw [put, if_pos (by simp), List.set_append_right _ _ (Nat.le_succ _), further]
    rfl
  rw [putChecksum, first]
  exact second

theorem slice_four (inside : i + 4 ≤ bytes.length) :
    [bytes.getD i 0, bytes.getD (i + 1) 0, bytes.getD (i + 2) 0, bytes.getD (i + 3) 0] =
      slice bytes i 4 := by
  have there : ∀ k, k < bytes.length → bytes.getD k 0 :: bytes.drop (k + 1) = bytes.drop k := by
    intro k within
    rw [List.getD_eq_getElem _ _ within]
    exact List.getElem_cons_drop within
  rw [slice, ← there i (by omega), ← there (i + 1) (by omega), ← there (i + 2) (by omega),
    ← there (i + 3) (by omega)]
  rfl

theorem index_head (nonempty : 0 < bytes.length) : index bytes 0 = .ok (bytes.headD 0) := by
  cases bytes with
  | nil => cases nonempty
  | cons b rest => exact index_of_lt nonempty

theorem slice_drop (bytes : List UInt8) (k i count : Nat) :
    slice (bytes.drop k) i count = slice bytes (k + i) count := by
  rw [slice, slice, List.drop_drop]

/-- One packet is the answer unless there is none. -/
theorem answers_unless {result : Checked (Option (List UInt8))} {refuses : Prop}
    [Decidable refuses] {answer : List UInt8} {WellFormed : List UInt8 → Prop}
    (built : result = .ok (if refuses then none else some answer))
    (formed : ¬ refuses → WellFormed answer) :
    ∃ answer, result = .ok answer ∧ (answer = none ↔ refuses) ∧
      ∀ pkt, answer = some pkt → WellFormed pkt := by
  refine ⟨_, built, ?_, ?_⟩
  · rw [ite_eq_left_iff, imp_iff_not (Option.some_ne_none _), not_not]
  · intro pkt answered
    obtain ⟨answers, same⟩ := Option.ite_none_left_eq_some.mp answered
    obtain rfl := Option.some.inj same
    exact formed answers

/-! ## The IPv4 error -/

/-- The header around its checksum. -/
def ipv4Header (csum : List UInt8) (totalLen : Nat) (src dst : List UInt8) : List UInt8 :=
  [0x45, 0] ++ toBytes 2 totalLen ++ toBytes 2 0 ++ toBytes 2 0 ++ [64, 1] ++ (csum ++ (src ++ dst))

/-- The message around its checksum. -/
def icmpMessage (csum : List UInt8) (nextHopMtu : UInt16) (quote : List UInt8) : List UInt8 :=
  [3, 4] ++ (csum ++ (toBytes 2 0 ++ toBytes 2 nextHopMtu.toNat ++ quote))

/-- A header that is followed by a message, with both checksums. -/
def errorPacket (nextHopMtu : UInt16) (src dst quote : List UInt8) : List UInt8 :=
  ipv4Header (split (inetChecksum (ipv4Header [0, 0] (28 + quote.length) src dst)))
      (28 + quote.length) src dst ++
    icmpMessage (split (inetChecksum (icmpMessage [0, 0] nextHopMtu quote))) nextHopMtu quote

/-- What is quoted of a packet. -/
def quoteV4 (orig : List UInt8) : List UInt8 := orig.take (min orig.length (4 * ihl orig + 8))

theorem quoteV4_eq (orig : List UInt8) :
    quoteV4 orig = orig.take (4 * ihl orig) ++
      (orig.drop (4 * ihl orig)).take (min 8 (orig.length - 4 * ihl orig)) := by
  have rest : (orig.drop (4 * ihl orig)).take (min 8 (orig.length - 4 * ihl orig)) =
      (orig.drop (4 * ihl orig)).take 8 := by
    rw [← List.length_drop, List.take_eq_take_iff]
    omega
  rw [rest, ← List.take_add, quoteV4, List.take_eq_take_iff]
  omega

theorem ihl_le (pkt : List UInt8) : ihl pkt ≤ 15 := by
  rw [ihl, UInt8.toNat_and]
  exact Nat.and_le_right

theorem length_quoteV4 (orig : List UInt8) : (quoteV4 orig).length ≤ 68 := by
  have words := ihl_le orig
  rw [quoteV4, List.length_take]
  omega

/-- The fields of a header in front of anything. -/
theorem ipv4Header_fields (csum : List UInt8) {src dst : List UInt8} (two : csum.length = 2)
    (four : src.length = 4) (four' : dst.length = 4) (totalLen : Nat) (rest : List UInt8)
    {pkt : List UInt8} (same : pkt = ipv4Header csum totalLen src dst ++ rest) :
    version pkt = 4 ∧ ihl pkt = 5 ∧ slice pkt 2 2 = toBytes 2 totalLen ∧ slice pkt 9 1 = [1] ∧
      slice pkt 12 4 = src ∧ slice pkt 16 4 = dst ∧
      pkt.take 20 = ipv4Header csum totalLen src dst ∧ pkt.drop 20 = rest := by
  subst same
  match csum, two, src, four, dst, four' with
  | [_, _], _, [_, _, _, _], _, [_, _, _, _], _ =>
      have high : (0x45 : UInt8) >>> 4 = 4 := by decide
      have low : ((0x45 : UInt8) &&& 0x0f).toNat = 5 := by decide
      exact ⟨high, low, rfl, rfl, rfl, rfl, rfl, rfl⟩

theorem icmpMessage_fields (csum : List UInt8) (two : csum.length = 2) (nextHopMtu : UInt16)
    (quote : List UInt8) {message : List UInt8}
    (same : message = icmpMessage csum nextHopMtu quote) :
    slice message 0 2 = [3, 4] ∧ slice message 4 2 = [0, 0] ∧
      slice message 6 2 = toBytes 2 nextHopMtu.toNat ∧ message.drop 8 = quote ∧
      message.length = 8 + quote.length := by
  subst same
  match csum, two with
  | [_, _], _ =>
      refine ⟨rfl, rfl, rfl, rfl, ?_⟩
      show quote.length + 8 = 8 + quote.length
      exact Nat.add_comm _ _

theorem length_ipv4Header {csum src dst : List UInt8} (two : csum.length = 2)
    (four : src.length = 4) (four' : dst.length = 4) (totalLen : Nat) :
    (ipv4Header csum totalLen src dst).length = 20 := by
  match csum, two, src, four, dst, four' with
  | [_, _], _, [_, _, _, _], _, [_, _, _, _], _ => rfl

theorem ipv4Header_verifies {src dst : List UInt8} (four : src.length = 4)
    (four' : dst.length = 4) (totalLen : Nat) :
    inetChecksum (ipv4Header (split (inetChecksum (ipv4Header [0, 0] totalLen src dst))) totalLen
      src dst) = 0 := by
  have ten : ([0x45, 0] ++ toBytes 2 totalLen ++ toBytes 2 0 ++ toBytes 2 0 ++
      [64, 1]).length = 10 := by
    simp only [List.length_append, length_toBytes, List.length_cons, List.length_nil]
  refine inetChecksum_stored _ (src ++ dst) (by rw [ten]) ?_
  rw [ten, List.length_append, four, four']
  decide

theorem icmpMessage_verifies (nextHopMtu : UInt16) {quote : List UInt8}
    (small : quote.length ≤ 65527) :
    inetChecksum (icmpMessage (split (inetChecksum (icmpMessage [0, 0] nextHopMtu quote)))
      nextHopMtu quote) = 0 := by
  refine inetChecksum_stored [3, 4]
    (toBytes 2 0 ++ toBytes 2 nextHopMtu.toNat ++ quote) rfl ?_
  rw [List.length_append, List.length_append, length_toBytes, length_toBytes, List.length_cons,
    List.length_singleton]
  omega

theorem length_ipv4Octets (ip : Ipv4Addr) : ip.octets.length = 4 := length_toBytes 4 _

/-- The packet has the fields of an answer. -/
theorem fragNeeded_errorPacket (nextHopMtu : UInt16) (gateway : Ipv4Addr)
    (long : 20 ≤ orig.length) :
    FragNeeded orig nextHopMtu gateway
      (errorPacket nextHopMtu gateway.octets (slice orig 12 4) (quoteV4 orig)) := by
  have four : (slice orig 12 4).length = 4 := by
    rw [slice, List.length_take, List.length_drop]
    omega
  have quoted := length_quoteV4 orig
  obtain ⟨version, words, total, protocol, source, destination, header, message⟩ :=
    ipv4Header_fields (split _) rfl (length_ipv4Octets gateway) four
      (28 + (quoteV4 orig).length) (icmpMessage _ nextHopMtu (quoteV4 orig))
      (rfl : errorPacket nextHopMtu gateway.octets (slice orig 12 4) (quoteV4 orig) = _)
  obtain ⟨kind, unused, nextHop, quote, length⟩ :=
    icmpMessage_fields (split _) rfl nextHopMtu (quoteV4 orig) message
  have whole : (errorPacket nextHopMtu gateway.octets (slice orig 12 4) (quoteV4 orig)).length =
      28 + (quoteV4 orig).length := by
    have parts := congrArg List.length (List.take_append_drop 20
      (errorPacket nextHopMtu gateway.octets (slice orig 12 4) (quoteV4 orig)))
    rw [List.length_append, length, header, length_ipv4Header rfl (length_ipv4Octets gateway) four]
      at parts
    omega
  rw [slice_drop] at kind unused nextHop
  rw [List.drop_drop] at quote
  exact {
    version := version
    ihl := words
    totalLength := by
      rw [total, ofBytes_toBytes, whole]
      exact Nat.mod_eq_of_lt (by omega)
    protocol := protocol
    headerChecksum := by
      rw [header]
      exact ipv4Header_verifies (length_ipv4Octets gateway) four _
    icmpChecksum := by
      rw [message]
      exact icmpMessage_verifies nextHopMtu (by omega)
    source := source
    destination := destination
    kind := kind
    unused := unused
    nextHop := by
      rw [nextHop, ofBytes_toBytes]
      exact Nat.mod_eq_of_lt nextHopMtu.toNat_lt
    quote := by rw [quote, quoteV4_eq] }

theorem ok_bind {α β : Type} (value : α) (next : α → Checked β) :
    (Except.ok value >>= next) = next value := rfl

theorem icmpMessage_stored (nextHopMtu : UInt16) (quote : List UInt8) (csum : UInt16) :
    putChecksum ([3, 4] ++ toBytes 2 0 ++ toBytes 2 0 ++ toBytes 2 nextHopMtu.toNat ++ quote) 2
      csum = .ok (icmpMessage (split csum) nextHopMtu quote) := by
  have shape : [3, 4] ++ toBytes 2 0 ++ toBytes 2 0 ++ toBytes 2 nextHopMtu.toNat ++ quote =
      [3, 4] ++ ([0, 0] ++ (toBytes 2 0 ++ toBytes 2 nextHopMtu.toNat ++ quote)) := rfl
  rw [shape]
  exact putChecksum_append rfl csum

theorem ipv4Header_stored (totalLen : Nat) (src dst : List UInt8) (csum : UInt16) :
    putChecksum ([0x45, 0] ++ toBytes 2 totalLen ++ toBytes 2 0 ++ toBytes 2 0 ++ [64, 1] ++
      toBytes 2 0 ++ src ++ dst) 10 csum = .ok (ipv4Header (split csum) totalLen src dst) := by
  have shape : [0x45, 0] ++ toBytes 2 totalLen ++ toBytes 2 0 ++ toBytes 2 0 ++ [64, 1] ++
      toBytes 2 0 ++ src ++ dst = [0x45, 0] ++ toBytes 2 totalLen ++ toBytes 2 0 ++ toBytes 2 0 ++
        [64, 1] ++ ([0, 0] ++ (src ++ dst)) := rfl
  rw [shape]
  exact putChecksum_append rfl csum

/-- No index is out of range, and every packet is answered that is not refused. -/
theorem buildIcmpFragNeeded_eq (orig : List UInt8) (nextHopMtu : UInt16) (gateway : Ipv4Addr) :
    buildIcmpFragNeeded orig nextHopMtu gateway =
      .ok (if RefusesV4 orig then none
        else some (errorPacket nextHopMtu gateway.octets (slice orig 12 4) (quoteV4 orig))) := by
  have refused : RefusesV4 orig → (pure none : Checked (Option (List UInt8))) =
      .ok (if RefusesV4 orig then none
        else some (errorPacket nextHopMtu gateway.octets (slice orig 12 4) (quoteV4 orig))) :=
    fun refuses => congrArg _ (if_pos refuses).symm
  unfold buildIcmpFragNeeded
  by_cases short : orig.length < 20
  · rw [if_pos short]
    exact refused (.inl short)
  rw [if_neg short, index_head (by omega), ok_bind]
  by_cases header : ihl orig * 4 < 20 ∨ orig.length < ihl orig * 4
  · rw [ihl] at header
    rw [if_pos header]
    refine refused (.inr ?_)
    rw [← ihl] at header
    omega
  have long := header
  rw [ihl] at long
  rw [if_neg long]
  by_cases other : version orig ≠ 4
  · rw [version] at other
    rw [if_pos other]
    exact refused (.inr (.inr (.inr (.inl other))))
  have four := other
  rw [version] at four
  have proto : index orig 9 = .ok (orig.getD 9 0) := index_of_lt (by omega)
  rw [if_neg four, proto, ok_bind]
  by_cases icmp : orig.getD 9 0 = 1
  · rw [if_pos icmp]
    exact refused (.inr (.inr (.inr (.inr (.inl icmp)))))
  have octets : [orig.getD 12 0, orig.getD 13 0, orig.getD 14 0, orig.getD 15 0] =
      slice orig 12 4 := slice_four (by omega)
  rw [if_neg icmp, index_of_lt (i := 12) (by omega), ok_bind,
    index_of_lt (i := 13) (by omega), ok_bind, index_of_lt (i := 14) (by omega), ok_bind,
    index_of_lt (i := 15) (by omega), ok_bind, octets]
  by_cases nobody : (Ipv4.isUnspecified (.ofOctets (slice orig 12 4)) ||
      Ipv4.isBroadcast (.ofOctets (slice orig 12 4)) ||
      Ipv4.isMulticast (.ofOctets (slice orig 12 4)) ||
      Ipv4.isLoopback (.ofOctets (slice orig 12 4))) = true
  · rw [if_pos nobody]
    rw [Bool.or_eq_true, Bool.or_eq_true, Bool.or_eq_true, or_assoc, or_assoc] at nobody
    exact refused (.inr (.inr (.inr (.inr (.inr nobody)))))
  have answers : ¬ RefusesV4 orig := by
    rw [Bool.or_eq_true, Bool.or_eq_true, Bool.or_eq_true, or_assoc, or_assoc] at nobody
    rintro (h | h | h | h | h | h)
    · exact short h
    · omega
    · omega
    · exact other h
    · exact icmp h
    · exact nobody h
  have length : (slice orig 12 4).length = 4 := by
    rw [slice, List.length_take, List.length_drop]
    omega
  have quoted : range orig 0 (min orig.length (ihl orig * 4 + 8)) = .ok (quoteV4 orig) := by
    rw [range_of_le (Nat.min_le_left ..), quoteV4, Nat.mul_comm]
    rfl
  have small := length_quoteV4 orig
  rw [if_neg nobody, ← ihl, quoted, ok_bind, if_neg answers]
  -- the packet is built with zeros in its checksums, which are then written
  have fields : ∀ csum, (icmpMessage (split csum) nextHopMtu (quoteV4 orig)).length =
      8 + (quoteV4 orig).length := fun csum => (icmpMessage_fields _ rfl nextHopMtu _ rfl).2.2.2.2
  have total : 20 + (8 + (quoteV4 orig).length) = 28 + (quoteV4 orig).length := by omega
  have source := Ipv4Addr.octets_ofOctets length
  refine Eq.trans (congrArg (· >>= _) (icmpMessage_stored ..)) ?_
  rw [ok_bind]
  dsimp only
  rw [fields, if_neg (by omega), source, total]
  have front : range ([0x45, 0] ++ toBytes 2 (28 + (quoteV4 orig).length) ++ toBytes 2 0 ++
      toBytes 2 0 ++ [64, 1] ++ toBytes 2 0 ++ gateway.octets ++ slice orig 12 4) 0 20 =
      .ok (ipv4Header [0, 0] (28 + (quoteV4 orig).length) gateway.octets (slice orig 12 4)) := by
    have whole := range_all (ipv4Header [0, 0] (28 + (quoteV4 orig).length) gateway.octets
      (slice orig 12 4))
    rw [length_ipv4Header rfl (length_ipv4Octets gateway) length] at whole
    exact whole
  rw [front, ok_bind, ipv4Header_stored, ok_bind]
  rfl

theorem frag_needed_well_formed (orig : List UInt8) (nextHopMtu : UInt16) (gateway : Ipv4Addr) :
    ∃ answer, buildIcmpFragNeeded orig nextHopMtu gateway = .ok answer ∧
      (answer = none ↔ RefusesV4 orig) ∧
      ∀ pkt, answer = some pkt → FragNeeded orig nextHopMtu gateway pkt := by
  refine answers_unless (buildIcmpFragNeeded_eq orig nextHopMtu gateway) fun answers => ?_
  have long : 20 ≤ orig.length := Nat.not_lt.mp fun short => answers (.inl short)
  exact fragNeeded_errorPacket nextHopMtu gateway long

/-! ## The IPv6 error -/

def ipv6Header (payloadLen : Nat) (src dst : List UInt8) : List UInt8 :=
  [0x60] ++ [0, 0, 0] ++ toBytes 2 payloadLen ++ [58, 64] ++ src ++ dst

def icmpv6Message (csum : List UInt8) (mtu : UInt32) (quote : List UInt8) : List UInt8 :=
  [2, 0] ++ (csum ++ (toBytes 4 mtu.toNat ++ quote))

/-- What the sender adds up. -/
def sumBuf (csum src dst : List UInt8) (mtu : UInt32) (quote : List UInt8) : List UInt8 :=
  src ++ dst ++ toBytes 4 (8 + quote.length) ++ [0, 0, 0, 58] ++ icmpv6Message csum mtu quote

def errorPacket6 (mtu : UInt32) (src dst quote : List UInt8) : List UInt8 :=
  ipv6Header (8 + quote.length) src dst ++
    icmpv6Message (split (inetChecksum (sumBuf [0, 0] src dst mtu quote))) mtu quote

def quoteV6 (orig : List UInt8) : List UInt8 := orig.take (min orig.length 1232)

theorem length_quoteV6 (orig : List UInt8) : (quoteV6 orig).length ≤ 1232 := by
  rw [quoteV6, List.length_take]
  omega

theorem length_ipv6Header {src dst : List UInt8} (width : src.length = 16)
    (width' : dst.length = 16) (payloadLen : Nat) :
    (ipv6Header payloadLen src dst).length = 40 := by
  simp only [ipv6Header, List.length_append, length_toBytes, List.length_cons, List.length_nil,
    width, width']

/-- The fields of a header in front of anything. -/
theorem ipv6Header_fields {src dst : List UInt8} (width : src.length = 16)
    (width' : dst.length = 16) (payloadLen : Nat) (rest : List UInt8)
    {pkt : List UInt8} (same : pkt = ipv6Header payloadLen src dst ++ rest) :
    version pkt = 6 ∧ slice pkt 4 2 = toBytes 2 payloadLen ∧ slice pkt 6 1 = [58] ∧
      slice pkt 8 16 = src ∧ slice pkt 24 16 = dst ∧ pkt.drop 40 = rest := by
  have high : (0x60 : UInt8) >>> 4 = 6 := by decide
  have length := length_ipv6Header width width' payloadLen
  have source : pkt = ([0x60] ++ [0, 0, 0] ++ toBytes 2 payloadLen ++ [58, 64]) ++ src ++
      (dst ++ rest) := by
    rw [same, ipv6Header]
    simp only [List.append_assoc]
  have destination : pkt = ([0x60] ++ [0, 0, 0] ++ toBytes 2 payloadLen ++ [58, 64] ++ src) ++
      dst ++ rest := by
    rw [same, ipv6Header]
  refine ⟨?_, ?_, ?_, ?_, ?_, ?_⟩
  · rw [same]
    exact high
  · rw [same]
    rfl
  · rw [same]
    rfl
  · rw [source]
    exact slice_append rfl width _
  · rw [destination]
    refine slice_append ?_ width' _
    rw [List.length_append, width]
    rfl
  · rw [same, ← length, List.drop_left]

theorem icmpv6Message_fields (csum : List UInt8) (two : csum.length = 2) (mtu : UInt32)
    (quote : List UInt8) {message : List UInt8} (same : message = icmpv6Message csum mtu quote) :
    slice message 0 2 = [2, 0] ∧ slice message 4 4 = toBytes 4 mtu.toNat ∧
      message.drop 8 = quote ∧ message.length = 8 + quote.length := by
  subst same
  match csum, two with
  | [_, _], _ =>
      refine ⟨rfl, rfl, rfl, ?_⟩
      show quote.length + 8 = 8 + quote.length
      exact Nat.add_comm _ _

theorem sumBuf_verifies {src dst : List UInt8} (width : src.length = 16)
    (width' : dst.length = 16) (mtu : UInt32) {quote : List UInt8}
    (small : quote.length ≤ 1232) :
    inetChecksum (sumBuf (split (inetChecksum (sumBuf [0, 0] src dst mtu quote))) src dst mtu
      quote) = 0 := by
  have shape : ∀ csum, sumBuf csum src dst mtu quote =
      (src ++ dst ++ toBytes 4 (8 + quote.length) ++ [0, 0, 0, 58] ++ [2, 0]) ++
        (csum ++ (toBytes 4 mtu.toNat ++ quote)) := by
    intro csum
    rw [sumBuf, icmpv6Message]
    simp only [List.append_assoc]
  have front : (src ++ dst ++ toBytes 4 (8 + quote.length) ++ [0, 0, 0, 58] ++ [2, 0]).length =
      42 := by
    simp only [List.length_append, length_toBytes, List.length_cons, List.length_nil, width, width']
  rw [shape, shape]
  refine inetChecksum_stored _ _ (by rw [front]) ?_
  rw [front, List.length_append, length_toBytes]
  omega

theorem length_ipv6Octets (ip : Ipv6Addr) : ip.octets.length = 16 := length_toBytes 16 _

theorem pktTooBig_errorPacket6 (mtu : UInt32) (gateway : Ipv6Addr) (long : 40 ≤ orig.length) :
    PktTooBig orig mtu gateway
      (errorPacket6 mtu gateway.octets (slice orig 8 16) (quoteV6 orig)) := by
  have width : (slice orig 8 16).length = 16 := by
    rw [slice, List.length_take, List.length_drop]
    omega
  have quoted := length_quoteV6 orig
  obtain ⟨version, payload, next, source, destination, message⟩ :=
    ipv6Header_fields (length_ipv6Octets gateway) width (8 + (quoteV6 orig).length)
      (icmpv6Message _ mtu (quoteV6 orig))
      (rfl : errorPacket6 mtu gateway.octets (slice orig 8 16) (quoteV6 orig) = _)
  obtain ⟨kind, announced, quote, length⟩ :=
    icmpv6Message_fields (split _) rfl mtu (quoteV6 orig) message
  have whole : (errorPacket6 mtu gateway.octets (slice orig 8 16) (quoteV6 orig)).length =
      48 + (quoteV6 orig).length := by
    rw [errorPacket6, List.length_append, length_ipv6Header (length_ipv6Octets gateway) width,
      ← message, length]
    omega
  have payloadLength : ofBytes (toBytes 2 (8 + (quoteV6 orig).length)) =
      8 + (quoteV6 orig).length := by
    rw [ofBytes_toBytes]
    exact Nat.mod_eq_of_lt (by omega)
  rw [slice_drop] at kind announced
  rw [List.drop_drop] at quote
  exact {
    version := version
    fits := by omega
    payloadLength := by
      rw [payload, payloadLength, whole]
      omega
    nextHeader := next
    source := source
    destination := destination
    kind := kind
    announced := by
      rw [announced, ofBytes_toBytes]
      exact Nat.mod_eq_of_lt mtu.toNat_lt
    quote := by
      rw [quote]
      exact List.take_prefix ..
    longest := by
      intro other isPrefix fits
      rw [quote, quoteV6]
      exact List.prefix_take_iff.mpr ⟨isPrefix, Nat.le_min.mpr ⟨isPrefix.length_le, by omega⟩⟩
    verifies := by
      have type : ∀ before : List UInt8, before ++ [0, 0, 0] ++ [58] = before ++ [0, 0, 0, 58] :=
        fun before => List.append_assoc ..
      rw [pseudoHeader, source, destination, payload, payloadLength, next, message, type]
      exact sumBuf_verifies (length_ipv6Octets gateway) width mtu quoted }

theorem icmpv6Message_stored (mtu : UInt32) (quote : List UInt8) (csum : UInt16) :
    putChecksum ([2, 0] ++ toBytes 2 0 ++ toBytes 4 mtu.toNat ++ quote) 2 csum =
      .ok (icmpv6Message (split csum) mtu quote) := by
  have shape : [2, 0] ++ toBytes 2 0 ++ toBytes 4 mtu.toNat ++ quote =
      [2, 0] ++ ([0, 0] ++ (toBytes 4 mtu.toNat ++ quote)) := rfl
  rw [shape]
  exact putChecksum_append rfl csum

/-- No index is out of range, and every packet is answered that is not refused. -/
theorem buildIcmpv6PktTooBig_eq (orig : List UInt8) (mtu : UInt32) (gateway : Ipv6Addr) :
    buildIcmpv6PktTooBig orig mtu gateway =
      .ok (if RefusesV6 orig then none
        else some (errorPacket6 mtu gateway.octets (slice orig 8 16) (quoteV6 orig))) := by
  have refused : RefusesV6 orig → (pure none : Checked (Option (List UInt8))) =
      .ok (if RefusesV6 orig then none
        else some (errorPacket6 mtu gateway.octets (slice orig 8 16) (quoteV6 orig))) :=
    fun refuses => congrArg _ (if_pos refuses).symm
  unfold buildIcmpv6PktTooBig
  by_cases short : orig.length < 40
  · rw [if_pos short]
    exact refused (.inl short)
  rw [if_neg short, index_head (by omega), ok_bind]
  by_cases other : version orig ≠ 6
  · rw [version] at other
    rw [if_pos other]
    exact refused (.inr (.inl other))
  have six := other
  rw [version] at six
  rw [if_neg six, index_of_lt (i := 6) (by omega), ok_bind]
  by_cases icmp : orig.getD 6 0 = 58
  · rw [if_pos icmp]
    exact refused (.inr (.inr (.inl icmp)))
  have octets : range orig 8 24 = .ok (slice orig 8 16) := range_of_le (by omega)
  rw [if_neg icmp, octets, ok_bind]
  by_cases nobody : (Ipv6.isUnspecified (.ofOctets (slice orig 8 16)) ||
      Ipv6.isMulticast (.ofOctets (slice orig 8 16)) ||
      Ipv6.isLoopback (.ofOctets (slice orig 8 16))) = true
  · rw [if_pos nobody]
    rw [Bool.or_eq_true, Bool.or_eq_true, or_assoc] at nobody
    exact refused (.inr (.inr (.inr nobody)))
  have answers : ¬ RefusesV6 orig := by
    rw [Bool.or_eq_true, Bool.or_eq_true, or_assoc] at nobody
    rintro (h | h | h | h)
    · exact short h
    · exact other h
    · exact icmp h
    · exact nobody h
  have width : (slice orig 8 16).length = 16 := by
    rw [slice, List.length_take, List.length_drop]
    omega
  have quoted : range orig 0 (min orig.length (ipv6MinMtu - (40 + 8))) = .ok (quoteV6 orig) :=
    range_of_le (Nat.min_le_left ..)
  have small := length_quoteV6 orig
  rw [if_neg nobody, if_neg answers]
  refine Eq.trans (congrArg (· >>= _) quoted) ?_
  rw [ok_bind]
  -- the message is built with zeros in its checksum, which is then written
  have source := Ipv6Addr.octets_ofOctets width
  have length : ([2, 0] ++ toBytes 2 0 ++ toBytes 4 mtu.toNat ++ quoteV6 orig).length =
      8 + (quoteV6 orig).length := by
    rw [List.length_append, List.length_append, length_toBytes, List.length_append, length_toBytes]
    rfl
  have word : (UInt32.ofNat (8 + (quoteV6 orig).length)).toNat = 8 + (quoteV6 orig).length := by
    rw [UInt32.toNat_ofNat']
    exact Nat.mod_eq_of_lt (by omega)
  have half : (UInt16.ofNat (8 + (quoteV6 orig).length)).toNat = 8 + (quoteV6 orig).length := by
    rw [UInt16.toNat_ofNat']
    exact Nat.mod_eq_of_lt (by omega)
  have fields : ∀ csum, (icmpv6Message (split csum) mtu (quoteV6 orig)).length =
      8 + (quoteV6 orig).length := fun csum => (icmpv6Message_fields _ rfl mtu _ rfl).2.2.2
  refine Eq.trans (congrArg (· >>= _) (icmpv6Message_stored ..)) ?_
  rw [ok_bind]
  dsimp only
  rw [fields, half, length, word, source]
  rfl

theorem pkt_too_big_well_formed (orig : List UInt8) (mtu : UInt32) (gateway : Ipv6Addr) :
    ∃ answer, buildIcmpv6PktTooBig orig mtu gateway = .ok answer ∧
      (answer = none ↔ RefusesV6 orig) ∧
      ∀ pkt, answer = some pkt → PktTooBig orig mtu gateway pkt := by
  refine answers_unless (buildIcmpv6PktTooBig_eq orig mtu gateway) fun answers => ?_
  have long : 40 ≤ orig.length := Nat.not_lt.mp fun short => answers (.inl short)
  exact pktTooBig_errorPacket6 mtu gateway long

end LinkP2p.Tun.Icmp
