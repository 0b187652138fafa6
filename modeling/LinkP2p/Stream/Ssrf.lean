import LinkP2p.Lib.Prefix
import LinkP2p.Stream.Socks5

/-!
# The dial guard of proxy mode

A peer of `serve --proxy` names a target, and this node must not be led into its
own private networks. The code tests octets, masks and 16-bit segments in turn;
the reference is a list of address blocks and the four ways in which an IPv6
address carries an IPv4 address.
-/

namespace LinkP2p.Stream

open LinkP2p.Lib.Bytes LinkP2p.Lib.Wire LinkP2p.Lib.Prefix LinkP2p.Tun

/-! ## Address classes -/

namespace Ipv4

/-- `octets()[i]` -/
def octet (ip : Ipv4Addr) (i : Nat) : UInt8 := (Ipv4Addr.octets ip).getD i 0

def isLoopback (ip : Ipv4Addr) : Bool := octet ip 0 == 127

def isPrivate (ip : Ipv4Addr) : Bool :=
  octet ip 0 == 10 || (octet ip 0 == 172 && octet ip 1 ≥ 16 && octet ip 1 ≤ 31) ||
    (octet ip 0 == 192 && octet ip 1 == 168)

def isLinkLocal (ip : Ipv4Addr) : Bool := octet ip 0 == 169 && octet ip 1 == 254

def isUnspecified (ip : Ipv4Addr) : Bool := ip == 0

def isMulticast (ip : Ipv4Addr) : Bool := octet ip 0 ≥ 224 && octet ip 0 ≤ 239

def isBroadcast (ip : Ipv4Addr) : Bool := ip == 0xffffffff

end Ipv4

namespace Ipv6

/-- `segments()[i]` -/
def segment (ip : Ipv6Addr) (i : Nat) : UInt16 := UInt16.ofNat (ip.toNat / 2 ^ (16 * (7 - i)))

def isLoopback (ip : Ipv6Addr) : Bool := ip == 1

def isUnspecified (ip : Ipv6Addr) : Bool := ip == 0

def isMulticast (ip : Ipv6Addr) : Bool := segment ip 0 &&& 0xff00 == 0xff00

/-- `to_ipv4_mapped`: `::ffff:a.b.c.d` -/
def toIpv4Mapped (ip : Ipv6Addr) : Option Ipv4Addr :=
  if (Ipv6Addr.octets ip).take 12 = [0, 0, 0, 0, 0, 0, 0, 0, 0, 0, 0xff, 0xff] then
    some (.ofOctets ((Ipv6Addr.octets ip).drop 12))
  else none

end Ipv6

def IpAddr.toCanonical : IpAddr → IpAddr
  | .v4 ip => .v4 ip
  | .v6 ip =>
      match Ipv6.toIpv4Mapped ip with
      | some mapped => .v4 mapped
      | none => .v6 ip

/-! ## The guard -/

def isBlockedV4 (ip : Ipv4Addr) : Bool :=
  let isCgnat := ip &&& 0xffc00000 == 0x64400000
  let is6to4RelayAnycast := ip &&& 0xffffff00 == 0xc0586300
  Ipv4.isLoopback ip || Ipv4.isPrivate ip || isCgnat || is6to4RelayAnycast ||
    Ipv4.isLinkLocal ip || Ipv4.isUnspecified ip || Ipv4.isMulticast ip || Ipv4.isBroadcast ip

def isBlockedV6Native (ip : Ipv6Addr) : Bool :=
  Ipv6.isLoopback ip || Ipv6.isUnspecified ip || Ipv6.isMulticast ip ||
    Ipv6.segment ip 0 &&& 0xfe00 == 0xfc00 || Ipv6.segment ip 0 &&& 0xffc0 == 0xfe80

def ipv4FromU16Pair (hi lo : UInt16) : Ipv4Addr :=
  .ofOctets [(hi >>> 8).toUInt8, (hi &&& 0xff).toUInt8, (lo >>> 8).toUInt8, (lo &&& 0xff).toUInt8]

def embeddedIpv4 (ip : Ipv6Addr) : Option Ipv4Addr :=
  let s := Ipv6.segment ip
  if s 0 == 0 && s 1 == 0 && s 2 == 0 && s 3 == 0 && s 4 == 0 && s 5 == 0 &&
      !Ipv6.isUnspecified ip && !Ipv6.isLoopback ip then
    some (ipv4FromU16Pair (s 6) (s 7))
  else if s 0 == 0x64 && s 1 == 0xff9b && s 2 == 0 && s 3 == 0 && s 4 == 0 && s 5 == 0 then
    some (ipv4FromU16Pair (s 6) (s 7))
  else if s 0 == 0x2002 then some (ipv4FromU16Pair (s 1) (s 2))
  else none

def isTeredo (ip : Ipv6Addr) : Bool := Ipv6.segment ip 0 == 0x2001 && Ipv6.segment ip 1 == 0

def isBlockedIp (ip : IpAddr) : Bool :=
  match ip.toCanonical with
  | .v4 v4 => isBlockedV4 v4
  | .v6 v6 =>
      match embeddedIpv4 v6 with
      | some v4 => isBlockedV4 v4
      | none => if isTeredo v6 then true else isBlockedV6Native v6

def isBlockedTarget (addr : SocketAddr) : Bool := isBlockedIp addr.ip

/-- An address that has passed the guard; `dialChecked` takes no other. -/
structure CheckedTarget (allowPrivate : Bool) where
  addr : SocketAddr
  checked : (!allowPrivate && isBlockedTarget addr) = false

def checkProxyTarget (target : SocketAddr) (allowPrivate : Bool) :
    Except ProxyError (CheckedTarget allowPrivate) :=
  if blocked : !allowPrivate && isBlockedTarget target then .error (.blocked target)
  else .ok ⟨target, Bool.not_eq_true _ ▸ blocked⟩

section Serving

variable (dns : Nat → String × UInt16 → DnsAnswer)

-- Which addresses take a TCP connection.
variable (listens : SocketAddr → Bool)

def dialChecked {allowPrivate : Bool} (target : CheckedTarget allowPrivate) : Proxy Unit := do
  modify fun net => { net with connects := net.connects ++ [target.addr] }
  if listens target.addr then pure () else throw (.connecting target.addr)

/-- The proxy branch of `handle_forward_stream`, up to the piping of bytes. -/
def handleProxyStream (allowPrivate : Bool) : Proxy Unit := do
  let target ← readHeader
  let raw ← target.resolve dns
  let checked ← ofExcept (checkProxyTarget raw allowPrivate)
  dialChecked listens checked

end Serving

/-! ## The reference set -/

/-- 127/8, 10/8, 172.16/12, 192.168/16, 100.64/10, 169.254/16, 192.88.99/24, 224/4,
0.0.0.0 and 255.255.255.255 -/
def refusedBlocks4 : List (Block 32) :=
  [⟨0x7f000000, 8⟩, ⟨0x0a000000, 8⟩, ⟨0xac100000, 12⟩, ⟨0xc0a80000, 16⟩, ⟨0x64400000, 10⟩,
    ⟨0xa9fe0000, 16⟩, ⟨0xc0586300, 24⟩, ⟨0xe0000000, 4⟩, ⟨0, 32⟩, ⟨0xffffffff, 32⟩]

/-- ::, ::1, ff00::/8, fc00::/7, fe80::/10 and 2001:0::/32 -/
def refusedBlocks6 : List (Block 128) :=
  [⟨0, 128⟩, ⟨1, 128⟩, ⟨0xff00#16 ++ 0#112, 8⟩, ⟨0xfc00#16 ++ 0#112, 7⟩,
    ⟨0xfe80#16 ++ 0#112, 10⟩, ⟨0x20010000#32 ++ 0#96, 32⟩]

/-- The IPv6 addresses that stand for an IPv4 address. -/
inductive Carries : Ipv6Addr → Ipv4Addr → Prop
  | mapped (v4 : Ipv4Addr) : Carries (0xffff#96 ++ v4) v4
  | compatible (v4 : Ipv4Addr) : v4 ≠ 0 → v4 ≠ 1 → Carries (0#96 ++ v4) v4
  | nat64 (v4 : Ipv4Addr) : Carries (0x0064ff9b0000000000000000#96 ++ v4) v4
  | sixToFour (v4 : Ipv4Addr) (rest : BitVec 80) : Carries (0x2002#16 ++ v4 ++ rest) v4

inductive Refused : IpAddr → Prop
  | v4 {ip : Ipv4Addr} {block : Block 32} :
      block ∈ refusedBlocks4 → block.Contains ip → Refused (.v4 ip)
  | v6 {ip : Ipv6Addr} {block : Block 128} :
      block ∈ refusedBlocks6 → block.Contains ip → Refused (.v6 ip)
  | carried {ip : Ipv6Addr} {v4 : Ipv4Addr} :
      Carries ip v4 → Refused (.v4 v4) → Refused (.v6 ip)

/-! ## IPv4 classes are blocks -/

theorem Ipv4.octet_toNat {i : Nat} (inside : i < 4) (ip : Ipv4Addr) :
    (Ipv4.octet ip i).toNat = ip.toNat / 256 ^ (3 - i) % 256 :=
  getD_toBytes inside ip.toNat

theorem Ipv4.isLoopback_iff (ip : Ipv4Addr) :
    Ipv4.isLoopback ip = true ↔ Block.Contains ⟨0x7f000000, 8⟩ ip := by
  have first := Ipv4.octet_toNat (by decide : 0 < 4) ip
  have small := ip.isLt
  rw [Ipv4.isLoopback, beq_iff_eq, ← UInt8.toNat_inj, first]
  change ip.toNat / 256 ^ 3 % 256 = 127 ↔ ip.toNat / 2 ^ 24 = 127
  omega

theorem Ipv4.isPrivate_iff (ip : Ipv4Addr) :
    Ipv4.isPrivate ip = true ↔ Block.Contains ⟨0x0a000000, 8⟩ ip ∨
      Block.Contains ⟨0xac100000, 12⟩ ip ∨ Block.Contains ⟨0xc0a80000, 16⟩ ip := by
  have first := Ipv4.octet_toNat (by decide : 0 < 4) ip
  have second := Ipv4.octet_toNat (by decide : 1 < 4) ip
  have small := ip.isLt
  simp only [Ipv4.isPrivate, Bool.or_eq_true, Bool.and_eq_true, beq_iff_eq, decide_eq_true_eq,
    ge_iff_le, ← UInt8.toNat_inj, UInt8.le_iff_toNat_le, first, second]
  change (ip.toNat / 256 ^ 3 % 256 = 10 ∨ (ip.toNat / 256 ^ 3 % 256 = 172 ∧
      16 ≤ ip.toNat / 256 ^ 2 % 256) ∧ ip.toNat / 256 ^ 2 % 256 ≤ 31) ∨
      ip.toNat / 256 ^ 3 % 256 = 192 ∧ ip.toNat / 256 ^ 2 % 256 = 168 ↔
    ip.toNat / 2 ^ 24 = 10 ∨ ip.toNat / 2 ^ 20 = 0xac1 ∨ ip.toNat / 2 ^ 16 = 0xc0a8
  omega

theorem Ipv4.isLinkLocal_iff (ip : Ipv4Addr) :
    Ipv4.isLinkLocal ip = true ↔ Block.Contains ⟨0xa9fe0000, 16⟩ ip := by
  have first := Ipv4.octet_toNat (by decide : 0 < 4) ip
  have second := Ipv4.octet_toNat (by decide : 1 < 4) ip
  have small := ip.isLt
  simp only [Ipv4.isLinkLocal, Bool.and_eq_true, beq_iff_eq, ← UInt8.toNat_inj, first, second]
  change ip.toNat / 256 ^ 3 % 256 = 169 ∧ ip.toNat / 256 ^ 2 % 256 = 254 ↔
    ip.toNat / 2 ^ 16 = 0xa9fe
  omega

theorem Ipv4.isMulticast_iff (ip : Ipv4Addr) :
    Ipv4.isMulticast ip = true ↔ Block.Contains ⟨0xe0000000, 4⟩ ip := by
  have first := Ipv4.octet_toNat (by decide : 0 < 4) ip
  have small := ip.isLt
  simp only [Ipv4.isMulticast, Bool.and_eq_true, decide_eq_true_eq, ge_iff_le,
    UInt8.le_iff_toNat_le, first]
  change 224 ≤ ip.toNat / 256 ^ 3 % 256 ∧ ip.toNat / 256 ^ 3 % 256 ≤ 239 ↔
    ip.toNat / 2 ^ 28 = 14
  omega

theorem isCgnat_iff (ip : Ipv4Addr) :
    ip &&& 0xffc00000 = 0x64400000 ↔ Block.Contains ⟨0x64400000, 10⟩ ip := by
  have mask : (0xffc00000 : Ipv4Addr) = BitVec.allOnes 32 <<< 22 := by decide
  rw [mask, and_leading_eq_iff (by decide)]
  rfl

theorem is6to4RelayAnycast_iff (ip : Ipv4Addr) :
    ip &&& 0xffffff00 = 0xc0586300 ↔ Block.Contains ⟨0xc0586300, 24⟩ ip := by
  have mask : (0xffffff00 : Ipv4Addr) = BitVec.allOnes 32 <<< 8 := by decide
  rw [mask, and_leading_eq_iff (by decide)]
  rfl

theorem isBlockedV4_iff (ip : Ipv4Addr) : isBlockedV4 ip = true ↔ Refused (.v4 ip) := by
  have listed : Refused (.v4 ip) ↔ ∃ block ∈ refusedBlocks4, block.Contains ip := by
    constructor
    · rintro (⟨member, inside⟩ | _ | _)
      exact ⟨_, member, inside⟩
    · rintro ⟨block, member, inside⟩
      exact .v4 member inside
  rw [listed]
  simp only [isBlockedV4, refusedBlocks4, Bool.or_eq_true, Ipv4.isLoopback_iff,
    Ipv4.isPrivate_iff, beq_iff_eq, isCgnat_iff, is6to4RelayAnycast_iff, Ipv4.isLinkLocal_iff,
    Ipv4.isUnspecified, Ipv4.isMulticast_iff, Ipv4.isBroadcast, List.mem_cons,
    List.not_mem_nil, or_false, exists_eq_or_imp, exists_eq_left, contains_full, or_assoc]
  -- the code tests the same classes in another order
  exact iff_of_eq (by ac_rfl)

/-! ## IPv6 classes -/

theorem Ipv6.segment_toNat (ip : Ipv6Addr) (i : Nat) :
    (Ipv6.segment ip i).toNat = ip.toNat / 2 ^ (16 * (7 - i)) % 2 ^ 16 :=
  UInt16.toNat_ofNat'

/-- A mask on the first segment tests its leading bits. -/
theorem Ipv6.segment_and_eq_iff (ip : Ipv6Addr) (mask base : UInt16) (low : Nat)
    (leading : mask.toBitVec = BitVec.allOnes 16 <<< low) (aligned : base.toNat % 2 ^ low = 0) :
    Ipv6.segment ip 0 &&& mask = base ↔
      ip.toNat / 2 ^ 112 / 2 ^ low = base.toNat / 2 ^ low := by
  have first : (Ipv6.segment ip 0).toBitVec.toNat = ip.toNat / 2 ^ 112 := by
    have small := ip.isLt
    have value := Ipv6.segment_toNat ip 0
    change (Ipv6.segment ip 0).toNat = ip.toNat / 2 ^ 112 % 2 ^ 16 at value
    change (Ipv6.segment ip 0).toNat = _
    omega
  rw [← UInt16.toBitVec_inj, UInt16.toBitVec_and, leading, and_leading_eq_iff aligned, first]
  rfl

theorem Ipv6.isMulticast_iff (ip : Ipv6Addr) :
    Ipv6.isMulticast ip = true ↔ Block.Contains ⟨0xff00#16 ++ 0#112, 8⟩ ip := by
  rw [Ipv6.isMulticast, beq_iff_eq,
    Ipv6.segment_and_eq_iff ip 0xff00 0xff00 8 (by decide) (by decide)]
  change ip.toNat / 2 ^ 112 / 2 ^ 8 = 0xff ↔ ip.toNat / 2 ^ 120 = 0xff
  omega

theorem isUniqueLocal_iff (ip : Ipv6Addr) :
    Ipv6.segment ip 0 &&& 0xfe00 = 0xfc00 ↔ Block.Contains ⟨0xfc00#16 ++ 0#112, 7⟩ ip := by
  rw [Ipv6.segment_and_eq_iff ip 0xfe00 0xfc00 9 (by decide) (by decide)]
  change ip.toNat / 2 ^ 112 / 2 ^ 9 = 0x7e ↔ ip.toNat / 2 ^ 121 = 0x7e
  omega

theorem isLinkLocal6_iff (ip : Ipv6Addr) :
    Ipv6.segment ip 0 &&& 0xffc0 = 0xfe80 ↔ Block.Contains ⟨0xfe80#16 ++ 0#112, 10⟩ ip := by
  rw [Ipv6.segment_and_eq_iff ip 0xffc0 0xfe80 6 (by decide) (by decide)]
  change ip.toNat / 2 ^ 112 / 2 ^ 6 = 0x3fa ↔ ip.toNat / 2 ^ 118 = 0x3fa
  omega

theorem isTeredo_iff (ip : Ipv6Addr) :
    isTeredo ip = true ↔ Block.Contains ⟨0x20010000#32 ++ 0#96, 32⟩ ip := by
  have first := Ipv6.segment_toNat ip 0
  have second := Ipv6.segment_toNat ip 1
  have small := ip.isLt
  simp only [isTeredo, Bool.and_eq_true, beq_iff_eq, ← UInt16.toNat_inj, first, second]
  change ip.toNat / 2 ^ 112 % 2 ^ 16 = 0x2001 ∧ ip.toNat / 2 ^ 96 % 2 ^ 16 = 0 ↔
    ip.toNat / 2 ^ 96 = 0x20010000
  omega

/-- The native rules and the Teredo rule together are the IPv6 blocks. -/
theorem isBlockedV6Native_iff (ip : Ipv6Addr) :
    (isTeredo ip = true ∨ isBlockedV6Native ip = true) ↔
      ∃ block ∈ refusedBlocks6, block.Contains ip := by
  simp only [isBlockedV6Native, refusedBlocks6, Bool.or_eq_true, beq_iff_eq, isTeredo_iff,
    Ipv6.isLoopback, Ipv6.isUnspecified, Ipv6.isMulticast_iff, isUniqueLocal_iff,
    isLinkLocal6_iff, List.mem_cons, List.not_mem_nil, or_false, exists_eq_or_imp,
    exists_eq_left, contains_full, or_assoc]
  tauto

/-! ## Carried IPv4 addresses -/

theorem ipv4FromU16Pair_toNat (hi lo : UInt16) :
    (ipv4FromU16Pair hi lo).toNat = hi.toNat * 2 ^ 16 + lo.toNat := by
  have byte (x : UInt16) : (x &&& 0xff).toNat = x.toNat % 2 ^ 8 := by
    rw [UInt16.toNat_and]
    exact Nat.and_two_pow_sub_one_eq_mod x.toNat 8
  have high := hi.toNat_lt
  have low := lo.toNat_lt
  simp only [ipv4FromU16Pair, Ipv4Addr.ofOctets, ofBytes, BitVec.toNat_ofNat, UInt16.toNat_toUInt8,
    UInt16.toNat_shiftRight, byte, Nat.shiftRight_eq_div_pow, List.length_cons, List.length_nil]
  change (_ / 2 ^ 8 % 2 ^ 8 * 256 ^ 3 +
    (_ * 256 ^ 2 + (_ / 2 ^ 8 % 2 ^ 8 * 256 ^ 1 + _))) % 2 ^ 32 = _
  omega

/-- What the address says as a number, for each of the four ways. -/
theorem carries_iff (ip : Ipv6Addr) (v4 : Ipv4Addr) :
    Carries ip v4 ↔
      ip.toNat / 2 ^ 32 = 0xffff ∧ ip.toNat % 2 ^ 32 = v4.toNat ∨
      (ip.toNat / 2 ^ 32 = 0 ∧ ip.toNat % 2 ^ 32 = v4.toNat) ∧ ip ≠ 0 ∧ ip ≠ 1 ∨
      ip.toNat / 2 ^ 32 = 0x0064ff9b0000000000000000 ∧ ip.toNat % 2 ^ 32 = v4.toNat ∨
      ip.toNat / 2 ^ 112 = 0x2002 ∧ ip.toNat / 2 ^ 80 % 2 ^ 32 = v4.toNat := by
  have quotient : ip.toNat / 2 ^ 80 / 2 ^ 32 = ip.toNat / 2 ^ 112 := Nat.div_div_eq_div_mul _ _ _
  constructor
  · intro carried
    cases carried with
    | mapped => exact .inl ((eq_append_iff _ _ _).mp rfl)
    | compatible _ unspecified loopback =>
        refine .inr (.inl ⟨(eq_append_iff _ _ _).mp rfl, ?_, ?_⟩)
        · intro same
          exact unspecified (BitVec.append_right_inj _ |>.mp same)
        · intro same
          exact loopback (BitVec.append_right_inj _ |>.mp same)
    | nat64 => exact .inr (.inr (.inl ((eq_append_iff _ _ _).mp rfl)))
    | sixToFour _ rest =>
        obtain ⟨front, -⟩ := (eq_append_iff (0x2002#16 ++ v4 ++ rest) _ _).mp rfl
        obtain ⟨high, middle⟩ := (eq_append_iff (0x2002#16 ++ v4) _ _).mp rfl
        rw [← front] at high middle
        exact .inr (.inr (.inr ⟨quotient ▸ high, middle⟩))
  · rintro (parts | ⟨parts, unspecified, loopback⟩ | parts | ⟨high, middle⟩)
    · rw [(eq_append_iff ip 0xffff#96 v4).mpr parts]
      exact .mapped v4
    · have same := (eq_append_iff ip 0#96 v4).mpr parts
      rw [same] at unspecified loopback ⊢
      refine .compatible v4 ?_ ?_
      · rintro rfl
        exact unspecified rfl
      · rintro rfl
        exact loopback rfl
    · rw [(eq_append_iff ip 0x0064ff9b0000000000000000#96 v4).mpr parts]
      exact .nat64 v4
    · have front : 0x2002 * 2 ^ 32 + v4.toNat = ip.toNat / 2 ^ 80 := by
        rw [← middle, ← high, ← quotient]
        exact Nat.div_add_mod' _ _
      have value : (0x2002#16 ++ v4).toNat = 0x2002 * 2 ^ 32 + v4.toNat := toNat_append _ _
      rw [(eq_append_iff ip (0x2002#16 ++ v4) (BitVec.ofNat 80 ip.toNat)).mpr
        ⟨front.symm.trans value.symm, (BitVec.toNat_ofNat _ _).symm⟩]
      exact .sixToFour v4 _

theorem toIpv4Mapped_eq_some (ip : Ipv6Addr) (v4 : Ipv4Addr) :
    Ipv6.toIpv4Mapped ip = some v4 ↔
      ip.toNat / 2 ^ 32 = 0xffff ∧ ip.toNat % 2 ^ 32 = v4.toNat := by
  have split : Ipv6Addr.octets ip = toBytes 12 (ip.toNat / 256 ^ 4) ++ toBytes 4 ip.toNat :=
    toBytes_append 12 4 ip.toNat
  have front : (Ipv6Addr.octets ip).take 12 = toBytes 12 (ip.toNat / 256 ^ 4) := by
    rw [split, List.take_left' (length_toBytes _ _)]
  have back : (Ipv6Addr.octets ip).drop 12 = toBytes 4 ip.toNat := by
    rw [split, List.drop_left' (length_toBytes _ _)]
  have value : (Ipv4Addr.ofOctets (toBytes 4 ip.toNat)).toNat = ip.toNat % 2 ^ 32 := by
    rw [Ipv4Addr.ofOctets, BitVec.toNat_ofNat, ofBytes_toBytes]
    exact Nat.mod_mod _ _
  have small := ip.isLt
  rw [Ipv6.toIpv4Mapped, front, back, Option.ite_none_right_eq_some, Option.some.injEq,
    toBytes_eq_iff (by rfl), ← BitVec.toNat_inj, value]
  change ip.toNat / 256 ^ 4 % 256 ^ 12 = 0xffff ∧ _ ↔ _
  omega

/-- The low and the second pair of segments. -/
theorem ipv4FromU16Pair_segments (ip : Ipv6Addr) :
    (ipv4FromU16Pair (Ipv6.segment ip 6) (Ipv6.segment ip 7)).toNat = ip.toNat % 2 ^ 32 ∧
      (ipv4FromU16Pair (Ipv6.segment ip 1) (Ipv6.segment ip 2)).toNat =
        ip.toNat / 2 ^ 80 % 2 ^ 32 := by
  simp only [ipv4FromU16Pair_toNat, Ipv6.segment_toNat]
  omega

theorem push_segment_iff (n high : Nat) (low : UInt16) :
    n / 2 ^ 16 = high ∧ n % 2 ^ 16 = low.toNat ↔ n = high * 2 ^ 16 + low.toNat := by
  have small := low.toNat_lt
  omega

/-- The first six segments as one number. -/
theorem segments_eq_iff (ip : Ipv6Addr) (s0 s1 s2 s3 s4 s5 : UInt16) :
    (Ipv6.segment ip 0 == s0 && Ipv6.segment ip 1 == s1 && Ipv6.segment ip 2 == s2 &&
        Ipv6.segment ip 3 == s3 && Ipv6.segment ip 4 == s4 && Ipv6.segment ip 5 == s5) = true ↔
      ip.toNat / 2 ^ 32 =
        ((((s0.toNat * 2 ^ 16 + s1.toNat) * 2 ^ 16 + s2.toNat) * 2 ^ 16 + s3.toNat) * 2 ^ 16 +
          s4.toNat) * 2 ^ 16 + s5.toNat := by
  have first : ip.toNat / 2 ^ 112 % 2 ^ 16 = ip.toNat / 2 ^ 112 := by
    have small := ip.isLt
    omega
  have shift (k : Nat) : ip.toNat / 2 ^ k / 2 ^ 16 = ip.toNat / 2 ^ (k + 16) := by
    rw [Nat.div_div_eq_div_mul, ← Nat.pow_add]
  simp only [Bool.and_eq_true, beq_iff_eq, ← UInt16.toNat_inj, Ipv6.segment_toNat,
    ← push_segment_iff, shift]
  change ((((ip.toNat / 2 ^ 112 % 2 ^ 16 = _ ∧ _) ∧ _) ∧ _) ∧ _) ∧ _ ↔ _
  rw [first]

theorem isCompatible_iff (ip : Ipv6Addr) :
    (Ipv6.segment ip 0 == 0 && Ipv6.segment ip 1 == 0 && Ipv6.segment ip 2 == 0 &&
        Ipv6.segment ip 3 == 0 && Ipv6.segment ip 4 == 0 && Ipv6.segment ip 5 == 0 &&
        !Ipv6.isUnspecified ip && !Ipv6.isLoopback ip) = true ↔
      ip.toNat / 2 ^ 32 = 0 ∧ ip ≠ 0 ∧ ip ≠ 1 := by
  rw [Bool.and_eq_true, Bool.and_eq_true, and_assoc]
  apply and_congr
  · exact segments_eq_iff ip 0 0 0 0 0 0
  · simp only [Ipv6.isUnspecified, Ipv6.isLoopback, Bool.not_eq_true', beq_eq_false_iff_ne]

theorem isNat64_iff (ip : Ipv6Addr) :
    (Ipv6.segment ip 0 == 0x64 && Ipv6.segment ip 1 == 0xff9b && Ipv6.segment ip 2 == 0 &&
        Ipv6.segment ip 3 == 0 && Ipv6.segment ip 4 == 0 && Ipv6.segment ip 5 == 0) = true ↔
      ip.toNat / 2 ^ 32 = 0x0064ff9b0000000000000000 :=
  segments_eq_iff ip 0x64 0xff9b 0 0 0 0

theorem is6to4_iff (ip : Ipv6Addr) :
    (Ipv6.segment ip 0 == 0x2002) = true ↔ ip.toNat / 2 ^ 112 = 0x2002 := by
  have small := ip.isLt
  simp only [beq_iff_eq, ← UInt16.toNat_inj, Ipv6.segment_toNat]
  change ip.toNat / 2 ^ 112 % 2 ^ 16 = 0x2002 ↔ _
  omega

theorem embeddedIpv4_eq_some (ip : Ipv6Addr) (v4 : Ipv4Addr) :
    embeddedIpv4 ip = some v4 ↔
      (ip.toNat / 2 ^ 32 = 0 ∧ ip.toNat % 2 ^ 32 = v4.toNat) ∧ ip ≠ 0 ∧ ip ≠ 1 ∨
      ip.toNat / 2 ^ 32 = 0x0064ff9b0000000000000000 ∧ ip.toNat % 2 ^ 32 = v4.toNat ∨
      ip.toNat / 2 ^ 112 = 0x2002 ∧ ip.toNat / 2 ^ 80 % 2 ^ 32 = v4.toNat := by
  obtain ⟨low, middle⟩ := ipv4FromU16Pair_segments ip
  simp only [embeddedIpv4, isCompatible_iff, isNat64_iff, is6to4_iff]
  split
  · rename_i first
    obtain ⟨high, unspecified, loopback⟩ := first
    rw [Option.some.injEq, ← BitVec.toNat_inj, low]
    constructor
    · intro same
      exact .inl ⟨⟨high, same⟩, unspecified, loopback⟩
    · rintro (⟨⟨-, same⟩, -⟩ | ⟨other, -⟩ | ⟨other, -⟩)
      · exact same
      · omega
      · omega
  · split
    · rename_i high
      rw [Option.some.injEq, ← BitVec.toNat_inj, low]
      constructor
      · intro same
        exact .inr (.inl ⟨high, same⟩)
      · rintro (⟨⟨other, -⟩, -⟩ | ⟨-, same⟩ | ⟨other, -⟩)
        · omega
        · exact same
        · omega
    · split
      · rename_i high
        rw [Option.some.injEq, ← BitVec.toNat_inj, middle]
        constructor
        · intro same
          exact .inr (.inr ⟨high, same⟩)
        · rintro (⟨⟨other, -⟩, -⟩ | ⟨other, -⟩ | ⟨-, same⟩)
          · omega
          · omega
          · exact same
      · rename_i first second third
        simp only [reduceCtorEq, false_iff]
        rintro (⟨⟨high, -⟩, unspecified, loopback⟩ | ⟨high, -⟩ | ⟨high, -⟩)
        · exact first ⟨high, unspecified, loopback⟩
        · exact second high
        · exact third high

/-- The canonical form and the embeddings find an address exactly where one is carried. -/
theorem carries_iff_found (ip : Ipv6Addr) (v4 : Ipv4Addr) :
    Carries ip v4 ↔ Ipv6.toIpv4Mapped ip = some v4 ∨ embeddedIpv4 ip = some v4 := by
  rw [carries_iff, toIpv4Mapped_eq_some, embeddedIpv4_eq_some]

theorem Carries.unique {ip : Ipv6Addr} {v4 v4' : Ipv4Addr} (carried : Carries ip v4)
    (carried' : Carries ip v4') : v4 = v4' := by
  rw [carries_iff] at carried carried'
  apply BitVec.eq_of_toNat_eq
  rcases carried with ⟨high, same⟩ | ⟨⟨high, same⟩, -⟩ | ⟨high, same⟩ | ⟨high, same⟩ <;>
    rcases carried' with ⟨high', same'⟩ | ⟨⟨high', same'⟩, -⟩ | ⟨high', same'⟩ | ⟨high', same'⟩ <;>
      omega

/-- No address of the IPv6 blocks carries an IPv4 address. -/
theorem Carries.not_native {ip : Ipv6Addr} {v4 : Ipv4Addr} (carried : Carries ip v4)
    {block : Block 128} (member : block ∈ refusedBlocks6) : ¬ block.Contains ip := by
  have small := ip.isLt
  intro inside
  have native : ip = 0 ∨ ip = 1 ∨ ip.toNat / 2 ^ 120 = 0xff ∨ ip.toNat / 2 ^ 121 = 0x7e ∨
      ip.toNat / 2 ^ 118 = 0x3fa ∨ ip.toNat / 2 ^ 96 = 0x20010000 := by
    simp only [refusedBlocks6, List.mem_cons, List.not_mem_nil, or_false] at member
    rcases member with rfl | rfl | rfl | rfl | rfl | rfl
    · exact .inl ((contains_full _ _).mp inside)
    · exact .inr (.inl ((contains_full _ _).mp inside))
    · exact .inr (.inr (.inl inside))
    · exact .inr (.inr (.inr (.inl inside)))
    · exact .inr (.inr (.inr (.inr (.inl inside))))
    · exact .inr (.inr (.inr (.inr (.inr inside))))
  rw [carries_iff] at carried
  rcases carried with ⟨high, -⟩ | ⟨⟨high, -⟩, unspecified, loopback⟩ | ⟨high, -⟩ | ⟨high, -⟩ <;>
    rcases native with rfl | rfl | native | native | native | native <;>
      first
      | omega
      | exact absurd rfl unspecified
      | exact absurd rfl loopback
      | exact absurd high (by decide)

/-- Where an address is carried, it alone decides. -/
theorem Carries.refused_iff {ip : Ipv6Addr} {v4 : Ipv4Addr} (carried : Carries ip v4) :
    Refused (.v6 ip) ↔ Refused (.v4 v4) := by
  constructor
  · intro refused
    cases refused with
    | v6 member inside => exact absurd inside (carried.not_native member)
    | carried carried' refused =>
        rw [carried.unique carried']
        exact refused
  · exact .carried carried

theorem isBlockedIp_found {ip : Ipv6Addr} {v4 : Ipv4Addr}
    (found : Ipv6.toIpv4Mapped ip = some v4 ∨
      Ipv6.toIpv4Mapped ip = none ∧ embeddedIpv4 ip = some v4) :
    isBlockedIp (.v6 ip) = isBlockedV4 v4 := by
  rcases found with mapped | ⟨native, embedded⟩
  · simp only [isBlockedIp, IpAddr.toCanonical, mapped]
  · simp only [isBlockedIp, IpAddr.toCanonical, native, embedded]

theorem isBlockedIp_native {ip : Ipv6Addr} (mapped : Ipv6.toIpv4Mapped ip = none)
    (embedded : embeddedIpv4 ip = none) :
    isBlockedIp (.v6 ip) = true ↔ isTeredo ip = true ∨ isBlockedV6Native ip = true := by
  simp only [isBlockedIp, IpAddr.toCanonical, mapped, embedded]
  cases isTeredo ip with
  | true => exact ⟨fun _ => .inl rfl, fun _ => rfl⟩
  | false => exact ⟨.inr, fun either => either.resolve_left Bool.false_ne_true⟩

/-- The guard refuses the reference set and nothing else. -/
theorem isBlockedIp_iff (ip : IpAddr) : isBlockedIp ip = true ↔ Refused ip := by
  cases ip with
  | v4 ip => exact isBlockedV4_iff ip
  | v6 ip =>
      cases mapped : Ipv6.toIpv4Mapped ip with
      | some v4 =>
          have carried : Carries ip v4 := (carries_iff_found ip v4).mpr (.inl mapped)
          rw [isBlockedIp_found (.inl mapped), isBlockedV4_iff, carried.refused_iff]
      | none =>
          cases embedded : embeddedIpv4 ip with
          | some v4 =>
              have carried : Carries ip v4 := (carries_iff_found ip v4).mpr (.inr embedded)
              rw [isBlockedIp_found (.inr ⟨mapped, embedded⟩), isBlockedV4_iff,
                carried.refused_iff]
          | none =>
              rw [isBlockedIp_native mapped embedded, isBlockedV6Native_iff]
              constructor
              · rintro ⟨block, member, inside⟩
                exact .v6 member inside
              · intro refused
                cases refused with
                | v6 member inside => exact ⟨_, member, inside⟩
                | carried carried _ =>
                    rcases (carries_iff_found ip _).mp carried with found | found
                    · cases mapped.symm.trans found
                    · cases embedded.symm.trans found

/-! ## The dialled address -/

section Serving

variable (dns : Nat → String × UInt16 → DnsAnswer) (listens : SocketAddr → Bool)

/-- The address that the header names, by itself or through the one lookup made for it. -/
def Names (net : Net) (addr : SocketAddr) : Prop :=
  ∃ target later, readTarget net.recv = .ok (target, later) ∧
    target.named dns net.lookups.length = .ok addr

theorem checkProxyTarget_refused {raw : SocketAddr} (refused : Refused raw.ip) :
    checkProxyTarget raw false = .error (.blocked raw) := by
  have blocked : isBlockedTarget raw = true := (isBlockedIp_iff raw.ip).mpr refused
  unfold checkProxyTarget
  rw [dif_pos (by rw [blocked]; rfl)]

theorem checkProxyTarget_safe {raw : SocketAddr} (safe : ¬ Refused raw.ip) :
    ∃ checked : CheckedTarget false, checkProxyTarget raw false = .ok checked ∧
      checked.addr = raw := by
  have passed : isBlockedTarget raw = false := by
    rw [← Bool.not_eq_true]
    exact fun blocked => safe ((isBlockedIp_iff raw.ip).mp blocked)
  unfold checkProxyTarget
  rw [dif_neg (by rw [passed]; decide)]
  exact ⟨_, rfl, rfl⟩

theorem dialChecked_exec {allowPrivate : Bool} (target : CheckedTarget allowPrivate) (net : Net) :
    ((dialChecked listens target).exec net).2 =
      { net with connects := net.connects ++ [target.addr] } := by
  change ((if listens target.addr then pure () else throw (.connecting target.addr) :
    Proxy Unit).exec { net with connects := net.connects ++ [target.addr] }).2 = _
  split <;> rfl

/-- The one address dialled is the one address that was resolved and checked, and
it is dialled exactly when it is outside the reference set. -/
theorem proxy_dials_exactly (net : Net) :
    ∃ (lookups : List (String × UInt16)) (dialled : Option SocketAddr), lookups.length ≤ 1 ∧
      ((handleProxyStream dns listens false).exec net).2.lookups = net.lookups ++ lookups ∧
      ((handleProxyStream dns listens false).exec net).2.connects =
        net.connects ++ dialled.toList ∧
      ∀ addr, dialled = some addr ↔ Names dns net addr ∧ ¬ Refused addr.ip := by
  rw [handleProxyStream, Proxy.exec_bind, readHeader_exec]
  cases header : readTarget net.recv with
  | error error =>
      refine ⟨[], none, Nat.zero_le 1, (List.append_nil _).symm, (List.append_nil _).symm, ?_⟩
      intro addr
      simp [Names, header]
  | ok taken =>
      obtain ⟨target, later⟩ := taken
      obtain ⟨lookups, once, resolved⟩ := target.resolve_exec dns { net with recv := later }
      have names : ∀ addr, Names dns net addr ↔ target.named dns net.lookups.length = .ok addr := by
        intro addr
        simp [Names, header]
      refine ⟨lookups, ?_⟩
      simp only [Proxy.exec_bind, resolved, names, Proxy.exec_ofExcept]
      cases target.named dns net.lookups.length with
      | error error => exact ⟨none, once, rfl, (List.append_nil _).symm, by simp⟩
      | ok raw =>
          by_cases refused : Refused raw.ip
          · simp only [checkProxyTarget_refused refused, true_and]
            refine ⟨none, once, (List.append_nil _).symm, ?_⟩
            intro addr
            constructor
            · intro found
              cases found
            · rintro ⟨same, safe⟩
              cases same
              exact absurd refused safe
          · obtain ⟨checked, passed, same⟩ := checkProxyTarget_safe refused
            simp only [passed, dialChecked_exec, same, true_and]
            refine ⟨some raw, once, rfl, ?_⟩
            intro addr
            constructor
            · intro found
              cases found
              exact ⟨rfl, refused⟩
            · rintro ⟨same, -⟩
              cases same
              rfl

end Serving

end LinkP2p.Stream
