import LinkP2p.Lib.Bytes

/-!
# Virtual addresses and layer-3 headers

The mesh lives in `172.24.0.0/16` and `fd24:ac18::/64`. Packets are raw layer-3
byte strings; only the version nibble and the two addresses are read.
-/

namespace LinkP2p.Tun

open LinkP2p.Lib.Bytes

/-- `u32::from(ip)` -/
abbrev Ipv4Addr := BitVec 32

abbrev Ipv6Addr := BitVec 128

/-- The 32 bytes of the public key, compared as bytes, first byte first. -/
abbrev EndpointId := BitVec 256

/-- Addresses a node binds on its TUN and announces in the VIP exchange. -/
structure OwnVips where
  v4 : Ipv4Addr
  v6 : Ipv6Addr
  deriving DecidableEq, Repr

def Ipv4Addr.ofOctets (octets : List UInt8) : Ipv4Addr := BitVec.ofNat 32 (ofBytes octets)

def Ipv4Addr.octets (ip : Ipv4Addr) : List UInt8 := toBytes 4 ip.toNat

def Ipv6Addr.ofOctets (octets : List UInt8) : Ipv6Addr := BitVec.ofNat 128 (ofBytes octets)

def Ipv6Addr.octets (ip : Ipv6Addr) : List UInt8 := toBytes 16 ip.toNat

theorem Ipv4Addr.ofOctets_octets (ip : Ipv4Addr) : Ipv4Addr.ofOctets ip.octets = ip := by
  rw [Ipv4Addr.ofOctets, Ipv4Addr.octets, ofBytes_toBytes, Nat.mod_eq_of_lt]
  · exact BitVec.ofNat_toNat 32 ip
  · exact ip.isLt

theorem Ipv6Addr.ofOctets_octets (ip : Ipv6Addr) : Ipv6Addr.ofOctets ip.octets = ip := by
  rw [Ipv6Addr.ofOctets, Ipv6Addr.octets, ofBytes_toBytes, Nat.mod_eq_of_lt]
  · exact BitVec.ofNat_toNat 128 ip
  · exact ip.isLt

theorem Ipv4Addr.octets_ofOctets {octets : List UInt8} (width : octets.length = 4) :
    (Ipv4Addr.ofOctets octets).octets = octets := by
  have small : ofBytes octets < 2 ^ 32 := by
    have bound := ofBytes_lt octets
    rw [width] at bound
    exact bound
  rw [Ipv4Addr.octets, Ipv4Addr.ofOctets, BitVec.toNat_ofNat, Nat.mod_eq_of_lt small, ← width,
    toBytes_ofBytes]

theorem Ipv6Addr.octets_ofOctets {octets : List UInt8} (width : octets.length = 16) :
    (Ipv6Addr.ofOctets octets).octets = octets := by
  have small : ofBytes octets < 2 ^ 128 := by
    have bound := ofBytes_lt octets
    rw [width] at bound
    exact bound
  rw [Ipv6Addr.octets, Ipv6Addr.ofOctets, BitVec.toNat_ofNat, Nat.mod_eq_of_lt small, ← width,
    toBytes_ofBytes]

/-- `VIP_BASE`: 172.24.0.0 -/
def vipBase : BitVec 32 := 0xAC180000

/-- `VIP_HOST_MASK`: the host part of the /16 -/
def vipHostMask : BitVec 32 := 0x0000FFFF

/-- `VIP6_PREFIX_OCTETS`: fd24:ac18::/64 -/
def vip6PrefixOctets : List UInt8 := [0xfd, 0x24, 0xac, 0x18, 0, 0, 0, 0]

def vipInMesh (ip : Ipv4Addr) : Bool := ip &&& ~~~vipHostMask == vipBase

def vip6InMesh (ip : Ipv6Addr) : Bool := (Ipv6Addr.octets ip).take 8 == vip6PrefixOctets

/-- `pkt[0] >> 4` of a packet that passed the length check -/
def version (pkt : List UInt8) : UInt8 := pkt.headD 0 >>> 4

def ipv4Dst (pkt : List UInt8) : Option Ipv4Addr :=
  if pkt.length < 20 || version pkt != 4 then none
  else some (Ipv4Addr.ofOctets (slice pkt 16 4))

def ipv4Src (pkt : List UInt8) : Option Ipv4Addr :=
  if pkt.length < 20 || version pkt != 4 then none
  else some (Ipv4Addr.ofOctets (slice pkt 12 4))

def ipv6Dst (pkt : List UInt8) : Option Ipv6Addr :=
  if pkt.length < 40 || version pkt != 6 then none
  else some (Ipv6Addr.ofOctets (slice pkt 24 16))

def ipv6Src (pkt : List UInt8) : Option Ipv6Addr :=
  if pkt.length < 40 || version pkt != 6 then none
  else some (Ipv6Addr.ofOctets (slice pkt 8 16))

/-- A packet cannot carry addresses of both families. -/
theorem ipv6Src_eq_none {pkt : List UInt8} {src : Ipv4Addr} (found : ipv4Src pkt = some src) :
    ipv6Src pkt = none := by
  have four : version pkt = 4 := by
    rw [ipv4Src, Option.ite_none_left_eq_some] at found
    by_contra other
    exact found.1 (by simp [other])
  rw [ipv6Src, four]
  exact if_pos (by simp)

theorem ipv4Dst_eq_none {pkt : List UInt8} {dst : Ipv6Addr} (found : ipv6Dst pkt = some dst) :
    ipv4Dst pkt = none := by
  have six : version pkt = 6 := by
    rw [ipv6Dst, Option.ite_none_left_eq_some] at found
    by_contra other
    exact found.1 (by simp [other])
  rw [ipv4Dst, six]
  exact if_pos (by simp)

/-- No packet has a source of both families. -/
theorem ipv4Src_eq_none {pkt : List UInt8} {src : Ipv6Addr} (from6 : ipv6Src pkt = some src) :
    ipv4Src pkt = none := by
  cases found : ipv4Src pkt with
  | none => rfl
  | some other => cases (ipv6Src_eq_none found).symm.trans from6

theorem ipv4Src_isSome (pkt : List UInt8) : (ipv4Src pkt).isSome = (ipv4Dst pkt).isSome := by
  rw [ipv4Src, ipv4Dst]
  split <;> rfl

theorem ipv6Src_isSome (pkt : List UInt8) : (ipv6Src pkt).isSome = (ipv6Dst pkt).isSome := by
  rw [ipv6Src, ipv6Dst]
  split <;> rfl

/-- A packet is of one family, with both addresses, or of none. -/
theorem family_cases (pkt : List UInt8) :
    (∃ src dst, ipv4Src pkt = some src ∧ ipv4Dst pkt = some dst) ∨
      (∃ src dst, ipv6Src pkt = some src ∧ ipv6Dst pkt = some dst) ∨
      ipv4Src pkt = none ∧ ipv4Dst pkt = none ∧ ipv6Src pkt = none ∧ ipv6Dst pkt = none := by
  have four := ipv4Src_isSome pkt
  have six := ipv6Src_isSome pkt
  cases from4 : ipv4Src pkt with
  | some src =>
      rw [from4] at four
      obtain ⟨dst, to4⟩ := Option.isSome_iff_exists.mp four.symm
      exact .inl ⟨src, dst, rfl, to4⟩
  | none =>
      rw [from4] at four
      have to4 : ipv4Dst pkt = none := Option.isNone_iff_eq_none.mp (by simpa using four)
      cases from6 : ipv6Src pkt with
      | some src =>
          rw [from6] at six
          obtain ⟨dst, to6⟩ := Option.isSome_iff_exists.mp six.symm
          exact .inr (.inl ⟨src, dst, rfl, to6⟩)
      | none =>
          rw [from6] at six
          have to6 : ipv6Dst pkt = none := Option.isNone_iff_eq_none.mp (by simpa using six)
          exact .inr (.inr ⟨rfl, to4, rfl, to6⟩)

end LinkP2p.Tun
