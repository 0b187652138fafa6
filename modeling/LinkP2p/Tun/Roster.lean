import LinkP2p.Tun.Packet

/-!
# Roster messages

The hub tells its spokes which endpoint has which addresses over a reliable
control stream: one snapshot, then joins and leaves.
-/

namespace LinkP2p.Tun

structure RosterEntry where
  vip : Ipv4Addr
  vip6 : Ipv6Addr
  id : EndpointId
  deriving DecidableEq, Repr

inductive RosterMsg where
  | snapshot (entries : List RosterEntry)
  | joined (entry : RosterEntry)
  | left (entry : RosterEntry)
  deriving DecidableEq, Repr

/-- `ROSTER_MAGIC`: `LPR3` -/
def rosterMagic : List UInt8 := [0x4c, 0x50, 0x52, 0x33]

/-- `MSG_HELLO` -/
def msgHello : UInt8 := 4

/-- `HELLO_FLAG_HIDDEN` -/
def helloFlagHidden : UInt8 := 0x01

def encodeHello (hidden : Bool) : List UInt8 :=
  rosterMagic ++ [msgHello, if hidden then helloFlagHidden else 0]

/-- `read_hello` on the bytes that have arrived; `none` is its error, and also
the timeout around it. -/
def readHello (arrived : List UInt8) : Option Bool :=
  if arrived.length < 6 then none
  else if arrived.take 4 ≠ rosterMagic then none
  else if arrived.getD 4 0 ≠ msgHello then none
  else some (arrived.getD 5 0 &&& helloFlagHidden ≠ 0)

/-- Exactly a HELLO that arrives whole is read, with the flag it was sent with. -/
theorem readHello_encodeHello (hidden : Bool) {arrived : List UInt8}
    (sent : arrived <+: encodeHello hidden) :
    readHello arrived = if arrived = encodeHello hidden then some hidden else none := by
  have bound : arrived.length ≤ 6 := by
    have bound := sent.length_le
    cases hidden <;> exact bound
  by_cases whole : arrived.length = 6
  · have same : arrived = encodeHello hidden := sent.eq_of_length (by cases hidden <;> exact whole)
    rw [if_pos same, same]
    cases hidden <;> rfl
  · rw [if_neg fun same => whole (by rw [same]; cases hidden <;> rfl), readHello]
    exact if_pos (by omega)

/-- `ROSTER_MAX_ENTRIES`: `encode_snapshot` cuts a longer list off. -/
def rosterMaxEntries : Nat := 4096

/-- The message that `encode_snapshot` writes. -/
def encodeSnapshot (entries : List RosterEntry) : RosterMsg :=
  .snapshot (entries.take rosterMaxEntries)

end LinkP2p.Tun
