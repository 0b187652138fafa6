import LinkP2p.Lib.Failing
import LinkP2p.Lib.Wire
import LinkP2p.Tun.Packet

/-!
# The target of a proxied stream

In proxy mode the first bytes of a stream name the target to dial, as an address
or as a domain name that the serving side resolves.
-/

namespace LinkP2p.Stream

open LinkP2p.Lib LinkP2p.Lib.Bytes LinkP2p.Lib.Wire LinkP2p.Tun

inductive IpAddr where
  | v4 (ip : Ipv4Addr)
  | v6 (ip : Ipv6Addr)
  deriving DecidableEq, Repr

/-- `std::net::SocketAddr`; the last two fields are 0 except in a resolver's answer. -/
inductive SocketAddr where
  | v4 (ip : Ipv4Addr) (port : UInt16)
  | v6 (ip : Ipv6Addr) (port : UInt16) (flowinfo scopeId : UInt32)
  deriving DecidableEq, Repr

def SocketAddr.ip : SocketAddr → IpAddr
  | .v4 ip _ => .v4 ip
  | .v6 ip .. => .v6 ip

def SocketAddr.new : IpAddr → UInt16 → SocketAddr
  | .v4 ip, port => .v4 ip port
  | .v6 ip, port => .v6 ip port 0 0

inductive Target where
  | addr (addr : SocketAddr)
  | domain (host : String) (port : UInt16)
  deriving DecidableEq, Repr

/-- What `lookup_host` says within the timeout. -/
inductive DnsAnswer where
  | timedOut
  | failed
  | addrs (addrs : List SocketAddr)
  deriving DecidableEq, Repr

inductive ProxyError where
  | readingHeader
  | earlyEof
  | nonUtf8Domain
  | unknownAddressType (other : UInt8)
  | dnsTimedOut (host : String)
  | resolving (host : String)
  | noAddresses (host : String)
  | blocked (target : SocketAddr)
  | connecting (addr : SocketAddr)
  deriving DecidableEq, Repr

def ProxyError.text (display : SocketAddr → String) : ProxyError → String
  | .readingHeader => "reading target header"
  | .earlyEof => "early eof"
  | .nonUtf8Domain => "non-utf8 domain in target header"
  | .unknownAddressType other => "unknown address type " ++ toString other ++ " in target header"
  | .dnsTimedOut host => "timed out resolving " ++ host ++ " after 10 seconds"
  | .resolving host => "resolving " ++ host
  | .noAddresses host => "no addresses for " ++ host
  | .blocked target =>
      "target " ++ display target ++ " is in a private/loopback/link-local range; " ++
        "blocked in proxy mode (use --allow-private to permit)"
  | .connecting addr => "connecting to " ++ display addr

/-- `read_u8` -/
def readU8 {ε : Type} (eof : ε) : Reader ε UInt8 UInt8 := do
  let byte ← readExact eof 1
  pure (byte.headD 0)

/-- `read_u16` -/
def readU16 {ε : Type} (eof : ε) : Reader ε UInt8 UInt16 := do
  let bytes ← readExact eof 2
  pure (UInt16.ofNat (ofBytes bytes))

/-- `read_target`; a length byte is never above 255. -/
def readTarget : Reader ProxyError UInt8 Target := do
  let kind ← readU8 .readingHeader
  if kind = 1 then do
    let ip ← readExact .earlyEof 4
    let port ← readU16 .earlyEof
    pure (.addr (.new (.v4 (.ofOctets ip)) port))
  else if kind = 4 then do
    let ip ← readExact .earlyEof 16
    let port ← readU16 .earlyEof
    pure (.addr (.new (.v6 (.ofOctets ip)) port))
  else if kind = 3 then do
    let len ← readU8 .earlyEof
    let domain ← readExact .earlyEof len.toNat
    match String.fromUTF8? ⟨domain.toArray⟩ with
    | none => throw .nonUtf8Domain
    | some host => do
        let port ← readU16 .earlyEof
        pure (.domain host port)
  else throw (.unknownAddressType kind)

/-! ## What the serving side does -/

/-- One proxied stream: its bytes to come, the name lookups made and the
addresses a TCP connection was opened to. -/
structure Net where
  recv : List (List UInt8)
  lookups : List (String × UInt16)
  connects : List SocketAddr
  deriving Repr

abbrev Proxy := ExceptT ProxyError (StateM Net)

def Proxy.exec {α : Type} (action : Proxy α) (net : Net) : Except ProxyError α × Net :=
  action.run.run net

theorem Proxy.exec_bind {α β : Type} (action : Proxy α) (next : α → Proxy β) (net : Net) :
    (action >>= next).exec net =
      match action.exec net with
      | (.ok value, later) => (next value).exec later
      | (.error error, later) => (.error error, later) := by
  cases done : action.exec net with
  | mk result later =>
      cases result with
      | ok value => exact Failing.exec_bind_ok done next
      | error error => exact Failing.exec_bind_error done next

theorem Proxy.exec_ofExcept {α : Type} (result : Except ProxyError α) (net : Net) :
    (ofExcept result : Proxy α).exec net = (result, net) := Failing.exec_ofExcept result net

def readHeader : Proxy Target := do
  let net ← get
  match readTarget net.recv with
  | .error error => throw error
  | .ok (target, later) => do
      set { net with recv := later }
      pure target

theorem readHeader_exec (net : Net) :
    readHeader.exec net =
      match readTarget net.recv with
      | .ok (target, later) => (.ok target, { net with recv := later })
      | .error error => (.error error, net) := by
  change (match readTarget net.recv with
    | .error error => (throw error : Proxy Target)
    | .ok (target, later) => do
        set { net with recv := later }
        pure target).exec net = _
  cases readTarget net.recv with
  | ok taken => rfl
  | error error => rfl

section Resolving

-- The answer to each lookup in turn; a name may be answered anew every time.
variable (dns : Nat → String × UInt16 → DnsAnswer)

/-- The first address of an answer. -/
def firstAddr (host : String) : DnsAnswer → Except ProxyError SocketAddr
  | .timedOut => .error (.dnsTimedOut host)
  | .failed => .error (.resolving host)
  | .addrs [] => .error (.noAddresses host)
  | .addrs (addr :: _) => .ok addr

def Target.resolve : Target → Proxy SocketAddr
  | .addr a => pure a
  | .domain host port => do
      let net ← get
      set { net with lookups := net.lookups ++ [(host, port)] }
      ofExcept (firstAddr host (dns net.lookups.length (host, port)))

/-- The address a target stands for when `count` lookups came before. -/
def Target.named (count : Nat) : Target → Except ProxyError SocketAddr
  | .addr a => .ok a
  | .domain host port => firstAddr host (dns count (host, port))

/-- A name is looked up once, and only the first answer is used. -/
theorem Target.resolve_exec (target : Target) (net : Net) :
    ∃ lookups : List (String × UInt16), lookups.length ≤ 1 ∧
      (target.resolve dns).exec net =
        (target.named dns net.lookups.length,
          { net with lookups := net.lookups ++ lookups }) := by
  cases target with
  | addr a =>
      refine ⟨[], Nat.zero_le 1, ?_⟩
      rw [List.append_nil]
      rfl
  | domain host port =>
      exact ⟨[(host, port)], Nat.le_refl 1, Proxy.exec_ofExcept _ _⟩

end Resolving

end LinkP2p.Stream
