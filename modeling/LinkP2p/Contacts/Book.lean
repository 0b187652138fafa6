import LinkP2p.Identity.KeyFile
import LinkP2p.Tun.Packet

/-!
# The contact book

Nicknames stand for endpoint ids. A token of the command line is a nickname, an id
or a short code, and is looked up in this order.
-/

namespace LinkP2p.Contacts

open LinkP2p.Identity (Text isWhitespace trim trim_trim utf8Encode)
open LinkP2p.Tun (EndpointId Ipv4Addr Ipv6Addr)

/-- `eq_ignore_ascii_case` -/
def eqIgnoreAsciiCase (a b : Text) : Bool := a.map Char.toLower == b.map Char.toLower

/-- What `iroh` does with ids: `FromStr`, `Display` and `from_bytes`. -/
structure Iroh where
  parse : Text → Option EndpointId
  display : EndpointId → Text
  fromBytes : List UInt8 → Option EndpointId

inductive BookError where
  /-- invalid character in short code -/
  | invalidCharacter
  /-- '{token}' is not a contact name, EndpointId, or short code -/
  | notAToken (token : Text)
  /-- short code check digit mismatch (typo?) -/
  | checkDigitMismatch
  /-- invalid EndpointId in short code -/
  | invalidIdInShortCode
  /-- contact has invalid EndpointId '{id}' -/
  | invalidContactId (id : Text)
  /-- contact has invalid address '{addr}' -/
  | invalidContactAddr (addr : Text)
  /-- `split_at` cuts a character in half: the program panics. -/
  | splitInsideChar
  deriving DecidableEq, Repr

/-! ## Socket addresses

A reader takes a value off the front of the text, or fails. -/

inductive SocketAddr where
  | v4 (ip : Ipv4Addr) (port : BitVec 16)
  | v6 (ip : Ipv6Addr) (port : BitVec 16) (scopeId : BitVec 32)
  deriving DecidableEq, Repr

def toDigit (radix : Nat) (c : Char) : Option Nat :=
  let n := c.toNat
  let digit :=
    if 48 ≤ n ∧ n ≤ 57 then n - 48
    else if 97 ≤ n ∧ n ≤ 122 then n - 87
    else if 65 ≤ n ∧ n ≤ 90 then n - 55
    else radix
  if digit < radix then some digit else none

def isDigit (radix : Nat) (c : Char) : Bool := (toDigit radix c).isSome

/-- `read_number`: a number below `bound`, of at most `maxDigits` digits if there is a limit. -/
def readNumber (radix bound : Nat) (maxDigits : Option Nat) (allowZeroPrefix : Bool)
    (text : Text) : Option (Nat × Text) :=
  let digits := text.takeWhile (isDigit radix)
  let value := digits.foldl (fun value c => value * radix + (toDigit radix c).getD 0) 0
  if digits = [] || maxDigits.any (· < digits.length) ||
      (!allowZeroPrefix && digits.head? = some '0' && 1 < digits.length) || bound ≤ value then none
  else some (value, text.drop digits.length)

/-- `read_given_char` -/
def readGivenChar (target : Char) : Text → Option Text
  | c :: rest => if c = target then some rest else none
  | [] => none

/-- `read_separator`: from the second item on, the separator comes first. -/
def readSeparator {α : Type} (sep : Char) (index : Nat) (inner : Text → Option (α × Text))
    (text : Text) : Option (α × Text) :=
  if index = 0 then inner text else (readGivenChar sep text).bind inner

/-- `read_ipv4_addr`, as four octets in one number. -/
def readIpv4Addr (text : Text) : Option (Nat × Text) :=
  (List.range 4).foldlM (fun state index =>
    (readSeparator '.' index (readNumber 10 256 (some 3) false) state.2).map fun (octet, rest) =>
      (state.1 * 256 + octet, rest)) (0, text)

/-- `read_groups`: the groups read, and whether they end in an IPv4 address. -/
def readGroups (limit : Nat) : Nat → Text → List Nat × Bool × Text
  | 0, text => ([], false, text)
  | left + 1, text =>
      let index := limit - (left + 1)
      let embedded :=
        if index + 1 < limit then readSeparator ':' index readIpv4Addr text else none
      match embedded with
      | some (ip, rest) => ([ip / 65536, ip % 65536], true, rest)
      | none =>
          match readSeparator ':' index (readNumber 16 65536 (some 4) true) text with
          | none => ([], false, text)
          | some (group, rest) =>
              let (groups, ipv4, rest) := readGroups limit left rest
              (group :: groups, ipv4, rest)

/-- `read_ipv6_addr`, as its eight groups. -/
def readIpv6Addr (text : Text) : Option (List Nat × Text) :=
  let (head, ipv4, rest) := readGroups 8 8 text
  if head.length = 8 then some (head, rest)
  -- an IPv4 part is not allowed before the double colon
  else if ipv4 then none
  else
    ((readGivenChar ':' rest).bind (readGivenChar ':')).map fun rest =>
      let limit := 8 - (head.length + 1)
      let (tail, _, rest) := readGroups limit limit rest
      (head ++ List.replicate (8 - head.length - tail.length) 0 ++ tail, rest)

def readPort (text : Text) : Option (Nat × Text) :=
  (readGivenChar ':' text).bind (readNumber 10 65536 none true)

def readSocketAddrV4 (text : Text) : Option (SocketAddr × Text) :=
  (readIpv4Addr text).bind fun (ip, rest) =>
    (readPort rest).map fun (port, rest) => (.v4 (.ofNat 32 ip) (.ofNat 16 port), rest)

def readSocketAddrV6 (text : Text) : Option (SocketAddr × Text) :=
  ((readGivenChar '[' text).bind readIpv6Addr).bind fun (groups, rest) =>
    let (scopeId, rest) :=
      ((readGivenChar '%' rest).bind (readNumber 10 (2 ^ 32) none true)).getD (0, rest)
    ((readGivenChar ']' rest).bind readPort).map fun (port, rest) =>
      (.v6 (.ofNat 128 (groups.foldl (fun value group => value * 65536 + group) 0))
        (.ofNat 16 port) (.ofNat 32 scopeId), rest)

/-- `SocketAddr::from_str` -/
def parseSocketAddr (text : Text) : Option SocketAddr :=
  ((readSocketAddrV4 text).or (readSocketAddrV6 text)).bind fun (addr, rest) =>
    if rest = [] then some addr else none

example : parseSocketAddr "[fd24:ac18::1%2]:4433".toList =
    some (.v6 0xfd24ac18000000000000000000000001 4433 2) := by decide +kernel

/-! ## Short codes -/

/-- `CROCKFORD` -/
def crockford : List UInt8 := "0123456789ABCDEFGHJKMNPQRSTVWXYZ".toList.map fun c => .ofNat c.toNat

def checkSymbol (data : List UInt8) : UInt8 :=
  let x : UInt32 := data.foldl (fun x b => x * 31 + b.toUInt32) 0
  crockford.getD (x % 32).toNat 0

/-- The loop of `decode_crockford` over the characters: the bits in `buf` and how many of
them are not yet in a byte. -/
def decodeBits : UInt32 → Nat → Text → Except BookError (List UInt8)
  | _, _, [] => .ok []
  | buf, nbits, c :: rest =>
      -- `u as u8` keeps the low eight bits of the code point
      match crockford.idxOf? (.ofNat c.toUpper.toNat) with
      | none => .error .invalidCharacter
      | some v =>
          let buf := buf <<< 5 ||| .ofNat v
          let nbits := nbits + 5
          -- fewer than eight bits wait, so at most one byte is full
          if 8 ≤ nbits then
            (decodeBits buf (nbits - 8) rest).map fun out =>
              (buf >>> .ofNat (nbits - 8)).toUInt8 :: out
          else decodeBits buf nbits rest

def decodeCrockford (text : Text) : Except BookError (List UInt8) := decodeBits 0 0 text

/-- The token without dashes and white space, in the letters of the alphabet. -/
def compact (token : Text) : Text :=
  (token.filter fun c => c != '-' && !isWhitespace c).map fun c =>
    match c.toUpper with
    | 'I' | 'L' => '1'
    | 'O' => '0'
    | other => other

/-- The id that 32 decoded bytes stand for. -/
def idOfBytes (iroh : Iroh) (bytes : List UInt8) : Except BookError EndpointId :=
  match iroh.fromBytes (bytes.take 32) with
  | some id => .ok id
  | none => .error .invalidIdInShortCode

/-- A code of 52 characters and a check symbol. -/
def parseChecked (iroh : Iroh) (token : Text) (body : Text) (check : Char) :
    Except BookError EndpointId :=
  -- a last character of several bytes is cut in half
  if 128 ≤ check.toNat then .error .splitInsideChar
  else
    match decodeCrockford body with
    | .error e => .error e
    | .ok bytes =>
        if bytes.length < 32 then .error (.notAToken token)
        else if (checkSymbol (bytes.take 32)).toNat ≠ check.toNat then .error .checkDigitMismatch
        else idOfBytes iroh bytes

/-- A code without a check symbol. -/
def parseLegacy (iroh : Iroh) (token : Text) (compact : Text) : Except BookError EndpointId :=
  match decodeCrockford compact with
  | .error _ => .error (.notAToken token)
  | .ok bytes => if bytes.length < 32 then .error (.notAToken token) else idOfBytes iroh bytes

def parseEndpointToken (iroh : Iroh) (token : Text) : Except BookError EndpointId :=
  match iroh.parse (trim token) with
  | some id => .ok id
  | none =>
      let compact := compact (trim token)
      if compact.length = 53 then
        parseChecked iroh token compact.dropLast (compact.getLastD '0')
      else if compact.length = 52 then parseLegacy iroh token compact
      else .error (.notAToken token)

/-! ## The book -/

structure Contact where
  id : Text
  relays : List Text
  addrs : List Text
  deriving DecidableEq, Repr

/-- A map from nicknames, in their order. -/
structure ContactBook where
  contacts : List (Text × Contact)
  sorted : (contacts.map Prod.fst).Pairwise (· < ·)

structure ResolvedPeer where
  id : EndpointId
  relays : List Text
  addrs : List SocketAddr
  name : Option Text
  deriving DecidableEq, Repr

/-- The addresses of a contact, up to the first that does not parse. -/
def parseAddrs : List Text → Except BookError (List SocketAddr)
  | [] => .ok []
  | a :: rest =>
      match parseSocketAddr a with
      | none => .error (.invalidContactAddr a)
      | some addr => (parseAddrs rest).map (addr :: ·)

def contactToResolved (iroh : Iroh) (name : Option Text) (c : Contact) :
    Except BookError ResolvedPeer :=
  match iroh.parse c.id with
  | none => .error (.invalidContactId c.id)
  | some id => (parseAddrs c.addrs).map fun addrs => ⟨id, c.relays, addrs, name⟩

/-- The contact that a key names: exactly, or else the first that it names in another case. -/
def ContactBook.find (book : ContactBook) (key : Text) : Option (Text × Contact) :=
  (book.contacts.find? fun entry => entry.1 == key).or
    (book.contacts.find? fun entry => eqIgnoreAsciiCase entry.1 key)

def resolve (iroh : Iroh) (book : ContactBook) (target : Text) : Except BookError ResolvedPeer :=
  match book.find (trim target) with
  | some (name, c) => contactToResolved iroh (some name) c
  | none => (parseEndpointToken iroh (trim target)).map fun id => ⟨id, [], [], none⟩

/-- The first nickname of an id. -/
def nameForId (iroh : Iroh) (book : ContactBook) (id : EndpointId) : Option Text :=
  (book.contacts.find? fun entry =>
    entry.2.id == iroh.display id || eqIgnoreAsciiCase entry.2.id (iroh.display id)).map Prod.fst

/-! ## The ring policy -/

def isKnownContact (iroh : Iroh) (book : ContactBook) (peer : EndpointId) : Bool :=
  (nameForId iroh book peer).isSome

def resolvePeerToken (iroh : Iroh) (book : ContactBook) (target : Text) :
    Except BookError EndpointId :=
  (resolve iroh book target).map ResolvedPeer.id

/-- Fails only by a panic. -/
def matchPeerToken (iroh : Iroh) (book : ContactBook) (token : Text) (peer : EndpointId) :
    Except BookError Bool :=
  if eqIgnoreAsciiCase token (iroh.display peer) then .ok true
  else
    match parseEndpointToken iroh token with
    | .ok id => .ok (id == peer)
    | .error .splitInsideChar => .error .splitInsideChar
    | .error _ => .ok ((nameForId iroh book peer).any fun name => eqIgnoreAsciiCase name token)

end LinkP2p.Contacts
