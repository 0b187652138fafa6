import LinkP2p.Stream.Handshake
import LinkP2p.Stream.Ssrf

/-!
# What a forwarded stream begins with

The dialing side opens every stream with a header: the hello `LPF1` for a fixed target, or the
target that a SOCKS5 client asks for. The serving side reads the header that its own mode
expects before it connects anywhere, and pipes what stands behind it.
-/

namespace LinkP2p.Stream.Forwarding

open LinkP2p.Lib.Failing LinkP2p.Lib.Wire LinkP2p.Stream.Socks

/-! ## The dialing side -/

/-- `STREAM_HELLO`: `LPF1` -/
def streamHello : List UInt8 := [0x4c, 0x50, 0x46, 0x31]

/-- `connect --listen` or `--stdio`, and `connect --socks5`. -/
inductive LocalMode where
  | listen
  | socks5
  deriving DecidableEq, Repr

inductive OpenError where
  | handshake (error : HandshakeError)
  | writing (error : WriteError)
  deriving DecidableEq, Repr

/-- What is written on the stream ahead of the pipe, on a stream that takes it all, and what the
client will still deliver to the pipe. -/
def openStream (recv : List (List UInt8)) :
    LocalMode → Except OpenError (List UInt8 × List (List UInt8))
  | .listen => .ok (streamHello, recv)
  | .socks5 =>
      match acceptHandshake.exec ⟨recv, []⟩ with
      | (.error error, _) => .error (.handshake error)
      | (.ok target, client) =>
          match writeTarget none target [] with
          | (.error error, _) => .error (.writing error)
          | (.ok _, header) => .ok (header, client.recv)

/-! ## The serving side -/

inductive ServeMode where
  | forward (addr : SocketAddr)
  | proxy (allowPrivate : Bool)
  deriving DecidableEq, Repr

inductive StreamError where
  | readingHello
  | badHello (hello : List UInt8)
  | proxy (error : ProxyError)
  deriving DecidableEq, Repr

/-- `{:02x}` -/
def hexByte (byte : UInt8) : String :=
  let digit (n : Nat) : Char := "0123456789abcdef".toList.getD n '0'
  String.ofList [digit (byte.toNat / 16), digit (byte.toNat % 16)]

def StreamError.text (display : SocketAddr → String) : StreamError → String
  | .readingHello => "reading stream hello"
  | .badHello hello =>
      "bad stream hello (expected LPF1, got " ++ String.join (hello.map hexByte) ++ ")"
  | .proxy error => error.text display

/-- `read_stream_hello` -/
def readStreamHello : Reader StreamError UInt8 Unit := do
  let hello ← readExact .readingHello 4
  if hello = streamHello then pure () else throw (.badHello hello)

abbrev Serving := Action StreamError Net

def readHello : Serving Unit := do
  let net ← get
  match readStreamHello net.recv with
  | .error error => throw error
  | .ok ((), later) => set { net with recv := later }

section

variable (dns : Nat → String × UInt16 → DnsAnswer) (listens : SocketAddr → Bool)

/-- `TcpStream::connect` -/
def connectTo (addr : SocketAddr) : Serving Unit := do
  modify fun net => { net with connects := net.connects ++ [addr] }
  if listens addr then pure () else throw (.proxy (.connecting addr))

/-- The proxy's errors among those of a stream. -/
def liftProxy (action : Proxy Unit) : Serving Unit := do
  let net ← get
  let done := action.exec net
  set done.2
  match done.1 with
  | .ok () => pure ()
  | .error error => throw (.proxy error)

/-- `handle_forward_stream`, up to the piping of bytes. -/
def handleForwardStream : ServeMode → Serving Unit
  | .forward addr => do
      readHello
      connectTo listens addr
  | .proxy allowPrivate => liftProxy (handleProxyStream dns listens allowPrivate)

/-! ## What the two ends agree on -/

/-- The names that resolving a target looks up. -/
def asked : Target → List (String × UInt16)
  | .addr _ => []
  | .domain host port => [(host, port)]

/-- The guard lets the address through. -/
def Allowed (allowPrivate : Bool) (addr : SocketAddr) : Prop :=
  allowPrivate = true ∨ ¬ Refused addr.ip

/-- The client asks for the target, and sends the rest behind its request. -/
def Asks (recv : List (List UInt8)) (target : Target) (rest : List UInt8) : Prop :=
  ∃ greeting request, Offers greeting ∧ Request target request ∧
    recv.flatten = greeting ++ request ++ rest

/-- The addresses that a stream of the client can lead to. -/
inductive Reaches (recv : List (List UInt8)) : LocalMode → ServeMode → SocketAddr → Prop
  | fixed (addr : SocketAddr) : Reaches recv .listen (.forward addr) addr
  | named {target : Target} {rest : List UInt8} {allowPrivate : Bool} {addr : SocketAddr} :
      Asks recv target rest → target.named dns 0 = .ok addr → Allowed allowPrivate addr →
        Reaches recv .socks5 (.proxy allowPrivate) addr

/-- What comes of a stream on the serving side, and what is still to be piped on both. -/
structure Carried (recv later : List (List UInt8)) (payload : List UInt8) (mode : LocalMode)
    (serve : ServeMode) (result : Except StreamError Unit) (net : Net) : Prop where
  once : net.connects.length ≤ 1
  connects : ∀ addr, addr ∈ net.connects ↔ Reaches dns recv mode serve addr
  lookups : ∀ name ∈ net.lookups, (∃ allowPrivate, serve = .proxy allowPrivate) ∧
    Asks recv (.domain name.1 name.2) later.flatten
  success : result = .ok () ↔ ∃ addr, Reaches dns recv mode serve addr ∧ listens addr = true
  /-- Nothing of the header is piped, and nothing behind it is lost. -/
  payload : result = .ok () → net.recv.flatten = payload

end

section

variable {dns : Nat → String × UInt16 → DnsAnswer} {listens : SocketAddr → Bool}

/-! ## The dialing side -/

/-- The header of a SOCKS5 stream is the code of what the client asked for. -/
theorem openStream_socks5 {recv later : List (List UInt8)} {header : List UInt8}
    (opened : openStream recv .socks5 = .ok (header, later)) :
    ∃ target, Asks recv target later.flatten ∧ target.Code header := by
  have accepted := accepted_iff recv
  rw [openStream] at opened
  split at opened
  · cases opened
  · rename_i target client run
    rw [run] at accepted
    obtain ⟨greeting, request, offers, requests, split⟩ := (accepted target _).mp ⟨rfl, rfl⟩
    obtain ⟨reserved, address, coded, same⟩ := id requests
    rw [coded.writes []] at opened
    cases opened
    exact ⟨target, ⟨greeting, request, offers, requests, split⟩, coded⟩

/-- A client asks for one target. -/
theorem Asks.unique {recv : List (List UInt8)} {target target' : Target}
    {rest rest' : List UInt8} (asks : Asks recv target rest) (asks' : Asks recv target' rest') :
    target = target' ∧ rest = rest' := by
  obtain ⟨greeting, request, offers, requests, split⟩ := asks
  obtain ⟨greeting', request', offers', requests', split'⟩ := asks'
  rw [List.append_assoc] at split split'
  have tail := offers.unique offers' (split.symm.trans split')
  exact requests.unique requests' tail

/-! ## The serving side of a fixed forward -/

theorem reads_hello : Reads readStreamHello fun bytes _ => bytes = streamHello := by
  refine ((Reads.readExact StreamError.readingHello 4).bind fun hello => Reads.ite
    (fun _ => Reads.pure ()) fun _ => Reads.throw (StreamError.badHello hello)).congr ?_
  intro bytes value
  constructor
  · rintro ⟨_, _, hello, rfl, ⟨-, rfl⟩, ⟨same, rfl, -⟩ | ⟨-, none_⟩⟩
    · rw [List.append_nil, same]
    · exact none_.elim
  · rintro rfl
    exact ⟨streamHello, [], streamHello, rfl, ⟨rfl, rfl⟩, .inl ⟨rfl, rfl, rfl⟩⟩

theorem readHello_exec (net : Net) :
    readHello.exec net =
      match readStreamHello net.recv with
      | .ok ((), later) => (.ok (), { net with recv := later })
      | .error error => (.error error, net) := by
  change (match readStreamHello net.recv with
    | .error error => (throw error : Serving Unit)
    | .ok ((), later) => set { net with recv := later }).exec net = _
  cases readStreamHello net.recv with
  | ok taken => rfl
  | error error => rfl

/-- A stream that begins with the code of a target is no fixed forward. -/
theorem readHello_target {target : Target} {header : List UInt8} (coded : target.Code header)
    (chunks : List (List UInt8)) (payload : List UInt8)
    (delivered : chunks.flatten = header ++ payload) :
    ∃ error, readStreamHello chunks = .error error := by
  cases read : readStreamHello chunks with
  | error error => exact ⟨error, rfl⟩
  | ok taken =>
      obtain ⟨bytes, rfl, split⟩ := (reads_hello chunks taken.1 taken.2.flatten).mp ⟨_, read, rfl⟩
      obtain ⟨kind, rest, rfl, form⟩ := coded.form
      obtain ⟨same, -⟩ := List.cons.inj (split.symm.trans delivered)
      obtain ⟨rfl, -⟩ | ⟨rfl, -⟩ | ⟨rfl, -⟩ := form <;> cases same

theorem connectTo_exec (addr : SocketAddr) (net : Net) :
    (connectTo listens addr).exec net =
      (if listens addr then .ok () else .error (.proxy (.connecting addr)),
        { net with connects := net.connects ++ [addr] }) := by
  change (if listens addr then pure () else throw (.proxy (.connecting addr)) :
    Serving Unit).exec { net with connects := net.connects ++ [addr] } = _
  split <;> rfl

/-! ## The serving side of a proxy -/

theorem liftProxy_exec (action : Proxy Unit) (net : Net) :
    (liftProxy action).exec net =
      ((action.exec net).1.mapError StreamError.proxy, (action.exec net).2) := by
  change (match (action.exec net).1 with
    | .ok () => (pure () : Serving Unit)
    | .error error => throw (StreamError.proxy error)).exec (action.exec net).2 = _
  cases (action.exec net).1 with
  | ok value => rfl
  | error error => rfl

theorem resolve_asked (target : Target) (net : Net) :
    (target.resolve dns).exec net =
      (target.named dns net.lookups.length,
        { net with lookups := net.lookups ++ asked target }) := by
  cases target with
  | addr a => rw [asked, List.append_nil]; rfl
  | domain host port => exact Proxy.exec_ofExcept _ _

theorem checkProxyTarget_allowed {allowPrivate : Bool} {raw : SocketAddr}
    (allowed : Allowed allowPrivate raw) :
    ∃ checked : CheckedTarget allowPrivate, checkProxyTarget raw allowPrivate = .ok checked ∧
      checked.addr = raw := by
  cases allowPrivate with
  | true => exact ⟨⟨raw, rfl⟩, rfl, rfl⟩
  | false => exact checkProxyTarget_safe (allowed.resolve_left Bool.false_ne_true)

theorem checkProxyTarget_denied {allowPrivate : Bool} {raw : SocketAddr}
    (denied : ¬ Allowed allowPrivate raw) :
    checkProxyTarget raw allowPrivate = .error (.blocked raw) := by
  obtain ⟨strict, refused⟩ := not_or.mp denied
  rw [Bool.not_eq_true] at strict
  subst strict
  exact checkProxyTarget_refused (not_not.mp refused)

/-- The one address dialled is the one the target named, where the guard lets it through. -/
theorem handleProxyStream_exec {chunks later : List (List UInt8)} {target : Target}
    (header : readTarget chunks = .ok (target, later)) (allowPrivate : Bool) :
    (∃ raw, target.named dns 0 = .ok raw ∧ Allowed allowPrivate raw ∧
      (handleProxyStream dns listens allowPrivate).exec ⟨chunks, [], []⟩ =
        (if listens raw then .ok () else .error (.connecting raw),
          ⟨later, asked target, [raw]⟩)) ∨
    ∃ error, (∀ raw, target.named dns 0 = .ok raw → ¬ Allowed allowPrivate raw) ∧
      (handleProxyStream dns listens allowPrivate).exec ⟨chunks, [], []⟩ =
        (.error error, ⟨later, asked target, []⟩) := by
  have taken : readHeader.exec ⟨chunks, [], []⟩ = (.ok target, ⟨later, [], []⟩) := by
    rw [readHeader_exec]
    simp only [header]
  have resolved : (target.resolve dns).exec ⟨later, [], []⟩ =
      (target.named dns 0, ⟨later, asked target, []⟩) := resolve_asked target _
  rw [handleProxyStream, Proxy.exec_bind, taken]
  simp only [Proxy.exec_bind, resolved, Proxy.exec_ofExcept]
  cases target.named dns 0 with
  | error error =>
      refine .inr ⟨error, ?_, rfl⟩
      rintro raw ⟨⟩
  | ok raw =>
      by_cases allowed : Allowed allowPrivate raw
      · obtain ⟨checked, passed, rfl⟩ := checkProxyTarget_allowed allowed
        refine .inl ⟨checked.addr, rfl, allowed, ?_⟩
        simp only [passed]
        change (if listens checked.addr then pure () else throw (.connecting checked.addr) :
          Proxy Unit).exec ⟨later, asked target, [checked.addr]⟩ = _
        split <;> rfl
      · refine .inr ⟨.blocked raw, ?_, ?_⟩
        · intro raw' same
          cases same
          exact allowed
        · simp only [checkProxyTarget_denied allowed]

/-- The hello is the code of no target. -/
theorem readTarget_hello (chunks : List (List UInt8)) (payload : List UInt8)
    (delivered : chunks.flatten = streamHello ++ payload) :
    ∃ error, readTarget chunks = .error error := by
  cases read : readTarget chunks with
  | error error => exact ⟨error, rfl⟩
  | ok taken =>
      obtain ⟨bytes, coded, split⟩ :=
        (reads_target chunks taken.1 taken.2.flatten).mp ⟨_, read, rfl⟩
      obtain ⟨kind, rest, rfl, form⟩ := coded.form
      obtain ⟨same, -⟩ := List.cons.inj (split.symm.trans delivered)
      obtain ⟨rfl, -⟩ | ⟨rfl, -⟩ | ⟨rfl, -⟩ := form <;> cases same

/-! ## Every pair of modes -/

variable {recv later chunks : List (List UInt8)} {header payload : List UInt8}

/-- Nothing is dialled where nothing may be reached. -/
theorem Carried.refused {mode : LocalMode} {serve : ServeMode} {error : StreamError} {net : Net}
    (apart : ∀ addr, ¬ Reaches dns recv mode serve addr)
    (lookups : ∀ name ∈ net.lookups, (∃ allowPrivate, serve = .proxy allowPrivate) ∧
      Asks recv (.domain name.1 name.2) later.flatten)
    (connects : net.connects = []) :
    Carried dns listens recv later payload mode serve (.error error) net where
  once := by
    rw [connects]
    exact Nat.zero_le 1
  connects := by
    intro addr
    rw [connects]
    exact iff_of_false List.not_mem_nil (apart addr)
  lookups := lookups
  success := by
    refine iff_of_false nofun ?_
    rintro ⟨addr, reaches, -⟩
    exact apart addr reaches
  payload := nofun

theorem Carried.dialled {mode : LocalMode} {serve : ServeMode} {error : StreamError} {net : Net}
    {raw : SocketAddr} (only : ∀ addr, Reaches dns recv mode serve addr ↔ addr = raw)
    (lookups : ∀ name ∈ net.lookups, (∃ allowPrivate, serve = .proxy allowPrivate) ∧
      Asks recv (.domain name.1 name.2) later.flatten)
    (connects : net.connects = [raw]) (rest : net.recv.flatten = payload) :
    Carried dns listens recv later payload mode serve
      (if listens raw then .ok () else .error error) net where
  once := by
    rw [connects]
    exact Nat.le_refl 1
  connects := by
    intro addr
    rw [only, connects, List.mem_singleton]
  lookups := lookups
  success := by
    simp only [only, exists_eq_left]
    cases listens raw with
    | true => exact iff_of_true rfl rfl
    | false => exact iff_of_false nofun nofun
  payload := fun _ => rest

theorem listen_carries (serve : ServeMode) (delivered : chunks.flatten = streamHello ++ payload) :
    Carried dns listens recv recv payload .listen serve
      ((handleForwardStream dns listens serve).exec ⟨chunks, [], []⟩).1
      ((handleForwardStream dns listens serve).exec ⟨chunks, [], []⟩).2 := by
  cases serve with
  | forward addr =>
      obtain ⟨left, read, rest⟩ :=
        (reads_hello chunks () payload).mpr ⟨streamHello, rfl, delivered⟩
      have taken : readHello.exec ⟨chunks, [], []⟩ = (.ok (), ⟨left, [], []⟩) := by
        rw [readHello_exec]
        simp only [read]
      have only : ∀ addr', Reaches dns recv .listen (.forward addr) addr' ↔ addr' = addr := by
        intro addr'
        constructor
        · rintro ⟨-⟩
          rfl
        · rintro rfl
          exact .fixed addr'
      rw [handleForwardStream, exec_bind_ok taken, connectTo_exec]
      exact .dialled only (fun _ member => absurd member List.not_mem_nil) rfl rest
  | proxy allowPrivate =>
      obtain ⟨error, failed⟩ := readTarget_hello chunks payload delivered
      have stopped : readHeader.exec ⟨chunks, [], []⟩ = (.error error, ⟨chunks, [], []⟩) := by
        rw [readHeader_exec]
        simp only [failed]
      rw [handleForwardStream, liftProxy_exec, handleProxyStream, Proxy.exec_bind, stopped]
      refine .refused ?_ (fun _ member => absurd member List.not_mem_nil) rfl
      rintro addr ⟨⟩

theorem socks5_carries {target : Target} (serve : ServeMode)
    (asks : Asks recv target later.flatten) (coded : target.Code header)
    (delivered : chunks.flatten = header ++ payload) :
    Carried dns listens recv later payload .socks5 serve
      ((handleForwardStream dns listens serve).exec ⟨chunks, [], []⟩).1
      ((handleForwardStream dns listens serve).exec ⟨chunks, [], []⟩).2 := by
  cases serve with
  | forward addr =>
      obtain ⟨error, failed⟩ := readHello_target coded chunks payload delivered
      have stopped : readHello.exec ⟨chunks, [], []⟩ = (.error error, ⟨chunks, [], []⟩) := by
        rw [readHello_exec]
        simp only [failed]
      rw [handleForwardStream, exec_bind_error stopped]
      exact .refused nofun nofun rfl
  | proxy allowPrivate =>
      obtain ⟨left, read, rest⟩ :=
        (reads_target chunks target payload).mpr ⟨header, coded, delivered⟩
      have looked : ∀ name ∈ asked target, (∃ permit, ServeMode.proxy allowPrivate =
          .proxy permit) ∧ Asks recv (.domain name.1 name.2) later.flatten := by
        intro name member
        cases target with
        | addr a => cases member
        | domain host port =>
            obtain rfl := List.mem_singleton.mp member
            exact ⟨⟨allowPrivate, rfl⟩, asks⟩
      have reaches : ∀ addr, Reaches dns recv .socks5 (.proxy allowPrivate) addr ↔
          target.named dns 0 = .ok addr ∧ Allowed allowPrivate addr := by
        intro addr
        constructor
        · rintro (_ | ⟨asks', named, allowed⟩)
          rw [(asks.unique asks').1]
          exact ⟨named, allowed⟩
        · rintro ⟨named, allowed⟩
          exact .named asks named allowed
      rw [handleForwardStream, liftProxy_exec]
      obtain ⟨raw, named, allowed, run⟩ | ⟨error, denied, run⟩ :=
        @handleProxyStream_exec dns listens _ _ _ read allowPrivate
      · have only : ∀ addr, Reaches dns recv .socks5 (.proxy allowPrivate) addr ↔
            addr = raw := by
          intro addr
          rw [reaches, named]
          constructor
          · rintro ⟨same, -⟩
            exact (Except.ok.inj same).symm
          · rintro rfl
            exact ⟨rfl, allowed⟩
        rw [run]
        have lifted : (if listens raw then Except.ok () else .error (ProxyError.connecting raw) :
            Except ProxyError Unit).mapError StreamError.proxy =
              if listens raw then .ok () else .error (.proxy (.connecting raw)) := by
          split <;> rfl
        rw [lifted]
        exact .dialled only looked rfl rest
      · rw [run]
        refine .refused ?_ looked rfl
        intro addr reached
        obtain ⟨named, allowed⟩ := (reaches addr).mp reached
        exact denied addr named allowed

/-- However the bytes on the wire are cut, the serving side takes exactly the header off them and
connects to what this stream may reach: the fixed address, or the first address of the target
asked for where the guard lets it through. Ends in different modes look nothing up. -/
theorem forward_stream_carries (mode : LocalMode) (serve : ServeMode)
    (opened : openStream recv mode = .ok (header, later))
    (delivered : chunks.flatten = header ++ payload) :
    Carried dns listens recv later payload mode serve
      ((handleForwardStream dns listens serve).exec ⟨chunks, [], []⟩).1
      ((handleForwardStream dns listens serve).exec ⟨chunks, [], []⟩).2 := by
  cases mode with
  | listen =>
      cases opened
      exact listen_carries serve delivered
  | socks5 =>
      obtain ⟨target, asks, coded⟩ := openStream_socks5 opened
      exact socks5_carries serve asks coded delivered

end

/-- A client asks for 10.0.0.1:80 and pipelines one byte, and the bytes arrive cut in two. -/
theorem forward_stream_carries_pipelined :
    Carried (fun _ _ => .failed) (fun _ => true) [[5, 1, 0], [5, 1, 0, 1, 10, 0, 0, 1, 0, 80, 7]]
      [[7]] [7] .socks5 (.proxy true)
      ((handleForwardStream (fun _ _ => .failed) (fun _ => true) (.proxy true)).exec
        ⟨[[1, 10, 0], [0, 1, 0, 80, 7]], [], []⟩).1
      ((handleForwardStream (fun _ _ => .failed) (fun _ => true) (.proxy true)).exec
        ⟨[[1, 10, 0], [0, 1, 0, 80, 7]], [], []⟩).2 :=
  forward_stream_carries .socks5 (.proxy true)
    (by rfl : openStream _ _ = .ok ([1, 10, 0, 0, 1, 0, 80], [[7]])) (by rfl)

end LinkP2p.Stream.Forwarding
