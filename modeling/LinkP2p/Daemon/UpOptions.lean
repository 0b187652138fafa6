import LinkP2p.Daemon.AllowList
import LinkP2p.Daemon.EnvText
import LinkP2p.Daemon.RelayProbe
import LinkP2p.Identity.Migrate

/-!
# The options of `tun up`

In the foreground the options go straight to the data plane. In the background they
go through `SpawnOpts` and the environment of a worker, which also inherits the
environment of the command and reads the configuration again. Each of the two orders the
relays for itself, with the file that the one before has left.
-/

namespace LinkP2p.Daemon

open LinkP2p.Contacts (Iroh SocketAddr)
open LinkP2p.Daemon.RelayProbe (CacheFile Probing)
open LinkP2p.Identity (Crypto Disk Entropy File KeyError SecretKey Start Text isWhitespace
  loadOrCreateSecretKey startUp trim trim_of_solid validate)
open LinkP2p.Tun (EndpointId Ipv4Addr Ipv6Addr)

/-! ## Options, configuration and environment -/

inductive CongestionControl where
  | cubic
  | bbr3
  deriving DecidableEq, Repr

structure TransportTune where
  cc : Option CongestionControl := none
  sendWindow : Option (BitVec 64) := none
  streamRecvWindow : Option (BitVec 64) := none
  deriving DecidableEq, Repr

/-- A path of an identity file: one of the two that are found without `--identity`, or another. -/
inductive IdentityPath where
  | found (path : Identity.Path)
  | elsewhere (name : Text)
  deriving DecidableEq, Repr

/-- The global options of `Cli`, as `clap` delivers them. -/
structure Cli where
  identity : Option IdentityPath := none
  ephemeral : Bool := false
  identityPassphrase : Option String := none
  relay : List Text := []
  relayOnly : Bool := false
  noN0Relays : Bool := false
  keepalive : Nat := 5
  idleTimeout : Nat := 30
  tune : TransportTune := {}

/-- `TunCommand::Up`, without `--system` -/
structure Up where
  role : Option Text := none
  /-- `to` -/
  target : Option Text := none
  tunIp : Option Ipv4Addr := none
  tunIp6 : Option Ipv6Addr := none
  mtu : BitVec 16 := 1280
  allow : List Text := []
  toAddr : List SocketAddr := []
  hidden : Bool := false

structure RelaySection where
  urls : List Text := []
  noN0 : Bool := false
  relayOnly : Bool := false

/-- The variables that are read on the way to the data plane; a flag is set or not. -/
structure Env where
  /-- `LINK_P2P_PASSPHRASE` -/
  passphrase : Option String := none
  allow : EnvVar := .notPresent
  relayOnly : Bool := false
  role : EnvVar := .notPresent
  tunTo : EnvVar := .notPresent
  /-- `LINK_P2P_TO` -/
  peerTo : EnvVar := .notPresent
  tunMtu : EnvVar := .notPresent
  tunIp : EnvVar := .notPresent
  tunIp6 : EnvVar := .notPresent
  hidden : Bool := false
  skeleton : Bool := false
  stuckReady : Bool := false

/-- What the processes find outside. -/
structure Host where
  disk : Disk
  elsewhere : Text → File
  relays : RelaySection
  /-- `relay-rtt.json` -/
  relayRtt : CacheFile
  stdin : Text

/-- What a process draws at random and what it measures; its files are not disturbed. -/
structure Draw where
  entropy : Option Entropy
  generated : SecretKey
  probing : Probing

def Draw.start (draw : Draw) : Start := ⟨.done, draw.entropy, draw.generated⟩

/-- The order in which a `HashSet` hands out its elements. -/
structure Listing where
  list : Finset EndpointId → List EndpointId
  mem_list : ∀ set id, id ∈ list set ↔ id ∈ set

inductive UpError where
  | key (error : KeyError)
  /-- the process is stopped while it moves the identity -/
  | stopped
  /-- `--mtu` must be at most 1280 (got {0}) -/
  | mtu (mtu : BitVec 16)
  | hubWithTo
  | phoneWithTo
  | spokeWithoutTo
  /-- invalid `--role {0}` (expected hub, spoke, or phone) -/
  | invalidRole (role : Text)
  | allow (error : AllowError)
  /-- `--hidden` is only valid for spoke / `tun join` -/
  | hiddenRole
  /-- missing peer EndpointId (--to or LINK_P2P_TO) -/
  | missingPeer
  /-- empty EndpointId on stdin -/
  | emptyStdin
  /-- unknown TUN daemon role {0} -/
  | unknownRole (role : Text)
  /-- the worker runs no data plane -/
  | noDataPlane
  deriving DecidableEq, Repr

/-! ## The data plane -/

/-- The arguments that the three planes share. -/
structure PlaneArgs where
  secretKey : SecretKey
  tunIp : Option Ipv4Addr
  tunIp6 : Option Ipv6Addr
  mtu : BitVec 16
  relays : List Text
  relayOnly : Bool
  noN0Relays : Bool
  keepalive : Nat
  idleTimeout : Nat
  tune : TransportTune
  allow : Option (Finset EndpointId)

/-- A call of `run_tun_serve`, `run_tun_connect` or `run_tun_phone`; a spoke looks into the
environment for the hidden flag. -/
inductive PlaneCall where
  | serve (args : PlaneArgs)
  | connect (target : Text) (toAddr : List SocketAddr) (hidden : Bool) (args : PlaneArgs)
  | phone (args : PlaneArgs)

def hubRoles : List Text := ["hub".toList, "serve".toList]

def spokeRoles : List Text := ["spoke".toList, "connect".toList]

def phoneRoles : List Text := ["phone".toList, "call".toList]

/-- `SupervisedUpOpts`, with the arguments of the plane together. -/
structure SupervisedUpOpts where
  role : Text
  target : Option Text
  toAddr : List SocketAddr
  args : PlaneArgs

def dispatchDataPlane (env : Env) (opts : SupervisedUpOpts) : Except UpError PlaneCall :=
  if opts.role ∈ hubRoles then .ok (.serve opts.args)
  else if opts.role ∈ spokeRoles then
    match opts.target with
    | some target => .ok (.connect target opts.toAddr env.hidden opts.args)
    | none => .error .spokeWithoutTo
  else if opts.role ∈ phoneRoles then .ok (.phone opts.args)
  else .error (.unknownRole opts.role)

/-! ## Before the two ways part -/

/-- The loop of `merge_relay_urls`, with the URLs already seen. -/
def keepFirst : List Text → List Text → List Text
  | _, [] => []
  | seen, url :: rest =>
      if url ∈ seen then keepFirst seen rest else url :: keepFirst (url :: seen) rest

def mergeRelayUrls (cli : List Text) (cfg : RelaySection) : List Text :=
  keepFirst [] (cli ++ cfg.urls)

/-- `--identity-passphrase` before `LINK_P2P_PASSPHRASE`; an empty one is none. -/
def passphraseOf (cli : Option String) (env : Env) : Option String :=
  (cli.or env.passphrase).filter (· ≠ "")

section Commands

variable (crypto : Crypto) (iroh : Iroh)

/-- `resolve_identity_path` and `load_or_create_secret_key` -/
def loadKey (draw : Draw) (identity : Option IdentityPath) (passphrase : Option String)
    (host : Host) : Except UpError SecretKey × Host :=
  let load := loadOrCreateSecretKey crypto (draw.start.call passphrase)
  match identity with
  | none =>
      let started := startUp crypto passphrase draw.start host.disk
      (match started.1 with
        | some result => result.mapError .key
        | none => .error .stopped, { host with disk := started.2 })
  | some (.found path) =>
      let loaded := load (host.disk.read path)
      (loaded.1.mapError .key, { host with disk := host.disk.write loaded.2 path })
  | some (.elsewhere name) =>
      let loaded := load (host.elsewhere name)
      (loaded.1.mapError .key,
        { host with elsewhere := Function.update host.elsewhere name loaded.2 })

/-- The part of `real_main` that yields the key. -/
def prepareKey (draw : Draw) (cli : Cli) (env : Env) (host : Host) :
    Except UpError SecretKey × Host :=
  let passphrase := passphraseOf cli.identityPassphrase env
  match validate passphrase with
  | .error error => (.error (.key error), host)
  | .ok () =>
      if cli.ephemeral then (.ok draw.generated, host)
      else loadKey crypto draw cli.identity passphrase host

def resolveUpRole (role target : Option Text) : Except UpError Text :=
  match role.map (List.map Char.toLower) with
  | none => .ok (if target.isSome then "spoke".toList else "hub".toList)
  | some role =>
      if role = "hub".toList then if target.isSome then .error .hubWithTo else .ok role
      else if role = "phone".toList then if target.isSome then .error .phoneWithTo else .ok role
      else if role = "spoke".toList then if target.isSome then .ok role else .error .spokeWithoutTo
      else .error (.invalidRole role)

/-- The checks of `run_tun` on the options of `up`: the role and the allow list. -/
def checkUp (env : Env) (up : Up) : Except UpError (Text × Option (Finset EndpointId)) :=
  if 1280 < up.mtu then .error (.mtu up.mtu)
  else
    (resolveUpRole up.role up.target).bind fun role =>
      ((parseTunAllow iroh.parse up.allow env.allow).mapError .allow).bind fun allow =>
        if up.hidden ∧ role ≠ "spoke".toList then .error .hiddenRole else .ok (role, allow)

/-- `--hidden` is put into the environment of the process. -/
def Env.hide (env : Env) (up : Up) : Env := { env with hidden := up.hidden || env.hidden }

/-! ## In the foreground -/

def stripPrefix (start text : Text) : Option Text :=
  if start.isPrefixOf text then some (text.drop start.length) else none

def resolvePeerTo (target : Option Text) (stdin : Text) : Except UpError Text :=
  match (target.map trim).filter (· ≠ []) with
  | none => .error .missingPeer
  | some raw =>
      if raw = ['-'] then
        let id := trim stdin
        if id = [] then .error .emptyStdin
        else
          match stripPrefix "ENDPOINT_ID=".toList id with
          | some rest => .ok (trim rest)
          | none => .ok id
      else .ok raw

/-- The arguments as the command has them. -/
def upArgs (cli : Cli) (up : Up) (host : Host) (relays : List Text) (secretKey : SecretKey)
    (allow : Option (Finset EndpointId)) : PlaneArgs where
  secretKey := secretKey
  tunIp := up.tunIp
  tunIp6 := up.tunIp6
  mtu := up.mtu
  relays := relays
  relayOnly := cli.relayOnly || host.relays.relayOnly
  noN0Relays := cli.noN0Relays || host.relays.noN0
  keepalive := cli.keepalive
  idleTimeout := cli.idleTimeout
  tune := cli.tune
  allow := allow

/-- `tun up --foreground` -/
def upForeground (draw : Draw) (cli : Cli) (up : Up) (env : Env) (host : Host) :
    Except UpError PlaneCall :=
  let relays := (draw.probing.order host.relayRtt (mergeRelayUrls cli.relay host.relays)).1
  (prepareKey crypto draw cli env host).1.bind fun secretKey =>
    (checkUp iroh env up).bind fun (role, allow) =>
      (if role = "spoke".toList then (resolvePeerTo up.target host.stdin).map some
        else .ok none).bind fun target =>
          dispatchDataPlane (env.hide up)
            { role, target, toAddr := up.toAddr, args := upArgs cli up host relays secretKey allow }

/-! ## In the background -/

structure SpawnOpts where
  role : Text
  target : Option Text
  mtu : Option (BitVec 16)
  tunIp : Option Ipv4Addr
  tunIp6 : Option Ipv6Addr
  allow : List Text
  hidden : Bool

/-- The call of `cmd_up_background`. -/
def spawnOpts (listing : Listing) (up : Up) (role : Text) (allow : Option (Finset EndpointId)) :
    SpawnOpts where
  role := role
  target := up.target
  mtu := some up.mtu
  tunIp := up.tunIp
  tunIp6 := up.tunIp6
  allow := (allow.map fun set => (listing.list set).map iroh.display).getD []
  hidden := up.hidden

/-- `Command::env` for an option that is there. -/
def EnvVar.set (inherited : EnvVar) (value : Option Text) : EnvVar :=
  (value.map EnvVar.ok).getD inherited

/-- `spawn_daemon_unix`: the worker inherits what is not set. -/
def childEnv (opts : SpawnOpts) (env : Env) : Env :=
  { env with
    role := .ok opts.role
    tunTo := env.tunTo.set opts.target
    tunMtu := env.tunMtu.set (opts.mtu.map displayU16)
    tunIp := env.tunIp.set (opts.tunIp.map fun ip => displayIpv4 ip.toNat)
    tunIp6 := env.tunIp6.set (opts.tunIp6.map fun ip => displayIpv6 ip.toNat)
    allow := env.allow.set (if opts.allow = [] then none else some ([','].intercalate opts.allow))
    hidden := opts.hidden || env.hidden }

/-- `std::env::var(name).ok()` -/
def EnvVar.toOption : EnvVar → Option Text
  | .ok value => some value
  | .notPresent | .notUnicode => none

/-- The arguments as the worker has them. -/
def workerArgs (env : Env) (host : Host) (relays : List Text) (secretKey : SecretKey)
    (allow : Option (Finset EndpointId)) : PlaneArgs where
  secretKey := secretKey
  tunIp := env.tunIp.toOption.bind parseIpv4Addr
  tunIp6 := env.tunIp6.toOption.bind parseIpv6Addr
  mtu := (env.tunMtu.toOption.bind parseU16).getD 1280
  relays := relays
  relayOnly := host.relays.relayOnly || env.relayOnly
  noN0Relays := host.relays.noN0
  keepalive := 5
  idleTimeout := 30
  tune := {}
  allow := allow

def runLiveDataPlane (draw : Draw) (env : Env) (host : Host) : Except UpError PlaneCall :=
  (loadKey crypto draw none (passphraseOf none env) host).1.bind fun secretKey =>
    ((parseAllowEnv iroh.parse env.allow).mapError .allow).bind fun allow =>
      let relays := (draw.probing.order host.relayRtt (mergeRelayUrls [] host.relays)).1
      let args := workerArgs env host relays secretKey allow
      let role := env.role.toOption.getD "hub".toList
      if role ∈ hubRoles then .ok (.serve args)
      else if role ∈ spokeRoles then
        match env.tunTo.toOption.or env.peerTo.toOption with
        | some target => .ok (.connect target [] env.hidden args)
        | none => .error .spokeWithoutTo
      else if role ∈ phoneRoles then .ok (.phone args)
      else .error (.unknownRole role)

/-- `run_worker` -/
def runWorker (draw : Draw) (env : Env) (host : Host) : Except UpError PlaneCall :=
  if env.stuckReady ∨ env.skeleton then .error .noDataPlane
  else runLiveDataPlane crypto iroh draw env host

/-- `tun up`: the command and then its worker. -/
def upBackground (listing : Listing) (draw workerDraw : Draw) (cli : Cli) (up : Up) (env : Env)
    (host : Host) : Except UpError PlaneCall :=
  let urls := mergeRelayUrls cli.relay host.relays
  let prepared := prepareKey crypto draw cli env
    { host with relayRtt := draw.probing.left host.relayRtt urls }
  prepared.1.bind fun _ =>
    (checkUp iroh env up).bind fun (role, allow) =>
      runWorker crypto iroh workerDraw
        (childEnv (spawnOpts iroh listing up role allow) (env.hide up)) prepared.2

end Commands

end LinkP2p.Daemon
