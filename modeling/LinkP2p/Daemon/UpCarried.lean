import LinkP2p.Contacts.Matching
import LinkP2p.Daemon.UpOptions
import Mathlib.Data.Finset.Lattice.Lemmas

/-!
# The background plane is the foreground plane

The worker makes the call that the command would have made in the foreground, for the
options that `SpawnOpts` carries. Address hints are for the foreground only.
-/

namespace LinkP2p.Daemon

open LinkP2p.Contacts (IdTexts Iroh SocketAddr hexIds hexIds_texts)
open LinkP2p.Daemon.RelayProbe (CacheFile Followed Probing nanosPerMilli relays_followed)
open LinkP2p.Identity (Crypto SecretKey Text isWhitespace plainCrypto plainCrypto_sound startUp
  startUp_again trim trim_of_solid validate)
open LinkP2p.Tun (EndpointId)

/-! ## The allow list as a text -/

section Allow

variable {iroh : Iroh}

theorem mem_intercalate {c : Char} {parts : List Text}
    (member : c ∈ [','].intercalate parts) : c = ',' ∨ ∃ part ∈ parts, c ∈ part := by
  induction parts with
  | nil => cases member
  | cons part rest ih =>
      cases rest with
      | nil =>
          rw [List.intercalate_singleton] at member
          exact .inr ⟨part, List.mem_cons_self, member⟩
      | cons next rest =>
          rw [List.intercalate_cons_cons, List.append_assoc, List.mem_append] at member
          rcases member with inside | later
          · exact .inr ⟨part, List.mem_cons_self, inside⟩
          · rcases List.mem_append.mp later with comma | inside
            · exact .inl (List.mem_singleton.mp comma)
            · rcases ih inside with comma | ⟨other, among, inside⟩
              · exact .inl comma
              · exact .inr ⟨other, List.mem_cons_of_mem _ among, inside⟩

theorem insertParts_displays (texts : IdTexts iroh) (set : Finset EndpointId)
    (ids : List EndpointId) :
    insertParts iroh.parse set (ids.map iroh.display) = .ok (set ∪ ids.toFinset) := by
  induction ids generalizing set with
  | nil => simp [insertParts]
  | cons id rest ih =>
      have trimmed : trim (iroh.display id) = iroh.display id :=
        trim_of_solid (texts.solid id)
      rw [List.map_cons, insertParts]
      simp only [trimmed, texts.nonempty id, if_false, texts.shown id, ih,
        List.toFinset_cons, Finset.insert_union, Finset.union_insert]

/-- The ids joined with commas are read back. -/
theorem parseAllowEnv_displays (texts : IdTexts iroh) {ids : List EndpointId}
    (nonempty : ids ≠ []) :
    parseAllowEnv iroh.parse (.ok ([','].intercalate (ids.map iroh.display))) =
      .ok (some ids.toFinset) := by
  have parts : ([','].intercalate (ids.map iroh.display)).splitOn ',' = ids.map iroh.display := by
    refine List.splitOn_intercalate ',' ?_ (fun none => nonempty (List.map_eq_nil_iff.mp none))
    intro part among
    obtain ⟨id, -, rfl⟩ := List.mem_map.mp among
    exact texts.noComma id
  have solid : ∀ c ∈ [','].intercalate (ids.map iroh.display), isWhitespace c = false := by
    intro c member
    rcases mem_intercalate member with rfl | ⟨part, among, inside⟩
    · decide
    · obtain ⟨id, -, rfl⟩ := List.mem_map.mp among
      exact texts.solid id c inside
  have written : [','].intercalate (ids.map iroh.display) ≠ [] := by
    intro none
    rw [none] at parts
    obtain ⟨id, rest, rfl⟩ := List.exists_cons_of_ne_nil nonempty
    rw [List.splitOn_nil, List.map_cons] at parts
    exact texts.nonempty id (List.cons.inj parts).1.symm
  simp only [parseAllowEnv, trim_of_solid solid, parts, insertParts_displays texts]
  rw [if_pos written, Finset.empty_union]
  rfl

/-- A list given with `--allow` is never empty. -/
theorem insertAllowed_subset {parse : Text → Option EndpointId} {set result : Finset EndpointId}
    {tokens : List Text} (inserted : insertAllowed parse set tokens = .ok result) :
    set ⊆ result ∧ (tokens ≠ [] → result.Nonempty) := by
  induction tokens generalizing set with
  | nil =>
      cases inserted
      exact ⟨Finset.Subset.refl _, fun some => absurd rfl some⟩
  | cons token rest ih =>
      rw [insertAllowed] at inserted
      cases read : parse token with
      | none =>
          rw [read] at inserted
          cases inserted
      | some id =>
          rw [read] at inserted
          obtain ⟨kept, -⟩ := ih inserted
          exact ⟨(Finset.subset_insert id set).trans kept,
            fun _ => ⟨id, kept (Finset.mem_insert_self id set)⟩⟩

/-- The list of the command: open when there was none, and else not empty. -/
theorem parseTunAllow_ok {parse : Text → Option EndpointId} {cli : List Text} {env : EnvVar}
    {allow : Option (Finset EndpointId)} (parsed : parseTunAllow parse cli env = .ok allow) :
    (allow = none ∧ mergeAllowList cli env = []) ∨ ∃ set, allow = some set ∧ set.Nonempty := by
  rw [parseTunAllow] at parsed
  by_cases none : mergeAllowList cli env = []
  · rw [if_pos none] at parsed
    cases parsed
    exact .inl ⟨rfl, none⟩
  · rw [if_neg none] at parsed
    cases inserted : insertAllowed parse ∅ (mergeAllowList cli env) with
    | error error =>
        rw [inserted] at parsed
        cases parsed
    | ok set =>
        rw [inserted] at parsed
        cases parsed
        exact .inr ⟨set, rfl, (insertAllowed_subset inserted).2 none⟩

/-- The worker's list is the command's. -/
theorem allow_carried (texts : IdTexts iroh) (listing : Listing) {env : Env} {up : Up}
    (given : up.allow = [] → ¬ SeparatorsOnly env.allow) {allow : Option (Finset EndpointId)}
    (parsed : parseTunAllow iroh.parse up.allow env.allow = .ok allow) (role : Text) :
    parseAllowEnv iroh.parse (childEnv (spawnOpts iroh listing up role allow) env).allow =
      .ok allow := by
  rcases parseTunAllow_ok parsed with ⟨rfl, none⟩ | ⟨set, rfl, nonempty⟩
  · -- the worker inherits what the command found open
    have blank : up.allow = [] := by
      by_contra some
      unfold mergeAllowList at none
      rw [if_pos some] at none
      exact some none
    have inherited :
        (childEnv (spawnOpts iroh listing up role Option.none) env).allow = env.allow := rfl
    rw [blank] at none
    rw [inherited, parseAllowEnv_open none (given blank)]
  · have filled : (listing.list set).map iroh.display ≠ [] := by
      obtain ⟨id, inside⟩ := nonempty
      exact List.ne_nil_of_mem (List.mem_map_of_mem ((listing.mem_list set id).mpr inside))
    have written : (childEnv (spawnOpts iroh listing up role (some set)) env).allow =
        .ok ([','].intercalate ((listing.list set).map iroh.display)) := by
      simp only [childEnv, spawnOpts, Option.map_some, Option.getD_some, filled, if_false,
        EnvVar.set]
    rw [written, parseAllowEnv_displays texts (fun none => filled (by rw [none]; rfl))]
    have same : (listing.list set).toFinset = set := by
      ext id
      rw [List.mem_toFinset, listing.mem_list]
    rw [same]

end Allow

/-! ## The options that are carried -/

/-- The call without its address hints. -/
def PlaneCall.withoutHints : PlaneCall → PlaneCall
  | .connect target _ hidden args => .connect target [] hidden args
  | other => other

def PlaneCall.withRelays (relays : List Text) : PlaneCall → PlaneCall
  | .serve args => .serve { args with relays }
  | .connect target toAddr hidden args => .connect target toAddr hidden { args with relays }
  | .phone args => .phone { args with relays }

/-- The relays in the order in which the command has them. -/
def commandRelays (draw : Draw) (cli : Cli) (host : Host) : List Text :=
  (draw.probing.order host.relayRtt (mergeRelayUrls cli.relay host.relays)).1

/-- The relays in the order in which the worker has them, after the command. -/
def workerRelays (draw workerDraw : Draw) (cli : Cli) (host : Host) : List Text :=
  let urls := mergeRelayUrls cli.relay host.relays
  (workerDraw.probing.order (draw.probing.left host.relayRtt urls) urls).1

theorem nodup_keepFirst (seen urls : List Text) :
    (keepFirst seen urls).Nodup ∧ ∀ url ∈ keepFirst seen urls, url ∉ seen := by
  induction urls generalizing seen with
  | nil => exact ⟨List.nodup_nil, List.forall_mem_nil _⟩
  | cons url rest ih =>
      rw [keepFirst]
      split
      · exact ih seen
      · rename_i unseen
        obtain ⟨distinct, apart⟩ := ih (url :: seen)
        refine ⟨List.nodup_cons.mpr ⟨fun again => apart url again List.mem_cons_self, distinct⟩, ?_⟩
        exact List.forall_mem_cons.mpr
          ⟨unseen, fun other member known => apart other member (List.mem_cons_of_mem _ known)⟩

/-- Nothing is given that the worker does not learn, or learns otherwise. -/
structure Carried (host : Host) (env : Env) (cli : Cli) (up : Up) : Prop where
  identity : cli.identity = none ∧ cli.ephemeral = false
  passphrase : passphraseOf cli.identityPassphrase env = passphraseOf none env
  relays : mergeRelayUrls cli.relay host.relays = mergeRelayUrls [] host.relays
  relayOnly : host.relays.relayOnly = true ∨ cli.relayOnly = env.relayOnly
  noN0Relays : cli.noN0Relays = true → host.relays.noN0 = true
  transport : cli.keepalive = 5 ∧ cli.idleTimeout = 30 ∧ cli.tune = {}
  target : ∀ target, up.target = some target → resolvePeerTo (some target) host.stdin = .ok target
  allow : up.allow = [] → ¬ SeparatorsOnly env.allow
  tunIp : up.tunIp = none → env.tunIp.toOption.bind parseIpv4Addr = none
  tunIp6 : up.tunIp6 = none → env.tunIp6.toOption.bind parseIpv6Addr = none
  worker : env.skeleton = false ∧ env.stuckReady = false

section Carrying

variable {crypto : Crypto} {iroh : Iroh} {listing : Listing} {draw workerDraw : Draw}
  {cli : Cli} {up : Up} {env : Env} {host : Host}

theorem set_bind {α : Type} {inherited : EnvVar} {given : Option α} {display : α → Text}
    {parse : Text → Option α} (read : ∀ value, parse (display value) = some value)
    (blank : given = none → inherited.toOption.bind parse = none) :
    (inherited.set (given.map display)).toOption.bind parse = given := by
  cases given with
  | none => exact blank rfl
  | some value => exact read value

/-- The worker loads the key that the command has loaded or created. -/
theorem key_carried (workerDraw : Draw) (sound : crypto.Sound)
    (carried : Carried host env cli up) {key : SecretKey}
    (prepared : (prepareKey crypto draw cli env host).1 = .ok key) :
    (prepareKey crypto draw cli env host).2.relays = host.relays ∧
      (prepareKey crypto draw cli env host).2.relayRtt = host.relayRtt ∧
      (loadKey crypto workerDraw none (passphraseOf none env)
        (prepareKey crypto draw cli env host).2).1 = .ok key := by
  obtain ⟨identity, persistent⟩ := carried.identity
  unfold prepareKey at prepared ⊢
  simp only [carried.passphrase, identity, persistent] at prepared ⊢
  cases valid : validate (passphraseOf none env) with
  | error error =>
      simp only [valid] at prepared
      cases prepared
  | ok _ =>
      simp only [valid, Bool.false_eq_true, if_false, loadKey] at prepared ⊢
      cases started : (startUp crypto (passphraseOf none env) draw.start host.disk).1 with
      | none =>
          simp only [started] at prepared
          cases prepared
      | some result =>
          cases result with
          | error error =>
              simp only [started] at prepared
              cases prepared
          | ok loaded =>
              simp only [started] at prepared
              cases prepared
              refine ⟨trivial, trivial, ?_⟩
              rw [startUp_again sound rfl rfl started]
              rfl

/-- The role that the command decides on, and whether there is a peer. -/
theorem resolveUpRole_ok {role target : Option Text} {result : Text}
    (resolved : resolveUpRole role target = .ok result) :
    result = "hub".toList ∨ result = "phone".toList ∨
      (result = "spoke".toList ∧ ∃ peer, target = some peer) := by
  unfold resolveUpRole at resolved
  cases target with
  | none =>
      split at resolved
      · cases resolved
        exact .inl rfl
      · next role _ =>
        by_cases hub : role = "hub".toList
        · rw [if_pos hub] at resolved
          cases resolved
          exact .inl hub
        · by_cases phone : role = "phone".toList
          · rw [if_neg hub, if_pos phone] at resolved
            cases resolved
            exact .inr (.inl phone)
          · rw [if_neg hub, if_neg phone] at resolved
            split at resolved
            · cases resolved
            · cases resolved
  | some peer =>
      split at resolved
      · cases resolved
        exact .inr (.inr ⟨rfl, peer, rfl⟩)
      · next role _ =>
        by_cases hub : role = "hub".toList
        · rw [if_pos hub] at resolved
          cases resolved
        · by_cases phone : role = "phone".toList
          · rw [if_neg hub, if_pos phone] at resolved
            cases resolved
          · rw [if_neg hub, if_neg phone] at resolved
            split at resolved
            · next spoke =>
              cases resolved
              exact .inr (.inr ⟨spoke, peer, rfl⟩)
            · cases resolved

/-- The checks pass with a role of the three, and the parsed allow list. -/
theorem checkUp_ok {role : Text} {allow : Option (Finset EndpointId)}
    (checked : checkUp iroh env up = .ok (role, allow)) :
    resolveUpRole up.role up.target = .ok role ∧
      parseTunAllow iroh.parse up.allow env.allow = .ok allow := by
  unfold checkUp at checked
  split at checked
  · cases checked
  · cases resolved : resolveUpRole up.role up.target with
    | error error =>
        rw [resolved] at checked
        cases checked
    | ok role' =>
        cases parsed : parseTunAllow iroh.parse up.allow env.allow with
        | error error =>
            rw [resolved, parsed] at checked
            cases checked
        | ok allow' =>
            rw [resolved, parsed] at checked
            simp only [Except.bind, Except.mapError] at checked
            split at checked
            · cases checked
            · cases checked
              exact ⟨rfl, rfl⟩

/-- The arguments that the worker finds in its environment are those of the command. -/
theorem args_carried (carried : Carried host env cli up) {host' : Host}
    (iroh : Iroh) (listing : Listing)
    (same : host'.relays = host.relays) (relays : List Text)
    (secretKey : SecretKey) (role : Text) (allow : Option (Finset EndpointId)) :
    workerArgs (childEnv (spawnOpts iroh listing up role allow) (env.hide up)) host' relays
        secretKey allow = upArgs cli up host relays secretKey allow := by
  obtain ⟨keepalive, idleTimeout, tune⟩ := carried.transport
  have tunIp := set_bind (fun ip => parseIpv4Addr_display ip) carried.tunIp
  have tunIp6 := set_bind (fun ip => parseIpv6Addr_display ip) carried.tunIp6
  have mtu : ((env.tunMtu.set (some (displayU16 up.mtu))).toOption.bind parseU16).getD 1280 =
      up.mtu := by
    simp only [EnvVar.set, Option.map_some, Option.getD_some, EnvVar.toOption, Option.bind_some,
      parseU16_displayU16]
  have relayOnly : (host.relays.relayOnly || env.relayOnly) =
      (cli.relayOnly || host.relays.relayOnly) := by
    rcases carried.relayOnly with configured | same
    · rw [configured, Bool.true_or, Bool.or_true]
    · rw [same, Bool.or_comm]
  have noN0 : host.relays.noN0 = (cli.noN0Relays || host.relays.noN0) := by
    cases given : cli.noN0Relays with
    | false => rfl
    | true => rw [carried.noN0Relays given]; rfl
  simp only [workerArgs, upArgs, childEnv, spawnOpts, Env.hide, Option.map_some, same, tunIp,
    tunIp6, mtu, relayOnly, ← noN0, keepalive, idleTimeout, tune]

/-- The key does not depend on what is known of the relays. -/
theorem prepareKey_relayRtt (file : CacheFile) :
    (prepareKey crypto draw cli env { host with relayRtt := file }).1 =
      (prepareKey crypto draw cli env host).1 := by
  unfold prepareKey
  dsimp only
  split
  · rfl
  · split
    · rfl
    · unfold loadKey
      cases cli.identity with
      | none => rfl
      | some path => cases path <;> rfl

/-- What the worker does once the command has decided on the role and the allow list. -/
theorem runWorker_carried (texts : IdTexts iroh) (sound : crypto.Sound)
    (carried : Carried host env cli up) {key : SecretKey}
    (prepared : (prepareKey crypto draw cli env host).1 = .ok key) {role : Text}
    {allow : Option (Finset EndpointId)}
    (parsed : parseTunAllow iroh.parse up.allow env.allow = .ok allow) :
    let relays := (workerDraw.probing.order host.relayRtt (mergeRelayUrls cli.relay host.relays)).1
    let args := upArgs cli up host relays key allow
    runWorker crypto iroh workerDraw
        (childEnv (spawnOpts iroh listing up role allow) (env.hide up))
        (prepareKey crypto draw cli env host).2 =
      if role ∈ hubRoles then .ok (.serve args)
      else if role ∈ spokeRoles then
        match (env.tunTo.set up.target).toOption.or env.peerTo.toOption with
        | some target => .ok (.connect target [] (up.hidden || (up.hidden || env.hidden)) args)
        | none => .error .spokeWithoutTo
      else if role ∈ phoneRoles then .ok (.phone args)
      else .error (.unknownRole role) := by
  intro relays
  obtain ⟨same, file, loaded⟩ := key_carried workerDraw sound carried prepared
  obtain ⟨skeleton, stuck⟩ := carried.worker
  have args := args_carried carried iroh listing same relays key role allow
  have list : parseAllowEnv iroh.parse
      (childEnv (spawnOpts iroh listing up role allow) (env.hide up)).allow = .ok allow :=
    allow_carried texts listing carried.allow parsed role
  have passphrase : passphraseOf none
      (childEnv (spawnOpts iroh listing up role allow) (env.hide up)) = passphraseOf none env := rfl
  have order : (workerDraw.probing.order (prepareKey crypto draw cli env host).2.relayRtt
      (mergeRelayUrls [] (prepareKey crypto draw cli env host).2.relays)).1 = relays := by
    rw [same, file, ← carried.relays]
  have runs : ¬ ((childEnv (spawnOpts iroh listing up role allow) (env.hide up)).stuckReady = true ∨
      (childEnv (spawnOpts iroh listing up role allow) (env.hide up)).skeleton = true) := by
    simp only [childEnv, Env.hide, skeleton, stuck, Bool.false_eq_true, or_self, not_false_eq_true]
  rw [runWorker, if_neg runs, runLiveDataPlane, passphrase, loaded]
  simp only [Except.bind, list, Except.mapError, order, args]
  rfl

theorem bind_ok {ε α β : Type} {result : Except ε α} {next : α → Except ε β} {value : β}
    (done : result.bind next = .ok value) :
    ∃ middle, result = .ok middle ∧ next middle = .ok value := by
  cases result with
  | error error => cases done
  | ok middle => exact ⟨middle, rfl, done⟩

/-- The foreground has the relays in the order of the command. -/
theorem withRelays_upForeground {call : PlaneCall}
    (called : upForeground crypto iroh draw cli up env host = .ok call) :
    call.withRelays (commandRelays draw cli host) = call := by
  obtain ⟨_, -, called⟩ := bind_ok called
  obtain ⟨⟨role, allow⟩, -, called⟩ := bind_ok called
  obtain ⟨target, -, called⟩ := bind_ok called
  rw [dispatchDataPlane] at called
  split at called
  · cases called
    rfl
  · split at called
    · split at called
      · cases called
        rfl
      · cases called
    · split at called
      · cases called
        rfl
      · cases called

/-- The worker never passes an address hint on. -/
theorem upBackground_withoutHints {call : PlaneCall}
    (called : upBackground crypto iroh listing draw workerDraw cli up env host = .ok call) :
    call.withoutHints = call := by
  obtain ⟨_, -, called⟩ := bind_ok called
  obtain ⟨⟨role, allow⟩, -, called⟩ := bind_ok called
  dsimp only at called
  rw [runWorker] at called
  split at called
  · cases called
  · obtain ⟨_, -, called⟩ := bind_ok called
    obtain ⟨_, -, called⟩ := bind_ok called
    dsimp only at called
    split at called
    · cases called
      rfl
    · split at called
      · split at called
        · cases called
          rfl
        · cases called
      · split at called
        · cases called
          rfl
        · cases called

end Carrying

noncomputable def anyListing : Listing := ⟨Finset.toList, fun _ _ => Finset.mem_toList⟩

/-- Every relay answers in 0.3 milliseconds but the first, which takes 0.9. -/
def nearRelays : Probing where
  now := 0
  rtt url := some (if url = "a".toList then 900000 else 300000)
  quick := by
    rintro url d ⟨⟩
    unfold nanosPerMilli
    split <;> decide
  arrive := id
  perm := List.Perm.refl
  inTime := false

/-- A host with no identity file, and with two relays in the configuration. -/
def freshHost : Host :=
  ⟨⟨none, none⟩, fun _ => none, { urls := ["a".toList, "b".toList] }, ∅, []⟩

end LinkP2p.Daemon
