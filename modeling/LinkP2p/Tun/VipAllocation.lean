import LinkP2p.Daemon.Control
import LinkP2p.Daemon.EnvText
import LinkP2p.Tun.PhoneDaemon
import Mathlib.Data.List.Infix

/-!
# The choice of the own addresses

Each family has a manual address or one that is derived from the endpoint id and the least
salt that is free on the host. What is on the host is what `ip addr show` prints.
-/

namespace LinkP2p.Tun.Vip

open LinkP2p.Daemon (displayIpv4 displayIpv6 exitUsage)
open LinkP2p.Identity (Text)
open LinkP2p.Lib.Bytes

/-! ## Derived addresses -/

/-- `blake3::hash` -/
structure Blake3 where
  hash : List UInt8 → List UInt8
  length : ∀ data, (hash data).length = 32

/-- The id and the salt, which is written in little endian. -/
def saltedId (id : EndpointId) (salt : Nat) : List UInt8 :=
  toBytes 32 id.toNat ++ (toBytes 4 salt).reverse

def deriveVipSalted (blake3 : Blake3) (id : EndpointId) (salt : Nat) : Ipv4Addr :=
  let hash := blake3.hash (saltedId id salt)
  let raw : BitVec 32 := .ofNat 32 (ofBytes [0, 0, hash.getD 0 0, hash.getD 1 0])
  vipBase ||| (raw &&& vipHostMask)

def deriveVip6Salted (blake3 : Blake3) (id : EndpointId) (salt : Nat) : Ipv6Addr :=
  Ipv6Addr.ofOctets (vip6PrefixOctets ++ (blake3.hash (saltedId id salt)).take 8)

/-! ## The host -/

def label4 : Text := " inet ".toList

def label6 : Text := " inet6 ".toList

def displayVip (vip : Ipv4Addr) : Text := displayIpv4 vip.toNat

def displayVip6 (vip : Ipv6Addr) : Text := displayIpv6 vip.toNat

/-- Nothing of what the lines of `ip` are taken apart by. -/
def Solid (word : Text) : Prop := ∀ c ∈ word, c ≠ ' ' ∧ c ≠ '/'

/-- An address of the host and the line that `ip -o addr show` prints of it. -/
structure IfAddr (α : Type) (display : α → Text) where
  addr : α
  /-- The number and the name of the interface. -/
  head : Text
  /-- The address in the spelling of `ip`, and the other end of a link that has one. -/
  shown : Text
  peer : Option Text
  /-- The prefix length, the scope and the lifetimes. -/
  tail : Text
  shownSolid : Solid shown
  peerSolid : ∀ other, peer = some other → Solid other
  headPlain : '/' ∉ head
  tailPlain : '/' ∉ tail
  spelled : ∀ vip, shown = display vip → vip = addr

def IfAddr.line {α : Type} {display : α → Text} (label : Text) (entry : IfAddr α display) : Text :=
  entry.head ++ label ++ entry.shown ++
    (entry.peer.elim [] fun other => " peer ".toList ++ other) ++ '/' :: entry.tail

/-- The addresses of a family on the host. For the check of each address `ip` is run anew: it
cannot be run, or it prints lines, not all of them where it fails. -/
structure Family (α : Type) (display : α → Text) where
  addrs : List (IfAddr α display)
  run : α → Except Text (List (IfAddr α display))
  printed : ∀ vip lines, run vip = .ok lines → lines ⊆ addrs

structure Host where
  v4 : Family Ipv4Addr displayVip
  v6 : Family Ipv6Addr displayVip6

def vipAlreadyTakenMsg (vip : Ipv4Addr) : Text :=
  "virtual IP ".toList ++ displayVip vip ++ " is already assigned to a local interface".toList

def vip6AlreadyTakenMsg (vip : Ipv6Addr) : Text :=
  "virtual IPv6 ".toList ++ displayVip6 vip ++ " is already assigned to a local interface".toList

def ensureVipFree (host : Host) (vip : Ipv4Addr) : Except Text Unit :=
  (host.v4.run vip).bind fun lines =>
    if label4 ++ displayVip vip ++ ['/'] <:+: lines.flatMap (IfAddr.line label4) then
      .error (vipAlreadyTakenMsg vip)
    else .ok ()

def ensureVip6Free (host : Host) (vip : Ipv6Addr) : Except Text Unit :=
  (host.v6.run vip).bind fun lines =>
    if label6 ++ displayVip6 vip ++ ['/'] <:+: lines.flatMap (IfAddr.line label6) then
      .error (vip6AlreadyTakenMsg vip)
    else .ok ()

/-! ## The allocation -/

/-- `exit::coded` -/
structure Coded where
  code : Int
  message : Text
  deriving DecidableEq

def vipAllocTries : Nat := 64

section

variable {α : Type}

/-- The loop of `allocate_vip` over the salts, with the rounds that remain. -/
def allocateLoop (derive : Nat → α) (ensureFree : α → Except Text Unit) (exhaustedMsg : Text) :
    Nat → Nat → Except Coded α
  | 0, _ => .error ⟨exitUsage, exhaustedMsg⟩
  | rounds + 1, salt =>
      match ensureFree (derive salt) with
      | .ok () => .ok (derive salt)
      | .error _ => allocateLoop derive ensureFree exhaustedMsg rounds (salt + 1)

def allocateVip (manual : Option α) (derive : Nat → α) (ensureFree : α → Except Text Unit)
    (manualTakenMsg : α → Text → Text) (exhaustedMsg : Text) : Except Coded α :=
  match manual with
  | some vip =>
      match ensureFree vip with
      | .ok () => .ok vip
      | .error detail => .error ⟨exitUsage, manualTakenMsg vip detail⟩
  | none => allocateLoop derive ensureFree exhaustedMsg vipAllocTries 0

end

def allocateV4 (blake3 : Blake3) (host : Host) (manual : Option Ipv4Addr) (ownId : EndpointId) :
    Except Coded Ipv4Addr :=
  allocateVip manual (deriveVipSalted blake3 ownId) (ensureVipFree host)
    (fun vip detail => "virtual IP ".toList ++ displayVip vip ++
      (" is already on a local interface (you passed --tun-ip).\n" ++
        "Pick a free address with --tun-ip, or omit --tun-ip to auto-select.\n" ++
        "Detail: ").toList ++ detail)
    ("could not find a free IPv4 VIP in 172.24.0.0/16 on this machine; " ++
      "free one or pass --tun-ip").toList

def allocateV6 (blake3 : Blake3) (host : Host) (manual : Option Ipv6Addr) (ownId : EndpointId) :
    Except Coded Ipv6Addr :=
  allocateVip manual (deriveVip6Salted blake3 ownId) (ensureVip6Free host)
    (fun vip detail => "virtual IPv6 ".toList ++ displayVip6 vip ++
      (" is already on a local interface (you passed --tun-ip6).\n" ++
        "Pick a free address with --tun-ip6, or omit --tun-ip6 to auto-select.\n" ++
        "Detail: ").toList ++ detail)
    ("could not find a free IPv6 VIP in fd24:ac18::/64 on this machine; " ++
      "free one or pass --tun-ip6").toList

def allocateOwnVips (blake3 : Blake3) (host : Host) (tunIp : Option Ipv4Addr)
    (tunIp6 : Option Ipv6Addr) (ownId : EndpointId) : Except Coded OwnVips := do
  let v4 ← allocateV4 blake3 host tunIp ownId
  let v6 ← allocateV6 blake3 host tunIp6 ownId
  return ⟨v4, v6⟩

/-! ## What an allocation is to be -/

section

variable {α : Type} (taken : α → Prop) (derive : Nat → α)

/-- The given address, or the derived one with the least free salt. -/
def Choice (manual : Option α) (vip : α) : Prop :=
  match manual with
  | some given => vip = given ∧ ¬ taken given
  | none => ∃ salt, salt < vipAllocTries ∧ vip = derive salt ∧ ¬ taken (derive salt) ∧
      ∀ earlier, earlier < salt → taken (derive earlier)

/-- No address of the family can be had. -/
def Blocked (manual : Option α) : Prop :=
  match manual with
  | some given => taken given
  | none => ∀ salt, salt < vipAllocTries → taken (derive salt)

/-- A manual address may also be refused for lying outside of the mesh. -/
def Refusable (inMesh : α → Bool) (manual : Option α) : Prop :=
  Blocked taken derive manual ∨ ∃ vip, manual = some vip ∧ inMesh vip = false

end

/-- Some interface of the host has the address. -/
def Family.Taken {α : Type} {display : α → Text} (family : Family α display) (vip : α) : Prop :=
  ∃ entry ∈ family.addrs, entry.addr = vip

/-- No interface of the host has the addresses, and other peers take them. -/
structure Usable (host : Host) (vips : OwnVips) : Prop where
  free4 : ¬ host.v4.Taken vips.v4
  free6 : ¬ host.v6.Taken vips.v6
  mesh4 : vipInMesh vips.v4 = true
  mesh6 : vip6InMesh vips.v6 = true

structure Allocates (blake3 : Blake3) (host : Host) (tunIp : Option Ipv4Addr)
    (tunIp6 : Option Ipv6Addr) (ownId : EndpointId) (outcome : Except Coded OwnVips) : Prop where
  usable : ∀ vips, outcome = .ok vips → Usable host vips
  choice4 : ∀ vips, outcome = .ok vips →
    Choice host.v4.Taken (deriveVipSalted blake3 ownId) tunIp vips.v4
  choice6 : ∀ vips, outcome = .ok vips →
    Choice host.v6.Taken (deriveVip6Salted blake3 ownId) tunIp6 vips.v6
  refused : ∀ error, outcome = .error error →
    Refusable host.v4.Taken (deriveVipSalted blake3 ownId) vipInMesh tunIp ∨
      Refusable host.v6.Taken (deriveVip6Salted blake3 ownId) vip6InMesh tunIp6

/-! ## What the check sees -/

section

variable {α : Type} {display : α → Text}

/-- The line has the address as the check writes it and names no other end. -/
def IfAddr.Plain (entry : IfAddr α display) : Prop :=
  entry.peer = none ∧ entry.shown = display entry.addr

/-- `ip` was run, and it printed no plain line of the address. -/
def Family.Passes (family : Family α display) (vip : α) : Prop :=
  ∃ lines, family.run vip = .ok lines ∧ ∀ entry ∈ lines, entry.Plain → entry.addr ≠ vip

/-- The check takes the address for free although it is not, or the other way. -/
def Family.Misjudged (family : Family α display) (vip : α) : Prop :=
  ¬ (family.Passes vip ↔ ¬ family.Taken vip)

/-- All addresses that the family may choose from are refused by the check. -/
def Family.Refuses (family : Family α display) (derive : Nat → α) (manual : Option α) : Prop :=
  Blocked (fun vip => ¬ family.Passes vip) derive manual

/-- The manual address is in the mesh and not on the host; a derived one that the check
misjudges comes after one that is free. -/
def Family.Sound (family : Family α display) (derive : Nat → α) (inMesh : α → Bool)
    (manual : Option α) : Prop :=
  match manual with
  | some given => inMesh given = true ∧ ¬ family.Taken given
  | none => ∀ salt, salt < vipAllocTries → family.Misjudged (derive salt) →
      ∃ earlier, earlier < salt ∧ family.Passes (derive earlier) ∧ ¬ family.Taken (derive earlier)

end

/-- A peer takes the addresses when they are in the mesh and not its own. -/
theorem accepted_iff (own vips : OwnVips) :
    (Hub.usable own vips = true ∧ Phone.unusable own vips = false) ↔
      vips.v4 ≠ own.v4 ∧ vips.v6 ≠ own.v6 ∧ vipInMesh vips.v4 = true ∧
        vip6InMesh vips.v6 = true := by
  rw [Hub.usable, Phone.unusable]
  simp only [Bool.not_eq_true', Bool.or_eq_false_iff, beq_eq_false_iff_ne, Bool.not_eq_false',
    and_self, and_assoc]

/-! ## Derived addresses are in the mesh -/

theorem deriveVipSalted_inMesh (blake3 : Blake3) (id : EndpointId) (salt : Nat) :
    vipInMesh (deriveVipSalted blake3 id salt) = true := by
  have host (raw : BitVec 32) :
      (vipBase ||| (raw &&& vipHostMask)) &&& ~~~vipHostMask = vipBase := by
    have apart : vipHostMask &&& ~~~vipHostMask = 0 := by decide
    have base : vipBase &&& ~~~vipHostMask = vipBase := by decide
    rw [BitVec.and_or_distrib_right, BitVec.and_assoc, apart, base]
    exact (congrArg (vipBase ||| ·) BitVec.and_zero).trans BitVec.or_zero
  exact beq_iff_eq.mpr (host _)

theorem deriveVip6Salted_inMesh (blake3 : Blake3) (id : EndpointId) (salt : Nat) :
    vip6InMesh (deriveVip6Salted blake3 id salt) = true := by
  have length := blake3.length (saltedId id salt)
  rw [vip6InMesh, deriveVip6Salted, Ipv6Addr.octets_ofOctets]
  · exact beq_iff_eq.mpr (List.take_left' rfl)
  · rw [List.length_append, List.length_take, length]
    rfl

/-! ## One family -/

section

variable {α : Type} {refused : α → Prop} {ensureFree : α → Except Text Unit}

/-- The addresses that the check refuses. -/
def Checks (refused : α → Prop) (ensureFree : α → Except Text Unit) : Prop :=
  ∀ vip, (refused vip ∧ ∃ detail, ensureFree vip = .error detail) ∨
    (¬ refused vip ∧ ensureFree vip = .ok ())

theorem allocateLoop_cases (checks : Checks refused ensureFree) (derive : Nat → α)
    (exhausted : Text) (rounds salt : Nat) :
    (∃ k, salt ≤ k ∧ k < salt + rounds ∧ ¬ refused (derive k) ∧
      (∀ earlier, salt ≤ earlier → earlier < k → refused (derive earlier)) ∧
      allocateLoop derive ensureFree exhausted rounds salt = .ok (derive k)) ∨
    (∃ error, allocateLoop derive ensureFree exhausted rounds salt = .error error) ∧
      ∀ k, salt ≤ k → k < salt + rounds → refused (derive k) := by
  induction rounds generalizing salt with
  | zero =>
      refine Or.inr ⟨⟨_, rfl⟩, fun k above below => ?_⟩
      exact absurd below (Nat.not_lt.mpr above)
  | succ rounds ih =>
      rw [allocateLoop]
      obtain ⟨here, detail, failed⟩ | ⟨free, accepted⟩ := checks (derive salt)
      · rw [failed]
        have from_ {k : Nat} (above : salt ≤ k) (later : salt + 1 ≤ k → refused (derive k)) :
            refused (derive k) := by
          obtain rfl | above := Nat.eq_or_lt_of_le above
          · exact here
          · exact later above
        obtain ⟨k, above, below, free, least, found⟩ | ⟨failed, all⟩ := ih (salt + 1)
        · refine Or.inl ⟨k, by omega, by omega, free, fun earlier above before => ?_, found⟩
          exact from_ above fun later => least earlier later before
        · refine Or.inr ⟨failed, fun k above below => ?_⟩
          exact from_ above fun later => all k later (by omega)
      · rw [accepted]
        refine Or.inl ⟨salt, Nat.le_refl _, by omega, free, fun earlier above before => ?_, rfl⟩
        exact absurd before (Nat.not_lt.mpr above)

/-- A family gets its choice, or it is blocked. -/
theorem allocateVip_cases (checks : Checks refused ensureFree) (manual : Option α)
    (derive : Nat → α) (manualTakenMsg : α → Text → Text) (exhausted : Text) :
    (∃ vip, allocateVip manual derive ensureFree manualTakenMsg exhausted = .ok vip ∧
      Choice refused derive manual vip ∧ ¬ Blocked refused derive manual) ∨
    (∃ error, allocateVip manual derive ensureFree manualTakenMsg exhausted = .error error) ∧
      Blocked refused derive manual := by
  cases manual with
  | some given =>
      rw [allocateVip]
      obtain ⟨here, detail, failed⟩ | ⟨free, accepted⟩ := checks given
      · rw [failed]
        exact Or.inr ⟨⟨_, rfl⟩, here⟩
      · rw [accepted]
        exact Or.inl ⟨given, rfl, ⟨rfl, free⟩, free⟩
  | none =>
      rw [allocateVip]
      obtain ⟨k, -, below, free, least, found⟩ | ⟨failed, all⟩ :=
        allocateLoop_cases checks derive exhausted vipAllocTries 0
      · rw [Nat.zero_add] at below
        refine Or.inl ⟨derive k, found, ⟨k, below, rfl, free, fun earlier => ?_⟩, fun blocked => ?_⟩
        · exact least earlier (Nat.zero_le _)
        · exact free (blocked k below)
      · refine Or.inr ⟨failed, fun salt below => all salt (Nat.zero_le _) ?_⟩
        rwa [Nat.zero_add]

/-- With no manual address the choice of the check is right exactly if every address that it
misjudges comes after a free one. -/
theorem derived_sound_iff {display : α → Text} {family : Family α display} {derive : Nat → α}
    {salt : Nat} (below : salt < vipAllocTries) (passes : family.Passes (derive salt))
    (least : ∀ earlier, earlier < salt → ¬ family.Passes (derive earlier)) :
    (¬ family.Taken (derive salt) ∧ ∀ earlier, earlier < salt → family.Taken (derive earlier)) ↔
      ∀ k, k < vipAllocTries → family.Misjudged (derive k) →
        ∃ earlier, earlier < k ∧ family.Passes (derive earlier) ∧
          ¬ family.Taken (derive earlier) := by
  constructor
  · rintro ⟨free, taken⟩ k - misjudged
    rcases Nat.lt_trichotomy k salt with before | rfl | after
    · exact absurd (iff_of_false (least k before) (not_not.mpr (taken k before))) misjudged
    · exact absurd (iff_of_true passes free) misjudged
    · exact ⟨salt, after, passes, free⟩
  · intro sound
    have right (k : Nat) (within : k ≤ salt) :
        family.Passes (derive k) ↔ ¬ family.Taken (derive k) := by
      by_contra misjudged
      obtain ⟨earlier, before, passes, -⟩ := sound k (Nat.lt_of_le_of_lt within below) misjudged
      exact least earlier (Nat.lt_of_lt_of_le before within) passes
    refine ⟨(right salt (Nat.le_refl _)).mp passes, fun earlier before => ?_⟩
    exact not_not.mp fun free =>
      least earlier before ((right earlier (Nat.le_of_lt before)).mpr free)

/-- What the check chooses is a choice among the free addresses of the mesh exactly if the
family is sound. -/
theorem Choice.sound_iff {display : α → Text} {family : Family α display} {derive : Nat → α}
    {manual : Option α} {vip : α} {inMesh : α → Bool}
    (choice : Choice (fun vip => ¬ family.Passes vip) derive manual vip)
    (derived : ∀ salt, inMesh (derive salt) = true) :
    (¬ family.Taken vip ∧ inMesh vip = true ∧ Choice family.Taken derive manual vip) ↔
      family.Sound derive inMesh manual := by
  cases manual with
  | some given =>
      obtain ⟨rfl, -⟩ := choice
      exact ⟨fun right => ⟨right.2.1, right.1⟩, fun sound => ⟨sound.2, sound.1, rfl, sound.2⟩⟩
  | none =>
      obtain ⟨salt, below, rfl, passes, least⟩ := choice
      rw [Family.Sound, ← derived_sound_iff below (not_not.mp passes) least]
      constructor
      · rintro ⟨free, -, other, within, same, -, taken⟩
        -- two salts may give one address
        have order : salt ≤ other := by
          by_contra after
          exact least other (Nat.not_le.mp after) (same ▸ not_not.mp passes)
        refine ⟨free, fun earlier before => taken earlier (Nat.lt_of_lt_of_le before order)⟩
      · rintro ⟨free, taken⟩
        exact ⟨free, derived salt, salt, below, rfl, free, taken⟩

end

/-! ## The lines of `ip` -/

theorem Solid.append {front back : Text} (first : Solid front) (second : Solid back) :
    Solid (front ++ back) :=
  List.forall_mem_append.mpr ⟨first, second⟩

theorem Solid.cons {c : Char} {word : Text} (other : c ≠ ' ' ∧ c ≠ '/')
    (rest : Solid word) : Solid (c :: word) :=
  List.forall_mem_cons.mpr ⟨other, rest⟩

theorem solid_digits {radix : Nat} (base : radix = 10 ∨ radix = 16) (n : Nat) :
    Solid (Nat.toDigits radix n) := by
  intro c member
  have digit := (Daemon.toDigits_read (by omega) (by omega) n).1 c member
  refine ⟨?_, ?_⟩
  all_goals
    rintro rfl
    obtain rfl | rfl := base
    · revert digit
      decide
    · revert digit
      decide

theorem solid_displayIpv4 (ip : Nat) : Solid (displayIpv4 ip) := by
  have digits (n : Nat) := solid_digits (Or.inl rfl) n
  exact (digits _).append (.cons (by decide) ((digits _).append (.cons (by decide)
    ((digits _).append (.cons (by decide) (digits _))))))

theorem solid_displaySubslice (chunk : List Nat) : Solid (Daemon.displaySubslice chunk) := by
  have digits (n : Nat) := solid_digits (Or.inr rfl) n
  have tail (chunk : List Nat) : Solid (Daemon.displayTail chunk) := by
    intro c member
    obtain ⟨segment, -, inside⟩ := List.mem_flatMap.mp member
    exact Solid.cons (by decide) (digits segment) c inside
  cases chunk with
  | nil => exact List.forall_mem_nil _
  | cons first rest => exact (digits first).append (tail rest)

theorem solid_displayIpv6 (ip : Nat) : Solid (displayIpv6 ip) := by
  rw [displayIpv6]
  split
  · have mapped : ("::ffff:".toList.all fun c => c ≠ ' ' ∧ c ≠ '/') = true := rfl
    refine Solid.append (fun c member => ?_) (solid_displayIpv4 _)
    exact of_decide_eq_true (List.all_eq_true.mp mapped c member)
  · dsimp only
    split
    · exact (solid_displaySubslice _).append
        (.cons (by decide) (.cons (by decide) (solid_displaySubslice _)))
    · exact solid_displaySubslice _

theorem solid_displayVip (vip : Ipv4Addr) : Solid (displayVip vip) := solid_displayIpv4 vip.toNat

theorem solid_displayVip6 (vip : Ipv6Addr) : Solid (displayVip6 vip) := solid_displayIpv6 vip.toNat

theorem Solid.noBlank {word : Text} (solid : Solid word) : ' ' ∉ word :=
  fun member => (solid ' ' member).1 rfl

theorem Solid.noSlash {word : Text} (solid : Solid word) : '/' ∉ word :=
  fun member => (solid '/' member).2 rfl

/-- The text up to the first slash. -/
theorem prefix_slash_iff {word other : Text} (plain : '/' ∉ word) (plain' : '/' ∉ other)
    (rest : Text) : word ++ ['/'] <+: other ++ '/' :: rest ↔ word = other := by
  induction word generalizing other with
  | nil =>
      cases other with
      | nil => exact iff_of_true (List.cons_prefix_cons.mpr ⟨rfl, List.nil_prefix⟩) rfl
      | cons d other =>
          rw [List.nil_append, List.cons_append, List.cons_prefix_cons]
          exact iff_of_false (fun starts => plain' (starts.1 ▸ List.mem_cons_self)) nofun
  | cons c word ih =>
      cases other with
      | nil =>
          rw [List.nil_append, List.cons_append, List.cons_prefix_cons]
          exact iff_of_false (fun starts => plain (starts.1 ▸ List.mem_cons_self)) nofun
      | cons d other =>
          rw [List.cons_append, List.cons_append, List.cons_prefix_cons,
            ih (List.not_mem_of_not_mem_cons plain) (List.not_mem_of_not_mem_cons plain'),
            List.cons.injEq]

/-- What ends in a slash is found at the first slash or after it. -/
theorem infix_slash_iff {word front : Text} (plain : '/' ∉ word) (plain' : '/' ∉ front)
    (rest : Text) :
    word ++ ['/'] <:+: front ++ '/' :: rest ↔ word <:+ front ∨ word ++ ['/'] <:+: rest := by
  induction front with
  | nil =>
      have start := prefix_slash_iff plain List.not_mem_nil rest
      rw [List.nil_append] at start
      rw [List.nil_append, List.infix_cons_iff, start, List.suffix_nil]
  | cons c front ih =>
      have start := prefix_slash_iff plain plain' rest
      rw [List.cons_append] at start
      rw [List.cons_append, List.infix_cons_iff, start, ih (List.not_mem_of_not_mem_cons plain'),
        List.suffix_cons_iff, or_assoc]

/-- The last word of a text and what is before it. -/
theorem suffix_word_iff {word other front back : Text} (solid : ' ' ∉ word)
    (solid' : ' ' ∉ other) :
    front ++ ' ' :: word <:+ back ++ ' ' :: other ↔ word = other ∧ front <:+ back := by
  rw [← List.reverse_prefix, List.reverse_append, List.reverse_append, List.reverse_cons,
    List.reverse_cons, ← @List.reverse_inj _ word, ← @List.reverse_prefix _ front,
    List.append_assoc, List.append_assoc, List.singleton_append, List.singleton_append]
  have solid := mt List.mem_reverse.mp solid
  have solid' := mt List.mem_reverse.mp solid'
  generalize word.reverse = word, other.reverse = other, front.reverse = front,
    back.reverse = back at solid solid' ⊢
  induction word generalizing other with
  | nil =>
      cases other with
      | nil => simp only [List.nil_append, List.cons_prefix_cons, true_and]
      | cons d other =>
          rw [List.nil_append, List.cons_append, List.cons_prefix_cons]
          exact iff_of_false (fun starts => solid' (starts.1 ▸ List.mem_cons_self)) nofun
  | cons c word ih =>
      cases other with
      | nil =>
          rw [List.nil_append, List.cons_append, List.cons_prefix_cons]
          exact iff_of_false (fun starts => solid (starts.1 ▸ List.mem_cons_self)) nofun
      | cons d other =>
          have later := ih other (List.not_mem_of_not_mem_cons solid)
            (List.not_mem_of_not_mem_cons solid')
          rw [List.cons_append, List.cons_append, List.cons_prefix_cons, List.cons.injEq, and_assoc]
          exact and_congr_right fun _ => later

section

variable {α : Type} {display : α → Text} {label name : Text}

/-- The line shows the address exactly if it is a plain line of it. -/
theorem suffix_line_iff {c : Char} (named : label = name ++ [c] ++ [' ']) (last : c ≠ 'r')
    (solid : ∀ vip, Solid (display vip)) (entry : IfAddr α display) (front : Text) (vip : α) :
    label ++ display vip <:+ front ++ (entry.head ++ label ++ entry.shown ++
        (entry.peer.elim [] fun other => " peer ".toList ++ other)) ↔
      entry.Plain ∧ entry.addr = vip := by
  have needle : label ++ display vip = (name ++ [c]) ++ ' ' :: display vip := by
    rw [named, List.append_assoc, List.singleton_append]
  cases linked : entry.peer with
  | none =>
      have text : front ++ (entry.head ++ label ++ entry.shown ++ []) =
          (front ++ (entry.head ++ (name ++ [c]))) ++ ' ' :: entry.shown := by
        rw [named]
        simp only [List.append_assoc, List.cons_append, List.nil_append, List.append_nil]
      rw [Option.elim, text, needle,
        suffix_word_iff (solid vip).noBlank entry.shownSolid.noBlank, IfAddr.Plain]
      constructor
      · rintro ⟨same, -⟩
        obtain rfl := entry.spelled vip same.symm
        exact ⟨⟨linked, same.symm⟩, rfl⟩
      · rintro ⟨⟨-, same⟩, rfl⟩
        exact ⟨same.symm, (List.suffix_append _ _).trans (List.suffix_append _ _)⟩
  | some other =>
      have text : front ++ (entry.head ++ label ++ entry.shown ++ (" peer ".toList ++ other)) =
          (front ++ (entry.head ++ label ++ entry.shown ++ " pee".toList) ++ ['r']) ++
            ' ' :: other := by
        have split : " peer ".toList = " pee".toList ++ ['r'] ++ [' '] := rfl
        rw [split]
        simp only [List.append_assoc, List.cons_append, List.nil_append]
      rw [Option.elim, text, needle,
        suffix_word_iff (solid vip).noBlank (entry.peerSolid other linked).noBlank, IfAddr.Plain,
        linked]
      refine iff_of_false ?_ (fun plain => absurd plain.1.1 (Option.some_ne_none other))
      rintro ⟨-, before, same⟩
      have ends := congrArg List.getLast? same
      rw [← List.append_assoc, List.getLast?_concat, List.getLast?_concat] at ends
      exact last (Option.some.inj ends)

/-- The text shows the addresses of the plain lines and no others. -/
theorem infix_lines_iff {c : Char} (named : label = name ++ [c] ++ [' ']) (last : c ≠ 'r')
    (plain : '/' ∉ label) (solid : ∀ vip, Solid (display vip)) (vip : α) {front : Text}
    (plain' : '/' ∉ front) (lines : List (IfAddr α display)) :
    label ++ display vip ++ ['/'] <:+: front ++ lines.flatMap (IfAddr.line label) ↔
      ∃ entry ∈ lines, entry.Plain ∧ entry.addr = vip := by
  have needle : '/' ∉ label ++ display vip :=
    List.not_mem_append plain (solid vip).noSlash
  induction lines generalizing front with
  | nil =>
      rw [List.flatMap_nil, List.append_nil]
      refine iff_of_false (fun inside => plain' (inside.subset ?_)) nofun
      exact List.mem_append_right _ (List.mem_singleton.mpr rfl)
  | cons entry lines ih =>
      let before := entry.head ++ label ++ entry.shown ++
        (entry.peer.elim [] fun other => " peer ".toList ++ other)
      have text : front ++ (entry :: lines).flatMap (IfAddr.line label) =
          (front ++ before) ++ '/' :: (entry.tail ++ lines.flatMap (IfAddr.line label)) := by
        simp only [before, List.flatMap_cons, IfAddr.line, List.append_assoc, List.cons_append]
      have linked : '/' ∉ entry.peer.elim [] fun other => " peer ".toList ++ other := by
        cases there : entry.peer with
        | none => exact List.not_mem_nil
        | some other =>
            exact List.not_mem_append (by decide) (entry.peerSolid other there).noSlash
      have clear : '/' ∉ front ++ before := List.not_mem_append plain' (List.not_mem_append
        (List.not_mem_append (List.not_mem_append entry.headPlain plain)
          entry.shownSolid.noSlash) linked)
      have later := ih entry.tailPlain
      have first := suffix_line_iff named last solid entry front vip
      rw [text, infix_slash_iff needle clear]
      refine (or_congr first later).trans ?_
      simp only [List.mem_cons, exists_eq_or_imp]

/-- The check lets an address pass when `ip` was run and printed no plain line of it. -/
theorem checks_of_infix {family : Family α display} {takenMsg : α → Text}
    {ensureFree : α → Except Text Unit}
    (free : ∀ vip, ensureFree vip = (family.run vip).bind fun lines =>
      if label ++ display vip ++ ['/'] <:+: lines.flatMap (IfAddr.line label) then
        .error (takenMsg vip)
      else .ok ())
    (shows_ : ∀ vip (lines : List (IfAddr α display)),
      label ++ display vip ++ ['/'] <:+: lines.flatMap (IfAddr.line label) ↔
        ∃ entry ∈ lines, entry.Plain ∧ entry.addr = vip) :
    Checks (fun vip => ¬ family.Passes vip) ensureFree := by
  intro vip
  rw [free]
  cases ran : family.run vip with
  | error detail =>
      refine .inl ⟨?_, detail, rfl⟩
      rintro ⟨lines, printed, -⟩
      cases ran.symm.trans printed
  | ok lines =>
      by_cases shown : ∃ entry ∈ lines, entry.Plain ∧ entry.addr = vip
      · refine .inl ⟨?_, takenMsg vip, if_pos ((shows_ vip lines).mpr shown)⟩
        rintro ⟨other, printed, none⟩
        cases ran.symm.trans printed
        obtain ⟨entry, member, plain, same⟩ := shown
        exact none entry member plain same
      · refine .inr ⟨not_not.mpr ⟨lines, ran, fun entry member plain same => ?_⟩,
          if_neg (mt (shows_ vip lines).mp shown)⟩
        exact shown ⟨entry, member, plain, same⟩

end

theorem ensureVipFree_checks (host : Host) :
    Checks (fun vip => ¬ host.v4.Passes vip) (ensureVipFree host) := by
  refine checks_of_infix (fun _ => rfl) fun vip lines => ?_
  have named : " inet ".toList = " ine".toList ++ ['t'] ++ [' '] := rfl
  exact infix_lines_iff named (by decide) (by decide) solid_displayVip vip List.not_mem_nil lines

theorem ensureVip6Free_checks (host : Host) :
    Checks (fun vip => ¬ host.v6.Passes vip) (ensureVip6Free host) := by
  refine checks_of_infix (fun _ => rfl) fun vip lines => ?_
  have named : " inet6 ".toList = " inet".toList ++ ['6'] ++ [' '] := rfl
  exact infix_lines_iff named (by decide) (by decide) solid_displayVip6 vip List.not_mem_nil lines

/-! ## Both families -/

section

variable (blake3 : Blake3) (host : Host) (tunIp : Option Ipv4Addr) (tunIp6 : Option Ipv6Addr)
  (ownId : EndpointId)

/-- The check refuses every address of some family. -/
def AnyRefuses : Prop :=
  host.v4.Refuses (deriveVipSalted blake3 ownId) tunIp ∨
    host.v6.Refuses (deriveVip6Salted blake3 ownId) tunIp6

/-- Some family has no address for this node, or a manual one outside of the mesh. -/
def AnyRefusable : Prop :=
  Refusable host.v4.Taken (deriveVipSalted blake3 ownId) vipInMesh tunIp ∨
    Refusable host.v6.Taken (deriveVip6Salted blake3 ownId) vip6InMesh tunIp6

/-- Both families get their choice, or the check refuses every address of one of them. -/
theorem allocateOwnVips_cases :
    (∃ vips, allocateOwnVips blake3 host tunIp tunIp6 ownId = .ok vips ∧
      Choice (fun vip => ¬ host.v4.Passes vip) (deriveVipSalted blake3 ownId) tunIp vips.v4 ∧
      Choice (fun vip => ¬ host.v6.Passes vip) (deriveVip6Salted blake3 ownId) tunIp6 vips.v6 ∧
      ¬ AnyRefuses blake3 host tunIp tunIp6 ownId) ∨
    (∃ error, allocateOwnVips blake3 host tunIp tunIp6 ownId = .error error) ∧
      AnyRefuses blake3 host tunIp tunIp6 ownId := by
  rw [allocateOwnVips, allocateV4, allocateV6, AnyRefuses]
  obtain ⟨v4, found, choice, open_⟩ | ⟨⟨error, failed⟩, blocked⟩ :=
    allocateVip_cases (ensureVipFree_checks host) tunIp (deriveVipSalted blake3 ownId) _ _
  · rw [found]
    obtain ⟨v6, found', choice', open'⟩ | ⟨⟨error, failed⟩, blocked⟩ :=
      allocateVip_cases (ensureVip6Free_checks host) tunIp6 (deriveVip6Salted blake3 ownId) _ _
    · refine Or.inl ⟨⟨v4, v6⟩, ?_, choice, choice', not_or.mpr ⟨open_, open'⟩⟩
      rw [found']
      rfl
    · refine Or.inr ⟨⟨error, ?_⟩, Or.inr blocked⟩
      rw [failed]
      rfl
  · rw [failed]
    exact Or.inr ⟨⟨error, rfl⟩, Or.inl blocked⟩

/-- **Allocated addresses can be used** exactly if the check refuses a family only where one
may be refused, and otherwise the manual addresses are free ones of the mesh and a derived
address that the check misjudges comes after one that is free. -/
theorem allocate_own_vips_iff :
    Allocates blake3 host tunIp tunIp6 ownId (allocateOwnVips blake3 host tunIp tunIp6 ownId) ↔
      AnyRefuses blake3 host tunIp tunIp6 ownId ∧ AnyRefusable blake3 host tunIp tunIp6 ownId ∨
      ¬ AnyRefuses blake3 host tunIp tunIp6 ownId ∧
        host.v4.Sound (deriveVipSalted blake3 ownId) vipInMesh tunIp ∧
        host.v6.Sound (deriveVip6Salted blake3 ownId) vip6InMesh tunIp6 := by
  obtain ⟨vips, found, choice, choice', passes⟩ | ⟨⟨error, failed⟩, refuses⟩ :=
    allocateOwnVips_cases blake3 host tunIp tunIp6 ownId
  · rw [found, ← choice.sound_iff (deriveVipSalted_inMesh blake3 ownId),
      ← choice'.sound_iff (deriveVip6Salted_inMesh blake3 ownId)]
    constructor
    · intro allocates
      have usable := allocates.usable vips rfl
      exact Or.inr ⟨passes, ⟨usable.free4, usable.mesh4, allocates.choice4 vips rfl⟩,
        usable.free6, usable.mesh6, allocates.choice6 vips rfl⟩
    · intro condition
      obtain ⟨-, right, right'⟩ := condition.resolve_left fun refused => passes refused.1
      refine ⟨?_, ?_, ?_, nofun⟩
      · rintro _ ⟨⟩
        exact ⟨right.1, right'.1, right.2.1, right'.2.1⟩
      · rintro _ ⟨⟩
        exact right.2.2
      · rintro _ ⟨⟩
        exact right'.2.2
  · rw [failed]
    constructor
    · exact fun allocates => Or.inl ⟨refuses, allocates.refused error rfl⟩
    · intro condition
      have refusable := (condition.resolve_right fun passes => passes.1 refuses).2
      exact ⟨nofun, nofun, nofun, fun _ _ => refusable⟩

end

/-- A host on which every run of `ip` prints the addresses that are there. -/
def Family.ofList {α : Type} {display : α → Text} (addrs : List (IfAddr α display)) :
    Family α display where
  addrs := addrs
  run _ := .ok addrs
  printed _ _ same := by
    cases same
    exact List.Subset.refl addrs

/-- `--tun-ip 10.0.0.1` is taken on a host without addresses, and refused by every peer. -/
theorem manual_outside_accepted :
    ¬ Allocates ⟨fun _ => List.replicate 32 0, fun _ => rfl⟩ ⟨.ofList [], .ofList []⟩
      (some 0x0a000001) none 0
      (allocateOwnVips ⟨fun _ => List.replicate 32 0, fun _ => rfl⟩ ⟨.ofList [], .ofList []⟩
        (some 0x0a000001) none 0) := by
  intro allocates
  have accepted : allocateOwnVips ⟨fun _ => List.replicate 32 0, fun _ => rfl⟩
      ⟨.ofList [], .ofList []⟩ (some 0x0a000001) none 0 =
        .ok ⟨0x0a000001, 0xfd24ac18000000000000000000000000⟩ := by
    rfl
  exact absurd (allocates.usable _ accepted).mesh4 (by decide)

theorem displayVip_injective : Function.Injective displayVip := by
  intro vip other same
  have parsed := congrArg Daemon.parseIpv4Addr same
  rw [displayVip, displayVip, Daemon.parseIpv4Addr_display, Daemon.parseIpv4Addr_display] at parsed
  exact Option.some.inj parsed

/-- The end of a point-to-point link. -/
def tunnelEnd : IfAddr Ipv4Addr displayVip where
  addr := 0xac180006
  head := "5: tun0    ".toList
  shown := displayVip 0xac180006
  peer := some "172.24.0.5".toList
  tail := "32 scope global tun0".toList
  shownSolid := solid_displayVip _
  peerSolid := by
    rintro _ ⟨⟩
    exact List.forall_mem_iff_forall_getElem.mpr (by decide)
  headPlain := by decide
  tailPlain := by decide
  spelled vip same := displayVip_injective same.symm

/-- The check takes 172.24.0.6 for free. -/
example : ensureVipFree ⟨.ofList [tunnelEnd], .ofList []⟩ 0xac180006 = .ok () := by decide

end LinkP2p.Tun.Vip
