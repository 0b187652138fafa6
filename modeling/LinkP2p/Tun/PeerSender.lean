import LinkP2p.Lib.RateWindow
import LinkP2p.Tun.IcmpError
import LinkP2p.Tun.IfaceMtu

/-!
# The sender of a peer

One task takes the packets for a peer from a queue. What fits into a datagram goes to the
connection. What does not is answered into the TUN device, by so many errors a second.
-/

namespace LinkP2p.Tun.Sender

open LinkP2p.Lib.RateWindow LinkP2p.Tun.Icmp
open LinkP2p.Tun.Mtu (clip)

/-- `ICMP_PTB_RATE_PER_SEC` -/
def icmpPtbRatePerSec : Nat := 20

/-- A second, in nanoseconds -/
def second : Nat := 1000000000

/-- The error that is built for a packet. -/
def tooBig (own : OwnVips) (nextHop : Nat) (pkt : List UInt8) : Checked (Option (List UInt8)) :=
  match pkt.head?.map fun b => b >>> (4 : UInt8) with
  | some 4 => buildIcmpFragNeeded pkt (.ofNat nextHop) own.v4
  | some 6 => buildIcmpv6PktTooBig pkt (.ofNat nextHop) own.v6
  | _ => pure none

/-- What a sender does with a packet. -/
inductive Handled where
  /-- `send_datagram_wait` -/
  | handed
  /-- A window is opened or not, and an error goes into the TUN device or none. -/
  | refused (opened : Bool) (icmp : Option (List UInt8))

/-- One round of `spawn_peer_sender`, but for the interface MTU. Without a maximum the ceiling
is `usize::MAX`, which no packet exceeds. -/
def handle (own : OwnVips) (maxDatagramSize : Option Nat) (now : Nat) (pkt : List UInt8)
    (window : Window) : Checked (Handled × Window) :=
  match maxDatagramSize with
  | none => pure (.handed, window)
  | some ceiling =>
      if ceiling < pkt.length then do
        let nextHop := clip ceiling
        let opened := decide (second ≤ now - window.start)
        let window := if opened then ⟨now, 0⟩ else window
        if window.count < icmpPtbRatePerSec then
          match ← tooBig own nextHop pkt with
          | some icmp =>
              pure (.refused opened (some icmp), { window with count := window.count + 1 })
          | none => pure (.refused opened none, window)
        else pure (.refused opened none, window)
      else pure (.handed, window)

/-- The packet goes into one datagram of the connection. -/
def fits (maxDatagramSize : Option Nat) (pkt : List UInt8) : Bool :=
  match maxDatagramSize with
  | none => true
  | some ceiling => decide (pkt.length ≤ ceiling)

/-- What the sender of a connection would do with a packet now. -/
structure Wire where
  /-- Its queue has a place. -/
  room : Bool
  maxDatagramSize : Option Nat
  /-- The connection gets the datagram to the other end. -/
  carries : Bool

/-- `try_send`, `spawn_peer_sender` and the connection let the packet through. -/
def Wire.passes (wire : Wire) (pkt : List UInt8) : Bool :=
  wire.room && fits wire.maxDatagramSize pkt && wire.carries

/-- A packet that exceeds the path's ceiling when the sender takes it. -/
structure Oversize where
  time : Nat
  ceiling : Nat
  pkt : List UInt8
  exceeds : ceiling < pkt.length

/-- The sender takes one packet after the other. -/
def serve (own : OwnVips) : Window → List Oversize → Checked (List (Oversize × Handled))
  | _, [] => pure []
  | window, packet :: rest => do
      let (handled, window) ← handle own (some packet.ceiling) packet.time packet.pkt window
      let later ← serve own window rest
      pure ((packet, handled) :: later)

/-! ## The rate limit -/

def Handled.opened : Handled → Bool
  | .handed => false
  | .refused opened _ => opened

def Handled.icmp : Handled → Option (List UInt8)
  | .handed => none
  | .refused _ icmp => icmp

/-- How many errors are injected. -/
def injected (results : List (Oversize × Handled)) : Nat :=
  results.countP fun result => result.2.icmp.isSome

/-- How many errors are injected from one instant to another. -/
def injectedWithin (first last : Nat) (results : List (Oversize × Handled)) : Nat :=
  results.countP fun result =>
    result.2.icmp.isSome && decide (first ≤ result.1.time ∧ result.1.time ≤ last)

/-- No window is opened after the first of the packets. -/
def OneWindow (results : List (Oversize × Handled)) : Prop :=
  ∀ result ∈ results.tail, result.2.opened = false

/-- The builder yields an error for the packet. -/
def Builds (own : OwnVips) (packet : Oversize) : Prop :=
  ∃ icmp, tooBig own (clip packet.ceiling) packet.pkt = .ok (some icmp)

structure RateLimited (own : OwnVips) (results : List (Oversize × Handled)) : Prop where
  perWindow : ∀ before middle after, results = before ++ middle ++ after → OneWindow middle →
    injected middle ≤ icmpPtbRatePerSec
  perInterval : ∀ first duration, injectedWithin first (first + duration) results ≤
    icmpPtbRatePerSec * (duration / second + 2)
  usedUp : ∀ before packet handled after, results = before ++ (packet, handled) :: after →
    Builds own packet → handled.icmp = none → handled.opened = false ∧
      ∃ earlier since, before = earlier ++ since ∧ OneWindow since ∧
        injected since = icmpPtbRatePerSec

variable {own : OwnVips} {window : Window} {packet : Oversize}

/-! ## Refinement of the counter -/

/-- No packet makes the builders panic. -/
theorem tooBig_ok (own : OwnVips) (nextHop : Nat) (pkt : List UInt8) :
    ∃ answer, tooBig own nextHop pkt = .ok answer := by
  unfold tooBig
  split
  · exact ⟨_, buildIcmpFragNeeded_eq ..⟩
  · exact ⟨_, buildIcmpv6PktTooBig_eq ..⟩
  · exact ⟨none, rfl⟩

/-- A packet asks for a grant when there is an error to be injected. -/
def request (own : OwnVips) (packet : Oversize) : Request where
  time := packet.time
  asks := (tooBig own (clip packet.ceiling) packet.pkt).toOption.join.isSome

def toOutcome (result : Oversize × Handled) : Outcome where
  time := result.1.time
  opened := result.2.opened
  granted := result.2.icmp.isSome

theorem asks_of_builds (builds : Builds own packet) : (request own packet).asks = true := by
  obtain ⟨icmp, built⟩ := builds
  rw [request, built]
  rfl

/-- A packet that is too big is refused, with an error if the counter grants one. -/
theorem handle_refines (own : OwnVips) (window : Window) (packet : Oversize) :
    ∃ icmp, handle own (some packet.ceiling) packet.time packet.pkt window =
        .ok (.refused (decide (second ≤ packet.time - window.start)) icmp,
          next icmpPtbRatePerSec second window (request own packet)) ∧
      icmp.isSome = grants icmpPtbRatePerSec second window (request own packet) := by
  obtain ⟨answer, built⟩ := tooBig_ok own (clip packet.ceiling) packet.pkt
  have asks : (request own packet).asks = answer.isSome := by
    rw [request, built]
    rfl
  have found : (if decide (second ≤ packet.time - window.start) = true then
      (⟨packet.time, 0⟩ : Window) else window) = renew second window packet.time := by
    rw [renew]
    exact if_congr decide_eq_true_iff rfl rfl
  unfold handle
  dsimp only
  rw [if_pos packet.exceeds, found, built]
  by_cases room : (renew second window packet.time).count < icmpPtbRatePerSec
  · have grant : grants icmpPtbRatePerSec second window (request own packet) = answer.isSome := by
      rw [grants, asks]
      exact Bool.and_eq_left_iff_imp.mpr fun _ => decide_eq_true room
    rw [if_pos room]
    refine ⟨answer, ?_, grant.symm⟩
    rw [next, grant]
    cases answer with
    | none => rfl
    | some icmp => rfl
  · have grant : grants icmpPtbRatePerSec second window (request own packet) = false := by
      rw [grants]
      exact Bool.and_eq_false_imp.mpr fun _ => decide_eq_false room
    rw [if_neg room]
    refine ⟨none, ?_, grant.symm⟩
    rw [next, grant]
    rfl

/-- The connection is given the packets that fit. -/
theorem handed_iff_fits (own : OwnVips) (maxDatagramSize : Option Nat) (now : Nat)
    (pkt : List UInt8) (window : Window) :
    (∃ window', handle own maxDatagramSize now pkt window = .ok (.handed, window')) ↔
      fits maxDatagramSize pkt = true := by
  cases maxDatagramSize with
  | none => exact ⟨fun _ => rfl, fun _ => ⟨window, rfl⟩⟩
  | some ceiling =>
      by_cases exceeds : ceiling < pkt.length
      · obtain ⟨icmp, refused, -⟩ := handle_refines own window ⟨now, ceiling, pkt, exceeds⟩
        constructor
        · rintro ⟨window', handed⟩
          cases refused.symm.trans handed
        · exact fun room => absurd (of_decide_eq_true room) (Nat.not_le.mpr exceeds)
      · exact ⟨fun _ => decide_eq_true (Nat.not_lt.mp exceeds), fun _ => ⟨window, if_neg exceeds⟩⟩

/-- The results are the outcomes of the requests. -/
def Follows (own : OwnVips) (window : Window) (results : List (Oversize × Handled)) : Prop :=
  results.map toOutcome = outcomes icmpPtbRatePerSec second window
    (results.map fun result => request own result.1)

theorem serve_follows (own : OwnVips) (window : Window) (packets : List Oversize) :
    ∃ results, serve own window packets = .ok results ∧ results.map Prod.fst = packets ∧
      Follows own window results := by
  induction packets generalizing window with
  | nil => exact ⟨[], rfl, rfl, rfl⟩
  | cons packet rest ih =>
      obtain ⟨icmp, taken, granted⟩ := handle_refines own window packet
      let handled : Handled := .refused (decide (second ≤ packet.time - window.start)) icmp
      have head : toOutcome (packet, handled) =
          outcome icmpPtbRatePerSec second window (request own packet) :=
        congrArg (Outcome.mk _ _) granted
      obtain ⟨results, served, packets, tail⟩ :=
        ih (next icmpPtbRatePerSec second window (request own packet))
      refine ⟨(packet, handled) :: results, ?_, congrArg _ packets, ?_⟩
      · rw [serve, taken, ok_bind]
        dsimp only
        rw [served]
        rfl
      · exact congr (congrArg _ head) tail

variable {before after results : List (Oversize × Handled)}

/-- The later results follow from the window that the earlier ones leave. -/
theorem Follows.split (follows : Follows own window (before ++ after)) :
    Follows own window before ∧
      Follows own (last icmpPtbRatePerSec second window
        (before.map fun result => request own result.1)) after := by
  rw [Follows, List.map_append, List.map_append, outcomes_append] at follows
  exact List.append_inj follows (by rw [length_outcomes, List.length_map, List.length_map])

theorem Follows.injected_eq (follows : Follows own window results) :
    injected results = granted (outcomes icmpPtbRatePerSec second window
      (results.map fun result => request own result.1)) := by
  rw [← follows, granted, List.countP_map]
  rfl

theorem Follows.unopened (follows : Follows own window results) (one : OneWindow results) :
    ∀ result ∈ (outcomes icmpPtbRatePerSec second window
      (results.map fun result => request own result.1)).tail, result.opened = false := by
  rw [← follows, ← List.map_tail]
  intro result member
  obtain ⟨found, inside, rfl⟩ := List.mem_map.mp member
  exact one found inside

theorem Follows.oneWindow (follows : Follows own window results)
    (still : ∀ result ∈ (outcomes icmpPtbRatePerSec second window
      (results.map fun result => request own result.1)).tail, result.opened = false) :
    OneWindow results := by
  rw [← follows, ← List.map_tail] at still
  exact fun result inside => still _ (List.mem_map_of_mem inside)

theorem rateLimited_of_follows (fresh : window.count = 0)
    (ordered : (results.map Prod.fst).Pairwise fun one other => one.time ≤ other.time)
    (follows : Follows own window results) : RateLimited own results where
  perWindow := by
    rintro before middle after rfl one
    rw [List.append_assoc] at follows
    have part := (follows.split.2.split).1
    rw [part.injected_eq]
    exact granted_window (last_count_le _ _ (fresh ▸ Nat.zero_le _) _) (part.unopened one)
  perInterval := by
    intro first duration
    have counted : injectedWithin first (first + duration) results = grantedWithin first
        (first + duration) (outcomes icmpPtbRatePerSec second window
          (results.map fun result => request own result.1)) := by
      rw [← follows, grantedWithin, List.countP_map]
      rfl
    rw [counted]
    refine granted_interval (by decide) first duration window ?_
    rw [List.pairwise_map] at ordered ⊢
    exact ordered
  usedUp := by
    rintro before packet handled after rfl builds silent
    obtain ⟨earlierFollows, laterFollows⟩ := follows.split
    have head : toOutcome (packet, handled) = outcome icmpPtbRatePerSec second
        (last icmpPtbRatePerSec second window (before.map fun result => request own result.1))
        (request own packet) := (List.cons.inj laterFollows).1
    have refused := (congrArg Outcome.granted head).symm
    rw [toOutcome, silent] at refused
    obtain ⟨unopened, first, since, parts, still, full⟩ :=
      refused_exhausted (by decide) fresh (asks_of_builds builds) refused
    refine ⟨(congrArg Outcome.opened head).trans unopened, ?_⟩
    obtain ⟨earlier, recent, rfl, rfl, rfl⟩ := List.map_eq_append_iff.mp parts
    have part := earlierFollows.split.2
    exact ⟨earlier, recent, rfl, part.oneWindow still, part.injected_eq.trans full⟩

theorem icmp_rate_limited (own : OwnVips) (spawned : Nat) (packets : List Oversize)
    (ordered : packets.Pairwise fun one other => one.time ≤ other.time) :
    ∃ results, serve own ⟨spawned, 0⟩ packets = .ok results ∧ results.map Prod.fst = packets ∧
      RateLimited own results := by
  obtain ⟨results, served, same, follows⟩ := serve_follows own ⟨spawned, 0⟩ packets
  exact ⟨results, served, same, rateLimited_of_follows rfl (same ▸ ordered) follows⟩

/-- A packet of 1200 bytes that a path with a ceiling of 1162 refuses. -/
def bigPacket (time : Nat) : Oversize where
  time := time
  ceiling := 1162
  pkt := List.replicate 1200 0x45
  exceeds := by
    rw [List.length_replicate]
    decide

/-- More packets than a window grants errors for, some in the middle of the second and one
when it is over. -/
def burst : List Oversize :=
  List.replicate 25 (bigPacket 0) ++ [bigPacket (second / 2), bigPacket second]

theorem burst_rate_limited : ∃ results, serve ⟨0, 0⟩ ⟨0, 0⟩ burst = .ok results ∧
    results.map Prod.fst = burst ∧ RateLimited ⟨0, 0⟩ results :=
  icmp_rate_limited _ _ _ (by decide +kernel)

end LinkP2p.Tun.Sender
