import LinkP2p.Lib.Exchange
import LinkP2p.Tun.SpokeMesh

/-!
# The VIP exchange

Both sides of a TUN connection announce their VIPs in a frame of 24 bytes, the
dialer first. Each routes to what the other has announced, so the two must come
out of the exchange with the same addresses, however the streams cut the frames
and wherever one side gives up.
-/

namespace LinkP2p.Tun.VipExchange

open LinkP2p.Lib LinkP2p.Lib.Exchange LinkP2p.Lib.Transition
open LinkP2p.Tun.Spoke (encodeVips decodeVips decodeVips_encodeVips unusable4 unusable6)

/-- The length of `own_buf` and `buf`. -/
def frameLength : Nat := 24

/-- Both sides of `exchange_peer_vips`, before the first write. -/
def begin (own : Side → OwnVips) : State UInt8 := start fun side => encodeVips (own side)

abbrev exchange : State UInt8 → Event → Option (State UInt8) := step frameLength

/-- What `exchange_peer_vips` returns on a side that has come this far. -/
def returned (half : Half UInt8) : Option OwnVips :=
  if half.failed || !half.through frameLength then none else decodeVips half.got

/-- The peer takes these addresses. -/
def usable (own : OwnVips) : Bool := !(unusable4 own.v4 || unusable6 own.v6)

theorem length_encodeVips (own : OwnVips) : (encodeVips own).length = frameLength := by
  rw [encodeVips, List.length_append, List.length_append, Ipv4Addr.octets, Ipv6Addr.octets,
    Bytes.length_toBytes, Bytes.length_toBytes]
  rfl

theorem decodeVips_own (own : OwnVips) :
    decodeVips (encodeVips own) = if usable own then some own else none := by
  rw [decodeVips_encodeVips, usable]
  cases unusable4 own.v4 || unusable6 own.v6 <;> rfl

/-- What a side that is through returns. -/
theorem returned_of_through {own : Side → OwnVips} {events : List Event} {final : State UInt8}
    (ran : run exchange (begin own) events = some final) {side : Side}
    (running : (final side).failed = false)
    (through : (final side).through frameLength = true) :
    returned (final side) = if usable (own side.peer) then some (own side.peer) else none := by
  have got : (final side).got = encodeVips (own side.peer) :=
    (sound_run ran).got (fun _ => length_encodeVips _) (Half.through_iff.mp through).2
  rw [returned, running, through, got, decodeVips_own]
  rfl

theorem through_of_returned {half : Half UInt8} {vips : OwnVips}
    (ended : returned half = some vips) :
    half.failed = false ∧ half.through frameLength = true := by
  rw [returned] at ended
  cases failed : half.failed with
  | true =>
      rw [failed] at ended
      cases ended
  | false =>
      cases through : half.through frameLength with
      | true => exact ⟨rfl, rfl⟩
      | false =>
          rw [failed, through] at ended
          cases ended

/-- A side that ends the exchange has the addresses its peer was started with.
Where that is the dialer, the acceptor has the dialer's, unless they are unusable
or it fails itself. -/
theorem exchange_agrees {own : Side → OwnVips} {events : List Event} {final : State UInt8}
    (ran : run exchange (begin own) events = some final) {side : Side} {vips : OwnVips}
    (ended : returned (final side) = some vips) :
    vips = own side.peer ∧ usable vips = true ∧
      (side = .dialer → (final .acceptor).failed = false →
        returned (final .acceptor) =
          if usable (own .dialer) then some (own .dialer) else none) := by
  obtain ⟨running, through⟩ := through_of_returned ended
  rw [returned_of_through ran running through] at ended
  obtain ⟨fit, same⟩ := Option.ite_none_right_eq_some.mp ended
  cases same
  refine ⟨rfl, fit, ?_⟩
  rintro rfl accepting
  have answered := (sound_run ran).acceptor_through (fun _ => length_encodeVips _)
    (by decide) through
  exact returned_of_through ran accepting answered

/-- Two hosts on one mesh. -/
def hosts : Side → OwnVips
  | .dialer => ⟨0xAC180002, 0xFD24AC18000000000000000000000002⟩
  | .acceptor => ⟨0xAC180003, 0xFD24AC18000000000000000000000003⟩

/-- The streams cut both frames. -/
def inPieces : List Event :=
  [⟨.dialer, .write 5⟩, ⟨.acceptor, .read 3⟩, ⟨.dialer, .write 19⟩, ⟨.acceptor, .read 21⟩,
    ⟨.acceptor, .write 24⟩, ⟨.dialer, .read 10⟩, ⟨.dialer, .read 14⟩]

theorem exchange_agrees_inPieces :
    ∃ final, run exchange (begin hosts) inPieces = some final ∧
      returned (final .dialer) = some (hosts .acceptor) ∧
      returned (final .acceptor) = some (hosts .dialer) := by
  refine ⟨_, rfl, rfl, ?_⟩
  have agreed := @exchange_agrees hosts inPieces _ rfl .dialer (hosts .acceptor) rfl
  exact agreed.2.2 rfl rfl

/-- Where neither side fails, the exchange takes at most four steps a byte, and
nothing but its end stops it; each side then has the other's addresses, or rejects
them as unusable. -/
theorem exchange_ends {own : Side → OwnVips} {events : List Event} {final : State UInt8}
    (ran : run exchange (begin own) events = some final)
    (moves : ∀ event ∈ events, event.act ≠ .fail) :
    events.length ≤ 4 * frameLength ∧
      ((∀ side act, act ≠ .fail → exchange final ⟨side, act⟩ = none) →
        ∀ side, returned (final side) =
          if usable (own side.peer) then some (own side.peer) else none) := by
  have running := failed_run ran moves
  constructor
  · have bound := length_le_work ran moves
    have whole : work (begin own) = 4 * frameLength := by
      simp only [work, begin, start, length_encodeVips, List.length_nil]
      omega
    omega
  · intro stuck side
    exact returned_of_through ran (running side)
      ((sound_run ran).progress (fun _ => length_encodeVips _) running stuck side)

theorem exchange_ends_inPieces :
    inPieces.length ≤ 4 * frameLength ∧
      ∃ final, run exchange (begin hosts) inPieces = some final ∧
        ∀ side, returned (final side) = some (hosts side.peer) := by
  have done : ((run exchange (begin hosts) inPieces).map fun final =>
      [final .dialer, final .acceptor].map fun half => (half.left, half.inbox)) =
        some [([], []), ([], [])] := rfl
  obtain ⟨final, ran, ends⟩ := Option.map_eq_some_iff.mp done
  obtain ⟨bound, complete⟩ := exchange_ends ran (by decide)
  have empty : ∀ side, (final side).left = [] ∧ (final side).inbox = [] := by
    obtain ⟨dialer, acceptor⟩ := List.cons.inj ends
    rintro (_ | _)
    · exact Prod.mk.inj dialer
    · exact Prod.mk.inj (List.cons.inj acceptor).1
  have stuck : ∀ side act, act ≠ .fail → exchange final ⟨side, act⟩ = none := by
    intro side act moves
    cases act with
    | write count =>
        refine if_neg ?_
        rintro ⟨-, -, positive, fits⟩
        rw [(empty side).1] at fits
        exact absurd fits (Nat.not_le.mpr positive)
    | read count =>
        refine if_neg ?_
        rintro ⟨-, -, positive, fits, -⟩
        rw [(empty side).2] at fits
        exact absurd fits (Nat.not_le.mpr positive)
    | fail => exact absurd rfl moves
  refine ⟨bound, final, ran, fun side => ?_⟩
  have fit : usable (hosts side.peer) = true := by cases side <;> rfl
  rw [complete stuck side, if_pos fit]

end LinkP2p.Tun.VipExchange
