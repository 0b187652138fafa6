import LinkP2p.Lib.Semaphore
import LinkP2p.Lib.Transition
import LinkP2p.Tun.Packet
import Mathlib.Data.Finset.Insert

/-!
# Stream permits of `serve`

Each admitted connection runs a loop that takes a stream permit before it waits for
a stream of its peer. The permit goes on to the task that forwards the stream. A
second semaphore of the same size bounds the connections.
-/

namespace LinkP2p.Stream

open LinkP2p.Lib LinkP2p.Lib.Transition
open LinkP2p.Tun (EndpointId)

/-- `usize::MAX` -/
def usizeMax : Nat := 2 ^ 64 - 1

/-- `Semaphore::MAX_PERMITS` -/
def maxPermits : Nat := usizeMax >>> 3

/-- `tokio::sync::Semaphore::new`; nothing is returned where it panics. -/
def newSemaphore (permits : Nat) : Option (Semaphore Nat) :=
  if permits ≤ maxPermits then some (.new permits) else none

/-- `conn_semaphore`: `0` is to mean unlimited. -/
def connSemaphore (maxConns : BitVec 64) : Option (Semaphore Nat) :=
  newSemaphore (if maxConns = 0 then usizeMax else maxConns.toNat)

/-- `ForwardHandler` with the connections that run through its `accept`, by the place where
each of them is. -/
structure ForwardHandler where
  allowed : Option (Finset EndpointId)
  /-- Its waiters are in `acquire_owned` at the head of the loop. -/
  semaphore : Semaphore Nat
  /-- Its waiters are in `acquire_owned` before the loop. -/
  connSemaphore : Semaphore Nat
  /-- At the head of the loop. -/
  looping : List Nat
  /-- In `accept_bi`, with a stream permit. -/
  accepting : List Nat
  /-- Past the loop. -/
  ended : List Nat
  /-- The streams that a peer has opened and nobody has accepted. -/
  queued : Nat → Nat
  closed : Nat → Bool
  /-- The tasks that forward a stream, each with its permit. -/
  forwarding : Nat
  nextConn : Nat

/-- The part of `run_serve` that builds the handler. -/
def startServe (maxConns : BitVec 64) (allowed : Option (Finset EndpointId)) :
    Option ForwardHandler :=
  (connSemaphore maxConns).bind fun semaphore =>
    (connSemaphore maxConns).map fun connSemaphore =>
      { allowed, semaphore, connSemaphore
        looping := []
        accepting := []
        ended := []
        queued := fun _ => 0
        closed := fun _ => true
        forwarding := 0
        nextConn := 0 }

inductive ServeEvent where
  /-- A peer connects. -/
  | connect (peer : EndpointId)
  /-- The peer opens a stream. -/
  | openBi (conn : Nat)
  /-- The connection is closed. -/
  | close (conn : Nat)
  /-- The loop asks for a stream permit. -/
  | acquire (conn : Nat)
  /-- `accept_bi` yields a stream, which is handed to a new task. -/
  | accept (conn : Nat)
  /-- `accept_bi` fails on a closed connection. -/
  | fail (conn : Nat)
  /-- `accept` returns. -/
  | leave (conn : Nat)
  /-- A task has forwarded its stream. -/
  | finish

/-- A stream permit is given back. -/
def ForwardHandler.release (handler : ForwardHandler) : ForwardHandler :=
  { handler with
    semaphore := handler.semaphore.release.2
    accepting := handler.semaphore.release.1.toList ++ handler.accepting }

/-- One more stream is queued. -/
def ForwardHandler.opened (handler : ForwardHandler) (conn : Nat) : ForwardHandler :=
  { handler with queued := Function.update handler.queued conn (handler.queued conn + 1) }

def serveStep (handler : ForwardHandler) : ServeEvent → Option ForwardHandler
  | .connect peer =>
      let conn := handler.nextConn
      let handler := { handler with nextConn := conn + 1 }
      if handler.allowed.any (peer ∉ ·) then some handler
      else
        let (granted, connSemaphore) := handler.connSemaphore.acquire conn
        some { handler with
          connSemaphore
          looping := if granted then conn :: handler.looping else handler.looping
          closed := Function.update handler.closed conn false }
  | .openBi conn => if handler.closed conn then none else some (handler.opened conn)
  | .close conn => some { handler with closed := Function.update handler.closed conn true }
  | .acquire conn =>
      if conn ∈ handler.looping then
        let (granted, semaphore) := handler.semaphore.acquire conn
        some { handler with
          semaphore
          looping := handler.looping.erase conn
          accepting := if granted then conn :: handler.accepting else handler.accepting }
      else none
  | .accept conn =>
      if conn ∈ handler.accepting ∧ 0 < handler.queued conn then
        some { handler with
          accepting := handler.accepting.erase conn
          queued := Function.update handler.queued conn (handler.queued conn - 1)
          forwarding := handler.forwarding + 1
          looping := conn :: handler.looping }
      else none
  | .fail conn =>
      if conn ∈ handler.accepting ∧ handler.closed conn then
        some { handler with
          accepting := handler.accepting.erase conn
          ended := conn :: handler.ended }.release
      else none
  | .leave conn =>
      if conn ∈ handler.ended then
        let (next, connSemaphore) := handler.connSemaphore.release
        some { handler with
          connSemaphore
          looping := next.toList ++ handler.looping
          ended := handler.ended.erase conn }
      else none
  | .finish =>
      if 0 < handler.forwarding then
        some { handler with forwarding := handler.forwarding - 1 }.release
      else none

@[simp]
theorem opened_self (handler : ForwardHandler) (conn : Nat) :
    (handler.opened conn).queued conn = handler.queued conn + 1 := Function.update_self ..

theorem opened_of_ne (handler : ForwardHandler) {conn other : Nat} (distinct : other ≠ conn) :
    (handler.opened conn).queued other = handler.queued other := Function.update_of_ne distinct ..

theorem openBi_iff {handler next : ForwardHandler} {conn : Nat} :
    serveStep handler (.openBi conn) = some next ↔
      handler.closed conn = false ∧ next = handler.opened conn := by
  cases closed : handler.closed conn with
  | true => simp [serveStep, closed]
  | false => simp [serveStep, closed, eq_comm]

/-! ## What is asked of every state -/

/-- The connection is in the loop. -/
def Admitted (handler : ForwardHandler) (conn : Nat) : Prop :=
  conn ∈ handler.looping ∨ conn ∈ handler.semaphore.waiters ∨ conn ∈ handler.accepting

/-- A queued stream can be accepted, at once or after its loop has taken a free permit. -/
def Accepts (handler : ForwardHandler) : Prop :=
  ∃ conn, (serveStep handler (.accept conn)).isSome ∨
    ∃ next, serveStep handler (.acquire conn) = some next ∧
      (serveStep next (.accept conn)).isSome

/-- At most so many streams are forwarded; below that a queued stream can be accepted, and so
can one that a peer opens next. -/
structure Serves (limit : Nat) (handler : ForwardHandler) : Prop where
  bounded : handler.forwarding ≤ limit
  accepts : handler.forwarding < limit →
    (∃ conn, Admitted handler conn ∧ 0 < handler.queued conn) → Accepts handler
  unhindered : handler.forwarding < limit → ∀ conn, Admitted handler conn →
    ∀ next, serveStep handler (.openBi conn) = some next → Accepts next

/-- The connections that hold a stream permit with nothing to accept. -/
def idle (handler : ForwardHandler) : Nat :=
  (handler.accepting.filter (handler.queued · = 0)).length

/-- The idle connections do not hold all the permits under which nothing is forwarded, or else
no other connection can have a stream. -/
def Spare (limit : Nat) (handler : ForwardHandler) : Prop :=
  handler.forwarding = limit ∨ handler.forwarding + idle handler < limit ∨
    ∀ conn, Admitted handler conn → handler.closed conn = false ∨ 0 < handler.queued conn →
      conn ∈ handler.accepting

/-! ## Permits are counted -/

/-- Every permit is free, with a connection in `accept_bi` or with a forwarded stream. -/
def Counted (limit : Nat) (handler : ForwardHandler) : Prop :=
  handler.semaphore.permits + handler.accepting.length + handler.forwarding = limit

theorem counted_release {limit : Nat} {handler : ForwardHandler}
    (counted : handler.semaphore.permits + handler.accepting.length + handler.forwarding + 1 =
      limit) : Counted limit handler.release := by
  have given := handler.semaphore.release_permits
  simp only [Counted, ForwardHandler.release, List.length_append]
  omega

theorem counted_step {limit : Nat} {handler next : ForwardHandler} {event : ServeEvent}
    (counted : Counted limit handler) (stepped : serveStep handler event = some next) :
    Counted limit next := by
  unfold Counted at counted
  cases event with
  | connect peer =>
      simp only [serveStep] at stepped
      split at stepped <;> cases stepped <;> exact counted
  | openBi conn =>
      obtain ⟨-, rfl⟩ := openBi_iff.mp stepped
      exact counted
  | close conn =>
      cases stepped
      exact counted
  | acquire conn =>
      simp only [serveStep, Option.ite_none_right_eq_some, Option.some.injEq] at stepped
      obtain ⟨-, rfl⟩ := stepped
      have taken := handler.semaphore.acquire_permits conn
      simp only [Counted]
      split at taken
      · next granted =>
        simp only [granted, if_true, List.length_cons]
        omega
      · next granted =>
        simp only [granted, Bool.false_eq_true, if_false]
        omega
  | accept conn =>
      simp only [serveStep, Option.ite_none_right_eq_some, Option.some.injEq] at stepped
      obtain ⟨⟨inside, -⟩, rfl⟩ := stepped
      have positive := List.length_pos_of_mem inside
      simp only [Counted, List.length_erase_of_mem inside]
      omega
  | fail conn =>
      simp only [serveStep, Option.ite_none_right_eq_some, Option.some.injEq] at stepped
      obtain ⟨⟨inside, -⟩, rfl⟩ := stepped
      have positive := List.length_pos_of_mem inside
      refine counted_release ?_
      simp only [List.length_erase_of_mem inside]
      omega
  | leave conn =>
      simp only [serveStep, Option.ite_none_right_eq_some, Option.some.injEq] at stepped
      obtain ⟨-, rfl⟩ := stepped
      exact counted
  | finish =>
      simp only [serveStep, Option.ite_none_right_eq_some, Option.some.injEq] at stepped
      obtain ⟨forwarding, rfl⟩ := stepped
      refine counted_release ?_
      dsimp only
      omega

/-! ## When a queued stream is accepted -/

theorem accept_isSome {handler : ForwardHandler} {conn : Nat} :
    (serveStep handler (.accept conn)).isSome ↔
      conn ∈ handler.accepting ∧ 0 < handler.queued conn := by
  simp only [serveStep]
  split
  · next here => exact iff_of_true rfl here
  · next absent => exact iff_of_false nofun absent

/-- The stream is queued where a permit is held, or at the head of a loop with a permit free. -/
theorem accepts_iff {handler : ForwardHandler} :
    Accepts handler ↔ ∃ conn, 0 < handler.queued conn ∧
      (conn ∈ handler.accepting ∨ (conn ∈ handler.looping ∧ 0 < handler.semaphore.permits)) := by
  unfold Accepts
  constructor
  · rintro ⟨conn, here | ⟨next, taken, there⟩⟩
    · obtain ⟨inside, queued⟩ := accept_isSome.mp here
      exact ⟨conn, queued, .inl inside⟩
    · obtain ⟨inside, queued⟩ := accept_isSome.mp there
      simp only [serveStep] at taken
      split at taken
      · next looping =>
        cases taken
        by_cases free : 0 < handler.semaphore.permits
        · exact ⟨conn, queued, .inr ⟨looping, free⟩⟩
        · refine ⟨conn, queued, .inl ?_⟩
          simpa only [Semaphore.acquire, dif_neg free, Bool.false_eq_true, if_false] using inside
      · cases taken
  · rintro ⟨conn, queued, inside | ⟨looping, free⟩⟩
    · exact ⟨conn, .inl (accept_isSome.mpr ⟨inside, queued⟩)⟩
    · refine ⟨conn, .inr ?_⟩
      simp only [serveStep, if_pos looping, Semaphore.acquire, dif_pos free, if_true,
        Option.some.injEq, exists_eq_left', List.mem_cons, true_or, true_and, queued]
      rfl

/-- With no permit free, the stream is queued where a permit is held. -/
theorem accepting_of_accepts {handler : ForwardHandler} (none : handler.semaphore.permits = 0)
    (accepts : Accepts handler) : ∃ conn ∈ handler.accepting, 0 < handler.queued conn := by
  obtain ⟨conn, queued, inside | ⟨-, free⟩⟩ := accepts_iff.mp accepts
  · exact ⟨conn, inside, queued⟩
  · rw [none] at free
    cases free

theorem idle_le (handler : ForwardHandler) : idle handler ≤ handler.accepting.length :=
  List.length_filter_le _ _

/-- All permit holders are idle, or one of them has a stream queued. -/
theorem idle_or_queued (handler : ForwardHandler) :
    idle handler = handler.accepting.length ∨
      ∃ conn ∈ handler.accepting, 0 < handler.queued conn := by
  by_cases all : ∀ conn ∈ handler.accepting, handler.queued conn = 0
  · left
    rw [idle, List.filter_eq_self.mpr (fun conn inside => decide_eq_true (all conn inside))]
  · right
    push Not at all
    obtain ⟨conn, inside, some⟩ := all
    exact ⟨conn, inside, Nat.pos_of_ne_zero some⟩

/-- With a permit to spare, any admitted connection can have its stream accepted. -/
theorem accepts_of_spare {limit : Nat} {handler : ForwardHandler} (counted : Counted limit handler)
    (below : handler.forwarding < limit) (spare : Spare limit handler) {conn : Nat}
    (admitted : Admitted handler conn) (queued : 0 < handler.queued conn) : Accepts handler := by
  refine accepts_iff.mpr ?_
  rcases idle_or_queued handler with all | ⟨other, inside, some⟩
  · rcases spare with full | some | others
    · exact absurd full (Nat.ne_of_lt below)
    · -- a permit is free, so nobody waits for one
      have free : 0 < handler.semaphore.permits := by
        unfold Counted at counted
        omega
      rcases admitted with looping | waiting | inside
      · exact ⟨conn, queued, .inr ⟨looping, free⟩⟩
      · rw [handler.semaphore.waiters_eq_nil free] at waiting
        cases waiting
      · exact ⟨conn, queued, .inl inside⟩
    · exact ⟨conn, queued, .inl (others conn admitted (.inr queued))⟩
  · exact ⟨other, some, .inl inside⟩

/-- A stream that is opened leaves a permit to spare. -/
theorem spare_opened {limit : Nat} {handler : ForwardHandler} {conn : Nat}
    (spare : Spare limit handler) (admitted : Admitted handler conn)
    (alive : handler.closed conn = false) : Spare limit (handler.opened conn) := by
  have fewer : ∀ other, (handler.opened conn).queued other = 0 → handler.queued other = 0 := by
    intro other none
    by_cases same : other = conn
    · rw [same, opened_self] at none
      cases none
    · rwa [opened_of_ne handler same] at none
  rcases spare with full | some | others
  · exact .inl full
  · refine .inr (.inl (Nat.lt_of_le_of_lt (Nat.add_le_add_left ?_ _) some))
    refine List.Sublist.length_le (List.monotone_filter_right _ ?_)
    intro other none
    exact decide_eq_true (fewer other (of_decide_eq_true none))
  · refine .inr (.inr fun other inside live => ?_)
    by_cases same : other = conn
    · rw [same]
      exact others conn admitted (.inl alive)
    · refine others other inside (live.imp id fun queued => ?_)
      rwa [opened_of_ne handler same] at queued

/-- The property of a state, by the permits of its idle connections. -/
theorem serves_iff {limit : Nat} {handler : ForwardHandler} (counted : Counted limit handler) :
    Serves limit handler ↔ Spare limit handler := by
  have bounded : handler.forwarding ≤ limit := by
    unfold Counted at counted
    omega
  constructor
  · intro serves
    by_cases full : handler.forwarding = limit
    · exact .inl full
    · have below : handler.forwarding < limit := Nat.lt_of_le_of_ne bounded full
      by_cases some : handler.forwarding + idle handler < limit
      · exact .inr (.inl some)
      · -- nothing is free and every permit holder is idle
        have most := idle_le handler
        unfold Counted at counted
        have none : handler.semaphore.permits = 0 := by omega
        have all : idle handler = handler.accepting.length := by omega
        have blank : ∀ conn ∈ handler.accepting, handler.queued conn = 0 := by
          rw [idle, List.length_filter_eq_length_iff] at all
          exact fun conn inside => of_decide_eq_true (all conn inside)
        refine .inr (.inr fun conn admitted live => ?_)
        by_cases queued : 0 < handler.queued conn
        · obtain ⟨other, inside, some⟩ :=
            accepting_of_accepts none (serves.accepts below ⟨conn, admitted, queued⟩)
          rw [blank other inside] at some
          cases some
        · have alive : handler.closed conn = false := live.resolve_right queued
          have taken : (handler.opened conn).semaphore.permits = 0 := none
          obtain ⟨other, inside, some⟩ := accepting_of_accepts taken
            (serves.unhindered below conn admitted _ (openBi_iff.mpr ⟨alive, rfl⟩))
          by_cases same : other = conn
          · rw [← same]
            exact inside
          · rw [opened_of_ne handler same, blank other inside] at some
            cases some
  · intro spare
    refine ⟨bounded, ?_, ?_⟩
    · rintro below ⟨conn, admitted, queued⟩
      exact accepts_of_spare counted below spare admitted queued
    · intro below conn admitted next opened
      obtain ⟨alive, rfl⟩ := openBi_iff.mp opened
      refine accepts_of_spare counted below (spare_opened spare admitted alive) admitted ?_
      rw [opened_self]
      exact Nat.succ_pos _

/-! ## Runs -/

theorem counted_start {maxConns : BitVec 64} {allowed : Option (Finset EndpointId)}
    {handler : ForwardHandler} (started : startServe maxConns allowed = some handler) :
    0 < maxConns.toNat ∧ maxConns.toNat ≤ maxPermits ∧ Counted maxConns.toNat handler := by
  unfold startServe connSemaphore newSemaphore at started
  by_cases zero : maxConns = 0
  · rw [if_pos zero, if_neg (by decide)] at started
    cases started
  · rw [if_neg zero] at started
    by_cases small : maxConns.toNat ≤ maxPermits
    · rw [if_pos small] at started
      cases started
      refine ⟨Nat.pos_of_ne_zero fun none => zero (BitVec.eq_of_toNat_eq none), small, ?_⟩
      rfl
    · rw [if_neg small] at started
      cases started

theorem startServe_isSome {maxConns : BitVec 64} (positive : 0 < maxConns.toNat)
    (small : maxConns.toNat ≤ maxPermits) (allowed : Option (Finset EndpointId)) :
    ∃ handler, startServe maxConns allowed = some handler := by
  have nonzero : maxConns ≠ 0 := by
    rintro rfl
    exact absurd positive (by decide)
  unfold startServe connSemaphore newSemaphore
  rw [if_neg nonzero, if_pos small]
  exact ⟨_, rfl⟩

/-- **Stream permits.** For every `--max-conns`, allow list and interleaving, the server starts
and serves in every state exactly when the value is neither zero nor beyond what a semaphore
holds, and idle connections never hold all the permits that others need. -/
theorem serve_permits_iff (maxConns : BitVec 64) (allowed : Option (Finset EndpointId))
    (events : List ServeEvent) :
    (∃ handler, startServe maxConns allowed = some handler ∧
        AllStates serveStep (Serves maxConns.toNat) handler events) ↔
      0 < maxConns.toNat ∧ maxConns.toNat ≤ maxPermits ∧
        ∀ handler, startServe maxConns allowed = some handler →
          AllStates serveStep (Spare maxConns.toNat) handler events := by
  have same : ∀ handler, startServe maxConns allowed = some handler →
      (AllStates serveStep (Serves maxConns.toNat) handler events ↔
        AllStates serveStep (Spare maxConns.toNat) handler events) := by
    intro handler started
    have counted : AllStates serveStep (Counted maxConns.toNat) handler events :=
      allStates_of_invariant (fun _ _ _ counted stepped => counted_step counted stepped)
        (counted_start started).2.2 events
    exact AllStates.congr (fun _ counted => serves_iff counted) counted
  constructor
  · rintro ⟨handler, started, serves⟩
    obtain ⟨positive, small, -⟩ := counted_start started
    refine ⟨positive, small, fun other again => ?_⟩
    cases started.symm.trans again
    exact (same handler started).mp serves
  · rintro ⟨positive, small, spare⟩
    obtain ⟨handler, started⟩ := startServe_isSome positive small allowed
    exact ⟨handler, started, (same handler started).mpr (spare handler started)⟩

/-- Two connections with two permits: one waits in `accept_bi` with nothing queued, the other
has a stream forwarded and a second one queued. -/
def idleBeside : List ServeEvent :=
  [.connect 1, .connect 2, .acquire 0, .acquire 1, .openBi 0, .accept 0, .acquire 0, .openBi 0]

/-- `--max-conns 0` panics, and with two permits an idle connection holds up a stream. -/
theorem serve_holds_up :
    startServe 0 none = none ∧
      ¬ ∃ handler, startServe 2 none = some handler ∧
        AllStates serveStep (Serves 2) handler idleBeside := by
  refine ⟨rfl, ?_⟩
  rintro ⟨handler, started, serves⟩
  cases started
  have last := serves.final rfl
  obtain ⟨conn, queued, inside | ⟨looping, -⟩⟩ :=
    accepts_iff.mp (last.accepts (by decide) ⟨0, .inr (.inl (by decide)), by decide⟩)
  · rw [List.mem_singleton.mp inside] at queued
    cases queued
  · cases looping

end LinkP2p.Stream
